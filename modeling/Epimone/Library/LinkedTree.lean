import Epimone.Library.SplitTree
import Mathlib.Data.List.Basic
import Mathlib.Data.List.Perm.Subperm
import Mathlib.Logic.Function.Basic

/-! # Trees of linked cells

A tree of splits as cells that name their children and their parent: items,
forks with two places and holders with one. Filling a place lets go of what was
there. A context is what is left of a tree around a subtree, the innermost
split first, and what takes a place in it keeps the rest as it is.
-/
set_option autoImplicit false

namespace Epimone

universe u

namespace SplitTree

inductive Side where
  | start
  | finish
  deriving DecidableEq, Repr

variable {σ : Type u} {α : Type}

/-- These leaves below these splits. -/
def under (above : List (σ × Side)) (entries : List (α × List (σ × Side))) : List (α × List (σ × Side)) :=
  entries.map fun e => (e.1, above ++ e.2)

def paths : SplitTree σ α → List (α × List (σ × Side))
  | leaf a => [(a, [])]
  | split label start finish => under [(label, .start)] start.paths ++ under [(label, .finish)] finish.paths

theorem under_nil (entries : List (α × List (σ × Side))) : under [] entries = entries := List.map_id _

theorem under_append (above : List (σ × Side)) (entries entries' : List (α × List (σ × Side))) :
    under above (entries ++ entries') = under above entries ++ under above entries' := List.map_append

theorem under_under (above above' : List (σ × Side)) (entries : List (α × List (σ × Side))) :
    under above (under above' entries) = under (above ++ above') entries := by
  unfold under
  rw [List.map_map]
  refine List.map_congr_left ?_
  intro e _
  exact congrArg (Prod.mk e.1) (List.append_assoc above above' e.2).symm

theorem fst_under (above : List (σ × Side)) (entries : List (α × List (σ × Side))) :
    (under above entries).map Prod.fst = entries.map Prod.fst := by
  unfold under
  rw [List.map_map]
  rfl

theorem leaves_eq_paths (tree : SplitTree σ α) : tree.leaves = tree.paths.map Prod.fst := by
  induction tree with
  | leaf a => rfl
  | split label start finish ihStart ihFinish =>
    rw [leaves, paths, List.map_append, fst_under, fst_under, ihStart, ihFinish]

end SplitTree

namespace LinkedTree

open SplitTree

/-- A tree whose leaves and splits are names of cells. -/
abbrev IdTree (σ : Type u) := SplitTree (Nat × σ) Nat

variable {σ : Type u}

namespace IdTree

def root : IdTree σ → Nat
  | .leaf a => a
  | .split label _ _ => label.1

def ids : IdTree σ → List Nat
  | .leaf a => [a]
  | .split label start finish => label.1 :: (ids start ++ ids finish)

def height : IdTree σ → Nat
  | .leaf _ => 1
  | .split _ start finish => max (height start) (height finish) + 1

theorem root_mem_ids (tree : IdTree σ) : root tree ∈ ids tree := by
  cases tree with
  | leaf a => exact List.mem_singleton_self a
  | split label start finish => exact List.mem_cons_self

theorem root_not_mem_tail {tree : IdTree σ} (h : (ids tree).Nodup) : root tree ∉ (ids tree).tail := by
  cases tree with
  | leaf a => exact List.not_mem_nil
  | split label start finish => exact (List.nodup_cons.mp h).1

theorem leaves_sublist_ids (tree : IdTree σ) : tree.leaves.Sublist (ids tree) := by
  induction tree with
  | leaf b => exact List.Sublist.refl _
  | split label start finish ihStart ihFinish => exact (ihStart.append ihFinish).cons _

theorem mem_ids_of_mem_leaves {tree : IdTree σ} {a : Nat} (h : a ∈ tree.leaves) : a ∈ ids tree :=
  (leaves_sublist_ids tree).subset h

theorem height_le_length (tree : IdTree σ) : height tree ≤ (ids tree).length := by
  induction tree with
  | leaf a => exact Nat.le_refl 1
  | split label start finish ihStart ihFinish =>
    simp only [height, ids, List.length_cons, List.length_append]
    omega

/-- A tree of distinct names below a bound is no higher than the bound. -/
theorem height_le_of_named {tree : IdTree σ} {n : Nat} (hNodup : (ids tree).Nodup) (hNamed : ∀ x ∈ ids tree, x < n) :
    height tree ≤ n := by
  have hRange : ids tree ⊆ List.range n := fun x hx => List.mem_range.mpr (hNamed x hx)
  have hLength := (hNodup.subperm hRange).length_le
  rw [List.length_range] at hLength
  exact Nat.le_trans (height_le_length tree) hLength

theorem mem_ids_of_path {tree : IdTree σ} {e : Nat × List ((Nat × σ) × Side)} (h : e ∈ tree.paths)
    {x : (Nat × σ) × Side} (hx : x ∈ e.2) : x.1.1 ∈ ids tree := by
  induction tree generalizing e with
  | leaf a =>
    rw [paths, List.mem_singleton] at h
    subst h
    cases hx
  | split label start finish ihStart ihFinish =>
    rcases List.mem_append.mp h with hSide | hSide
    · obtain ⟨e', hIn, rfl⟩ := List.mem_map.mp hSide
      rcases List.mem_cons.mp hx with rfl | hx
      · exact List.mem_cons_self
      · exact List.mem_cons_of_mem _ (List.mem_append_left _ (ihStart hIn hx))
    · obtain ⟨e', hIn, rfl⟩ := List.mem_map.mp hSide
      rcases List.mem_cons.mp hx with rfl | hx
      · exact List.mem_cons_self
      · exact List.mem_cons_of_mem _ (List.mem_append_right _ (ihFinish hIn hx))

end IdTree

open IdTree

section Contexts

/-- A split with a hole on one side. -/
structure Frame (σ : Type u) where
  label : Nat × σ
  side : Side
  other : IdTree σ

def Frame.fill (f : Frame σ) (tree : IdTree σ) : IdTree σ :=
  match f.side with
  | .start => .split f.label tree f.other
  | .finish => .split f.label f.other tree

def Frame.ids (f : Frame σ) : List Nat := f.label.1 :: IdTree.ids f.other

abbrev Context (σ : Type u) := List (Frame σ)

def plug : Context σ → IdTree σ → IdTree σ
  | [], tree => tree
  | f :: c, tree => plug c (f.fill tree)

def contextIds (c : Context σ) : List Nat := c.flatMap Frame.ids

/-- The siblings of what is in the hole and of the splits around it. -/
def siblings (c : Context σ) : List Nat := c.map fun f => root f.other

/-- The splits around the hole, the outermost first. -/
def spine (c : Context σ) : List ((Nat × σ) × Side) := (c.map fun f => (f.label, f.side)).reverse

theorem siblings_subset (c : Context σ) : siblings c ⊆ contextIds c := by
  intro x hx
  obtain ⟨f, hf, rfl⟩ := List.mem_map.mp hx
  exact List.mem_flatMap.mpr ⟨f, hf, List.mem_cons_of_mem _ (root_mem_ids f.other)⟩

theorem plug_append (c : Context σ) (f : Frame σ) (tree : IdTree σ) : plug (c ++ [f]) tree = f.fill (plug c tree) := by
  induction c generalizing tree with
  | nil => rfl
  | cons g c ih => exact ih (g.fill tree)

theorem exists_plug {tree : IdTree σ} {a : Nat} (h : a ∈ tree.leaves) : ∃ c, tree = plug c (.leaf a) := by
  induction tree with
  | leaf b => exact ⟨[], congrArg _ (List.mem_singleton.mp h).symm⟩
  | split label start finish ihStart ihFinish =>
    rcases List.mem_append.mp h with hStart | hFinish
    · obtain ⟨c, hc⟩ := ihStart hStart
      exact ⟨c ++ [⟨label, .start, finish⟩], by rw [plug_append, ← hc]; rfl⟩
    · obtain ⟨c, hc⟩ := ihFinish hFinish
      exact ⟨c ++ [⟨label, .finish, start⟩], by rw [plug_append, ← hc]; rfl⟩

theorem ids_fill (f : Frame σ) (tree : IdTree σ) : (ids (f.fill tree)).Perm (f.ids ++ ids tree) := by
  unfold Frame.fill
  split
  · exact List.Perm.cons _ List.perm_append_comm
  · exact .refl _

theorem ids_plug (c : Context σ) (tree : IdTree σ) : (ids (plug c tree)).Perm (contextIds c ++ ids tree) := by
  induction c generalizing tree with
  | nil => exact .refl _
  | cons f c ih =>
    have hFill : (contextIds c ++ ids (f.fill tree)).Perm (contextIds c ++ (f.ids ++ ids tree)) :=
      (ids_fill f tree).append_left _
    have hSwap : (contextIds c ++ (f.ids ++ ids tree)).Perm (contextIds (f :: c) ++ ids tree) := by
      rw [← List.append_assoc]
      exact List.perm_append_comm.append_right _
    exact ((ih (f.fill tree)).trans hFill).trans hSwap

theorem ids_graft (c : Context σ) (label : Nat × σ) (a b : Nat) :
    (ids (plug c (.split label (.leaf a) (.leaf b)))).Perm (label.1 :: b :: ids (plug c (.leaf a))) := by
  have hFork : (ids (plug c (.split label (.leaf a) (.leaf b)))).Perm (contextIds c ++ [label.1, a, b]) := ids_plug c _
  have hRotate : [label.1, a, b].Perm ([label.1, b] ++ [a]) := List.Perm.cons _ (List.Perm.swap b a [])
  have hMove : (contextIds c ++ ([label.1, b] ++ [a])).Perm ([label.1, b] ++ (contextIds c ++ [a])) := by
    rw [← List.append_assoc, ← List.append_assoc]
    exact List.perm_append_comm.append_right _
  have hOld : ([label.1, b] ++ (contextIds c ++ [a])).Perm ([label.1, b] ++ ids (plug c (.leaf a))) :=
    (ids_plug c (.leaf a)).symm.append_left _
  exact (hFork.trans (hRotate.append_left _)).trans (hMove.trans hOld)

theorem ids_collapse (f : Frame σ) (c : Context σ) (a : Nat) :
    (ids (plug (f :: c) (.leaf a))).Perm (a :: f.label.1 :: ids (plug c f.other)) := by
  have hFrame : (ids (plug (f :: c) (.leaf a))).Perm ((f.label.1 :: ids f.other ++ contextIds c) ++ [a]) :=
    ids_plug (f :: c) (.leaf a)
  have hOther : (ids f.other ++ contextIds c).Perm (ids (plug c f.other)) :=
    List.perm_append_comm.trans (ids_plug c f.other).symm
  have hLeaf : ((f.label.1 :: ids f.other ++ contextIds c) ++ [a]).Perm
      (a :: (f.label.1 :: (ids f.other ++ contextIds c))) := List.perm_append_comm
  exact hFrame.trans (hLeaf.trans ((hOther.cons _).cons _))

/-- The leaves before the hole and those after it. -/
def before : Context σ → List (Nat × List ((Nat × σ) × Side))
  | [] => []
  | f :: c =>
    match f.side with
    | .start => before c
    | .finish => before c ++ under (spine c ++ [(f.label, .start)]) f.other.paths

def after : Context σ → List (Nat × List ((Nat × σ) × Side))
  | [] => []
  | f :: c =>
    match f.side with
    | .start => under (spine c ++ [(f.label, .finish)]) f.other.paths ++ after c
    | .finish => after c

theorem spine_cons (f : Frame σ) (c : Context σ) : spine (f :: c) = spine c ++ [(f.label, f.side)] := by
  rw [spine, List.map_cons, List.reverse_cons]
  rfl

theorem paths_plug (c : Context σ) (tree : IdTree σ) :
    (plug c tree).paths = before c ++ under (spine c) tree.paths ++ after c := by
  induction c generalizing tree with
  | nil => exact ((List.append_nil _).trans (under_nil _)).symm
  | cons f c ih =>
    rw [plug, ih, spine_cons]
    obtain ⟨label, side, other⟩ := f
    cases side with
    | start =>
      rw [Frame.fill, paths, under_append, under_under, under_under, before, after]
      simp only [List.append_assoc]
    | finish =>
      rw [Frame.fill, paths, under_append, under_under, under_under, before, after]
      simp only [List.append_assoc]

theorem leaves_plug (c : Context σ) (tree : IdTree σ) :
    (plug c tree).leaves = (before c).map Prod.fst ++ tree.leaves ++ (after c).map Prod.fst := by
  rw [leaves_eq_paths, paths_plug, List.map_append, List.map_append, fst_under, leaves_eq_paths tree]

theorem mem_contextIds_of_spine {c : Context σ} {x : (Nat × σ) × Side} (hx : x ∈ spine c) : x.1.1 ∈ contextIds c := by
  obtain ⟨f, hf, rfl⟩ := List.mem_map.mp (List.mem_reverse.mp hx)
  exact List.mem_flatMap.mpr ⟨f, hf, List.mem_cons_self⟩

theorem mem_contextIds_of_beside {f : Frame σ} {c : Context σ} {side : Side} {e : Nat × List ((Nat × σ) × Side)}
    (he : e ∈ under (spine c ++ [(f.label, side)]) f.other.paths) {x : (Nat × σ) × Side} (hx : x ∈ e.2) :
    x.1.1 ∈ contextIds (f :: c) := by
  obtain ⟨e', hIn, rfl⟩ := List.mem_map.mp he
  rcases List.mem_append.mp hx with hAbove | hOther
  · rcases List.mem_append.mp hAbove with hSpine | hThis
    · exact List.mem_append_right _ (mem_contextIds_of_spine hSpine)
    · rw [List.mem_singleton.mp hThis]
      exact List.mem_append_left _ List.mem_cons_self
  · exact List.mem_append_left _ (List.mem_cons_of_mem _ (mem_ids_of_path hIn hOther))

theorem mem_contextIds_of_around {c : Context σ} {e : Nat × List ((Nat × σ) × Side)} (he : e ∈ before c ++ after c)
    {x : (Nat × σ) × Side} (hx : x ∈ e.2) : x.1.1 ∈ contextIds c := by
  induction c with
  | nil => cases he
  | cons f c ih =>
    have hOuter (hOld : e ∈ before c ++ after c) : x.1.1 ∈ contextIds (f :: c) := List.mem_append_right _ (ih hOld)
    rw [before, after] at he
    split at he
    · rcases List.mem_append.mp he with hBefore | hAfter
      · exact hOuter (List.mem_append_left _ hBefore)
      · rcases List.mem_append.mp hAfter with hBeside | hAfter
        · exact mem_contextIds_of_beside hBeside hx
        · exact hOuter (List.mem_append_right _ hAfter)
    · rcases List.mem_append.mp he with hBefore | hAfter
      · rcases List.mem_append.mp hBefore with hBefore | hBeside
        · exact hOuter (List.mem_append_left _ hBefore)
        · exact mem_contextIds_of_beside hBeside hx
      · exact hOuter (List.mem_append_right _ hAfter)

theorem paths_plug_leaf (c : Context σ) (a : Nat) : (plug c (.leaf a)).paths = before c ++ (a, spine c) :: after c := by
  rw [paths_plug, List.append_assoc]
  exact congrArg (fun above => before c ++ (a, above) :: after c) (List.append_nil _)

/-- A leaf split in two: the new leaf comes right after it. -/
theorem paths_plug_split (c : Context σ) (label : Nat × σ) (a b : Nat) :
    (plug c (.split label (.leaf a) (.leaf b))).paths =
      before c ++ (a, spine c ++ [(label, .start)]) :: (b, spine c ++ [(label, .finish)]) :: after c := by
  rw [paths_plug, List.append_assoc]
  rfl

/-- A leaf without one of the splits above it. -/
def without (d : Nat) (e : Nat × List ((Nat × σ) × Side)) : Nat × List ((Nat × σ) × Side) :=
  (e.1, e.2.filter fun x => x.1.1 ≠ d)

theorem without_of_not_mem {d : Nat} {e : Nat × List ((Nat × σ) × Side)} (h : ∀ x ∈ e.2, x.1.1 ≠ d) :
    without d e = e := by
  have hAll : e.2.filter (fun x => x.1.1 ≠ d) = e.2 :=
    List.filter_eq_self.mpr fun x hx => decide_eq_true (h x hx)
  exact congrArg (Prod.mk e.1) hAll

theorem map_without_of_not_mem {d : Nat} {entries : List (Nat × List ((Nat × σ) × Side))}
    (h : ∀ e ∈ entries, ∀ x ∈ e.2, x.1.1 ≠ d) : entries.map (without d) = entries :=
  (List.map_congr_left fun e he => without_of_not_mem (h e he)).trans (List.map_id _)

theorem map_without_beside {f : Frame σ} {c : Context σ} (side : Side) (hSpine : f.label.1 ∉ contextIds c)
    (hOther : f.label.1 ∉ ids f.other) :
    (under (spine c ++ [(f.label, side)]) f.other.paths).map (without f.label.1) = under (spine c) f.other.paths := by
  unfold under
  rw [List.map_map]
  refine List.map_congr_left ?_
  intro e he
  have hAbove : ∀ x ∈ spine c, x.1.1 ≠ f.label.1 := by
    intro x hx hSame
    exact hSpine (hSame ▸ mem_contextIds_of_spine hx)
  have hBelow : ∀ x ∈ e.2, x.1.1 ≠ f.label.1 := by
    intro x hx hSame
    exact hOther (hSame ▸ mem_ids_of_path he hx)
  have hKept : (spine c ++ [(f.label, side)] ++ e.2).filter (fun x => x.1.1 ≠ f.label.1) = spine c ++ e.2 := by
    rw [List.filter_append, List.filter_append, List.filter_eq_self.mpr fun x hx => decide_eq_true (hAbove x hx),
      List.filter_eq_self.mpr fun x hx => decide_eq_true (hBelow x hx)]
    simp
  exact congrArg (Prod.mk e.1) hKept

/-- The other side of a split in its place: the leaves around the hole stay, without that split above them. -/
theorem paths_plug_other {f : Frame σ} {c : Context σ} (hSpine : f.label.1 ∉ contextIds c)
    (hOther : f.label.1 ∉ ids f.other) :
    (plug c f.other).paths = (before (f :: c) ++ after (f :: c)).map (without f.label.1) := by
  have hAround : ∀ e ∈ before c ++ after c, ∀ x ∈ e.2, x.1.1 ≠ f.label.1 := by
    intro e he x hx hSame
    exact hSpine (hSame ▸ mem_contextIds_of_around he hx)
  have hBefore := map_without_of_not_mem fun e he => hAround e (List.mem_append_left _ he)
  have hAfter := map_without_of_not_mem fun e he => hAround e (List.mem_append_right _ he)
  rw [paths_plug, before, after]
  split
  · rw [List.map_append, List.map_append, map_without_beside _ hSpine hOther, hBefore, hAfter, List.append_assoc]
  · rw [List.map_append, List.map_append, map_without_beside _ hSpine hOther, hBefore, hAfter]

end Contexts

section Cells

inductive Cell (σ : Type u) where
  | item
  | fork (label : σ) (start finish : Option Nat)
  | holder (child : Option Nat)

structure Heap (σ : Type u) where
  parent : Nat → Option Nat
  cell : Nat → Cell σ

namespace Heap

/-- A place filled anew: what was there is let go of; a cell that has a parent is not taken. -/
def place (h : Heap σ) (target : Nat) (old : Option Nat) (cell : Cell σ) (child : Option Nat) : Heap σ :=
  if child = old ∨ child.any (fun c => (h.parent c).isSome) then h
  else
    ⟨fun x => if some x = child then some target else if some x = old then none else h.parent x,
      Function.update h.cell target cell⟩

def setStart (h : Heap σ) (fork : Nat) (child : Option Nat) : Heap σ :=
  match h.cell fork with
  | .fork label start finish => h.place fork start (.fork label child finish) child
  | _ => h

def setFinish (h : Heap σ) (fork : Nat) (child : Option Nat) : Heap σ :=
  match h.cell fork with
  | .fork label start finish => h.place fork finish (.fork label start child) child
  | _ => h

def setChild (h : Heap σ) (holder : Nat) (child : Option Nat) : Heap σ :=
  match h.cell holder with
  | .holder old => h.place holder old (.holder child) child
  | _ => h

/-- A new cell in the place of an old one: in the fork that is its parent, else in the holder. -/
def replace (h : Heap σ) (holder : Nat) (parent : Option Nat) (old : Nat) (new : Option Nat) : Heap σ :=
  match parent with
  | none => h.setChild holder new
  | some d =>
    match h.cell d with
    | .fork _ start _ => if start = some old then h.setStart d new else h.setFinish d new
    | _ => h.setChild holder new

/-- A fork in the place of an old cell, which becomes its first child, beside a new one. -/
def graft (h : Heap σ) (holder : Nat) (parent : Option Nat) (old fork new : Nat) : Heap σ :=
  ((h.replace holder parent old (some fork)).setStart fork (some old)).setFinish fork (some new)

/-- Both children of a fork let go, and one of them put where the fork was. -/
def collapse (h : Heap σ) (holder fork : Nat) (sibling : Option Nat) : Heap σ :=
  let parent := h.parent fork
  ((h.setStart fork none).setFinish fork none).replace holder parent fork sibling

/-- A new cell, which has no parent yet. -/
def alloc (h : Heap σ) (x : Nat) (cell : Cell σ) : Heap σ :=
  ⟨Function.update h.parent x none, Function.update h.cell x cell⟩

/-- The cells are the same in both heaps. -/
def Same (h h' : Heap σ) (names : List Nat) : Prop := ∀ x ∈ names, h'.parent x = h.parent x ∧ h'.cell x = h.cell x

/-- All cells but these are the same in both heaps. -/
def Keeps (h h' : Heap σ) (names : List Nat) : Prop := ∀ x, x ∉ names → h'.parent x = h.parent x ∧ h'.cell x = h.cell x

/-- The cells below the root of the tree are linked as the tree says. -/
def Below (h : Heap σ) : IdTree σ → Prop
  | .leaf a => h.cell a = .item
  | .split label start finish =>
    h.cell label.1 = .fork label.2 (some (root start)) (some (root finish)) ∧
      (h.parent (root start) = some label.1 ∧ Below h start) ∧ h.parent (root finish) = some label.1 ∧ Below h finish

/-- The holder holds the tree. -/
structure Holds (h : Heap σ) (holder : Nat) (tree : IdTree σ) : Prop where
  child : h.cell holder = .holder (some (root tree))
  parent : h.parent (root tree) = some holder
  below : h.Below tree

end Heap

/-- The fork of a frame around a hole with this root. -/
def Frame.cell (f : Frame σ) (r : Nat) : Cell σ :=
  match f.side with
  | .start => .fork f.label.2 (some r) (some (root f.other))
  | .finish => .fork f.label.2 (some (root f.other)) (some r)

/-- The cell that the hole of a context is in. -/
def above (holder : Nat) : Context σ → Nat
  | [] => holder
  | f :: _ => f.label.1

/-- The cells around a hole with this root. -/
def Heap.Around (h : Heap σ) (holder : Nat) : Context σ → Nat → Prop
  | [], r => h.cell holder = .holder (some r)
  | f :: c, r =>
    h.cell f.label.1 = f.cell r ∧ (h.parent (root f.other) = some f.label.1 ∧ h.Below f.other) ∧
      h.parent f.label.1 = some (above holder c) ∧ Around h holder c f.label.1

theorem root_fill (f : Frame σ) (tree : IdTree σ) : root (f.fill tree) = f.label.1 := by
  unfold Frame.fill
  split <;> rfl

namespace Heap

variable {h h' : Heap σ}

theorem below_fill {f : Frame σ} {tree : IdTree σ} :
    h.Below (f.fill tree) ↔ h.cell f.label.1 = f.cell (root tree) ∧
      (h.parent (root f.other) = some f.label.1 ∧ h.Below f.other) ∧ h.parent (root tree) = some f.label.1 ∧
      h.Below tree := by
  obtain ⟨label, side, other⟩ := f
  cases side with
  | start => exact and_congr_right fun _ => and_comm
  | finish => rfl

/-- A tree in a context is held if the context is linked around it and it is linked below. -/
theorem holds_plug {holder : Nat} {c : Context σ} {tree : IdTree σ} :
    h.Holds holder (plug c tree) ↔
      h.Around holder c (root tree) ∧ h.parent (root tree) = some (above holder c) ∧ h.Below tree := by
  induction c generalizing tree with
  | nil => exact ⟨fun hHolds => ⟨hHolds.child, hHolds.parent, hHolds.below⟩, fun hAll => ⟨hAll.1, hAll.2.1, hAll.2.2⟩⟩
  | cons f c ih =>
    rw [plug, ih, root_fill, below_fill, Around, above]
    constructor
    · rintro ⟨hAround, hParent, hCell, hOther, hTree⟩
      exact ⟨⟨hCell, hOther, hParent, hAround⟩, hTree⟩
    · rintro ⟨⟨hCell, hOther, hParent, hAround⟩, hTree⟩
      exact ⟨hAround, hParent, hCell, hOther, hTree⟩

theorem below_congr {tree : IdTree σ} (hCell : ∀ x ∈ ids tree, h'.cell x = h.cell x)
    (hParent : ∀ x ∈ (ids tree).tail, h'.parent x = h.parent x) (hBelow : h.Below tree) : h'.Below tree := by
  induction tree with
  | leaf a => exact (hCell a List.mem_cons_self).trans hBelow
  | split label start finish ihStart ihFinish =>
    obtain ⟨hThis, ⟨hStart, hStartBelow⟩, hFinish, hFinishBelow⟩ := hBelow
    have hLeft : ∀ x ∈ ids start, x ∈ ids start ++ ids finish := fun x hx => List.mem_append_left _ hx
    have hRight : ∀ x ∈ ids finish, x ∈ ids start ++ ids finish := fun x hx => List.mem_append_right _ hx
    refine ⟨(hCell _ List.mem_cons_self).trans hThis, ⟨?_, ?_⟩, ?_, ?_⟩
    · exact (hParent _ (hLeft _ (root_mem_ids start))).trans hStart
    · exact ihStart (fun x hx => hCell x (List.mem_cons_of_mem _ (hLeft x hx)))
        (fun x hx => hParent x (hLeft x (List.mem_of_mem_tail hx))) hStartBelow
    · exact (hParent _ (hRight _ (root_mem_ids finish))).trans hFinish
    · exact ihFinish (fun x hx => hCell x (List.mem_cons_of_mem _ (hRight x hx)))
        (fun x hx => hParent x (hRight x (List.mem_of_mem_tail hx))) hFinishBelow

theorem around_congr {holder : Nat} {c : Context σ} {r : Nat} (hHolder : h'.cell holder = h.cell holder)
    (hSame : Same h h' (contextIds c)) (hAround : h.Around holder c r) : h'.Around holder c r := by
  induction c generalizing r with
  | nil => exact hHolder.trans hAround
  | cons f c ih =>
    obtain ⟨hThis, ⟨hOther, hBelow⟩, hParent, hRest⟩ := hAround
    have hFrame : ∀ x ∈ f.ids, h'.parent x = h.parent x ∧ h'.cell x = h.cell x := fun x hx =>
      hSame x (List.mem_append_left _ hx)
    have hBeside : ∀ x ∈ ids f.other, h'.parent x = h.parent x ∧ h'.cell x = h.cell x := fun x hx =>
      hFrame x (List.mem_cons_of_mem _ hx)
    refine ⟨(hFrame _ List.mem_cons_self).2.trans hThis, ⟨?_, ?_⟩, (hFrame _ List.mem_cons_self).1.trans hParent, ?_⟩
    · exact (hBeside _ (root_mem_ids f.other)).1.trans hOther
    · exact below_congr (fun x hx => (hBeside x hx).2) (fun x hx => (hBeside x (List.mem_of_mem_tail hx)).1) hBelow
    · exact ih (fun x hx => hSame x (List.mem_append_right _ hx)) hRest

theorem holds_congr {holder : Nat} {tree : IdTree σ} (hHolder : h'.cell holder = h.cell holder)
    (hSame : Same h h' (ids tree)) (hHolds : h.Holds holder tree) : h'.Holds holder tree where
  child := hHolder.trans hHolds.child
  parent := (hSame _ (root_mem_ids tree)).1.trans hHolds.parent
  below := below_congr (fun x hx => (hSame x hx).2) (fun x hx => (hSame x (List.mem_of_mem_tail hx)).1) hHolds.below

/-- One place filled with another child, and nothing else. -/
structure Swapped (h h' : Heap σ) (target : Nat) (old : Option Nat) (cell : Cell σ) (child : Option Nat) : Prop where
  cell_target : h'.cell target = cell
  cell_other : ∀ x, x ≠ target → h'.cell x = h.cell x
  parent_child : ∀ x, child = some x → h'.parent x = some target
  parent_old : ∀ x, old = some x → h'.parent x = none
  parent_other : ∀ x, child ≠ some x → old ≠ some x → h'.parent x = h.parent x

theorem swapped_place {target : Nat} {old child : Option Nat} {cell : Cell σ} (hNe : child ≠ old)
    (hFree : ∀ x, child = some x → h.parent x = none) :
    Swapped h (h.place target old cell child) target old cell child := by
  have hGo : ¬(child = old ∨ child.any (fun c => (h.parent c).isSome) = true) := by
    rintro (hSame | hHad)
    · exact hNe hSame
    · obtain ⟨c, hc, hParent⟩ := (Option.any_eq_true _ _).mp hHad
      rw [hFree c hc] at hParent
      cases hParent
  rw [place, if_neg hGo]
  constructor
  · exact Function.update_self ..
  · intro x hx
    exact Function.update_of_ne hx ..
  · intro x hx
    exact if_pos hx.symm
  · intro x hx
    exact (if_neg fun hChild => hNe (hChild.symm.trans hx.symm)).trans (if_pos hx.symm)
  · intro x hChild hOld
    exact (if_neg fun hx => hChild hx.symm).trans (if_neg fun hx => hOld hx.symm)

theorem Swapped.keeps {target : Nat} {old child : Option Nat} {cell : Cell σ}
    (hSwapped : Swapped h h' target old cell child)
    {names : List Nat} (hTarget : target ∈ names) (hOld : ∀ x, old = some x → x ∈ names)
    (hChild : ∀ x, child = some x → x ∈ names) : Keeps h h' names := by
  intro x hx
  constructor
  · exact hSwapped.parent_other x (fun hSame => hx (hChild x hSame)) fun hSame => hx (hOld x hSame)
  · exact hSwapped.cell_other x fun hSame => hx (hSame ▸ hTarget)

theorem Keeps.trans {h'' : Heap σ} {names : List Nat} (hFirst : Keeps h h' names) (hSecond : Keeps h' h'' names) :
    Keeps h h'' names := fun x hx =>
  ⟨(hSecond x hx).1.trans (hFirst x hx).1, (hSecond x hx).2.trans (hFirst x hx).2⟩

theorem Keeps.mono {names names' : List Nat} (hKeeps : Keeps h h' names) (hSub : names ⊆ names') : Keeps h h' names' :=
  fun x hx => hKeeps x fun hIn => hx (hSub hIn)

theorem Keeps.same {names others : List Nat} (hKeeps : Keeps h h' names) (hApart : ∀ x ∈ others, x ∉ names) :
    Same h h' others := fun x hx => hKeeps x (hApart x hx)

theorem swapped_setStart {d : Nat} {label : σ} {start finish child : Option Nat}
    (hCell : h.cell d = .fork label start finish)
    (hNe : child ≠ start) (hFree : ∀ x, child = some x → h.parent x = none) :
    Swapped h (h.setStart d child) d start (.fork label child finish) child := by
  rw [setStart, hCell]
  exact swapped_place hNe hFree

theorem swapped_setFinish {d : Nat} {label : σ} {start finish child : Option Nat}
    (hCell : h.cell d = .fork label start finish)
    (hNe : child ≠ finish) (hFree : ∀ x, child = some x → h.parent x = none) :
    Swapped h (h.setFinish d child) d finish (.fork label start child) child := by
  rw [setFinish, hCell]
  exact swapped_place hNe hFree

theorem swapped_setChild {d : Nat} {old child : Option Nat} (hCell : h.cell d = .holder old) (hNe : child ≠ old)
    (hFree : ∀ x, child = some x → h.parent x = none) : Swapped h (h.setChild d child) d old (.holder child) child := by
  rw [setChild, hCell]
  exact swapped_place hNe hFree

theorem replace_spec {holder : Nat} {c : Context σ} {old new : Nat} (hAround : h.Around holder c old)
    (hFree : h.parent new = none) (hNe : new ≠ old) (hNodup : (holder :: contextIds c).Nodup)
    (hOld : old ∉ contextIds c) (hNew : new ∉ contextIds c) :
    ∃ cell, Swapped h (h.replace holder (some (above holder c)) old (some new)) (above holder c)
        (some old) cell (some new) ∧
      (h.replace holder (some (above holder c)) old (some new)).Around holder c new := by
  have hNeSome : some new ≠ some old := fun hSame => hNe (Option.some.inj hSame)
  have hFreeSome : ∀ x, some new = some x → h.parent x = none := by
    intro x hx
    rw [← Option.some.inj hx]
    exact hFree
  cases c with
  | nil =>
    have hCell : h.cell holder = .holder (some old) := hAround
    have hReplace : h.replace holder (some holder) old (some new) = h.setChild holder (some new) := by
      rw [replace, hCell]
    rw [above, hReplace]
    have hSwapped := swapped_setChild hCell hNeSome hFreeSome
    exact ⟨_, hSwapped, hSwapped.cell_target⟩
  | cons f c =>
    obtain ⟨hThis, ⟨hOther, hBelow⟩, hParent, hRest⟩ := hAround
    obtain ⟨hHolder, hFrame⟩ := List.nodup_cons.mp hNodup
    obtain ⟨hInner, _, hApart⟩ := List.nodup_append.mp hFrame
    have hLabel : f.label.1 ∈ contextIds (f :: c) := List.mem_append_left _ List.mem_cons_self
    have hBeside : ∀ x ∈ ids f.other, x ∈ contextIds (f :: c) := fun x hx =>
      List.mem_append_left _ (List.mem_cons_of_mem _ hx)
    have hOuter : ∀ x ∈ contextIds c, x ∈ contextIds (f :: c) := fun x hx => List.mem_append_right _ hx
    have hSwapped : Swapped h (h.replace holder (some f.label.1) old (some new)) f.label.1 (some old) (f.cell new)
        (some new) := by
      obtain ⟨label, side, other⟩ := f
      rw [replace, hThis, Frame.cell]
      cases side with
      | start =>
        dsimp only
        rw [if_pos rfl]
        exact swapped_setStart hThis hNeSome hFreeSome
      | finish =>
        have hRoot : some (root other) ≠ some old := by
          intro hSame
          exact hOld (Option.some.inj hSame ▸ hBeside _ (root_mem_ids other))
        dsimp only
        rw [if_neg hRoot]
        exact swapped_setFinish hThis hNeSome hFreeSome
    rw [above]
    have hKept : ∀ x ∈ contextIds (f :: c), (h.replace holder (some f.label.1) old (some new)).parent x =
        h.parent x := by
      intro x hx
      refine hSwapped.parent_other x ?_ ?_
      · intro hSame
        exact hNew (Option.some.inj hSame ▸ hx)
      · intro hSame
        exact hOld (Option.some.inj hSame ▸ hx)
    have hLabelOther : ∀ x ∈ ids f.other, x ≠ f.label.1 := by
      rintro x hx rfl
      exact (List.nodup_cons.mp hInner).1 hx
    have hLabelOuter : ∀ x ∈ contextIds c, x ≠ f.label.1 := by
      intro x hx hSame
      exact hApart _ List.mem_cons_self x hx hSame.symm
    refine ⟨_, hSwapped, hSwapped.cell_target, ⟨?_, ?_⟩, (hKept _ hLabel).trans hParent, ?_⟩
    · exact (hKept _ (hBeside _ (root_mem_ids f.other))).trans hOther
    · exact below_congr (fun x hx => hSwapped.cell_other x (hLabelOther x hx))
        (fun x hx => hKept x (hBeside x (List.mem_of_mem_tail hx))) hBelow
    · refine around_congr ?_ ?_ hRest
      · exact hSwapped.cell_other holder fun hSame => hHolder (hSame ▸ hLabel)
      · intro x hx
        exact ⟨hKept x (hOuter x hx), hSwapped.cell_other x (hLabelOuter x hx)⟩

theorem above_mem (holder : Nat) (c : Context σ) : above holder c ∈ holder :: contextIds c := by
  cases c with
  | nil => exact List.mem_cons_self
  | cons f c => exact List.mem_cons_of_mem _ (List.mem_append_left _ List.mem_cons_self)

theorem mem_ids_plug {c : Context σ} {tree : IdTree σ} {x : Nat} :
    x ∈ ids (plug c tree) ↔ x ∈ contextIds c ∨ x ∈ ids tree := by
  rw [(ids_plug c tree).mem_iff, List.mem_append]

theorem nodup_plug {holder : Nat} {c : Context σ} {tree : IdTree σ} (h : (holder :: ids (plug c tree)).Nodup) :
    (holder :: contextIds c).Nodup ∧ (ids tree).Nodup ∧ ∀ x ∈ ids tree, x ≠ holder ∧ x ∉ contextIds c := by
  obtain ⟨hHolder, hTree⟩ := List.nodup_cons.mp h
  obtain ⟨hContext, hInner, hApart⟩ := List.nodup_append.mp ((ids_plug c tree).nodup_iff.mp hTree)
  refine ⟨List.nodup_cons.mpr ⟨fun hIn => hHolder (mem_ids_plug.mpr (Or.inl hIn)), hContext⟩, hInner, ?_⟩
  intro x hx
  constructor
  · rintro rfl
    exact hHolder (mem_ids_plug.mpr (Or.inr hx))
  · intro hIn
    exact hApart x hIn x hx rfl

section Surgery

variable {holder : Nat} {c : Context σ}

/-- A new fork in the place of a leaf, with the leaf and a new one as its children. -/
theorem holds_graft {w d n : Nat} {label : σ} (hHolds : h.Holds holder (plug c (.leaf w)))
    (hNodup : (holder :: ids (plug c (.leaf w))).Nodup) (hFork : d ∉ holder :: ids (plug c (.leaf w)))
    (hItem : n ∉ holder :: ids (plug c (.leaf w))) (hNe : d ≠ n) (hForkCell : h.cell d = .fork label none none)
    (hItemCell : h.cell n = .item) (hForkFree : h.parent d = none) (hItemFree : h.parent n = none) :
    (h.graft holder (h.parent w) w d n).Holds holder (plug c (.split (d, label) (.leaf w) (.leaf n))) ∧
      Keeps h (h.graft holder (h.parent w) w d n) (holder :: d :: n :: ids (plug c (.leaf w))) := by
  obtain ⟨hAround, hParent, hLeaf⟩ := holds_plug.mp hHolds
  change h.Around holder c w at hAround
  change h.parent w = some (above holder c) at hParent
  change h.cell w = .item at hLeaf
  obtain ⟨hContext, _, hOutside⟩ := nodup_plug hNodup
  obtain ⟨hHolderW, hW⟩ := hOutside w (List.mem_singleton_self w)
  have hOld : ∀ x ∈ holder :: contextIds c, x ∈ holder :: ids (plug c (.leaf w)) := by
    intro x hx
    exact (List.mem_cons.mp hx).elim (fun hSame => List.mem_cons.mpr (Or.inl hSame)) fun hIn =>
      List.mem_cons_of_mem _ (mem_ids_plug.mpr (Or.inl hIn))
  have hWIn : w ∈ holder :: ids (plug c (.leaf w)) :=
    List.mem_cons_of_mem _ (mem_ids_plug.mpr (Or.inr (List.mem_singleton_self w)))
  have hDW : d ≠ w := fun hSame => hFork (hSame ▸ hWIn)
  have hNW : n ≠ w := fun hSame => hItem (hSame ▸ hWIn)
  have hAbove := above_mem holder c
  have hDAbove : d ≠ above holder c := fun hSame => hFork (hSame ▸ hOld _ hAbove)
  have hNAbove : n ≠ above holder c := fun hSame => hItem (hSame ▸ hOld _ hAbove)
  have hWAbove : w ≠ above holder c := by
    intro hSame
    rcases List.mem_cons.mp (hSame ▸ hAbove) with hHere | hHere
    · exact hHolderW hHere
    · exact hW hHere
  have hDContext : d ∉ contextIds c := fun hIn => hFork (hOld d (List.mem_cons_of_mem _ hIn))
  obtain ⟨cell, hFirst, hPlaced⟩ := replace_spec hAround hForkFree hDW hContext hW hDContext
  rw [graft, hParent]
  generalize h.replace holder (some (above holder c)) w (some d) = h₁ at hFirst hPlaced ⊢
  have hFork₁ : h₁.cell d = .fork label none none := (hFirst.cell_other d hDAbove).trans hForkCell
  have hSecond := swapped_setStart hFork₁ (Option.some_ne_none w) fun x hx => hFirst.parent_old x hx
  generalize h₁.setStart d (some w) = h₂ at hSecond ⊢
  have hFree₂ : h₂.parent n = none := by
    rw [hSecond.parent_other n (fun hSame => hNW (Option.some.inj hSame).symm) (fun hSame => nomatch hSame),
      hFirst.parent_other n (fun hSame => hNe (Option.some.inj hSame)) fun hSame => hNW (Option.some.inj hSame).symm]
    exact hItemFree
  have hThird := swapped_setFinish hSecond.cell_target (Option.some_ne_none n) fun x hx => Option.some.inj hx ▸ hFree₂
  generalize h₂.setFinish d (some n) = h₃ at hThird ⊢
  have hKeeps : Keeps h₁ h₃ [d, w, n] := by
    have hStart : Keeps h₁ h₂ [d, w, n] := by
      refine hSecond.keeps List.mem_cons_self (fun x hx => nomatch hx) ?_
      rintro x ⟨⟩
      simp
    refine hStart.trans (hThird.keeps List.mem_cons_self (fun x hx => nomatch hx) ?_)
    rintro x ⟨⟩
    simp
  have hRest : ∀ x ∈ holder :: contextIds c, x ∉ [d, w, n] := by
    intro x hx hIn
    rcases List.mem_cons.mp hIn with rfl | hIn
    · exact hFork (hOld x hx)
    · rcases List.mem_cons.mp hIn with rfl | hIn
      · exact (List.mem_cons.mp hx).elim hHolderW hW
      · rw [List.mem_singleton.mp hIn] at hx
        exact hItem (hOld n hx)
  constructor
  · refine holds_plug.mpr ⟨?_, ?_, hThird.cell_target, ⟨?_, ?_⟩, ?_, ?_⟩
    · exact around_congr (hKeeps holder (hRest holder List.mem_cons_self)).2
        (hKeeps.same fun x hx => hRest x (List.mem_cons_of_mem _ hx)) hPlaced
    · rw [root, hThird.parent_other d (fun hSame => hNe (Option.some.inj hSame).symm) (fun hSame => nomatch hSame),
        hSecond.parent_other d (fun hSame => hDW (Option.some.inj hSame).symm) fun hSame => nomatch hSame]
      exact hFirst.parent_child d rfl
    · rw [root, hThird.parent_other w (fun hSame => hNW (Option.some.inj hSame)) fun hSame => nomatch hSame]
      exact hSecond.parent_child w rfl
    · change h₃.cell w = .item
      rw [hThird.cell_other w hDW.symm, hSecond.cell_other w hDW.symm, hFirst.cell_other w hWAbove]
      exact hLeaf
    · exact hThird.parent_child n rfl
    · change h₃.cell n = .item
      rw [hThird.cell_other n hNe.symm, hSecond.cell_other n hNe.symm, hFirst.cell_other n hNAbove]
      exact hItemCell
  · have hWithin : holder :: ids (plug c (.leaf w)) ⊆ holder :: d :: n :: ids (plug c (.leaf w)) :=
      List.cons_subset_cons _ (List.Subset.trans (List.subset_cons_self _ _) (List.subset_cons_self _ _))
    have hReplaced : Keeps h h₁ (holder :: d :: n :: ids (plug c (.leaf w))) := by
      refine hFirst.keeps (hWithin (hOld _ hAbove)) ?_ ?_
      · rintro x ⟨⟩
        exact hWithin hWIn
      · rintro x ⟨⟩
        simp
    refine hReplaced.trans (hKeeps.mono ?_)
    intro x hx
    rcases List.mem_cons.mp hx with rfl | hx
    · simp
    · rcases List.mem_cons.mp hx with rfl | hx
      · exact hWithin hWIn
      · rw [List.mem_singleton.mp hx]
        simp

theorem cleared {d a b : Nat} {label : σ} (hCell : h.cell d = .fork label (some a) (some b)) (hNe : a ≠ b) :
    (∀ x, x ≠ d → ((h.setStart d none).setFinish d none).cell x = h.cell x) ∧
      ((h.setStart d none).setFinish d none).parent a = none ∧
        ((h.setStart d none).setFinish d none).parent b = none ∧
          ∀ x, x ≠ a → x ≠ b → ((h.setStart d none).setFinish d none).parent x = h.parent x := by
  have hFirst := swapped_setStart hCell (Option.some_ne_none a).symm fun x hx => nomatch hx
  generalize h.setStart d none = h₁ at hFirst ⊢
  have hSecond := swapped_setFinish hFirst.cell_target (Option.some_ne_none b).symm fun x hx => nomatch hx
  generalize h₁.setFinish d none = h₂ at hSecond ⊢
  refine ⟨?_, ?_, hSecond.parent_old b rfl, ?_⟩
  · intro x hx
    exact (hSecond.cell_other x hx).trans (hFirst.cell_other x hx)
  · rw [hSecond.parent_other a (fun hSame => nomatch hSame) fun hSame => hNe (Option.some.inj hSame).symm]
    exact hFirst.parent_old a rfl
  · intro x hA hB
    rw [hSecond.parent_other x (fun hSame => nomatch hSame) fun hSame => hB (Option.some.inj hSame).symm]
    exact hFirst.parent_other x (fun hSame => nomatch hSame) fun hSame => hA (Option.some.inj hSame).symm

/-- A leaf let go of, with its sibling in the place of their fork. -/
theorem holds_collapse {w : Nat} {f : Frame σ} (hHolds : h.Holds holder (plug (f :: c) (.leaf w)))
    (hNodup : (holder :: ids (plug (f :: c) (.leaf w))).Nodup) :
    (h.collapse holder f.label.1 (some (root f.other))).Holds holder (plug c f.other) ∧
      (h.collapse holder f.label.1 (some (root f.other))).parent w = none ∧
        (h.collapse holder f.label.1 (some (root f.other))).cell w = .item ∧
          Keeps h (h.collapse holder f.label.1 (some (root f.other))) (holder :: ids (plug (f :: c) (.leaf w))) := by
  obtain ⟨hAround, hParent, hLeaf⟩ := holds_plug.mp hHolds
  change h.Around holder (f :: c) w at hAround
  change h.parent w = some f.label.1 at hParent
  change h.cell w = .item at hLeaf
  obtain ⟨hCell, ⟨hOther, hBelow⟩, hForkParent, hRest⟩ := hAround
  obtain ⟨hContext, _, hOutside⟩ := nodup_plug hNodup
  obtain ⟨hHolderW, hW⟩ := hOutside w (List.mem_singleton_self w)
  obtain ⟨hHolder, hFrames⟩ := List.nodup_cons.mp hContext
  obtain ⟨hInner, hOuter, hApart⟩ := List.nodup_append.mp hFrames
  obtain ⟨hFork, hSibling⟩ := List.nodup_cons.mp hInner
  have hRoot := root_mem_ids f.other
  have hIn : ∀ x ∈ ids f.other, x ∈ contextIds (f :: c) := fun x hx =>
    List.mem_append_left _ (List.mem_cons_of_mem _ hx)
  have hForkIn : f.label.1 ∈ contextIds (f :: c) := List.mem_append_left _ List.mem_cons_self
  have hForkOuter : f.label.1 ∉ contextIds c := fun hx => hApart _ List.mem_cons_self _ hx rfl
  have hOtherOuter : ∀ x ∈ ids f.other, x ∉ contextIds c := fun x hx hC =>
    hApart x (List.mem_cons_of_mem _ hx) x hC rfl
  have hWOther : ∀ x ∈ ids f.other, x ≠ w := by
    rintro x hx rfl
    exact hW (hIn x hx)
  have hForkOther : ∀ x ∈ ids f.other, x ≠ f.label.1 := by
    rintro x hx rfl
    exact hFork hx
  have hWFork : w ≠ f.label.1 := fun hSame => hW (hSame ▸ hForkIn)
  obtain ⟨hCells, hFreeW, hFreeOther, hParents⟩ :
      (∀ x, x ≠ f.label.1 → ((h.setStart f.label.1 none).setFinish f.label.1 none).cell x = h.cell x) ∧
        ((h.setStart f.label.1 none).setFinish f.label.1 none).parent w = none ∧
          ((h.setStart f.label.1 none).setFinish f.label.1 none).parent (root f.other) = none ∧
            ∀ x, x ≠ w → x ≠ root f.other →
              ((h.setStart f.label.1 none).setFinish f.label.1 none).parent x = h.parent x := by
    obtain ⟨label, side, other⟩ := f
    cases side with
    | start => exact cleared hCell (hWOther _ hRoot).symm
    | finish =>
      obtain ⟨hCells, hOtherFree, hWFree, hParents⟩ := cleared hCell (hWOther _ hRoot)
      exact ⟨hCells, hWFree, hOtherFree, fun x hNeW hNeOther => hParents x hNeOther hNeW⟩
  rw [collapse, hForkParent]
  generalize (h.setStart f.label.1 none).setFinish f.label.1 none = h₂ at hCells hFreeW hFreeOther hParents ⊢
  have hPlace : h₂.Around holder c f.label.1 := by
    refine around_congr (hCells holder fun hSame => hHolder (hSame ▸ hForkIn)) ?_ hRest
    intro x hx
    refine ⟨hParents x ?_ ?_, hCells x ?_⟩
    · rintro rfl
      exact hW (List.mem_append_right _ hx)
    · rintro rfl
      exact hOtherOuter _ hRoot hx
    · rintro rfl
      exact hForkOuter hx
  have hOuterNodup : (holder :: contextIds c).Nodup :=
    List.nodup_cons.mpr ⟨fun hx => hHolder (List.mem_append_right _ hx), hOuter⟩
  obtain ⟨cell, hSwapped, hHealed⟩ := replace_spec hPlace hFreeOther (hForkOther _ hRoot) hOuterNodup hForkOuter
    (hOtherOuter _ hRoot)
  generalize h₂.replace holder (some (above holder c)) f.label.1 (some (root f.other)) = h₃ at hSwapped hHealed ⊢
  have hAbove := above_mem holder c
  have hOtherAbove : ∀ x ∈ ids f.other, x ≠ above holder c := by
    rintro x hx rfl
    rcases List.mem_cons.mp hAbove with hHere | hHere
    · exact hHolder (hHere ▸ hIn _ hx)
    · exact hOtherOuter _ hx hHere
  have hWAbove : w ≠ above holder c := by
    rintro rfl
    rcases List.mem_cons.mp hAbove with hHere | hHere
    · exact hHolderW hHere
    · exact hW (List.mem_append_right _ hHere)
  refine ⟨holds_plug.mpr ⟨hHealed, hSwapped.parent_child _ rfl, ?_⟩, ?_, ?_, ?_⟩
  · refine below_congr ?_ ?_ hBelow
    · intro x hx
      exact (hSwapped.cell_other x (hOtherAbove x hx)).trans (hCells x (hForkOther x hx))
    · intro x hx
      have hMem := List.mem_of_mem_tail hx
      have hNeRoot : x ≠ root f.other := by
        rintro rfl
        exact root_not_mem_tail hSibling hx
      rw [hSwapped.parent_other x (fun hSame => hNeRoot (Option.some.inj hSame).symm)
        fun hSame => hForkOther x hMem (Option.some.inj hSame).symm]
      exact hParents x (hWOther x hMem) hNeRoot
  · rw [hSwapped.parent_other w (fun hSame => hWOther _ hRoot (Option.some.inj hSame))
      fun hSame => hWFork (Option.some.inj hSame).symm]
    exact hFreeW
  · rw [hSwapped.cell_other w hWAbove, hCells w hWFork]
    exact hLeaf
  · intro x hx
    have hOld : ∀ y ∈ contextIds (f :: c), x ≠ y := by
      rintro y hy rfl
      exact hx (List.mem_cons_of_mem _ (mem_ids_plug.mpr (Or.inl hy)))
    have hNeW : x ≠ w := by
      rintro rfl
      exact hx (List.mem_cons_of_mem _ (mem_ids_plug.mpr (Or.inr (List.mem_singleton_self x))))
    have hNeRoot := hOld _ (hIn _ hRoot)
    have hNeFork := hOld _ hForkIn
    have hNeAbove : x ≠ above holder c := by
      rintro rfl
      rcases List.mem_cons.mp hAbove with hHere | hHere
      · exact hx (List.mem_cons.mpr (Or.inl hHere))
      · exact hOld _ (List.mem_append_right _ hHere) rfl
    constructor
    · rw [hSwapped.parent_other x (fun hSame => hNeRoot (Option.some.inj hSame).symm)
        fun hSame => hNeFork (Option.some.inj hSame).symm]
      exact hParents x hNeW hNeRoot
    · exact (hSwapped.cell_other x hNeAbove).trans (hCells x hNeFork)

end Surgery

end Heap

end Cells

end LinkedTree

end Epimone
