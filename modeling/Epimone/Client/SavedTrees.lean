import Epimone.Client.Restore
import Epimone.Library.Tiling

/-! # Split trees as they are saved and rebuilt

The tree of a tab is written as boxed variants and rebuilt from them. A leaf is
built for a session that is alive and can be attached to; a split that loses a
side becomes the other side.
-/
set_option autoImplicit false

namespace Epimone.Client

open Daemon SplitTree Tiling

/-- A text without a NUL. -/
structure CString where
  chars : List Char
  terminated : Char.ofNat 0 ∉ chars
  deriving DecidableEq

namespace CString

def empty : CString := ⟨[], List.not_mem_nil⟩

def leafTag : CString := ⟨['l', 'e', 'a', 'f'], by decide⟩

def splitTag : CString := ⟨['s', 'p', 'l', 'i', 't'], by decide⟩

end CString

/-- A double; its arithmetic is exact. -/
inductive Double where
  | finite (q : ℚ)
  | infinite (negative : Bool)
  | nan
  deriving DecidableEq

abbrev GtkOrientation := Axis

def orientCode : GtkOrientation → CString
  | .horizontal => ⟨['h'], by decide⟩
  | .vertical => ⟨['v'], by decide⟩

/-- What the first letter says. -/
def orientation (orient : CString) : GtkOrientation :=
  if orient.chars.head? = some 'h' then .horizontal else .vertical

/-- A pointer to a widget of a split tree: NULL, the leaf of a terminal, or a GtkPaned with its extent, the
position of its divider and the ratio that a restore leaves on it. -/
inductive Widget where
  | null
  | leaf (sid : UInt64)
  | paned (o : GtkOrientation) (width height position : Int) (epiRatio : Option Double) (start finish : Widget)
  deriving DecidableEq

/-- The boxed variant of a node: "(st)", "(ssdvv)", or a value of another type. -/
inductive NodeVariant where
  | leaf (tag : CString) (id : UInt64)
  | split (tag orient : CString) (ratio : Double) (start finish : NodeVariant)
  | other (type : CString) (data : Bytes)
  deriving DecidableEq

def nodeToVariant : Widget → NodeVariant
  | .null => .leaf .leafTag 0
  | .leaf sid => .leaf .leafTag sid
  | .paned o width height position _ start finish =>
    let dim := match o with
      | .horizontal => width
      | .vertical => height
    let ratio := if 0 < dim then (position : ℚ) / dim else 1 / 2
    .split .splitTag (orientCode o) (.finite ratio) (nodeToVariant start) (nodeToVariant finish)

/-- A paned that is not allocated yet. -/
def newPaned (o : GtkOrientation) (ratio : Double) (start finish : Widget) : Widget :=
  .paned o 0 0 0 (some ratio) start finish

section Build

variable (alive : List Nat) (attach : UInt64 → Bool)

/-- The leaf of a session that is attached to. -/
def createTerminalForSession (id : UInt64) : Widget := if attach id then .leaf id else .null

def buildNode : NodeVariant → Widget
  | .leaf _ id => if id ≠ 0 ∧ lowWord id.toNat ∈ alive then createTerminalForSession attach id else .null
  | .split _ orient ratio start finish =>
    match buildNode start, buildNode finish with
    | .null, finish => finish
    | start, .null => start
    | start, finish => newPaned (orientation orient) ratio start finish
  | .other _ _ => .null

end Build

namespace Widget

/-- Every paned has two children. -/
def Full : Widget → Prop
  | null => False
  | leaf _ => True
  | paned _ _ _ _ _ start finish => start.Full ∧ finish.Full

def leafIds : Widget → List UInt64
  | null => []
  | leaf sid => [sid]
  | paned _ _ _ _ _ start finish => start.leafIds ++ finish.leafIds

/-- Every split by its orientation and the ratio left on it, with the leaves of its two sides. -/
def partings : Widget → List (Parting (GtkOrientation × Option Double) UInt64)
  | null => []
  | leaf _ => []
  | paned o _ _ _ ratio start finish =>
    start.partings ++ finish.partings ++ [⟨(o, ratio), start.leafIds, finish.leafIds⟩]

end Widget

namespace NodeVariant

/-- The session ids of the leaves; a node of another type stands for a leaf without one. -/
def leafIds : NodeVariant → List UInt64
  | leaf _ id => [id]
  | split _ _ _ start finish => start.leafIds ++ finish.leafIds
  | other _ _ => [0]

def partings : NodeVariant → List (Parting (GtkOrientation × Option Double) UInt64)
  | leaf _ _ => []
  | split _ orient ratio start finish =>
    start.partings ++ finish.partings ++ [⟨(orientation orient, some ratio), start.leafIds, finish.leafIds⟩]
  | other _ _ => []

def withoutRatios : NodeVariant → NodeVariant
  | leaf tag id => leaf tag id
  | split tag orient _ start finish => split tag orient .nan start.withoutRatios finish.withoutRatios
  | other type data => other type data

def tree : NodeVariant → SplitTree (GtkOrientation × Double) UInt64
  | leaf _ id => .leaf id
  | split _ orient ratio start finish => .split (orientation orient, ratio) start.tree finish.tree
  | other _ _ => .leaf 0

theorem leaves_tree (v : NodeVariant) : v.tree.leaves = v.leafIds := by
  induction v with
  | leaf tag id => rfl
  | split tag orient ratio start finish ihStart ihFinish => rw [tree, leaves, ihStart, ihFinish, leafIds]
  | other type data => rfl

theorem partings_tree (v : NodeVariant) :
    v.partings = v.tree.partings.map fun p => ⟨(p.label.1, some p.label.2), p.start, p.finish⟩ := by
  induction v with
  | leaf tag id => rfl
  | split tag orient ratio start finish ihStart ihFinish =>
    rw [partings, ihStart, ihFinish, tree, SplitTree.partings, List.map_append, List.map_append, leaves_tree,
      leaves_tree]
    rfl
  | other type data => rfl

end NodeVariant

namespace Widget

/-- The widgets that are built for a tree. -/
def ofTree : SplitTree (GtkOrientation × Double) UInt64 → Widget
  | .leaf sid => leaf sid
  | .split (o, ratio) start finish => newPaned o ratio (ofTree start) (ofTree finish)

def ofLeft (left : Option (SplitTree (GtkOrientation × Double) UInt64)) : Widget := left.elim null ofTree

variable (tree : SplitTree (GtkOrientation × Double) UInt64)

theorem ofTree_full : (ofTree tree).Full := by
  induction tree with
  | leaf sid => trivial
  | split label start finish ihStart ihFinish => exact ⟨ihStart, ihFinish⟩

theorem ofTree_ne_null : ofTree tree ≠ null := by
  cases tree with
  | leaf sid => exact Widget.noConfusion
  | split label start finish => exact Widget.noConfusion

theorem leafIds_ofTree : (ofTree tree).leafIds = tree.leaves := by
  induction tree with
  | leaf sid => rfl
  | split label start finish ihStart ihFinish =>
    rw [ofTree, newPaned, leafIds, ihStart, ihFinish, leaves]

theorem partings_ofTree :
    (ofTree tree).partings = tree.partings.map fun p => ⟨(p.label.1, some p.label.2), p.start, p.finish⟩ := by
  induction tree with
  | leaf sid => rfl
  | split label start finish ihStart ihFinish =>
    rw [ofTree, newPaned, partings, ihStart, ihFinish, SplitTree.partings, List.map_append, List.map_append,
      leafIds_ofTree, leafIds_ofTree]
    rfl

end Widget

section Pruned

variable (v : NodeVariant) (keep : UInt64 → Bool)

/-- The widgets of the leaves to keep. -/
def NodeVariant.left : Widget := .ofLeft (v.tree.prune keep)

theorem left_eq_null : v.left keep = .null ↔ ∀ id ∈ v.leafIds, keep id = false := by
  rw [← v.leaves_tree, ← prune_eq_none, NodeVariant.left]
  cases v.tree.prune keep with
  | none => exact iff_of_true rfl rfl
  | some tree => exact iff_of_false (Widget.ofTree_ne_null tree) (Option.some_ne_none tree)

theorem full_left (h : v.left keep ≠ .null) : (v.left keep).Full := by
  unfold NodeVariant.left at h ⊢
  cases hLeft : v.tree.prune keep with
  | none =>
    rw [hLeft] at h
    exact absurd rfl h
  | some tree => exact Widget.ofTree_full tree

theorem leafIds_left : (v.left keep).leafIds = v.leafIds.filter keep := by
  rw [← v.leaves_tree, ← leavesLeft_prune, NodeVariant.left]
  cases v.tree.prune keep with
  | none => rfl
  | some tree => exact Widget.leafIds_ofTree tree

theorem partings_left : (v.left keep).partings = (v.partings.map (Parting.kept keep)).filter Parting.stands := by
  have hLeft : (v.left keep).partings = (partingsLeft (v.tree.prune keep)).map
      fun p => ⟨(p.label.1, some p.label.2), p.start, p.finish⟩ := by
    unfold NodeVariant.left
    cases v.tree.prune keep with
    | none => rfl
    | some tree => exact Widget.partings_ofTree tree
  rw [hLeft, partingsLeft_prune, NodeVariant.partings_tree, List.map_map, List.filter_map, List.filter_map,
    List.map_map]
  rfl

variable {v keep}

/-- A side of which nothing is kept leaves its place to the other one. -/
theorem left_of_start_gone {tag orient : CString} {ratio : Double} {start finish : NodeVariant}
    (h : ∀ id ∈ start.leafIds, keep id = false) :
    NodeVariant.left (.split tag orient ratio start finish) keep = finish.left keep :=
  congrArg Widget.ofLeft (prune_of_start_gone (start.leaves_tree ▸ h))

theorem left_of_finish_gone {tag orient : CString} {ratio : Double} {start finish : NodeVariant}
    (h : ∀ id ∈ finish.leafIds, keep id = false) :
    NodeVariant.left (.split tag orient ratio start finish) keep = start.left keep :=
  congrArg Widget.ofLeft (prune_of_finish_gone (finish.leaves_tree ▸ h))

theorem left_congr {keep' : UInt64 → Bool} (h : ∀ id ∈ v.leafIds, keep id = keep' id) : v.left keep = v.left keep' :=
  congrArg Widget.ofLeft (prune_congr (v.leaves_tree ▸ h))

theorem left_of_all (h : ∀ id ∈ v.leafIds, keep id = true) : v.left keep = .ofTree v.tree :=
  congrArg Widget.ofLeft (prune_of_all keep (v.leaves_tree ▸ h))

end Pruned

section Built

variable {alive : List Nat} {attach : UInt64 → Bool}

/-- A leaf that is built. -/
def built (alive : List Nat) (attach : UInt64 → Bool) (id : UInt64) : Bool :=
  decide (id ≠ 0 ∧ lowWord id.toNat ∈ alive) && attach id

theorem buildNode_leaf (tag : CString) (id : UInt64) :
    buildNode alive attach (.leaf tag id) = if built alive attach id then .leaf id else .null := by
  unfold buildNode createTerminalForSession built
  by_cases hAlive : id ≠ 0 ∧ lowWord id.toNat ∈ alive
  · rw [if_pos hAlive, decide_eq_true hAlive, Bool.true_and]
  · rw [if_neg hAlive, decide_eq_false hAlive]
    rfl

/-- What is built of a node is what is left of it. -/
theorem buildNode_eq (v : NodeVariant) : buildNode alive attach v = v.left (built alive attach) := by
  induction v with
  | leaf tag id =>
    rw [buildNode_leaf, NodeVariant.left, NodeVariant.tree, prune]
    split <;> rfl
  | split tag orient ratio start finish ihStart ihFinish =>
    rw [buildNode, ihStart, ihFinish, NodeVariant.left, NodeVariant.left, NodeVariant.left, NodeVariant.tree, prune]
    cases start.tree.prune (built alive attach) with
    | none => rfl
    | some start' =>
      cases finish.tree.prune (built alive attach) with
      | none => cases start' <;> rfl
      | some finish' => cases start' <;> cases finish' <;> rfl
  | other type data => rfl

/-- The leaves to keep: those of a live session. -/
def kept (alive : List Nat) (id : UInt64) : Bool := decide (id ≠ 0 ∧ id.toNat ∈ alive)

theorem buildNode_kept (hAttach : ∀ id, id.toNat < 2 ^ 32 → kept alive id = true → attach id = true) {v : NodeVariant}
    (hBelow : ∀ id ∈ v.leafIds, id.toNat < 2 ^ 32) : buildNode alive attach v = v.left (kept alive) := by
  rw [buildNode_eq]
  apply left_congr
  intro id hId
  have hWord : lowWord id.toNat = id.toNat := Nat.mod_eq_of_lt (hBelow id hId)
  have hBuilt : built alive attach id = (kept alive id && attach id) := by
    unfold built kept
    rw [hWord]
  rw [hBuilt]
  cases hKept : kept alive id with
  | false => rfl
  | true => rw [hAttach id (hBelow id hId) hKept, Bool.and_true]

end Built

@[simp] theorem orientation_orientCode (o : GtkOrientation) : orientation (orientCode o) = o := by
  cases o <;> rfl

/-- The widgets of a tree that was written are written alike, but for the ratios. -/
theorem withoutRatios_ofTree (w : Widget) :
    (nodeToVariant (.ofTree (nodeToVariant w).tree)).withoutRatios = (nodeToVariant w).withoutRatios := by
  induction w with
  | null => rfl
  | leaf sid => rfl
  | paned o width height position epiRatio start finish ihStart ihFinish =>
    simp only [nodeToVariant, NodeVariant.tree, Widget.ofTree, newPaned, NodeVariant.withoutRatios, ihStart, ihFinish,
      orientation_orientCode]

theorem mem_buildAliveSet {srv : Server} (h : ∀ s ∈ listed srv, (srv.sess s).id < 2 ^ 32) {n : Nat} :
    n ∈ buildAliveSet srv ↔ ∃ s ∈ listed srv, (srv.sess s).alive = true ∧ (srv.sess s).id = n := by
  unfold buildAliveSet
  rw [List.mem_map]
  constructor
  · rintro ⟨s, hs, rfl⟩
    obtain ⟨hListed, hAlive⟩ := List.mem_filter.mp hs
    exact ⟨s, hListed, hAlive, (Nat.mod_eq_of_lt (h s hListed)).symm⟩
  · rintro ⟨s, hListed, hAlive, rfl⟩
    exact ⟨s, List.mem_filter.mpr ⟨hListed, hAlive⟩, Nat.mod_eq_of_lt (h s hListed)⟩

/-- Restoring a saved tree keeps the leaves of the live sessions, and the splits with such a leaf on both sides. -/
theorem restore_prunes_dead (w : Widget) (alive : List Nat) (attach : UInt64 → Bool)
    (hBelow : ∀ id ∈ (nodeToVariant w).leafIds, id.toNat < 2 ^ 32)
    (hAttach : ∀ id, id.toNat < 2 ^ 32 → kept alive id = true → attach id = true) :
    (buildNode alive attach (nodeToVariant w) = .null ↔
        ∀ id ∈ (nodeToVariant w).leafIds, kept alive id = false) ∧
      (buildNode alive attach (nodeToVariant w) ≠ .null → (buildNode alive attach (nodeToVariant w)).Full) ∧
      (buildNode alive attach (nodeToVariant w)).leafIds = (nodeToVariant w).leafIds.filter (kept alive) ∧
      (buildNode alive attach (nodeToVariant w)).partings =
        ((nodeToVariant w).partings.map (Parting.kept (kept alive))).filter Parting.stands ∧
      (∀ tag orient ratio start finish,
        (∀ id ∈ NodeVariant.leafIds (.split tag orient ratio start finish), id.toNat < 2 ^ 32) →
        ((∀ id ∈ start.leafIds, kept alive id = false) →
          buildNode alive attach (.split tag orient ratio start finish) = buildNode alive attach finish) ∧
        ((∀ id ∈ finish.leafIds, kept alive id = false) →
          buildNode alive attach (.split tag orient ratio start finish) = buildNode alive attach start)) ∧
      ((∀ id ∈ (nodeToVariant w).leafIds, kept alive id = true) →
        (nodeToVariant (buildNode alive attach (nodeToVariant w))).withoutRatios =
          (nodeToVariant w).withoutRatios) ∧
      ∀ srv : Server, (∀ s ∈ listed srv, (srv.sess s).id < 2 ^ 32) → alive = buildAliveSet srv → ∀ id,
        kept alive id = true ↔ id ≠ 0 ∧ ∃ s ∈ listed srv, (srv.sess s).alive = true ∧ (srv.sess s).id = id.toNat := by
  have hBuilt := @buildNode_kept alive attach hAttach (nodeToVariant w) hBelow
  rw [hBuilt]
  refine ⟨left_eq_null _ _, full_left _ _, leafIds_left _ _, partings_left _ _, ?_, ?_, ?_⟩
  · intro tag orient ratio start finish hIds
    have hStart := @buildNode_kept alive attach hAttach start fun id h => hIds id (List.mem_append_left _ h)
    have hFinish := @buildNode_kept alive attach hAttach finish fun id h => hIds id (List.mem_append_right _ h)
    rw [@buildNode_kept alive attach hAttach _ hIds, hStart, hFinish]
    exact ⟨left_of_start_gone, left_of_finish_gone⟩
  · intro hAll
    rw [left_of_all hAll]
    exact withoutRatios_ofTree w
  · rintro srv hIds rfl id
    rw [kept, decide_eq_true_iff, mem_buildAliveSet hIds]

/-- A pane without a session goes, and so does one whose session is dead. -/
theorem restore_prunes_dead_nested :
    (buildNode [1, 3] (fun id => decide (id.toNat ∈ [1, 3])) (nodeToVariant (.paned .horizontal 80 24 40 none (.leaf 1)
      (.paned .vertical 39 24 12 none (.paned .vertical 39 12 6 none (.leaf 2) .null) (.leaf 3))))).leafIds = [1, 3] :=
  (restore_prunes_dead (.paned .horizontal 80 24 40 none (.leaf 1)
    (.paned .vertical 39 24 12 none (.paned .vertical 39 12 6 none (.leaf 2) .null) (.leaf 3))) [1, 3]
    (fun id => decide (id.toNat ∈ [1, 3]))
    (fun id hId => of_decide_eq_true (List.all_eq_true (p := fun id => id.toNat < 2 ^ 32).mp (by decide) id hId))
    fun _ _ hKept => decide_eq_true (of_decide_eq_true hKept).2).2.2.1.trans (by decide)

section Restore

/-- The node without its tags, orientations and ratios. -/
def NodeVariant.node : NodeVariant → Node
  | .leaf _ id => .leaf id
  | .split _ _ _ start finish => .paned start.node finish.node
  | .other _ _ => .leaf 0

def joinNodes : Option Node → Option Node → Option Node
  | none, finish => finish
  | some start, none => some start
  | some start, some finish => some (.paned start finish)

def Widget.node : Widget → Option Node
  | .null => none
  | .leaf sid => some (.leaf sid)
  | .paned _ _ _ _ _ start finish => joinNodes start.node finish.node

theorem node_ofTree (tree : SplitTree (GtkOrientation × Double) UInt64) :
    ∃ node, (Widget.ofTree tree).node = some node := by
  induction tree with
  | leaf sid => exact ⟨_, rfl⟩
  | split label start finish ihStart ihFinish =>
    obtain ⟨start', hStart⟩ := ihStart
    obtain ⟨finish', hFinish⟩ := ihFinish
    refine ⟨.paned start' finish', ?_⟩
    rw [Widget.ofTree, newPaned, Widget.node, hStart, hFinish]
    rfl

theorem node_left_split (tag orient : CString) (ratio : Double) (start finish : NodeVariant)
    (keep : UInt64 → Bool) :
    (NodeVariant.left (.split tag orient ratio start finish) keep).node =
      joinNodes (start.left keep).node (finish.left keep).node := by
  rw [NodeVariant.left, NodeVariant.left, NodeVariant.left, NodeVariant.tree, prune]
  cases start.tree.prune keep with
  | none => rfl
  | some start' =>
    obtain ⟨node, hNode⟩ := node_ofTree start'
    cases finish.tree.prune keep with
    | none =>
      change (Widget.ofTree start').node = joinNodes (Widget.ofTree start').node none
      rw [hNode]
      rfl
    | some finish' => rfl

/-- The tabs of a restore have the trees that are built here. -/
theorem node_buildNode (alive : List Nat) (attach : UInt64 → Bool) (v : NodeVariant) (next : Nat) :
    (buildNode alive attach v).node = (v.node.build (built alive attach) next).1.map Split.toVariant := by
  rw [buildNode_eq]
  induction v generalizing next with
  | leaf tag id =>
    rw [NodeVariant.left, NodeVariant.tree, prune, NodeVariant.node, Node.build]
    split <;> rfl
  | split tag orient ratio start finish ihStart ihFinish =>
    rw [node_left_split, ihStart next, ihFinish (start.node.build (built alive attach) next).2, NodeVariant.node,
      Node.build]
    dsimp only
    cases (start.node.build (built alive attach) next).1 with
    | none => rfl
    | some start' =>
      cases (finish.node.build (built alive attach) (start.node.build (built alive attach) next).2).1 with
      | none => rfl
      | some finish' => rfl
  | other type data =>
    rw [NodeVariant.node, Node.build]
    split <;> rename_i hBuilt
    · rw [built, decide_eq_false (by simp), Bool.false_and] at hBuilt
      cases hBuilt
    · rfl

end Restore

end Epimone.Client
