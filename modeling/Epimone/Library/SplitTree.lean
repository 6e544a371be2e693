import Mathlib.Data.List.Basic

/-! # Trees of splits

Full binary trees with values at the leaves and labels at the splits. Pruning a
tree to the leaves to keep puts the other side in the place of a split that
loses a side; the splits that stay are those with a leaf on both sides.
-/
set_option autoImplicit false

namespace Epimone

universe u v w

inductive SplitTree (σ : Type u) (α : Type v) where
  | leaf (a : α)
  | split (label : σ) (start finish : SplitTree σ α)

namespace SplitTree

variable {σ : Type u} {α : Type v}

def leaves : SplitTree σ α → List α
  | leaf a => [a]
  | split _ start finish => start.leaves ++ finish.leaves

/-- A split as its label and the leaves of its two sides. -/
structure Parting (σ : Type u) (α : Type v) where
  label : σ
  start : List α
  finish : List α

def partings : SplitTree σ α → List (Parting σ α)
  | leaf _ => []
  | split label start finish => start.partings ++ finish.partings ++ [⟨label, start.leaves, finish.leaves⟩]

theorem leaves_ne_nil (tree : SplitTree σ α) : tree.leaves ≠ [] := by
  induction tree with
  | leaf a => exact List.cons_ne_nil a []
  | split label start finish ihStart => exact List.append_ne_nil_of_left_ne_nil ihStart _

theorem length_partings (tree : SplitTree σ α) : tree.partings.length + 1 = tree.leaves.length := by
  induction tree with
  | leaf a => rfl
  | split label start finish ihStart ihFinish =>
    simp only [partings, leaves, List.length_append, List.length_singleton]
    omega

theorem mem_leaves_of_parting {tree : SplitTree σ α} {p : Parting σ α} (h : p ∈ tree.partings) {a : α}
    (ha : a ∈ p.start ++ p.finish) : a ∈ tree.leaves := by
  induction tree with
  | leaf b => exact absurd h List.not_mem_nil
  | split label start finish ihStart ihFinish =>
    rcases List.mem_append.mp h with hSides | hThis
    · rcases List.mem_append.mp hSides with hStart | hFinish
      · exact List.mem_append_left _ (ihStart hStart)
      · exact List.mem_append_right _ (ihFinish hFinish)
    · rw [List.mem_singleton.mp hThis] at ha
      exact ha

section Prune

/-- What stands for a split of which some sides may be gone. -/
def join (label : σ) : Option (SplitTree σ α) → Option (SplitTree σ α) → Option (SplitTree σ α)
  | none, finish => finish
  | some start, none => some start
  | some start, some finish => some (split label start finish)

def prune (keep : α → Bool) : SplitTree σ α → Option (SplitTree σ α)
  | leaf a => if keep a then some (leaf a) else none
  | split label start finish => join label (start.prune keep) (finish.prune keep)

/-- The leaves and the splits of what may be left of a tree. -/
def leavesLeft (left : Option (SplitTree σ α)) : List α := left.elim [] leaves

def partingsLeft (left : Option (SplitTree σ α)) : List (Parting σ α) := left.elim [] partings

theorem leavesLeft_eq_nil {left : Option (SplitTree σ α)} : leavesLeft left = [] ↔ left = none := by
  cases left with
  | none => exact iff_of_true rfl rfl
  | some tree => exact iff_of_false tree.leaves_ne_nil (Option.some_ne_none tree)

theorem leavesLeft_join (label : σ) (start finish : Option (SplitTree σ α)) :
    leavesLeft (join label start finish) = leavesLeft start ++ leavesLeft finish := by
  cases start with
  | none => rfl
  | some start =>
    cases finish with
    | none => exact (List.append_nil _).symm
    | some finish => rfl

variable (keep : α → Bool)

theorem leavesLeft_prune (tree : SplitTree σ α) : leavesLeft (tree.prune keep) = tree.leaves.filter keep := by
  induction tree with
  | leaf a =>
    rw [prune, leaves, List.filter_singleton]
    cases keep a <;> rfl
  | split label start finish ihStart ihFinish =>
    rw [prune, leavesLeft_join, ihStart, ihFinish, leaves, List.filter_append]

theorem prune_eq_none {tree : SplitTree σ α} : tree.prune keep = none ↔ ∀ a ∈ tree.leaves, keep a = false := by
  rw [← leavesLeft_eq_nil, leavesLeft_prune, List.filter_eq_nil_iff]
  simp

/-- A split as it is once only some leaves are kept. -/
def Parting.kept (p : Parting σ α) : Parting σ α := ⟨p.label, p.start.filter keep, p.finish.filter keep⟩

/-- Both sides of the split have a leaf. -/
def Parting.stands (p : Parting σ α) : Bool := !p.start.isEmpty && !p.finish.isEmpty

theorem partingsLeft_join (label : σ) (start finish : Option (SplitTree σ α)) :
    partingsLeft (join label start finish) = partingsLeft start ++ partingsLeft finish ++
      [⟨label, leavesLeft start, leavesLeft finish⟩].filter Parting.stands := by
  cases start with
  | none => simp [join, partingsLeft, leavesLeft, Parting.stands]
  | some start =>
    cases finish with
    | none => simp [join, partingsLeft, leavesLeft, Parting.stands]
    | some finish =>
      have hStart := start.leaves_ne_nil
      have hFinish := finish.leaves_ne_nil
      have hStands : Parting.stands ⟨label, start.leaves, finish.leaves⟩ = true := by
        simp [Parting.stands, hStart, hFinish]
      simp [join, partingsLeft, leavesLeft, partings, hStands]

theorem partingsLeft_prune (tree : SplitTree σ α) :
    partingsLeft (tree.prune keep) = (tree.partings.map (Parting.kept keep)).filter Parting.stands := by
  induction tree with
  | leaf a =>
    rw [prune]
    split <;> rfl
  | split label start finish ihStart ihFinish =>
    rw [prune, partingsLeft_join, ihStart, ihFinish, leavesLeft_prune, leavesLeft_prune, partings, List.map_append,
      List.map_append, List.filter_append, List.filter_append]
    rfl

theorem prune_of_all {tree : SplitTree σ α} (h : ∀ a ∈ tree.leaves, keep a = true) :
    tree.prune keep = some tree := by
  induction tree with
  | leaf a => exact if_pos (h a List.mem_cons_self)
  | split label start finish ihStart ihFinish =>
    rw [prune, ihStart fun a ha => h a (List.mem_append_left _ ha),
      ihFinish fun a ha => h a (List.mem_append_right _ ha)]
    rfl

variable {keep}

/-- A split that loses a side leaves its place to the other. -/
theorem prune_of_start_gone {label : σ} {start finish : SplitTree σ α} (h : ∀ a ∈ start.leaves, keep a = false) :
    (split label start finish).prune keep = finish.prune keep := by
  rw [prune, (prune_eq_none keep).mpr h]
  rfl

theorem prune_of_finish_gone {label : σ} {start finish : SplitTree σ α} (h : ∀ a ∈ finish.leaves, keep a = false) :
    (split label start finish).prune keep = start.prune keep := by
  rw [prune, (prune_eq_none keep).mpr h]
  cases start.prune keep <;> rfl

theorem prune_congr {keep' : α → Bool} {tree : SplitTree σ α} (h : ∀ a ∈ tree.leaves, keep a = keep' a) :
    tree.prune keep = tree.prune keep' := by
  induction tree with
  | leaf a => rw [prune, prune, h a List.mem_cons_self]
  | split label start finish ihStart ihFinish =>
    rw [prune, prune, ihStart fun a ha => h a (List.mem_append_left _ ha),
      ihFinish fun a ha => h a (List.mem_append_right _ ha)]

end Prune

section Relabel

variable {τ : Type w} (f : σ → τ)

def relabel : SplitTree σ α → SplitTree τ α
  | leaf a => leaf a
  | split label start finish => split (f label) start.relabel finish.relabel

theorem leaves_relabel (tree : SplitTree σ α) : (tree.relabel f).leaves = tree.leaves := by
  induction tree with
  | leaf a => rfl
  | split label start finish ihStart ihFinish => rw [relabel, leaves, ihStart, ihFinish, leaves]

theorem partings_relabel (tree : SplitTree σ α) :
    (tree.relabel f).partings = tree.partings.map fun p => ⟨f p.label, p.start, p.finish⟩ := by
  induction tree with
  | leaf a => rfl
  | split label start finish ihStart ihFinish =>
    rw [relabel, partings, ihStart, ihFinish, leaves_relabel, leaves_relabel, partings, List.map_append,
      List.map_append]
    rfl

theorem prune_relabel (keep : α → Bool) (tree : SplitTree σ α) :
    (tree.relabel f).prune keep = (tree.prune keep).map (relabel f) := by
  induction tree with
  | leaf a =>
    rw [relabel, prune, prune]
    split <;> rfl
  | split label start finish ihStart ihFinish =>
    rw [relabel, prune, ihStart, ihFinish, prune]
    cases start.prune keep with
    | none => rfl
    | some start => cases finish.prune keep <;> rfl

end Relabel

end SplitTree

end Epimone
