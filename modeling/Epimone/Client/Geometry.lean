import Epimone.Client.BlobText
import Mathlib.Data.Rat.Floor

/-! # The picture of a tab

The tree of a blob is laid out in the unit square, for the card of the tab. A
side of which all panes are pruned is found only after the other side has been
emitted, which is then taken back and laid out again over the whole rectangle.
-/
set_option autoImplicit false

namespace Epimone.Client

open Daemon SplitTree Tiling

structure EpimoneLayoutLeaf extends Rect ℚ where
  session : UInt64
  cols : Nat
  rows : Nat
  deriving DecidableEq

structure EpimoneLayoutSeam extends Rect ℚ where
  vertical : Bool
  deriving DecidableEq

/-- The arrays that the walk appends to. -/
abbrev Emission := List EpimoneLayoutLeaf × List EpimoneLayoutSeam

namespace Double

/-- The fraction of the start side: one half, where the ratio is not strictly between 0 and 1. -/
def share : Double → ℚ
  | finite q => if q ≤ 0 ∨ 1 ≤ q then 1 / 2 else q
  | infinite _ => 1 / 2
  | nan => 1 / 2

theorem share_of_proper {q : ℚ} (hPos : 0 < q) (hOne : q < 1) : (finite q).share = q :=
  if_neg (not_or.mpr ⟨not_le.mpr hPos, not_le.mpr hOne⟩)

theorem share_proper (ratio : Double) : 0 < ratio.share ∧ ratio.share < 1 := by
  have hHalf : (0 : ℚ) < 1 / 2 ∧ (1 / 2 : ℚ) < 1 := ⟨by norm_num, by norm_num⟩
  cases ratio with
  | finite q =>
    rw [share]
    split
    · exact hHalf
    · rename_i hProper
      rw [not_or, not_le, not_le] at hProper
      exact hProper
  | infinite negative => exact hHalf
  | nan => exact hHalf

end Double

def leafAt (id : UInt64) (r : Rect ℚ) : EpimoneLayoutLeaf := ⟨r, id, 0, 0⟩

def walkNodeGeometry : NodeVariant → Rect ℚ → Emission → Emission × Bool
  | .leaf _ id, r, (leaves, seams) =>
    if id ≠ 0 then ((leaves ++ [leafAt id r], seams), true) else ((leaves, seams), false)
  | .split _ orient ratio start finish, ⟨x, y, w, h⟩, (leaves, seams) =>
    let ratio := ratio.share
    let horizontal := orientation orient = .horizontal
    let a : Rect ℚ := if horizontal then ⟨x, y, w * ratio, h⟩ else ⟨x, y, w, h * ratio⟩
    let b : Rect ℚ := if horizontal then ⟨x + a.w, y, w - a.w, h⟩ else ⟨x, y + a.h, w, h - a.h⟩
    let (arrays, gotStart) := walkNodeGeometry start a (leaves, seams)
    let (arrays, gotEnd) := walkNodeGeometry finish b arrays
    if gotStart ≠ gotEnd then
      -- one side collapsed: the survivor once more, over the whole rectangle
      let arrays := (arrays.1.take leaves.length, arrays.2.take seams.length)
      ((if gotStart then walkNodeGeometry start ⟨x, y, w, h⟩ arrays else walkNodeGeometry finish ⟨x, y, w, h⟩ arrays).1,
        true)
    else if gotStart && gotEnd then
      let seam : EpimoneLayoutSeam :=
        if horizontal then ⟨⟨x + w * ratio, y, 0, h⟩, true⟩ else ⟨⟨x, y + h * ratio, w, 0⟩, false⟩
      ((arrays.1, arrays.2 ++ [seam]), true)
    else (arrays, false)
  | .other _ _, _, arrays => (arrays, false)

def cutOf (label : GtkOrientation × Double) : Cut ℚ := ⟨label.1, label.2.share⟩

def seamAt (label : Rect ℚ × Cut ℚ) : EpimoneLayoutSeam :=
  ⟨label.1.line label.2, decide (label.2.axis = .horizontal)⟩

/-- What is emitted for a tree that is laid out, and for what may be left of one. -/
def pictureOf (tree : SplitTree (Cut ℚ) UInt64) (r : Rect ℚ) : Emission :=
  ((place tree r).leaves.map fun e => leafAt e.1 e.2, (place tree r).partings.map fun p => seamAt p.label)

def pictureLeft (left : Option (SplitTree (Cut ℚ) UInt64)) (r : Rect ℚ) : Emission :=
  left.elim ([], []) fun tree => pictureOf tree r

/-- The panes with a session, as they are laid out. -/
def NodeVariant.arrangement (v : NodeVariant) : Option (SplitTree (Cut ℚ) UInt64) :=
  (v.tree.relabel cutOf).prune fun id => decide (id ≠ 0)

theorem pictureOf_split (cut : Cut ℚ) (start finish : SplitTree (Cut ℚ) UInt64) (r : Rect ℚ) :
    pictureOf (.split cut start finish) r =
      ((pictureOf start (r.start cut)).1 ++ (pictureOf finish (r.finish cut)).1,
        (pictureOf start (r.start cut)).2 ++ (pictureOf finish (r.finish cut)).2 ++ [seamAt (r, cut)]) := by
  simp [pictureOf, place, leaves, partings]

theorem walkNodeGeometry_split (tag orient : CString) (ratio : Double) (start finish : NodeVariant) (r : Rect ℚ)
    (arrays : Emission) :
    walkNodeGeometry (.split tag orient ratio start finish) r arrays =
      let cut := cutOf (orientation orient, ratio)
      let first := walkNodeGeometry start (r.start cut) arrays
      let second := walkNodeGeometry finish (r.finish cut) first.1
      let back : Emission := (second.1.1.take arrays.1.length, second.1.2.take arrays.2.length)
      if first.2 ≠ second.2 then
        ((if first.2 then walkNodeGeometry start r back else walkNodeGeometry finish r back).1, true)
      else if first.2 && second.2 then ((second.1.1, second.1.2 ++ [seamAt (r, cut)]), true)
      else (second.1, false) := by
  obtain ⟨x, y, w, h⟩ := r
  obtain ⟨leaves, seams⟩ := arrays
  rw [walkNodeGeometry]
  cases hAxis : orientation orient with
  | horizontal => rfl
  | vertical => rfl

/-- The walk appends the picture of the panes with a session, and says whether there are any. -/
theorem walkNodeGeometry_eq (v : NodeVariant) (r : Rect ℚ) (arrays : Emission) :
    walkNodeGeometry v r arrays =
      ((arrays.1 ++ (pictureLeft v.arrangement r).1, arrays.2 ++ (pictureLeft v.arrangement r).2),
        v.arrangement.isSome) := by
  induction v generalizing r arrays with
  | leaf tag id =>
    obtain ⟨leaves, seams⟩ := arrays
    rw [walkNodeGeometry, NodeVariant.arrangement, NodeVariant.tree, relabel, prune]
    by_cases hId : id ≠ 0
    · rw [if_pos hId, if_pos (decide_eq_true hId)]
      simp [pictureLeft, pictureOf, place, SplitTree.leaves, partings]
    · rw [if_neg hId, if_neg (by simpa using hId)]
      simp [pictureLeft]
  | split tag orient ratio start finish ihStart ihFinish =>
    have hJoin : NodeVariant.arrangement (.split tag orient ratio start finish) =
        join (cutOf (orientation orient, ratio)) start.arrangement finish.arrangement := rfl
    rw [walkNodeGeometry_split, hJoin]
    dsimp only
    simp only [ihStart, ihFinish]
    cases start.arrangement with
    | none =>
      cases finish.arrangement with
      | none => simp [join, pictureLeft]
      | some finish' => simp [join, pictureLeft]
    | some start' =>
      cases finish.arrangement with
      | none => simp [join, pictureLeft]
      | some finish' => simp [join, pictureLeft, pictureOf_split]
  | other type data => simp [walkNodeGeometry, NodeVariant.arrangement, NodeVariant.tree, relabel, prune, pictureLeft]

section Restored

def fraction : Option Double → ℚ
  | some (.finite q) => q
  | _ => 1 / 2

/-- The panes and the dividers of a tree of widgets, the start side of every paned with the fraction left on it. -/
def Widget.layOut : Widget → Rect ℚ → Emission
  | .null, _ => ([], [])
  | .leaf sid, r => ([leafAt sid r], [])
  | .paned o _ _ _ ratio start finish, r =>
    let cut : Cut ℚ := ⟨o, fraction ratio⟩
    let first := start.layOut (r.start cut)
    let second := finish.layOut (r.finish cut)
    (first.1 ++ second.1, first.2 ++ second.2 ++ [⟨r.line cut, decide (o = .horizontal)⟩])

/-- All ratios are strictly between 0 and 1. -/
def RatiosProper {α : Type} (partings : List (Parting (GtkOrientation × Option Double) α)) : Prop :=
  ∀ p ∈ partings, ∃ q : ℚ, p.label.2 = some (.finite q) ∧ 0 < q ∧ q < 1

theorem layOut_ofTree {tree : SplitTree (GtkOrientation × Double) UInt64}
    (h : RatiosProper (Widget.ofTree tree).partings) (r : Rect ℚ) :
    (Widget.ofTree tree).layOut r = pictureOf (tree.relabel cutOf) r := by
  induction tree generalizing r with
  | leaf sid => rfl
  | split label start finish ihStart ihFinish =>
    obtain ⟨o, ratio⟩ := label
    obtain ⟨q, hRatio, hPos, hOne⟩ := h _ (List.mem_append_right _ List.mem_cons_self)
    cases hRatio
    have hCut : cutOf (o, .finite q) = ⟨o, q⟩ := by rw [cutOf, Double.share_of_proper hPos hOne]
    have hStart : RatiosProper (Widget.ofTree start).partings :=
      fun p hp => h p (List.mem_append_left _ (List.mem_append_left _ hp))
    have hFinish : RatiosProper (Widget.ofTree finish).partings :=
      fun p hp => h p (List.mem_append_left _ (List.mem_append_right _ hp))
    rw [Widget.ofTree, newPaned, Widget.layOut, relabel, pictureOf_split, hCut, ihStart hStart, ihFinish hFinish]
    rfl

variable {alive : List Nat} {attach : UInt64 → Bool}

/-- The picture of a tab is the layout of the tree that restoring it builds, put behind what was there. -/
theorem picture_matches_restore (v : NodeVariant) (hRatios : RatiosProper v.partings)
    (hAlive : ∀ id ∈ v.leafIds, id ≠ 0 → lowWord id.toNat ∈ alive ∧ attach id = true) (r : Rect ℚ)
    (leaves : List EpimoneLayoutLeaf) (seams : List EpimoneLayoutSeam) :
    walkNodeGeometry v r (leaves, seams) =
      ((leaves ++ ((buildNode alive attach v).layOut r).1, seams ++ ((buildNode alive attach v).layOut r).2),
        decide (buildNode alive attach v ≠ .null)) := by
  have hBuilt : buildNode alive attach v = v.left fun id => decide (id ≠ 0) := by
    rw [buildNode_eq]
    apply left_congr
    intro id hId
    unfold built
    by_cases hSome : id ≠ 0
    · obtain ⟨hKey, hAttach⟩ := hAlive id hId hSome
      rw [decide_eq_true ⟨hSome, hKey⟩, hAttach, decide_eq_true hSome]
      rfl
    · rw [decide_eq_false fun hBoth => hSome hBoth.1, decide_eq_false hSome]
      rfl
  have hKept : RatiosProper (v.left fun id => decide (id ≠ 0)).partings := by
    intro p hp
    rw [partings_left] at hp
    obtain ⟨p', hOld, rfl⟩ := List.mem_map.mp (List.mem_filter.mp hp).1
    exact hRatios p' hOld
  rw [walkNodeGeometry_eq, hBuilt, NodeVariant.arrangement, prune_relabel]
  unfold NodeVariant.left at hKept ⊢
  cases hLeft : v.tree.prune fun id => decide (id ≠ 0) with
  | none => rfl
  | some tree =>
    rw [hLeft] at hKept
    have hLaid := @layOut_ofTree tree hKept r
    have hSome := decide_eq_true (Widget.ofTree_ne_null tree)
    change _ = ((leaves ++ ((Widget.ofTree tree).layOut r).1, seams ++ ((Widget.ofTree tree).layOut r).2),
      decide (Widget.ofTree tree ≠ .null))
    rw [hLaid, hSome]
    rfl

/-- Two splits that lose a pane each, inside a third. -/
def prunedTwice : NodeVariant :=
  .split .splitTag (orientCode .horizontal) (.finite (1 / 3))
    (.split .splitTag (orientCode .vertical) (.finite (1 / 4)) (.leaf .leafTag 0) (.leaf .leafTag 5))
    (.split .splitTag (orientCode .vertical) (.finite (1 / 2)) (.leaf .leafTag 6) (.leaf .leafTag 0))

theorem picture_matches_restore_prunedTwice : walkNodeGeometry prunedTwice ⟨0, 0, 1, 1⟩ ([], []) =
    (([leafAt 5 ⟨0, 0, 1 / 3, 1⟩, leafAt 6 ⟨1 / 3, 0, 2 / 3, 1⟩], [⟨⟨1 / 3, 0, 0, 1⟩, true⟩]), true) := by
  have hRatios : RatiosProper prunedTwice.partings := by
    intro p hp
    have hCases : p.label.2 = some (.finite (1 / 4)) ∨ p.label.2 = some (.finite (1 / 2)) ∨
        p.label.2 = some (.finite (1 / 3)) := by
      simp only [prunedTwice, NodeVariant.partings, List.nil_append, List.mem_append, List.mem_singleton] at hp
      rcases hp with (rfl | rfl) | rfl
      · exact Or.inl rfl
      · exact Or.inr (Or.inl rfl)
      · exact Or.inr (Or.inr rfl)
    rcases hCases with hRatio | hRatio | hRatio
    · exact ⟨_, hRatio, by norm_num, by norm_num⟩
    · exact ⟨_, hRatio, by norm_num, by norm_num⟩
    · exact ⟨_, hRatio, by norm_num, by norm_num⟩
  have hAlive : ∀ id ∈ prunedTwice.leafIds, id ≠ 0 → lowWord id.toNat ∈ [5, 6] ∧
      (fun _ : UInt64 => true) id = true := by
    have hAll : (prunedTwice.leafIds.all fun id => id ≠ 0 → lowWord id.toNat ∈ [5, 6]) = true := by decide
    exact fun id hId hSome => ⟨of_decide_eq_true (List.all_eq_true.mp hAll id hId) hSome, rfl⟩
  exact (picture_matches_restore prunedTwice hRatios hAlive ⟨0, 0, 1, 1⟩ [] []).trans (by decide +kernel)

end Restored

/-- The conversion of a double to guint: it drops the fraction, and has no defined result where the rest is
not a guint. -/
structure GuintCast where
  cast : ℚ → Nat
  lt : ∀ q, cast q < 2 ^ 32
  exact : ∀ (n : Nat) (q : ℚ), n < 2 ^ 32 → n ≤ q → q < n + 1 → cast q = n

def unitSquare : Rect ℚ := ⟨0, 0, 1, 1⟩

section Grid

variable (guint : GuintCast)

/-- The grid of the whole tab, from the pane whose grid is recorded. -/
def totalGrid (focused : UInt64) (fcols frows : Nat) (leaves : List EpimoneLayoutLeaf) : ℚ × ℚ :=
  let total : ℚ × ℚ :=
    match leaves.find? fun pane => decide (pane.session = focused ∧ 0 < pane.w ∧ 0 < pane.h) with
    | some pane => (fcols / pane.w, frows / pane.h)
    | none => (0, 0)
  if total.1 ≤ 0 ∨ total.2 ≤ 0 then (fcols, frows) else total

def derivedCount (total share : ℚ) : Nat := guint.cast (max 1 ⌊total * share + 1 / 2⌋)

def withGrid (total : ℚ × ℚ) (pane : EpimoneLayoutLeaf) : EpimoneLayoutLeaf :=
  { pane with cols := derivedCount guint total.1 pane.w, rows := derivedCount guint total.2 pane.h }

def blobGeometry (g : VariantText) (blob : Bytes) : Option Emission :=
  let (top, outs) := blobParse g blob
  match top, outs.tree with
  | some _, some tree =>
    let (leaves, seams) := (walkNodeGeometry tree unitSquare ([], [])).1
    if 0 < outs.cols ∧ 0 < outs.rows then
      some (leaves.map (withGrid guint (totalGrid outs.focused outs.cols outs.rows leaves)), seams)
    else some (leaves, seams)
  | _, _ => none

end Grid

section Tiled

/-- Leaf rectangles that tile the unit square, in the order of the panes with a session, and a seam for every
split that stays, where its two sides meet. -/
structure Pictured (tree : NodeVariant) (picture : Emission) : Prop where
  order : picture.1.map EpimoneLayoutLeaf.session = tree.leafIds.filter fun id => decide (id ≠ 0)
  tiles : Tiles unitSquare (picture.1.map EpimoneLayoutLeaf.toRect)
  seams_length : picture.2.length + 1 = picture.1.length
  seams : ∃ splits : List (Parting (Rect ℚ × Cut ℚ) (UInt64 × Rect ℚ)),
    picture.2 = splits.map (fun p => seamAt p.label) ∧
    (splits.map fun p => (p.start.map Prod.fst, p.finish.map Prod.fst)) =
      ((tree.partings.map (Parting.kept fun id => decide (id ≠ 0))).filter Parting.stands).map
        (fun p => (p.start, p.finish)) ∧
    ∀ p ∈ splits, Meets p ∧ ∀ e ∈ p.start ++ p.finish, ∃ pane ∈ picture.1, pane.session = e.1 ∧ pane.toRect = e.2

variable {v : NodeVariant} {left : SplitTree (Cut ℚ) UInt64}

theorem unitSquare_positive : unitSquare.Positive := ⟨one_pos, one_pos⟩

theorem leaves_arrangement (h : v.arrangement = some left) :
    left.leaves = v.leafIds.filter fun id => decide (id ≠ 0) := by
  have hLeft := leavesLeft_prune (fun id => decide (id ≠ 0)) (v.tree.relabel cutOf)
  rw [leaves_relabel, v.leaves_tree] at hLeft
  exact (congrArg leavesLeft h).symm.trans hLeft

theorem partings_arrangement (h : v.arrangement = some left) : left.partings =
    ((v.tree.partings.map fun p => ⟨cutOf p.label, p.start, p.finish⟩).map
      (Parting.kept fun id => decide (id ≠ 0))).filter Parting.stands := by
  have hLeft := partingsLeft_prune (fun id => decide (id ≠ 0)) (v.tree.relabel cutOf)
  rw [partings_relabel] at hLeft
  exact (congrArg partingsLeft h).symm.trans hLeft

theorem proper_arrangement (h : v.arrangement = some left) : Proper left := by
  intro p hp
  rw [partings_arrangement h] at hp
  obtain ⟨p', hp', rfl⟩ := List.mem_map.mp (List.mem_filter.mp hp).1
  obtain ⟨p'', _, rfl⟩ := List.mem_map.mp hp'
  exact ⟨(Double.share_proper _).1, (Double.share_proper _).2⟩

theorem sides_arrangement (h : v.arrangement = some left) : (left.partings.map fun p => (p.start, p.finish)) =
    ((v.partings.map (Parting.kept fun id => decide (id ≠ 0))).filter Parting.stands).map
      fun p => (p.start, p.finish) := by
  rw [partings_arrangement h, NodeVariant.partings_tree, List.map_map, List.map_map, List.filter_map, List.filter_map,
    List.map_map, List.map_map]
  rfl

theorem pictured_pictureOf (h : v.arrangement = some left) : Pictured v (pictureOf left unitSquare) where
  order := by
    rw [pictureOf, List.map_map, ← leaves_arrangement h, ← leaves_place left unitSquare]
    rfl
  tiles := by
    rw [pictureOf, List.map_map]
    exact tiles_place (proper_arrangement h) unitSquare_positive
  seams_length := by
    rw [pictureOf, List.length_map, List.length_map]
    exact (place left unitSquare).length_partings
  seams := by
    have hSides := congrArg (List.map Prod.snd) (partings_place left unitSquare)
    rw [List.map_map, List.map_map] at hSides
    refine ⟨(place left unitSquare).partings, rfl, hSides.trans (sides_arrangement h), ?_⟩
    intro p hp
    refine ⟨meets_place (proper_arrangement h) unitSquare_positive p hp, ?_⟩
    intro e he
    exact ⟨leafAt e.1 e.2, List.mem_map_of_mem (mem_leaves_of_parting hp he), rfl, rfl⟩

end Tiled

section Derived

/-- The focused pane has the recorded grid, and no pane is without a cell. -/
structure Gridded (outs : BlobOuts) (picture : Emission) : Prop where
  focused : ∀ pane ∈ picture.1, pane.session = outs.focused → pane.cols = outs.cols ∧ pane.rows = outs.rows
  positive : ∀ pane ∈ picture.1, 1 ≤ pane.cols ∧ 1 ≤ pane.rows

/-- The blob records a grid, and the focused session is one of the panes. -/
structure Recorded (outs : BlobOuts) (tree : NodeVariant) : Prop where
  cols : 0 < outs.cols
  rows : 0 < outs.rows
  focused_ne : outs.focused ≠ 0
  focused_mem : outs.focused ∈ tree.leafIds

/-- No pane is so much larger than the focused one that its share of the grid is not a guint. -/
def GridFits (outs : BlobOuts) (tree : NodeVariant) : Prop :=
  ∀ left, tree.arrangement = some left → ∀ e ∈ (place left unitSquare).leaves, ∀ f ∈ (place left unitSquare).leaves,
    f.1 = outs.focused →
      (outs.cols : ℚ) / f.2.w * e.2.w + 1 / 2 < 2 ^ 32 ∧ (outs.rows : ℚ) / f.2.h * e.2.h + 1 / 2 < 2 ^ 32

/-- A conversion that gives 0 for what is too large. -/
def saturated : GuintCast where
  cast q := if q < 2 ^ 32 then ⌊q⌋₊ else 0
  lt q := by
    split
    · rename_i hSmall
      rcases lt_or_ge q 0 with hNeg | hPos
      · rw [Nat.floor_of_nonpos hNeg.le]
        exact Nat.two_pow_pos 32
      · exact_mod_cast (Nat.floor_lt hPos).mpr (by exact_mod_cast hSmall)
    · exact Nat.two_pow_pos 32
  exact n q hn hLow hHigh := by
    have hTop : (n : ℚ) + 1 ≤ 2 ^ 32 := by exact_mod_cast Nat.succ_le_of_lt hn
    rw [if_pos (hHigh.trans_le hTop)]
    exact Nat.floor_eq_on_Ico n q ⟨hLow, hHigh⟩

variable (guint : GuintCast) {total share : ℚ}

theorem derivedCount_pos (h : total * share + 1 / 2 < 2 ^ 32) : 1 ≤ derivedCount guint total share := by
  have hFloor : ⌊total * share + 1 / 2⌋ < 2 ^ 32 := Int.floor_lt.mpr (by exact_mod_cast h)
  obtain ⟨n, hn⟩ := Int.eq_ofNat_of_zero_le (zero_le_one.trans (le_max_left (1 : ℤ) ⌊total * share + 1 / 2⌋))
  have hOne : (1 : ℤ) ≤ n := hn ▸ le_max_left _ _
  have hLess : (n : ℤ) < 2 ^ 32 := hn ▸ max_lt (by norm_num) hFloor
  have hCast : max (1 : ℚ) (⌊total * share + 1 / 2⌋ : ℤ) = n := by exact_mod_cast hn
  rw [derivedCount, hCast, guint.exact n n (by exact_mod_cast hLess) le_rfl (lt_add_one _)]
  exact_mod_cast hOne

/-- The recorded count is found again for the pane that it is of. -/
theorem derivedCount_focused {n : Nat} (hPos : 0 < n) (hLess : n < 2 ^ 32) (hShare : 0 < share) :
    derivedCount guint (n / share) share = n := by
  have hFloor : ⌊(n : ℚ) + 1 / 2⌋ = n := Int.floor_eq_iff.mpr ⟨by norm_num, by norm_num⟩
  have hCast : max (1 : ℚ) (⌊(n : ℚ) + 1 / 2⌋ : ℤ) = n := by
    rw [hFloor]
    exact max_eq_right (by exact_mod_cast hPos)
  rw [derivedCount, div_mul_cancel₀ _ hShare.ne', hCast]
  exact guint.exact n n hLess le_rfl (lt_add_one _)

theorem derivedCount_saturated (h : 2 ^ 32 ≤ total * share + 1 / 2) : derivedCount saturated total share = 0 := by
  have hFloor : (2 : ℤ) ^ 32 ≤ ⌊total * share + 1 / 2⌋ := Int.le_floor.mpr (by exact_mod_cast h)
  have hCast : (2 : ℚ) ^ 32 ≤ max (1 : ℚ) (⌊total * share + 1 / 2⌋ : ℤ) :=
    le_max_of_le_right (by exact_mod_cast hFloor)
  exact if_neg (not_lt.mpr hCast)

theorem totalGrid_eq {leaves : List EpimoneLayoutLeaf} {pane : EpimoneLayoutLeaf} {fcols frows : Nat}
    (hCols : 0 < fcols) (hRows : 0 < frows) (hPositive : ∀ pane ∈ leaves, pane.toRect.Positive)
    (hDistinct : (leaves.map EpimoneLayoutLeaf.session).Nodup) (hPane : pane ∈ leaves) :
    totalGrid pane.session fcols frows leaves = (fcols / pane.w, frows / pane.h) := by
  have hPos := hPositive pane hPane
  have hFound : (leaves.find? fun other => decide (other.session = pane.session ∧ 0 < other.w ∧ 0 < other.h)) =
      some pane := by
    cases hFind : leaves.find? fun other => decide (other.session = pane.session ∧ 0 < other.w ∧ 0 < other.h) with
    | none => exact absurd (decide_eq_true ⟨rfl, hPos.w, hPos.h⟩) (List.find?_eq_none.mp hFind pane hPane)
    | some other =>
      have hThis := List.find?_some hFind
      rw [decide_eq_true_iff] at hThis
      have hSame := hThis.1
      rw [List.inj_on_of_nodup_map hDistinct (List.mem_of_find?_eq_some hFind) hPane hSame]
  have hTotal : ¬ ((fcols : ℚ) / pane.w ≤ 0 ∨ (frows : ℚ) / pane.h ≤ 0) :=
    not_or.mpr ⟨not_le.mpr (div_pos (Nat.cast_pos.mpr hCols) hPos.w),
      not_le.mpr (div_pos (Nat.cast_pos.mpr hRows) hPos.h)⟩
  rw [totalGrid, hFound]
  exact if_neg hTotal

theorem blobGeometry_eq (guint : GuintCast) {g : VariantText} {blob : Bytes} {top : Payload} {outs : BlobOuts}
    {tree : NodeVariant} {left : SplitTree (Cut ℚ) UInt64} (hParsed : blobParse g blob = (some top, outs))
    (hTree : outs.tree = some tree) (hLeft : tree.arrangement = some left) :
    blobGeometry guint g blob =
      some (if 0 < outs.cols ∧ 0 < outs.rows then
        ((pictureOf left unitSquare).1.map
          (withGrid guint (totalGrid outs.focused outs.cols outs.rows (pictureOf left unitSquare).1)),
          (pictureOf left unitSquare).2)
      else pictureOf left unitSquare) := by
  unfold blobGeometry
  rw [hParsed]
  dsimp only
  rw [hTree]
  dsimp only
  rw [walkNodeGeometry_eq, hLeft]
  dsimp only
  rw [List.nil_append, List.nil_append]
  split <;> rfl

theorem Pictured.withGrid {v : NodeVariant} {picture : Emission} (h : Pictured v picture) (guint : GuintCast)
    (total : ℚ × ℚ) : Pictured v (picture.1.map (withGrid guint total), picture.2) where
  order := by
    rw [List.map_map]
    exact h.order
  tiles := by
    rw [List.map_map]
    exact h.tiles
  seams_length := by
    rw [List.length_map]
    exact h.seams_length
  seams := by
    obtain ⟨splits, hSeams, hSides, hMeets⟩ := h.seams
    refine ⟨splits, hSeams, hSides, fun p hp => ⟨(hMeets p hp).1, fun e he => ?_⟩⟩
    obtain ⟨pane, hPane, hSession, hRect⟩ := (hMeets p hp).2 e he
    exact ⟨_, List.mem_map_of_mem hPane, hSession, hRect⟩

theorem cols_blobParse_lt {g : VariantText} {blob : Bytes} {top : Payload} {outs : BlobOuts}
    (hParsed : blobParse g blob = (some top, outs)) : outs.cols < 2 ^ 32 ∧ outs.rows < 2 ^ 32 := by
  have hWord : (2 : Nat) ^ 16 < 2 ^ 32 := by decide
  rw [blobParse_some hParsed]
  cases top with
  | v1 top => exact ⟨Nat.two_pow_pos 32, Nat.two_pow_pos 32⟩
  | v2 top => exact ⟨top.cols.toNat_lt.trans hWord, top.rows.toNat_lt.trans hWord⟩
  | v3 top => exact ⟨top.cols.toNat_lt.trans hWord, top.rows.toNat_lt.trans hWord⟩

section Grids

variable {outs : BlobOuts} {tree : NodeVariant} {left : SplitTree (Cut ℚ) UInt64}
  (hLeft : tree.arrangement = some left) (hDistinct : (tree.leafIds.filter fun id => decide (id ≠ 0)).Nodup)
  (hRecorded : Recorded outs tree)

include hLeft hDistinct hRecorded

theorem grids_derived (guint : GuintCast) : ∃ f ∈ (place left unitSquare).leaves, f.1 = outs.focused ∧
    f.2.Positive ∧
    (∀ e ∈ (place left unitSquare).leaves, e.1 = outs.focused → e = f) ∧
    (pictureOf left unitSquare).1.map
        (withGrid guint (totalGrid outs.focused outs.cols outs.rows (pictureOf left unitSquare).1)) =
      (place left unitSquare).leaves.map fun e => withGrid guint (outs.cols / f.2.w,
        outs.rows / f.2.h) (leafAt e.1 e.2) := by
  have hIds := (leaves_place left unitSquare).trans (leaves_arrangement hLeft)
  have hNodup : ((place left unitSquare).leaves.map Prod.fst).Nodup := hIds ▸ hDistinct
  have hMem : outs.focused ∈ (place left unitSquare).leaves.map Prod.fst := by
    rw [hIds]
    exact List.mem_filter.mpr ⟨hRecorded.focused_mem, decide_eq_true hRecorded.focused_ne⟩
  obtain ⟨f, hf, hFocused⟩ := List.mem_map.mp hMem
  have hPositive : ∀ pane ∈ (pictureOf left unitSquare).1, pane.toRect.Positive :=
    fun pane hPane => (pictured_pictureOf hLeft).tiles.positive _ (List.mem_map_of_mem hPane)
  have hPane : leafAt f.1 f.2 ∈ (pictureOf left unitSquare).1 := List.mem_map_of_mem hf
  have hSessions : ((pictureOf left unitSquare).1.map EpimoneLayoutLeaf.session).Nodup :=
    (pictured_pictureOf hLeft).order ▸ hDistinct
  have hTotal := totalGrid_eq hRecorded.cols hRecorded.rows hPositive hSessions hPane
  have hTotal' : totalGrid outs.focused outs.cols outs.rows (pictureOf left unitSquare).1 =
      ((outs.cols : ℚ) / f.2.w, (outs.rows : ℚ) / f.2.h) := hFocused ▸ hTotal
  refine ⟨f, hf, hFocused, hPositive _ hPane, ?_, ?_⟩
  · intro e he hSame
    exact List.inj_on_of_nodup_map hNodup he hf (hSame.trans hFocused.symm)
  · rw [hTotal', pictureOf, List.map_map]
    rfl

/-- The grids are as recorded, and none is empty, for every conversion to guint if and only if all are guints. -/
theorem gridded_iff (hCols : outs.cols < 2 ^ 32) (hRows : outs.rows < 2 ^ 32) :
    (∀ guint, Gridded outs ((pictureOf left unitSquare).1.map
        (withGrid guint (totalGrid outs.focused outs.cols outs.rows (pictureOf left unitSquare).1)),
        (pictureOf left unitSquare).2)) ↔ GridFits outs tree := by
  constructor
  · intro hAll
    obtain ⟨f, hf, hFocused, hPositive, hOnly, hGrids⟩ :=
      @grids_derived outs tree left hLeft hDistinct hRecorded saturated
    have hPos := (hAll saturated).positive
    rw [hGrids] at hPos
    intro left' hLeft' e he f' hf' hFocused'
    cases hLeft.symm.trans hLeft'
    rw [hOnly f' hf' hFocused']
    obtain ⟨hCol, hRow⟩ := hPos _ (List.mem_map_of_mem he)
    constructor
    · by_contra hOver
      have hZero := derivedCount_saturated (not_lt.mp hOver)
      exact absurd hCol (by rw [withGrid]; dsimp only; rw [leafAt, hZero]; decide)
    · by_contra hOver
      have hZero := derivedCount_saturated (not_lt.mp hOver)
      exact absurd hRow (by rw [withGrid]; dsimp only; rw [leafAt, hZero]; decide)
  · intro hFits guint
    obtain ⟨f, hf, hFocused, hPositive, hOnly, hGrids⟩ := @grids_derived outs tree left hLeft hDistinct hRecorded guint
    rw [hGrids]
    constructor
    · intro pane hPane hSession
      obtain ⟨e, he, rfl⟩ := List.mem_map.mp hPane
      rw [hOnly e he hSession]
      exact ⟨derivedCount_focused guint hRecorded.cols hCols hPositive.w,
        derivedCount_focused guint hRecorded.rows hRows hPositive.h⟩
    · intro pane hPane
      obtain ⟨e, he, rfl⟩ := List.mem_map.mp hPane
      obtain ⟨hCol, hRow⟩ := hFits left hLeft e he f hf hFocused
      exact ⟨derivedCount_pos guint hCol, derivedCount_pos guint hRow⟩

end Grids

end Derived

theorem arrangement_of_some {tree : NodeVariant} (h : ∃ id ∈ tree.leafIds, id ≠ 0) :
    ∃ left, tree.arrangement = some left := by
  rw [← Option.ne_none_iff_exists', NodeVariant.arrangement, ne_eq, prune_eq_none, leaves_relabel, tree.leaves_tree]
  obtain ⟨id, hId, hSome⟩ := h
  intro hNone
  exact hSome (not_not.mp (of_decide_eq_false (hNone id hId)))

/-- The picture of a tab tiles the unit square; its grids are as recorded, and nowhere empty, if and only if the
shares of all panes are guints. -/
theorem blob_geometry_tiles {g : VariantText} {blob : Bytes} {top : Payload} {outs : BlobOuts} {tree : NodeVariant}
    (hParsed : blobParse g blob = (some top, outs)) (hTree : outs.tree = some tree)
    (hSome : ∃ id ∈ tree.leafIds, id ≠ 0) (hDistinct : (tree.leafIds.filter fun id => decide (id ≠ 0)).Nodup) :
    (∀ guint, ∃ picture, blobGeometry guint g blob = some picture ∧ Pictured tree picture) ∧
      ((∀ guint, ∃ picture, blobGeometry guint g blob = some picture ∧ Pictured tree picture ∧
        (Recorded outs tree → Gridded outs picture)) ↔ (Recorded outs tree → GridFits outs tree)) := by
  obtain ⟨left, hLeft⟩ := arrangement_of_some hSome
  have hPictured := pictured_pictureOf hLeft
  have hAlways : ∀ guint, ∃ picture, blobGeometry guint g blob = some picture ∧ Pictured tree picture := by
    intro guint
    rw [blobGeometry_eq guint hParsed hTree hLeft]
    split
    · exact ⟨_, rfl, hPictured.withGrid guint _⟩
    · exact ⟨_, rfl, hPictured⟩
  refine ⟨hAlways, ?_⟩
  obtain ⟨hCols, hRows⟩ := cols_blobParse_lt hParsed
  by_cases hRecorded : Recorded outs tree
  · have hShown : ∀ guint, blobGeometry guint g blob = some ((pictureOf left unitSquare).1.map
        (withGrid guint (totalGrid outs.focused outs.cols outs.rows (pictureOf left unitSquare).1)),
        (pictureOf left unitSquare).2) := by
      intro guint
      rw [blobGeometry_eq guint hParsed hTree hLeft, if_pos ⟨hRecorded.cols, hRecorded.rows⟩]
    rw [forall_prop_of_true hRecorded, ← gridded_iff hLeft hDistinct hRecorded hCols hRows]
    constructor
    · intro hAll guint
      obtain ⟨picture, hPicture, _, hGridded⟩ := hAll guint
      cases (hShown guint).symm.trans hPicture
      exact hGridded hRecorded
    · intro hAll guint
      exact ⟨_, hShown guint, hPictured.withGrid guint _, fun _ => hAll guint⟩
  · constructor
    · exact fun _ hHere => absurd hHere hRecorded
    · intro _ guint
      obtain ⟨picture, hPicture, hTiled⟩ := hAlways guint
      exact ⟨picture, hPicture, hTiled, fun hHere => absurd hHere hRecorded⟩

/-- The conversion that keeps the low word, as on x86-64. -/
def lowWordCast : GuintCast where
  cast q := ⌊q⌋₊ % 2 ^ 32
  lt q := Nat.mod_lt _ (Nat.two_pow_pos 32)
  exact n q hn hLow hHigh := by rw [Nat.floor_eq_on_Ico n q ⟨hLow, hHigh⟩, Nat.mod_eq_of_lt hn]

/-- One blob of version 3, with its line. -/
def lineText (top : PayloadV3) (line : Bytes) : VariantText where
  print x := if x = .v3 top then line else []
  parseV1 _ := none
  parseV2 _ := none
  parseV3 text := if text = line then some top else none

/-- Half of the tab, beside two panes above each other; the upper one has lost a neighbour without a session. -/
def nestedPayload : PayloadV3 where
  version := blobVersion
  focused := 9
  title := shellName
  tree := .split .splitTag (orientCode .horizontal) (.finite (1 / 2)) (.leaf .leafTag 7)
    (.split .splitTag (orientCode .vertical) (.finite (1 / 4))
      (.split .splitTag (orientCode .horizontal) (.finite (1 / 2)) (.leaf .leafTag 0) (.leaf .leafTag 9))
      (.leaf .leafTag 11))
  cols := 80
  rows := 12
  custom := .empty

def nestedLine : Bytes :=
  ascii "(uint32 3, uint64 9, 'sh', <('split', 'h', 0.5, <('leaf', uint64 7)>, <('split', 'v', 0.25, " ++
    ascii "<('split', 'h', 0.5, <('leaf', uint64 0)>, <('leaf', uint64 9)>)>, <('leaf', uint64 11)>)>)>, " ++
    ascii "uint16 80, uint16 12, '')"

theorem blob_geometry_tiles_nested : ∃ picture,
    blobGeometry lowWordCast (lineText nestedPayload nestedLine) nestedLine = some picture ∧
      picture.1.map (fun pane => (pane.session, pane.cols, pane.rows)) = [(7, 80, 48), (9, 80, 12), (11, 80, 36)] ∧
      Pictured nestedPayload.tree picture ∧ Recorded (Payload.v3 nestedPayload).outs nestedPayload.tree ∧
      Gridded (Payload.v3 nestedPayload).outs picture := by
  have hParsed : blobParse (lineText nestedPayload nestedLine) nestedLine =
      (some (.v3 nestedPayload), (Payload.v3 nestedPayload).outs) := by decide +kernel
  have hRecorded : Recorded (Payload.v3 nestedPayload).outs nestedPayload.tree :=
    ⟨by decide, by decide, by decide, by decide⟩
  obtain ⟨-, hGrids⟩ := blob_geometry_tiles hParsed rfl ⟨7, by decide, by decide⟩ (by decide)
  have hFits : GridFits (Payload.v3 nestedPayload).outs nestedPayload.tree := by
    intro left hLeft e he f hf hFocused
    cases hLeft
    have hAll : ∀ e ∈ (place (nestedPayload.tree.arrangement.get rfl) unitSquare).leaves,
        ∀ f ∈ (place (nestedPayload.tree.arrangement.get rfl) unitSquare).leaves, f.1 = 9 →
          (80 : ℚ) / f.2.w * e.2.w + 1 / 2 < 2 ^ 32 ∧ (12 : ℚ) / f.2.h * e.2.h + 1 / 2 < 2 ^ 32 := by decide +kernel
    exact hAll e he f hf hFocused
  obtain ⟨picture, hPicture, hTiled, hGridded⟩ := hGrids.mpr (fun _ => hFits) lowWordCast
  have hShown : (blobGeometry lowWordCast (lineText nestedPayload nestedLine) nestedLine).map (fun picture =>
      picture.1.map fun pane => (pane.session, pane.cols, pane.rows)) =
        some [(7, 80, 48), (9, 80, 12), (11, 80, 36)] := by decide +kernel
  rw [hPicture, Option.map_some] at hShown
  exact ⟨picture, hPicture, Option.some.inj hShown, hTiled, hRecorded, hGridded hRecorded⟩

/-- Half of the tab, beside a focused pane that is a sliver of the other half. -/
def sliverPayload : PayloadV3 where
  version := blobVersion
  focused := 1
  title := .empty
  tree := .split .splitTag (orientCode .horizontal) (.finite (1 / 2)) (.leaf .leafTag 2)
    (.split .splitTag (orientCode .horizontal) (.finite (1 / 2 ^ 32)) (.leaf .leafTag 1) (.leaf .leafTag 3))
  cols := 1
  rows := 1
  custom := .empty

def sliverLine : Bytes :=
  ascii "(uint32 3, uint64 1, '', <('split', 'h', 0.5, <('leaf', uint64 2)>, " ++
    ascii "<('split', 'h', 2.3283064365386963e-10, <('leaf', uint64 1)>, <('leaf', uint64 3)>)>)>, " ++
    ascii "uint16 1, uint16 1, '')"

def sliverText : VariantText := lineText sliverPayload sliverLine

/-- The share of the first pane is 2 ^ 32 columns, of which the low word is 0. -/
theorem sliver_without_columns : ∃ picture, blobGeometry lowWordCast sliverText sliverLine = some picture ∧
    (blobParse sliverText sliverLine).2 = (Payload.v3 sliverPayload).outs ∧
    Recorded (Payload.v3 sliverPayload).outs sliverPayload.tree ∧
    ∃ pane ∈ picture.1, pane.session = 2 ∧ pane.cols = 0 := by
  have hPicture : ((blobGeometry lowWordCast sliverText sliverLine).any fun picture =>
      picture.1.any fun pane => pane.session == 2 && pane.cols == 0) = true := by decide +kernel
  have hParsed : blobParse sliverText sliverLine = (some (.v3 sliverPayload), (Payload.v3 sliverPayload).outs) := by
    decide +kernel
  cases hShown : blobGeometry lowWordCast sliverText sliverLine with
  | none =>
    rw [hShown] at hPicture
    cases hPicture
  | some picture =>
    rw [hShown, Option.any_some, List.any_eq_true] at hPicture
    obtain ⟨pane, hPane, hEmpty⟩ := hPicture
    rw [Bool.and_eq_true, beq_iff_eq, beq_iff_eq] at hEmpty
    exact ⟨picture, rfl, congrArg Prod.snd hParsed, ⟨by decide, by decide, by decide, by decide⟩, pane, hPane, hEmpty⟩

end Epimone.Client
