import Mathlib
import Epimone.Library.SplitTree

/-! # Rectangles that are cut in two

A tree of cuts lays its leaves out in a rectangle, each split by a fraction of
it along one axis. Where all fractions lie strictly between 0 and 1 the pieces
tile the rectangle, and the line of each cut is what its two sides share.
-/
set_option autoImplicit false

namespace Epimone.Tiling

open SplitTree

universe u v

@[ext] structure Rect (K : Type u) where
  x : K
  y : K
  w : K
  h : K
  deriving DecidableEq

inductive Axis where
  | horizontal
  | vertical
  deriving DecidableEq, Repr

/-- A cut at a fraction of the side along an axis. -/
structure Cut (K : Type u) where
  axis : Axis
  ratio : K

namespace Rect

variable {K : Type u} [Field K]

/-- The two pieces of a rectangle that is cut, and the line between them. -/
def start (r : Rect K) (cut : Cut K) : Rect K :=
  match cut.axis with
  | .horizontal => ⟨r.x, r.y, r.w * cut.ratio, r.h⟩
  | .vertical => ⟨r.x, r.y, r.w, r.h * cut.ratio⟩

def finish (r : Rect K) (cut : Cut K) : Rect K :=
  match cut.axis with
  | .horizontal => ⟨r.x + r.w * cut.ratio, r.y, r.w - r.w * cut.ratio, r.h⟩
  | .vertical => ⟨r.x, r.y + r.h * cut.ratio, r.w, r.h - r.h * cut.ratio⟩

def line (r : Rect K) (cut : Cut K) : Rect K :=
  match cut.axis with
  | .horizontal => ⟨r.x + r.w * cut.ratio, r.y, 0, r.h⟩
  | .vertical => ⟨r.x, r.y + r.h * cut.ratio, r.w, 0⟩

def area (r : Rect K) : K := r.w * r.h

theorem area_cut (r : Rect K) (cut : Cut K) : (r.start cut).area + (r.finish cut).area = r.area := by
  unfold start finish area
  cases cut.axis <;> dsimp only <;> ring

variable [LinearOrder K]

/-- The points of the rectangle, and those that are not on its border. -/
def region (r : Rect K) : Set (K × K) := Set.Icc r.x (r.x + r.w) ×ˢ Set.Icc r.y (r.y + r.h)

def interior (r : Rect K) : Set (K × K) := Set.Ioo r.x (r.x + r.w) ×ˢ Set.Ioo r.y (r.y + r.h)

structure Positive (r : Rect K) : Prop where
  w : 0 < r.w
  h : 0 < r.h

/-- The rectangle does not reach out of another one. -/
structure Within (p r : Rect K) : Prop where
  left : r.x ≤ p.x
  right : p.x + p.w ≤ r.x + r.w
  bottom : r.y ≤ p.y
  top : p.y + p.h ≤ r.y + r.h

variable {p q r : Rect K}

theorem Within.refl (r : Rect K) : r.Within r := ⟨le_rfl, le_rfl, le_rfl, le_rfl⟩

theorem Within.trans (h : p.Within q) (h' : q.Within r) : p.Within r where
  left := h'.left.trans h.left
  right := h.right.trans h'.right
  bottom := h'.bottom.trans h.bottom
  top := h.top.trans h'.top

theorem Within.interior_subset (h : p.Within r) : p.interior ⊆ r.interior :=
  Set.prod_mono (Set.Ioo_subset_Ioo h.left h.right) (Set.Ioo_subset_Ioo h.bottom h.top)

end Rect

structure Cut.Proper {K : Type u} [Field K] [LinearOrder K] (cut : Cut K) : Prop where
  pos : 0 < cut.ratio
  lt_one : cut.ratio < 1

section Cut

variable {K : Type u} [Field K] [LinearOrder K] [IsStrictOrderedRing K] {r : Rect K} {cut : Cut K}

theorem Cut.Proper.share (h : cut.Proper) {side : K} (hSide : 0 < side) :
    0 < side * cut.ratio ∧ side * cut.ratio < side :=
  ⟨mul_pos hSide h.pos, mul_lt_of_lt_one_right hSide h.lt_one⟩

theorem positive_start (hr : r.Positive) (h : cut.Proper) : (r.start cut).Positive := by
  unfold Rect.start
  cases cut.axis with
  | horizontal => exact ⟨(h.share hr.w).1, hr.h⟩
  | vertical => exact ⟨hr.w, (h.share hr.h).1⟩

theorem positive_finish (hr : r.Positive) (h : cut.Proper) : (r.finish cut).Positive := by
  unfold Rect.finish
  cases cut.axis with
  | horizontal => exact ⟨sub_pos.mpr (h.share hr.w).2, hr.h⟩
  | vertical => exact ⟨hr.w, sub_pos.mpr (h.share hr.h).2⟩

theorem within_start (hr : r.Positive) (h : cut.Proper) : (r.start cut).Within r := by
  have hw := h.share hr.w
  have hh := h.share hr.h
  unfold Rect.start
  cases cut.axis with
  | horizontal => exact ⟨le_rfl, by linarith, le_rfl, le_rfl⟩
  | vertical => exact ⟨le_rfl, le_rfl, le_rfl, by linarith⟩

theorem within_finish (hr : r.Positive) (h : cut.Proper) : (r.finish cut).Within r := by
  have hw := h.share hr.w
  have hh := h.share hr.h
  unfold Rect.finish
  cases cut.axis with
  | horizontal => exact ⟨by linarith, by linarith, le_rfl, le_rfl⟩
  | vertical => exact ⟨le_rfl, le_rfl, by linarith, by linarith⟩

omit [IsStrictOrderedRing K] in
theorem disjoint_cut (r : Rect K) (cut : Cut K) : Disjoint (r.start cut).interior (r.finish cut).interior := by
  rw [Set.disjoint_left]
  rintro ⟨x, y⟩ ⟨⟨_, hx⟩, ⟨_, hy⟩⟩ ⟨⟨hx', _⟩, ⟨hy', _⟩⟩
  unfold Rect.start at hx hy
  unfold Rect.finish at hx' hy'
  revert hx hy hx' hy'
  cases cut.axis with
  | horizontal =>
    intro hx _ hx' _
    exact lt_asymm hx hx'
  | vertical =>
    intro _ hy _ hy'
    exact lt_asymm hy hy'

/-- The line of the cut is the common border of its two sides. -/
theorem region_line (hr : r.Positive) (h : cut.Proper) :
    (r.line cut).region = (r.start cut).region ∩ (r.finish cut).region := by
  have hw := h.share hr.w
  have hh := h.share hr.h
  unfold Rect.line Rect.start Rect.finish Rect.region
  cases cut.axis with
  | horizontal =>
    dsimp only
    rw [Set.prod_inter_prod, Set.inter_self, Set.Icc_inter_Icc, max_eq_right (by linarith),
      min_eq_left (by linarith), add_zero]
  | vertical =>
    dsimp only
    rw [Set.prod_inter_prod, Set.inter_self, Set.Icc_inter_Icc, max_eq_right (by linarith),
      min_eq_left (by linarith), add_zero]

/-- The rectangles fill a rectangle, without overlap. -/
structure Tiles (r : Rect K) (pieces : List (Rect K)) : Prop where
  within : ∀ p ∈ pieces, p.Within r
  positive : ∀ p ∈ pieces, p.Positive
  apart : pieces.Pairwise fun p q => Disjoint p.interior q.interior
  area : (pieces.map Rect.area).sum = r.area

omit [IsStrictOrderedRing K] in
theorem tiles_self (hr : r.Positive) : Tiles r [r] where
  within _ hp := List.mem_singleton.mp hp ▸ .refl r
  positive _ hp := List.mem_singleton.mp hp ▸ hr
  apart := List.pairwise_singleton _ r
  area := List.sum_singleton

/-- Tilings of the two sides of a cut are one of the whole. -/
theorem Tiles.append {pieces pieces' : List (Rect K)} (hr : r.Positive) (hCut : cut.Proper)
    (h : Tiles (r.start cut) pieces) (h' : Tiles (r.finish cut) pieces') : Tiles r (pieces ++ pieces') where
  within p hp := by
    rcases List.mem_append.mp hp with hp | hp
    · exact (h.within p hp).trans (within_start hr hCut)
    · exact (h'.within p hp).trans (within_finish hr hCut)
  positive p hp := by
    rcases List.mem_append.mp hp with hp | hp
    · exact h.positive p hp
    · exact h'.positive p hp
  apart := by
    refine List.pairwise_append.mpr ⟨h.apart, h'.apart, ?_⟩
    intro p hp q hq
    exact (disjoint_cut r cut).mono (h.within p hp).interior_subset (h'.within q hq).interior_subset
  area := by rw [List.map_append, List.sum_append, h.area, h'.area, Rect.area_cut]

end Cut

section Place

variable {K : Type u} [Field K] {α : Type v}

/-- Every leaf with the rectangle that it gets, and every split with the one it cuts. -/
def place : SplitTree (Cut K) α → Rect K → SplitTree (Rect K × Cut K) (α × Rect K)
  | .leaf a, r => .leaf (a, r)
  | .split cut start finish, r => .split (r, cut) (place start (r.start cut)) (place finish (r.finish cut))

theorem leaves_place (tree : SplitTree (Cut K) α) (r : Rect K) :
    (place tree r).leaves.map Prod.fst = tree.leaves := by
  induction tree generalizing r with
  | leaf a => rfl
  | split cut start finish ihStart ihFinish =>
    rw [place, leaves, List.map_append, ihStart, ihFinish, leaves]

theorem partings_place (tree : SplitTree (Cut K) α) (r : Rect K) :
    ((place tree r).partings.map fun p => (p.label.2, p.start.map Prod.fst, p.finish.map Prod.fst)) =
      tree.partings.map fun p => (p.label, p.start, p.finish) := by
  induction tree generalizing r with
  | leaf a => rfl
  | split cut start finish ihStart ihFinish =>
    rw [place, partings, List.map_append, List.map_append, ihStart, ihFinish, partings, List.map_append,
      List.map_append, List.map_singleton, List.map_singleton, leaves_place, leaves_place]

variable [LinearOrder K]

/-- All cuts leave something on both sides. -/
def Proper (tree : SplitTree (Cut K) α) : Prop := ∀ p ∈ tree.partings, p.label.Proper

theorem Proper.sides {cut : Cut K} {start finish : SplitTree (Cut K) α} (h : Proper (.split cut start finish)) :
    cut.Proper ∧ Proper start ∧ Proper finish := by
  refine ⟨h ⟨cut, start.leaves, finish.leaves⟩ (List.mem_append_right _ List.mem_cons_self), ?_, ?_⟩
  · intro p hp
    exact h p (List.mem_append_left _ (List.mem_append_left _ hp))
  · intro p hp
    exact h p (List.mem_append_left _ (List.mem_append_right _ hp))

variable [IsStrictOrderedRing K]

theorem tiles_place {tree : SplitTree (Cut K) α} {r : Rect K} (h : Proper tree) (hr : r.Positive) :
    Tiles r ((place tree r).leaves.map Prod.snd) := by
  induction tree generalizing r with
  | leaf a => exact tiles_self hr
  | split cut start finish ihStart ihFinish =>
    obtain ⟨hCut, hStart, hFinish⟩ := h.sides
    rw [place, leaves, List.map_append]
    exact (ihStart hStart (positive_start hr hCut)).append hr hCut (ihFinish hFinish (positive_finish hr hCut))

/-- A split whose sides are tiled by their leaves, with its line where the sides meet. -/
structure Meets (p : Parting (Rect K × Cut K) (α × Rect K)) : Prop where
  start : Tiles (p.label.1.start p.label.2) (p.start.map Prod.snd)
  finish : Tiles (p.label.1.finish p.label.2) (p.finish.map Prod.snd)
  line : (p.label.1.line p.label.2).region =
    (p.label.1.start p.label.2).region ∩ (p.label.1.finish p.label.2).region

theorem meets_place {tree : SplitTree (Cut K) α} {r : Rect K} (h : Proper tree) (hr : r.Positive) :
    ∀ p ∈ (place tree r).partings, Meets p := by
  induction tree generalizing r with
  | leaf a => exact fun p hp => absurd hp List.not_mem_nil
  | split cut start finish ihStart ihFinish =>
    obtain ⟨hCut, hStart, hFinish⟩ := h.sides
    have hStartPos := positive_start hr hCut
    have hFinishPos := positive_finish hr hCut
    intro p hp
    rw [place, partings] at hp
    rcases List.mem_append.mp hp with hp | hp
    · rcases List.mem_append.mp hp with hp | hp
      · exact ihStart hStart hStartPos p hp
      · exact ihFinish hFinish hFinishPos p hp
    · rw [List.mem_singleton.mp hp]
      exact ⟨tiles_place hStart hStartPos, tiles_place hFinish hFinishPos, region_line hr hCut⟩

end Place

end Epimone.Tiling
