import Epimone.Client.Zoom
import Epimone.Library.Tiling
import Mathlib.Data.List.MinMax
import Mathlib.Data.Prod.Lex

/-! # Moving the focus between panes

The pane that gets the focus in a direction is chosen by the bounds of the panes:
one that the line through the centre of the focused pane crosses comes first, and
among these, or where there is none, the nearest centre.
-/
set_option autoImplicit false

namespace Epimone.Client

open LinkedTree IdTree Tiling SplitTree

inductive GtkDirectionType where
  | tabForward
  | tabBackward
  | up
  | down
  | left
  | right
  deriving DecidableEq, Repr

structure Best where
  terminal : Nat
  primary : ℚ
  overlaps : Bool

section Choice

variable (bounds : Nat → Option (Rect ℚ)) (direction : GtkDirectionType) (focused : Nat) (cur : Rect ℚ)

end Choice

namespace Desktop

end Desktop

section Order

variable {bounds : Nat → Option (Rect ℚ)} {direction : GtkDirectionType} {focused : Nat} {cur : Rect ℚ}
  {terminals : List Nat}

/-- Overlap counts more than distance. -/
def Best.key (b : Best) : Bool ×ₗ ℚ := toLex (!b.overlaps, b.primary)

end Order

/-! What the measures say of rectangles that do not overlap. -/

/-- The second rectangle begins where the first ends or beyond. -/
def Beyond (direction : GtkDirectionType) (q p : Rect ℚ) : Prop :=
  match direction with
  | .left => p.x + p.w ≤ q.x
  | .right => q.x + q.w ≤ p.x
  | .up => p.y + p.h ≤ q.y
  | .down => q.y + q.h ≤ p.y
  | .tabForward | .tabBackward => True

section Geometry

variable {direction : GtkDirectionType} {cur p q : Rect ℚ}

end Geometry

/-- The panes of a page stand side by side: each has a place, and no two overlap. -/
structure LaidOut (terminals : List Nat) (bounds : Nat → Option (Rect ℚ)) : Prop where
  placed : ∀ t ∈ terminals, ∃ r, bounds t = some r ∧ r.Positive
  apart : ∀ t ∈ terminals, ∀ u ∈ terminals, t ≠ u → ∀ p q, bounds t = some p → bounds u = some q →
    Disjoint p.interior q.interior

section Choosing

variable {terminals : List Nat} {bounds : Nat → Option (Rect ℚ)} {direction : GtkDirectionType} {focused : Nat}
  {cur : Rect ℚ}

theorem LaidOut.positive (h : LaidOut terminals bounds) {t : Nat} (ht : t ∈ terminals) {p : Rect ℚ}
    (hp : bounds t = some p) : p.Positive := by
  obtain ⟨r, hr, hPositive⟩ := h.placed t ht
  cases hr.symm.trans hp
  exact hPositive

end Choosing

namespace Desktop

variable {s : Desktop} {trees : Nat → PageTree} {page focused : Nat} {bounds : Nat → Option (Rect ℚ)}

end Desktop

end Epimone.Client
