import Mathlib.Data.List.Rotate

/-! # Circular windows over a list

A buffer of fixed length read and written modulo its length. Reading is a
rotation followed by a prefix, writing replaces a prefix of the rotation, so
every wrap-around argument is an identity about `List.rotate`. `lastN` keeps
the end of a list, `window` reads a number of elements from a position on.
-/
set_option autoImplicit false

namespace Epimone.CircularWindow

universe u

variable {α : Type u}

def lastN (n : Nat) (l : List α) : List α := l.drop (l.length - n)

def window (buf : List α) (head size : Nat) : List α := (buf.rotate head).take size

/-- `after` is `before` with `data` laid over it from position `tail` on. -/
def Overlaid (before after : List α) (tail : Nat) (data : List α) : Prop :=
  after.length = before.length ∧
    after.rotate tail = data ++ (before.rotate tail).drop data.length

theorem lastN_of_length_le {n : Nat} {l : List α} (h : l.length ≤ n) : lastN n l = l := by
  rw [lastN, Nat.sub_eq_zero_of_le h, List.drop_zero]

theorem length_lastN (n : Nat) (l : List α) : (lastN n l).length = min n l.length := by
  rw [lastN, List.length_drop]
  omega

theorem lastN_append_of_le {n : Nat} (l m : List α) (h : n ≤ m.length) :
    lastN n (l ++ m) = lastN n m := by
  rw [lastN, lastN, List.drop_append, List.drop_eq_nil_of_le (by rw [List.length_append]; omega),
    List.nil_append, List.length_append]
  congr 1
  omega

theorem lastN_append_of_ge {n : Nat} (l m : List α) (h : m.length ≤ n) :
    lastN n (l ++ m) = lastN (n - m.length) l ++ m := by
  have hDrop : (l ++ m).length - n = l.length - (n - m.length) := by
    rw [List.length_append]; omega
  rw [lastN, hDrop, List.drop_append_of_le_length (by omega), lastN]

theorem lastN_lastN_append {n k : Nat} (l m : List α) (h : n ≤ k + m.length) :
    lastN n (lastN k l ++ m) = lastN n (l ++ m) := by
  by_cases hShort : n ≤ m.length
  · rw [lastN_append_of_le _ _ hShort, lastN_append_of_le _ _ hShort]
  · have hDrop : lastN (n - m.length) (lastN k l) = lastN (n - m.length) l := by
      rw [lastN, length_lastN, lastN, lastN, List.drop_drop]
      congr 1
      omega
    rw [lastN_append_of_ge _ _ (by omega), lastN_append_of_ge _ _ (by omega), hDrop]

theorem length_window {buf : List α} {head size : Nat} (h : size ≤ buf.length) :
    (window buf head size).length = size := by
  rw [window, List.length_take, List.length_rotate]
  omega

theorem window_zero {buf : List α} {size : Nat} : window buf 0 size = buf.take size := by
  rw [window, List.rotate_zero]

theorem window_of_le {buf : List α} {head size : Nat} (hHead : head ≤ buf.length)
    (h : size ≤ buf.length - head) : window buf head size = (buf.drop head).take size := by
  rw [window, List.rotate_eq_drop_append_take hHead,
    List.take_append_of_le_length (by rw [List.length_drop]; exact h)]

theorem window_of_ge {buf : List α} {head size : Nat} (hHead : head ≤ buf.length)
    (hSize : size ≤ buf.length) (h : buf.length - head ≤ size) :
    window buf head size = buf.drop head ++ buf.take (size - (buf.length - head)) := by
  rw [window, List.rotate_eq_drop_append_take hHead, List.take_append, List.length_drop,
    List.take_of_length_le (by rw [List.length_drop]; exact h), List.take_take]
  congr 2
  omega

theorem window_add_mod (buf : List α) (head : Nat) {k n : Nat} (h : k + n ≤ buf.length) :
    window buf ((head + k) % buf.length) n = (window buf head (k + n)).drop k := by
  have hTurn : buf.rotate (head + k) = (buf.rotate head).drop k ++ (buf.rotate head).take k := by
    rw [← List.rotate_rotate, List.rotate_eq_drop_append_take (by rw [List.length_rotate]; omega)]
  rw [window, List.rotate_mod, hTurn,
    List.take_append_of_le_length (by rw [List.length_drop, List.length_rotate]; omega), window,
    List.drop_take, Nat.add_sub_cancel_left]

theorem Overlaid.of_block {buf data : List α} {tail : Nat} (h : tail + data.length ≤ buf.length) :
    Overlaid buf (buf.take tail ++ data ++ buf.drop (tail + data.length)) tail data := by
  have hTake : (buf.take tail).length = tail := by rw [List.length_take]; omega
  constructor
  · simp only [List.length_append, List.length_take, List.length_drop]
    omega
  · have hRotate := List.rotate_append_length_eq (buf.take tail)
      (data ++ buf.drop (tail + data.length))
    rw [hTake] at hRotate
    rw [List.append_assoc, hRotate, List.rotate_eq_drop_append_take (by omega),
      List.drop_append_of_le_length (by rw [List.length_drop]; omega), List.drop_drop,
      List.append_assoc]

theorem Overlaid.of_two_blocks {buf data : List α} {tail : Nat} (hTail : tail ≤ buf.length)
    (hLong : buf.length - tail ≤ data.length) (hFits : data.length ≤ buf.length) :
    Overlaid buf
      (data.drop (buf.length - tail) ++
        ((buf.take tail).drop (data.length - (buf.length - tail)) ++
          data.take (buf.length - tail))) tail data := by
  have hFront : (data.drop (buf.length - tail) ++
      (buf.take tail).drop (data.length - (buf.length - tail))).length = tail := by
    simp only [List.length_append, List.length_drop, List.length_take]
    omega
  constructor
  · simp only [List.length_append, List.length_drop, List.length_take]
    omega
  · have hRotate := List.rotate_append_length_eq
      (data.drop (buf.length - tail) ++
        (buf.take tail).drop (data.length - (buf.length - tail)))
      (data.take (buf.length - tail))
    rw [hFront, List.append_assoc] at hRotate
    have hBack : (buf.drop tail).length ≤ data.length := by rw [List.length_drop]; exact hLong
    have hDrop : (buf.drop tail ++ buf.take tail).drop data.length =
        (buf.take tail).drop (data.length - (buf.length - tail)) := by
      rw [List.drop_append, List.drop_eq_nil_of_le hBack, List.nil_append, List.length_drop]
    rw [hRotate, ← List.append_assoc, List.take_append_drop, List.rotate_eq_drop_append_take hTail,
      hDrop]

theorem rotate_past_window (buf : List α) (head : Nat) {size : Nat} (hSize : size ≤ buf.length) :
    buf.rotate (head + size) = (buf.rotate head).drop size ++ window buf head size := by
  have hSplit : buf.rotate head = window buf head size ++ (buf.rotate head).drop size := by
    rw [window, List.take_append_drop]
  have hRotate := List.rotate_append_length_eq (window buf head size) ((buf.rotate head).drop size)
  rw [length_window hSize, ← hSplit, List.rotate_rotate] at hRotate
  exact hRotate

/-- Laying data over the free part extends the window by the data. -/
theorem window_overlaid_fits {before after data : List α} {head size : Nat}
    (hOver : Overlaid before after ((head + size) % before.length) data)
    (hFits : size + data.length ≤ before.length) :
    window after head (size + data.length) = window before head size ++ data := by
  obtain ⟨hLength, hAfter⟩ := hOver
  have hBefore := rotate_past_window before head (by omega : size ≤ before.length)
  have hWindow : (window before head size).length = size := length_window (by omega)
  have hFree : ((before.rotate head).drop size).length = before.length - size := by
    rw [List.length_drop, List.length_rotate]
  rw [List.rotate_mod, hBefore, List.drop_append_of_le_length (by omega)] at hAfter
  rw [← hLength, List.rotate_mod, ← List.rotate_rotate] at hAfter
  have hTarget : (window before head size ++
      (data ++ ((before.rotate head).drop size).drop data.length)).rotate size =
      data ++ (((before.rotate head).drop size).drop data.length ++ window before head size) := by
    have hRotate := List.rotate_append_length_eq (window before head size)
      (data ++ ((before.rotate head).drop size).drop data.length)
    rw [hWindow, List.append_assoc] at hRotate
    exact hRotate
  have hRotated : after.rotate head = window before head size ++
      (data ++ ((before.rotate head).drop size).drop data.length) :=
    List.rotate_injective size (hAfter.trans hTarget.symm)
  rw [window, hRotated, ← List.append_assoc,
    List.take_left' (by rw [List.length_append, hWindow])]

/-- Laying data past the free part drops exactly the oldest elements. -/
theorem window_overlaid_overflows {before after data : List α} {head size : Nat}
    (hOver : Overlaid before after ((head + size) % before.length) data)
    (hSize : size ≤ before.length) (hData : data.length ≤ before.length)
    (hOverflow : before.length ≤ size + data.length) :
    window after ((head + (size + data.length - before.length)) % before.length) before.length =
      lastN before.length (window before head size ++ data) := by
  obtain ⟨hLength, hAfter⟩ := hOver
  have hBefore := rotate_past_window before head hSize
  have hWindow : (window before head size).length = size := length_window hSize
  have hFree : ((before.rotate head).drop size).length = before.length - size := by
    rw [List.length_drop, List.length_rotate]
  rw [List.rotate_mod, hBefore, List.drop_append, hFree,
    List.drop_eq_nil_of_le (by omega), List.nil_append] at hAfter
  rw [← hLength, List.rotate_mod] at hAfter
  have hKept : data.length - (after.length - size) = size + data.length - after.length := by omega
  rw [hLength] at hKept
  rw [hLength, hKept] at hAfter
  have hTurn : after.rotate (head + (size + data.length - before.length)) =
      (window before head size).drop (size + data.length - before.length) ++ data := by
    have hRound : (after.rotate (head + size)).rotate data.length =
        after.rotate (head + (size + data.length - before.length)) := by
      rw [List.rotate_rotate, ← List.rotate_mod, hLength]
      have hSum : head + size + data.length =
          head + (size + data.length - before.length) + before.length := by omega
      rw [hSum, Nat.add_mod_right, ← hLength, List.rotate_mod]
    rw [← hRound, hAfter, List.rotate_append_length_eq]
  rw [window]
  conv_lhs => rw [← hLength]
  rw [List.rotate_mod, hLength, hTurn, List.take_of_length_le
    (by simp only [List.length_append, List.length_drop, hWindow]; omega),
    lastN_append_of_ge _ _ hData, lastN, hWindow]
  congr 2
  omega

/-- A buffer that keeps the most recent elements, up to a fixed capacity. -/
structure FixedRing (α : Type u) (capacity : Nat) where
  contents : List α
  bounded : contents.length ≤ capacity

def FixedRing.empty (capacity : Nat) : FixedRing α capacity := ⟨[], Nat.zero_le _⟩

def FixedRing.write {capacity : Nat} (ring : FixedRing α capacity) (data : List α) :
    FixedRing α capacity :=
  ⟨lastN capacity (ring.contents ++ data), by rw [length_lastN]; exact Nat.min_le_left _ _⟩

theorem FixedRing.contents_foldl {capacity : Nat} (writes : List (List α)) :
    (writes.foldl FixedRing.write (FixedRing.empty capacity)).contents =
      lastN capacity writes.flatten := by
  induction writes using List.reverseRecOn with
  | nil => simp [FixedRing.empty, lastN]
  | append_singleton writes data ih =>
    rw [List.foldl_append, List.flatten_append]
    simp only [List.foldl_cons, List.foldl_nil, FixedRing.write, ih, List.flatten_singleton]
    exact lastN_lastN_append _ _ (Nat.le_add_right _ _)

end Epimone.CircularWindow
