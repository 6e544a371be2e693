import Mathlib.Data.Nat.Digits.Defs

/-! # Decimal numerals

The text of a number in base ten, and a reader that stops at the first byte that is
not a digit. Whatever follows a numeral, the reader gives back the number, as long
as what follows does not go on with a digit.
-/
set_option autoImplicit false

namespace Epimone.Decimal

def digit (d : Nat) : UInt8 := 48 + UInt8.ofNat d

def isDigit (b : UInt8) : Bool := decide (48 ≤ b) && decide (b ≤ 57)

def digitValue (b : UInt8) : Nat := (b - 48).toNat

def numeral (n : Nat) : List UInt8 := if n = 0 then [48] else ((Nat.digits 10 n).map digit).reverse

def integer (z : Int) : List UInt8 := if z < 0 then 45 :: numeral z.natAbs else numeral z.natAbs

def readDigits (text : List UInt8) : Nat := (text.takeWhile isDigit).foldl (fun n b => 10 * n + digitValue b) 0

theorem isDigit_digit : ∀ d < 10, isDigit (digit d) = true := by decide

theorem digitValue_digit : ∀ d < 10, digitValue (digit d) = d := by decide

theorem isDigit_of_mem_numeral {n : Nat} {b : UInt8} (h : b ∈ numeral n) : isDigit b = true := by
  unfold numeral at h
  split at h
  · rw [List.mem_singleton.mp h]
    decide
  · obtain ⟨d, hd, rfl⟩ := List.mem_map.mp (List.mem_reverse.mp h)
    exact isDigit_digit d (Nat.digits_lt_base (by decide) hd)

theorem numeral_ne_nil (n : Nat) : numeral n ≠ [] := by
  unfold numeral
  split
  · exact List.cons_ne_nil _ _
  · rename_i hn
    simpa [Nat.digits_ne_nil_iff_ne_zero] using hn

theorem exists_numeral (n : Nat) : ∃ b text, numeral n = b :: text ∧ isDigit b = true := by
  obtain ⟨b, text, hText⟩ := List.exists_cons_of_ne_nil (numeral_ne_nil n)
  have hFirst : b ∈ numeral n := by
    rw [hText]
    exact List.mem_cons_self
  exact ⟨b, text, hText, isDigit_of_mem_numeral hFirst⟩

theorem foldl_digits (l : List Nat) (h : ∀ d ∈ l, d < 10) :
    ((l.map digit).reverse).foldl (fun n b => 10 * n + digitValue b) 0 = Nat.ofDigits 10 l := by
  induction l with
  | nil => rfl
  | cons d l ih =>
    have hRest := ih fun e he => h e (List.mem_cons_of_mem _ he)
    rw [List.map_cons, List.reverse_cons, List.foldl_append, hRest, Nat.ofDigits_cons]
    simp only [List.foldl_cons, List.foldl_nil, digitValue_digit d (h d List.mem_cons_self)]
    omega

theorem foldl_numeral (n : Nat) : (numeral n).foldl (fun n b => 10 * n + digitValue b) 0 = n := by
  unfold numeral
  split
  · rename_i hn
    rw [hn]
    rfl
  · rw [foldl_digits _ fun d hd => Nat.digits_lt_base (by decide) hd, Nat.ofDigits_digits]

theorem readDigits_numeral (n : Nat) {rest : List UInt8} (hStop : ∀ b ∈ rest.head?, isDigit b = false) :
    readDigits (numeral n ++ rest) = n := by
  have hRest : rest.takeWhile isDigit = [] := by
    cases rest with
    | nil => rfl
    | cons b rest => rw [List.takeWhile_cons, hStop b rfl, if_neg Bool.false_ne_true]
  have hAll : ∀ b ∈ numeral n, isDigit b = true := fun _ hb => isDigit_of_mem_numeral hb
  rw [readDigits, List.takeWhile_append_of_pos hAll, hRest, List.append_nil, foldl_numeral]

theorem mem_integer {z : Int} {b : UInt8} (h : b ∈ integer z) : b = 45 ∨ isDigit b = true := by
  unfold integer at h
  split at h
  · exact (List.mem_cons.mp h).imp_right isDigit_of_mem_numeral
  · exact Or.inr (isDigit_of_mem_numeral h)

theorem integer_ne_nil (z : Int) : integer z ≠ [] := by
  unfold integer
  split
  · exact List.cons_ne_nil _ _
  · exact numeral_ne_nil _

end Epimone.Decimal
