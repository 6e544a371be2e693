import Mathlib

/-! # The memory the C code works on

Sizes are 64 bits wide and wrap. An allocation answers NULL or a block whose
bytes are arbitrary, and a copy outside either block is an error of the model,
so that a function which always returns a value never leaves its buffers. An
`Object` is what one C object can hold, at most PTRDIFF_MAX bytes.
`doubleCapacity` is the loop `while (nc < need && nc < limit) nc *= 2`, with a
count of rounds; without a limit of its own a caller passes `need` twice.
-/
set_option autoImplicit false

namespace Epimone

abbrev Bytes := List UInt8

def sizeAdd (a b : Nat) : Nat := (a + b) % 2 ^ 64

def sizeSub (a b : Nat) : Nat := (a + (2 ^ 64 - b)) % 2 ^ 64

def sizeMul (a b : Nat) : Nat := a * b % 2 ^ 64

theorem sizeAdd_of_lt {a b : Nat} (h : a + b < 2 ^ 64) : sizeAdd a b = a + b := Nat.mod_eq_of_lt h

theorem sizeSub_of_le {a b : Nat} (hLe : b ≤ a) (hLt : a < 2 ^ 64) : sizeSub a b = a - b := by
  unfold sizeSub
  omega

theorem sizeMul_of_lt {a b : Nat} (h : a * b < 2 ^ 64) : sizeMul a b = a * b := Nat.mod_eq_of_lt h

structure Object where
  bytes : Bytes
  bounded : bytes.length < 2 ^ 63

inductive Alloc where
  | null
  | block (junk : Nat → UInt8)

def malloc : Alloc → Nat → Option Bytes
  | .null, _ => none
  | .block junk, n => some ((List.range n).map junk)

def realloc (old : Bytes) : Alloc → Nat → Option Bytes
  | .null, _ => none
  | .block junk, n => some (old.take n ++ (List.range (n - old.length)).map junk)

/-- memcpy (dst + at, src + start, n); none when it would leave a buffer. -/
def memcpy (dst : Bytes) (pos : Nat) (src : Bytes) (start n : Nat) : Option Bytes :=
  if pos + n ≤ dst.length ∧ start + n ≤ src.length then
    some (dst.take pos ++ (src.drop start).take n ++ dst.drop (pos + n))
  else none

theorem length_malloc {a : Alloc} {n : Nat} {block : Bytes} (h : malloc a n = some block) :
    block.length = n := by
  cases a with
  | null => cases h
  | block junk => cases h; simp

theorem memcpy_of_le {dst src : Bytes} {pos start n : Nat} (hDst : pos + n ≤ dst.length)
    (hSrc : start + n ≤ src.length) :
    memcpy dst pos src start n =
      some (dst.take pos ++ (src.drop start).take n ++ dst.drop (pos + n)) :=
  if_pos ⟨hDst, hSrc⟩

def doubleCapacity (need limit : Nat) : Nat → Nat → Nat
  | 0, nc => nc
  | rounds + 1, nc =>
    if nc < need ∧ nc < limit then doubleCapacity need limit rounds (sizeMul nc 2) else nc

/-- Below a limit of 2^63 no doubling wraps, and 64 rounds reach the end of the loop. -/
theorem doubleCapacity_exits (need : Nat) {limit : Nat} (hLimit : limit ≤ 2 ^ 63) (rounds nc : Nat)
    (hStart : 2 ^ 63 ≤ nc * 2 ^ rounds) :
    nc ≤ doubleCapacity need limit rounds nc ∧
      (need ≤ doubleCapacity need limit rounds nc ∨ limit ≤ doubleCapacity need limit rounds nc) := by
  induction rounds generalizing nc with
  | zero =>
    have hEnd : limit ≤ nc := by simpa using Nat.le_trans hLimit hStart
    exact ⟨Nat.le_refl _, Or.inr hEnd⟩
  | succ rounds ih =>
    rw [doubleCapacity]
    split
    · rename_i hLoop
      have hDouble : sizeMul nc 2 = nc * 2 := sizeMul_of_lt (by omega)
      have hNext : 2 ^ 63 ≤ nc * 2 * 2 ^ rounds := by
        rw [Nat.pow_succ] at hStart
        calc
          2 ^ 63 ≤ nc * (2 ^ rounds * 2) := hStart
          _ = nc * 2 * 2 ^ rounds := by rw [Nat.mul_comm (2 ^ rounds) 2, Nat.mul_assoc]
      obtain ⟨hGrow, hExit⟩ := ih (nc * 2) hNext
      rw [hDouble]
      exact ⟨by omega, hExit⟩
    · rename_i hDone
      exact ⟨Nat.le_refl _, by omega⟩

end Epimone
