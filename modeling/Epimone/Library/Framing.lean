import Mathlib

/-! # Incremental parsing

A format reads one item off the front of a list of symbols, asks for more
symbols, or refuses. A format whose verdicts stand when more symbols arrive can
be driven in pieces: it does not matter where the pieces end.
-/
set_option autoImplicit false

namespace Epimone.Framing

universe u v w x

inductive Verdict (α : Type v) (ε : Type w) where
  | more
  | refused (e : ε)
  | item (a : α) (size : Nat)
  deriving DecidableEq

/-- A reader of single items whose verdicts, once given, stand. -/
structure Format (β : Type u) (α : Type v) (ε : Type w) where
  read : List β → Verdict α ε
  item_pos : ∀ {p a n}, read p = .item a n → 0 < n
  item_le : ∀ {p a n}, read p = .item a n → n ≤ p.length
  item_stable : ∀ {p a n} q, read p = .item a n → read (p ++ q) = .item a n
  refused_stable : ∀ {p e} q, read p = .refused e → read (p ++ q) = .refused e

variable {β : Type u} {α : Type v} {ε : Type w} {σ : Type x} (F : Format β α ε)

namespace Format

/-- Reads items one after the other until the state says stop; what is left over comes back. -/
def drive (step : σ → α → σ) (stop : σ → Bool) : Nat → σ → List β → σ × List β
  | 0, s, p => (s, p)
  | fuel + 1, s, p =>
    if stop s then (s, p)
    else
      match F.read p with
      | .item a n => drive step stop fuel (step s a) (p.drop n)
      | _ => (s, p)

/-- The items at the front of a list with their sizes, up to the first incomplete or refused one. -/
def items : Nat → List β → List (α × Nat)
  | 0, _ => []
  | fuel + 1, p =>
    match F.read p with
    | .item a n => (a, n) :: items fuel (p.drop n)
    | _ => []

/-- A driver that is fed piece by piece. -/
def feed (step : σ → α → σ) (stop : σ → Bool) : List (List β) → σ × List β → σ × List β
  | [], at_ => at_
  | piece :: pieces, (s, p) =>
    feed step stop pieces (F.drive step stop (p ++ piece).length s (p ++ piece))

variable {F} {step : σ → α → σ} {stop : σ → Bool}

theorem drop_length_lt {p : List β} {a : α} {n : Nat} (h : F.read p = .item a n) :
    (p.drop n).length < p.length := by
  have hPos := F.item_pos h
  have hLe := F.item_le h
  rw [List.length_drop]
  omega

theorem read_nil_ne_item (a : α) (n : Nat) : F.read [] ≠ .item a n := fun h =>
  Nat.not_lt_zero _ (drop_length_lt h)

theorem drive_nil (fuel : Nat) (s : σ) : F.drive step stop fuel s [] = (s, []) := by
  cases fuel with
  | zero => rfl
  | succ fuel =>
    rw [drive]
    split
    · rfl
    · split
      · rename_i a n hRead
        exact absurd hRead (read_nil_ne_item a n)
      · rfl

theorem drive_fuel {fuel fuel' : Nat} {s : σ} {p : List β} (h : p.length ≤ fuel)
    (h' : p.length ≤ fuel') : F.drive step stop fuel s p = F.drive step stop fuel' s p := by
  induction fuel generalizing fuel' s p with
  | zero =>
    obtain rfl := List.eq_nil_of_length_eq_zero (Nat.le_zero.mp h)
    rw [drive_nil, drive_nil]
  | succ fuel ih =>
    cases fuel' with
    | zero =>
      obtain rfl := List.eq_nil_of_length_eq_zero (Nat.le_zero.mp h')
      rw [drive_nil, drive_nil]
    | succ fuel' =>
      rw [drive, drive]
      split
      · rfl
      · split
        · rename_i a n hRead
          have hLess := drop_length_lt hRead
          exact ih (by omega) (by omega)
        · rfl

variable (F step stop) in
theorem drive_length (fuel : Nat) (s : σ) (p : List β) :
    (F.drive step stop fuel s p).2.length ≤ p.length := by
  induction fuel generalizing s p with
  | zero => exact Nat.le_refl _
  | succ fuel ih =>
    rw [drive]
    split
    · exact Nat.le_refl _
    · split
      · rename_i a n hRead
        exact Nat.le_trans (ih (step s a) (p.drop n)) (Nat.le_of_lt (drop_length_lt hRead))
      · exact Nat.le_refl _

/-- What is left over is read again when more symbols arrive. -/
theorem drive_append {fuel : Nat} {s : σ} {p : List β} (q : List β) (h : p.length ≤ fuel) :
    F.drive step stop (fuel + q.length) s (p ++ q) =
      F.drive step stop (fuel + q.length) (F.drive step stop fuel s p).1
        ((F.drive step stop fuel s p).2 ++ q) := by
  induction fuel generalizing s p with
  | zero => rfl
  | succ fuel ih =>
    by_cases hStop : stop s
    · simp only [drive, if_pos hStop]
    · cases hRead : F.read p with
      | more => simp only [drive, hRead, if_neg hStop]
      | refused => simp only [drive, hRead, if_neg hStop]
      | item a n =>
        have hLess := drop_length_lt hRead
        have hLeft := drive_length F step stop fuel (step s a) (p.drop n)
        have hFirst : F.drive step stop (fuel + 1) s p = F.drive step stop fuel (step s a) (p.drop n) := by
          rw [drive, if_neg hStop, hRead]
        rw [hFirst, Nat.add_right_comm, drive, if_neg hStop, F.item_stable q hRead]
        dsimp only
        rw [List.drop_append_of_le_length (F.item_le hRead), ih (by omega)]
        refine drive_fuel ?_ ?_ <;> rw [List.length_append] <;> omega

/-- It does not matter how the symbols are cut into pieces. -/
theorem feed_eq_drive (pieces : List (List β)) (s : σ) (p : List β) :
    F.feed step stop pieces (F.drive step stop p.length s p) =
      F.drive step stop (p ++ pieces.flatten).length s (p ++ pieces.flatten) := by
  induction pieces generalizing s p with
  | nil => simp [feed]
  | cons piece pieces ih =>
    have hAppend : F.drive step stop (p.length + piece.length) s (p ++ piece) = _ :=
      drive_append piece (Nat.le_refl p.length)
    rw [← List.length_append] at hAppend
    have hLeft := drive_length F step stop p.length s p
    rw [feed, List.flatten_cons, ← List.append_assoc, ← ih s (p ++ piece), hAppend]
    congr 1
    refine drive_fuel (Nat.le_refl _) ?_
    rw [List.length_append, List.length_append]
    omega

theorem drive_items {taken : σ → List α} (hTaken : ∀ s a, taken (step s a) = taken s ++ [a])
    (fuel : Nat) (s : σ) (p : List β) (h : p.length ≤ fuel) :
    ∃ done rest, F.items fuel p = done ++ rest ∧
      taken (F.drive step stop fuel s p).1 = taken s ++ done.map Prod.fst ∧
      (F.drive step stop fuel s p).2 = p.drop (done.map Prod.snd).sum ∧
      (stop (F.drive step stop fuel s p).1 = false → rest = []) := by
  induction fuel generalizing s p with
  | zero => exact ⟨[], [], rfl, (List.append_nil _).symm, rfl, fun _ => rfl⟩
  | succ fuel ih =>
    by_cases hStop : stop s
    · refine ⟨[], F.items (fuel + 1) p, rfl, ?_, ?_, ?_⟩ <;> simp [drive, hStop]
    · cases hRead : F.read p with
      | more => exact ⟨[], [], by simp [items, hRead], by simp [drive, hStop, hRead],
          by simp [drive, hStop, hRead], fun _ => rfl⟩
      | refused => exact ⟨[], [], by simp [items, hRead], by simp [drive, hStop, hRead],
          by simp [drive, hStop, hRead], fun _ => rfl⟩
      | item a n =>
        have hLess := drop_length_lt hRead
        obtain ⟨done, rest, hItems, hLog, hLeft, hAll⟩ := ih (step s a) (p.drop n) (by omega)
        refine ⟨(a, n) :: done, rest, ?_, ?_, ?_, ?_⟩
        · simp [items, hRead, hItems]
        · simp [drive, hStop, hRead, hLog, hTaken]
        · simp [drive, hStop, hRead, hLeft, List.drop_drop]
        · simpa [drive, hStop, hRead] using hAll

/-- A driver that stops on the way was stopped by the item it took last. -/
theorem drive_stopped {P : σ → Prop} (hKeep : ∀ s a, P s → stop (step s a) = false → P (step s a))
    {fuel : Nat} {s : σ} {p : List β} (hStart : P s) (hGoes : stop s = false)
    (hStops : stop (F.drive step stop fuel s p).1 = true) :
    ∃ t a, P t ∧ (F.drive step stop fuel s p).1 = step t a := by
  induction fuel generalizing s p with
  | zero => exact absurd (hGoes.symm.trans hStops) Bool.false_ne_true
  | succ fuel ih =>
    have hNot : ¬ stop s = true := by
      rw [hGoes]
      exact Bool.false_ne_true
    rw [drive, if_neg hNot] at hStops ⊢
    cases hRead : F.read p with
    | more | refused =>
      rw [hRead] at hStops
      exact absurd hStops hNot
    | item a n =>
      rw [hRead] at hStops
      dsimp only at hStops ⊢
      cases hNext : stop (step s a) with
      | false => exact ih (hKeep s a hStart hNext) hNext hStops
      | true =>
        refine ⟨s, a, hStart, ?_⟩
        cases fuel with
        | zero => rfl
        | succ fuel => rw [drive, if_pos hNext]

end Format

end Epimone.Framing
