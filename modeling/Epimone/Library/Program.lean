import Mathlib.Data.List.Basic

/-! # Programs over a state

A program takes a state and leaves a value and a state. A discipline is an
invariant together with a relation between the states at the two ends, and a
program obeys it if it keeps the one and respects the other; programs that obey
a discipline compose. The loop is the one of C that counts and watches a flag.
-/
set_option autoImplicit false

namespace Epimone.Program

universe u

variable {σ α β : Type u}

def value (p : StateM σ α) (s : σ) : α := (p.run s).1

def after (p : StateM σ α) (s : σ) : σ := (p.run s).2

/-- Run from one state, the program yields this value and that state. -/
def Gives (p : StateM σ α) (s : σ) (v : α) (t : σ) : Prop := value p s = v ∧ after p s = t

@[simp] theorem value_pure (v : α) (s : σ) : value (pure v : StateM σ α) s = v := rfl

@[simp] theorem after_pure (v : α) (s : σ) : after (pure v : StateM σ α) s = s := rfl

@[simp] theorem value_bind (p : StateM σ α) (f : α → StateM σ β) (s : σ) :
    value (p >>= f) s = value (f (value p s)) (after p s) := rfl

@[simp] theorem after_bind (p : StateM σ α) (f : α → StateM σ β) (s : σ) :
    after (p >>= f) s = after (f (value p s)) (after p s) := rfl

@[simp] theorem value_get (s : σ) : value (get : StateM σ σ) s = s := rfl

@[simp] theorem after_get (s : σ) : after (get : StateM σ σ) s = s := rfl

theorem Gives.pure (v : α) (s : σ) : Gives (pure v) s v s := ⟨rfl, rfl⟩

theorem Gives.bind {p : StateM σ α} {f : α → StateM σ β} {s t u : σ} {v : α} {w : β}
    (h : Gives p s v t) (hRest : Gives (f v) t w u) : Gives (p >>= f) s w u := by
  obtain ⟨rfl, rfl⟩ := h
  exact hRest

theorem Gives.of_bind {p : StateM σ α} {f : α → StateM σ β} {s u : σ} {w : β}
    (h : Gives (p >>= f) s w u) : ∃ v t, Gives p s v t ∧ Gives (f v) t w u :=
  ⟨_, _, ⟨rfl, rfl⟩, h⟩

theorem Gives.of_pure {v w : α} {s t : σ} (h : Gives (Pure.pure v) s w t) : v = w ∧ s = t := h

/-- An invariant, and how a step may move within it. -/
structure Discipline (σ : Type u) where
  inv : σ → Prop
  rel : σ → σ → Prop
  refl : ∀ s, inv s → rel s s
  trans : ∀ s t u, inv s → rel s t → rel t u → rel s u

variable {D : Discipline σ}

/-- From this state the program keeps the invariant and respects the relation. -/
def ObeysFrom (D : Discipline σ) (p : StateM σ α) (s : σ) : Prop :=
  D.inv (after p s) ∧ D.rel s (after p s)

def Obeys (D : Discipline σ) (p : StateM σ α) : Prop := ∀ s, D.inv s → ObeysFrom D p s

theorem Obeys.inv_of_gives {p : StateM σ α} {s t : σ} {v : α} (hp : Obeys D p) (hs : D.inv s)
    (h : Gives p s v t) : D.inv t :=
  h.2 ▸ (hp s hs).1

theorem ObeysFrom.bind {p : StateM σ α} {f : α → StateM σ β} {s : σ} (hs : D.inv s)
    (hp : ObeysFrom D p s) (hf : ObeysFrom D (f (value p s)) (after p s)) : ObeysFrom D (p >>= f) s :=
  ⟨hf.1, D.trans _ _ _ hs hp.2 hf.2⟩

theorem Obeys.pure (v : α) : Obeys D (pure v : StateM σ α) := fun s hs => ⟨hs, D.refl s hs⟩

theorem Obeys.bind {p : StateM σ α} {f : α → StateM σ β} (hp : Obeys D p) (hf : ∀ v, Obeys D (f v)) :
    Obeys D (p >>= f) :=
  fun s hs => .bind hs (hp s hs) (hf _ _ (hp s hs).1)

theorem Obeys.get : Obeys D (get : StateM σ σ) := fun s hs => ⟨hs, D.refl s hs⟩

theorem Obeys.ite {c : Prop} [Decidable c] {p q : StateM σ α} (hp : Obeys D p) (hq : Obeys D q) :
    Obeys D (if c then p else q) := by
  split
  · exact hp
  · exact hq

/-- for (i = 0; i < count && go; i++): the results of the turns. -/
def repeatWhile (go : σ → Bool) (body : StateM σ α) : Nat → StateM σ (List α)
  | 0 => pure []
  | count + 1 => do
    if go (← get) then
      let x ← body
      let rest ← repeatWhile go body count
      pure (x :: rest)
    else pure []

section Loop

variable {go : σ → Bool} {body : StateM σ α}

theorem repeatWhile_of_stop (count : Nat) {s : σ} (h : go s = false) :
    Gives (repeatWhile go body count) s [] s := by
  cases count with
  | zero => exact .pure _ _
  | succ count =>
    unfold repeatWhile
    refine Gives.bind ⟨rfl, rfl⟩ ?_
    rw [value_get, h]
    exact .pure _ _

theorem repeatWhile_of_go (count : Nat) {s : σ} (h : go s = true) :
    Gives (repeatWhile go body (count + 1)) s
      (value body s :: value (repeatWhile go body count) (after body s))
      (after (repeatWhile go body count) (after body s)) := by
  rw [repeatWhile]
  refine Gives.bind ⟨rfl, rfl⟩ ?_
  rw [value_get, if_pos h]
  exact ⟨rfl, rfl⟩

theorem Obeys.repeatWhile (hBody : ∀ s, D.inv s → go s = true → ObeysFrom D body s) (count : Nat) :
    Obeys D (repeatWhile go body count) := by
  induction count with
  | zero => exact .pure _
  | succ count ih =>
    intro s hs
    cases hGo : go s with
    | false =>
      rw [ObeysFrom, (@repeatWhile_of_stop _ _ go body (count + 1) _ hGo).2]
      exact ⟨hs, D.refl s hs⟩
    | true =>
      obtain ⟨hInv, hRel⟩ := hBody s hs hGo
      obtain ⟨hInv', hRel'⟩ := ih _ hInv
      rw [ObeysFrom, (@repeatWhile_of_go _ _ go body count _ hGo).2]
      exact ⟨hInv', D.trans _ _ _ hs hRel hRel'⟩

end Loop

end Epimone.Program
