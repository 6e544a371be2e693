import Mathlib.Data.List.Basic

/-! # Machines, runs and paths

A machine consumes one input at a time; an input that cannot occur in a state
leaves it undefined. A path is a finite sequence of guarded actions, the form
in which a large step is compared with the small ones it is made of.
-/
set_option autoImplicit false

namespace Epimone.Transition

universe u v

structure Machine (σ : Type u) (ι : Type v) where
  init : σ
  step : σ → ι → Option σ

variable {σ : Type u} {ι : Type v}

def Machine.runFrom (M : Machine σ ι) (s : σ) : List ι → Option σ
  | [] => some s
  | i :: inputs => (M.step s i).bind fun t => M.runFrom t inputs

def Machine.run (M : Machine σ ι) (inputs : List ι) : Option σ := M.runFrom M.init inputs

theorem Machine.runFrom_invariant (M : Machine σ ι) {P : σ → Prop}
    (hStep : ∀ s i t, P s → M.step s i = some t → P t) (inputs : List ι) {s t : σ} (hStart : P s)
    (h : M.runFrom s inputs = some t) : P t := by
  induction inputs generalizing s with
  | nil => cases h; exact hStart
  | cons i inputs ih =>
    obtain ⟨s', hFirst, hRest⟩ := Option.bind_eq_some_iff.mp h
    exact ih (hStep s i s' hStart hFirst) hRest

/-- What holds initially and is kept by every step holds at the end of every run. -/
theorem Machine.run_invariant (M : Machine σ ι) {P : σ → Prop} (hInit : P M.init)
    (hStep : ∀ s i t, P s → M.step s i = some t → P t) {inputs : List ι} {t : σ}
    (h : M.run inputs = some t) : P t :=
  M.runFrom_invariant hStep inputs hInit h

theorem Machine.run_invariant_of_inputs (M : Machine σ ι) {P : List ι → σ → Prop} (hInit : P [] M.init)
    (hStep : ∀ before s i t, P before s → M.step s i = some t → P (before ++ [i]) t) {inputs : List ι} {t : σ}
    (h : M.run inputs = some t) : P inputs t := by
  have hFrom : ∀ (inputs before : List ι) (s : σ), P before s → M.runFrom s inputs = some t →
      P (before ++ inputs) t := by
    intro inputs
    induction inputs with
    | nil =>
      intro before s hHere hRun
      cases hRun
      rw [List.append_nil]
      exact hHere
    | cons i inputs ih =>
      intro before s hHere hRun
      obtain ⟨s', hFirst, hRest⟩ := Option.bind_eq_some_iff.mp hRun
      have hNext := ih (before ++ [i]) s' (hStep before s i s' hHere hFirst) hRest
      rw [List.append_assoc] at hNext
      exact hNext
  exact hFrom inputs [] M.init hInit h

theorem Machine.runFrom_append (M : Machine σ ι) (before after : List ι) (s : σ) :
    M.runFrom s (before ++ after) = (M.runFrom s before).bind fun t => M.runFrom t after := by
  induction before generalizing s with
  | nil => rfl
  | cons i before ih =>
    rw [List.cons_append, runFrom, runFrom]
    cases M.step s i with
    | none => rfl
    | some t => simp only [Option.bind_some]; exact ih t

theorem Machine.exists_of_run_any (M : Machine σ ι) {p : σ → Bool} {inputs : List ι}
    (h : (M.run inputs).any p = true) : ∃ t, M.run inputs = some t ∧ p t = true := by
  cases hRun : M.run inputs with
  | none => rw [hRun] at h; cases h
  | some t => rw [hRun] at h; exact ⟨t, rfl, h⟩

theorem Machine.runFrom_cons {M : Machine σ ι} {s s' : σ} {i : ι} (h : M.step s i = some s') (inputs : List ι) :
    M.runFrom s (i :: inputs) = M.runFrom s' inputs := by
  rw [runFrom, h]
  rfl

section Always

variable (M : Machine σ ι) {inv P : σ → Prop} {C : σ → ι → Prop} (hProp : ∀ s, inv s → P s)
  (hKeep : ∀ s i t, inv s → M.step s i = some t → C s i → inv t)
  (hExact : ∀ s i t, inv s → M.step s i = some t → P t → C s i)

include hProp hKeep hExact

theorem Machine.runFrom_always_iff (inputs : List ι) {s final : σ} (hStart : inv s)
    (h : M.runFrom s inputs = some final) :
    (∀ before after t, inputs = before ++ after → M.runFrom s before = some t → P t) ↔
      ∀ before i after t, inputs = before ++ i :: after → M.runFrom s before = some t → C t i := by
  induction inputs generalizing s with
  | nil =>
    constructor
    · intro _ before i after _ hSplit _
      simp at hSplit
    · intro _ before after t hSplit hRun
      obtain ⟨rfl, rfl⟩ := List.append_eq_nil_iff.mp hSplit.symm
      cases hRun
      exact hProp _ hStart
  | cons i inputs ih =>
    obtain ⟨s', hStep, hRest⟩ := Option.bind_eq_some_iff.mp h
    constructor
    · intro hAlways
      have hNext : P s' := hAlways [i] inputs s' rfl (runFrom_cons hStep [])
      have hMeets : C s i := hExact s i s' hStart hStep hNext
      have hLater := (ih (hKeep s i s' hStart hStep hMeets) hRest).mp fun before after t hSplit hRun =>
        hAlways (i :: before) after t (congrArg (i :: ·) hSplit) ((runFrom_cons hStep before).trans hRun)
      intro before j after t hSplit hRun
      cases before with
      | nil =>
        cases hSplit
        cases hRun
        exact hMeets
      | cons j' before =>
        cases hSplit
        exact hLater before j after t rfl ((runFrom_cons hStep before).symm.trans hRun)
    · intro hMeets
      have hFirst : C s i := hMeets [] i inputs s rfl rfl
      have hLater := (ih (hKeep s i s' hStart hStep hFirst) hRest).mpr fun before j after t hSplit hRun =>
        hMeets (i :: before) j after t (congrArg (i :: ·) hSplit) ((runFrom_cons hStep before).trans hRun)
      intro before after t hSplit hRun
      cases before with
      | nil =>
        cases hRun
        exact hProp s hStart
      | cons j before =>
        cases hSplit
        exact hLater before after t rfl ((runFrom_cons hStep before).symm.trans hRun)

/-- Where a condition on each step is just what keeps the invariant, the property that the
invariant stands for holds all along a run if and only if every step of the run meets it. -/
theorem Machine.always_iff (hInit : inv M.init) {inputs : List ι} {final : σ} (h : M.run inputs = some final) :
    (∀ before after t, inputs = before ++ after → M.run before = some t → P t) ↔
      ∀ before i after t, inputs = before ++ i :: after → M.run before = some t → C t i :=
  M.runFrom_always_iff hProp hKeep hExact inputs hInit h

end Always

/-- The actions a system can perform, each under a guard on the state. -/
structure Actions (σ : Type u) (α : Type v) where
  perform : σ → α → σ
  guard : σ → α → Prop

variable {α : Type v}

/-- The actions of the list can be performed one after the other. -/
def Actions.Enabled (A : Actions σ α) : σ → List α → Prop
  | _, [] => True
  | s, a :: actions => A.guard s a ∧ A.Enabled (A.perform s a) actions

theorem Actions.enabled_of_take {A : Actions σ α} (actions : List α) {s : σ}
    (h : ∀ i (hi : i < actions.length), A.guard ((actions.take i).foldl A.perform s) actions[i]) :
    A.Enabled s actions := by
  induction actions generalizing s with
  | nil => trivial
  | cons a actions ih =>
    exact ⟨h 0 (Nat.zero_lt_succ _), ih fun i hi => h (i + 1) (Nat.succ_lt_succ hi)⟩

theorem Actions.Enabled.guard_take {A : Actions σ α} {actions : List α} {s : σ} (h : A.Enabled s actions) (i : Nat)
    (hi : i < actions.length) : A.guard ((actions.take i).foldl A.perform s) actions[i] := by
  induction actions generalizing s i with
  | nil => exact absurd hi (Nat.not_lt_zero i)
  | cons a actions ih =>
    cases i with
    | zero => exact h.1
    | succ i => exact ih h.2 i (Nat.lt_of_succ_lt_succ hi)

/-- A sequence of allowed actions, each performed where its guard holds. -/
inductive Actions.Path (A : Actions σ α) (allowed : α → Prop) : σ → σ → Prop where
  | refl (s : σ) : Path A allowed s s
  | step {s t : σ} (a : α) (before : Path A allowed s t) (hGuard : A.guard t a)
      (hAllowed : allowed a) : Path A allowed s (A.perform t a)

namespace Actions.Path

variable {A : Actions σ α} {allowed allowed' : α → Prop} {s t u : σ}

theorem single (a : α) (hGuard : A.guard s a) (hAllowed : allowed a) :
    A.Path allowed s (A.perform s a) :=
  .step a (.refl s) hGuard hAllowed

theorem trans (h : A.Path allowed s t) (h' : A.Path allowed t u) : A.Path allowed s u := by
  induction h' with
  | refl => exact h
  | step a _ hGuard hAllowed ih => exact .step a ih hGuard hAllowed

theorem of_enabled (actions : List α) {s : σ} (h : A.Enabled s actions) :
    A.Path (fun _ => True) s (actions.foldl A.perform s) := by
  induction actions generalizing s with
  | nil => exact .refl s
  | cons a actions ih => exact (single a h.1 trivial).trans (ih h.2)

theorem mono (hImp : ∀ a, allowed a → allowed' a) (h : A.Path allowed s t) :
    A.Path allowed' s t := by
  induction h with
  | refl => exact .refl _
  | step a _ hGuard hAllowed ih => exact .step a ih hGuard (hImp a hAllowed)

theorem invariant {P : σ → Prop}
    (hStep : ∀ s a, P s → A.guard s a → allowed a → P (A.perform s a))
    (h : A.Path allowed s t) (hStart : P s) : P t := by
  induction h with
  | refl => exact hStart
  | step a _ hGuard hAllowed ih => exact hStep _ a ih hGuard hAllowed

/-- A relation that every allowed action respects, and that composes, relates the ends. -/
theorem related {R : σ → σ → Prop} (hRefl : ∀ s, R s s) (hTrans : ∀ s t u, R s t → R t u → R s u)
    (hStep : ∀ s a, A.guard s a → allowed a → R s (A.perform s a)) (h : A.Path allowed s t) :
    R s t := by
  induction h with
  | refl => exact hRefl _
  | step a _ hGuard hAllowed ih => exact hTrans _ _ _ ih (hStep _ a hGuard hAllowed)

end Actions.Path

end Epimone.Transition
