import Epimone.Library.Transition

/-! # Steps of a run and what they conserve

A run as the list of its steps, each with the state before it and the state
after it. A quantity that every step changes only by what flows in and out is
balanced by the flows of the whole run.
-/
set_option autoImplicit false

namespace Epimone.Transition

universe u v w

structure Step (σ : Type u) (ι : Type v) where
  before : σ
  input : ι
  after : σ

variable {σ : Type u} {ι : Type v}

def Machine.stepsFrom (M : Machine σ ι) (s : σ) : List ι → List (Step σ ι)
  | [] => []
  | i :: inputs =>
    match M.step s i with
    | none => []
    | some t => ⟨s, i, t⟩ :: M.stepsFrom t inputs

def Machine.steps (M : Machine σ ι) (inputs : List ι) : List (Step σ ι) := M.stepsFrom M.init inputs

/-- Every step of the run meets a condition on the state before it and its input. -/
def Machine.Meets (M : Machine σ ι) (condition : σ → ι → Prop) (s : σ) (inputs : List ι) : Prop :=
  ∀ step ∈ M.stepsFrom s inputs, condition step.before step.input

instance {M : Machine σ ι} {condition : σ → ι → Prop} [∀ s i, Decidable (condition s i)] (s : σ)
    (inputs : List ι) : Decidable (M.Meets condition s inputs) :=
  inferInstanceAs (Decidable (∀ step ∈ M.stepsFrom s inputs, condition step.before step.input))

section Steps

variable {M : Machine σ ι} {s t : σ} {inputs : List ι}

/-- Every step starts where the invariant holds, and takes an input of the run. -/
theorem Machine.stepsFrom_spec {P : σ → Prop}
    (hStep : ∀ s i t, P s → i ∈ inputs → M.step s i = some t → P t) (hStart : P s) :
    ∀ step ∈ M.stepsFrom s inputs,
      P step.before ∧ M.step step.before step.input = some step.after ∧ step.input ∈ inputs := by
  induction inputs generalizing s with
  | nil => intro step hMem; cases hMem
  | cons i inputs ih =>
    intro step hMem
    rw [stepsFrom] at hMem
    cases hNext : M.step s i with
    | none => rw [hNext] at hMem; cases hMem
    | some t =>
      rw [hNext] at hMem
      rcases List.mem_cons.mp hMem with rfl | hLater
      · exact ⟨hStart, hNext, List.mem_cons_self⟩
      · obtain ⟨hBefore, hTaken, hInput⟩ :=
          ih (fun s' i' t' hs hi => hStep s' i' t' hs (List.mem_cons_of_mem i hi))
            (hStep s i t hStart List.mem_cons_self hNext) step hLater
        exact ⟨hBefore, hTaken, List.mem_cons_of_mem i hInput⟩

theorem Machine.runFrom_of_mem {P : σ → Prop}
    (hStep : ∀ s i t, P s → i ∈ inputs → M.step s i = some t → P t) (hStart : P s)
    (h : M.runFrom s inputs = some t) : P t := by
  induction inputs generalizing s with
  | nil => cases h; exact hStart
  | cons i inputs ih =>
    obtain ⟨s', hFirst, hRest⟩ := Option.bind_eq_some_iff.mp h
    exact ih (fun u j v hu hj => hStep u j v hu (List.mem_cons_of_mem i hj))
      (hStep s i s' hStart List.mem_cons_self hFirst) hRest

theorem Machine.meets_nil {condition : σ → ι → Prop} : M.Meets condition s [] := by
  intro step hMem
  cases hMem

theorem Machine.Meets.cons {condition : σ → ι → Prop} {i : ι} (hHere : condition s i) (hStep : M.step s i = some t)
    (hRest : M.Meets condition t inputs) : M.Meets condition s (i :: inputs) := by
  have hSteps : M.stepsFrom s (i :: inputs) = ⟨s, i, t⟩ :: M.stepsFrom t inputs := by
    rw [stepsFrom, hStep]
  intro step hMem
  rw [hSteps] at hMem
  rcases List.mem_cons.mp hMem with rfl | hLater
  · exact hHere
  · exact hRest step hLater

theorem Machine.Meets.invariant {P : σ → Prop} {condition : σ → ι → Prop} (hMeets : M.Meets condition s inputs)
    (hStep : ∀ s i t, P s → condition s i → M.step s i = some t → P t) (hStart : P s)
    (h : M.runFrom s inputs = some t) : P t := by
  induction inputs generalizing s with
  | nil => cases h; exact hStart
  | cons i inputs ih =>
    obtain ⟨s', hFirst, hRest⟩ := Option.bind_eq_some_iff.mp h
    have hSteps : M.stepsFrom s (i :: inputs) = ⟨s, i, s'⟩ :: M.stepsFrom s' inputs := by
      rw [stepsFrom, hFirst]
    rw [Meets, hSteps] at hMeets
    have hHere := hMeets _ List.mem_cons_self
    exact ih (fun step hMem => hMeets step (List.mem_cons_of_mem _ hMem)) (hStep s i s' hStart hHere hFirst) hRest

theorem Machine.Meets.steps_spec {P : σ → Prop} {condition : σ → ι → Prop} (hMeets : M.Meets condition s inputs)
    (hStep : ∀ s i t, P s → condition s i → M.step s i = some t → P t) (hStart : P s) :
    ∀ step ∈ M.stepsFrom s inputs, P step.before ∧ M.step step.before step.input = some step.after := by
  induction inputs generalizing s with
  | nil => intro step hMem; cases hMem
  | cons i inputs ih =>
    cases hNext : M.step s i with
    | none =>
      intro step hMem
      rw [stepsFrom, hNext] at hMem
      cases hMem
    | some t =>
      have hSteps : M.stepsFrom s (i :: inputs) = ⟨s, i, t⟩ :: M.stepsFrom t inputs := by
        rw [stepsFrom, hNext]
      rw [Meets, hSteps] at hMeets
      rw [hSteps]
      have hHere := hMeets _ List.mem_cons_self
      intro step hMem
      rcases List.mem_cons.mp hMem with rfl | hLater
      · exact ⟨hStart, hNext⟩
      · exact ih (fun step hMem => hMeets step (List.mem_cons_of_mem _ hMem)) (hStep s i t hStart hHere hNext)
          step hLater

/-- What was there and what came in is what went out and what is there. -/
theorem Machine.runFrom_flow {α : Type w} {quantity : σ → List α} {gain drain : Step σ ι → List α}
    (hStep : ∀ step ∈ M.stepsFrom s inputs,
      quantity step.before ++ gain step = drain step ++ quantity step.after)
    (h : M.runFrom s inputs = some t) :
    quantity s ++ (M.stepsFrom s inputs).flatMap gain =
      (M.stepsFrom s inputs).flatMap drain ++ quantity t := by
  induction inputs generalizing s with
  | nil =>
    cases h
    simp [stepsFrom]
  | cons i inputs ih =>
    obtain ⟨s', hFirst, hRest⟩ := Option.bind_eq_some_iff.mp h
    have hSteps : M.stepsFrom s (i :: inputs) = ⟨s, i, s'⟩ :: M.stepsFrom s' inputs := by
      rw [stepsFrom, hFirst]
    rw [hSteps] at hStep ⊢
    have hHere := hStep _ List.mem_cons_self
    have hLater := ih (fun step hMem => hStep step (List.mem_cons_of_mem _ hMem)) hRest
    rw [List.flatMap_cons, List.flatMap_cons, ← List.append_assoc, hHere, List.append_assoc, hLater,
      List.append_assoc]

theorem Machine.runFrom_record {α : Type w} {quantity : σ → List α} {gain : Step σ ι → List α}
    (hStep : ∀ step ∈ M.stepsFrom s inputs, quantity step.after = quantity step.before ++ gain step)
    (h : M.runFrom s inputs = some t) : quantity t = quantity s ++ (M.stepsFrom s inputs).flatMap gain := by
  have hFlow := @Machine.runFrom_flow σ ι M s t inputs α quantity gain (fun _ => [])
    (fun step hMem => (hStep step hMem).symm) h
  rw [hFlow, List.flatMap_eq_nil_iff.mpr fun _ _ => rfl, List.nil_append]

end Steps

end Epimone.Transition
