import Epimone.Library.Transition

/-! # Runs that follow one another

One machine follows another step by step, under inputs that correspond. What is
known of the end of a run, and holds the earlier the more, may be used at every
step on the way there.
-/
set_option autoImplicit false

namespace Epimone.Transition

universe u v w x

variable {σ : Type u} {ι : Type v} {τ : Type w} {κ : Type x} (M : Machine σ ι) (N : Machine τ κ)
  {inv known : σ → Prop} {R : σ → τ → Prop} {Q : ι → κ → Prop}
  (hInv : ∀ s i s', inv s → M.step s i = some s' → inv s')
  (hBack : ∀ s i s', inv s → M.step s i = some s' → known s' → known s)

include hInv hBack

/-- What is known of the end was true at the start. -/
theorem Machine.runFrom_back (inputs : List ι) {s final : σ} (hStart : inv s)
    (hRun : M.runFrom s inputs = some final) (hKnown : known final) : known s := by
  induction inputs generalizing s with
  | nil =>
    cases hRun
    exact hKnown
  | cons i inputs ih =>
    obtain ⟨s', hFirst, hRest⟩ := Option.bind_eq_some_iff.mp hRun
    exact hBack s i s' hStart hFirst (ih (hInv s i s' hStart hFirst) hRest)

/-- A run is followed all along if each of its steps is. -/
theorem Machine.runFrom_follows
    (hStep : ∀ s t i s', inv s → known s' → R s t → M.step s i = some s' →
      ∃ j t', Q i j ∧ N.step t j = some t' ∧ R s' t')
    (inputs : List ι) {s final : σ} {t : τ} (hStart : inv s) (hRelated : R s t)
    (hRun : M.runFrom s inputs = some final) (hKnown : known final) :
    ∃ inputs' final', List.Forall₂ Q inputs inputs' ∧ N.runFrom t inputs' = some final' ∧ R final final' := by
  induction inputs generalizing s t with
  | nil =>
    cases hRun
    exact ⟨[], t, .nil, rfl, hRelated⟩
  | cons i inputs ih =>
    obtain ⟨s', hFirst, hRest⟩ := Option.bind_eq_some_iff.mp hRun
    have hStart' := hInv s i s' hStart hFirst
    have hKnown' := M.runFrom_back hInv hBack inputs hStart' hRest hKnown
    obtain ⟨j, t', hInput, hFollowed, hRelated'⟩ := hStep s t i s' hStart hKnown' hRelated hFirst
    obtain ⟨inputs', final', hInputs, hRun', hFinal⟩ := ih hStart' hRelated' hRest
    exact ⟨j :: inputs', final', .cons hInput hInputs, (Machine.runFrom_cons hFollowed inputs').trans hRun', hFinal⟩

end Epimone.Transition
