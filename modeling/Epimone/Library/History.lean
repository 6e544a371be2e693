import Mathlib.Data.List.Induction

/-! # Histories

A history lists the events of a run, oldest first. A law over histories says
of each event that it was permitted by the events before it.
-/
set_option autoImplicit false

namespace Epimone.History

universe u v

variable {ε : Type u}

/-- Every event is permitted by what happened before it. -/
def Lawful (law : List ε → ε → Prop) (events : List ε) : Prop :=
  ∀ before event after, events = before ++ event :: after → law before event

variable {law : List ε → ε → Prop}

theorem lawful_nil : Lawful law [] := by
  intro before event after h
  simp at h

theorem split_append {before after mid later : List ε} {e : ε} (h : before ++ after = mid ++ e :: later) :
    (∃ tail, before = mid ++ e :: tail ∧ later = tail ++ after) ∨ ∃ head, mid = before ++ head ∧
    after = head ++ e :: later := by
  rcases List.append_eq_append_iff.mp h with ⟨head, rfl, hAfter⟩ | ⟨tail, rfl, hLater⟩
  · exact .inr ⟨head, rfl, hAfter⟩
  · cases tail with
    | nil => exact .inr ⟨[], by simp, by simpa using hLater.symm⟩
    | cons first tail =>
      obtain ⟨rfl, rfl⟩ := List.cons.inj hLater
      exact .inl ⟨tail, rfl, rfl⟩

theorem lawful_append_singleton (events : List ε) (last : ε) :
    Lawful law (events ++ [last]) ↔ Lawful law events ∧ law events last := by
  constructor
  · intro h
    refine ⟨fun before event after hSplit => ?_, h events last [] rfl⟩
    exact h before event (after ++ [last]) (by rw [hSplit]; simp)
  · rintro ⟨hBefore, hLast⟩ before event after hSplit
    rcases List.eq_nil_or_concat after with rfl | ⟨rest, final, rfl⟩
    · obtain ⟨rfl, hEvent⟩ := List.append_inj' hSplit rfl
      cases hEvent
      exact hLast
    · rw [List.concat_eq_append, ← List.cons_append, ← List.append_assoc] at hSplit
      exact hBefore before event rest (List.append_inj' hSplit rfl).1

theorem lawful_append (before after : List ε) :
    Lawful law (before ++ after) ↔
      Lawful law before ∧ Lawful (fun history => law (before ++ history)) after := by
  constructor
  · intro h
    constructor
    · intro first event rest hSplit
      exact h first event (rest ++ after) (by rw [hSplit]; simp)
    · intro first event rest hSplit
      exact h (before ++ first) event rest (by rw [hSplit]; simp)
  · rintro ⟨hBefore, hAfter⟩
    induction after using List.reverseRecOn with
    | nil => simpa using hBefore
    | append_singleton rest last ih =>
      obtain ⟨hRest, hLast⟩ := (lawful_append_singleton rest last).mp hAfter
      rw [← List.append_assoc, lawful_append_singleton]
      exact ⟨ih hRest, hLast⟩

theorem lawful_cons (event : ε) (events : List ε) :
    Lawful law (event :: events) ↔ law [] event ∧ Lawful (fun history => law (event :: history)) events := by
  have h : Lawful law ([] ++ [event]) ↔ _ := lawful_append_singleton [] event
  have hSplit : Lawful law ([event] ++ events) ↔ _ := lawful_append [event] events
  rw [List.nil_append] at h
  rw [List.singleton_append, h, and_iff_right lawful_nil] at hSplit
  exact hSplit

/-- A law that can be decided event by event can be decided for a whole history. -/
def decideLawful (law : List ε → ε → Prop) [∀ history event, Decidable (law history event)] :
    (events : List ε) → Decidable (Lawful law events)
  | [] => isTrue lawful_nil
  | event :: events =>
    have := decideLawful (fun history => law (event :: history)) events
    decidable_of_iff (law [] event ∧ Lawful (fun history => law (event :: history)) events)
      (lawful_cons event events).symm

instance instDecidableLawful (law : List ε → ε → Prop) [∀ history event, Decidable (law history event)]
    (events : List ε) : Decidable (Lawful law events) :=
  decideLawful law events

theorem Lawful.mono {law' : List ε → ε → Prop} {events : List ε} (h : Lawful law events)
    (hImp : ∀ history event, law history event → law' history event) : Lawful law' events :=
  fun before event after hSplit => hImp before event (h before event after hSplit)

/-- Some event of the first kind has none of the second kind after it. -/
def Since (raised settled : ε → Prop) (events : List ε) : Prop :=
  ∃ before event after, events = before ++ event :: after ∧ raised event ∧ ∀ e ∈ after, ¬ settled e

section Since

variable {raised settled : ε → Prop}

theorem not_since_nil : ¬ Since raised settled [] := by
  rintro ⟨before, event, after, h, _⟩
  simp at h

theorem since_append_singleton (events : List ε) (last : ε) :
    Since raised settled (events ++ [last]) ↔ raised last ∨ (Since raised settled events ∧ ¬ settled last) := by
  constructor
  · rintro ⟨before, event, after, hSplit, hRaised, hLater⟩
    rcases List.eq_nil_or_concat after with rfl | ⟨rest, final, rfl⟩
    · obtain ⟨rfl, hEvent⟩ := List.append_inj' hSplit rfl
      cases hEvent
      exact Or.inl hRaised
    · rw [List.concat_eq_append, ← List.cons_append, ← List.append_assoc] at hSplit
      obtain ⟨rfl, hLast⟩ := List.append_inj' hSplit rfl
      cases hLast
      have hRest : ∀ e ∈ rest, ¬ settled e := fun e he => hLater e (by simp [he])
      exact Or.inr ⟨⟨before, event, rest, rfl, hRaised, hRest⟩, hLater last (by simp)⟩
  · rintro (hRaised | ⟨⟨before, event, after, rfl, hRaised, hLater⟩, hLast⟩)
    · exact ⟨events, last, [], rfl, hRaised, by simp⟩
    · refine ⟨before, event, after ++ [last], by simp, hRaised, ?_⟩
      intro e he
      rcases List.mem_append.mp he with hOld | hNew
      · exact hLater e hOld
      · rw [List.mem_singleton.mp hNew]
        exact hLast

end Since

end Epimone.History
