import Epimone.Client.Transactions

/-! # The end of a pane

What the window does when the data channel of a pane has ended: it asks the
daemon whether the shell is still alive and kills the session if it is not told
so.
-/
set_option autoImplicit false

namespace Epimone.Client

open Program

/-- The loop over the sessions; it stops at the first with the id. -/
def sessionAlive (id : Nat) (sessions : List EpiSessionInfo) : Bool :=
  (sessions.find? fun si => si.id == id).any EpiSessionInfo.alive

/-- The sessions for which death_idle sends KILL. -/
def deathIdle (id : Nat) (x : Exchange) : List Nat :=
  if id = 0 then []
  else
    let alive :=
      match epimoneClientListSessions x with
      | .ok sessions => sessionAlive id sessions
      | .error _ => false
    if alive then [] else [id]

/-- KILL is sent only for a session that a LIST reply leaves out or reports not alive. -/
def SparesLive (id : Nat) (x : Exchange) : Prop :=
  ∀ s ∈ deathIdle id x, ∃ sessions, ListReplied x sessions ∧
    ((∀ si ∈ sessions, si.id ≠ s) ∨ ∃ si ∈ sessions, si.id = s ∧ si.alive = false)

/-- The reply breaks off, but behind an entry that says the session is alive. -/
def ListedBeforeBreak (id : Nat) (x : Exchange) : Prop :=
  ∃ body, controlTxn x = .ok (EpiMsgType.listReply.code, body) ∧
    sessionAlive id (value (Decoder.sessionsReply x.rdAlloc) (.start body)) = true

theorem sessionAlive_eq_false {id : Nat} {sessions : List EpiSessionInfo}
    (h : sessionAlive id sessions = false) :
    (∀ si ∈ sessions, si.id ≠ id) ∨ ∃ si ∈ sessions, si.id = id ∧ si.alive = false := by
  unfold sessionAlive at h
  cases hFind : sessions.find? fun si => si.id == id with
  | none =>
    refine Or.inl fun si hsi hSame => ?_
    exact absurd (beq_iff_eq.mpr hSame) (List.find?_eq_none.mp hFind si hsi)
  | some si =>
    have hMatch := List.find?_some hFind
    rw [hFind] at h
    exact Or.inr ⟨si, List.mem_of_find?_eq_some hFind, by simpa using hMatch, h⟩

/-- death_idle spares the live sessions exactly when there is no session, when a whole LIST reply
arrives, or when what arrives of one says that the session is alive. -/
theorem deathIdle_spares_iff (id : Nat) (x : Exchange) :
    SparesLive id x ↔ id = 0 ∨ (∃ sessions, ListReplied x sessions) ∨ ListedBeforeBreak id x := by
  constructor
  · intro h
    refine or_iff_not_imp_left.mpr fun hId => ?_
    cases hAlive : (match epimoneClientListSessions x with
      | .ok sessions => sessionAlive id sessions
      | .error _ => false) with
    | true =>
      cases hList : epimoneClientListSessions x with
      | error e =>
        rw [hList] at hAlive
        cases hAlive
      | ok sessions =>
        rw [hList] at hAlive
        obtain ⟨body, hTxn, hValue⟩ := listSessions_eq_ok.mp hList
        exact Or.inr ⟨body, hTxn, hValue ▸ hAlive⟩
    | false =>
      have hKill : id ∈ deathIdle id x := by
        unfold deathIdle
        rw [if_neg hId]
        dsimp only
        rw [hAlive]
        exact List.mem_cons_self
      obtain ⟨sessions, hReplied, _⟩ := h id hKill
      exact Or.inl ⟨sessions, hReplied⟩
  · rintro (rfl | ⟨sessions, hReplied⟩ | ⟨body, hTxn, hAlive⟩) s hs
    · cases hs
    · unfold deathIdle at hs
      rw [hReplied.listSessions] at hs
      dsimp only at hs
      split at hs
      · cases hs
      · split at hs
        · cases hs
        · rename_i hDead
          obtain rfl := List.mem_singleton.mp hs
          exact ⟨sessions, hReplied, sessionAlive_eq_false (Bool.not_eq_true _ ▸ hDead)⟩
    · have hList := listSessions_eq_ok.mpr ⟨body, hTxn, rfl⟩
      unfold deathIdle at hs
      rw [hList] at hs
      dsimp only at hs
      rw [hAlive, if_pos rfl, ite_self] at hs
      cases hs

/-- A session whose daemon could not be asked is killed. -/
theorem deathIdle_unreachable : deathIdle 1 unreachable = [1] ∧ ¬ SparesLive 1 unreachable := by
  have hKill : deathIdle 1 unreachable = [1] := rfl
  refine ⟨hKill, fun hSpares => ?_⟩
  obtain ⟨sessions, hReplied, _⟩ := hSpares 1 (by rw [hKill]; exact List.mem_cons_self)
  exact not_listReplied_unreachable sessions hReplied

end Epimone.Client
