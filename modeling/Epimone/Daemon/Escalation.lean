import Epimone.Daemon.Children
import Epimone.Library.Conservation

/-! # Kill escalation

A session that was killed is armed: it stays on the list, hidden and with its
deadline, until its child has been waited for or SIGKILL has been sent. The one
way out is the hangup of its PTY, which drops the session whether its child has
been waited for or not.
-/
set_option autoImplicit false

namespace Epimone.Daemon

open Transition History

/-- The child has been waited for, or SIGKILL has been sent to it. -/
def Finished (history : List Effect) (s : SessPtr) : Prop :=
  .reaped s ∈ history ∨ ∃ pid, .signal (some s) pid .kill ∈ history

def Effect.finishes (s : SessPtr) : Effect → Bool
  | .reaped t | .signal (some t) _ .kill => t == s
  | _ => false

def Effect.kills (s : SessPtr) : Effect → Bool
  | .killed t _ => t == s
  | _ => false

/-- The PTY of a killed session hangs up only when its child is finished. -/
def hangsUpFinished (history : List Effect) : Effect → Bool
  | .ptyHangup s => !history.any (Effect.kills s) || history.any (Effect.finishes s)
  | _ => true

structure Session.Armed (k : Session) (deadline : Timespec) : Prop where
  killing : k.killing = true
  alive : k.alive = true
  removed : k.removed = true
  killDeadline : k.killDeadline = deadline

/-- Every killed session is on the list and armed, unless its child is finished. -/
def Server.Doomed (srv : Server) : Prop :=
  ∀ s d, .killed s d ∈ srv.trace →
    Finished srv.trace s ∨ s ∈ srv.sessions ∧ (srv.sess s).Armed d

theorem finished_iff {history : List Effect} {s : SessPtr} :
    history.any (Effect.finishes s) = true ↔ Finished history s := by
  rw [List.any_eq_true]
  constructor
  · rintro ⟨e, he, hSame⟩
    cases e with
    | reaped t =>
      obtain rfl := eq_of_beq hSame
      exact Or.inl he
    | signal child pid sig =>
      cases child with
      | none => cases hSame
      | some t =>
        cases sig with
        | hup => cases hSame
        | kill =>
          obtain rfl := eq_of_beq hSame
          exact Or.inr ⟨pid, he⟩
    | _ => cases hSame
  · rintro (hReaped | ⟨pid, hSignal⟩)
    · exact ⟨_, hReaped, beq_self_eq_true s⟩
    · exact ⟨_, hSignal, beq_self_eq_true s⟩

theorem Finished.append {history : List Effect} {s : SessPtr} (h : Finished history s)
    (later : List Effect) : Finished (history ++ later) s :=
  h.imp (List.mem_append_left later) fun ⟨pid, hSignal⟩ => ⟨pid, List.mem_append_left later hSignal⟩

theorem finished_of_hangup {before after : List Effect} {s : SessPtr} {d : Timespec}
    (hLaw : Lawful (fun history e => hangsUpFinished history e = true) (before ++ .ptyHangup s :: after))
    (hKilled : .killed s d ∈ before) : Finished before s := by
  have hHangup : (!before.any (Effect.kills s) || before.any (Effect.finishes s)) = true :=
    hLaw before (.ptyHangup s) after rfl
  have hAny : before.any (Effect.kills s) = true :=
    List.any_eq_true.mpr ⟨_, hKilled, beq_self_eq_true s⟩
  rw [hAny] at hHangup
  exact finished_iff.mp hHangup

section Perform

variable {srv : Server} {a : Act} {s : SessPtr} {d : Timespec}

/-- The actions that touch what a deadline depends on. -/
def Act.rearms : Act → Bool
  | .create .. | .kill .. | .reap .. | .free .. | .escalate _ => true
  | _ => false

theorem armed_of_calm (hCalm : a.rearms = false) (h : (srv.sess s).Armed d) :
    ((a.perform srv).sess s).Armed d := by
  have hFields : ∀ t k, a.sessionAfter srv = some (t, k) → k.killing = (srv.sess t).killing ∧
      k.alive = (srv.sess t).alive ∧ k.removed = (srv.sess t).removed ∧
      k.killDeadline = (srv.sess t).killDeadline := by
    intro t k hAfter
    cases a <;> simp [Act.sessionAfter, Act.rearms, Option.bind_eq_some_iff] at hAfter hCalm <;> grind
  constructor
  · rw [sess_perform_field Session.killing (fun t k hAfter => (hFields t k hAfter).1)]
    exact h.killing
  · rw [sess_perform_field Session.alive (fun t k hAfter => (hFields t k hAfter).2.1)]
    exact h.alive
  · rw [sess_perform_field Session.removed (fun t k hAfter => (hFields t k hAfter).2.2.1)]
    exact h.removed
  · rw [sess_perform_field Session.killDeadline (fun t k hAfter => (hFields t k hAfter).2.2.2)]
    exact h.killDeadline

/-- An armed session leaves the list only through the hangup of its PTY. -/
theorem finished_of_leaving (h : (srv.sess s).Armed d) (hKilled : .killed s d ∈ srv.trace)
    (hLaw : Lawful (fun history e => hangsUpFinished history e = true) srv.trace)
    (hLeave : srv.MayLeave s) : Finished srv.trace s := by
  rcases hLeave with hDead | hShown | ⟨before, after, hSplit, hAfter⟩
  · rw [h.alive] at hDead
    cases hDead
  · rw [h.removed] at hShown
    cases hShown
  · rw [hSplit] at hLaw hKilled ⊢
    have hBefore : .killed s d ∈ before := by
      rcases List.mem_append.mp hKilled with hBefore | hLater
      · exact hBefore
      · exact absurd ((List.mem_cons.mp hLater).resolve_left Effect.noConfusion) (hAfter d)
    exact (finished_of_hangup hLaw hBefore).append _

theorem finished_of_escalate (hKin : srv.Kin) (hs : s ∈ srv.sessions) (h : (srv.sess s).Armed d) :
    Finished ((Act.escalate s).perform srv).trace s := by
  have hChild := hKin.living s hs h.alive
  rw [trace_perform]
  refine Or.inr ⟨(srv.sess s).pid, List.mem_append_right _ ?_⟩
  rw [← hKin.childOf_eq hChild]
  exact mem_killEffects.mpr ⟨h.alive, hKin.positive _ hChild, rfl⟩

theorem armed_of_reap (hKin : srv.Kin) (hs : s ∈ srv.sessions) (h : (srv.sess s).Armed d)
    {pid status : Nat} {child : SessPtr} (hChild : srv.childOf pid = some child) :
    Finished (markReaped srv pid status child).trace s ∨
      ((markReaped srv pid status child).sess s).Armed d := by
  rw [markReaped_sess]
  split
  · rename_i hOwner
    have hPid : (srv.sess s).pid = pid := by
      have hMatch := List.find?_some hOwner
      simpa using hMatch
    have hOwn := hKin.childOf_eq (hKin.living s hs h.alive)
    rw [hPid, hChild] at hOwn
    cases hOwn
    refine Or.inl (Or.inl ?_)
    rw [markReaped_eq]
    exact List.mem_append_right _ List.mem_cons_self
  · exact Or.inr h

theorem armed_perform (hLinks : srv.links.Consistent) (hKin : srv.Kin) (hs : s ∈ srv.sessions)
    (h : (srv.sess s).Armed d) (hKilled : .killed s d ∈ srv.trace)
    (hLaw : Lawful (fun history e => hangsUpFinished history e = true) srv.trace)
    (hGuard : a.guard srv) :
    Finished (a.perform srv).trace s ∨ s ∈ (a.perform srv).sessions ∧ ((a.perform srv).sess s).Armed d := by
  have hListed : (∀ t, a ≠ .unlink t) → s ∈ (a.perform srv).sessions := by
    intro hOther
    change s ∈ (a.perform srv).links.sessions
    rw [links_perform hGuard]
    cases a with
    | unlink t => exact absurd rfl (hOther t)
    | create => exact List.mem_cons_of_mem _ hs
    | _ => exact hs
  cases a with
  | create pid cwd argv env exec k =>
    refine Or.inr ⟨hListed fun t => Act.noConfusion, ?_⟩
    rw [sess_perform_of_ne]
    · exact h
    · rintro k' ⟨⟩
      exact Nat.lt_irrefl _ (hLinks.sessions_lt _ hs)
  | kill t clock =>
    refine Or.inr ⟨hListed fun t => Act.noConfusion, ?_⟩
    rw [sess_perform_of_ne]
    · exact h
    · rintro k' ⟨⟩
      have hShown : (srv.sess s).removed = false := hGuard.2.2.2
      rw [h.removed] at hShown
      cases hShown
  | reap pid status child =>
    exact (armed_of_reap hKin hs h hGuard).imp_right fun hKept => ⟨hListed fun t => Act.noConfusion, hKept⟩
  | free t rest =>
    refine Or.inr ⟨hListed fun t => Act.noConfusion, ?_⟩
    rw [sess_perform_of_ne]
    · exact h
    · rintro k' ⟨⟩
      refine hLinks.disjoint s hs ?_
      rw [show srv.links.dead = s :: rest from hGuard]
      exact List.mem_cons_self
  | escalate t =>
    rcases eq_or_ne s t with rfl | hNe
    · exact Or.inl (finished_of_escalate hKin hs h)
    · refine Or.inr ⟨hListed fun t => Act.noConfusion, ?_⟩
      rw [sess_perform_of_ne]
      · exact h
      · rintro k' ⟨⟩
        exact hNe rfl
  | unlink t =>
    rcases eq_or_ne s t with rfl | hNe
    · rw [trace_perform]
      exact Or.inl ((finished_of_leaving h hKilled hLaw hGuard.2.2.2).append _)
    · refine Or.inr ⟨?_, armed_of_calm rfl h⟩
      simp only [Act.perform, unlinkMember_eq]
      exact (List.mem_erase_of_ne hNe).mpr hs
  | _ => exact Or.inr ⟨hListed fun t => Act.noConfusion, armed_of_calm rfl h⟩

theorem doomed_perform (hLinks : srv.links.Consistent) (hKin : srv.Kin) (h : srv.Doomed)
    (hLaw : Lawful (fun history e => hangsUpFinished history e = true) srv.trace)
    (hGuard : a.guard srv) : (a.perform srv).Doomed := by
  intro s d hKilled
  rw [trace_perform] at hKilled
  rcases List.mem_append.mp hKilled with hBefore | hNew
  · rcases h s d hBefore with hFinished | ⟨hs, hArmed⟩
    · rw [trace_perform]
      exact Or.inl (hFinished.append _)
    · exact armed_perform hLinks hKin hs hArmed hBefore hLaw hGuard
  · obtain ⟨clock, rfl, rfl⟩ := killed_mem_effects hNew
    obtain ⟨hs, _, hAlive, _⟩ := hGuard
    refine Or.inr ⟨?_, ?_⟩
    · simp only [Act.perform, markKilled_eq]
      exact hs
    · rw [sess_perform_of_eq (a := .kill s clock) rfl]
      exact ⟨rfl, hAlive, rfl, rfl⟩

/-- A killed session is armed or finished wherever the daemon comes. -/
theorem Reached.doomed {instanceId : Nat} (h : Reached instanceId srv)
    (hLaw : Lawful (fun history e => hangsUpFinished history e = true) srv.trace) : srv.Doomed := by
  have hAll : srv.Kin ∧ (Lawful (fun history e => hangsUpFinished history e = true) srv.trace →
      srv.Doomed) := by
    refine Reached.invariant (P := fun srv => srv.Kin ∧
      (Lawful (fun history e => hangsUpFinished history e = true) srv.trace → srv.Doomed))
      ⟨initial_kin instanceId, ?_⟩ ?_ h
    · intro _ s d hKilled
      cases hKilled
    · rintro srv a hLinks ⟨hKin, hDoomed⟩ hGuard
      refine ⟨kin_perform hLinks hKin hGuard, fun hLater => ?_⟩
      have hBefore := (lawful_perform.mp hLater).1
      exact doomed_perform hLinks hKin (hDoomed hBefore) hBefore hGuard
  exact hAll.2 hLaw

end Perform

section Deadlines

/-- The session is due: the walk over the deadlines would kill it. -/
def Session.Due (k : Session) (now : Timespec) : Prop :=
  k.killing = true ∧ k.alive = true ∧ msUntil k.killDeadline now ≤ 0

theorem escalate_of_ne {srv : Server} {s t : SessPtr} (now : Timespec) (hNe : s ≠ t) :
    (escalate srv t now).sess s = srv.sess s := by
  unfold escalate
  dsimp only
  split
  · rw [epiSessionKill_eq]
    exact Function.update_of_ne hNe _ _
  · rfl

theorem not_due_escalate (srv : Server) (s : SessPtr) (now : Timespec) :
    ¬ ((escalate srv s now).sess s).Due now := by
  unfold escalate
  dsimp only
  split
  · rintro ⟨hKilling, _⟩
    rw [epiSessionKill_eq] at hKilling
    simp [Server.modSess] at hKilling
  · rename_i hIdle
    rintro ⟨hKilling, hAlive, hLate⟩
    exact hIdle (by simp [hKilling, hAlive, hLate])

/-- The walk over the deadlines leaves no session due. -/
theorem not_due_escalateAll (clock : SessPtr → Timespec) (l : List SessPtr) (srv : Server) {s : SessPtr}
    (h : s ∈ l ∨ ¬ (srv.sess s).Due (clock s)) :
    ¬ ((escalateAll clock l srv).sess s).Due (clock s) := by
  induction l generalizing srv with
  | nil => exact h.resolve_left List.not_mem_nil
  | cons t rest ih =>
    apply ih
    rcases eq_or_ne s t with rfl | hNe
    · exact Or.inr (not_due_escalate srv s (clock s))
    · rw [escalate_of_ne _ hNe]
      exact h.imp_left fun hs => (List.mem_cons.mp hs).resolve_left hNe

theorem escalateAll_sessions (clock : SessPtr → Timespec) (l : List SessPtr) (srv : Server) :
    (escalateAll clock l srv).sessions = srv.sessions := by
  induction l generalizing srv with
  | nil => rfl
  | cons t rest ih => exact (ih _).trans (escalate_sessions srv t (clock t)).1

theorem not_due_finishBatch (srv : Server) (now : Timespec) (early : SessPtr → Nat) {s : SessPtr}
    (hs : s ∈ (finishBatch srv now early).sessions) :
    ¬ ((finishBatch srv now early).sess s).Due (readings now early s) := by
  unfold finishBatch processKillDeadlines at hs ⊢
  rw [escalateAll_sessions] at hs
  exact not_due_escalateAll (readings now early) _ _ (Or.inl hs)

theorem armed_of_escalate {srv : Server} {s t : SessPtr} {now d : Timespec}
    (h : ((escalate srv t now).sess s).Armed d) : (srv.sess s).Armed d := by
  rcases eq_or_ne s t with rfl | hNe
  · unfold escalate at h
    dsimp only at h
    split at h
    · have hKilling := h.killing
      rw [epiSessionKill_eq] at hKilling
      simp [Server.modSess] at hKilling
    · exact h
  · rwa [escalate_of_ne now hNe] at h

theorem armed_of_escalateAll (clock : SessPtr → Timespec) (l : List SessPtr) (srv : Server) {s : SessPtr}
    {d : Timespec} (h : ((escalateAll clock l srv).sess s).Armed d) : (srv.sess s).Armed d := by
  induction l generalizing srv with
  | nil => exact h
  | cons t rest ih => exact armed_of_escalate (ih _ h)

theorem armed_of_finishBatch {srv : Server} (hLinks : srv.links.Consistent) {now d : Timespec}
    {early : SessPtr → Nat} {s : SessPtr} (hs : s ∈ (finishBatch srv now early).sessions)
    (h : ((finishBatch srv now early).sess s).Armed d) : s ∈ srv.sessions ∧ (srv.sess s).Armed d := by
  unfold finishBatch processKillDeadlines at hs h
  obtain ⟨_, _, hSessions⟩ := @ofFinish_reapDead srv srv.dead rfl
  rw [escalateAll_sessions, show (reapDeadSessions srv).sessions = srv.sessions from hSessions] at hs
  have hListed : s ∉ srv.dead := hLinks.disjoint s hs
  have hReaped := armed_of_escalateAll _ _ _ h
  rw [reapDeadSessions, reapDead_sess, if_neg hListed] at hReaped
  exact ⟨hs, hReaped⟩

def Session.waits (k : Session) : Bool := k.killing && k.alive

/-- No deadline passes unseen before a head: none that the walk over the deadlines finds ahead is
behind at the head that follows, and none is behind at the head that follows an interruption. -/
def Loop.keepsTime (loop : Loop) : Input → Bool
  | .interrupted now => loop.srv.sessions.all fun s =>
      !(loop.srv.sess s).waits || decide (now.nanos < (loop.srv.sess s).killDeadline.nanos)
  | .finish now early => loop.srv.sessions.all fun s =>
      !(loop.srv.sess s).waits || decide (msUntil (loop.srv.sess s).killDeadline (readings now early s) ≤ 0) ||
        decide (now.nanos < (loop.srv.sess s).killDeadline.nanos)
  | _ => true

/-- No armed session is past its deadline at the head of the loop. -/
def Loop.Punctual (loop : Loop) : Prop :=
  ∀ now, loop.phase = .head now → ∀ s ∈ loop.srv.sessions, ∀ d, (loop.srv.sess s).Armed d →
    now.nanos < d.nanos

theorem Session.Armed.waits {k : Session} {d : Timespec} (h : k.Armed d) : k.waits = true :=
  Bool.and_eq_true_iff.mpr ⟨h.killing, h.alive⟩

theorem punctual_finishBatch {srv : Server} (hLinks : srv.links.Consistent) {now : Timespec}
    {early : SessPtr → Nat} (hTime : Loop.keepsTime ⟨srv, .batch []⟩ (.finish now early) = true) {s : SessPtr}
    {d : Timespec} (hs : s ∈ (finishBatch srv now early).sessions)
    (h : ((finishBatch srv now early).sess s).Armed d) : now.nanos < d.nanos := by
  obtain ⟨hIn, hBefore⟩ := armed_of_finishBatch hLinks hs h
  have hHere := List.all_eq_true.mp hTime s hIn
  rw [hBefore.waits, hBefore.killDeadline, Bool.not_true, Bool.false_or, Bool.or_eq_true] at hHere
  rcases hHere with hDue | hAhead
  · refine absurd ⟨h.killing, h.alive, ?_⟩ (not_due_finishBatch srv now early hs)
    rw [h.killDeadline]
    exact of_decide_eq_true hDue
  · exact of_decide_eq_true hAhead

theorem step_punctual {loop loop' : Loop} {input : Input} (hSound : loop.Sound)
    (hTime : loop.keepsTime input = true) (hStep : loop.step input = some loop') : loop'.Punctual := by
  obtain ⟨srv, phase⟩ := loop
  cases input with
  | wait early batch =>
    cases phase <;> simp only [Loop.step, reduceCtorEq] at hStep
    split at hStep <;> cases hStep
    rintro now ⟨⟩
  | interrupted now =>
    cases phase <;> cases hStep
    rintro now' ⟨⟩ s hs d hArmed
    have hHere := List.all_eq_true.mp hTime s hs
    rw [hArmed.waits, hArmed.killDeadline] at hHere
    exact of_decide_eq_true hHere
  | waitFails =>
    cases phase <;> cases hStep
    rintro now ⟨⟩
  | dispatch ans =>
    cases phase with
    | head => cases hStep
    | stopped => cases hStep
    | batch events =>
      cases events with
      | nil => cases hStep
      | cons ready rest =>
        obtain ⟨srv', _, rfl⟩ := Option.map_eq_some_iff.mp hStep
        rintro now ⟨⟩
  | finish now early =>
    cases phase with
    | head => cases hStep
    | stopped => cases hStep
    | batch events =>
      cases events with
      | cons => cases hStep
      | nil =>
        cases hStep
        intro now' hHead s hs d hArmed
        dsimp only at hHead hs hArmed
        split at hHead
        · cases hHead
          exact punctual_finishBatch hSound.consistent hTime hs hArmed
        · cases hHead

end Deadlines

/-- Where the PTY of a killed session hangs up only when its child is finished, a killed session stays
on the list until then; where besides no deadline passes unseen, it is finished at every head of the
loop whose clock is at or past the deadline. -/
theorem finished_by_deadline {instanceId : Nat} {inputs : List Input} {loop : Loop}
    (h : (machine instanceId).run inputs = some loop)
    (hLaw : Lawful (fun history e => hangsUpFinished history e = true) loop.srv.trace)
    (hTime : (machine instanceId).Meets (fun loop input => loop.keepsTime input = true)
      (machine instanceId).init inputs) :
    ∀ s d, .killed s d ∈ loop.srv.trace →
      (Finished loop.srv.trace s ∨ s ∈ loop.srv.sessions) ∧
        ∀ now, loop.phase = .head now → d.nanos ≤ now.nanos → Finished loop.srv.trace s := by
  have hPunctual : loop.Sound ∧ loop.Punctual := by
    refine hTime.invariant (P := fun loop => loop.Sound ∧ loop.Punctual) ?_ ⟨initial_sound instanceId, ?_⟩ h
    · rintro loop input loop' ⟨hSound, _⟩ hKeeps hStep
      exact ⟨step_sound hSound hStep, step_punctual hSound hKeeps hStep⟩
    · rintro now _ s ⟨⟩
  intro s d hKilled
  have hDoomed := (reached_of_run h).doomed hLaw s d hKilled
  refine ⟨hDoomed.imp_right And.left, fun now hHead hLate => ?_⟩
  rcases hDoomed with hFinished | ⟨hs, hArmed⟩
  · exact hFinished
  · exact absurd hLate (Nat.not_le.mpr (hPunctual.2 now hHead s hs d hArmed))

/-- A session is killed; what follows is up to its child. -/
def killing (rest : List Input) : List Input :=
  accepting ++ batchOf (.conn 0 readable) (.conn (calmConn [] createRequest createRequest_bounded 100 ⟨0⟩)) ⟨0⟩ ++
    batchOf (.conn 0 readable) (.conn (calmConn [] (requestFor 4) (by decide) 0 ⟨0⟩)) ⟨0⟩ ++ rest

/-- A second after the deadline. -/
def overdue : Timespec := ⟨3000000000⟩

def killedLate (loop : Loop) : Bool :=
  loop.phase == .head overdue && loop.srv.trace.contains (.killed 0 ⟨2000000000⟩)

/-- The child ignores SIGHUP and closes its terminal: SIGKILL is never sent. -/
theorem finished_by_deadline_forgotten :
    ∃ loop, (machine 7).run (killing (batchOf (.pty 0 hungUp) (.pty hangsUp) overdue)) = some loop ∧
      loop.phase = .head overdue ∧ .killed 0 ⟨2000000000⟩ ∈ loop.srv.trace ∧
      0 ∉ loop.srv.sessions ∧ ¬ Finished loop.srv.trace 0 := by
  have hRun : ((machine 7).run (killing (batchOf (.pty 0 hungUp) (.pty hangsUp) overdue))).any
      fun loop => killedLate loop && loop.srv.sessions.isEmpty &&
        !loop.srv.trace.any (Effect.finishes 0) := by
    decide +kernel
  obtain ⟨loop, hLoop, hLost⟩ := (machine 7).exists_of_run_any hRun
  simp only [killedLate, Bool.and_eq_true, beq_iff_eq, List.contains_iff_mem, List.isEmpty_iff,
    Bool.not_eq_true'] at hLost
  obtain ⟨⟨⟨hHead, hKilled⟩, hNone⟩, hUnfinished⟩ := hLost
  refine ⟨loop, hLoop, hHead, hKilled, by simp [hNone], fun hFinished => ?_⟩
  rw [finished_iff.mpr hFinished] at hUnfinished
  cases hUnfinished

/-- The child keeps its terminal, and the loop wakes up twice, for nothing and for the deadline. -/
def expiring : List Input :=
  killing [.interrupted ⟨1000000000⟩, .wait onTime [], .finish overdue onTime, .interrupted overdue]

theorem finished_by_deadline_killing :
    ∃ loop, (machine 7).run expiring = some loop ∧
      .killed 0 ⟨2000000000⟩ ∈ loop.srv.trace ∧ Finished loop.srv.trace 0 := by
  have hRun : ((machine 7).run expiring).any fun loop => killedLate loop &&
      decide (Lawful (fun history e => hangsUpFinished history e = true) loop.srv.trace) := by
    decide +kernel
  have hTime : (machine 7).Meets (fun loop input => loop.keepsTime input = true) (machine 7).init expiring := by
    decide +kernel
  obtain ⟨loop, hLoop, hLate⟩ := (machine 7).exists_of_run_any hRun
  simp only [killedLate, Bool.and_eq_true, beq_iff_eq, List.contains_iff_mem, decide_eq_true_eq] at hLate
  obtain ⟨⟨hHead, hKilled⟩, hLaw⟩ := hLate
  refine ⟨loop, hLoop, hKilled, ?_⟩
  exact (finished_by_deadline hLoop hLaw hTime 0 _ hKilled).2 overdue hHead (by decide)

end Epimone.Daemon
