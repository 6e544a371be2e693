import Epimone.Daemon.Changes
import Epimone.Daemon.Runs

/-! # Teardown after a failed write

conn_flush marks a connection want_close when a write fails, and returns with
the bytes it could not write still in the buffer. The event loop closes a
connection only once its buffer is empty, so the event in which the write fails
never ends with the connection closed.
-/
set_option autoImplicit false

namespace Epimone.Daemon

open Transition

variable {srv : Server} {c : ConnPtr}

/-- Marked want_close with bytes left to send. -/
def Connection.Stuck (k : Connection) : Prop := k.wantClose = true ∧ k.unsent ≠ []

theorem connFlush_spec (srv : Server) (c : ConnPtr) (outcomes : List WriteOutcome) :
    ∃ es, (connFlush srv c outcomes).trace = srv.trace ++ es ∧
      (.writeFailed c ∈ es → ((connFlush srv c outcomes).conn c).Stuck) := by
  induction outcomes generalizing srv with
  | nil => exact ⟨[], (List.append_nil _).symm, fun hIn => (nomatch hIn)⟩
  | cons outcome outcomes ih =>
    unfold connFlush
    split
    · rename_i hPending
      have hFails : ∃ es, (writeFails srv c).trace = srv.trace ++ es ∧
          (.writeFailed c ∈ es → ((writeFails srv c).conn c).Stuck) := by
        refine ⟨[.writeFailed c], rfl, fun _ => ?_⟩
        simp only [writeFails, Server.modConn, Server.emit, Function.update_self]
        exact ⟨rfl, Connection.unsent_ne_nil_iff.mpr hPending⟩
      cases outcome with
      | wrote n =>
        cases n with
        | zero => exact hFails
        | succ n =>
          obtain ⟨es, hTrace, hStuck⟩ := ih (writeSome srv c (n + 1))
          refine ⟨.wrote c ((srv.conn c).unsent.take (n + 1)) :: es, ?_, fun hIn => hStuck ?_⟩
          · rw [hTrace]
            simp [writeSome, Server.modConn, Server.emit]
          · simpa using hIn
      | again => exact ⟨[], (List.append_nil _).symm, fun hIn => (nomatch hIn)⟩
      | intr => exact ih srv
      | failed => exact hFails
    · exact ⟨[], (List.append_nil _).symm, fun hIn => (nomatch hIn)⟩

theorem connQueue_stuck {k : Connection} (h : k.Stuck) (data : Bytes) (alloc : Bool) :
    (connQueue k data alloc).Stuck := by
  refine ⟨connQueue_wantClose_mono h.1, ?_⟩
  cases hFails : k.growthFails data.length alloc with
  | true =>
    rw [connQueue_unsent_of_fails hFails]
    exact h.2
  | false =>
    rw [connQueue_unsent hFails]
    exact List.append_ne_nil_of_left_ne_nil h.2 data

/-- Nothing that conn_read does empties an output buffer. -/
theorem stuck_perform {a : Act} (hIn : a.inbound c = true) {d : ConnPtr} (h : (srv.conn d).Stuck) :
    ((a.perform srv).conn d).Stuck := by
  by_cases hChanged : ∃ k, a.connAfter srv = some (d, k)
  · obtain ⟨k, hAfter⟩ := hChanged
    rw [conn_perform_of_eq hAfter]
    cases a with
    | queue e data alloc =>
      cases hAfter
      exact connQueue_stuck h data alloc
    | attach e s ans =>
      cases hAfter
      refine connQueue_stuck ?_ _ ans.replayAlloc
      have hBound : ({ srv.conn d with isData := true, session := some s } : Connection).Stuck := h
      unfold greeted queueFrame
      split
      · exact hBound
      · exact connQueue_stuck hBound _ ans.queueAlloc
    | unbind | condemn =>
      cases hAfter
      exact ⟨rfl, h.2⟩
    | update =>
      cases hAfter
      exact h
    | write | failWrite | reset | relay | eof | openConn | watchConn | close =>
      simp [Act.inbound, Act.backstage, Act.answers, Act.feeds] at hIn
    | _ => cases hAfter
  · rw [conn_perform_of_ne (fun k hAfter => hChanged ⟨k, hAfter⟩)]
    exact h

theorem inbound_effects {a : Act} (hIn : a.inbound c = true) : .writeFailed c ∉ a.effects srv := by
  cases a <;> simp [Act.effects, attachEffects, Act.inbound, Act.backstage, Act.answers, Act.feeds] at hIn ⊢

theorem Connection.Stuck.settle (h : (srv.conn c).Stuck) : settleConn srv c = srv := by
  unfold settleConn
  have hPending := Connection.unsent_ne_nil_iff.mp h.2
  simp [h.1, Nat.ne_of_gt hPending]

theorem flushReady_spec (srv : Server) (c : ConnPtr) (ev : Events) (ans : ConnAnswers) :
    ∃ es, (flushReady srv c ev ans).trace = srv.trace ++ es ∧
      (.writeFailed c ∈ es → ((flushReady srv c ev ans).conn c).Stuck) := by
  unfold flushReady
  split
  · exact connFlush_spec srv c ans.writes
  · exact ⟨[], (List.append_nil _).symm, fun hIn => (nomatch hIn)⟩

theorem serveConn_spec (h : srv.links.Consistent) (hc : c ∈ srv.conns) (ev : Events)
    (ans : ConnAnswers) :
    ∃ es, (serveConn srv c ev ans).trace = srv.trace ++ es ∧
      (.writeFailed c ∈ es → ((serveConn srv c ev ans).conn c).Stuck) := by
  obtain ⟨es, hTrace, hStuck⟩ := flushReady_spec srv c ev ans
  have hRead := inbound_serveConn h hc ev ans
  obtain ⟨es', hTrace', hQuiet⟩ := trace_path (Q := fun e => e ≠ .writeFailed c)
    (fun t a _ hIn e he hSame => inbound_effects hIn (hSame ▸ he)) hRead
  refine ⟨es ++ es', by rw [hTrace', hTrace, List.append_assoc], fun hFails => ?_⟩
  rcases List.mem_append.mp hFails with hFlush | hLater
  · exact Actions.Path.invariant (P := fun t => (t.conn c).Stuck)
      (fun t a ht _ hIn => stuck_perform hIn ht) hRead (hStuck hFlush)
  · exact absurd rfl (hQuiet _ hLater)

theorem settleConn_trace (srv : Server) (c : ConnPtr) :
    ∃ es, (settleConn srv c).trace = srv.trace ++ es ∧ ∀ e ∈ es, e = .closed c := by
  unfold settleConn
  dsimp only
  generalize hUpdated : (if (!(srv.conn c).wantClose) = true then connUpdate srv c else srv) = updated
  have hTrace : updated.trace = srv.trace := by
    rw [← hUpdated]
    split <;> rfl
  split
  · rw [connClose_eq, ← hTrace]
    exact ⟨[.closed c], rfl, fun e he => List.mem_singleton.mp he⟩
  · exact ⟨[], hTrace.trans (List.append_nil _).symm, fun e he => (nomatch he)⟩

/-- A connection whose write fails is never off the list at the end of that dispatch. -/
theorem listed_of_writeFailed {instanceId : Nat} {inputs : List Input} {loop loop' : Loop}
    {ev : Events} {rest : List Ready} {ans : Answers}
    (h : (machine instanceId).run inputs = some loop) (hPhase : loop.phase = .batch (.conn c ev :: rest))
    (hStep : loop.step (.dispatch ans) = some loop')
    (hFails : .writeFailed c ∈ loop'.srv.trace.drop loop.srv.trace.length) : c ∈ loop'.srv.conns := by
  have hSound := run_sound h
  obtain ⟨srv, phase⟩ := loop
  subst hPhase
  have hc : c ∈ srv.conns := hSound.allocated (.conn c ev) List.mem_cons_self
  obtain ⟨srv', hDispatch, rfl⟩ := Option.map_eq_some_iff.mp hStep
  cases ans with
  | listen | signal | pty => cases hDispatch
  | conn ans =>
    obtain rfl := Option.some.inj hDispatch
    obtain ⟨_, hConns⟩ := ofConn_serveConn hSound.consistent hc ev ans
    obtain ⟨es, hServed, hStuck⟩ := serveConn_spec hSound.consistent hc ev ans
    obtain ⟨es', hSettled, hClosed⟩ := settleConn_trace (serveConn srv c ev ans) c
    rw [dispatchConn_eq] at hFails ⊢
    rw [hSettled, hServed, List.append_assoc, List.drop_left, List.mem_append] at hFails
    have hFailed : .writeFailed c ∈ es := hFails.resolve_right fun hIn => by cases hClosed _ hIn
    rw [(hStuck hFailed).settle, hConns]
    exact hc

/-- The peer is gone; its replies have not been read. -/
def gone : Events := ⟨true, true, true, true, false⟩

/-- A client attaches and goes away before it has read the reply. -/
def abandoning : List Input := attaching ++ [.wait onTime [.conn 0 gone]]

def brokenPipe : Answers := .conn (calmConn [.failed] [] (by decide) 0 ⟨0⟩)

def failsAndStays (loop : Loop) : Bool :=
  loop.phase == .batch [.conn 0 gone] && (loop.step (.dispatch brokenPipe)).any fun loop' =>
    (loop'.srv.trace.drop loop.srv.trace.length).contains (.writeFailed 0) && loop'.srv.conns.contains 0

theorem abandoning_fails :
    ∃ loop loop', (machine 7).run abandoning = some loop ∧ loop.phase = .batch [.conn 0 gone] ∧
      loop.step (.dispatch brokenPipe) = some loop' ∧
      .writeFailed 0 ∈ loop'.srv.trace.drop loop.srv.trace.length ∧ 0 ∈ loop'.srv.conns := by
  have hRun : ((machine 7).run abandoning).any failsAndStays := by decide +kernel
  obtain ⟨loop, hLoop, hFails⟩ := (machine 7).exists_of_run_any hRun
  simp only [failsAndStays, Bool.and_eq_true, beq_iff_eq, Option.any_eq_true, List.contains_iff_mem] at hFails
  obtain ⟨hPhase, loop', hStep, hFailed, hStays⟩ := hFails
  exact ⟨loop, loop', hLoop, hPhase, hStep, hFailed, hStays⟩

/-- The write fails in the last event of the run, and the connection stays. -/
theorem listed_of_writeFailed_abandoning :
    ∃ loop loop', (machine 7).run abandoning = some loop ∧
      loop.step (.dispatch brokenPipe) = some loop' ∧ 0 ∈ loop'.srv.conns := by
  obtain ⟨loop, loop', hLoop, hPhase, hStep, hFailed, _⟩ := abandoning_fails
  exact ⟨loop, loop', hLoop, hStep, listed_of_writeFailed hLoop hPhase hStep hFailed⟩

/-- Not every event in which a write fails ends with the connection off the list. -/
theorem teardown_abandoning :
    ¬ ∀ inputs loop loop' c ev rest ans, (machine 7).run inputs = some loop →
      loop.phase = .batch (.conn c ev :: rest) → loop.step (.dispatch ans) = some loop' →
      .writeFailed c ∈ loop'.srv.trace.drop loop.srv.trace.length → c ∉ loop'.srv.conns := by
  obtain ⟨loop, loop', hLoop, hPhase, hStep, hFailed, hStays⟩ := abandoning_fails
  intro hClosed
  exact hClosed _ loop loop' 0 gone [] brokenPipe hLoop hPhase hStep hFailed hStays

end Epimone.Daemon
