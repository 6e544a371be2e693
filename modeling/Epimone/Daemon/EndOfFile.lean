import Epimone.Daemon.Children
import Epimone.Daemon.Groups
import Epimone.Daemon.ReplyCodec

/-! # What the end of a data channel says

A client that reads the end of its data channel asks LIST whether the shell has
exited. The channel is ended by the hangup of the PTY, and LIST reports what
waitpid has returned; the two are events of their own, and LIST can be asked
between them.
-/
set_option autoImplicit false

namespace Epimone.Daemon

open History

/-- The sessions the connection has been the data channel of. -/
def channelsOf (c : ConnPtr) (history : List Effect) : List SessPtr :=
  history.filterMap fun e =>
    match e with
    | .attached d s _ _ => if d = c then some s else none
    | _ => none

/-- The child of the session has been waited for, or a KILL has hidden the session. -/
def settledFor (history : List Effect) (s : SessPtr) : Bool :=
  history.any fun e =>
    match e with
    | .reaped t | .killed t _ => t == s
    | _ => false

/-- client_eof ends a data channel only once its session is settled. -/
def endedAfterReap (history : List Effect) : Effect → Bool
  | .eof c => (channelsOf c history).all (settledFor history)
  | _ => true

/-- A data channel of the session was ended by client_eof. -/
def EndedByEof (history : List Effect) (s : SessPtr) : Prop :=
  ∃ c before after, history = before ++ .eof c :: after ∧ s ∈ channelsOf c before

theorem settledFor_iff {history : List Effect} {s : SessPtr} :
    settledFor history s = true ↔ .reaped s ∈ history ∨ ∃ d, .killed s d ∈ history := by
  unfold settledFor
  rw [List.any_eq_true]
  constructor
  · rintro ⟨e, he, hSame⟩
    cases e with
    | reaped t =>
      obtain rfl := eq_of_beq hSame
      exact Or.inl he
    | killed t d =>
      obtain rfl := eq_of_beq hSame
      exact Or.inr ⟨d, he⟩
    | _ => cases hSame
  · rintro (hReaped | ⟨d, hKilled⟩)
    · exact ⟨_, hReaped, beq_self_eq_true s⟩
    · exact ⟨_, hKilled, beq_self_eq_true s⟩

theorem settledFor_of_ended {history : List Effect} {s : SessPtr}
    (hLaw : Lawful (fun before e => endedAfterReap before e = true) history)
    (h : EndedByEof history s) : settledFor history s = true := by
  obtain ⟨c, before, after, hSplit, hChannel⟩ := h
  have hEnds := hLaw before (.eof c) after hSplit
  have hSettled : settledFor before s = true := List.all_eq_true.mp hEnds s hChannel
  have hMem : ∀ e ∈ before, e ∈ history := fun e he => by
    rw [hSplit]
    exact List.mem_append_left _ he
  rw [settledFor_iff] at hSettled ⊢
  exact hSettled.imp (hMem _) fun ⟨d, hd⟩ => ⟨d, hMem _ hd⟩

/-- A session whose child was waited for or that was killed is dead, or off LIST. -/
theorem Reached.dead_of_settled {instanceId : Nat} {srv : Server} (h : Reached instanceId srv)
    {s : SessPtr} (hs : s ∈ listed srv) (hSettled : settledFor srv.trace s = true) :
    (srv.sess s).alive = false := by
  obtain ⟨hListed, hShown⟩ := mem_listed.mp hs
  rcases settledFor_iff.mp hSettled with hReaped | ⟨d, hKilled⟩
  · exact h.kin.dead hListed hReaped
  · have hHidden := (h.hides s d hKilled).2 hListed
    rw [hShown] at hHidden
    cases hHidden

/-- LIST reports alive = 0 for every session on it whose data channel was ended by client_eof. -/
def Server.EofTold (srv : Server) : Prop :=
  ∀ s ∈ listed srv, EndedByEof srv.trace s → (shownSession (srv.sess s)).alive = false

/-- Where client_eof runs only after the wait for the child, the end of file tells the truth. -/
theorem eofTold_of_reaped {instanceId : Nat} {srv : Server} (h : Reached instanceId srv)
    (hLaw : Lawful (fun before e => endedAfterReap before e = true) srv.trace) : srv.EofTold := by
  intro s hs hEnded
  exact h.dead_of_settled hs (settledFor_of_ended hLaw hEnded)

/-- The shell exits: the daemon waits for the child or not, and the PTY hangs up. Another client then
asks LIST. -/
def exiting (waits : List Input) : List Input :=
  attaching ++ accepting ++ waits ++ batchOf (.pty 0 hungUp) (.pty hangsUp) ⟨0⟩ ++
    batchOf (.conn 1 readable) (.conn (calmConn [] [4, 0, 0, 0, 2, 0, 0, 0] (by decide) 0 ⟨0⟩)) ⟨0⟩

def endedAt (loop : Loop) (n : Nat) : Bool :=
  let before := loop.srv.trace.take n
  decide (loop.srv.trace = before ++ .eof 0 :: .shutdown 0 :: loop.srv.trace.drop (n + 2)) &&
    (channelsOf 0 before).contains 0

theorem endedByEof_of_endedAt {loop : Loop} {n : Nat} (h : endedAt loop n = true) :
    EndedByEof loop.srv.trace 0 := by
  simp only [endedAt, Bool.and_eq_true, decide_eq_true_eq, List.contains_iff_mem] at h
  exact ⟨0, _, _, h.1, h.2⟩

def toldAlive (loop : Loop) : Bool :=
  endedAt loop 12 && (listed loop.srv).contains 0 && (loop.srv.sess 0).alive &&
    decide ((loop.srv.conn 1).unsent = frameBytes EpiMsgType.listReply.code (listBody loop.srv))

/-- The second client is told that the session is alive, after its client was told the end. -/
theorem eofTold_exiting :
    ∃ loop, (machine 7).run (exiting []) = some loop ∧
      (loop.srv.conn 1).unsent = frameBytes EpiMsgType.listReply.code (listBody loop.srv) ∧
      ¬ loop.srv.EofTold := by
  have hRun : ((machine 7).run (exiting [])).any toldAlive := by decide +kernel
  obtain ⟨loop, hLoop, hTold⟩ := (machine 7).exists_of_run_any hRun
  simp only [toldAlive, Bool.and_eq_true, List.contains_iff_mem, decide_eq_true_eq] at hTold
  obtain ⟨⟨⟨hEnded, hListed⟩, hAlive⟩, hReply⟩ := hTold
  refine ⟨loop, hLoop, hReply, fun hSaid => ?_⟩
  have hDead : (loop.srv.sess 0).alive = false := hSaid 0 hListed (endedByEof_of_endedAt hEnded)
  rw [hAlive] at hDead
  cases hDead

theorem eofTold_of_reaped_exiting :
    ∃ loop, (machine 7).run (exiting waitedFor) = some loop ∧ EndedByEof loop.srv.trace 0 ∧
      0 ∈ listed loop.srv ∧ loop.srv.EofTold := by
  have hRun : ((machine 7).run (exiting waitedFor)).any fun loop =>
      endedAt loop 13 && (listed loop.srv).contains 0 &&
        decide (Lawful (fun before e => endedAfterReap before e = true) loop.srv.trace) := by
    decide +kernel
  obtain ⟨loop, hLoop, hEnds⟩ := (machine 7).exists_of_run_any hRun
  simp only [Bool.and_eq_true, List.contains_iff_mem, decide_eq_true_eq] at hEnds
  obtain ⟨⟨hEnded, hListed⟩, hLaw⟩ := hEnds
  exact ⟨loop, hLoop, endedByEof_of_endedAt hEnded, hListed,
    eofTold_of_reaped (reached_of_run hLoop) hLaw⟩

end Epimone.Daemon
