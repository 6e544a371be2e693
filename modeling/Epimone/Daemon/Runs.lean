import Epimone.Daemon.Framing

/-! # Runs of the daemon

The remaining handlers as sequences of actions, and the invariant of the event
loop: the links are consistent, every event still to be dispatched names a
connection or a session that has not been freed, and no session waits to be
freed at the head of the loop. What every action keeps holds in every state
that a run reaches.
-/
set_option autoImplicit false

namespace Epimone.Daemon

open Transition

section Output

variable {srv : Server} {c : ConnPtr} {s : SessPtr} {allowed : Act → Prop}

theorem path_connFlush (hFlushes : ∀ a : Act, a.flushes c = true → allowed a) (hc : c ∈ srv.conns)
    (outcomes : List WriteOutcome) : actions.Path allowed srv (connFlush srv c outcomes) := by
  have hReset : ∀ {t : Server}, c ∈ t.conns → actions.Path allowed t (resetIfDrained t c) := fun ht =>
    perform_path (.reset c) ht (hFlushes _ (beq_self_eq_true c))
  induction outcomes generalizing srv with
  | nil => exact hReset hc
  | cons outcome outcomes ih =>
    unfold connFlush
    split
    · rename_i hPending
      have hFails : actions.Path allowed srv (writeFails srv c) :=
        perform_path (.failWrite c) ⟨hc, hPending⟩ (hFlushes _ (beq_self_eq_true c))
      cases outcome with
      | wrote n =>
        cases n with
        | zero => exact hFails
        | succ n =>
          have hWrite : actions.Path allowed srv (writeSome srv c (n + 1)) :=
            perform_path (.write c (n + 1)) ⟨hc, hPending, Nat.succ_pos n⟩
              (hFlushes _ (beq_self_eq_true c))
          exact hWrite.trans (ih hc)
      | again => exact hReset hc
      | intr => exact ih hc
      | failed => exact hFails
    · exact hReset hc

theorem links_of_quiet {srv' : Server} (hQuiet : ∀ a : Act, allowed a → ∀ l, a.relink l = l)
    (h : actions.Path allowed srv srv') : srv'.links = srv.links := by
  refine Actions.Path.related (R := fun t u => u.links = t.links) (fun _ => rfl) ?_ ?_ h
  · intro t u v hFirst hSecond
    exact hSecond.trans hFirst
  · intro t a hGuard hAllowed
    exact (links_perform hGuard).trans (hQuiet a hAllowed t.links)

theorem outputs_quiet {client : Option ConnPtr} {a : Act} (h : a.outputs s client = true)
    (l : Links) : a.relink l = l := by
  cases a <;> first | rfl | cases h

abbrev Output (s : SessPtr) (client : Option ConnPtr) (srv srv' : Server) : Prop :=
  actions.Path (fun a => a.outputs s client = true) srv srv'

theorem Output.links {client : Option ConnPtr} {srv' : Server} (h : Output s client srv srv') :
    srv'.links = srv.links :=
  links_of_quiet (fun _ hOut l => outputs_quiet hOut l) h

theorem relayOutput_eq (chunk : Chunk) (read : PtyRead) :
    relayOutput (noteRead srv s chunk) s chunk read =
      match (srv.sess s).client with
      | none => readOutput srv s chunk read.ringAlloc
      | some c => enqueue (readOutput srv s chunk read.ringAlloc) c chunk.bytes true read.queueAlloc := rfl

theorem output_ptyOutput (h : srv.links.Consistent) (hOpen : (srv.sess s).ptyOpen = true)
    {chunk : Chunk} (hData : chunk.bytes ≠ []) (read : PtyRead) :
    Output s (srv.sess s).client srv (ptyOutput (noteRead srv s chunk) s chunk read) := by
  have hHere : (noteRead srv s chunk).sess s = srv.sess s := rfl
  unfold ptyOutput
  dsimp only
  rw [hHere]
  cases hClient : (srv.sess s).client with
  | none =>
    rw [relayOutput_eq, hClient]
    exact perform_path (.read s chunk read.ringAlloc) ⟨hOpen, hClient⟩ (by simp [Act.outputs])
  | some c =>
    have hc : c ∈ srv.conns := (h.bound_conn c s ((h.paired c s).mpr hClient)).1
    have hRelay : Output s (some c) srv (relayOutput (noteRead srv s chunk) s chunk read) := by
      rw [relayOutput_eq, hClient]
      exact perform_path (.relay s c chunk read.ringAlloc read.queueAlloc) ⟨hOpen, hClient, hData⟩
        (by simp [Act.outputs])
    have hListed : ∀ {t : Server}, Output s (some c) srv t → c ∈ t.conns := fun {t} ht => by
      have hConns : t.conns = srv.conns := congrArg Links.conns ht.links
      rw [hConns]
      exact hc
    have hFlush := hRelay.trans (path_connFlush (fun a hFlush => by
      cases a <;> first | cases hFlush | simp_all [Act.flushes, Act.outputs]) (hListed hRelay)
      read.writes)
    have hUpdate := path_perform hFlush (.update c) (hListed hFlush) (by simp [Act.outputs])
    exact path_perform hUpdate (.relayed c) (hListed hUpdate) (by simp [Act.outputs])

abbrev OfPty (s : SessPtr) (client : Option ConnPtr) (srv srv' : Server) : Prop :=
  actions.Path (fun a => a.ofPty s client = true) srv srv'

/-- The actions of an event of a PTY once the waiting input is written. -/
def Act.hears (s : SessPtr) (client : Option ConnPtr) (a : Act) : Bool :=
  a.outputs s client ||
    match a with
    | .ptyHangup t | .closePty t | .unlink t => t == s
    | .unbind t c | .eof t c => t == s && client == some c
    | .shutdown c => client == some c
    | _ => false

theorem ofPty_of_hears {client : Option ConnPtr} {a : Act} (h : a.hears s client = true) :
    a.ofPty s client = true := by
  unfold Act.hears at h
  unfold Act.ofPty
  rw [Bool.or_assoc]
  exact (Bool.or_eq_true _ _).mpr (Or.inr h)

abbrev Heard (s : SessPtr) (client : Option ConnPtr) (srv srv' : Server) : Prop :=
  actions.Path (fun a => a.hears s client = true) srv srv'

theorem heard_closeAfterDrain (h : srv.links.Consistent) {client : Option ConnPtr}
    (hClient : (srv.sess s).client = some c) (hSame : client = some c)
    (hClosed : (srv.sess s).ptyOpen = false) : Heard s client srv (closeAfterDrain srv c) := by
  subst hSame
  have hc : c ∈ srv.conns := (h.bound_conn c s ((h.paired c s).mpr hClient)).1
  unfold closeAfterDrain
  have hEof : Heard s (some c) srv (condemn (srv.emit (.eof c)) c) :=
    perform_path (.eof s c) ⟨hClient, hClosed⟩ (by simp [Act.hears])
  dsimp only
  split
  · rename_i hDrained
    have hShutdown : Heard s (some c) srv ((condemn (srv.emit (.eof c)) c).emit (.shutdown c)) := by
      refine path_perform hEof (.shutdown c) ⟨hc, hDrained, ?_⟩ (by simp [Act.hears])
      simp [condemn, Server.modConn]
    exact path_perform hShutdown (.update c) hc (by simp [Act.hears, Act.outputs])
  · exact path_perform hEof (.update c) hc (by simp [Act.hears, Act.outputs])

theorem hears_of_outputs {client : Option ConnPtr} {a : Act} (h : a.outputs s client = true) :
    a.hears s client = true := by
  simp [Act.hears, h]

theorem heard_ptyHangup (h : srv.links.Consistent) (hOpen : (srv.sess s).ptyOpen = true)
    (eofWrites : List WriteOutcome) :
    Heard s (srv.sess s).client srv (ptyHangup srv s eofWrites) := by
  have hs : s ∈ srv.sessions := h.open_listed s hOpen
  generalize hClient : (srv.sess s).client = client
  have hNoted : Heard s client srv (srv.emit (.ptyHangup s)) :=
    perform_path (.ptyHangup s) hOpen (by simp [Act.hears])
  unfold ptyHangup
  dsimp only
  generalize hClosed : closePty (srv.emit (.ptyHangup s)) s = closed
  have hPath : Heard s client srv closed := by
    rw [← hClosed]
    exact path_perform hNoted (.closePty s) hOpen (by simp [Act.hears])
  have hSess : (closed.sess s).client = client ∧ (closed.sess s).ptyOpen = false ∧
      closed.sessions = srv.sessions ∧ closed.conns = srv.conns := by
    rw [← hClosed, ← hClient]
    simp [closePty, Server.modSess, Server.emit]
  obtain ⟨hSame, hShut, hSessions, hConns⟩ := hSess
  split
  · have hLeave : closed.MayLeave s :=
      Or.inr (Or.inr ⟨srv.trace, [.ptyClosed s], by rw [← hClosed]; simp [closePty, Server.modSess,
        Server.emit], by simp⟩)
    refine hPath.trans (path_removeSession (by rw [hSessions]; exact hs) ?_ ?_ ?_ hLeave)
    · intro d hd
      have hClientd : client = some d := hSame.symm.trans hd
      simp [Act.hears, hClientd]
    · simp [Act.hears]
    · simp [Act.hears]
  · unfold clientEof
    split
    · exact hPath
    · rename_i d hd
      have hClientd : client = some d := hSame.symm.trans hd
      have hListed : d ∈ closed.conns := by
        rw [hConns]
        exact (h.bound_conn d s ((h.paired d s).mpr (hClient.trans hClientd))).1
      have hFlush : Output s client closed (connFlush closed d eofWrites) :=
        path_connFlush (fun a hFlush => by
          cases a <;> first | cases hFlush | simp_all [Act.flushes, Act.outputs]) hListed eofWrites
      have hLinks := hFlush.links
      have hAll := hPath.trans (hFlush.mono fun _ => hears_of_outputs)
      refine hAll.trans (heard_closeAfterDrain (Actions.consistent hAll h) ?_ hClientd ?_)
      · exact (congrFun (congrArg Links.client hLinks) s).trans hd
      · exact (congrFun (congrArg Links.ptyOpen hLinks) s).trans hShut

theorem heard_ptyReadLoop (h : srv.links.Consistent) (hOpen : (srv.sess s).ptyOpen = true)
    (eofWrites : List WriteOutcome) (reads : List PtyRead) :
    Heard s (srv.sess s).client srv (ptyReadLoop s eofWrites reads srv) := by
  induction reads generalizing srv with
  | nil => exact .refl _
  | cons read reads ih =>
    unfold ptyReadLoop
    split
    · rename_i chunk _
      split
      · exact heard_ptyHangup h hOpen eofWrites
      · rename_i hData
        have hOutput := output_ptyOutput h hOpen hData read
        have hLinks := hOutput.links
        have hClient : ((ptyOutput (noteRead srv s chunk) s chunk read).sess s).client = (srv.sess s).client :=
          congrFun (congrArg Links.client hLinks) s
        have hRest := ih (by rw [hLinks]; exact h)
          ((congrFun (congrArg Links.ptyOpen hLinks) s).trans hOpen)
        rw [hClient] at hRest
        exact (hOutput.mono fun _ => hears_of_outputs).trans hRest
    · exact .refl _
    · exact ih h hOpen
    · exact heard_ptyHangup h hOpen eofWrites

theorem ofPty_ptyHangup (h : srv.links.Consistent) (hOpen : (srv.sess s).ptyOpen = true)
    (eofWrites : List WriteOutcome) :
    OfPty s (srv.sess s).client srv (ptyHangup srv s eofWrites) :=
  (heard_ptyHangup h hOpen eofWrites).mono fun _ => ofPty_of_hears

theorem ofPty_ptyReadLoop (h : srv.links.Consistent) (hOpen : (srv.sess s).ptyOpen = true)
    (eofWrites : List WriteOutcome) (reads : List PtyRead) :
    OfPty s (srv.sess s).client srv (ptyReadLoop s eofWrites reads srv) :=
  (heard_ptyReadLoop h hOpen eofWrites reads).mono fun _ => ofPty_of_hears

theorem links_of_feeds {srv' : Server} (h : actions.Path (fun a => a.feeds = true) srv srv') :
    srv'.links = srv.links :=
  links_of_quiet (fun a ha l => by cases a <;> first | rfl | cases ha) h

/-- The first half of an event of a PTY. -/
def flushPty (srv : Server) (s : SessPtr) (ev : Events) (ans : PtyAnswers) : Server :=
  if ev.pollout then
    let srv := epiSessionFlushInput srv s ans.inputWrites
    if (srv.sess s).ptyOpen then ptyUpdate srv s else srv
  else srv

theorem dispatchPty_eq (srv : Server) (s : SessPtr) (ev : Events) (ans : PtyAnswers) :
    dispatchPty srv s ev ans =
      if (srv.sess s).defunct then srv
      else if ev.pollin || ev.hup || ev.pollerr then ptyReadable (flushPty srv s ev ans) s ans
      else flushPty srv s ev ans := rfl

theorem path_flushPty (ev : Events) (ans : PtyAnswers) :
    actions.Path (fun a => a.feeds = true) srv (flushPty srv s ev ans) := by
  unfold flushPty
  have hFlush : actions.Path (fun a => a.feeds = true) srv (epiSessionFlushInput srv s ans.inputWrites) :=
    path_epiSessionFlushInput (fun _ ha => ha) s ans.inputWrites
  split
  · dsimp only
    split
    · exact hFlush.trans (path_ptyUpdate (fun _ ha => ha) s)
    · exact hFlush
  · exact .refl _

/-- An event of a PTY first writes the waiting input, and then reads if the PTY is still open. -/
theorem dispatchPty_fed (srv : Server) (s : SessPtr) (ev : Events) (ans : PtyAnswers) :
    ∃ fed, actions.Path (fun a => a.feeds = true) srv fed ∧
      (dispatchPty srv s ev ans = fed ∨ (fed.sess s).ptyOpen = true ∧
        dispatchPty srv s ev ans = ptyReadLoop s ans.eofWrites ans.reads fed) := by
  rw [dispatchPty_eq]
  split
  · exact ⟨srv, .refl _, Or.inl rfl⟩
  refine ⟨flushPty srv s ev ans, path_flushPty ev ans, ?_⟩
  split
  · unfold ptyReadable
    split
    · exact Or.inl rfl
    · rename_i hReadable
      exact Or.inr ⟨by simp_all, rfl⟩
  · exact Or.inl rfl

theorem ofPty_dispatchPty (h : srv.links.Consistent) (ev : Events) (ans : PtyAnswers) :
    OfPty s (srv.sess s).client srv (dispatchPty srv s ev ans) := by
  obtain ⟨fed, hFed, hDispatch⟩ := dispatchPty_fed srv s ev ans
  have hLinks := links_of_feeds hFed
  have hStart : OfPty s (srv.sess s).client srv fed := hFed.mono fun a ha => by simp [Act.ofPty, ha]
  rcases hDispatch with hSame | ⟨hOpen, hLoop⟩
  · rw [hSame]
    exact hStart
  · have hClient : (fed.sess s).client = (srv.sess s).client :=
      congrFun (congrArg Links.client hLinks) s
    have hReads := ofPty_ptyReadLoop (by rw [hLinks]; exact h) hOpen ans.eofWrites ans.reads
    rw [hClient] at hReads
    rw [hLoop]
    exact hStart.trans hReads

end Output

section Others

variable {srv : Server}

abbrev OfSignal (srv srv' : Server) : Prop := actions.Path (fun a => a.ofSignal = true) srv srv'

theorem ofSignal_reapChild (pid status : Nat) : OfSignal srv (reapChild srv pid status) := by
  unfold reapChild
  cases hChild : srv.childOf pid with
  | none => exact .refl _
  | some child =>
    have hReap : OfSignal srv (markReaped srv pid status child) :=
      perform_path (.reap pid status child) hChild rfl
    unfold markReaped at hReap
    dsimp only at hReap ⊢
    generalize hWaited : ({ srv with children := srv.children.filter fun e => e.1 != pid } : Server).emit
      (.reaped child) = waited at hReap ⊢
    cases hFind : waited.sessions.find? fun s => (waited.sess s).pid == pid with
    | none =>
      simp only [hFind] at hReap
      exact hReap
    | some s =>
      simp only [hFind] at hReap
      dsimp only
      split
      · refine hReap.trans (path_removeSession (List.mem_of_find?_eq_some hFind) (fun _ _ => rfl) rfl
          rfl (Or.inl ?_))
        simp [Server.modSess]
      · exact hReap

theorem ofSignal_reapChildren (waits : List (Nat × Nat)) : OfSignal srv (reapChildren waits srv) := by
  induction waits generalizing srv with
  | nil => exact .refl _
  | cons wait waits ih => exact (ofSignal_reapChild wait.1 wait.2).trans ih

theorem ofSignal_handleSignalfd (reads : List SignalRead) : OfSignal srv (handleSignalfd srv reads) := by
  induction reads generalizing srv with
  | nil => exact .refl _
  | cons read reads ih =>
    cases read with
    | chld waits => exact (ofSignal_reapChildren waits).trans ih
    | term => exact perform_path .stop trivial rfl
    | other => exact ih

/-- The actions of accept_conn touch only connections it makes. -/
def Act.accepts (next : ConnPtr) : Act → Prop
  | .openConn => True
  | .watchConn c | .close c => next ≤ c
  | _ => False

abbrev OfAccept (next : ConnPtr) (srv srv' : Server) : Prop := actions.Path (Act.accepts next) srv srv'

theorem ofAccept_acceptConn (outcomes : List AcceptOutcome) {next : ConnPtr}
    (hNext : next ≤ srv.nextConn) : OfAccept next srv (acceptConn srv outcomes) := by
  induction outcomes generalizing srv with
  | nil => exact .refl _
  | cons outcome outcomes ih =>
    cases outcome with
    | accepted alloc added =>
      cases alloc with
      | false => exact ih hNext
      | true =>
        have hOpen : OfAccept next srv (openConn srv) := perform_path .openConn trivial trivial
        have hListed : srv.nextConn ∈ (openConn srv).conns := List.mem_cons_self
        have hFresh : (openConn srv).conn srv.nextConn = .blank := by
          simp [openConn, Server.modConn, Server.modIn]
        unfold acceptConn
        dsimp only
        split
        · have hWatch : OfAccept next srv (watchConn (openConn srv) srv.nextConn) :=
            path_perform hOpen (.watchConn srv.nextConn) ⟨hListed, by rw [hFresh]; rfl⟩ hNext
          exact hWatch.trans (ih (Nat.le_succ_of_le hNext))
        · have hClose : OfAccept next srv (connClose (openConn srv) srv.nextConn) :=
            path_perform hOpen (.close srv.nextConn) ⟨hListed, by rw [hFresh]; rfl⟩ hNext
          refine hClose.trans (ih ?_)
          rw [connClose_eq]
          exact Nat.le_succ_of_le hNext
    | intr => exact ih hNext
    | failed => exact .refl _

abbrev OfFinish (srv srv' : Server) : Prop := actions.Path (fun a => a.ofFinish = true) srv srv'

theorem reapDead_sess (dead : List SessPtr) (t : SessPtr) :
    (reapDead dead srv).sess t = if t ∈ dead then .blank else srv.sess t := by
  induction dead generalizing srv with
  | nil => simp [reapDead]
  | cons s rest ih =>
    rw [reapDead, ih]
    rcases eq_or_ne t s with rfl | hNe
    · simp [freeSession, Server.modSess, Server.emit]
    · simp [freeSession, Server.modSess, Server.emit, hNe]

theorem ofFinish_reapDead (dead : List SessPtr) (hDead : srv.dead = dead) :
    OfFinish srv (reapDead dead srv) ∧ (reapDead dead srv).dead = [] ∧
      (reapDead dead srv).sessions = srv.sessions := by
  induction dead generalizing srv with
  | nil => exact ⟨.refl _, hDead, rfl⟩
  | cons s rest ih =>
    have hFree : OfFinish srv (freeSession { srv with dead := rest } s) :=
      perform_path (.free s rest) hDead rfl
    obtain ⟨hRest, hNone, hSame⟩ := @ih (freeSession { srv with dead := rest } s) rfl
    exact ⟨hFree.trans hRest, hNone, hSame⟩

theorem escalate_sessions (srv : Server) (s : SessPtr) (now : Timespec) :
    (escalate srv s now).sessions = srv.sessions ∧ (escalate srv s now).dead = srv.dead := by
  unfold escalate
  dsimp only
  split
  · rw [epiSessionKill_eq]; exact ⟨rfl, rfl⟩
  · exact ⟨rfl, rfl⟩

theorem ofFinish_escalateAll (clock : SessPtr → Timespec) (l : List SessPtr)
    (hListed : ∀ s ∈ l, s ∈ srv.sessions) :
    OfFinish srv (escalateAll clock l srv) ∧ (escalateAll clock l srv).dead = srv.dead := by
  induction l generalizing srv with
  | nil => exact ⟨.refl _, rfl⟩
  | cons s rest ih =>
    obtain ⟨hSessions, hDead⟩ := escalate_sessions srv s (clock s)
    have hRest := @ih (escalate srv s (clock s)) fun t ht => by
      rw [hSessions]
      exact hListed t (List.mem_cons_of_mem _ ht)
    have hFirst : OfFinish srv (escalate srv s (clock s)) := by
      unfold escalate
      dsimp only
      split
      · rename_i hDue
        simp only [Bool.and_eq_true] at hDue
        exact perform_path (.escalate s) ⟨hListed s List.mem_cons_self, hDue.1.1, hDue.1.2⟩ rfl
      · exact .refl _
    exact ⟨hFirst.trans hRest.1, hRest.2.trans hDead⟩

theorem ofFinish_finishBatch (now : Timespec) (early : SessPtr → Nat) :
    OfFinish srv (finishBatch srv now early) ∧ (finishBatch srv now early).dead = [] := by
  obtain ⟨hReap, hNone, _⟩ := @ofFinish_reapDead srv srv.dead rfl
  obtain ⟨hEscalate, hSame⟩ := @ofFinish_escalateAll (reapDeadSessions srv)
    (readings now early) (reapDeadSessions srv).sessions fun _ hs => hs
  exact ⟨hReap.trans hEscalate, hSame.trans hNone⟩

end Others

section Connections

variable {srv : Server} {c : ConnPtr}

/-- The actions of an event of a connection. -/
def Act.ofConn (c : ConnPtr) (a : Act) : Bool :=
  a.flushes c || a.inbound c ||
    match a with
    | .update d | .close d => d == c
    | _ => false

abbrev OfConn (c : ConnPtr) (srv srv' : Server) : Prop :=
  actions.Path (fun a => a.ofConn c = true) srv srv'

theorem path_settleConn {allowed : Act → Prop} (hUpdate : allowed (.update c)) (hClose : allowed (.close c))
    (hc : c ∈ srv.conns) : actions.Path allowed srv (settleConn srv c) := by
  unfold settleConn
  dsimp only
  generalize hUpdated : (if (!(srv.conn c).wantClose) = true then connUpdate srv c else srv) = updated
  have hPath : actions.Path allowed srv updated ∧ c ∈ updated.conns := by
    rw [← hUpdated]
    split
    · exact ⟨perform_path (.update c) hc hUpdate, hc⟩
    · exact ⟨.refl _, hc⟩
  split
  · rename_i hDone
    simp only [Bool.and_eq_true, decide_eq_true_eq] at hDone
    exact path_perform hPath.1 (.close c) ⟨hPath.2, hDone.2.symm⟩ hClose
  · exact hPath.1

theorem ofConn_settleConn (hc : c ∈ srv.conns) : OfConn c srv (settleConn srv c) :=
  path_settleConn (by simp [Act.ofConn]) (by simp [Act.ofConn]) hc

/-- The event of a connection up to the point where the run loop looks at want_close. -/
def serveConn (srv : Server) (c : ConnPtr) (ev : Events) (ans : ConnAnswers) : Server :=
  let srv := if ev.pollout then connFlush srv c ans.writes else srv
  if ev.pollin || ev.rdhup || ev.hup || ev.pollerr then connRead srv c ans else srv

theorem dispatchConn_eq (srv : Server) (c : ConnPtr) (ev : Events) (ans : ConnAnswers) :
    dispatchConn srv c ev ans = settleConn (serveConn srv c ev ans) c := rfl

/-- The first half of an event of a connection. -/
def flushReady (srv : Server) (c : ConnPtr) (ev : Events) (ans : ConnAnswers) : Server :=
  if ev.pollout then connFlush srv c ans.writes else srv

theorem serveConn_eq (srv : Server) (c : ConnPtr) (ev : Events) (ans : ConnAnswers) :
    serveConn srv c ev ans =
      if ev.pollin || ev.rdhup || ev.hup || ev.pollerr then connRead (flushReady srv c ev ans) c ans
      else flushReady srv c ev ans := rfl

theorem path_flushReady (hc : c ∈ srv.conns) (ev : Events) (ans : ConnAnswers) :
    actions.Path (fun a => a.flushes c = true) srv (flushReady srv c ev ans) := by
  unfold flushReady
  split
  · exact path_connFlush (fun _ ha => ha) hc ans.writes
  · exact .refl _

theorem flushReady_links (hc : c ∈ srv.conns) (ev : Events) (ans : ConnAnswers) :
    (flushReady srv c ev ans).links = srv.links := by
  refine links_of_quiet (fun a ha l => ?_) (path_flushReady hc ev ans)
  cases a <;> first | rfl | cases ha

theorem inbound_serveConn (h : srv.links.Consistent) (hc : c ∈ srv.conns) (ev : Events)
    (ans : ConnAnswers) : Inbound c (flushReady srv c ev ans) (serveConn srv c ev ans) := by
  have hLinks := flushReady_links hc ev ans
  have hConns : (flushReady srv c ev ans).conns = srv.conns := congrArg Links.conns hLinks
  rw [serveConn_eq]
  split
  · exact inbound_connRead (by rw [hLinks]; exact h) (by rw [hConns]; exact hc) ans
  · exact .refl _

theorem ofConn_serveConn (h : srv.links.Consistent) (hc : c ∈ srv.conns) (ev : Events)
    (ans : ConnAnswers) :
    OfConn c srv (serveConn srv c ev ans) ∧ (serveConn srv c ev ans).conns = srv.conns := by
  have hFlush := path_flushReady hc ev ans
  have hLinks := flushReady_links hc ev ans
  have hRead := inbound_serveConn h hc ev ans
  refine ⟨(hFlush.mono ?_).trans (hRead.mono ?_), ?_⟩
  · intro a ha
    simp [Act.ofConn, ha]
  · intro a ha
    simp [Act.ofConn, ha]
  · exact (Inbound.conns hRead).trans (congrArg Links.conns hLinks)

theorem ofConn_dispatchConn (h : srv.links.Consistent) (hc : c ∈ srv.conns) (ev : Events)
    (ans : ConnAnswers) : OfConn c srv (dispatchConn srv c ev ans) := by
  obtain ⟨hServe, hConns⟩ := ofConn_serveConn h hc ev ans
  exact hServe.trans (ofConn_settleConn (by rw [hConns]; exact hc))

end Connections

section Loop

def Ready.Allocated (srv : Server) : Ready → Prop
  | .conn c _ => c ∈ srv.conns
  | .pty s _ => s ∈ srv.sessions ∨ s ∈ srv.dead
  | _ => True

def Loop.pending (loop : Loop) : List Ready :=
  match loop.phase with
  | .batch events => events
  | _ => []

/-- The invariant of the event loop. -/
structure Loop.Sound (loop : Loop) : Prop where
  consistent : loop.srv.links.Consistent
  allocated : ∀ ready ∈ loop.pending, ready.Allocated loop.srv
  distinct : distinctSources loop.pending = true
  swept : ∀ now, loop.phase = .head now → loop.srv.dead = []

variable {srv srv' : Server} {allowed : Act → Prop}

def Act.frees : Act → Bool
  | .free .. => true
  | _ => false

theorem conn_persists {d : ConnPtr} (hKeep : ∀ a, allowed a → a ≠ .close d)
    (h : actions.Path allowed srv srv') (hd : d ∈ srv.conns) : d ∈ srv'.conns := by
  refine Actions.Path.invariant (P := fun t => d ∈ t.conns) ?_ h hd
  intro t a ht hGuard hAllowed
  have hConns : (a.perform t).conns = (a.relink t.links).conns :=
    congrArg Links.conns (links_perform hGuard)
  change d ∈ (a.perform t).conns
  rw [hConns]
  cases a with
  | openConn => exact List.mem_cons_of_mem _ ht
  | close c =>
    have hNe : d ≠ c := fun hSame => hKeep _ hAllowed (by rw [hSame])
    exact (List.mem_erase_of_ne hNe).mpr ht
  | _ => exact ht

theorem session_persists {s : SessPtr} (hKeep : ∀ a, allowed a → a.frees = false)
    (h : actions.Path allowed srv srv') (hs : s ∈ srv.sessions ∨ s ∈ srv.dead) :
    s ∈ srv'.sessions ∨ s ∈ srv'.dead := by
  refine Actions.Path.invariant (P := fun t => s ∈ t.sessions ∨ s ∈ t.dead) ?_ h hs
  intro t a ht hGuard hAllowed
  have hLinks := links_perform hGuard
  have hSessions : (a.perform t).sessions = (a.relink t.links).sessions :=
    congrArg Links.sessions hLinks
  have hDead : (a.perform t).dead = (a.relink t.links).dead := congrArg Links.dead hLinks
  change s ∈ (a.perform t).sessions ∨ s ∈ (a.perform t).dead
  rw [hSessions, hDead]
  cases a with
  | create => exact ht.imp (List.mem_cons_of_mem _) id
  | unlink u =>
    by_cases hSame : s = u
    · exact Or.inr (List.mem_cons.mpr (Or.inl hSame))
    · exact ht.imp (List.mem_erase_of_ne hSame).mpr (List.mem_cons_of_mem _)
  | free u rest => cases hKeep _ hAllowed
  | _ => exact ht

theorem distinctSources_cons {ready : Ready} {rest : List Ready}
    (h : distinctSources (ready :: rest) = true) :
    (∀ other ∈ rest, ready.sameSource other = false) ∧ distinctSources rest = true := by
  simpa [distinctSources] using h

/-- One dispatched event: a sequence of actions that closes no other connection and frees nothing. -/
structure Dispatched (ready : Ready) (srv srv' : Server) : Prop where
  path : ∃ allowed : Act → Prop, actions.Path allowed srv srv' ∧ ∀ a, allowed a → a.frees = false
  keeps : ∀ other : Ready, ready.sameSource other = false → other.Allocated srv → other.Allocated srv'

theorem Dispatched.of_path {ready : Ready} (h : actions.Path allowed srv srv')
    (hFrees : ∀ a, allowed a → a.frees = false)
    (hCloses : ∀ c ev, ready.sameSource (.conn c ev) = false → c ∈ srv.conns →
      ∀ a, allowed a → a ≠ .close c) : Dispatched ready srv srv' := by
  refine ⟨⟨allowed, h, hFrees⟩, ?_⟩
  intro other hOther hAllocated
  cases other with
  | listen => trivial
  | signal => trivial
  | pty s ev => exact session_persists hFrees h hAllocated
  | conn c ev => exact conn_persists (hCloses c ev hOther hAllocated) h hAllocated

theorem inbound_harmless {c d : ConnPtr} {a : Act} (h : a.inbound c = true) :
    a.frees = false ∧ a ≠ .close d := by
  cases a <;> first | exact ⟨rfl, Act.noConfusion⟩ |
    simp [Act.inbound, Act.backstage, Act.answers, Act.feeds] at h

theorem ofConn_harmless {c d : ConnPtr} {a : Act} (h : a.ofConn c = true) (hNe : d ≠ c) :
    a.frees = false ∧ a ≠ .close d := by
  cases a with
  | close e =>
    have hSame : e = c := by
      simpa [Act.ofConn, Act.flushes, Act.inbound, Act.backstage, Act.answers, Act.feeds] using h
    refine ⟨rfl, ?_⟩
    rw [hSame]
    intro hClose
    cases hClose
    exact hNe rfl
  | free => simp [Act.ofConn, Act.flushes, Act.inbound, Act.backstage, Act.answers, Act.feeds] at h
  | _ => exact ⟨rfl, Act.noConfusion⟩

theorem ofPty_harmless {s : SessPtr} {client : Option ConnPtr} {d : ConnPtr} {a : Act}
    (h : a.ofPty s client = true) : a.frees = false ∧ a ≠ .close d := by
  cases a <;> first | exact ⟨rfl, Act.noConfusion⟩ |
    simp [Act.ofPty, Act.outputs, Act.feeds] at h

theorem ofSignal_harmless {d : ConnPtr} {a : Act} (h : a.ofSignal = true) :
    a.frees = false ∧ a ≠ .close d := by
  cases a <;> first | exact ⟨rfl, Act.noConfusion⟩ | cases h

theorem dispatchReady_dispatched (h : srv.links.Consistent) {ready : Ready} {ans : Answers}
    (hReady : ready.Allocated srv) (hStep : dispatchReady srv ready ans = some srv') :
    Dispatched ready srv srv' := by
  cases ready with
  | listen =>
    cases ans <;> cases hStep
    rename_i outcomes
    have hPath := @ofAccept_acceptConn srv outcomes _ (Nat.le_refl srv.nextConn)
    refine .of_path hPath ?_ ?_
    · intro a ha
      cases a <;> first | rfl | cases ha
    · rintro c ev - hc a ha rfl
      exact absurd (h.conns_lt c hc) (Nat.not_lt.mpr ha)
  | signal =>
    cases ans <;> cases hStep
    rename_i reads
    exact .of_path (ofSignal_handleSignalfd reads) (fun a ha => (ofSignal_harmless (d := 0) ha).1)
      fun c ev _ _ a ha => (ofSignal_harmless ha).2
  | pty s ev =>
    cases ans <;> cases hStep
    rename_i ans
    exact .of_path (ofPty_dispatchPty h ev ans) (fun a ha => (ofPty_harmless (d := 0) ha).1)
      fun c ev _ _ a ha => (ofPty_harmless ha).2
  | conn c ev =>
    cases ans <;> cases hStep
    rename_i ans
    refine .of_path (ofConn_dispatchConn h hReady ev ans) ?_ ?_
    · intro a ha
      exact (ofConn_harmless ha (Nat.succ_ne_self c)).1
    · intro d ev hOther _ a ha
      refine (ofConn_harmless ha ?_).2
      rintro rfl
      simp [Ready.sameSource] at hOther

theorem dispatchReady_path (h : srv.links.Consistent) {ready : Ready} {ans : Answers}
    (hReady : ready.Allocated srv) (hStep : dispatchReady srv ready ans = some srv') :
    actions.Path (fun a => a.frees = false) srv srv' := by
  obtain ⟨allowed, hPath, hFrees⟩ := (dispatchReady_dispatched h hReady hStep).path
  exact hPath.mono hFrees

/-- What a step of the loop does to the server: nothing, one event of the batch, or its end. -/
theorem step_cases {loop loop' : Loop} {input : Input} (h : loop.Sound)
    (hStep : loop.step input = some loop') :
    loop'.srv = loop.srv ∨
      (∃ ready ans, ready.Allocated loop.srv ∧ dispatchReady loop.srv ready ans = some loop'.srv) ∨
      ∃ now early, loop'.srv = finishBatch loop.srv now early := by
  obtain ⟨srv, phase⟩ := loop
  cases input with
  | wait clock batch =>
    cases phase <;> simp only [Loop.step, reduceCtorEq] at hStep
    split at hStep <;> cases hStep
    exact Or.inl rfl
  | interrupted now => cases phase <;> cases hStep; exact Or.inl rfl
  | waitFails => cases phase <;> cases hStep; exact Or.inl rfl
  | dispatch ans =>
    cases phase with
    | head => cases hStep
    | stopped => cases hStep
    | batch events =>
      cases events with
      | nil => cases hStep
      | cons ready rest =>
        obtain ⟨srv', hDispatch, rfl⟩ := Option.map_eq_some_iff.mp hStep
        exact Or.inr (Or.inl ⟨ready, ans, h.allocated ready List.mem_cons_self, hDispatch⟩)
  | finish now early =>
    cases phase with
    | head => cases hStep
    | stopped => cases hStep
    | batch events =>
      cases events with
      | cons => cases hStep
      | nil =>
        cases hStep
        exact Or.inr (Or.inr ⟨now, early, rfl⟩)

/-- Every step of the loop is a sequence of actions. -/
theorem step_path {loop loop' : Loop} {input : Input} (h : loop.Sound)
    (hStep : loop.step input = some loop') : actions.Path (fun _ => True) loop.srv loop'.srv := by
  rcases step_cases h hStep with hSame | ⟨ready, ans, hReady, hDispatch⟩ | ⟨now, early, hFinish⟩
  · rw [hSame]
    exact .refl _
  · exact (dispatchReady_path h.consistent hReady hDispatch).mono fun _ _ => trivial
  · rw [hFinish]
    exact (ofFinish_finishBatch now early).1.mono fun _ _ => trivial

theorem possibleBatch_sound {clock : SessPtr → Timespec} {batch : List Ready}
    (h : srv.links.Consistent) (hBatch : possibleBatch srv clock batch = true) :
    (∀ ready ∈ batch, ready.Allocated srv) ∧ distinctSources batch = true := by
  simp only [possibleBatch, Bool.and_eq_true, List.all_eq_true] at hBatch
  obtain ⟨⟨⟨_, hRegistered⟩, hDistinct⟩, _⟩ := hBatch
  refine ⟨?_, hDistinct⟩
  intro ready hReady
  have hSource := hRegistered ready hReady
  cases ready with
  | listen => trivial
  | signal => trivial
  | pty s ev =>
    simp only [Ready.registered, Bool.and_eq_true] at hSource
    exact Or.inl (h.open_listed s hSource.1)
  | conn c ev =>
    simp only [Ready.registered, Bool.and_eq_true, List.contains_iff_mem] at hSource
    exact hSource.1

theorem Loop.Sound.of_idle {loop : Loop} (h : loop.srv.links.Consistent) (hPending : loop.pending = [])
    (hSwept : ∀ now, loop.phase = .head now → loop.srv.dead = []) : loop.Sound := by
  refine ⟨h, ?_, ?_, hSwept⟩
  · intro ready hReady
    rw [hPending] at hReady
    cases hReady
  · rw [hPending]; rfl

theorem step_sound {loop loop' : Loop} {input : Input} (h : loop.Sound)
    (hStep : loop.step input = some loop') : loop'.Sound := by
  have hPath := step_path h hStep
  have hConsistent := Actions.consistent hPath h.consistent
  obtain ⟨srv, phase⟩ := loop
  cases input with
  | wait clock batch =>
    cases phase <;> simp only [Loop.step, reduceCtorEq] at hStep
    split at hStep <;> cases hStep
    rename_i hBatch
    obtain ⟨hAllocated, hDistinct⟩ := possibleBatch_sound h.consistent hBatch
    exact ⟨hConsistent, hAllocated, hDistinct, fun _ hHead => by cases hHead⟩
  | interrupted now =>
    cases phase <;> cases hStep
    exact .of_idle hConsistent rfl fun _ _ => h.swept _ rfl
  | waitFails =>
    cases phase <;> cases hStep
    exact .of_idle hConsistent rfl fun _ hHead => by cases hHead
  | dispatch ans =>
    cases phase with
    | head => cases hStep
    | stopped => cases hStep
    | batch events =>
      cases events with
      | nil => cases hStep
      | cons ready rest =>
        obtain ⟨srv', hDispatch, rfl⟩ := Option.map_eq_some_iff.mp hStep
        have hDone := dispatchReady_dispatched h.consistent (h.allocated ready List.mem_cons_self) hDispatch
        obtain ⟨hOthers, hDistinct⟩ := distinctSources_cons h.distinct
        refine ⟨hConsistent, ?_, hDistinct, fun _ hHead => by cases hHead⟩
        intro other hOther
        exact hDone.keeps other (hOthers other hOther) (h.allocated other (List.mem_cons_of_mem _ hOther))
  | finish now early =>
    cases phase with
    | head => cases hStep
    | stopped => cases hStep
    | batch events =>
      cases events with
      | cons => cases hStep
      | nil =>
        cases hStep
        have hDead := (@ofFinish_finishBatch srv now early).2
        refine .of_idle hConsistent ?_ fun _ _ => hDead
        cases hRunning : (finishBatch srv now early).running <;> simp [Loop.pending]

theorem initial_sound (instanceId : Nat) : (machine instanceId).init.Sound :=
  .of_idle (Server.initial_consistent instanceId) rfl fun _ _ => rfl

/-- Every reachable state of the loop is sound. -/
theorem run_sound {instanceId : Nat} {inputs : List Input} {loop : Loop}
    (h : (machine instanceId).run inputs = some loop) : loop.Sound :=
  (machine instanceId).run_invariant (initial_sound instanceId) (fun _ _ _ => step_sound) h

/-- The states the daemon passes through, those in the middle of an event included. -/
def Reached (instanceId : Nat) (srv : Server) : Prop :=
  actions.Path (fun _ => True) (Server.initial instanceId) srv

theorem Reached.consistent {instanceId : Nat} (h : Reached instanceId srv) : srv.links.Consistent :=
  Actions.consistent h (Server.initial_consistent instanceId)

theorem reached_of_run {instanceId : Nat} {inputs : List Input} {loop : Loop}
    (h : (machine instanceId).run inputs = some loop) : Reached instanceId loop.srv := by
  have hAll : loop.Sound ∧ Reached instanceId loop.srv := by
    refine (machine instanceId).run_invariant (P := fun loop => loop.Sound ∧ Reached instanceId loop.srv)
      ⟨initial_sound instanceId, .refl _⟩ ?_ h
    rintro loop input loop' ⟨hSound, hReached⟩ hStep
    exact ⟨step_sound hSound hStep, hReached.trans (step_path hSound hStep)⟩
  exact hAll.2

/-- What every action keeps, in a consistent state, holds wherever the daemon comes. -/
theorem Reached.invariant {instanceId : Nat} {P : Server → Prop} (hInit : P (Server.initial instanceId))
    (hPerform : ∀ (srv : Server) (a : Act), srv.links.Consistent → P srv → a.guard srv →
      P (a.perform srv))
    {srv : Server} (h : Reached instanceId srv) : P srv := by
  have hBoth : srv.links.Consistent ∧ P srv :=
    Actions.Path.invariant (P := fun srv => srv.links.Consistent ∧ P srv)
      (fun srv a hHere hGuard _ =>
        ⟨consistent_perform hHere.1 hGuard, hPerform srv a hHere.1 hHere.2 hGuard⟩)
      h ⟨Server.initial_consistent instanceId, hInit⟩
  exact hBoth.2

theorem run_perform {instanceId : Nat} {P : Server → Prop} (hInit : P (Server.initial instanceId))
    (hPerform : ∀ (srv : Server) (a : Act), srv.links.Consistent → P srv → a.guard srv →
      P (a.perform srv))
    {inputs : List Input} {loop : Loop} (h : (machine instanceId).run inputs = some loop) :
    P loop.srv :=
  Reached.invariant hInit hPerform (reached_of_run h)

end Loop

/-! Answers of an outside where nothing fails, for the runs that are followed further on. -/

section Calm

def calmSpawn (pid : Nat) : SpawnAnswers :=
  { sessionAlloc := true, ringAlloc := .block fun _ => 0, cwdAlloc := true, shell := none, home := none,
    pwDir := none, forkpty := some pid, nonblock := true, time := 0 }

def calmFrame (pid : Nat) (clock : Timespec) : FrameAnswers :=
  { rdAlloc := fun _ => true, bufAlloc := fun _ => true, queueAlloc := true, replayAlloc := true,
    snapAlloc := .block fun _ => 0, groupAlloc := true, blobAlloc := true, spawn := calmSpawn pid,
    ptyAdded := true, clock := clock, now := 0 }

def calmConn (writes : List WriteOutcome) (bytes : Bytes) (h : bytes.length ≤ ptyReadChunk) (pid : Nat)
    (clock : Timespec) : ConnAnswers :=
  { writes := writes, read := .bytes ⟨bytes, h⟩, rbufAlloc := true, frames := fun _ => calmFrame pid clock,
    bufAlloc := fun _ => true, queueAlloc := true, pinAlloc := true, ptyWrites := [] }

def readable : Events := ⟨true, false, false, false, false⟩

def hungUp : Events := ⟨false, false, false, true, false⟩

def writable : Events := ⟨false, true, false, false, false⟩

def onTime : SessPtr → Nat := fun _ => 0

/-- A batch of one event. -/
def batchOf (ready : Ready) (ans : Answers) (now : Timespec) : List Input :=
  [.wait onTime [ready], .dispatch ans, .finish now onTime]

def accepting : List Input := batchOf .listen (.listen [.accepted true true]) ⟨0⟩

def createRequest : Bytes := [16, 0, 0, 0, 1, 0, 0, 0, 0, 0, 0, 0, 0, 0, 0, 0, 0, 0, 0, 0]

theorem createRequest_bounded : createRequest.length ≤ ptyReadChunk := by decide

/-- A request whose body is the id of the first session. -/
def requestFor (type : UInt8) : Bytes := [12, 0, 0, 0, type, 0, 0, 0, 1, 0, 0, 0, 0, 0, 0, 0]

theorem attachRequest_bounded : (requestFor 3).length ≤ ptyReadChunk := by decide

/-- A client that makes a session and attaches to it. -/
def attaching : List Input :=
  accepting ++ batchOf (.conn 0 readable) (.conn (calmConn [] createRequest (by decide) 100 ⟨0⟩)) ⟨0⟩ ++
    batchOf (.conn 0 readable) (.conn (calmConn [] (requestFor 3) (by decide) 0 ⟨0⟩)) ⟨0⟩

/-- A peer that sends an empty frame, and is told so. -/
def shortFrame : List Input :=
  accepting ++ batchOf (.conn 0 readable) (.conn (calmConn [] [0, 0, 0, 0] (by decide) 0 ⟨0⟩)) ⟨0⟩

/-- CREATE in a directory, without arguments and without an environment. -/
def createBody : Bytes := strBytes (ascii "/tmp") ++ littleEndian 4 0 ++ littleEndian 4 0

/-- Three sessions and two groups; two of the sessions are in the first group, the other is in the
second, and one of the two is killed. -/
def populatingRequests : Bytes :=
  frameBytes EpiMsgType.create.code createBody ++ frameBytes EpiMsgType.create.code createBody ++
    frameBytes EpiMsgType.create.code createBody ++
    frameBytes EpiMsgType.groupNew.code (blobBytes [123, 0, 125]) ++
    frameBytes EpiMsgType.groupNew.code (blobBytes []) ++
    frameBytes EpiMsgType.groupAdd.code (u64Bytes 1 ++ u64Bytes 1) ++
    frameBytes EpiMsgType.groupAdd.code (u64Bytes 1 ++ u64Bytes 2) ++
    frameBytes EpiMsgType.groupAdd.code (u64Bytes 2 ++ u64Bytes 3) ++
    frameBytes EpiMsgType.kill.code (u64Bytes 2)

theorem populatingRequests_bounded : populatingRequests.length ≤ ptyReadChunk := by decide +kernel

/-- A client that sends them all at once. -/
def populating : List Input :=
  accepting ++ batchOf (.conn 0 readable) (.conn
    { calmConn [] populatingRequests populatingRequests_bounded 0 ⟨0⟩ with
      frames := fun turn => calmFrame (100 + turn) ⟨0⟩ }) ⟨0⟩

def hangsUp : PtyAnswers :=
  { inputWrites := []
    reads := [⟨.failed, .block fun _ => 0, true, []⟩]
    eofWrites := [.wrote 4096] }

def waitedFor : List Input := batchOf .signal (.signal [.chld [(100, 0)]]) ⟨0⟩

theorem run_event {instanceId : Nat} {before : List Input} {loop : Loop} {now : Timespec}
    {early : SessPtr → Nat} {ready : Ready} {ans : Answers} {srv' : Server}
    (h : (machine instanceId).run before = some loop) (hHead : loop.phase = .head now)
    (hBatch : possibleBatch loop.srv (readings now early) [ready] = true)
    (hDispatch : dispatchReady loop.srv ready ans = some srv') :
    (machine instanceId).run (before ++ [.wait early [ready], .dispatch ans]) =
      some ⟨srv', .batch []⟩ := by
  unfold Machine.run at h ⊢
  rw [Machine.runFrom_append, h]
  simp [Machine.runFrom, machine, Loop.step, hHead, hBatch, hDispatch]

end Calm

end Epimone.Daemon
