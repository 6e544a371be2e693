import Epimone.Daemon.Bystanders
import Epimone.Daemon.Runs

/-! # Observers are inert

A connection that only asks for lists and for recent output is an observer. Whatever
the observers do, the rest of the daemon goes on as it does when nothing is ever
heard of them.
-/
set_option autoImplicit false

namespace Epimone.Daemon

open Transition

variable {watchers : ConnPtr → Bool} {srv srv' : Server} {c : ConnPtr} {s : SessPtr}

theorem connFlush_preserves {P : Server → Prop} (hSome : ∀ t n, P t → P (writeSome t c n))
    (hFails : ∀ t, P t → P (writeFails t c)) (hReset : ∀ t, P t → P (resetIfDrained t c)) (h : P srv)
    (outcomes : List WriteOutcome) : P (connFlush srv c outcomes) := by
  induction outcomes generalizing srv with
  | nil => exact hReset srv h
  | cons outcome outcomes ih =>
    unfold connFlush
    split
    · cases outcome with
      | wrote n =>
        cases n with
        | zero => exact hFails srv h
        | succ n => exact ih (hSome srv (n + 1) h)
      | again => exact hReset srv h
      | intr => exact ih h
      | failed => exact hFails srv h
    · exact hReset srv h

section Hidden

variable (hc : watchers c = true)

include hc

theorem hidden_emit {e : Effect} (hPeer : e.peer = some c) : Beyond watchers (srv.emit e) srv := by
  have hPut := @without_put_hidden watchers srv c hc (srv.conn c) [e] (List.forall_mem_singleton.mpr hPeer)
  rwa [Server.put, Function.update_eq_self] at hPut

theorem hidden_modConn (f : Connection → Connection) : Beyond watchers (srv.modConn c f) srv := by
  have hPut := @without_put_hidden watchers srv c hc (f (srv.conn c)) [] (List.forall_mem_nil _)
  rwa [Server.put, List.append_nil] at hPut

theorem hidden_modIn (f : InBuf → InBuf) : Beyond watchers (srv.modIn c f) srv := without_modIn_hidden hc f

theorem hidden_writeSome (n : Nat) : Beyond watchers (writeSome srv c n) srv :=
  (hidden_modConn hc _).trans (hidden_emit hc rfl)

theorem hidden_writeFails : Beyond watchers (writeFails srv c) srv :=
  (hidden_modConn hc _).trans (hidden_emit hc rfl)

theorem hidden_connFlush (outcomes : List WriteOutcome) : Beyond watchers (connFlush srv c outcomes) srv := by
  refine connFlush_preserves (P := fun t => Beyond watchers t srv) ?_ ?_ ?_ (.refl srv) outcomes
  · intro t n h
    exact (hidden_writeSome hc n).trans h
  · intro t h
    exact (hidden_writeFails hc).trans h
  · intro t h
    exact (hidden_modConn hc _).trans h

theorem hidden_enqueue (data : Bytes) (relay alloc : Bool) : Beyond watchers (enqueue srv c data relay alloc) srv := by
  have hPut : enqueue srv c data relay alloc =
      srv.put c (connQueue (srv.conn c) data alloc) (enqueueEffects (srv.conn c) c data relay alloc) := enqueue_eq ..
  rw [hPut]
  exact without_put_hidden hc (peer_enqueueEffects _ _ _ _)

theorem hidden_queueFrame (b : EpiBuf) (alloc : Bool) : Beyond watchers (connQueueFrame srv c b alloc) srv := by
  unfold connQueueFrame
  split
  · exact hidden_emit hc rfl
  · exact hidden_enqueue hc _ _ _

end Hidden

namespace Beyond

theorem writeSome (h : Beyond watchers srv srv') (n : Nat) :
    Beyond watchers (writeSome srv c n) (writeSome srv' c n) := by
  have hNoted := h.note (c := c) (fun k => .wrote c (k.unsent.take n)) fun _ => rfl
  exact hNoted.modConn fun k => { k with wpos := k.wpos + min n k.unsent.length }

theorem writeFails (h : Beyond watchers srv srv') : Beyond watchers (writeFails srv c) (writeFails srv' c) :=
  (h.emit _).modConn _

theorem resetIfDrained (h : Beyond watchers srv srv') :
    Beyond watchers (resetIfDrained srv c) (resetIfDrained srv' c) := h.modConn _

theorem connFlush (h : Beyond watchers srv srv') (outcomes : List WriteOutcome) :
    Beyond watchers (connFlush srv c outcomes) (connFlush srv' c outcomes) := by
  cases hc : watchers c with
  | true => exact (hidden_connFlush hc outcomes).trans (h.trans (hidden_connFlush hc outcomes).symm)
  | false =>
    induction outcomes generalizing srv srv' with
    | nil => exact h.resetIfDrained
    | cons outcome outcomes ih =>
      unfold Daemon.connFlush
      rw [h.conn hc]
      split
      · cases outcome with
        | wrote n =>
          cases n with
          | zero => exact h.writeFails
          | succ n => exact ih (h.writeSome _)
        | again => exact h.resetIfDrained
        | intr => exact ih h
        | failed => exact h.writeFails
      · exact h.resetIfDrained

theorem ptyUpdate (h : Beyond watchers srv srv') : Beyond watchers (ptyUpdate srv s) (ptyUpdate srv' s) := by
  unfold Daemon.ptyUpdate
  rw [h.sess]
  split
  · exact h
  · exact h.modSess _

theorem epiSessionFlushInput (h : Beyond watchers srv srv') (outcomes : List WriteOutcome) :
    Beyond watchers (epiSessionFlushInput srv s outcomes) (epiSessionFlushInput srv' s outcomes) := by
  unfold Daemon.epiSessionFlushInput
  rw [h.sess]
  split
  · exact h.modSess _
  · exact (h.emit _).modSess _

theorem epiSessionQueueInput (h : Beyond watchers srv srv') (data : Bytes) (alloc : Bool)
    (outcomes : List WriteOutcome) : Beyond watchers (epiSessionQueueInput srv s data alloc outcomes)
      (epiSessionQueueInput srv' s data alloc outcomes) := by
  unfold Daemon.epiSessionQueueInput
  dsimp only
  rw [h.sess]
  split
  · exact h
  split
  · exact (h.modSess _).epiSessionFlushInput _
  split
  · exact (h.modSess _).epiSessionFlushInput _
  · exact h

theorem dataToPty (h : Beyond watchers srv srv') (hc : watchers c = false) (data : Bytes) (ans : ConnAnswers) :
    Beyond watchers (dataToPty srv c data ans) (dataToPty srv' c data ans) := by
  unfold Daemon.dataToPty
  rw [h.conn hc]
  split
  · exact h
  · exact ((h.emit _).epiSessionQueueInput _ _ _).ptyUpdate

theorem condemn (h : Beyond watchers srv srv') : Beyond watchers (condemn srv c) (condemn srv' c) := h.modConn _

theorem rejectFrame (h : Beyond watchers srv srv') (code : EpiErrCode) (msg : String) (ans : ConnAnswers) :
    Beyond watchers (rejectFrame srv c code msg ans) (rejectFrame srv' c code msg ans) := by
  have hNoted := h.note (c := c) (fun k => .framingError c k.unsent.length k.polled) fun _ => rfl
  exact (hNoted.queueFrame _ _).condemn

theorem handleFrame (h : Beyond watchers srv srv') (ans : FrameAnswers) (type : Nat) (body : Bytes) :
    Beyond watchers (handleFrame srv c ans type body) (handleFrame srv' c ans type body) := by
  have hNoted := h.note (c := c) (fun k => .frame c type body k.unsent.length) fun _ => rfl
  exact hNoted.dispatchFrame ans type body

theorem switchConn (h : Beyond watchers srv srv') (hc : watchers c = false) (ans : ConnAnswers) (used : Nat) :
    Beyond watchers (switchConn srv c ans used) (switchConn srv' c ans used) := by
  unfold Daemon.switchConn
  dsimp only
  rw [h.inbuf hc]
  split
  · exact h.modIn _
  · exact (h.dataToPty hc _ ans).modIn _

theorem frameLoop (h : Beyond watchers srv srv') (hc : watchers c = false) (ans : ConnAnswers) (fuel turn used : Nat) :
    Beyond watchers (frameLoop c ans fuel turn srv used).1 (frameLoop c ans fuel turn srv' used).1 ∧
      (frameLoop c ans fuel turn srv used).2 = (frameLoop c ans fuel turn srv' used).2 := by
  induction fuel generalizing srv srv' turn used with
  | zero => exact ⟨h, rfl⟩
  | succ fuel ih =>
    rw [frameLoop_succ, frameLoop_succ, h.inbuf hc]
    cases readFrame ((srv'.inbuf c).rbuf.drop used) with
    | more => exact ⟨h, rfl⟩
    | refused e => exact ⟨h.rejectFrame _ _ ans, rfl⟩
    | item frame n =>
      obtain ⟨type, body⟩ := frame
      have hHandled := h.handleFrame (c := c) (ans.frames turn) type body
      dsimp only
      rw [hHandled.conn hc]
      split
      · exact ⟨hHandled.switchConn hc ans _, rfl⟩
      split
      · exact ⟨hHandled, rfl⟩
      · exact ih hHandled _ _

theorem dropConsumed (h : Beyond watchers srv srv') (used : Nat) :
    Beyond watchers (dropConsumed srv c used) (dropConsumed srv' c used) := by
  unfold Daemon.dropConsumed
  split
  · exact h.modIn _
  · exact h

theorem handleInbound (h : Beyond watchers srv srv') (hc : watchers c = false) (data : Bytes) (ans : ConnAnswers) :
    Beyond watchers (handleInbound srv c data ans) (handleInbound srv' c data ans) := by
  unfold Daemon.handleInbound
  rw [h.conn hc, h.inbuf hc]
  split
  · exact h.dataToPty hc data ans
  split
  · exact h.condemn
  have hStored : Beyond watchers (storeInbound srv c data) (storeInbound srv' c data) := by
    have hNoted := h.note (c := c) (fun k => .received c data k.wantClose) fun _ => rfl
    exact hNoted.modIn _
  dsimp only
  rw [hStored.inbuf hc]
  obtain ⟨hLoop, hLeft⟩ := hStored.frameLoop hc ans ((storeInbound srv' c data).inbuf c).rbuf.length 0 0
  generalize Daemon.frameLoop c ans _ 0 (storeInbound srv c data) 0 = parsed at hLoop hLeft ⊢
  generalize Daemon.frameLoop c ans _ 0 (storeInbound srv' c data) 0 = parsed' at hLoop hLeft ⊢
  obtain ⟨t, left⟩ := parsed
  obtain ⟨t', left'⟩ := parsed'
  obtain rfl : left = left' := hLeft
  cases left with
  | none => exact hLoop
  | some used => exact hLoop.dropConsumed used

theorem connRead (h : Beyond watchers srv srv') (hc : watchers c = false) (ans : ConnAnswers) :
    Beyond watchers (connRead srv c ans) (connRead srv' c ans) := by
  unfold Daemon.connRead
  split
  · split
    · exact h.condemn
    · exact h.handleInbound hc _ ans
  · exact h
  · exact h
  · exact h.condemn

theorem connClose (h : Beyond watchers srv srv') (hOwn : (srv.conn c).session = (srv'.conn c).session) :
    Beyond watchers (connClose srv c) (connClose srv' c) := by
  have hClosed : ∀ {t t' : Server}, Beyond watchers t t' →
      Beyond watchers { t with conns := t.conns.erase c } { t' with conns := t'.conns.erase c } := by
    intro t t' h
    refine h.congr (fun t => { t with conns := t.conns.erase c }) ?_
    intro t
    simp only [Server.without, List.erase_filter]
  unfold Daemon.connClose
  dsimp only
  rw [hOwn, h.sess]
  refine Beyond.modIn (Beyond.modConn (Beyond.emit (hClosed ?_) _) _) _
  split
  · exact h
  split
  · exact h.modSess _
  · exact h

theorem settleConn (h : Beyond watchers srv srv') (hc : watchers c = false) :
    Beyond watchers (settleConn srv c) (settleConn srv' c) := by
  have hUpdated : Beyond watchers (if !(srv.conn c).wantClose then Daemon.connUpdate srv c else srv)
      (if !(srv'.conn c).wantClose then Daemon.connUpdate srv' c else srv') := by
    rw [h.conn hc]
    split
    · exact h.connUpdate
    · exact h
  unfold Daemon.settleConn
  dsimp only
  generalize (if !(srv.conn c).wantClose then Daemon.connUpdate srv c else srv) = updated at hUpdated ⊢
  generalize (if !(srv'.conn c).wantClose then Daemon.connUpdate srv' c else srv') = updated' at hUpdated ⊢
  rw [hUpdated.conn hc]
  split
  · exact hUpdated.connClose (congrArg Connection.session (hUpdated.conn hc))
  · exact hUpdated

theorem dispatchConn (h : Beyond watchers srv srv') (hc : watchers c = false) (ev : Events) (ans : ConnAnswers) :
    Beyond watchers (dispatchConn srv c ev ans) (dispatchConn srv' c ev ans) := by
  have hFlushed : Beyond watchers (if ev.pollout then Daemon.connFlush srv c ans.writes else srv)
      (if ev.pollout then Daemon.connFlush srv' c ans.writes else srv') := by
    split
    · exact h.connFlush _
    · exact h
  unfold Daemon.dispatchConn
  dsimp only
  refine Beyond.settleConn ?_ hc
  split
  · exact hFlushed.connRead hc ans
  · exact hFlushed

theorem openConn (h : Beyond watchers srv srv') : Beyond watchers (openConn srv) (openConn srv') := by
  have hListed : ∀ {t t' : Server} (c : ConnPtr), Beyond watchers t t' →
      Beyond watchers { t with conns := c :: t.conns } { t' with conns := c :: t'.conns } := by
    intro t t' c h
    cases hc : watchers c with
    | true =>
      have hSame : ∀ t : Server, ({ t with conns := c :: t.conns } : Server).without watchers = t.without watchers := by
        intro t
        simp only [Server.without, List.filter_cons, hc, Bool.not_true, Bool.false_eq_true, ↓reduceIte]
      exact (hSame t).trans (h.trans (hSame t').symm)
    | false =>
      refine h.congr (fun t => { t with conns := c :: t.conns }) ?_
      intro t
      simp only [Server.without, List.filter_cons, hc, Bool.not_false, ↓reduceIte]
  unfold Daemon.openConn
  dsimp only
  rw [h.nextConn]
  refine Beyond.modIn (Beyond.modConn ?_ _) _
  exact hListed _ (h.congr (fun t => { t with nextConn := srv'.nextConn + 1 }) fun _ => rfl)

theorem acceptConn (h : Beyond watchers srv srv') (outcomes : List AcceptOutcome) :
    Beyond watchers (acceptConn srv outcomes) (acceptConn srv' outcomes) := by
  induction outcomes generalizing srv srv' with
  | nil => exact h
  | cons outcome outcomes ih =>
    cases outcome with
    | accepted alloc added =>
      cases alloc with
      | false => exact ih h
      | true =>
        unfold Daemon.acceptConn
        dsimp only
        refine ih ?_
        rw [h.nextConn]
        split
        · exact h.openConn.modConn _
        · refine h.openConn.connClose ?_
          have hBlank : ∀ t : Server, (Daemon.openConn t).conn t.nextConn = .blank := fun t => Function.update_self ..
          rw [← h.nextConn, hBlank, h.nextConn, hBlank]
    | intr => exact ih h
    | failed => exact h

theorem noteRead (h : Beyond watchers srv srv') (chunk : Chunk) :
    Beyond watchers (noteRead srv s chunk) (noteRead srv' s chunk) := by
  unfold Daemon.noteRead
  rw [h.sess]
  exact h.emit _

theorem relayOutput (h : Beyond watchers srv srv') (chunk : Chunk) (read : PtyRead) :
    Beyond watchers (relayOutput srv s chunk read) (relayOutput srv' s chunk read) := by
  unfold Daemon.relayOutput
  dsimp only
  rw [h.sess]
  split
  · exact h.modSess _
  · exact (h.modSess _).enqueue _ _ _

theorem ptyOutput (h : Beyond watchers srv srv') (chunk : Chunk) (read : PtyRead) :
    Beyond watchers (ptyOutput srv s chunk read) (ptyOutput srv' s chunk read) := by
  have hRelayed := h.relayOutput (s := s) chunk read
  unfold Daemon.ptyOutput
  dsimp only
  rw [h.sess]
  split
  · exact hRelayed
  · rename_i c _
    exact ((hRelayed.connFlush _).connUpdate).note (fun k => .relayed c k.unsent.length k.wantClose) fun _ => rfl

theorem closeAfterDrain (h : Beyond watchers srv srv') :
    Beyond watchers (closeAfterDrain srv c) (closeAfterDrain srv' c) := by
  have hMarked := (h.emit (.eof c)).condemn (c := c)
  unfold Daemon.closeAfterDrain
  dsimp only
  refine Beyond.connUpdate ?_
  cases hc : watchers c with
  | true =>
    have hShut : ∀ t : Server,
        Beyond watchers (if (t.conn c).wpos = (t.conn c).wlen then t.emit (.shutdown c) else t) t := by
      intro t
      split
      · exact hidden_emit hc rfl
      · exact .refl _
    exact (hShut _).trans (hMarked.trans (hShut _).symm)
  | false =>
    rw [hMarked.conn hc]
    split
    · exact hMarked.emit _
    · exact hMarked

theorem clientEof (h : Beyond watchers srv srv') (writes : List WriteOutcome) :
    Beyond watchers (clientEof srv s writes) (clientEof srv' s writes) := by
  unfold Daemon.clientEof
  rw [h.sess]
  split
  · exact h
  · exact (h.connFlush _).closeAfterDrain

theorem ptyHangup (h : Beyond watchers srv srv') (eofWrites : List WriteOutcome) :
    Beyond watchers (ptyHangup srv s eofWrites) (ptyHangup srv' s eofWrites) := by
  have hClosed := (h.emit (.ptyHangup s)).closePty (s := s)
  unfold Daemon.ptyHangup
  dsimp only
  rw [hClosed.sess]
  split
  · exact hClosed.removeSession
  · exact hClosed.clientEof _

theorem ptyReadLoop (h : Beyond watchers srv srv') (eofWrites : List WriteOutcome) (reads : List PtyRead) :
    Beyond watchers (ptyReadLoop s eofWrites reads srv) (ptyReadLoop s eofWrites reads srv') := by
  induction reads generalizing srv srv' with
  | nil => exact h
  | cons read reads ih =>
    unfold Daemon.ptyReadLoop
    split
    · split
      · exact h.ptyHangup _
      · exact ih ((h.noteRead _).ptyOutput _ _)
    · exact h
    · exact ih h
    · exact h.ptyHangup _

theorem ptyReadable (h : Beyond watchers srv srv') (ans : PtyAnswers) :
    Beyond watchers (ptyReadable srv s ans) (ptyReadable srv' s ans) := by
  unfold Daemon.ptyReadable
  rw [h.sess]
  split
  · exact h
  · exact h.ptyReadLoop _ _

theorem flushPty (h : Beyond watchers srv srv') (ev : Events) {ans ans' : PtyAnswers}
    (hWrites : ans.inputWrites = ans'.inputWrites) :
    Beyond watchers (flushPty srv s ev ans) (flushPty srv' s ev ans') := by
  have hInput := h.epiSessionFlushInput (s := s) ans.inputWrites
  unfold Daemon.flushPty
  rw [← hWrites]
  split
  · dsimp only
    rw [hInput.sess]
    split
    · exact hInput.ptyUpdate
    · exact hInput
  · exact h

theorem dispatchPty (h : Beyond watchers srv srv') (ev : Events) (ans : PtyAnswers) :
    Beyond watchers (dispatchPty srv s ev ans) (dispatchPty srv' s ev ans) := by
  have hFlushed := h.flushPty (s := s) ev (rfl : ans.inputWrites = ans.inputWrites)
  rw [dispatchPty_eq, dispatchPty_eq, h.sess]
  split
  · exact h
  split
  · exact hFlushed.ptyReadable ans
  · exact hFlushed

theorem reapChild (h : Beyond watchers srv srv') (pid status : Nat) :
    Beyond watchers (reapChild srv pid status) (reapChild srv' pid status) := by
  have hChild : srv.childOf pid = srv'.childOf pid := h.map fun srv => srv.childOf pid
  unfold Daemon.reapChild
  rw [hChild]
  split
  · exact h
  rename_i child _
  have hReaped : Beyond watchers
      ({ srv with children := srv.children.filter fun e => e.1 != pid }.emit (.reaped child))
      ({ srv' with children := srv'.children.filter fun e => e.1 != pid }.emit (.reaped child)) := by
    refine Beyond.emit ?_ _
    exact h.congr (fun t => { t with children := t.children.filter fun e => e.1 != pid }) fun _ => rfl
  dsimp only
  rw [hReaped.sess, hReaped.sessions]
  split
  · exact hReaped
  rename_i s _
  have hMarked := hReaped.modSess (s := s) fun k => { k with alive := false, exitStatus := status }
  rw [hMarked.sess]
  split
  · exact hMarked.removeSession
  · exact hMarked

theorem reapChildren (h : Beyond watchers srv srv') (waits : List (Nat × Nat)) :
    Beyond watchers (reapChildren waits srv) (reapChildren waits srv') := by
  induction waits generalizing srv srv' with
  | nil => exact h
  | cons wait waits ih => exact ih (h.reapChild wait.1 wait.2)

theorem handleSignalfd (h : Beyond watchers srv srv') (reads : List SignalRead) :
    Beyond watchers (handleSignalfd srv reads) (handleSignalfd srv' reads) := by
  induction reads generalizing srv srv' with
  | nil => exact h
  | cons read reads ih =>
    cases read with
    | chld waits => exact ih (h.reapChildren waits)
    | term => exact h.congr (fun t => { t with running := false }) fun _ => rfl
    | other => exact ih h

theorem reapDead (h : Beyond watchers srv srv') (dead : List SessPtr) :
    Beyond watchers (reapDead dead srv) (reapDead dead srv') := by
  induction dead generalizing srv srv' with
  | nil => exact h
  | cons s dead ih =>
    have hRest := h.congr (fun t => { t with dead := dead }) fun _ => rfl
    exact ih ((hRest.modSess _).emit _)

theorem escalateAll (h : Beyond watchers srv srv') (clock : SessPtr → Timespec) (listed : List SessPtr) :
    Beyond watchers (escalateAll clock listed srv) (escalateAll clock listed srv') := by
  induction listed generalizing srv srv' with
  | nil => exact h
  | cons s listed ih =>
    refine ih ?_
    unfold escalate epiSessionKill
    dsimp only
    rw [h.sess]
    split
    · split
      · exact (h.kill _ _).modSess _
      · exact h.modSess _
    · exact h

theorem finishBatch (h : Beyond watchers srv srv') (now : Timespec) (early : SessPtr → Nat) :
    Beyond watchers (finishBatch srv now early) (finishBatch srv' now early) := by
  have hReaped : Beyond watchers (reapDeadSessions srv) (reapDeadSessions srv') := by
    unfold reapDeadSessions
    rw [h.dead]
    exact h.reapDead _
  unfold Daemon.finishBatch processKillDeadlines
  rw [hReaped.sessions]
  exact hReaped.escalateAll _ _

end Beyond

/-- Requests that only ask; a type that no request has is refused. -/
def Observing (type : Nat) : Prop :=
  ∀ request ∈ EpiMsgType.ofRequest type, request = .list ∨ request = .peek ∨ request = .groupList

instance (type : Nat) : Decidable (Observing type) :=
  inferInstanceAs (Decidable (∀ request ∈ EpiMsgType.ofRequest type, _))

/-- An observer is answered, and nothing else happens. -/
theorem dispatchFrame_observing {type : Nat} (h : Observing type) (ans : FrameAnswers) (body : Bytes) :
    ∃ b, dispatchFrame srv c ans type body = connQueueFrame srv c b ans.queueAlloc := by
  unfold dispatchFrame
  cases hRequest : EpiMsgType.ofRequest type with
  | none => exact ⟨_, rfl⟩
  | some request =>
    rcases h request hRequest with rfl | rfl | rfl
    · exact ⟨_, rfl⟩
    · dsimp only
      unfold handlePeek
      split
      split
      unfold withSession
      split
      · exact ⟨_, rfl⟩
      split
      · exact ⟨_, rfl⟩
      · exact ⟨_, rfl⟩
    · exact ⟨_, rfl⟩

/-- A control connection that has never been attached. -/
structure Idle (srv : Server) (c : ConnPtr) : Prop where
  control : (srv.conn c).isData = false
  unbound : (srv.conn c).session = none

/-- Since `base`, something has happened to the observer alone. -/
structure Muffled (watchers : ConnPtr → Bool) (c : ConnPtr) (base srv : Server) : Prop extends Idle srv c where
  beyond : Beyond watchers srv base

namespace Muffled

variable {base : Server} (hc : watchers c = true) (h : Muffled watchers c base srv)

include hc h

theorem emit {e : Effect} (hPeer : e.peer = some c) : Muffled watchers c base (srv.emit e) :=
  ⟨⟨h.control, h.unbound⟩, (hidden_emit hc hPeer).trans h.beyond⟩

theorem modConn {f : Connection → Connection} (hData : ∀ k, (f k).isData = k.isData)
    (hSession : ∀ k, (f k).session = k.session) : Muffled watchers c base (srv.modConn c f) := by
  have hCell : (srv.modConn c f).conn c = f (srv.conn c) := Function.update_self ..
  refine ⟨⟨?_, ?_⟩, (hidden_modConn hc f).trans h.beyond⟩
  · rw [hCell, hData, h.control]
  · rw [hCell, hSession, h.unbound]

theorem modIn (f : InBuf → InBuf) : Muffled watchers c base (srv.modIn c f) :=
  ⟨⟨h.control, h.unbound⟩, (hidden_modIn hc f).trans h.beyond⟩

theorem queueFrame (b : EpiBuf) (alloc : Bool) : Muffled watchers c base (connQueueFrame srv c b alloc) := by
  have hCell : (connQueueFrame srv c b alloc).conn c = Daemon.queueFrame (srv.conn c) b alloc := by
    rw [connQueueFrame_eq]
    exact Function.update_self ..
  refine ⟨⟨?_, ?_⟩, (hidden_queueFrame hc b alloc).trans h.beyond⟩
  · rw [hCell, queueFrame_isData, h.control]
  · rw [hCell, queueFrame_session, h.unbound]

theorem condemn : Muffled watchers c base (condemn srv c) := h.modConn hc (fun _ => rfl) fun _ => rfl

theorem connFlush (outcomes : List WriteOutcome) : Muffled watchers c base (connFlush srv c outcomes) := by
  refine connFlush_preserves ?_ ?_ ?_ h outcomes
  · intro t n ht
    exact (ht.emit hc rfl).modConn hc (fun _ => rfl) fun _ => rfl
  · intro t ht
    exact (ht.emit hc rfl).condemn hc
  · intro t ht
    refine ht.modConn hc ?_ ?_ <;>
    · intro k
      split <;> rfl

theorem handleFrame {type : Nat} (hObserving : Observing type) (ans : FrameAnswers) (body : Bytes) :
    Muffled watchers c base (handleFrame srv c ans type body) := by
  obtain ⟨b, hAnswered⟩ := @dispatchFrame_observing (srv.emit (.frame c type body (srv.conn c).unsent.length)) c type
    hObserving ans body
  unfold Daemon.handleFrame
  rw [hAnswered]
  exact (h.emit hc rfl).queueFrame hc _ _

theorem rejectFrame (code : EpiErrCode) (msg : String) (ans : ConnAnswers) :
    Muffled watchers c base (rejectFrame srv c code msg ans) :=
  ((h.emit hc rfl).queueFrame hc _ _).condemn hc

omit hc h in
theorem frame_mem_handleFrame (hCons : srv.links.Consistent) (hMem : c ∈ srv.conns)
    (hData : (srv.conn c).isData = false) (ans : FrameAnswers) (type : Nat) (body : Bytes) :
    .frame c type body (srv.conn c).unsent.length ∈ (Daemon.handleFrame srv c ans type body).trace := by
  have hAwaits : (srv.emit (.frame c type body (srv.conn c).unsent.length)).Awaiting c :=
    ⟨srv.trace, _, [], rfl, beq_self_eq_true c, by simp⟩
  have hAnswered :=
    @answered_dispatchFrame (srv.emit (.frame c type body (srv.conn c).unsent.length)) c hCons ans type body
  have hPath :=
    @Answered.path _ _ _ _ (fun _ => True) hAnswered hMem hData hAwaits (fun _ _ => trivial) fun _ _ => trivial
  exact trace_mono hPath _ (List.mem_append_right _ (List.mem_singleton.mpr rfl))

theorem frameRun {ans : ConnAnswers} {turn used : Nat} {left : Option Nat}
    (hRun : FrameRun c ans turn srv used srv' left) (hCons : srv.links.Consistent) (hMem : c ∈ srv.conns)
    (hAsks : ∀ type body n, .frame c type body n ∈ srv'.trace → Observing type) : Muffled watchers c base srv' := by
  induction hRun with
  | more => exact h
  | refused => exact h.rejectFrame hc _ _ ans
  | switched hRead hData =>
    rename_i turn srv used type n body
    have hPath := path_handleFrame hCons hMem h.control (ans.frames turn) type body
    have hConns := Inbound.conns (hPath.mono fun _ => inbound_of_handles)
    have hSwitched : Inbound c _ (switchConn (Daemon.handleFrame srv c (ans.frames turn) type body) c ans (used + n)) :=
      inbound_switch (by rw [hConns]; exact hMem) _ ans
    have hFrame := frame_mem_handleFrame hCons hMem h.control (ans.frames turn) type body
    have hObserving := hAsks _ _ _ (trace_mono hSwitched _ hFrame)
    rw [(h.handleFrame hc hObserving (ans.frames turn) body).control] at hData
    cases hData
  | condemned hRead hControl hClose =>
    rename_i turn srv used type n body
    exact h.handleFrame hc (hAsks _ _ _ (frame_mem_handleFrame hCons hMem h.control _ _ _)) _ _
  | next hRead hControl hOpen rest ih =>
    rename_i turn srv srv' used type n body left
    have hPath := path_handleFrame hCons hMem h.control (ans.frames turn) type body
    have hConns := Inbound.conns (hPath.mono fun _ => inbound_of_handles)
    have hCons' := Actions.consistent hPath hCons
    have hMem' : c ∈ (Daemon.handleFrame srv c (ans.frames turn) type body).conns := by
      rw [hConns]
      exact hMem
    have hMono := trace_mono (rest.path hCons' hMem' hControl)
    have hObserving := hAsks _ _ _ (hMono _ (frame_mem_handleFrame hCons hMem h.control (ans.frames turn) type body))
    exact ih (h.handleFrame hc hObserving _ _) hCons' hMem' hAsks

theorem connRead (hCons : srv.links.Consistent) (hMem : c ∈ srv.conns) (ans : ConnAnswers)
    (hAsks : ∀ type body n, .frame c type body n ∈ (connRead srv c ans).trace → Observing type) :
    Muffled watchers c base (connRead srv c ans) := by
  rcases connRead_cases hCons hMem ans with
    hSame | hCondemned | ⟨data, hData, -⟩ | ⟨data, srv', left, hControl, -, hRun, hRead⟩
  · rw [hSame]
    exact h
  · rw [hCondemned]
    exact h.condemn hc
  · rw [h.control] at hData
    cases hData
  · have hStored : Muffled watchers c base (storeInbound srv c data) := (h.emit hc rfl).modIn hc _
    rw [hRead, (keepRest_same srv' c left).2.2.2] at hAsks
    have hParsed := hStored.frameRun hc hRun hCons hMem hAsks
    rw [hRead]
    cases left with
    | none => exact hParsed
    | some used =>
      rw [keepRest, dropConsumed]
      split
      · exact hParsed.modIn hc _
      · exact hParsed

theorem connClose : Muffled watchers c base (connClose srv c) := by
  have hGone : ∀ t : Server, Beyond watchers { t with conns := t.conns.erase c } t := by
    intro t
    have hErased : (t.conns.filter fun d => !watchers d).erase c = t.conns.filter fun d => !watchers d := by
      apply List.erase_of_not_mem
      simp [List.mem_filter, hc]
    simp only [Beyond, Server.without, ← List.erase_filter, hErased]
  unfold Daemon.connClose
  dsimp only
  rw [h.unbound]
  have hClosed : Muffled watchers c base { srv with conns := srv.conns.erase c } :=
    ⟨⟨h.control, h.unbound⟩, (hGone srv).trans h.beyond⟩
  have hEmitted := hClosed.emit hc (e := .closed c) rfl
  have hBlank : ∀ t : Server, (t.modConn c fun _ => .blank).conn c = .blank := fun t => Function.update_self ..
  refine Muffled.modIn hc ⟨⟨?_, ?_⟩, (hidden_modConn hc _).trans hEmitted.beyond⟩ _
  · rw [hBlank]
    rfl
  · rw [hBlank]
    rfl

theorem settleConn : Muffled watchers c base (settleConn srv c) := by
  have hUpdated : Muffled watchers c base (if !(srv.conn c).wantClose then connUpdate srv c else srv) := by
    split
    · exact h.modConn hc (fun _ => rfl) fun _ => rfl
    · exact h
  unfold Daemon.settleConn
  dsimp only
  generalize (if !(srv.conn c).wantClose then connUpdate srv c else srv) = updated at hUpdated ⊢
  split
  · exact hUpdated.connClose hc
  · exact hUpdated

/-- Whatever comes of an observer, only the observer knows. -/
theorem dispatchConn (hCons : srv.links.Consistent) (hMem : c ∈ srv.conns) (ev : Events) (ans : ConnAnswers)
    (hAsks : ∀ type body n, .frame c type body n ∈ (dispatchConn srv c ev ans).trace → Observing type) :
    Muffled watchers c base (dispatchConn srv c ev ans) := by
  have hFlushed : Muffled watchers c base (flushReady srv c ev ans) := by
    unfold flushReady
    split
    · exact h.connFlush hc _
    · exact h
  have hLinks := flushReady_links hMem ev ans
  have hConns' : (flushReady srv c ev ans).conns = srv.conns := congrArg Links.conns hLinks
  have hConns : (serveConn srv c ev ans).conns = srv.conns := (ofConn_serveConn hCons hMem ev ans).2
  rw [dispatchConn_eq] at hAsks ⊢
  refine Muffled.settleConn hc ?_
  have hSettled := trace_mono (@ofConn_settleConn (serveConn srv c ev ans) c (by rw [hConns]; exact hMem))
  have hServed : ∀ type body n, .frame c type body n ∈ (serveConn srv c ev ans).trace → Observing type :=
    fun type body n hFrame => hAsks type body n (hSettled _ hFrame)
  rw [serveConn_eq] at hServed ⊢
  split
  · rename_i hReady
    rw [if_pos hReady] at hServed
    exact hFlushed.connRead hc (by rw [hLinks]; exact hCons)
      (by rw [hConns']; exact hMem) ans hServed
  · exact hFlushed

end Muffled

end Epimone.Daemon
