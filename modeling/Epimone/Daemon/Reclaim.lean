import Epimone.Daemon.Attachment
import Epimone.Daemon.Escalation
import Epimone.Daemon.Independence
import Epimone.Daemon.Shutdown
import Mathlib.Data.List.Count

/-! # Removed sessions

A session that leaves the list waits on the dead chain until the end of the
batch. The events that are still to be dispatched neither read nor write it,
though they may carry a pointer to it, and it is freed once, with its PTY
closed once before.
-/
set_option autoImplicit false

namespace Epimone.Daemon

open Transition

namespace Recast

variable {r : Recast} {srv : Server} {c : ConnPtr} {s : SessPtr}

section Output

theorem apply_connFlush (outcomes : List WriteOutcome) :
    connFlush (r.apply srv) c outcomes = r.apply (connFlush srv c outcomes) := by
  have hWrite : ∀ (t : Server) n, writeSome (r.apply t) c n = r.apply (writeSome t c n) := by
    intro t n
    unfold writeSome
    rw [← apply_modConn, ← apply_emit]
    rfl
  have hFails : ∀ t : Server, writeFails (r.apply t) c = r.apply (writeFails t c) := by
    intro t
    unfold writeFails
    rw [← apply_modConn, ← apply_emit]
  induction outcomes generalizing srv with
  | nil => rfl
  | cons outcome outcomes ih =>
    unfold connFlush
    rw [show (r.apply srv).conn = srv.conn from rfl]
    split
    · cases outcome with
      | wrote n =>
        cases n with
        | zero => exact hFails srv
        | succ n =>
          dsimp only
          rw [hWrite]
          exact ih
      | again => rfl
      | intr => exact ih
      | failed => exact hFails srv
    · rfl

theorem apply_condemn : condemn (r.apply srv) c = r.apply (condemn srv c) := rfl

theorem apply_ptyUpdate (h : r.Clear s) : ptyUpdate (r.apply srv) s = r.apply (ptyUpdate srv s) := by
  unfold ptyUpdate
  rw [sess_apply h]
  split
  · rfl
  · exact apply_modSess h _

theorem apply_epiSessionFlushInput (h : r.Clear s) (outcomes : List WriteOutcome) :
    epiSessionFlushInput (r.apply srv) s outcomes = r.apply (epiSessionFlushInput srv s outcomes) := by
  unfold epiSessionFlushInput
  rw [sess_apply h]
  split
  · exact apply_modSess h _
  · dsimp only
    rw [apply_emit, apply_modSess h]

theorem apply_epiSessionQueueInput (h : r.Clear s) (data : Bytes) (alloc : Bool)
    (outcomes : List WriteOutcome) :
    epiSessionQueueInput (r.apply srv) s data alloc outcomes =
      r.apply (epiSessionQueueInput srv s data alloc outcomes) := by
  unfold epiSessionQueueInput
  rw [sess_apply h]
  dsimp only
  split
  · rfl
  split
  · rw [apply_modSess h, apply_epiSessionFlushInput h]
  split
  · rw [apply_modSess h, apply_epiSessionFlushInput h]
  · rfl

theorem apply_dataToPty (h : ∀ t, (srv.conn c).session = some t → r.Clear t) (data : Bytes)
    (ans : ConnAnswers) : dataToPty (r.apply srv) c data ans = r.apply (dataToPty srv c data ans) := by
  unfold dataToPty
  rw [show (r.apply srv).conn = srv.conn from rfl]
  cases hBound : (srv.conn c).session with
  | none => rfl
  | some t =>
    dsimp only
    rw [apply_emit, apply_epiSessionQueueInput (h t hBound), apply_ptyUpdate (h t hBound)]

end Output

/-- The cell of a session that waits to be freed is another one. -/
def hide (s : SessPtr) (k : Session) : Recast := ⟨some (s, k), id, []⟩

theorem apart_hide {k : Session} (hs : s ∈ srv.dead) (hMarked : k.defunct = true) :
    (hide s k).Apart srv := by
  intro t k' hCell
  cases hCell
  exact ⟨hs, hMarked⟩

section Events

theorem Apart.bound (h : r.Apart srv) (hLinks : srv.links.Consistent) (t : SessPtr)
    (hBound : (srv.conn c).session = some t) : r.Clear t :=
  (h.unlisted hLinks).listed t (hLinks.bound_listed c t hBound)

theorem apply_handleFrame (h : r.Unlisted srv) (ans : FrameAnswers) (type : Nat) (body : Bytes) :
    handleFrame (r.apply srv) c ans type body = r.apply (handleFrame srv c ans type body) := by
  unfold handleFrame
  rw [apply_emit]
  have hNoted : r.Unlisted (srv.emit (.frame c type body (srv.conn c).unsent.length)) := ⟨h.listed, h.next⟩
  exact apply_dispatchFrame hNoted type body

theorem frees_of_handles {a : Act} (ha : a.handles c = true) : a.frees = false :=
  (inbound_harmless (inbound_of_handles ha) (d := 0)).1

theorem apply_switchConn (h : r.Apart srv) (hIn : r.inbuf = id) (hLinks : srv.links.Consistent)
    (ans : ConnAnswers) (used : Nat) :
    switchConn (r.apply srv) c ans used = r.apply (switchConn srv c ans used) := by
  unfold switchConn
  have hSame : (r.apply srv).inbuf = srv.inbuf := congrFun hIn srv.inbuf
  have hFree : ∀ t : Server, freeInbound (r.apply t) c = r.apply (freeInbound t c) := by
    intro t
    unfold freeInbound Server.modIn
    simp [apply, hIn]
  rw [hSame]
  dsimp only
  split
  · exact hFree srv
  · rw [apply_dataToPty (h.bound hLinks)]
    exact hFree _

theorem apply_rejectFrame (code : EpiErrCode) (msg : String) (ans : ConnAnswers) :
    rejectFrame (r.apply srv) c code msg ans = r.apply (rejectFrame srv c code msg ans) := by
  unfold rejectFrame sendError
  dsimp only
  rw [apply_emit, apply_connQueueFrame, apply_condemn]
  rfl

theorem apply_frameLoop (hIn : r.inbuf = id) (ans : ConnAnswers) (fuel turn used : Nat)
    (h : r.Apart srv) (hLinks : srv.links.Consistent) (hc : c ∈ srv.conns)
    (hData : (srv.conn c).isData = false) :
    frameLoop c ans fuel turn (r.apply srv) used =
      (r.apply (frameLoop c ans fuel turn srv used).1, (frameLoop c ans fuel turn srv used).2) := by
  induction fuel generalizing srv turn used with
  | zero => rfl
  | succ fuel ih =>
    have hSame : (r.apply srv).inbuf = srv.inbuf := congrFun hIn srv.inbuf
    rw [frameLoop_succ, frameLoop_succ, hSame]
    cases readFrame ((srv.inbuf c).rbuf.drop used) with
    | more => rfl
    | refused e =>
      dsimp only
      rw [apply_rejectFrame]
    | item frame n =>
      obtain ⟨type, body⟩ := frame
      have hPath := path_handleFrame hLinks hc hData (ans.frames turn) type body
      have hCons := Actions.consistent hPath hLinks
      have hApart := h.path hPath fun a ha => frees_of_handles ha
      have hConns := Inbound.conns (hPath.mono fun _ => inbound_of_handles)
      dsimp only
      rw [apply_handleFrame (h.unlisted hLinks)]
      generalize handleFrame srv c (ans.frames turn) type body = handled at hCons hApart hConns ⊢
      rw [show (r.apply handled).conn = handled.conn from rfl]
      split
      · rw [apply_switchConn hApart hIn hCons]
      rename_i hControl
      split
      · rfl
      · exact ih _ _ hApart hCons (by rw [hConns]; exact hc) (by simpa using hControl)

theorem apply_connRead (h : r.Apart srv) (hIn : r.inbuf = id) (hLinks : srv.links.Consistent)
    (hc : c ∈ srv.conns) (ans : ConnAnswers) :
    connRead (r.apply srv) c ans = r.apply (connRead srv c ans) := by
  have hSame : (r.apply srv).inbuf = srv.inbuf := congrFun hIn srv.inbuf
  have hModIn : ∀ (t : Server) f, (r.apply t).modIn c f = r.apply (t.modIn c f) := by
    intro t f
    unfold Server.modIn
    simp [apply, hIn]
  unfold connRead
  cases ans.read with
  | again => rfl
  | intr => rfl
  | failed => rfl
  | bytes chunk =>
    dsimp only
    split
    · rfl
    unfold handleInbound
    rw [show (r.apply srv).conn = srv.conn from rfl, hSame]
    split
    · exact apply_dataToPty (h.bound hLinks) _ _
    rename_i hControl
    split
    · rfl
    have hStore : storeInbound (r.apply srv) c chunk.bytes = r.apply (storeInbound srv c chunk.bytes) := by
      unfold storeInbound
      rw [show (r.apply srv).conn = srv.conn from rfl, apply_emit, hModIn]
    have hData : (srv.conn c).isData = false := by simpa using hControl
    have hLoop := @apply_frameLoop r (storeInbound srv c chunk.bytes) c hIn ans
      ((storeInbound srv c chunk.bytes).inbuf c).rbuf.length 0 0 h hLinks hc hData
    have hStored : (r.apply (storeInbound srv c chunk.bytes)).inbuf = (storeInbound srv c chunk.bytes).inbuf :=
      congrFun hIn _
    dsimp only
    rw [hStore, hStored, hLoop]
    generalize frameLoop c ans ((storeInbound srv c chunk.bytes).inbuf c).rbuf.length 0
      (storeInbound srv c chunk.bytes) 0 = parsed
    obtain ⟨srv', left⟩ := parsed
    cases left with
    | none => rfl
    | some used =>
      dsimp only
      unfold dropConsumed
      split
      · exact hModIn _ _
      · rfl

theorem apply_connClose (h : r.Apart srv) (hIn : r.inbuf = id) (hLinks : srv.links.Consistent) :
    connClose (r.apply srv) c = r.apply (connClose srv c) := by
  have hRest : ∀ t : Server,
      (({ r.apply t with conns := t.conns.erase c }.emit (.closed c)).modConn c fun _ => .blank).modIn c
          (fun _ => ⟨[], 0⟩) =
        r.apply ((({ t with conns := t.conns.erase c }.emit (.closed c)).modConn c fun _ => .blank).modIn c
          fun _ => ⟨[], 0⟩) := by
    intro t
    simp [apply, Server.emit, Server.modConn, Server.modIn, hIn]
  unfold connClose
  rw [show (r.apply srv).conn = srv.conn from rfl]
  cases hBound : (srv.conn c).session with
  | none => exact hRest srv
  | some t =>
    have ht := h.bound hLinks t hBound
    dsimp only
    rw [sess_apply ht, apply_modSess ht]
    split
    · exact hRest _
    · exact hRest srv

theorem apply_settleConn (h : r.Apart srv) (hIn : r.inbuf = id) (hLinks : srv.links.Consistent)
    (hc : c ∈ srv.conns) : settleConn (r.apply srv) c = r.apply (settleConn srv c) := by
  have hClose : ∀ t : Server, r.Apart t → t.links.Consistent →
      (if ((r.apply t).conn c).wantClose && decide (((r.apply t).conn c).wlen = ((r.apply t).conn c).wpos)
        then connClose (r.apply t) c else r.apply t) =
      r.apply (if (t.conn c).wantClose && decide ((t.conn c).wlen = (t.conn c).wpos)
        then connClose t c else t) := by
    intro t hApart hCons
    rw [show (r.apply t).conn = t.conn from rfl]
    split
    · exact apply_connClose hApart hIn hCons
    · rfl
  unfold settleConn
  rw [show (r.apply srv).conn = srv.conn from rfl]
  dsimp only
  cases hWant : (srv.conn c).wantClose with
  | false => exact hClose (connUpdate srv c) h (consistent_perform (a := .update c) hLinks hc)
  | true => exact hClose srv h hLinks

theorem apply_serveConn (h : r.Apart srv) (hIn : r.inbuf = id) (hLinks : srv.links.Consistent)
    (hc : c ∈ srv.conns) (ev : Events) (ans : ConnAnswers) :
    serveConn (r.apply srv) c ev ans = r.apply (serveConn srv c ev ans) := by
  have hFlush : flushReady (r.apply srv) c ev ans = r.apply (flushReady srv c ev ans) := by
    unfold flushReady
    split
    · exact apply_connFlush _
    · rfl
  have hSame := flushReady_links hc ev ans
  have hApart : r.Apart (flushReady srv c ev ans) := by
    intro s k hCell
    obtain ⟨hDead, hMarked⟩ := h s k hCell
    refine ⟨?_, hMarked⟩
    rw [show (flushReady srv c ev ans).dead = srv.dead from congrArg Links.dead hSame]
    exact hDead
  rw [serveConn_eq, serveConn_eq, hFlush]
  split
  · refine apply_connRead hApart hIn (by rw [hSame]; exact hLinks) ?_ ans
    rw [show (flushReady srv c ev ans).conns = srv.conns from congrArg Links.conns hSame]
    exact hc
  · rfl

theorem apply_dispatchConn (h : r.Apart srv) (hIn : r.inbuf = id) (hLinks : srv.links.Consistent)
    (hc : c ∈ srv.conns) (ev : Events) (ans : ConnAnswers) :
    dispatchConn (r.apply srv) c ev ans = r.apply (dispatchConn srv c ev ans) := by
  obtain ⟨hServe, hConns⟩ := ofConn_serveConn hLinks hc ev ans
  have hApart : r.Apart (serveConn srv c ev ans) :=
    h.path hServe fun a ha => (ofConn_harmless ha (Nat.succ_ne_self c)).1
  rw [dispatchConn_eq, dispatchConn_eq, apply_serveConn h hIn hLinks hc]
  exact apply_settleConn hApart hIn (Actions.consistent hServe hLinks) (by rw [hConns]; exact hc)

theorem apply_noteRead (hs : r.Clear s) (chunk : Chunk) :
    noteRead (r.apply srv) s chunk = r.apply (noteRead srv s chunk) := by
  unfold noteRead
  rw [sess_apply hs]
  exact apply_emit _

theorem apply_ptyOutput (hs : r.Clear s) (chunk : Chunk) (read : PtyRead) :
    ptyOutput (r.apply srv) s chunk read = r.apply (ptyOutput srv s chunk read) := by
  have hRelay : relayOutput (r.apply srv) s chunk read = r.apply (relayOutput srv s chunk read) := by
    unfold relayOutput
    rw [sess_apply hs]
    dsimp only
    rw [apply_modSess hs]
    split
    · rfl
    · exact apply_enqueue _ _ _ _ _
  unfold ptyOutput
  rw [sess_apply hs]
  dsimp only
  rw [hRelay]
  split
  · rfl
  · rw [apply_connFlush, apply_connUpdate]
    exact apply_emit _

theorem apply_clientEof (hs : r.Clear s) (writes : List WriteOutcome) :
    clientEof (r.apply srv) s writes = r.apply (clientEof srv s writes) := by
  have hDrain : ∀ t d, closeAfterDrain (r.apply t) d = r.apply (closeAfterDrain t d) := by
    intro t d
    unfold closeAfterDrain
    dsimp only
    rw [apply_emit, apply_condemn]
    generalize condemn (t.emit (.eof d)) d = noted
    rw [show (r.apply noted).conn = noted.conn from rfl]
    split
    · rw [apply_emit, apply_connUpdate]
    · rw [apply_connUpdate]
  unfold clientEof
  rw [sess_apply hs]
  split
  · rfl
  · rw [apply_connFlush]
    exact hDrain _ _

theorem apply_ptyHangup (h : ∀ t ∈ srv.sessions, r.Clear t) (hs : r.Clear s)
    (writes : List WriteOutcome) :
    ptyHangup (r.apply srv) s writes = r.apply (ptyHangup srv s writes) := by
  unfold ptyHangup
  dsimp only
  rw [apply_emit, apply_closePty hs, sess_apply hs]
  split
  · exact apply_removeSession h hs
  · exact apply_clientEof hs writes

theorem apply_ptyReadLoop (h : r.Apart srv) (hLinks : srv.links.Consistent)
    (hOpen : (srv.sess s).ptyOpen = true) (writes : List WriteOutcome) (reads : List PtyRead) :
    ptyReadLoop s writes reads (r.apply srv) = r.apply (ptyReadLoop s writes reads srv) := by
  induction reads generalizing srv with
  | nil => rfl
  | cons read reads ih =>
    have hHere := (h.unlisted hLinks).listed
    have hs := hHere s (hLinks.open_listed s hOpen)
    unfold ptyReadLoop
    split
    · rename_i chunk _
      split
      · exact apply_ptyHangup hHere hs writes
      · rename_i hData
        have hOutput := output_ptyOutput hLinks hOpen hData read
        have hSame := hOutput.links
        rw [apply_noteRead hs, apply_ptyOutput hs]
        refine ih ?_ (by rw [hSame]; exact hLinks)
          ((congrFun (congrArg Links.ptyOpen hSame) s).trans hOpen)
        exact h.path hOutput fun a ha => (ofPty_harmless (ofPty_of_hears (hears_of_outputs ha)) (d := 0)).1
    · rfl
    · exact ih h hLinks hOpen
    · exact apply_ptyHangup hHere hs writes

theorem apply_dispatchPty (h : r.Apart srv) (hLinks : srv.links.Consistent) (ev : Events)
    (ans : PtyAnswers) : dispatchPty (r.apply srv) s ev ans = r.apply (dispatchPty srv s ev ans) := by
  rcases em (r.Clear s) with hs | hHidden
  · have hFlush : flushPty (r.apply srv) s ev ans = r.apply (flushPty srv s ev ans) := by
      unfold flushPty
      rw [apply_epiSessionFlushInput hs]
      dsimp only
      rw [sess_apply hs, apply_ptyUpdate hs]
      split
      · split <;> rfl
      · rfl
    have hPath := @path_flushPty srv s ev ans
    have hSame := links_of_feeds hPath
    have hApart : r.Apart (flushPty srv s ev ans) :=
      h.path hPath fun a ha => by cases a <;> first | rfl | cases ha
    rw [dispatchPty_eq, dispatchPty_eq, sess_apply hs, hFlush]
    split
    · rfl
    split
    · unfold ptyReadable
      rw [sess_apply hs]
      split
      · rfl
      · rename_i hReadable
        refine apply_ptyReadLoop hApart (by rw [hSame]; exact hLinks) ?_ _ _
        simp_all
    · rfl
  · obtain ⟨k, hCell⟩ := not_forall.mp hHidden
    rw [not_not] at hCell
    obtain ⟨hDead, hMarked⟩ := h s k hCell
    have hHere : (r.apply srv).sess s = k := by
      unfold apply
      rw [hCell]
      exact Function.update_self _ _ _
    rw [dispatchPty_eq, dispatchPty_eq, hHere, if_pos hMarked, if_pos]
    exact hLinks.dead_defunct s hDead

theorem apply_sessionOfPid (h : ∀ t ∈ srv.sessions, r.Clear t) (pid : Nat) :
    sessionOfPid (r.apply srv) pid = sessionOfPid srv pid :=
  List.find?_congr fun t ht => by rw [sess_apply (h t ht)]

theorem apply_markReaped (h : ∀ t ∈ srv.sessions, r.Clear t) (pid status : Nat) (child : SessPtr) :
    markReaped (r.apply srv) pid status child = r.apply (markReaped srv pid status child) := by
  unfold markReaped
  generalize hWaited : ({ srv with children := srv.children.filter fun e => e.1 != pid } : Server).emit
    (.reaped child) = waited
  have hSame : ({ r.apply srv with children := (r.apply srv).children.filter fun e => e.1 != pid } :
      Server).emit (.reaped child) = r.apply waited := by
    rw [← hWaited, ← apply_emit]
    rfl
  have hHere : ∀ t ∈ waited.sessions, r.Clear t := by
    rw [← hWaited]
    exact h
  have hFind := apply_sessionOfPid hHere pid
  unfold sessionOfPid at hFind
  dsimp only
  rw [hSame, hFind]
  split
  · rfl
  · rename_i s hFound
    exact apply_modSess (hHere s (List.mem_of_find?_eq_some hFound)) _

theorem apply_reapChild (h : ∀ t ∈ srv.sessions, r.Clear t) (pid status : Nat) :
    reapChild (r.apply srv) pid status = r.apply (reapChild srv pid status) := by
  cases hChild : srv.childOf pid with
  | none =>
    have hSame : (r.apply srv).childOf pid = none := hChild
    simp only [reapChild, hChild, hSame]
  | some child =>
    have hSessions : (markReaped srv pid status child).sessions = srv.sessions := by rw [markReaped_eq]
    rw [reapChild_eq status hChild, @reapChild_eq (r.apply srv) pid child status hChild, apply_markReaped h,
      apply_sessionOfPid h]
    cases hOwner : sessionOfPid srv pid with
    | none => rfl
    | some s =>
      have hs := h s (List.mem_of_find?_eq_some hOwner)
      dsimp only
      rw [sess_apply hs]
      split
      · refine apply_removeSession ?_ hs
        rw [hSessions]
        exact h
      · rfl

theorem apply_reapChildren (h : r.Apart srv) (hLinks : srv.links.Consistent) (waits : List (Nat × Nat)) :
    reapChildren waits (r.apply srv) = r.apply (reapChildren waits srv) := by
  induction waits generalizing srv with
  | nil => rfl
  | cons wait waits ih =>
    have hTurn := @ofSignal_reapChild srv wait.1 wait.2
    rw [reapChildren, reapChildren, apply_reapChild (h.unlisted hLinks).listed]
    exact ih (h.path hTurn fun a ha => (ofSignal_harmless ha (d := 0)).1) (Actions.consistent hTurn hLinks)

theorem apply_handleSignalfd (h : r.Apart srv) (hLinks : srv.links.Consistent)
    (reads : List SignalRead) : handleSignalfd (r.apply srv) reads = r.apply (handleSignalfd srv reads) := by
  induction reads generalizing srv with
  | nil => rfl
  | cons read reads ih =>
    cases read with
    | chld waits =>
      have hReap := @ofSignal_reapChildren srv waits
      rw [handleSignalfd, handleSignalfd, apply_reapChildren h hLinks]
      exact ih (h.path hReap fun a ha => (ofSignal_harmless ha (d := 0)).1) (Actions.consistent hReap hLinks)
    | term => rfl
    | other => exact ih h hLinks

theorem apply_acceptConn (h : r.Apart srv) (hIn : r.inbuf = id) (hLinks : srv.links.Consistent)
    (outcomes : List AcceptOutcome) : acceptConn (r.apply srv) outcomes = r.apply (acceptConn srv outcomes) := by
  induction outcomes generalizing srv with
  | nil => rfl
  | cons outcome outcomes ih =>
    cases outcome with
    | accepted alloc added =>
      cases alloc with
      | false => exact ih h hLinks
      | true =>
        have hOpen : openConn (r.apply srv) = r.apply (openConn srv) := by
          simp [openConn, apply, Server.modConn, Server.modIn, hIn]
        have hListed : srv.nextConn ∈ (openConn srv).conns := List.mem_cons_self
        have hFresh : (openConn srv).conn srv.nextConn = .blank := by
          simp [openConn, Server.modConn, Server.modIn]
        have hCons : (openConn srv).links.Consistent := consistent_perform (a := .openConn) hLinks trivial
        rw [acceptConn, acceptConn, hOpen]
        cases added with
        | true =>
          exact @ih (watchConn (openConn srv) srv.nextConn) h
            (consistent_perform (a := .watchConn _) hCons ⟨hListed, by rw [hFresh]; rfl⟩)
        | false =>
          simp only [Bool.false_eq_true, ↓reduceIte]
          rw [show (r.apply srv).nextConn = srv.nextConn from rfl,
            @apply_connClose r (openConn srv) srv.nextConn h hIn hCons]
          refine ih ?_ (consistent_perform (a := .close _) hCons ⟨hListed, by rw [hFresh]; rfl⟩)
          rw [connClose_eq]
          exact h
    | intr => exact ih h hLinks
    | failed => rfl

theorem apply_dispatchReady (h : r.Apart srv) (hIn : r.inbuf = id) (hLinks : srv.links.Consistent)
    {ready : Ready} (hReady : ready.Allocated srv) (ans : Answers) :
    dispatchReady (r.apply srv) ready ans = (dispatchReady srv ready ans).map r.apply := by
  cases ready with
  | listen =>
    cases ans with
    | listen outcomes => exact congrArg some (apply_acceptConn h hIn hLinks outcomes)
    | _ => rfl
  | signal =>
    cases ans with
    | signal reads => exact congrArg some (apply_handleSignalfd h hLinks reads)
    | _ => rfl
  | pty s ev =>
    cases ans with
    | pty ans => exact congrArg some (apply_dispatchPty h hLinks ev ans)
    | _ => rfl
  | conn c ev =>
    cases ans with
    | conn ans => exact congrArg some (apply_dispatchConn h hIn hLinks hReady ev ans)
    | _ => rfl

end Events

end Recast

/-- The session is used, other than by its free. -/
def Effect.uses (s : SessPtr) : Effect → Bool
  | .forked t .. | .created t _ | .killed t _ | .ptyRead t _ _ | .ptyWrote t _ | .ptyHangup t | .ptyClosed t
  | .winsize t _ _ | .input t _ _ | .attached _ t _ _ | .detached _ t | .groupJoined _ t | .groupLeft _ t =>
    t == s
  | _ => false

section Actions

variable {srv : Server} {s : SessPtr} {a : Act}

theorem uses_effects (hLinks : srv.links.Consistent) (hs : s ∈ srv.dead) (hGuard : a.guard srv) :
    ∀ e ∈ a.effects srv, e.uses s = false := by
  have hListed : ∀ t ∈ srv.sessions, t ≠ s := by
    rintro t ht rfl
    exact hLinks.disjoint t ht hs
  have hOpen : ∀ t, (srv.sess t).ptyOpen = true → t ≠ s := fun t ht => hListed t (hLinks.open_listed t ht)
  have hBound : ∀ c t, (srv.conn c).session = some t → t ≠ s :=
    fun c t ht => hListed t (hLinks.bound_listed c t ht)
  have hNext : srv.nextSess ≠ s := (Nat.ne_of_lt (hLinks.dead_lt s hs)).symm
  intro e he
  cases a with
  | attach c t ans =>
    have hNe := hListed t hGuard.2.2.1
    simp only [Act.effects, attachEffects, List.mem_append, List.mem_cons] at he
    rcases he with hReply | rfl | hReplay
    · simp only [mem_frameEffects, mem_enqueueEffects] at hReply
      rcases hReply with ⟨_, rfl⟩ | ⟨_, _, rfl | ⟨_, rfl⟩⟩ <;> rfl
    · simpa [Effect.uses] using hNe
    · simp only [mem_replayEffects, mem_enqueueEffects] at hReplay
      rcases hReplay with ⟨_, _, _, rfl | ⟨_, rfl⟩⟩ | ⟨_, _, rfl⟩ <;> rfl
  | unbind t c =>
    have hNe := hBound c t ((hLinks.paired c t).mpr hGuard)
    simp [Act.effects] at he
    rcases he with rfl | rfl <;> simp [Effect.uses, hNe]
  | closePty t | ptyHangup t =>
    have hNe := hOpen t hGuard
    simp [Act.effects] at he
    simp [he, Effect.uses, hNe]
  | writePin t data left =>
    have hNe := hOpen t hGuard
    simp [Act.effects] at he
    simp [he, Effect.uses, hNe]
  | read t chunk ringAlloc =>
    have hNe := hOpen t hGuard.1
    simp [Act.effects] at he
    simp [he, Effect.uses, hNe]
  | relay t c chunk ringAlloc alloc =>
    have hNe := hOpen t hGuard.1
    simp only [Act.effects, List.mem_cons, mem_enqueueEffects] at he
    rcases he with rfl | ⟨_, rfl | ⟨_, rfl⟩⟩
    · simpa [Effect.uses] using hNe
    · rfl
    · rfl
  | unlink t =>
    have hNe := hListed t hGuard.1
    simp only [Act.effects, List.mem_append, mem_leftEffects, mem_goneEffects] at he
    rcases he with ⟨_, _, rfl⟩ | ⟨_, rfl⟩
    · simpa [Effect.uses] using hNe
    · rfl
  | kill t clock =>
    have hNe := hListed t hGuard.1
    simp only [Act.effects, List.mem_cons, List.mem_append, mem_leftEffects, mem_goneEffects] at he
    rcases he with rfl | ⟨_, _, rfl⟩ | ⟨_, rfl⟩
    · simpa [Effect.uses] using hNe
    · simpa [Effect.uses] using hNe
    · rfl
  | move t gid =>
    have hNe := hListed t hGuard.1
    simp only [Act.effects, mem_moveEffects, mem_leftEffects, mem_goneEffects] at he
    rcases he with ⟨_, ⟨_, rfl⟩ | ⟨_, _, rfl⟩ | ⟨_, rfl⟩⟩
    · simpa [Effect.uses] using hNe
    · simpa [Effect.uses] using hNe
    · rfl
  | fork => simp_all [Act.effects, Effect.uses]
  | create =>
    simp [Act.effects] at he
    rcases he with rfl | rfl <;> simp [Effect.uses, hNext]
  | winsize t rows cols =>
    have hNe := hListed t hGuard
    simp [Act.effects] at he
    simp [he, Effect.uses, hNe]
  | input t c data =>
    have hNe := hBound c t hGuard.2
    simp [Act.effects] at he
    simp [he, Effect.uses, hNe]
  | queue c data alloc =>
    simp only [Act.effects, mem_enqueueEffects] at he
    rcases he with ⟨_, rfl | ⟨_, rfl⟩⟩ <;> rfl
  | escalate t =>
    simp only [Act.effects, mem_killEffects] at he
    obtain ⟨_, _, rfl⟩ := he
    rfl
  | update | watchPty | setBlob | consume | freeInbound | condemn | setPin | updatePty | reset | stop
    | openConn | watchConn => cases he
  | _ =>
    simp only [Act.effects, List.mem_cons, List.not_mem_nil, or_false] at he
    subst he
    rfl

theorem dead_path {srv' : Server} (hLinks : srv.links.Consistent) (hs : s ∈ srv.dead)
    (h : actions.Path (fun a => a.frees = false) srv srv') :
    s ∈ srv'.dead ∧ ∃ es, srv'.trace = srv.trace ++ es ∧ ∀ e ∈ es, e.uses s = false := by
  induction h with
  | refl => exact ⟨hs, [], (List.append_nil _).symm, fun e he => (nomatch he)⟩
  | @step mid a before hGuard hKeep ih =>
    obtain ⟨hDead, es, hTrace, hUnused⟩ := ih
    have hCons := Actions.consistent before hLinks
    refine ⟨?_, es ++ a.effects mid, ?_, ?_⟩
    · have hSame : (a.perform mid).dead = (a.relink mid.links).dead :=
        congrArg Links.dead (links_perform hGuard)
      change s ∈ (a.perform mid).dead
      rw [hSame]
      cases a with
      | unlink u => exact List.mem_cons_of_mem _ hDead
      | free u rest => cases hKeep
      | _ => exact hDead
    · exact (trace_perform _ a).trans (by rw [hTrace, List.append_assoc])
    · intro e he
      exact (List.mem_append.mp he).elim (hUnused e) (uses_effects hCons hDead hGuard e)

end Actions

def Effect.creates (s : SessPtr) : Effect → Bool
  | .created t _ => t == s
  | _ => false

def creations (s : SessPtr) (history : List Effect) : Nat := history.countP (Effect.creates s)

/-- A session that was created is in one place, and its PTY is open or was closed once. -/
structure Server.Tallied (srv : Server) : Prop where
  places : ∀ s, srv.sessions.count s + srv.dead.count s + srv.trace.count (.freed s) =
    creations s srv.trace
  masters : ∀ s, (srv.sess s).ptyOpen.toNat + srv.trace.count (.ptyClosed s) = creations s srv.trace
  once : ∀ s, creations s srv.trace ≤ 1
  fresh : ∀ s, srv.nextSess ≤ s → creations s srv.trace = 0

section Tally

variable {srv : Server} {s : SessPtr} {a : Act}

theorem creations_perform (s : SessPtr) :
    creations s (a.perform srv).trace = creations s srv.trace + creations s (a.effects srv) := by
  rw [trace_perform, creations, List.countP_append]
  rfl

theorem count_perform (e : Effect) :
    (a.perform srv).trace.count e = srv.trace.count e + (a.effects srv).count e := by
  rw [trace_perform, List.count_append]

theorem born_mem_effects {id : Nat} (h : .created s id ∈ a.effects srv) :
    ∃ pid cwd argv env exec k, a = .create pid cwd argv env exec k ∧ s = srv.nextSess := by
  cases a <;> simp [Act.effects, attachEffects] at h
  exact ⟨_, _, _, _, _, _, rfl, h.1⟩

theorem ptyClosed_mem_effects (h : .ptyClosed s ∈ a.effects srv) : a = .closePty s := by
  cases a <;> simp [Act.effects, attachEffects] at h
  rw [h]

theorem creations_effects (h : ∀ pid cwd argv env exec k, a ≠ .create pid cwd argv env exec k) (s : SessPtr) :
    creations s (a.effects srv) = 0 := by
  refine List.countP_eq_zero.mpr fun e he hMade => ?_
  cases e with
  | created t id =>
    obtain ⟨pid, cwd, argv, env, exec, k, hCreate, _⟩ := born_mem_effects he
    exact h pid cwd argv env exec k hCreate
  | _ => cases hMade

theorem freed_effects (h : ∀ rest, a ≠ .free s rest) : (a.effects srv).count (.freed s) = 0 := by
  refine List.count_eq_zero.mpr fun hFreed => ?_
  obtain ⟨rest, hFree⟩ := freed_mem_effects hFreed
  exact h rest hFree

theorem ptyClosed_effects (h : a ≠ .closePty s) : (a.effects srv).count (.ptyClosed s) = 0 :=
  List.count_eq_zero.mpr fun hClosed => h (ptyClosed_mem_effects hClosed)

theorem tallied_of_links (hGuard : a.guard srv) :
    (a.perform srv).sessions = (a.relink srv.links).sessions ∧
      (a.perform srv).dead = (a.relink srv.links).dead ∧
      (a.perform srv).nextSess = (a.relink srv.links).nextSess ∧
      ∀ s, ((a.perform srv).sess s).ptyOpen = (a.relink srv.links).ptyOpen s := by
  have hRelink := links_perform hGuard
  exact ⟨congrArg Links.sessions hRelink, congrArg Links.dead hRelink, congrArg Links.nextSess hRelink,
    fun s => congrFun (congrArg Links.ptyOpen hRelink) s⟩

theorem tallied_of_idle (hGuard : a.guard srv) (h : srv.Tallied)
    (hCreate : ∀ pid cwd argv env exec k, a ≠ .create pid cwd argv env exec k)
    (hFree : ∀ s rest, a ≠ .free s rest) (hClose : ∀ s, a ≠ .closePty s)
    (hLists : (a.relink srv.links).sessions = srv.sessions ∧ (a.relink srv.links).dead = srv.dead ∧
      srv.nextSess ≤ (a.relink srv.links).nextSess ∧ (a.relink srv.links).ptyOpen = srv.links.ptyOpen) :
    (a.perform srv).Tallied := by
  obtain ⟨hSessions, hDead, hNext, hOpen⟩ := tallied_of_links hGuard
  obtain ⟨hSessions', hDead', hNext', hOpen'⟩ := hLists
  have hMade : ∀ s, creations s (a.perform srv).trace = creations s srv.trace := by
    intro s
    rw [creations_perform, creations_effects hCreate, Nat.add_zero]
  constructor
  · intro s
    rw [hMade, count_perform, freed_effects (hFree s), hSessions, hDead, hSessions', hDead']
    exact h.places s
  · intro s
    rw [hMade, count_perform, ptyClosed_effects (hClose s), hOpen, hOpen']
    exact h.masters s
  · intro s
    rw [hMade]
    exact h.once s
  · intro s hs
    rw [hMade]
    exact h.fresh s (hNext'.trans (hNext ▸ hs))

theorem tallied_create (h : srv.Tallied) {pid : Nat} {cwd : Option Bytes} {argv : List Bytes}
    {env : Option (List Bytes)} {exec : Option Bytes} {k : Session}
    (hGuard : (Act.create pid cwd argv env exec k).guard srv) :
    ((Act.create pid cwd argv env exec k).perform srv).Tallied := by
  obtain ⟨hSessions, hDead, hNext, hOpen⟩ := tallied_of_links hGuard
  have hMade : ∀ s, creations s ((Act.create pid cwd argv env exec k).perform srv).trace =
      creations s srv.trace + if srv.nextSess = s then 1 else 0 := by
    intro s
    rw [creations_perform]
    simp [creations, Act.effects, Effect.creates, List.countP_cons]
  have hNew := h.fresh srv.nextSess (Nat.le_refl _)
  constructor
  · intro s
    have hBefore := h.places s
    have hCons : ((Act.create pid cwd argv env exec k).perform srv).sessions.count s =
        srv.sessions.count s + if srv.nextSess = s then 1 else 0 := by
      rw [hSessions]
      simp [Act.relink, Links.create, Server.links, List.count_cons]
    rw [hMade, count_perform, freed_effects (by simp), hCons, hDead]
    change srv.sessions.count s + _ + srv.dead.count s + _ = _
    omega
  · intro s
    have hBefore := h.masters s
    rw [hMade, count_perform, ptyClosed_effects (by simp), hOpen]
    simp only [Act.relink, Links.create, Function.update_apply]
    change (if s = srv.nextSess then true else (srv.sess s).ptyOpen).toNat + _ = _
    rcases eq_or_ne s srv.nextSess with rfl | hNe
    · rw [if_pos rfl, if_pos rfl]
      have hTrue : Bool.toNat true = 1 := rfl
      omega
    · rw [if_neg hNe, if_neg hNe.symm]
      exact hBefore
  · intro s
    rw [hMade]
    have hBefore := h.once s
    split
    · rename_i hSame
      rw [← hSame, hNew]
    · exact hBefore
  · intro s hs
    rw [hNext] at hs
    have hLt : srv.nextSess < s := hs
    rw [hMade, if_neg (Nat.ne_of_lt hLt), Nat.add_zero]
    exact h.fresh s (Nat.le_of_lt hLt)

theorem tallied_unlink (h : srv.Tallied) {u : SessPtr} (hGuard : (Act.unlink u).guard srv) :
    ((Act.unlink u).perform srv).Tallied := by
  obtain ⟨hSessions, hDead, hNext, hOpen⟩ := tallied_of_links hGuard
  have hMade : ∀ s, creations s ((Act.unlink u).perform srv).trace = creations s srv.trace := by
    intro s
    rw [creations_perform, creations_effects (by simp), Nat.add_zero]
  constructor
  · intro s
    have hBefore := h.places s
    rw [hMade, count_perform, freed_effects (by simp), hSessions, hDead]
    change (srv.sessions.erase u).count s + (u :: srv.dead).count s + _ = _
    rcases eq_or_ne u s with rfl | hNe
    · have hOne := List.count_pos_iff.mpr hGuard.1
      rw [List.count_erase_self, List.count_cons_self]
      omega
    · rw [List.count_erase_of_ne hNe.symm, List.count_cons_of_ne hNe]
      exact hBefore
  · intro s
    rw [hMade, count_perform, ptyClosed_effects (by simp), hOpen]
    exact h.masters s
  · intro s
    rw [hMade]
    exact h.once s
  · intro s hs
    rw [hNext] at hs
    rw [hMade]
    exact h.fresh s hs

theorem tallied_free (hLinks : srv.links.Consistent) (h : srv.Tallied) {u : SessPtr}
    {rest : List SessPtr} (hGuard : (Act.free u rest).guard srv) :
    ((Act.free u rest).perform srv).Tallied := by
  obtain ⟨hSessions, hDead, hNext, hOpen⟩ := tallied_of_links hGuard
  have hFirst : srv.dead = u :: rest := hGuard
  have hShut : srv.links.ptyOpen u = false := by
    cases hPty : srv.links.ptyOpen u with
    | false => rfl
    | true =>
      refine absurd ?_ (hLinks.disjoint u (hLinks.open_listed u hPty))
      rw [show srv.links.dead = u :: rest from hGuard]
      exact List.mem_cons_self
  have hMade : ∀ s, creations s ((Act.free u rest).perform srv).trace = creations s srv.trace := by
    intro s
    rw [creations_perform, creations_effects (by simp), Nat.add_zero]
  constructor
  · intro s
    have hBefore := h.places s
    rw [hFirst, List.count_cons] at hBefore
    have hFreed : ((Act.free u rest).effects srv).count (.freed s) = if u = s then 1 else 0 := by
      simp [Act.effects, List.count_cons]
    rw [hMade, count_perform, hFreed, hSessions, hDead]
    change srv.sessions.count s + rest.count s + _ = _
    simp only [beq_iff_eq] at hBefore
    omega
  · intro s
    rw [hMade, count_perform, ptyClosed_effects (by simp), hOpen]
    simp only [Act.relink, Links.free, Function.update_apply]
    have hBefore := h.masters s
    split
    · rename_i hSame
      rw [hSame] at hBefore ⊢
      rw [show ((srv.sess u).ptyOpen) = false from hShut] at hBefore
      exact hBefore
    · exact hBefore
  · intro s
    rw [hMade]
    exact h.once s
  · intro s hs
    rw [hNext] at hs
    rw [hMade]
    exact h.fresh s hs

theorem tallied_closePty (h : srv.Tallied) {u : SessPtr} (hGuard : (Act.closePty u).guard srv) :
    ((Act.closePty u).perform srv).Tallied := by
  obtain ⟨hSessions, hDead, hNext, hOpen⟩ := tallied_of_links hGuard
  have hMade : ∀ s, creations s ((Act.closePty u).perform srv).trace = creations s srv.trace := by
    intro s
    rw [creations_perform, creations_effects (by simp), Nat.add_zero]
  constructor
  · intro s
    rw [hMade, count_perform, freed_effects (by simp), hSessions, hDead]
    exact h.places s
  · intro s
    have hBefore := h.masters s
    have hClosed : ((Act.closePty u).effects srv).count (.ptyClosed s) = if u = s then 1 else 0 := by
      simp [Act.effects, List.count_cons]
    rw [hMade, count_perform, hClosed, hOpen]
    simp only [Act.relink, Links.closePty, Function.update_apply]
    rcases eq_or_ne s u with rfl | hNe
    · rw [show (srv.sess s).ptyOpen = true from hGuard] at hBefore
      have hTrue : Bool.toNat true = 1 := rfl
      have hFalse : Bool.toNat false = 0 := rfl
      rw [if_pos rfl, if_pos rfl]
      omega
    · rw [if_neg hNe, if_neg hNe.symm]
      exact hBefore
  · intro s
    rw [hMade]
    exact h.once s
  · intro s hs
    rw [hNext] at hs
    rw [hMade]
    exact h.fresh s hs

theorem tallied_perform (hLinks : srv.links.Consistent) (h : srv.Tallied) (hGuard : a.guard srv) :
    (a.perform srv).Tallied := by
  cases a with
  | create pid cwd argv env exec k => exact tallied_create h hGuard
  | unlink u => exact tallied_unlink h hGuard
  | free u rest => exact tallied_free hLinks h hGuard
  | closePty u => exact tallied_closePty h hGuard
  | fork => exact tallied_of_idle hGuard h (by simp) (by simp) (by simp) ⟨rfl, rfl, Nat.le_succ _, rfl⟩
  | _ => exact tallied_of_idle hGuard h (by simp) (by simp) (by simp) ⟨rfl, rfl, Nat.le_refl _, rfl⟩

theorem Reached.tallied {instanceId : Nat} (h : Reached instanceId srv) : srv.Tallied :=
  Reached.invariant (by constructor <;> simp [Server.initial, creations, Session.blank])
    (fun _ _ => tallied_perform) h

theorem shut_of_dead (hLinks : srv.links.Consistent) (hs : s ∈ srv.dead) :
    (srv.sess s).ptyOpen = false := by
  cases hOpen : (srv.sess s).ptyOpen with
  | false => rfl
  | true => exact absurd hs (hLinks.disjoint s (hLinks.open_listed s hOpen))

/-- The walks of reap_children move sessions from the list to the dead chain, and break off nothing else. -/
theorem reapChildren_moves (hLinks : srv.links.Consistent) (waits : List (Nat × Nat)) :
    ∃ gone, (reapChildren waits srv).dead = gone ++ srv.dead ∧
      (reapChildren waits srv).sessions = srv.sessions.filter fun s => s ∉ gone := by
  have hPath := @ofSignal_reapChildren srv waits
  suffices hAll : (reapChildren waits srv).links.Consistent ∧
      ∃ gone, (reapChildren waits srv).dead = gone ++ srv.dead ∧
        (reapChildren waits srv).sessions = srv.sessions.filter fun s => s ∉ gone from hAll.2
  refine Actions.Path.invariant (P := fun t => t.links.Consistent ∧ ∃ gone, t.dead = gone ++ srv.dead ∧
    t.sessions = srv.sessions.filter fun s => s ∉ gone) ?_ hPath ⟨hLinks, [], rfl, by simp⟩
  rintro t a ⟨hCons, gone, hDead, hSessions⟩ hGuard hSignal
  refine ⟨consistent_perform hCons hGuard, ?_⟩
  obtain ⟨hSessions', hDead', _, _⟩ := tallied_of_links hGuard
  change ∃ gone', (a.perform t).dead = _ ∧ (a.perform t).sessions = _
  rw [hSessions', hDead']
  cases a with
  | unlink u =>
    refine ⟨u :: gone, by simpa [Act.relink, Links.unlink, Server.links] using hDead, ?_⟩
    change t.sessions.erase u = _
    have hNodup : t.sessions.Nodup := hCons.sessions_nodup
    rw [hNodup.erase_eq_filter, hSessions, List.filter_filter]
    refine List.filter_congr fun s _ => ?_
    rw [Bool.eq_iff_iff]
    simp
  | reap | unbind | closePty | stop => exact ⟨gone, hDead, hSessions⟩
  | _ => cases hSignal

end Tally

section Main

variable {srv : Server}

theorem creations_of_created {s : SessPtr} {id : Nat} (h : srv.Tallied) (hMade : .created s id ∈ srv.trace) :
    creations s srv.trace = 1 := by
  have hSome : 0 < creations s srv.trace :=
    List.countP_pos_iff.mpr ⟨_, hMade, beq_self_eq_true s⟩
  exact Nat.le_antisymm (h.once s) hSome

theorem count_shutdown (s : SessPtr) :
    (shutdownEffects srv).count (.freed s) = srv.sessions.count s + srv.dead.count s ∧
      (shutdownEffects srv).count (.ptyClosed s) = if (srv.sess s).ptyOpen then srv.sessions.count s else 0 := by
  have hHung : ∀ e : Effect, (∀ child pid sig, e ≠ .signal child pid sig) →
      (hangups srv srv.sessions).count e = 0 := by
    intro e hOther
    refine List.count_eq_zero.mpr fun hIn => ?_
    obtain ⟨t, _, rfl⟩ := List.mem_map.mp hIn
    exact hOther _ _ _ rfl
  have hClosed : ∀ e : Effect, (∀ c, e ≠ .closed c) → (srv.conns.map Effect.closed).count e = 0 := by
    intro e hOther
    refine List.count_eq_zero.mpr fun hIn => ?_
    obtain ⟨c, _, rfl⟩ := List.mem_map.mp hIn
    exact hOther _ rfl
  have hFreed : ∀ l : List SessPtr, (l.map Effect.freed).count (.freed s) = l.count s := fun l =>
    List.count_map_of_injective l _ (fun _ _ h => Effect.freed.inj h) s
  have hNone : ∀ l : List SessPtr, (l.map Effect.freed).count (.ptyClosed s) = 0 := by
    intro l
    refine List.count_eq_zero.mpr fun hIn => ?_
    obtain ⟨t, _, hSame⟩ := List.mem_map.mp hIn
    cases hSame
  have hDropped : ∀ l : List SessPtr, (l.flatMap (freeEffects srv)).count (.freed s) = l.count s ∧
      (l.flatMap (freeEffects srv)).count (.ptyClosed s) = if (srv.sess s).ptyOpen then l.count s else 0 := by
    intro l
    induction l with
    | nil => simp
    | cons t l ih =>
      rw [List.flatMap_cons, List.count_append, List.count_append, ih.1, ih.2, List.count_cons]
      rcases eq_or_ne t s with rfl | hNe
      · cases hOpen : (srv.sess t).ptyOpen <;> simp [freeEffects, hOpen, Nat.add_comm]
      · cases hOpen : (srv.sess t).ptyOpen <;> simp [freeEffects, hOpen, hNe]
  constructor
  · rw [shutdownEffects, List.count_append, List.count_append, List.count_append, hHung _ (by simp),
      hClosed _ (by simp), (hDropped _).1, hFreed]
    omega
  · rw [shutdownEffects, List.count_append, List.count_append, List.count_append, hHung _ (by simp),
      hClosed _ (by simp), (hDropped _).2, hNone]
    omega

/-- After the shutdown every session that was ever created is freed, once, and its PTY closed, once. -/
theorem shutdown_tally (hKin : srv.Kin) (hLinks : srv.links.Consistent) (h : srv.Tallied) {s : SessPtr}
    {id : Nat} (hMade : .created s id ∈ srv.trace) :
    (epiServerShutdown srv).trace.count (.freed s) = 1 ∧
      (epiServerShutdown srv).trace.count (.ptyClosed s) = 1 := by
  obtain ⟨hFreed, hClosed⟩ := @count_shutdown srv s
  have hOne := creations_of_created h hMade
  have hPlaces := h.places s
  have hMasters := h.masters s
  rw [epiServerShutdown_trace hKin hLinks.sessions_nodup, List.count_append, List.count_append, hFreed,
    hClosed]
  refine ⟨by omega, ?_⟩
  cases hOpen : (srv.sess s).ptyOpen with
  | false =>
    rw [hOpen] at hMasters
    simpa using hMasters.trans hOne
  | true =>
    have hListed : srv.sessions.count s = 1 :=
      List.count_eq_one_of_mem hLinks.sessions_nodup (hLinks.open_listed s hOpen)
    rw [hOpen, hOne] at hMasters
    have hTrue : Bool.toNat true = 1 := rfl
    rw [if_pos rfl, hListed]
    omega

/-- A removed session is freed once, at the end of the batch, and until then nothing looks at it. -/
theorem deferred_free_exact {instanceId : Nat} {inputs : List Input} {loop : Loop}
    (h : (machine instanceId).run inputs = some loop) :
    (∀ s id, .created s id ∈ loop.srv.trace →
      loop.srv.sessions.count s + loop.srv.dead.count s + loop.srv.trace.count (.freed s) = 1 ∧
      (loop.srv.sess s).ptyOpen.toNat + loop.srv.trace.count (.ptyClosed s) = 1 ∧
      (epiServerShutdown loop.srv).trace.count (.freed s) = 1 ∧
      (epiServerShutdown loop.srv).trace.count (.ptyClosed s) = 1) ∧
    (∀ s ∈ loop.srv.dead, (loop.srv.sess s).ptyOpen = false) ∧
    (∀ s ∈ loop.srv.dead, ∀ ready ∈ loop.pending, ∀ ans srv', dispatchReady loop.srv ready ans = some srv' →
      s ∈ srv'.dead ∧ srv'.sess s = loop.srv.sess s ∧
      (∃ es, srv'.trace = loop.srv.trace ++ es ∧ ∀ e ∈ es, e.uses s = false) ∧
      ∀ k, k.defunct = true →
        dispatchReady { loop.srv with sess := Function.update loop.srv.sess s k } ready ans =
          some { srv' with sess := Function.update srv'.sess s k }) ∧
    ∀ waits, ∃ gone, (reapChildren waits loop.srv).dead = gone ++ loop.srv.dead ∧
      (reapChildren waits loop.srv).sessions = loop.srv.sessions.filter fun s => s ∉ gone := by
  have hSound := run_sound h
  have hLinks := hSound.consistent
  have hReached := reached_of_run h
  have hTally := hReached.tallied
  refine ⟨?_, fun s hs => shut_of_dead hLinks hs, ?_, fun waits => reapChildren_moves hLinks waits⟩
  · intro s id hMade
    have hOne := creations_of_created hTally hMade
    exact ⟨(hTally.places s).trans hOne, (hTally.masters s).trans hOne,
      shutdown_tally hReached.kin hLinks hTally hMade⟩
  · intro s hs ready hReady ans srv' hDispatch
    have hAllocated := hSound.allocated ready hReady
    obtain ⟨hDead, hTrace⟩ := dead_path hLinks hs (dispatchReady_path hLinks hAllocated hDispatch)
    have hHide : ∀ k, k.defunct = true →
        dispatchReady ((Recast.hide s k).apply loop.srv) ready ans = some ((Recast.hide s k).apply srv') := by
      intro k hMarked
      rw [Recast.apply_dispatchReady (Recast.apart_hide hs hMarked) rfl hLinks hAllocated, hDispatch]
      rfl
    refine ⟨hDead, ?_, hTrace, hHide⟩
    have hSame := hHide (loop.srv.sess s) (hLinks.dead_defunct s hs)
    have hNothing : (Recast.hide s (loop.srv.sess s)).apply loop.srv = loop.srv := by
      simp [Recast.apply, Recast.hide, written]
    rw [hNothing, hDispatch] at hSame
    have hCell := congrArg (fun t : Server => t.sess s) (Option.some.inj hSame)
    simpa [Recast.apply, Recast.hide, written] using hCell

/-- A killed session is removed by the first event of a batch, and the second still points to it. -/
def removing : List Input :=
  killing [.wait onTime [.signal, .pty 0 hungUp], .dispatch (.signal [.chld [(100, 0)]])]

theorem deferred_free_exact_removing :
    ∃ loop, (machine 7).run removing = some loop ∧ 0 ∈ loop.srv.dead ∧ .pty 0 hungUp ∈ loop.pending ∧
      ∀ ans srv', dispatchReady loop.srv (.pty 0 hungUp) ans = some srv' →
        srv'.sess 0 = loop.srv.sess 0 := by
  have hRun : ((machine 7).run removing).any fun loop =>
      loop.srv.dead.contains 0 && loop.pending.contains (.pty 0 hungUp) := by decide +kernel
  obtain ⟨loop, hLoop, hHere⟩ := (machine 7).exists_of_run_any hRun
  obtain ⟨hDead, hPending⟩ : 0 ∈ loop.srv.dead ∧ .pty 0 hungUp ∈ loop.pending := by simpa using hHere
  refine ⟨loop, hLoop, hDead, hPending, fun ans srv' hDispatch => ?_⟩
  exact ((deferred_free_exact hLoop).2.2.1 0 hDead _ hPending ans srv' hDispatch).2.1

end Main

end Epimone.Daemon
