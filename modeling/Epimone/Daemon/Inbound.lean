import Epimone.Daemon.Changes
import Epimone.Daemon.Runs

/-! # The inbound buffer

conn_read looks at the size of a frame before it waits for it, so a peer cannot
make the daemon store more than one frame and one chunk. After a framing error
the offending frame stays in the buffer and want_close is set, but conn_read
does not look at want_close: the next chunk is stored behind the frame and the
frame is refused again.
-/
set_option autoImplicit false

namespace Epimone.Daemon

open Transition Framing

/-- The frame at the front of the buffer is refused. -/
def Effect.refuses (c : ConnPtr) : Effect → Bool
  | .framingError d _ _ => d == c
  | _ => false

/-- A piece of output is now in the outbound buffer. -/
def Effect.queues (c : ConnPtr) : Effect → Bool
  | .enqueued d q => d == c && !q.failed
  | _ => false

/-- How many replies to short or oversized frames have been queued. -/
def framingReplies (c : ConnPtr) (history : List Effect) : Nat :=
  (history.zip history.tail).countP fun e => e.1.refuses c && e.2.queues c

def refusals (c : ConnPtr) (history : List Effect) : Nat := history.countP (Effect.refuses c)

structure Server.InboundBounded (srv : Server) : Prop where
  buffer : ∀ c ∈ srv.conns, (srv.conn c).isData = false →
    (srv.inbuf c).rbuf.length ≤ 4 + maxFrame + ptyReadChunk
  replies : ∀ c, framingReplies c srv.trace ≤ 1

/-- No control connection is read from once it is marked want_close. -/
def readOpen : Effect → Bool
  | .received _ _ condemned => !condemned
  | _ => true

/-- What is known of the inbound side of a connection between two events. -/
structure Server.Filed (srv : Server) (c : ConnPtr) : Prop where
  once : refusals c srv.trace ≤ 1
  fresh : srv.nextConn ≤ c → refusals c srv.trace = 0
  bounded : c ∈ srv.conns → (srv.conn c).isData = false →
    (srv.inbuf c).rbuf.length ≤ 4 + maxFrame + ptyReadChunk
  parsed : c ∈ srv.conns → (srv.conn c).isData = false → (srv.conn c).wantClose = false →
    readFrame (srv.inbuf c).rbuf = .more ∧ refusals c srv.trace = 0

theorem framingReplies_le (c : ConnPtr) (history : List Effect) :
    framingReplies c history ≤ refusals c history := by
  calc
    framingReplies c history ≤ (history.zip history.tail).countP (Effect.refuses c ∘ Prod.fst) := by
      apply List.countP_mono_left
      intro e _ hBoth
      exact (Bool.and_eq_true_iff.mp hBoth).1
    _ = ((history.zip history.tail).map Prod.fst).countP (Effect.refuses c) := List.countP_map.symm
    _ ≤ refusals c history := by
      apply List.Sublist.countP_le
      rw [List.zip_eq_zip_take_min, List.map_fst_zip (by simp)]
      exact List.take_sublist _ _

section Actions

variable {srv srv' : Server} {c : ConnPtr} {a : Act}

/-- The actions that read, fill or empty the inbound buffer of the connection. -/
def Act.parses (c : ConnPtr) : Act → Bool
  | .store d _ | .consume d _ | .freeInbound d | .framingError d => d == c
  | _ => false

theorem refusals_append (before after : List Effect) :
    refusals c (before ++ after) = refusals c before + refusals c after :=
  List.countP_append

theorem refusals_of_quiet {es : List Effect} (h : ∀ e ∈ es, e.refuses c = false) : refusals c es = 0 := by
  apply List.countP_eq_zero.mpr
  intro e he
  rw [h e he]
  decide

theorem effects_refuse (hQuiet : a ≠ .framingError c) : ∀ e ∈ a.effects srv, e.refuses c = false := by
  intro e he
  cases e with
  | framingError d unsent polled =>
    cases a with
    | framingError b =>
      obtain ⟨rfl, _⟩ : d = b ∧ _ := by simpa [Act.effects] using he
      have hNe : d ≠ c := fun hSame => hQuiet (by rw [hSame])
      simpa [Effect.refuses] using hNe
    | attach =>
      simp [Act.effects, attachEffects] at he
    | _ => simp [Act.effects] at he
  | _ => rfl

theorem refusals_perform (hQuiet : a ≠ .framingError c) :
    refusals c (a.perform srv).trace = refusals c srv.trace := by
  rw [trace_perform, refusals_append, refusals_of_quiet (effects_refuse hQuiet), Nat.add_zero]

theorem refusals_path {allowed : Act → Prop} (hQuiet : ∀ a, allowed a → a ≠ .framingError c)
    (h : actions.Path allowed srv srv') : refusals c srv'.trace = refusals c srv.trace := by
  refine Actions.Path.related (R := fun t u => refusals c u.trace = refusals c t.trace) (fun _ => rfl)
    ?_ ?_ h
  · intro t u v hFirst hSecond
    exact hSecond.trans hFirst
  · intro t a _ hAllowed
    exact refusals_perform (hQuiet a hAllowed)

theorem inbuf_perform (hQuiet : a.parses c = false) (hOpen : a = .openConn → c ≠ srv.nextConn)
    (hClose : a ≠ .close c) : (a.perform srv).inbuf c = srv.inbuf c := by
  cases a with
  | queue => simp only [Act.perform, enqueue_eq]
  | attach => simp only [Act.perform, bindClient_eq]
  | unlink => simp only [Act.perform, unlinkMember_eq]; rfl
  | kill => simp only [Act.perform, markKilled_eq]; rfl
  | move => simp only [Act.perform, moveSession_eq]; rfl
  | relay => simp only [Act.perform, enqueue_eq]; rfl
  | escalate => simp only [Act.perform, epiSessionKill_eq]; rfl
  | reap => simp only [Act.perform, markReaped_eq]
  | store d | consume d | freeInbound d =>
    have hNe : c ≠ d := by
      rintro rfl
      simp [Act.parses] at hQuiet
    exact Function.update_of_ne hNe _ _
  | openConn => exact Function.update_of_ne (hOpen rfl) _ _
  | close d =>
    have hNe : c ≠ d := fun hSame => hClose (by rw [hSame])
    simp only [Act.perform, connClose_eq]
    exact Function.update_of_ne hNe _ _
  | _ => rfl

theorem filed_perform (hCons : srv.links.Consistent) (h : srv.Filed c) (hGuard : a.guard srv)
    (hQuiet : a.parses c = false) : (a.perform srv).Filed c := by
  have hSilent : a ≠ .framingError c := by
    rintro rfl
    simp [Act.parses] at hQuiet
  have hCount := @refusals_perform srv c a hSilent
  rcases em (a = .openConn ∧ c = srv.nextConn) with ⟨rfl, rfl⟩ | hOld
  · have hNone := h.fresh (Nat.le_refl _)
    have hEmpty : ((Act.openConn.perform srv).inbuf srv.nextConn).rbuf = [] := by
      simp [Act.perform, openConn, Server.modConn, Server.modIn]
    refine ⟨?_, ?_, ?_, ?_⟩
    · rw [hCount]
      exact h.once
    · intro _
      exact hCount.trans hNone
    · intro _ _
      rw [hEmpty]
      exact Nat.zero_le _
    · intro _ _ _
      rw [hEmpty]
      exact ⟨rfl, hCount.trans hNone⟩
  · have hOpen : a = .openConn → c ≠ srv.nextConn := fun ha hNew => hOld ⟨ha, hNew⟩
    refine ⟨?_, ?_, ?_, ?_⟩
    · rw [hCount]
      exact h.once
    · intro hNew
      exact hCount.trans (h.fresh (Nat.le_trans (nextConn_perform hGuard) hNew))
    · intro hc hData
      have hClose := ne_close_of_listed hCons hc
      rw [inbuf_perform hQuiet hOpen hClose]
      exact h.bounded (listed_perform hGuard hOpen hc) (control_perform hGuard hOpen hClose hData)
    · intro hc hData hWant
      have hClose := ne_close_of_listed hCons hc
      have hBefore : (srv.conn c).wantClose = false := by
        by_contra hMarked
        have hStill := wantClose_perform hClose hOpen (Bool.not_eq_false _ ▸ hMarked)
        rw [hWant] at hStill
        cases hStill
      rw [inbuf_perform hQuiet hOpen hClose, hCount]
      exact h.parsed (listed_perform hGuard hOpen hc) (control_perform hGuard hOpen hClose hData) hBefore

theorem filed_path {allowed : Act → Prop} (hCons : srv.links.Consistent) (h : srv.Filed c)
    (hQuiet : ∀ a, allowed a → a.parses c = false) (hPath : actions.Path allowed srv srv') :
    srv'.Filed c := by
  have hBoth := Actions.Path.invariant (P := fun t => t.links.Consistent ∧ t.Filed c)
    (fun t a hHere hGuard hAllowed => ⟨consistent_perform hHere.1 hGuard,
      filed_perform hHere.1 hHere.2 hGuard (hQuiet a hAllowed)⟩) hPath ⟨hCons, h⟩
  exact hBoth.2

end Actions

section Read

variable {srv srv' : Server} {c : ConnPtr} {ans : ConnAnswers}

theorem rejectFrame_spec (code : EpiErrCode) (msg : String) :
    refusals c (rejectFrame srv c code msg ans).trace = refusals c srv.trace + 1 ∧
      (rejectFrame srv c code msg ans).inbuf = srv.inbuf ∧
      ((rejectFrame srv c code msg ans).conn c).wantClose = true := by
  unfold rejectFrame sendError
  dsimp only
  rw [connQueueFrame_eq]
  refine ⟨?_, rfl, ?_⟩
  · have hReply : ∀ k b, refusals c (frameEffects k c b ans.queueAlloc) = 0 := by
      intro k b
      apply refusals_of_quiet
      intro e he
      rcases mem_frameEffects.mp he with ⟨_, rfl⟩ | ⟨_, hQueued⟩
      · rfl
      · rcases (mem_enqueueEffects.mp hQueued).2 with rfl | ⟨_, rfl⟩ <;> rfl
    change refusals c (srv.trace ++ [_] ++ frameEffects _ _ _ _) = _
    rw [refusals_append, refusals_append, hReply]
    simp [refusals, Effect.refuses]
  · simp [condemn, Server.modConn]

theorem refusals_handleFrame (hCons : srv.links.Consistent) (hc : c ∈ srv.conns)
    (hData : (srv.conn c).isData = false) (ans : FrameAnswers) (type : Nat) (body : Bytes) :
    refusals c (handleFrame srv c ans type body).trace = refusals c srv.trace := by
  apply refusals_path ?_ (path_handleFrame hCons hc hData ans type body)
  rintro a ha rfl
  simp [Act.handles, Act.backstage, Act.answers] at ha

theorem refusals_fed (h : Fed c srv srv') : refusals c srv'.trace = refusals c srv.trace := by
  refine refusals_path ?_ h
  rintro a ha rfl
  cases ha

/-- What follows the ATTACH is neither a frame nor refused. -/
theorem switchConn_spec (hc : c ∈ srv.conns) (used : Nat) :
    refusals c (switchConn srv c ans used).trace = refusals c srv.trace ∧
      (switchConn srv c ans used).conn = srv.conn := by
  obtain ⟨fed, hFed, hSwitch⟩ := switchConn_fed hc ans used
  have hQuiet := refusals_fed hFed
  rw [hSwitch]
  exact ⟨hQuiet, hFed.conn⟩

/-- How the parse loop leaves its connection: a data channel, or to be closed, or short of bytes. -/
def Server.ParsedTo (srv srv' : Server) (c : ConnPtr) : Option Nat → Prop
  | none => (srv'.conn c).isData = true
  | some used => srv'.inbuf = srv.inbuf ∧ ((srv'.conn c).wantClose = false →
      readFrame ((srv.inbuf c).rbuf.drop used) = .more ∧ refusals c srv'.trace = 0)

theorem FrameRun.filed {turn used : Nat} {left : Option Nat} (hRun : FrameRun c ans turn srv used srv' left)
    (hCons : srv.links.Consistent) (hc : c ∈ srv.conns) (hData : (srv.conn c).isData = false)
    (hNone : refusals c srv.trace = 0) :
    refusals c srv'.trace ≤ 1 ∧ srv.ParsedTo srv' c left := by
  induction hRun with
  | more hRead => exact ⟨by omega, rfl, fun _ => ⟨hRead, hNone⟩⟩
  | refused =>
    rename_i code msg hRead
    obtain ⟨hCount, hBuf, hWant⟩ := @rejectFrame_spec _ c ans code msg
    refine ⟨by omega, hBuf, fun hOpen => ?_⟩
    rw [hWant] at hOpen
    cases hOpen
  | switched =>
    rename_i turn srv used type n body hRead hSwitched
    have hPath := path_handleFrame hCons hc hData (ans.frames turn) type body
    have hConns := Inbound.conns (hPath.mono fun _ => inbound_of_handles)
    have hHandled := refusals_handleFrame hCons hc hData (ans.frames turn) type body
    obtain ⟨hCount, hSame⟩ := @switchConn_spec _ c ans (show c ∈ _ by rw [hConns]; exact hc) (used + n)
    exact ⟨by omega, (congrArg Connection.isData (congrFun hSame c)).trans hSwitched⟩
  | condemned =>
    rename_i turn srv used type n body hRead hControl hClose
    have hHandled := refusals_handleFrame hCons hc hData (ans.frames turn) type body
    refine ⟨by omega, inbuf_handleFrame hCons hc hData _ _ _, fun hOpen => ?_⟩
    rw [hClose] at hOpen
    cases hOpen
  | next hRead hControl hOpen rest ih =>
    rename_i turn srv srv' used type n body left
    have hPath := path_handleFrame hCons hc hData (ans.frames turn) type body
    have hConns := Inbound.conns (hPath.mono fun _ => inbound_of_handles)
    have hHandled := refusals_handleFrame hCons hc hData (ans.frames turn) type body
    have hBuf := inbuf_handleFrame hCons hc hData (ans.frames turn) type body
    obtain ⟨hOnce, hLeft⟩ := ih (Actions.consistent hPath hCons) (by rw [hConns]; exact hc) hControl
      (by omega)
    cases left with
    | none => exact ⟨hOnce, hLeft⟩
    | some used =>
      unfold Server.ParsedTo at hLeft
      rw [hBuf] at hLeft
      exact ⟨hOnce, hLeft⟩

theorem filed_parsed {data : Bytes} {left : Option Nat} (hCons : srv.links.Consistent) (hc : c ∈ srv.conns)
    (h : srv.Filed c) (hData : (srv.conn c).isData = false) (hOpen : (srv.conn c).wantClose = false)
    (hSize : data.length ≤ ptyReadChunk)
    (hRun : FrameRun c ans 0 (storeInbound srv c data) 0 srv' left) :
    (keepRest srv' c left).Filed c := by
  obtain ⟨hMore, hNone⟩ := h.parsed hc hData hOpen
  have hShort := length_of_more hMore
  have hStored : ((storeInbound srv c data).inbuf c).rbuf = (srv.inbuf c).rbuf ++ data := by
    simp [storeInbound, Server.modIn, Server.emit]
  have hQuiet : refusals c (storeInbound srv c data).trace = 0 :=
    (@refusals_perform srv c (.store c data) (by simp)).trans hNone
  have hPath := hRun.path hCons hc hData
  have hCons' := Actions.consistent hPath hCons
  have hListed : c ∈ srv'.conns := by
    rw [Inbound.conns hPath]
    exact hc
  have hOld : ¬ srv'.nextConn ≤ c := Nat.not_le.mpr (hCons'.conns_lt c hListed)
  obtain ⟨hOnce, hLeft⟩ := hRun.filed hCons hc hData hQuiet
  cases left with
  | none =>
    have hSwitched : (srv'.conn c).isData = true := hLeft
    rw [keepRest]
    refine ⟨hOnce, fun hNew => absurd hNew hOld, fun _ hControl => ?_, fun _ hControl => ?_⟩
    · rw [hSwitched] at hControl
      cases hControl
    · rw [hSwitched] at hControl
      cases hControl
  | some used =>
    obtain ⟨hBuf, hParsed⟩ := hLeft
    obtain ⟨hConn, _, hNext, hTrace⟩ := keepRest_same srv' c (some used)
    have hRest := keepRest_rbuf srv' c used
    rw [hBuf, hStored] at hRest
    rw [hStored] at hParsed
    refine ⟨?_, fun hNew => absurd hNew (by rw [hNext]; exact hOld), fun _ _ => ?_, fun _ _ hWant => ?_⟩
    · rw [hTrace]
      exact hOnce
    · rw [hRest, List.length_drop, List.length_append]
      omega
    · rw [hConn] at hWant
      rw [hRest, hTrace]
      exact hParsed hWant

theorem filed_connRead (hCons : srv.links.Consistent) (hc : c ∈ srv.conns) (h : srv.Filed c)
    (hLaw : ∀ e ∈ (connRead srv c ans).trace, readOpen e = true) : (connRead srv c ans).Filed c := by
  rcases connRead_cases hCons hc ans with
    hSame | hCondemn | ⟨data, hData, hFed⟩ | ⟨data, srv', left, hData, hSize, hRun, hRead⟩
  · rw [hSame]
    exact h
  · rw [hCondemn]
    exact filed_perform (a := .condemn c) hCons h hc rfl
  · rw [hFed]
    refine filed_path hCons h ?_ (fed_dataToPty hc data ans)
    intro a ha
    cases a <;> first | rfl | cases ha
  · rw [hRead]
    rw [hRead] at hLaw
    refine filed_parsed hCons hc h hData ?_ hSize hRun
    -- the read is in the trace, and it says whether the connection was open
    have hReceived : .received c data (srv.conn c).wantClose ∈ (keepRest srv' c left).trace := by
      rw [(keepRest_same srv' c left).2.2.2]
      exact trace_mono (hRun.path hCons hc hData) _ (List.mem_append_right _ List.mem_cons_self)
    simpa [readOpen] using hLaw _ hReceived

end Read

section Dispatch

variable {srv srv' : Server} {c d : ConnPtr}

theorem parses_of_ofConn {a : Act} (h : a.ofConn d = true) (hNe : c ≠ d) : a.parses c = false := by
  cases a with
  | store e | consume e | freeInbound e | framingError e =>
    obtain rfl : e = d := by
      simpa [Act.ofConn, Act.flushes, Act.inbound, Act.backstage, Act.answers, Act.feeds] using h
    simpa [Act.parses] using Ne.symm hNe
  | _ => rfl

theorem filed_dispatchConn (hCons : srv.links.Consistent) (hc : c ∈ srv.conns) (h : srv.Filed c)
    (ev : Events) (ans : ConnAnswers)
    (hLaw : ∀ e ∈ (dispatchConn srv c ev ans).trace, readOpen e = true) :
    (dispatchConn srv c ev ans).Filed c := by
  have hFlush := path_flushReady hc ev ans
  have hFlushed : (flushReady srv c ev ans).Filed c := by
    refine filed_path hCons h ?_ hFlush
    intro a ha
    cases a <;> first | rfl | cases ha
  have hReady : (flushReady srv c ev ans).links.Consistent := Actions.consistent hFlush hCons
  have hListed : c ∈ (flushReady srv c ev ans).conns := by
    rw [show (flushReady srv c ev ans).conns = srv.conns from congrArg Links.conns (flushReady_links hc ev ans)]
    exact hc
  obtain ⟨hServe, hConns⟩ := ofConn_serveConn hCons hc ev ans
  have hSettle : OfConn c (serveConn srv c ev ans) (dispatchConn srv c ev ans) :=
    ofConn_settleConn (by rw [hConns]; exact hc)
  have hServed : (serveConn srv c ev ans).Filed c := by
    have hBefore : ∀ e ∈ (serveConn srv c ev ans).trace, readOpen e = true := fun e he =>
      hLaw e (trace_mono hSettle e he)
    rw [serveConn_eq] at hBefore ⊢
    split at hBefore
    · rename_i hRead
      rw [if_pos hRead]
      exact filed_connRead hReady hListed hFlushed hBefore
    · rename_i hIdle
      rw [if_neg hIdle]
      exact hFlushed
  have hSettled : actions.Path (fun a => a = .update c ∨ a = .close c) (serveConn srv c ev ans)
      (dispatchConn srv c ev ans) :=
    path_settleConn (Or.inl rfl) (Or.inr rfl) (by rw [hConns]; exact hc)
  refine filed_path (Actions.consistent hServe hCons) hServed ?_ hSettled
  rintro a (rfl | rfl) <;> rfl

theorem filed_dispatchReady (hCons : srv.links.Consistent) (h : srv.Filed c) {ready : Ready}
    {ans : Answers} (hReady : ready.Allocated srv) (hStep : dispatchReady srv ready ans = some srv')
    (hLaw : ∀ e ∈ srv'.trace, readOpen e = true) : srv'.Filed c := by
  cases ready with
  | listen =>
    cases ans <;> cases hStep
    rename_i outcomes
    refine filed_path hCons h ?_ (@ofAccept_acceptConn srv outcomes _ (Nat.le_refl _))
    intro a ha
    cases a <;> first | rfl | cases ha
  | signal =>
    cases ans <;> cases hStep
    refine filed_path hCons h ?_ (ofSignal_handleSignalfd _)
    intro a ha
    cases a <;> first | rfl | cases ha
  | pty s ev =>
    cases ans <;> cases hStep
    refine filed_path hCons h ?_ (ofPty_dispatchPty hCons ev _)
    intro a ha
    cases a <;> first | rfl | simp [Act.ofPty, Act.outputs, Act.feeds] at ha
  | conn d ev =>
    cases ans <;> cases hStep
    rcases eq_or_ne c d with rfl | hNe
    · exact filed_dispatchConn hCons hReady h ev _ hLaw
    · exact filed_path hCons h (fun a ha => parses_of_ofConn ha hNe) (ofConn_dispatchConn hCons hReady ev _)

end Dispatch

theorem filed_step {loop loop' : Loop} {input : Input} {c : ConnPtr} (hSound : loop.Sound)
    (h : loop.srv.Filed c) (hStep : loop.step input = some loop')
    (hLaw : ∀ e ∈ loop'.srv.trace, readOpen e = true) : loop'.srv.Filed c := by
  rcases step_cases hSound hStep with hSame | ⟨ready, ans, hReady, hDispatch⟩ | ⟨now, early, hFinish⟩
  · rw [hSame]
    exact h
  · exact filed_dispatchReady hSound.consistent h hReady hDispatch hLaw
  · rw [hFinish]
    refine filed_path hSound.consistent h ?_ (ofFinish_finishBatch now early).1
    intro a ha
    cases a <;> first | rfl | cases ha

/-- In a run that reads no further from a control connection it has marked want_close, the inbound
buffers are bounded and no peer is told twice of a framing error. -/
theorem inboundBounded_of_readOpen {instanceId : Nat} {inputs : List Input} {loop : Loop}
    (h : (machine instanceId).run inputs = some loop) (hLaw : ∀ e ∈ loop.srv.trace, readOpen e = true) :
    loop.srv.InboundBounded := by
  have hAll : loop.Sound ∧ ((∀ e ∈ loop.srv.trace, readOpen e = true) → ∀ c, loop.srv.Filed c) := by
    refine (machine instanceId).run_invariant (P := fun loop => loop.Sound ∧
      ((∀ e ∈ loop.srv.trace, readOpen e = true) → ∀ c, loop.srv.Filed c))
      ⟨initial_sound instanceId, ?_⟩ ?_ h
    · intro _ c
      refine ⟨Nat.zero_le _, fun _ => rfl, ?_, ?_⟩
      · rintro ⟨⟩
      · rintro ⟨⟩
    · rintro loop input loop' ⟨hSound, hFiled⟩ hStep
      refine ⟨step_sound hSound hStep, fun hOpen c => filed_step hSound (hFiled ?_ c) hStep hOpen⟩
      exact fun e he => hOpen e (trace_mono (step_path hSound hStep) e he)
  have hFiled := hAll.2 hLaw
  exact ⟨fun c hc hData => (hFiled c).bounded hc hData,
    fun c => Nat.le_trans (framingReplies_le c _) (hFiled c).once⟩

theorem inboundBounded_of_readOpen_shortFrame :
    ∃ loop, (machine 7).run shortFrame = some loop ∧ loop.srv.InboundBounded := by
  have hRun : ((machine 7).run shortFrame).any fun loop => loop.srv.trace.all readOpen := by
    decide +kernel
  obtain ⟨loop, hLoop, hOpen⟩ := (machine 7).exists_of_run_any hRun
  exact ⟨loop, hLoop, inboundBounded_of_readOpen hLoop (List.all_eq_true.mp hOpen)⟩

/-- The peer sends one more byte before it has read the error. -/
def shortFrameAgain : List Input :=
  shortFrame ++ batchOf (.conn 0 readable) (.conn (calmConn [] [0] (by decide) 0 ⟨0⟩)) ⟨0⟩

/-- The same four bytes are refused twice. -/
theorem inboundBounded_shortFrameAgain :
    ∃ loop, (machine 7).run shortFrameAgain = some loop ∧ ¬ loop.srv.InboundBounded := by
  have hRun : ((machine 7).run shortFrameAgain).any fun loop =>
      framingReplies 0 loop.srv.trace == 2 := by
    decide +kernel
  obtain ⟨loop, hLoop, hTwice⟩ := (machine 7).exists_of_run_any hRun
  refine ⟨loop, hLoop, fun hBounded => ?_⟩
  have hOnce := hBounded.replies 0
  rw [beq_iff_eq.mp hTwice] at hOnce
  exact absurd hOnce (by decide)

end Epimone.Daemon
