import Epimone.Daemon.Runs

/-! # The frames of a run

The frames that a run dispatches, each with the state that it meets. What holds
of one frame and of the steps between two frames holds of a run and its list.
-/
set_option autoImplicit false

namespace Epimone.Daemon

open Transition Framing

/-- A frame, what the outside answers while it is handled, and the state it meets. -/
structure Dispatch where
  srv : Server
  c : ConnPtr
  ans : FrameAnswers
  type : Nat
  body : Bytes

/-- The frames that the parse loop dispatches, turn by turn as in `frameLoop`. -/
def parsed (c : ConnPtr) (ans : ConnAnswers) : Nat → Nat → Server → Nat → List Dispatch
  | 0, _, _, _ => []
  | fuel + 1, turn, srv, used =>
    match readFrame ((srv.inbuf c).rbuf.drop used) with
    | .item (type, body) n =>
      let handled := handleFrame srv c (ans.frames turn) type body
      ⟨srv, c, ans.frames turn, type, body⟩ ::
        if (handled.conn c).isData || (handled.conn c).wantClose then []
        else parsed c ans fuel (turn + 1) handled (used + n)
    | _ => []

def parsedInbound (srv : Server) (c : ConnPtr) (data : Bytes) (ans : ConnAnswers) : List Dispatch :=
  if (srv.conn c).isData || (srv.inbuf c).growthFails data.length ans.rbufAlloc then []
  else parsed c ans ((storeInbound srv c data).inbuf c).rbuf.length 0 (storeInbound srv c data) 0

def parsedRead (srv : Server) (c : ConnPtr) (ans : ConnAnswers) : List Dispatch :=
  match ans.read with
  | .bytes chunk => if chunk.bytes = [] then [] else parsedInbound srv c chunk.bytes ans
  | _ => []

def Loop.dispatched (loop : Loop) : Input → List Dispatch
  | .dispatch (.conn ans) =>
    match loop.phase with
    | .batch (.conn c ev :: _) =>
      if ev.pollin || ev.rdhup || ev.hup || ev.pollerr then parsedRead (flushReady loop.srv c ev ans) c ans else []
    | _ => []
  | _ => []

def dispatches : Loop → List Input → List Dispatch
  | _, [] => []
  | loop, i :: inputs =>
    loop.dispatched i ++
      match loop.step i with
      | some loop => dispatches loop inputs
      | none => []

theorem ans_of_mem_parsed {c : ConnPtr} {ans : ConnAnswers} (fuel turn : Nat) (srv : Server) (used : Nat)
    {d : Dispatch} (h : d ∈ parsed c ans fuel turn srv used) : ∃ turn, d.ans = ans.frames turn := by
  induction fuel generalizing turn srv used with
  | zero => cases h
  | succ fuel ih =>
    unfold parsed at h
    split at h
    · dsimp only at h
      rcases List.mem_cons.mp h with rfl | hLater
      · exact ⟨turn, rfl⟩
      · split at hLater
        · cases hLater
        · exact ih _ _ _ hLater
    · cases h

theorem ans_of_mem_dispatches (inputs : List Input) (loop : Loop) {d : Dispatch} (h : d ∈ dispatches loop inputs) :
    ∃ ans turn, .dispatch (.conn ans) ∈ inputs ∧ d.ans = ans.frames turn := by
  induction inputs generalizing loop with
  | nil => cases h
  | cons i inputs ih =>
    rcases List.mem_append.mp h with hHere | hLater
    · unfold Loop.dispatched at hHere
      split at hHere
      · rename_i ans
        split at hHere
        · split at hHere
          · unfold parsedRead at hHere
            split at hHere
            · split at hHere
              · cases hHere
              · unfold parsedInbound at hHere
                split at hHere
                · cases hHere
                · obtain ⟨turn, hAns⟩ := ans_of_mem_parsed _ _ _ _ hHere
                  exact ⟨ans, turn, List.mem_cons_self, hAns⟩
            · cases hHere
          · cases hHere
        · cases hHere
      · cases hHere
    · split at hLater
      · obtain ⟨ans, turn, hIn, hAns⟩ := ih _ hLater
        exact ⟨ans, turn, List.mem_cons_of_mem i hIn, hAns⟩
      · cases hLater

/-- The actions that are taken without a frame. -/
def Act.unasked : Act → Bool
  | .attach .. | .fork .. | .create .. | .watchPty _ | .kill .. | .signal .. | .winsize .. | .newGroup _
  | .setBlob .. | .move .. | .frame .. => false
  | _ => true

abbrev Unasked (srv srv' : Server) : Prop := actions.Path (fun a => a.unasked = true) srv srv'

/-- A relation between two states and the frames dispatched between them. -/
structure FrameWise (R : Server → List Dispatch → Server → Prop) : Prop where
  unasked : ∀ {srv srv' : Server}, Unasked srv srv' → R srv [] srv'
  trans : ∀ {srv mid srv' : Server} {log log' : List Dispatch}, R srv log mid → R mid log' srv' →
    R srv (log ++ log') srv'
  frame : ∀ d : Dispatch, d.srv.links.Consistent → d.c ∈ d.srv.conns → (d.srv.conn d.c).isData = false →
    R d.srv [d] (handleFrame d.srv d.c d.ans d.type d.body)

namespace FrameWise

variable {R : Server → List Dispatch → Server → Prop} (hR : FrameWise R) {srv : Server} {c : ConnPtr}

include hR

theorem after {mid srv' : Server} {log : List Dispatch} (h : R srv log mid) (hRest : Unasked mid srv') :
    R srv log srv' := by
  have hBoth := hR.trans h (hR.unasked hRest)
  rwa [List.append_nil] at hBoth

theorem before {mid srv' : Server} {log : List Dispatch} (hFirst : Unasked srv mid) (h : R mid log srv') :
    R srv log srv' := hR.trans (hR.unasked hFirst) h

omit hR in
theorem unasked_rejectFrame (hc : c ∈ srv.conns) (hData : (srv.conn c).isData = false) (code : EpiErrCode)
    (msg : String) (ans : ConnAnswers) : Unasked srv (rejectFrame srv c code msg ans) := by
  unfold rejectFrame sendError
  dsimp only
  generalize hNoted : srv.emit (.framingError c (srv.conn c).unsent.length (srv.conn c).polled) = noted
  have hError : Unasked srv noted := by
    rw [← hNoted]
    exact perform_path (.framingError c) ⟨hc, hData⟩ rfl
  have hControl : c ∈ noted.conns ∧ (noted.conn c).isData = false ∧ noted.Awaiting c := by
    rw [← hNoted]
    exact ⟨hc, hData, srv.trace, _, [], rfl, beq_self_eq_true c, by simp⟩
  have hQueued : ∀ b alloc, Unasked noted (connQueueFrame noted c b alloc) := by
    intro b alloc
    unfold connQueueFrame
    split
    · exact perform_path (.starve c) hControl.1 rfl
    · exact perform_path (.queue c b.data alloc) hControl rfl
  refine (hError.trans (hQueued _ _)).trans (perform_path (.condemn c) ?_ rfl)
  rw [connQueueFrame_eq]
  exact hControl.1

omit hR in
theorem unasked_of_fed {a : Act} (h : a.feedsFrom c = true) : a.unasked = true := by
  cases a <;> first | rfl | cases h

omit hR in
theorem unasked_switchConn (hc : c ∈ srv.conns) (ans : ConnAnswers) (used : Nat) :
    Unasked srv (switchConn srv c ans used) := by
  obtain ⟨fed, hFed, hEq⟩ := switchConn_fed hc ans used
  have hConns : fed.conns = srv.conns := by
    refine Actions.Path.related (R := fun s t => t.conns = s.conns) (fun _ => rfl) ?_ ?_ hFed
    · intro s t u hFirst hSecond
      exact hSecond.trans hFirst
    · intro s a _ ha
      cases a <;> first | rfl | cases ha
  rw [hEq]
  exact path_perform (hFed.mono fun _ => unasked_of_fed) (.freeInbound c) (by rw [Act.guard, hConns]; exact hc) rfl

theorem frameLoop (h : srv.links.Consistent) (hc : c ∈ srv.conns) (hData : (srv.conn c).isData = false)
    (ans : ConnAnswers) (fuel turn used : Nat) :
    R srv (parsed c ans fuel turn srv used) (Daemon.frameLoop c ans fuel turn srv used).1 := by
  induction fuel generalizing srv turn used with
  | zero => exact hR.unasked (.refl _)
  | succ fuel ih =>
    rw [frameLoop_succ, parsed]
    cases hRead : readFrame ((srv.inbuf c).rbuf.drop used) with
    | more => exact hR.unasked (.refl _)
    | refused e => exact hR.unasked (unasked_rejectFrame hc hData _ _ ans)
    | item frame n =>
      obtain ⟨type, body⟩ := frame
      have hPath := path_handleFrame h hc hData (ans.frames turn) type body
      have hConns := Inbound.conns (hPath.mono fun _ => inbound_of_handles)
      have hFrame : R srv [⟨srv, c, ans.frames turn, type, body⟩] (handleFrame srv c (ans.frames turn) type body) :=
        hR.frame ⟨srv, c, ans.frames turn, type, body⟩ h hc hData
      have hListed : c ∈ (handleFrame srv c (ans.frames turn) type body).conns := by
        rw [hConns]
        exact hc
      dsimp only
      cases hSwitched : ((handleFrame srv c (ans.frames turn) type body).conn c).isData with
      | true => exact hR.after hFrame (unasked_switchConn hListed ans _)
      | false =>
        cases ((handleFrame srv c (ans.frames turn) type body).conn c).wantClose with
        | true => exact hFrame
        | false => exact hR.trans hFrame (ih (Actions.consistent hPath h) hListed hSwitched (turn + 1) (used + n))

theorem connRead (h : srv.links.Consistent) (hc : c ∈ srv.conns) (ans : ConnAnswers) :
    R srv (parsedRead srv c ans) (Daemon.connRead srv c ans) := by
  have hCondemn : Unasked srv (condemn srv c) := perform_path (.condemn c) hc rfl
  unfold Daemon.connRead parsedRead
  cases ans.read with
  | again => exact hR.unasked (.refl _)
  | intr => exact hR.unasked (.refl _)
  | failed => exact hR.unasked hCondemn
  | bytes chunk =>
    dsimp only
    split
    · exact hR.unasked hCondemn
    unfold handleInbound parsedInbound
    cases hData : (srv.conn c).isData with
    | true => exact hR.unasked ((fed_dataToPty hc chunk.bytes ans).mono fun _ => unasked_of_fed)
    | false =>
      cases (srv.inbuf c).growthFails chunk.bytes.length ans.rbufAlloc with
      | true => exact hR.unasked hCondemn
      | false =>
        have hStored : Unasked srv (storeInbound srv c chunk.bytes) :=
          perform_path (.store c chunk.bytes) ⟨hc, hData, chunk.bounded⟩ rfl
        have hLoop := @frameLoop R hR (storeInbound srv c chunk.bytes) c h hc hData ans
          ((storeInbound srv c chunk.bytes).inbuf c).rbuf.length 0 0
        have hRun := @frameLoop_run c ans (storeInbound srv c chunk.bytes) h hc hData
          ((storeInbound srv c chunk.bytes).inbuf c).rbuf.length 0 0 (by omega)
        have hConns := (hRun.path h hc hData).conns
        dsimp only
        rw [if_neg (by decide), if_neg (by decide), if_neg (by decide)]
        split <;> rename_i hEnd <;> rw [hEnd] at hLoop hConns
        · exact hR.before hStored hLoop
        · refine hR.after (hR.before hStored hLoop) ?_
          unfold dropConsumed
          split
          · exact perform_path (.consume c _) (by rw [Act.guard, hConns]; exact hc) rfl
          · exact .refl _

theorem dispatchConn (h : srv.links.Consistent) (hc : c ∈ srv.conns) (ev : Events) (ans : ConnAnswers) :
    R srv (if ev.pollin || ev.rdhup || ev.hup || ev.pollerr then parsedRead (flushReady srv c ev ans) c ans else [])
      (Daemon.dispatchConn srv c ev ans) := by
  have hFlush : Unasked srv (flushReady srv c ev ans) := by
    refine (path_flushReady hc ev ans).mono ?_
    intro a ha
    cases a <;> first | rfl | cases ha
  have hLinks := flushReady_links hc ev ans
  have hConns : (flushReady srv c ev ans).conns = srv.conns := congrArg Links.conns hLinks
  have hListed : c ∈ (flushReady srv c ev ans).conns := by
    rw [hConns]
    exact hc
  have hServed : c ∈ (serveConn srv c ev ans).conns := by
    rw [(ofConn_serveConn h hc ev ans).2]
    exact hc
  rw [dispatchConn_eq]
  refine hR.after ?_ (path_settleConn rfl rfl hServed)
  rw [serveConn_eq]
  split
  · exact hR.before hFlush (hR.connRead (by rw [hLinks]; exact h) hListed ans)
  · exact hR.unasked hFlush

theorem step {loop loop' : Loop} {input : Input} (h : loop.Sound) (hStep : loop.step input = some loop') :
    R loop.srv (loop.dispatched input) loop'.srv := by
  obtain ⟨srv, phase⟩ := loop
  have hSame : R srv [] srv := hR.unasked (.refl _)
  cases input with
  | wait clock batch =>
    cases phase <;> simp only [Loop.step, reduceCtorEq] at hStep
    split at hStep <;> cases hStep
    exact hSame
  | interrupted => cases phase <;> cases hStep; exact hSame
  | waitFails => cases phase <;> cases hStep; exact hSame
  | finish now early =>
    cases phase with
    | head => cases hStep
    | stopped => cases hStep
    | batch events =>
      cases events with
      | cons => cases hStep
      | nil =>
        cases hStep
        refine hR.unasked ((ofFinish_finishBatch now early).1.mono ?_)
        intro a ha
        cases a <;> first | rfl | cases ha
  | dispatch ans =>
    cases phase with
    | head => cases hStep
    | stopped => cases hStep
    | batch events =>
      cases events with
      | nil => cases hStep
      | cons ready rest =>
        obtain ⟨srv', hDispatch, rfl⟩ := Option.map_eq_some_iff.mp hStep
        have hReady := h.allocated ready List.mem_cons_self
        cases ready with
        | listen =>
          cases ans <;> cases hDispatch
          rename_i outcomes
          refine hR.unasked ((@ofAccept_acceptConn srv outcomes _ (Nat.le_refl srv.nextConn)).mono ?_)
          intro a ha
          cases a <;> first | rfl | cases ha
        | signal =>
          cases ans <;> cases hDispatch
          rename_i reads
          refine hR.unasked ((ofSignal_handleSignalfd reads).mono ?_)
          intro a ha
          cases a <;> first | rfl | cases ha
        | pty s ev =>
          cases ans <;> cases hDispatch
          rename_i ans
          refine hR.unasked ((ofPty_dispatchPty h.consistent ev ans).mono ?_)
          intro a ha
          cases a <;> first | rfl | cases ha
        | conn c ev =>
          cases ans <;> cases hDispatch
          rename_i ans
          exact hR.dispatchConn h.consistent hReady ev ans

theorem runFrom (instanceId : Nat) (inputs : List Input) {loop loop' : Loop} (h : loop.Sound)
    (hRun : (machine instanceId).runFrom loop inputs = some loop') :
    R loop.srv (dispatches loop inputs) loop'.srv := by
  induction inputs generalizing loop with
  | nil =>
    cases hRun
    exact hR.unasked (.refl _)
  | cons input inputs ih =>
    obtain ⟨mid, hStep, hRest⟩ := Option.bind_eq_some_iff.mp hRun
    change loop.step input = some mid at hStep
    rw [dispatches, hStep]
    exact hR.trans (hR.step h hStep) (ih (step_sound h hStep) hRest)

theorem run {instanceId : Nat} {inputs : List Input} {loop : Loop}
    (h : (machine instanceId).run inputs = some loop) :
    R (Server.initial instanceId) (dispatches (machine instanceId).init inputs) loop.srv :=
  hR.runFrom instanceId inputs (initial_sound instanceId) h

end FrameWise

end Epimone.Daemon
