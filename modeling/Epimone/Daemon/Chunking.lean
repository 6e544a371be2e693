import Epimone.Daemon.Bare
import Epimone.Daemon.InputStream

/-! # Reads of any size

What the daemon makes of the bytes of a connection does not depend on how they
are cut into reads. The reference is the driver of the framing library over the
bare server: it is fed the same frames, and what it leaves over is what waits in
the buffer, or what has been passed on to the session.
-/
set_option autoImplicit false

namespace Epimone.Daemon

open Transition Framing

def Effect.frameOf (c : ConnPtr) : Effect → Option (Nat × Bytes)
  | .frame d type body _ => if d = c then some (type, body) else none
  | _ => none

def Effect.passed (c : ConnPtr) : Effect → Bytes
  | .input _ d data => if d = c then data else []
  | _ => []

def framesOf (c : ConnPtr) (history : List Effect) : List (Nat × Bytes) := history.filterMap (Effect.frameOf c)

/-- The bytes of the connection that were passed on as input of its session. -/
def passedOn (c : ConnPtr) (history : List Effect) : Bytes := history.flatMap (Effect.passed c)

/-- The connection gets its memory, and its backlog stays below the limit. -/
def Effect.calm (c : ConnPtr) : Effect → Bool
  | .allocFailed d => d != c
  | .enqueued d q => d != c || decide (q.unsent + q.len ≤ maxWbuf)
  | _ => true

/-- Neither a frame of the connection nor input from it. -/
def Effect.quiet (c : ConnPtr) (e : Effect) : Prop := e.frameOf c = none ∧ e.passed c = []

section Handled

variable {srv mid : Server} {c : ConnPtr} {k : Connection} {ans : FrameAnswers}

theorem framesOf_append (es es' : List Effect) : framesOf c (es ++ es') = framesOf c es ++ framesOf c es' :=
  List.filterMap_append

theorem passedOn_append (es es' : List Effect) : passedOn c (es ++ es') = passedOn c es ++ passedOn c es' :=
  List.flatMap_append

theorem quiet_history {es : List Effect} (h : ∀ e ∈ es, e.quiet c) : framesOf c es = [] ∧ passedOn c es = [] :=
  ⟨List.filterMap_eq_nil_iff.mpr fun e he => (h e he).1, List.flatMap_eq_nil_iff.mpr fun e he => (h e he).2⟩

theorem quiet_enqueueEffects (k : Connection) (d : ConnPtr) (data : Bytes) (relay alloc : Bool) :
    ∀ e ∈ enqueueEffects k d data relay alloc, e.quiet c := by
  intro e he
  obtain ⟨-, rfl | ⟨-, rfl⟩⟩ := mem_enqueueEffects.mp he <;> exact ⟨rfl, rfl⟩

theorem quiet_frameEffects (k : Connection) (d : ConnPtr) (b : EpiBuf) (alloc : Bool) :
    ∀ e ∈ frameEffects k d b alloc, e.quiet c := by
  unfold frameEffects
  split
  · intro e he
    obtain rfl := List.mem_singleton.mp he
    exact ⟨rfl, rfl⟩
  · exact quiet_enqueueEffects k d b.data false alloc

theorem quiet_replayEffects (k : Connection) (d : ConnPtr) (out : OutRing) (ans : FrameAnswers) :
    ∀ e ∈ replayEffects k d out ans, e.quiet c := by
  unfold replayEffects
  split
  · exact quiet_enqueueEffects k d _ false ans.replayAlloc
  · intro e he
    split at he
    · cases he
    · obtain rfl := List.mem_singleton.mp he
      exact ⟨rfl, rfl⟩

theorem quiet_attachEffects (srv : Server) (s : SessPtr) (ans : FrameAnswers) :
    ∀ e ∈ attachEffects srv c s ans, e.quiet c := by
  intro e he
  rcases List.mem_append.mp he with hReply | hRest
  · exact quiet_frameEffects _ _ _ _ e hReply
  · rcases List.mem_cons.mp hRest with rfl | hReplay
    · exact ⟨rfl, rfl⟩
    · exact quiet_replayEffects _ _ _ _ e hReplay

theorem quiet_backstage (h : Backstage srv mid) : ∃ es, mid.trace = srv.trace ++ es ∧ ∀ e ∈ es, e.quiet c := by
  refine trace_path (fun t a _ hBack e he => ?_) h
  cases e with
  | frame => cases a <;> simp [Act.effects, Act.backstage] at he hBack
  | input => cases a <;> simp [Act.effects, Act.backstage] at he hBack
  | _ => exact ⟨rfl, rfl⟩

theorem open_connQueue {data : Bytes} {relay alloc : Bool} (hOpen : k.wantClose = false)
    (hCalm : ∀ e ∈ enqueueEffects k c data relay alloc, e.calm c = true) :
    (connQueue k data alloc).wantClose = false := by
  by_cases hData : data = []
  · rw [hData, connQueue_nil]
    exact hOpen
  rw [← Bool.not_eq_true, connQueue_wantClose hData]
  rintro (hClose | hFails | ⟨hFull, -⟩)
  · cases hOpen.symm.trans hClose
  · have hStarved := hCalm (.allocFailed c) (mem_enqueueEffects.mpr ⟨hData, Or.inr ⟨hFails, rfl⟩⟩)
    simp [Effect.calm] at hStarved
  · have hFits := hCalm _ (mem_enqueueEffects.mpr ⟨hData, Or.inl rfl⟩)
    simp only [Effect.calm, bne_self_eq_false, Bool.false_or, decide_eq_true_eq] at hFits
    omega

theorem open_queueFrame {b : EpiBuf} {alloc : Bool} (hOpen : k.wantClose = false)
    (hCalm : ∀ e ∈ frameEffects k c b alloc, e.calm c = true) : (queueFrame k b alloc).wantClose = false := by
  unfold frameEffects at hCalm
  unfold queueFrame
  split
  · exact hOpen
  · rename_i hMade
    rw [if_neg hMade] at hCalm
    exact open_connQueue hOpen hCalm

theorem open_replayed {out : OutRing} (hOpen : k.wantClose = false)
    (hCalm : ∀ e ∈ replayEffects k c out ans, e.calm c = true) : (replayed k out ans).wantClose = false := by
  unfold replayEffects at hCalm
  unfold replayed
  cases hSnap : out.snapshot ans.snapAlloc with
  | none =>
    rw [Option.getD_none, connQueue_nil]
    exact hOpen
  | some snap =>
    rw [hSnap] at hCalm
    exact open_connQueue hOpen hCalm

theorem Backstage.open (h : Backstage srv mid) (hLinks : srv.links.Consistent) (hFree : (srv.conn c).session = none)
    (hOpen : (srv.conn c).wantClose = false) : (mid.conn c).session = none ∧ (mid.conn c).wantClose = false := by
  have hAll : mid.links.Consistent ∧ (mid.conn c).session = none ∧ (mid.conn c).wantClose = false := by
    refine Actions.Path.invariant
      (P := fun t => t.links.Consistent ∧ (t.conn c).session = none ∧ (t.conn c).wantClose = false) ?_ h
      ⟨hLinks, hFree, hOpen⟩
    rintro t a ⟨hCons, hNone, hKept⟩ hGuard hBack
    have hStep : actions.Path (fun _ => True) t (a.perform t) := perform_path a hGuard trivial
    refine ⟨Actions.consistent hStep hCons, ?_⟩
    change ((a.perform t).conn c).session = none ∧ ((a.perform t).conn c).wantClose = false
    by_cases hSame : ∃ k, a.connAfter t = some (c, k)
    · obtain ⟨k, hAfter⟩ := hSame
      rw [conn_perform_of_eq hAfter]
      cases a with
      | unbind s d =>
        cases hAfter
        cases hNone.symm.trans ((hCons.paired c s).mpr hGuard)
      | update d =>
        cases hAfter
        exact ⟨hNone, hKept⟩
      | _ => first | (cases hBack; done) | cases hAfter
    · rw [conn_perform_of_ne fun k hAfter => hSame ⟨k, hAfter⟩]
      exact ⟨hNone, hKept⟩
  exact hAll.2

theorem session_of_control (hLinks : srv.links.Consistent) (hData : (srv.conn c).isData = false) :
    (srv.conn c).session = none := by
  cases hBound : (srv.conn c).session with
  | none => rfl
  | some s => cases hData.symm.trans (hLinks.bound_conn c s hBound).2

/-- A frame of a calm connection leaves it a control connection or makes it a data channel, and is one frame more. -/
theorem dispatchFrame_calm (hLinks : srv.links.Consistent) (hData : (srv.conn c).isData = false)
    (hOpen : (srv.conn c).wantClose = false) {type : Nat} {body : Bytes}
    (hCalm : ∀ e ∈ (dispatchFrame srv c ans type body).trace, e.calm c = true) :
    ((dispatchFrame srv c ans type body).conn c).wantClose = false ∧
      framesOf c (dispatchFrame srv c ans type body).trace = framesOf c srv.trace ∧
      passedOn c (dispatchFrame srv c ans type body).trace = passedOn c srv.trace ∧
      (((dispatchFrame srv c ans type body).conn c).isData = true →
        ∃ s, ((dispatchFrame srv c ans type body).conn c).session = some s) := by
  have hAnswered := @answered_dispatchFrame srv c hLinks ans type body
  have hFree := session_of_control hLinks hData
  generalize dispatchFrame srv c ans type body = handled at hAnswered hCalm
  cases hAnswered with
  | reply before b =>
    rename_i mid
    obtain ⟨-, hMid⟩ := before.open hLinks hFree hOpen
    obtain ⟨es, hTrace, hQuiet⟩ := quiet_backstage (c := c) before
    obtain ⟨hFrames, hPassed⟩ := quiet_history hQuiet
    obtain ⟨hFrames', hPassed'⟩ := quiet_history (quiet_frameEffects (c := c) (mid.conn c) c b ans.queueAlloc)
    rw [connQueueFrame_eq] at hCalm ⊢
    dsimp only at hCalm ⊢
    refine ⟨?_, ?_, ?_, fun hSwitched => ?_⟩
    · rw [Function.update_self]
      exact open_queueFrame hMid fun e he => hCalm e (List.mem_append_right _ he)
    · rw [framesOf_append, hFrames', hTrace, framesOf_append, hFrames, List.append_nil, List.append_nil]
    · rw [passedOn_append, hPassed', hTrace, passedOn_append, hPassed, List.append_nil, List.append_nil]
    · rw [Function.update_self, queueFrame_isData, before.control.2, hData] at hSwitched
      cases hSwitched
  | attach before s hs hRemoved hClient =>
    rename_i mid
    obtain ⟨-, hMid⟩ := before.open hLinks hFree hOpen
    obtain ⟨es, hTrace, hQuiet⟩ := quiet_backstage (c := c) before
    obtain ⟨hFrames, hPassed⟩ := quiet_history hQuiet
    obtain ⟨hFrames', hPassed'⟩ := quiet_history (quiet_attachEffects (c := c) mid s ans)
    rw [bindClient_eq] at hCalm ⊢
    dsimp only at hCalm ⊢
    have hGreeted : (greeted mid c s ans).wantClose = false :=
      open_queueFrame hMid fun e he => hCalm e (List.mem_append_right _ (List.mem_append_left _ he))
    refine ⟨?_, ?_, ?_, fun _ => ⟨s, ?_⟩⟩
    · rw [Function.update_self]
      exact open_replayed hGreeted fun e he =>
        hCalm e (List.mem_append_right _ (List.mem_append_right _ (List.mem_cons_of_mem _ he)))
    · rw [framesOf_append, hFrames', hTrace, framesOf_append, hFrames, List.append_nil, List.append_nil]
    · rw [passedOn_append, hPassed', hTrace, passedOn_append, hPassed, List.append_nil, List.append_nil]
    · rw [Function.update_self]
      simp [greeted]

theorem isData_connQueueFrame (b : EpiBuf) (alloc : Bool) :
    ((connQueueFrame srv c b alloc).conn c).isData = (srv.conn c).isData := by
  rw [connQueueFrame_eq]
  dsimp only
  rw [Function.update_self, queueFrame_isData]

/-- Only an ATTACH makes a data channel. -/
theorem attach_of_isData (hLinks : srv.links.Consistent) (hData : (srv.conn c).isData = false) {ans : FrameAnswers}
    {type : Nat} {body : Bytes} (h : ((dispatchFrame srv c ans type body).conn c).isData = true) :
    type = EpiMsgType.attach.code := by
  have hOutcome := @outcome_dispatchFrame srv c hLinks ans type body
  generalize dispatchFrame srv c ans type body = handled at hOutcome h
  have hReply : ∀ {mid : Server} (b : EpiBuf) (alloc : Bool), (mid.conn c).isData = (srv.conn c).isData →
      ((connQueueFrame mid c b alloc).conn c).isData ≠ true := by
    intro mid b alloc hMid hTrue
    rw [isData_connQueueFrame, hMid, hData] at hTrue
    cases hTrue
  cases hOutcome with
  | refused => exact absurd h (hReply _ _ rfl)
  | uncreated _ before => exact absurd h (hReply _ _ (before.control.2 c))
  | replied _ _ before => exact absurd h (hReply _ _ (before.control.2 c))
  | attached hRequest => exact (EpiMsgType.code_ofRequest hRequest).symm

end Handled

section Passed

variable {srv srv' : Server} {c : ConnPtr} {ans : ConnAnswers}

/-- A history that goes on without frames of the connection and without input from it. -/
def Silent (c : ConnPtr) (srv srv' : Server) : Prop := ∃ es, srv'.trace = srv.trace ++ es ∧ ∀ e ∈ es, e.quiet c

theorem Silent.same (h : Silent c srv srv') :
    framesOf c srv'.trace = framesOf c srv.trace ∧ passedOn c srv'.trace = passedOn c srv.trace := by
  obtain ⟨es, hTrace, hQuiet⟩ := h
  obtain ⟨hFrames, hPassed⟩ := quiet_history hQuiet
  constructor
  · rw [hTrace, framesOf_append, hFrames, List.append_nil]
  · rw [hTrace, passedOn_append, hPassed, List.append_nil]

theorem silent_rejectFrame (srv : Server) (c : ConnPtr) (ans : ConnAnswers) (code : EpiErrCode) (msg : String) :
    Silent c srv (rejectFrame srv c code msg ans) := by
  unfold rejectFrame sendError
  dsimp only
  rw [connQueueFrame_eq]
  refine ⟨_, List.append_assoc _ _ _, fun e he => ?_⟩
  rcases List.mem_append.mp he with hError | hReply
  · obtain rfl := List.mem_singleton.mp hError
    exact ⟨rfl, rfl⟩
  · exact quiet_frameEffects _ _ _ _ e hReply

theorem rejectFrame_isData (code : EpiErrCode) (msg : String) :
    ((rejectFrame srv c code msg ans).conn c).isData = (srv.conn c).isData := by
  unfold rejectFrame sendError
  dsimp only
  rw [connQueueFrame_eq]
  simp [condemn, Server.modConn, Server.emit]

theorem silent_feeds (h : actions.Path (fun a => a.feeds = true) srv srv') : Silent c srv srv' := by
  refine trace_path (fun t a _ hFeeds e he => ?_) h
  cases e with
  | frame => cases a <;> simp [Act.effects, Act.feeds] at he hFeeds
  | input => cases a <;> simp [Act.effects, Act.feeds] at he hFeeds
  | _ => exact ⟨rfl, rfl⟩

theorem dataToPty_passes (ans : ConnAnswers) (hBound : ∃ s, (srv.conn c).session = some s) (data : Bytes) :
    framesOf c (dataToPty srv c data ans).trace = framesOf c srv.trace ∧
      passedOn c (dataToPty srv c data ans).trace = passedOn c srv.trace ++ data := by
  obtain ⟨s, hBound⟩ := hBound
  unfold dataToPty
  rw [hBound]
  dsimp only
  have hFeeds : actions.Path (fun a => a.feeds = true) (srv.emit (.input s c data))
      (ptyUpdate (epiSessionQueueInput (srv.emit (.input s c data)) s data ans.pinAlloc ans.ptyWrites) s) :=
    (path_epiSessionQueueInput (fun _ h => h) s data _ _).trans (path_ptyUpdate (fun _ h => h) s)
  obtain ⟨hFrames, hPassed⟩ := (silent_feeds (c := c) hFeeds).same
  rw [hFrames, hPassed]
  simp [Server.emit, framesOf, passedOn, Effect.frameOf, Effect.passed]

theorem switchConn_passes (ans : ConnAnswers) (hc : c ∈ srv.conns) (hBound : ∃ s, (srv.conn c).session = some s)
    (used : Nat) :
    framesOf c (switchConn srv c ans used).trace = framesOf c srv.trace ∧
      passedOn c (switchConn srv c ans used).trace = passedOn c srv.trace ++ (srv.inbuf c).rbuf.drop used ∧
      (switchConn srv c ans used).conn = srv.conn := by
  obtain ⟨fed, hFed, hSwitch⟩ := switchConn_fed hc ans used
  have hConn : (switchConn srv c ans used).conn = srv.conn := by
    rw [hSwitch]
    exact hFed.conn
  unfold switchConn freeInbound at hConn ⊢
  dsimp only [Server.modIn] at hConn ⊢
  split
  · rename_i hNone
    simp [hNone]
  · rename_i hSome
    rw [if_neg hSome] at hConn
    obtain ⟨hFrames, hPassed⟩ := dataToPty_passes ans hBound ((srv.inbuf c).rbuf.drop used)
    exact ⟨hFrames, hPassed, hConn⟩

end Passed

section Reference

/-- What decides about the frames of a connection, and the frames so far. -/
structure Parsed where
  bare : Server
  frames : List (Nat × Bytes)

variable (c : ConnPtr) (answer : Nat → FrameAnswers)

/-- The frame is handled with the answers of its turn. -/
def Parsed.handle (at_ : Parsed) (frame : Nat × Bytes) : Parsed :=
  ⟨(dispatchFrame at_.bare c (answer at_.frames.length) frame.1 frame.2).bare, at_.frames ++ [frame]⟩

/-- The connection has become a data channel. -/
def Parsed.switched (at_ : Parsed) : Bool := at_.bare.sessions.any fun s => (at_.bare.sess s).client == some c

/-- What the bytes come to without being cut: the frames, and the bytes behind them. -/
def reference (at_ : Parsed) (bytes : Bytes) : Parsed × Bytes :=
  frameFormat.drive (Parsed.handle c answer) (Parsed.switched c) bytes.length at_ bytes

def Server.parsed (srv : Server) : Parsed := ⟨srv.bare, framesOf c srv.trace⟩

/-- What the driver has left over in the state that it is in: more bytes to come, a framing error, or input. -/
inductive Stands (old : Bytes) (at_ : Parsed) (rest : Bytes) (srv : Server) (waiting : Bytes) : Prop where
  | talking (hNot : at_.switched c = false) (hListed : c ∈ srv.conns) (hData : (srv.conn c).isData = false)
    (hOpen : (srv.conn c).wantClose = false) (hBare : srv.bare = at_.bare) (hWaits : waiting = rest)
    (hPassed : passedOn c srv.trace = old)
  | refused (hNot : at_.switched c = false) (hRest : ∃ e, readFrame rest = .refused e)
    (hDone : c ∉ srv.conns ∨
      (srv.conn c).isData = false ∧ (srv.conn c).wantClose = true ∧ ∃ e, readFrame waiting = .refused e)
    (hPassed : passedOn c srv.trace = old)
  | switched (hNow : at_.switched c = true) (hListed : c ∈ srv.conns) (hData : (srv.conn c).isData = true)
    (hOpen : (srv.conn c).wantClose = false) (hBound : ∃ s, (srv.conn c).session = some s)
    (hPassed : passedOn c srv.trace = old ++ rest)

variable {c answer} {srv : Server}

theorem switched_parsed (hLinks : srv.links.Consistent)
    (hBound : (srv.conn c).isData = true → ∃ s, (srv.conn c).session = some s) (frames : List (Nat × Bytes)) :
    Parsed.switched c ⟨srv.bare, frames⟩ = (srv.conn c).isData := by
  cases hData : (srv.conn c).isData with
  | true =>
    obtain ⟨s, hs⟩ := hBound hData
    refine List.any_eq_true.mpr ⟨s, hLinks.bound_listed c s hs, ?_⟩
    exact beq_iff_eq.mpr ((hLinks.paired c s).mp hs)
  | false =>
    refine List.any_eq_false.mpr fun s _ => ?_
    intro hClient
    cases (session_of_control hLinks hData).symm.trans ((hLinks.paired c s).mpr (beq_iff_eq.mp hClient))

theorem drive_item {at_ : Parsed} {p : Bytes} {frame : Nat × Bytes} {n : Nat} (hNot : at_.switched c = false)
    (hRead : readFrame p = .item frame n) :
    reference c answer at_ p = reference c answer (at_.handle c answer frame) (p.drop n) := by
  have hShorter : (p.drop n).length < p.length := frameFormat.drop_length_lt hRead
  obtain ⟨fuel, hFuel⟩ : ∃ fuel, p.length = fuel + 1 := Nat.exists_eq_add_one.mpr (by omega)
  unfold reference
  rw [hFuel, Format.drive, if_neg (by rw [hNot]; exact Bool.false_ne_true)]
  have hItem : frameFormat.read p = .item frame n := hRead
  rw [hItem]
  exact Format.drive_fuel (by omega) (Nat.le_refl _)

theorem drive_stops {at_ : Parsed} {p : Bytes} (h : at_.switched c = true ∨ ∀ frame n, readFrame p ≠ .item frame n) :
    reference c answer at_ p = (at_, p) := by
  unfold reference
  cases p.length with
  | zero => rfl
  | succ fuel =>
    rw [Format.drive]
    rcases h with hStop | hNone
    · rw [if_pos hStop]
    · split
      · rfl
      · split
        · rename_i frame n hRead
          exact absurd hRead (hNone frame n)
        · rfl

end Reference

section Turns

variable {srv srv' : Server} {c : ConnPtr} {ans : ConnAnswers} {answer : Nat → FrameAnswers} {old : Bytes}

/-- A frame of a calm control connection is handled as the reference handles it. -/
theorem handleFrame_calm (answer : Nat → FrameAnswers) {fans : FrameAnswers} (hLinks : srv.links.Consistent)
    (hData : (srv.conn c).isData = false) (hOpen : (srv.conn c).wantClose = false) {type : Nat} {body : Bytes}
    (hCalm : ∀ e ∈ (handleFrame srv c fans type body).trace, e.calm c = true)
    (hTurn : fans = answer (framesOf c srv.trace).length) :
    ((handleFrame srv c fans type body).conn c).wantClose = false ∧
      (handleFrame srv c fans type body).parsed c = (srv.parsed c).handle c answer (type, body) ∧
      passedOn c (handleFrame srv c fans type body).trace = passedOn c srv.trace ∧
      (((handleFrame srv c fans type body).conn c).isData = true →
        ∃ s, ((handleFrame srv c fans type body).conn c).session = some s) := by
  unfold handleFrame at hCalm ⊢
  generalize hEmit : srv.emit (.frame c type body (srv.conn c).unsent.length) = noted at hCalm ⊢
  have hSame : noted.links = srv.links ∧ noted.conn = srv.conn ∧ Alike noted srv.bare := by
    rw [← hEmit]
    exact ⟨rfl, rfl, rfl⟩
  have hNoted : framesOf c noted.trace = framesOf c srv.trace ++ [(type, body)] ∧
      passedOn c noted.trace = passedOn c srv.trace := by
    rw [← hEmit]
    constructor
    · simp [Server.emit, framesOf, Effect.frameOf]
    · simp [Server.emit, passedOn, Effect.passed]
  obtain ⟨hCons, hConn, hAlike⟩ := hSame
  obtain ⟨hKept, hFrames, hPassed, hBound⟩ := dispatchFrame_calm (hCons ▸ hLinks) (hConn ▸ hData) (hConn ▸ hOpen) hCalm
  refine ⟨hKept, ?_, hPassed.trans hNoted.2, hBound⟩
  have hBare : (dispatchFrame noted c fans type body).bare = (dispatchFrame srv.bare c fans type body).bare :=
    hAlike.dispatchFrame fans type body
  rw [Server.parsed, hFrames, hNoted.1, hBare, hTurn]
  rfl

theorem Stands.same {at_ : Parsed} {rest waiting : Bytes} (h : Stands c old at_ rest srv waiting)
    (hConns : srv'.conns = srv.conns) (hData : (srv'.conn c).isData = (srv.conn c).isData)
    (hClose : (srv'.conn c).wantClose = (srv.conn c).wantClose)
    (hSession : (srv'.conn c).session = (srv.conn c).session)
    (hTrace : srv'.trace = srv.trace) (hBare : srv'.bare = srv.bare) : Stands c old at_ rest srv' waiting := by
  cases h with
  | talking hNot hListed hControl hOpen hSame hWaits hPassed =>
    exact .talking hNot (hConns ▸ hListed) (hData.trans hControl) (hClose.trans hOpen) (hBare.trans hSame) hWaits
      ((congrArg (passedOn c) hTrace).trans hPassed)
  | refused hNot hRest hDone hPassed =>
    refine .refused hNot hRest ?_ ((congrArg (passedOn c) hTrace).trans hPassed)
    rcases hDone with hGone | ⟨hControl, hMarked, hWaits⟩
    · exact Or.inl (hConns ▸ hGone)
    · exact Or.inr ⟨hData.trans hControl, hClose.trans hMarked, hWaits⟩
  | switched hNow hListed hChannel hOpen hBound hPassed =>
    exact .switched hNow (hConns ▸ hListed) (hData.trans hChannel) (hClose.trans hOpen) (hSession ▸ hBound)
      ((congrArg (passedOn c) hTrace).trans hPassed)

/-- The parse loop does what the driver does with the bytes of the buffer. -/
theorem FrameRun.stands (answer : Nat → FrameAnswers) {turn used : Nat} {left : Option Nat}
    (hRun : FrameRun c ans turn srv used srv' left)
    (hLinks : srv.links.Consistent) (hc : c ∈ srv.conns) (hData : (srv.conn c).isData = false)
    (hOpen : (srv.conn c).wantClose = false) (hCalm : ∀ e ∈ srv'.trace, e.calm c = true)
    (hTurns : ∀ k, ans.frames (turn + k) = answer ((framesOf c srv.trace).length + k))
    (hOld : passedOn c srv.trace = old) :
    framesOf c srv'.trace = (reference c answer (srv.parsed c) ((srv.inbuf c).rbuf.drop used)).1.frames ∧
      Stands c old (reference c answer (srv.parsed c) ((srv.inbuf c).rbuf.drop used)).1
        (reference c answer (srv.parsed c) ((srv.inbuf c).rbuf.drop used)).2 srv'
        ((keepRest srv' c left).inbuf c).rbuf := by
  induction hRun with
  | more hRead =>
    rename_i turn srv used
    have hNot : Parsed.switched c (srv.parsed c) = false := by
      rw [Server.parsed, switched_parsed hLinks fun h => absurd h (by rw [hData]; exact Bool.false_ne_true), hData]
    rw [drive_stops (Or.inr fun frame n hItem => by cases hRead.symm.trans hItem), keepRest_rbuf]
    exact ⟨rfl, .talking hNot hc hData hOpen rfl rfl hOld⟩
  | refused hRead =>
    rename_i turn srv used code msg
    have hNot : Parsed.switched c (srv.parsed c) = false := by
      rw [Server.parsed, switched_parsed hLinks fun h => absurd h (by rw [hData]; exact Bool.false_ne_true), hData]
    obtain ⟨hFrames, hPassed⟩ := (silent_rejectFrame srv c ans code msg).same
    have hInbuf : (rejectFrame srv c code msg ans).inbuf = srv.inbuf := by
      unfold rejectFrame sendError
      dsimp only
      rw [connQueueFrame_eq]
      rfl
    have hMarked : ((rejectFrame srv c code msg ans).conn c).wantClose = true := by
      simp [rejectFrame, condemn, Server.modConn]
    rw [drive_stops (Or.inr fun frame n hItem => by cases hRead.symm.trans hItem), keepRest_rbuf, hInbuf]
    refine ⟨hFrames, .refused hNot ⟨_, hRead⟩ (Or.inr ⟨?_, hMarked, _, hRead⟩) (hPassed.trans hOld)⟩
    rw [rejectFrame_isData, hData]
  | switched hRead hSwitched =>
    rename_i turn srv used type n body
    have hNot : Parsed.switched c (srv.parsed c) = false := by
      rw [Server.parsed, switched_parsed hLinks fun h => absurd h (by rw [hData]; exact Bool.false_ne_true), hData]
    have hPath := path_handleFrame hLinks hc hData (ans.frames turn) type body
    have hListed : c ∈ (handleFrame srv c (ans.frames turn) type body).conns := by
      rw [Inbound.conns (hPath.mono fun _ => inbound_of_handles)]
      exact hc
    have hSwitch : Inbound c (handleFrame srv c (ans.frames turn) type body)
        (switchConn (handleFrame srv c (ans.frames turn) type body) c ans (used + n)) := inbound_switch hListed _ ans
    obtain ⟨hKept, hParsed, hPassed, hBound⟩ := handleFrame_calm answer hLinks hData hOpen
      (fun e he => hCalm e (trace_mono hSwitch e he)) (hTurns 0)
    obtain ⟨hFrames, hPassedOn, hConn⟩ := switchConn_passes ans hListed (hBound hSwitched) (used + n)
    have hConns : (switchConn (handleFrame srv c (ans.frames turn) type body) c ans (used + n)).conns =
        (handleFrame srv c (ans.frames turn) type body).conns := Inbound.conns hSwitch
    have hNow : Parsed.switched c ((handleFrame srv c (ans.frames turn) type body).parsed c) = true := by
      rw [Server.parsed, switched_parsed (Actions.consistent hPath hLinks) hBound, hSwitched]
    rw [drive_item hNot hRead, ← hParsed, drive_stops (Or.inl hNow), List.drop_drop]
    refine ⟨hFrames, .switched hNow (hConns ▸ hListed) ?_ ?_ ?_ ?_⟩
    · rw [hConn, hSwitched]
    · rw [hConn, hKept]
    · rw [hConn]
      exact hBound hSwitched
    · rw [hPassedOn, hPassed, hOld, inbuf_handleFrame hLinks hc hData]
  | condemned hRead hControl hClose =>
    rename_i turn srv used type n body
    obtain ⟨hKept, -⟩ := handleFrame_calm answer hLinks hData hOpen hCalm (hTurns 0)
    cases hClose.symm.trans hKept
  | next hRead hControl hStays rest ih =>
    rename_i turn srv srv' used type n body left
    have hNot : Parsed.switched c (srv.parsed c) = false := by
      rw [Server.parsed, switched_parsed hLinks fun h => absurd h (by rw [hData]; exact Bool.false_ne_true), hData]
    have hPath := path_handleFrame hLinks hc hData (ans.frames turn) type body
    have hListed : c ∈ (handleFrame srv c (ans.frames turn) type body).conns := by
      rw [Inbound.conns (hPath.mono fun _ => inbound_of_handles)]
      exact hc
    have hCons := Actions.consistent hPath hLinks
    obtain ⟨hKept, hParsed, hPassed, hBound⟩ := handleFrame_calm answer hLinks hData hOpen
      (fun e he => hCalm e (trace_mono (rest.path hCons hListed hControl) e he)) (hTurns 0)
    have hFrames : framesOf c (handleFrame srv c (ans.frames turn) type body).trace =
        framesOf c srv.trace ++ [(type, body)] :=
      congrArg Parsed.frames hParsed
    have hTurns' : ∀ k, ans.frames (turn + 1 + k) =
        answer ((framesOf c (handleFrame srv c (ans.frames turn) type body).trace).length + k) := by
      intro k
      rw [hFrames, List.length_append, Nat.add_assoc, hTurns (1 + k), Nat.add_assoc]
      rfl
    have hRest := ih hCons hListed hControl hKept hCalm hTurns' (hPassed.trans hOld)
    rw [inbuf_handleFrame hLinks hc hData, hParsed] at hRest
    rw [drive_item hNot hRead, List.drop_drop]
    exact hRest

variable (c) in
/-- Some daemon has what decides about the frames, and the connection is not a data channel there. -/
def Parsed.Hosted (at_ : Parsed) : Prop :=
  ∃ srv : Server, srv.links.Consistent ∧ c ∈ srv.conns ∧ (srv.conn c).isData = false ∧ srv.bare = at_.bare

theorem hosted_handle {at_ : Parsed} (h : at_.Hosted c) (frame : Nat × Bytes) :
    ((at_.handle c answer frame).switched c = false → (at_.handle c answer frame).Hosted c) ∧
      ((at_.handle c answer frame).switched c = true → frame.1 = EpiMsgType.attach.code) := by
  obtain ⟨srv, hLinks, hc, hData, hBare⟩ := h
  obtain ⟨type, body⟩ := frame
  have hPath := path_handleFrame hLinks hc hData (answer at_.frames.length) type body
  have hConns := Inbound.conns (hPath.mono fun _ => inbound_of_handles)
  have hKept := Actions.consistent hPath hLinks
  unfold handleFrame at hConns hKept
  generalize hEmit : srv.emit (.frame c type body (srv.conn c).unsent.length) = noted at hConns hKept
  have hNoted : noted.links = srv.links ∧ noted.conn = srv.conn ∧ Alike noted at_.bare := by
    rw [← hEmit, Alike, ← hBare]
    exact ⟨rfl, rfl, rfl⟩
  obtain ⟨hSame, hConn, hAlike⟩ := hNoted
  have hHandled : (dispatchFrame noted c (answer at_.frames.length) type body).bare =
      (at_.handle c answer (type, body)).bare :=
    hAlike.dispatchFrame (answer at_.frames.length) type body
  have hControl : (noted.conn c).isData = false := hConn ▸ hData
  obtain ⟨es, -, -, hEnd⟩ := dispatchFrame_attaches (hSame ▸ hLinks) hControl (answer at_.frames.length) type body
  have hFrom := @attach_of_isData noted c (hSame ▸ hLinks) hControl (answer at_.frames.length) type body
  generalize dispatchFrame noted c (answer at_.frames.length) type body = handled at hConns hKept hHandled hEnd hFrom
  have hSwitch : (at_.handle c answer (type, body)).switched c = (handled.conn c).isData := by
    have hBound : (handled.conn c).isData = true → ∃ s, (handled.conn c).session = some s := by
      intro hNow
      rcases hEnd with ⟨hOff, -⟩ | ⟨-, s, hs, -⟩
      · cases hOff.symm.trans hNow
      · exact ⟨s, hs⟩
    rw [← switched_parsed hKept hBound (at_.frames ++ [(type, body)]), hHandled]
    rfl
  refine ⟨fun hOff => ⟨handled, hKept, ?_, hSwitch.symm.trans hOff, hHandled⟩, fun hOn => ?_⟩
  · rw [hConns]
    exact hc
  · exact hFrom (hSwitch.symm.trans hOn)

end Turns

section Pieces

variable {c : ConnPtr} {answer : Nat → FrameAnswers} {srv : Server}

variable (c answer) in
/-- The run loop reads what has arrived on the connection, if epoll reports it. -/
def readPiece (srv : Server) (piece : Chunk × ConnAnswers) : Server :=
  if (Ready.conn c readable).registered srv then
    dispatchConn srv c readable { piece.2 with
      read := .bytes piece.1
      frames := fun turn => answer ((framesOf c srv.trace).length + turn) }
  else srv

variable (c answer) in
def readPieces (srv : Server) (pieces : List (Chunk × ConnAnswers)) : Server := pieces.foldl (readPiece c answer) srv

def cutBytes (pieces : List (Chunk × ConnAnswers)) : List Bytes := pieces.map fun piece => piece.1.bytes

variable (c answer srv) in
/-- No read is the end of the file, and neither memory nor the backlog limit gets in the way. -/
structure Unhindered (pieces : List (Chunk × ConnAnswers)) : Prop where
  some : ∀ piece ∈ pieces, piece.1.bytes ≠ []
  stored : ∀ piece ∈ pieces, piece.2.rbufAlloc = true
  calm : ∀ e ∈ (readPieces c answer srv pieces).trace, e.calm c = true

variable (c) in
/-- The daemon has come with the bytes read so far to where the driver is. -/
structure Follows (old : Bytes) (srv : Server) (at_ : Parsed) (rest : Bytes) : Prop where
  links : srv.links.Consistent
  watched : c ∈ srv.conns → (srv.conn c).wantClose = false → (srv.conn c).events.any readable.within = true
  frames : framesOf c srv.trace = at_.frames
  stands : Stands c old at_ rest srv (srv.inbuf c).rbuf

theorem consistent_readPiece (c : ConnPtr) (answer : Nat → FrameAnswers) (hLinks : srv.links.Consistent)
    (piece : Chunk × ConnAnswers) :
    (readPiece c answer srv piece).links.Consistent ∧ ∀ e ∈ srv.trace, e ∈ (readPiece c answer srv piece).trace := by
  unfold readPiece
  split
  · rename_i hReady
    simp only [Ready.registered, Bool.and_eq_true, List.contains_iff_mem] at hReady
    have hPath := ofConn_dispatchConn hLinks hReady.1 readable { piece.2 with
      read := .bytes piece.1
      frames := fun turn => answer ((framesOf c srv.trace).length + turn) }
    exact ⟨Actions.consistent hPath hLinks, trace_mono hPath⟩
  · exact ⟨hLinks, fun e he => he⟩

theorem readPieces_mono (pieces : List (Chunk × ConnAnswers)) (hLinks : srv.links.Consistent) :
    ∀ e ∈ srv.trace, e ∈ (readPieces c answer srv pieces).trace := by
  induction pieces generalizing srv with
  | nil => exact fun e he => he
  | cons piece pieces ih =>
    obtain ⟨hCons, hMono⟩ := consistent_readPiece c answer hLinks piece
    exact fun e he => ih hCons e (hMono e he)

theorem silent_settleConn (hc : c ∈ srv.conns) : Silent c srv (settleConn srv c) := by
  have hPath : actions.Path (fun a => a = .update c ∨ a = .close c) srv (settleConn srv c) :=
    path_settleConn (Or.inl rfl) (Or.inr rfl) hc
  refine trace_path (fun t a _ ha e he => ?_) hPath
  rcases ha with rfl | rfl
  · cases he
  · obtain rfl := List.mem_singleton.mp he
    exact ⟨rfl, rfl⟩

theorem Stands.settle {old rest : Bytes} {at_ : Parsed} (hLinks : srv.links.Consistent) (hc : c ∈ srv.conns)
    (hFrames : framesOf c srv.trace = at_.frames) (h : Stands c old at_ rest srv (srv.inbuf c).rbuf) :
    Follows c old (settleConn srv c) at_ rest := by
  have hPath : OfConn c srv (settleConn srv c) := ofConn_settleConn hc
  obtain ⟨hSameFrames, hSamePassed⟩ := (silent_settleConn hc).same
  cases hMarked : (srv.conn c).wantClose with
  | false =>
    have hSettled : settleConn srv c = connUpdate srv c := by
      unfold settleConn
      simp [hMarked, connUpdate, Server.modConn]
    have hBare : (connUpdate srv c).bare = srv.bare := rfl
    refine ⟨Actions.consistent hPath hLinks, fun _ _ => ?_, hSameFrames.trans hFrames, ?_⟩
    · rw [hSettled]
      simp [connUpdate, Server.modConn, Events.within, readable]
    · rw [hSettled] at hSamePassed ⊢
      exact h.same rfl (by simp [connUpdate, Server.modConn]) (by simp [connUpdate, Server.modConn])
        (by simp [connUpdate, Server.modConn]) rfl hBare
  | true =>
    cases h with
    | talking hNot hListed hData hOpen hSame hWaits hPassed => cases hMarked.symm.trans hOpen
    | switched hNow hListed hData hOpen hBound hPassed => cases hMarked.symm.trans hOpen
    | refused hNot hRest hDone hPassed =>
      by_cases hDrained : (srv.conn c).wlen = (srv.conn c).wpos
      · have hSettled : settleConn srv c = connClose srv c := by
          unfold settleConn
          simp [hMarked, hDrained]
        have hGone : c ∉ (settleConn srv c).conns := by
          rw [hSettled, connClose_eq]
          exact fun hIn => (hLinks.conns_nodup.mem_erase_iff.mp hIn).1 rfl
        exact ⟨Actions.consistent hPath hLinks, fun hIn => absurd hIn hGone, hSameFrames.trans hFrames,
          .refused hNot hRest (Or.inl hGone) (hSamePassed.trans hPassed)⟩
      · have hSettled : settleConn srv c = srv := by
          unfold settleConn
          simp [hMarked, hDrained]
        rw [hSettled]
        exact ⟨hLinks, fun _ hOpen => absurd (hMarked.symm.trans hOpen) (by decide), hFrames,
          .refused hNot hRest hDone hPassed⟩

theorem handleInbound_parses (data : Bytes) (ans : ConnAnswers) (hLinks : srv.links.Consistent) (hc : c ∈ srv.conns)
    (hData : (srv.conn c).isData = false) (hAlloc : ans.rbufAlloc = true) :
    ∃ srv' left, FrameRun c ans 0 (storeInbound srv c data) 0 srv' left ∧
      handleInbound srv c data ans = keepRest srv' c left := by
  have hCons : (storeInbound srv c data).links.Consistent := hLinks
  have hRun := @frameLoop_run c ans (storeInbound srv c data) hCons hc hData
    ((storeInbound srv c data).inbuf c).rbuf.length 0 0 (by omega)
  refine ⟨_, _, hRun, ?_⟩
  unfold handleInbound
  rw [if_neg (by rw [hData]; exact Bool.false_ne_true), if_neg (by simp [InBuf.growthFails, hAlloc])]
  dsimp only
  split <;> rename_i hEnd <;> rw [hEnd] <;> rfl

theorem storeInbound_silent (srv : Server) (c : ConnPtr) (data : Bytes) : Silent c srv (storeInbound srv c data) :=
  ⟨_, rfl, fun e he => by
    obtain rfl := List.mem_singleton.mp he
    exact ⟨rfl, rfl⟩⟩

theorem Follows.read {old rest : Bytes} {at_ : Parsed} (h : Follows c old srv at_ rest) {piece : Chunk × ConnAnswers}
    (hSome : piece.1.bytes ≠ []) (hAlloc : piece.2.rbufAlloc = true)
    (hCalm : ∀ e ∈ (readPiece c answer srv piece).trace, e.calm c = true) :
    Follows c old (readPiece c answer srv piece) (reference c answer at_ (rest ++ piece.1.bytes)).1
      (reference c answer at_ (rest ++ piece.1.bytes)).2 := by
  have hStands := h.stands
  unfold readPiece at hCalm ⊢
  generalize hAns : ({ piece.2 with
    read := .bytes piece.1
    frames := fun turn => answer ((framesOf c srv.trace).length + turn) } : ConnAnswers) = ans at hCalm ⊢
  have hRead : connRead srv c ans = handleInbound srv c piece.1.bytes ans := by
    rw [← hAns]
    exact if_neg hSome
  have hEvent : dispatchConn srv c readable ans = settleConn (handleInbound srv c piece.1.bytes ans) c := by
    rw [← hRead]
    rfl
  rw [hEvent] at hCalm ⊢
  cases hStands with
  | talking hNot hListed hData hOpen hBare hWaits hPassed =>
    have hReady : (Ready.conn c readable).registered srv = true := by
      simp only [Ready.registered, Bool.and_eq_true, List.contains_iff_mem]
      exact ⟨hListed, h.watched hListed hOpen⟩
    rw [if_pos hReady] at hCalm ⊢
    obtain ⟨srv', left, hRun, hEnd⟩ := handleInbound_parses piece.1.bytes ans h.links hListed hData
      (by rw [← hAns]; exact hAlloc)
    rw [hEnd] at hCalm ⊢
    obtain ⟨hKeptConn, hKeptConns, -, hKeptTrace⟩ := keepRest_same srv' c left
    have hStoreCons : (storeInbound srv c piece.1.bytes).links.Consistent := h.links
    have hPath := hRun.path hStoreCons hListed hData
    have hListed' : c ∈ (keepRest srv' c left).conns := by
      rw [hKeptConns, hPath.conns]
      exact hListed
    have hParsedCalm : ∀ e ∈ srv'.trace, e.calm c = true := fun e he =>
      hCalm e (trace_mono (ofConn_settleConn hListed') e (hKeptTrace.symm ▸ he))
    obtain ⟨hFrames, hPassed'⟩ := (storeInbound_silent srv c piece.1.bytes).same
    have hStart : Server.parsed c (storeInbound srv c piece.1.bytes) = at_ := by
      rw [Server.parsed, hFrames, h.frames]
      exact congrArg (Parsed.mk · at_.frames) hBare
    have hBuffer : ((storeInbound srv c piece.1.bytes).inbuf c).rbuf.drop 0 = rest ++ piece.1.bytes := by
      rw [List.drop_zero, ← hWaits]
      simp [storeInbound, Server.modIn, Server.emit]
    obtain ⟨hLog, hHere⟩ := hRun.stands answer hStoreCons hListed hData hOpen hParsedCalm
      (fun k => by rw [← hAns, hFrames, Nat.zero_add]) (hPassed'.trans hPassed)
    rw [hStart, hBuffer] at hLog hHere
    have hKept : Stands c old (reference c answer at_ (rest ++ piece.1.bytes)).1
        (reference c answer at_ (rest ++ piece.1.bytes)).2 (keepRest srv' c left)
          ((keepRest srv' c left).inbuf c).rbuf := by
      refine hHere.same hKeptConns ?_ ?_ ?_ hKeptTrace ?_
      · rw [hKeptConn]
      · rw [hKeptConn]
      · rw [hKeptConn]
      · cases left with
        | none => rfl
        | some used =>
          rw [keepRest, dropConsumed]
          split <;> rfl
    have hConsistent := Actions.consistent (hPath.trans (inbound_keepRest (hKeptConns ▸ hListed') left)) hStoreCons
    exact hKept.settle hConsistent hListed' ((congrArg (framesOf c) hKeptTrace).trans hLog)
  | refused hNot hRest hDone hPassed =>
    obtain ⟨e, hRefused⟩ := hRest
    have hStays : readFrame (rest ++ piece.1.bytes) = .refused e := frameFormat.refused_stable piece.1.bytes hRefused
    rw [drive_stops (Or.inr fun frame n hItem => by cases hStays.symm.trans hItem)]
    split
    · rename_i hReady
      rw [if_pos hReady] at hCalm
      simp only [Ready.registered, Bool.and_eq_true, List.contains_iff_mem] at hReady
      obtain ⟨hData, hMarked, e', hWaits⟩ := hDone.resolve_left fun hGone => hGone hReady.1
      obtain ⟨srv', left, hRun, hEnd⟩ := handleInbound_parses piece.1.bytes ans h.links hReady.1 hData
        (by rw [← hAns]; exact hAlloc)
      have hBuffer : readFrame (((storeInbound srv c piece.1.bytes).inbuf c).rbuf.drop 0) = .refused e' := by
        rw [List.drop_zero]
        simp only [storeInbound, Server.modIn, Server.emit, Function.update_self]
        exact frameFormat.refused_stable piece.1.bytes hWaits
      obtain ⟨hFrames, hPassed'⟩ := (storeInbound_silent srv c piece.1.bytes).same
      rw [hEnd]
      cases hRun with
      | more hNone => cases hBuffer.symm.trans hNone
      | switched hItem => cases hBuffer.symm.trans hItem
      | condemned hItem => cases hBuffer.symm.trans hItem
      | next hItem => cases hBuffer.symm.trans hItem
      | refused hAgain =>
        rename_i code msg
        obtain ⟨hFrames', hPassed''⟩ :=
          (silent_rejectFrame (storeInbound srv c piece.1.bytes) c ans code msg).same
        have hInbuf : (rejectFrame (storeInbound srv c piece.1.bytes) c code msg ans).inbuf =
            (storeInbound srv c piece.1.bytes).inbuf := by
          unfold rejectFrame sendError
          dsimp only
          rw [connQueueFrame_eq]
          rfl
        have hPath : Inbound c (storeInbound srv c piece.1.bytes)
          (rejectFrame (storeInbound srv c piece.1.bytes) c code msg ans) :=
          @inbound_rejectFrame (storeInbound srv c piece.1.bytes) c hReady.1 hData code msg ans
        have hListed : c ∈ (rejectFrame (storeInbound srv c piece.1.bytes) c code msg ans).conns := by
          rw [hPath.conns]
          exact hReady.1
        refine Stands.settle (Actions.consistent hPath h.links) hListed ((hFrames'.trans hFrames).trans h.frames)
          (.refused hNot ⟨e, hStays⟩ (Or.inr ⟨?_, ?_, e', ?_⟩) ((hPassed''.trans hPassed').trans hPassed))
        · change ((rejectFrame (storeInbound srv c piece.1.bytes) c code msg ans).conn c).isData = false
          rw [rejectFrame_isData]
          exact hData
        · simp [keepRest, dropConsumed, rejectFrame, condemn, Server.modConn]
        · rw [keepRest_rbuf, hInbuf]
          exact hBuffer
    · exact ⟨h.links, h.watched, h.frames, .refused hNot ⟨e, hStays⟩ hDone hPassed⟩
  | switched hNow hListed hData hOpen hBound hPassed =>
    have hReady : (Ready.conn c readable).registered srv = true := by
      simp only [Ready.registered, Bool.and_eq_true, List.contains_iff_mem]
      exact ⟨hListed, h.watched hListed hOpen⟩
    have hFeeds : handleInbound srv c piece.1.bytes ans = dataToPty srv c piece.1.bytes ans := if_pos hData
    have hFed := fed_dataToPty hListed piece.1.bytes ans
    have hInbound := inbound_dataToPty hListed piece.1.bytes ans
    obtain ⟨hFrames, hPassed'⟩ := dataToPty_passes ans hBound piece.1.bytes
    rw [if_pos hReady, hFeeds, drive_stops (Or.inl hNow)]
    refine Stands.settle (Actions.consistent hInbound h.links) (hInbound.conns.symm ▸ hListed) (hFrames.trans h.frames)
      (.switched hNow (hInbound.conns.symm ▸ hListed) ?_ ?_ ?_ ?_)
    · rw [hFed.conn, hData]
    · rw [hFed.conn, hOpen]
    · rw [hFed.conn]
      exact hBound
    · rw [hPassed', hPassed, List.append_assoc]

theorem Follows.readPieces {old rest : Bytes} {at_ : Parsed} {pieces : List (Chunk × ConnAnswers)}
    (h : Follows c old srv at_ rest) (hFree : Unhindered c answer srv pieces) :
    Follows c old (Daemon.readPieces c answer srv pieces)
      (frameFormat.feed (Parsed.handle c answer) (Parsed.switched c) (cutBytes pieces) (at_, rest)).1
      (frameFormat.feed (Parsed.handle c answer) (Parsed.switched c) (cutBytes pieces) (at_, rest)).2 := by
  induction pieces generalizing srv at_ rest with
  | nil => exact h
  | cons piece pieces ih =>
    have hMono : ∀ e ∈ (readPiece c answer srv piece).trace,
      e ∈ (Daemon.readPieces c answer srv (piece :: pieces)).trace :=
      readPieces_mono pieces (consistent_readPiece c answer h.links piece).1
    have hRead := h.read (hFree.some piece List.mem_cons_self) (hFree.stored piece List.mem_cons_self)
      fun e he => hFree.calm e (hMono e he)
    exact ih hRead ⟨fun p hp => hFree.some p (List.mem_cons_of_mem _ hp),
      fun p hp => hFree.stored p (List.mem_cons_of_mem _ hp), hFree.calm⟩

variable (c srv) in
/-- A connection that epoll watches and on which nothing has come in that is not parsed. -/
structure FreshConn : Prop where
  registered : (Ready.conn c readable).registered srv = true
  control : (srv.conn c).isData = false
  unmarked : (srv.conn c).wantClose = false
  empty : (srv.inbuf c).rbuf = []

theorem parsed_control {instanceId : Nat} (hReached : Reached instanceId srv) (hFresh : FreshConn c srv) :
    Parsed.switched c (srv.parsed c) = false := by
  rw [Server.parsed, switched_parsed hReached.consistent fun h =>
    absurd h (by rw [hFresh.control]; exact Bool.false_ne_true)]
  exact hFresh.control

/-- However the bytes are cut, the daemon comes with them to where the driver comes that is given all of them. -/
theorem readPieces_follows {instanceId : Nat} (hReached : Reached instanceId srv) (hFresh : FreshConn c srv)
    {pieces : List (Chunk × ConnAnswers)} (hFree : Unhindered c answer srv pieces) :
    Follows c (passedOn c srv.trace) (readPieces c answer srv pieces)
      (reference c answer (srv.parsed c) (cutBytes pieces).flatten).1
      (reference c answer (srv.parsed c) (cutBytes pieces).flatten).2 := by
  have hReady := hFresh.registered
  simp only [Ready.registered, Bool.and_eq_true, List.contains_iff_mem] at hReady
  have hNot := parsed_control hReached hFresh
  have hStart : Follows c (passedOn c srv.trace) srv (srv.parsed c) [] :=
    ⟨hReached.consistent, fun _ _ => hReady.2, rfl,
      .talking hNot hReady.1 hFresh.control hFresh.unmarked rfl hFresh.empty rfl⟩
  have hFed : frameFormat.feed (Parsed.handle c answer) (Parsed.switched c) (cutBytes pieces)
      (frameFormat.drive (Parsed.handle c answer) (Parsed.switched c) 0 (srv.parsed c) []) =
      reference c answer (srv.parsed c) (cutBytes pieces).flatten :=
        Format.feed_eq_drive (cutBytes pieces) (srv.parsed c) []
  rw [Format.drive_nil] at hFed
  have hEnd := hStart.readPieces hFree
  rw [hFed] at hEnd
  exact hEnd

/-- The frames dispatched are the whole frames at the front, up to a framing error or the ATTACH that makes the
connection a data channel, whose session is then passed all the bytes behind it; and how the bytes are cut into reads
decides nothing. -/
theorem chunking_independent {instanceId : Nat} (hReached : Reached instanceId srv) (hFresh : FreshConn c srv)
    {pieces pieces' : List (Chunk × ConnAnswers)} (hFree : Unhindered c answer srv pieces)
    (hFree' : Unhindered c answer srv pieces') (hSame : (cutBytes pieces).flatten = (cutBytes pieces').flatten) :
    (framesOf c (readPieces c answer srv pieces).trace = framesOf c (readPieces c answer srv pieces').trace ∧
      passedOn c (readPieces c answer srv pieces).trace = passedOn c (readPieces c answer srv pieces').trace) ∧
      ∃ done rest, frameFormat.items (cutBytes pieces).flatten.length (cutBytes pieces).flatten = done ++ rest ∧
        framesOf c (readPieces c answer srv pieces).trace = framesOf c srv.trace ++ done.map Prod.fst ∧
        (rest = [] ∧ passedOn c (readPieces c answer srv pieces).trace = passedOn c srv.trace ∨
          ((readPieces c answer srv pieces).conn c).isData = true ∧
            passedOn c (readPieces c answer srv pieces).trace =
              passedOn c srv.trace ++ (cutBytes pieces).flatten.drop (done.map Prod.snd).sum) := by
  have hHere := readPieces_follows hReached hFresh hFree
  have hThere := readPieces_follows hReached hFresh hFree'
  rw [← hSame] at hThere
  have hLog : ∀ at_ frame, (Parsed.handle c answer at_ frame).frames = at_.frames ++ [frame] := fun _ _ => rfl
  obtain ⟨done, rest, hItems, hTaken, hLeft, hAll⟩ :=
    @Format.drive_items _ _ _ _ frameFormat _ (Parsed.switched c) _ hLog
    (cutBytes pieces).flatten.length (srv.parsed c) (cutBytes pieces).flatten (Nat.le_refl _)
  refine ⟨⟨hHere.frames.trans hThere.frames.symm, ?_⟩, done, rest, hItems, hHere.frames.trans hTaken, ?_⟩
  · generalize reference c answer (srv.parsed c) (cutBytes pieces).flatten = end_ at hHere hThere
    cases hHere.stands <;> cases hThere.stands <;> simp_all
  · cases hHere.stands with
    | talking hNot hListed hData hOpen hBare hWaits hPassed => exact Or.inl ⟨hAll hNot, hPassed⟩
    | refused hNot hRest hDone hPassed => exact Or.inl ⟨hAll hNot, hPassed⟩
    | switched hNow hListed hData hOpen hBound hPassed =>
      refine Or.inr ⟨hData, hPassed.trans ?_⟩
      rw [← hLeft]
      rfl

/-- The frame that makes the connection a data channel is an ATTACH. -/
theorem attach_last {instanceId : Nat} (hReached : Reached instanceId srv) (hFresh : FreshConn c srv) {bytes : Bytes}
    {frames : List (Nat × Bytes)}
    (hTaken : (reference c answer (srv.parsed c) bytes).1.frames = framesOf c srv.trace ++ frames)
    (hNow : (reference c answer (srv.parsed c) bytes).1.switched c = true) :
    ∃ front body, frames = front ++ [(EpiMsgType.attach.code, body)] := by
  have hReady := hFresh.registered
  simp only [Ready.registered, Bool.and_eq_true, List.contains_iff_mem] at hReady
  have hKeep : ∀ at_ frame, at_.Hosted c ∧ framesOf c srv.trace <+: at_.frames →
      (Parsed.handle c answer at_ frame).switched c = false → (Parsed.handle c answer at_ frame).Hosted c ∧
        framesOf c srv.trace <+: (Parsed.handle c answer at_ frame).frames := by
    rintro at_ frame ⟨hHosted, hFrames⟩ hOff
    exact ⟨(hosted_handle hHosted frame).1 hOff, hFrames.trans (List.prefix_append _ _)⟩
  obtain ⟨at_, frame, ⟨hHosted, front, hFrames⟩, hLast⟩ := Format.drive_stopped hKeep
    ⟨⟨srv, hReached.consistent, hReady.1, hFresh.control, rfl⟩, List.prefix_refl _⟩
    (parsed_control hReached hFresh) hNow
  have hType := (hosted_handle hHosted frame).2 (hLast ▸ hNow)
  refine ⟨front, frame.2, List.append_cancel_left (hTaken.symm.trans ?_)⟩
  unfold reference
  rw [hLast, ← hType, ← List.append_assoc, hFrames]
  rfl

/-- What comes of the bytes is the same for every cut: the frames at the front, all of them or up to the ATTACH that gets
through, and then the bytes behind it. -/
theorem frames_of_any_cut {instanceId : Nat} (hReached : Reached instanceId srv) (hFresh : FreshConn c srv)
    (bytes : Bytes) :
    ∃ done rest passed, frameFormat.items bytes.length bytes = done ++ rest ∧
      (rest = [] ∧ passed = [] ∨
        passed = bytes.drop (done.map Prod.snd).sum ∧
          ∃ front body, done.map Prod.fst = front ++ [(EpiMsgType.attach.code, body)]) ∧
      ∀ pieces, Unhindered c answer srv pieces → (cutBytes pieces).flatten = bytes →
        framesOf c (readPieces c answer srv pieces).trace = framesOf c srv.trace ++ done.map Prod.fst ∧
          passedOn c (readPieces c answer srv pieces).trace = passedOn c srv.trace ++ passed ∧
          (rest ≠ [] ∨ passed ≠ [] → ((readPieces c answer srv pieces).conn c).isData = true) := by
  have hLog : ∀ at_ frame, (Parsed.handle c answer at_ frame).frames = at_.frames ++ [frame] := fun _ _ => rfl
  obtain ⟨done, rest, hItems, hTaken, hLeft, hAll⟩ :=
    @Format.drive_items _ _ _ _ frameFormat _ (Parsed.switched c) _ hLog bytes.length (srv.parsed c) bytes (Nat.le_refl _)
  cases hNow : (reference c answer (srv.parsed c) bytes).1.switched c with
  | true =>
    refine ⟨done, rest, _, hItems, Or.inr ⟨rfl, attach_last hReached hFresh hTaken hNow⟩, ?_⟩
    rintro pieces hFree rfl
    have hHere := readPieces_follows hReached hFresh hFree
    refine ⟨hHere.frames.trans hTaken, ?_⟩
    cases hHere.stands with
    | talking hNot => cases hNot.symm.trans hNow
    | refused hNot => cases hNot.symm.trans hNow
    | switched _ _ hData _ _ hPassed =>
      refine ⟨?_, fun _ => hData⟩
      rw [hPassed, ← hLeft]
      rfl
  | false =>
    refine ⟨done, rest, [], hItems, Or.inl ⟨hAll hNow, rfl⟩, ?_⟩
    rintro pieces hFree rfl
    have hHere := readPieces_follows hReached hFresh hFree
    refine ⟨hHere.frames.trans hTaken, ?_, fun hMore => absurd (hAll hNow) (hMore.elim id fun h => absurd rfl h)⟩
    rw [List.append_nil]
    cases hHere.stands with
    | talking _ _ _ _ _ _ hPassed => exact hPassed
    | refused _ _ _ hPassed => exact hPassed
    | switched hSwitched => cases hNow.symm.trans hSwitched

end Pieces

/-- A client makes a session, attaches to it and types two bytes, without waiting for a reply. -/
def hastyBytes : Bytes := createRequest ++ requestFor 3 ++ [111, 107]

def hastyPiece (bytes : Bytes) (h : bytes.length ≤ ptyReadChunk) : Chunk × ConnAnswers :=
  (⟨bytes, h⟩, calmConn [] [] (Nat.zero_le _) 0 ⟨0⟩)

def inOneRead : List (Chunk × ConnAnswers) := [hastyPiece hastyBytes (by decide)]

/-- Cut in the length word of the first frame, in the second frame and between the two bytes. -/
def inFourReads : List (Chunk × ConnAnswers) :=
  [hastyPiece (hastyBytes.take 2) (by decide), hastyPiece ((hastyBytes.drop 2).take 26) (by decide),
    hastyPiece ((hastyBytes.drop 28).take 9) (by decide), hastyPiece (hastyBytes.drop 37) (by decide)]

def hastyAnswer : Nat → FrameAnswers := fun _ => calmFrame 100 ⟨0⟩

def readCalmly (srv : Server) (pieces : List (Chunk × ConnAnswers)) : Bool :=
  pieces.all (fun piece => !piece.1.bytes.isEmpty && piece.2.rbufAlloc) &&
    (readPieces 0 hastyAnswer srv pieces).trace.all (Effect.calm 0)

theorem unhindered_of_readCalmly {srv : Server} {pieces : List (Chunk × ConnAnswers)}
    (h : readCalmly srv pieces = true) :
    Unhindered 0 hastyAnswer srv pieces := by
  simp only [readCalmly, Bool.and_eq_true, List.all_eq_true, Bool.not_eq_true', List.isEmpty_eq_false_iff] at h
  exact ⟨fun piece hp => (h.1 piece hp).1, fun piece hp => (h.1 piece hp).2, h.2⟩

theorem hasty_unhindered : ∃ loop, (machine 7).run accepting = some loop ∧ FreshConn 0 loop.srv ∧
    Unhindered 0 hastyAnswer loop.srv inOneRead ∧ Unhindered 0 hastyAnswer loop.srv inFourReads ∧
      passedOn 0 loop.srv.trace = [] ∧
      passedOn 0 (readPieces 0 hastyAnswer loop.srv inFourReads).trace = [111, 107] := by
  have hRun : ((machine 7).run accepting).any fun loop =>
      readCalmly loop.srv inOneRead && readCalmly loop.srv inFourReads && (Ready.conn 0 readable).registered loop.srv &&
        !(loop.srv.conn 0).isData && !(loop.srv.conn 0).wantClose && (loop.srv.inbuf 0).rbuf.isEmpty &&
        (passedOn 0 loop.srv.trace).isEmpty &&
        decide (passedOn 0 (readPieces 0 hastyAnswer loop.srv inFourReads).trace = [111, 107]) := by
    decide +kernel
  obtain ⟨loop, hLoop, hHere⟩ := (machine 7).exists_of_run_any hRun
  simp only [Bool.and_eq_true, Bool.not_eq_true', List.isEmpty_iff, decide_eq_true_eq] at hHere
  obtain ⟨⟨⟨⟨⟨⟨⟨hOne, hFour⟩, hReady⟩, hControl⟩, hUnmarked⟩, hEmpty⟩, hNone⟩, hTyped⟩ := hHere
  exact ⟨loop, hLoop, ⟨hReady, hControl, hUnmarked, hEmpty⟩, unhindered_of_readCalmly hOne,
    unhindered_of_readCalmly hFour, hNone, hTyped⟩

theorem chunking_independent_hasty :
    ∃ loop, (machine 7).run accepting = some loop ∧
      framesOf 0 (readPieces 0 hastyAnswer loop.srv inOneRead).trace =
        framesOf 0 (readPieces 0 hastyAnswer loop.srv inFourReads).trace ∧
      passedOn 0 (readPieces 0 hastyAnswer loop.srv inOneRead).trace =
        passedOn 0 (readPieces 0 hastyAnswer loop.srv inFourReads).trace := by
  obtain ⟨loop, hLoop, hFresh, hOne, hFour, -⟩ := hasty_unhindered
  exact ⟨loop, hLoop, (chunking_independent (reached_of_run hLoop) hFresh hOne hFour (by decide)).1⟩

theorem frames_of_any_cut_hasty :
    ∃ loop, (machine 7).run accepting = some loop ∧
      passedOn 0 (readPieces 0 hastyAnswer loop.srv inOneRead).trace = [111, 107] ∧
      ((readPieces 0 hastyAnswer loop.srv inOneRead).conn 0).isData = true := by
  obtain ⟨loop, hLoop, hFresh, hOne, hFour, hNone, hTyped⟩ := hasty_unhindered
  obtain ⟨done, rest, passed, -, -, hCuts⟩ := @frames_of_any_cut 0 hastyAnswer _ _ (reached_of_run hLoop) hFresh hastyBytes
  have hPassed : passed = [111, 107] := by
    rw [← hTyped, (hCuts inFourReads hFour (by decide)).2.1, hNone, List.nil_append]
  obtain ⟨-, hRead, hSwitched⟩ := hCuts inOneRead hOne (by decide)
  refine ⟨loop, hLoop, ?_, hSwitched (Or.inr ?_)⟩
  · rw [hRead, hNone, hPassed, List.nil_append]
  · rw [hPassed]
    exact List.cons_ne_nil _ _

end Epimone.Daemon
