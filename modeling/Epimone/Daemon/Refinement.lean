import Epimone.Daemon.Handlers

/-! # Handlers as sequences of actions

Every handler of the daemon performs a sequence of actions whose guards hold. A
request is answered in one way: some actions behind the scenes, then either one
frame for the requester or its attach.
-/
set_option autoImplicit false

namespace Epimone.Daemon

open Transition

/-- The two ways in which a frame is answered. -/
inductive Answered (srv : Server) (c : ConnPtr) (ans : FrameAnswers) : Server → Prop where
  | reply {mid : Server} (before : Backstage srv mid) (b : EpiBuf) :
    Answered srv c ans (connQueueFrame mid c b ans.queueAlloc)
  | attach {mid : Server} (before : Backstage srv mid) (s : SessPtr) (hs : s ∈ mid.sessions)
    (hRemoved : (mid.sess s).removed = false)
    (hClient : (mid.sess s).client = none ∨ (mid.sess s).client = some c) :
    Answered srv c ans (bindClient mid c ans s)

section Requests

variable {srv : Server} {c : ConnPtr} {ans : FrameAnswers}

theorem Outcome.answered {request : Option EpiMsgType} {srv' : Server}
    (h : Outcome srv c ans request srv') : Answered srv c ans srv' := by
  cases h with
  | refused code msg => exact .reply (.refl _) _
  | uncreated _ before _ _ code msg => exact .reply before _
  | replied _ _ before _ => exact .reply before _
  | attached _ before s hs hRemoved hClient _ => exact .attach before s hs hRemoved hClient

theorem answered_dispatchFrame (h : srv.links.Consistent) (ans : FrameAnswers) (type : Nat)
    (body : Bytes) :
    Answered srv c ans (dispatchFrame srv c ans type body) :=
  (outcome_dispatchFrame h ans type body).answered

theorem backstage_relink {a : Act} (hBack : a.backstage = true) (l : Links) :
    (a.relink l).conns = l.conns ∧ (a.relink l).isData = l.isData := by
  cases a <;> first | exact ⟨rfl, rfl⟩ | cases hBack

theorem Backstage.control {mid : Server} (h : Backstage srv mid) :
    mid.conns = srv.conns ∧ ∀ d, (mid.conn d).isData = (srv.conn d).isData := by
  refine Actions.Path.related (R := fun s t => t.conns = s.conns ∧
    ∀ d, (t.conn d).isData = (s.conn d).isData) (fun _ => ⟨rfl, fun _ => rfl⟩) ?_ ?_ h
  · rintro s t u ⟨hConns, hData⟩ ⟨hConns', hData'⟩
    exact ⟨hConns'.trans hConns, fun d => (hData' d).trans (hData d)⟩
  · intro s a hGuard hBack
    obtain ⟨hConns, hData⟩ := backstage_relink hBack s.links
    have hLinks := links_perform hGuard
    exact ⟨(congrArg Links.conns hLinks).trans hConns,
      fun d => congrFun ((congrArg Links.isData hLinks).trans hData) d⟩

theorem backstage_effects {a : Act} (hBack : a.backstage = true) (q : Enqueue) :
    .enqueued c q ∉ a.effects srv := by
  cases a <;> first | (simp [Act.effects]; done) | cases hBack

theorem Backstage.awaiting {mid : Server} (h : Backstage srv mid) (hAwait : srv.Awaiting c) :
    mid.Awaiting c := by
  refine Actions.Path.invariant (P := fun t => t.Awaiting c) ?_ h hAwait
  rintro t a ⟨before, e, after, hSplit, hAsks, hAfter⟩ hGuard hBack
  refine ⟨before, e, after ++ a.effects t, ?_, hAsks, ?_⟩
  · change (a.perform t).trace = _
    rw [trace_perform, hSplit]
    simp
  · intro q hQueued
    exact (List.mem_append.mp hQueued).elim (hAfter q) (backstage_effects hBack q)

theorem path_connQueueFrame {allowed : Act → Prop} (hc : c ∈ srv.conns)
    (hData : (srv.conn c).isData = false) (hAwait : srv.Awaiting c)
    (hAnswers : ∀ a : Act, a.answers c = true → allowed a)
    (b : EpiBuf) (alloc : Bool) : actions.Path allowed srv (connQueueFrame srv c b alloc) := by
  unfold connQueueFrame
  split
  · exact perform_path (.starve c) hc (hAnswers _ (beq_self_eq_true c))
  · exact perform_path (.queue c b.data alloc) ⟨hc, hData, hAwait⟩ (hAnswers _ (beq_self_eq_true c))

theorem Answered.path {srv' : Server} {allowed : Act → Prop} (h : Answered srv c ans srv')
    (hc : c ∈ srv.conns) (hData : (srv.conn c).isData = false) (hAwait : srv.Awaiting c)
    (hBackstage : ∀ a : Act, a.backstage = true → allowed a)
    (hAnswers : ∀ a : Act, a.answers c = true → allowed a) : actions.Path allowed srv srv' := by
  cases h with
  | reply before b =>
    obtain ⟨hConns, hSame⟩ := before.control
    refine (before.mono hBackstage).trans
      (path_connQueueFrame ?_ ?_ (before.awaiting hAwait) hAnswers b _)
    · rw [hConns]; exact hc
    · rw [hSame]; exact hData
  | attach before s hs hRemoved hClient =>
    obtain ⟨hConns, hSame⟩ := before.control
    refine path_perform (before.mono hBackstage) (.attach c s ans)
      ⟨?_, ?_, hs, hRemoved, hClient, before.awaiting hAwait⟩ (hAnswers _ (beq_self_eq_true c))
    · rw [hConns]; exact hc
    · rw [hSame]; exact hData

end Requests

section Inbound

variable {srv : Server} {c : ConnPtr} {allowed : Act → Prop}

theorem path_ptyUpdate (hFeeds : ∀ a : Act, a.feeds = true → allowed a) (s : SessPtr) :
    actions.Path allowed srv (ptyUpdate srv s) := by
  unfold ptyUpdate
  split
  · exact .refl _
  · rename_i hOpen
    have hPty : (srv.sess s).ptyOpen = true := by simpa using hOpen
    exact perform_path (.updatePty s) hPty (hFeeds _ rfl)

theorem path_epiSessionFlushInput (hFeeds : ∀ a : Act, a.feeds = true → allowed a) (s : SessPtr)
    (outcomes : List WriteOutcome) :
    actions.Path allowed srv (epiSessionFlushInput srv s outcomes) := by
  unfold epiSessionFlushInput
  split
  · exact perform_path (.setPin s [] (srv.sess s).pinCap) trivial (hFeeds _ rfl)
  · rename_i hOpen
    have hPty : (srv.sess s).ptyOpen = true := by simpa using hOpen
    exact perform_path (.writePin s _ _) hPty (hFeeds _ rfl)

theorem path_epiSessionQueueInput (hFeeds : ∀ a : Act, a.feeds = true → allowed a) (s : SessPtr)
    (data : Bytes) (alloc : Bool) (outcomes : List WriteOutcome) :
    actions.Path allowed srv (epiSessionQueueInput srv s data alloc outcomes) := by
  unfold epiSessionQueueInput
  dsimp only
  split
  · exact .refl _
  split
  · have hStored : actions.Path allowed srv _ :=
      perform_path (.setPin s ((srv.sess s).pin ++ data) (srv.sess s).pinCap) trivial (hFeeds _ rfl)
    exact hStored.trans (path_epiSessionFlushInput hFeeds s outcomes)
  split
  · have hStored : actions.Path allowed srv _ :=
      perform_path (.setPin s ((srv.sess s).pin ++ data)
        (grownCapacity ((srv.sess s).pin.length + data.length) (srv.sess s).pinCap)) trivial
        (hFeeds _ rfl)
    exact hStored.trans (path_epiSessionFlushInput hFeeds s outcomes)
  · exact .refl _

abbrev Inbound (c : ConnPtr) (srv srv' : Server) : Prop :=
  actions.Path (fun a => a.inbound c = true) srv srv'

theorem inbound_of_feeds {a : Act} (h : a.feeds = true) : a.inbound c = true := by
  simp [Act.inbound, h]

theorem inbound_of_answers {a : Act} (h : a.answers c = true) : a.inbound c = true := by
  simp [Act.inbound, h]

theorem path_dataToPty (hFeeds : ∀ a : Act, a.feeds = true → allowed a) {data : Bytes}
    (hInput : ∀ s, allowed (.input s c data)) (hc : c ∈ srv.conns) (ans : ConnAnswers) :
    actions.Path allowed srv (dataToPty srv c data ans) := by
  unfold dataToPty
  split
  · exact .refl _
  · rename_i s hBound
    have hNoted : actions.Path allowed srv (srv.emit (.input s c data)) :=
      perform_path (.input s c data) ⟨hc, hBound⟩ (hInput s)
    exact (hNoted.trans (path_epiSessionQueueInput hFeeds s data _ _)).trans (path_ptyUpdate hFeeds s)

/-- The actions by which a data channel feeds its session. -/
def Act.feedsFrom (c : ConnPtr) : Act → Bool
  | .input _ d _ => d == c
  | a => a.feeds

abbrev Fed (c : ConnPtr) (srv srv' : Server) : Prop :=
  actions.Path (fun a => a.feedsFrom c = true) srv srv'

theorem fed_dataToPty (hc : c ∈ srv.conns) (data : Bytes) (ans : ConnAnswers) :
    Fed c srv (dataToPty srv c data ans) := by
  refine path_dataToPty ?_ (fun _ => beq_self_eq_true c) hc ans
  intro a ha
  cases a <;> first | exact ha | cases ha

theorem Fed.conn {srv' : Server} (h : Fed c srv srv') : srv'.conn = srv.conn := by
  refine Actions.Path.related (R := fun t u => u.conn = t.conn) (fun _ => rfl) ?_ ?_ h
  · intro t u v hFirst hSecond
    exact hSecond.trans hFirst
  · intro t a _ ha
    cases a <;> first | rfl | cases ha

theorem inbound_dataToPty (hc : c ∈ srv.conns) (data : Bytes) (ans : ConnAnswers) :
    Inbound c srv (dataToPty srv c data ans) :=
  path_dataToPty (fun _ => inbound_of_feeds) (fun _ => by simp [Act.inbound]) hc ans

theorem inbound_condemn (hc : c ∈ srv.conns) : Inbound c srv (condemn srv c) :=
  perform_path (.condemn c) hc (by simp [Act.inbound])

theorem inbound_rejectFrame (hc : c ∈ srv.conns) (hData : (srv.conn c).isData = false)
    (code : EpiErrCode) (msg : String) (ans : ConnAnswers) :
    Inbound c srv (rejectFrame srv c code msg ans) := by
  unfold rejectFrame sendError
  dsimp only
  generalize hNoted : srv.emit (.framingError c (srv.conn c).unsent.length (srv.conn c).polled) = noted
  have hError : Inbound c srv noted := by
    rw [← hNoted]
    exact perform_path (.framingError c) ⟨hc, hData⟩ (by simp [Act.inbound])
  have hControl : c ∈ noted.conns ∧ (noted.conn c).isData = false ∧ noted.Awaiting c := by
    rw [← hNoted]
    exact ⟨hc, hData, srv.trace, _, [], rfl, beq_self_eq_true c, by simp⟩
  refine (hError.trans (path_connQueueFrame hControl.1 hControl.2.1 hControl.2.2
    (fun _ => inbound_of_answers) _ _)).trans (inbound_condemn ?_)
  rw [connQueueFrame_eq]
  exact hControl.1

/-- An inbound action other than the attach leaves a control connection one. -/
theorem inbound_relink {a : Act} (hIn : a.inbound c = true) (l : Links) :
    (a.relink l).conns = l.conns := by
  cases a <;> first | rfl | simp [Act.inbound, Act.backstage, Act.answers, Act.feeds] at hIn

theorem Inbound.conns {srv' : Server} (h : Inbound c srv srv') : srv'.conns = srv.conns := by
  refine Actions.Path.related (R := fun s t => t.conns = s.conns) (fun _ => rfl) ?_ ?_ h
  · intro s t u hFirst hSecond
    exact hSecond.trans hFirst
  intro s a hGuard hIn
  exact (congrArg Links.conns (links_perform hGuard)).trans (inbound_relink hIn s.links)

theorem Actions.consistent {srv' : Server} (h : actions.Path allowed srv srv')
    (hStart : srv.links.Consistent) : srv'.links.Consistent :=
  Actions.Path.invariant (P := fun srv => srv.links.Consistent)
    (fun _ _ hCons hGuard _ => consistent_perform hCons hGuard) h hStart

theorem inbound_switch (hc : c ∈ srv.conns) (rest : Bytes) (ans : ConnAnswers) :
    Inbound c srv (freeInbound (if rest = [] then srv else dataToPty srv c rest ans) c) := by
  have hFree : ∀ {t : Server}, c ∈ t.conns → Inbound c t (freeInbound t c) := fun ht =>
    perform_path (.freeInbound c) ht (by simp [Act.inbound])
  split
  · exact hFree hc
  · have hFed := inbound_dataToPty hc rest ans
    exact hFed.trans (hFree (by rw [hFed.conns]; exact hc))

theorem inbound_dropConsumed (hc : c ∈ srv.conns) (used : Nat) :
    Inbound c srv (dropConsumed srv c used) := by
  unfold dropConsumed
  split
  · exact perform_path (.consume c used) hc (by simp [Act.inbound])
  · exact .refl _

end Inbound

end Epimone.Daemon
