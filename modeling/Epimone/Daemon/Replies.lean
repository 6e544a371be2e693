import Epimone.Daemon.Changes
import Epimone.Daemon.Runs

/-! # The replies

The stream of a connection is what its socket has been handed and what is still
queued for it. A request adds exactly one frame to the stream of the requester
and nothing to any other, and a request that is refused changes nothing else.
-/
set_option autoImplicit false

namespace Epimone.Daemon

open Transition

def handedBy (c : ConnPtr) : Effect → Bytes
  | .wrote d data => if d = c then data else []
  | _ => []

def handedOver (c : ConnPtr) (history : List Effect) : Bytes := history.flatMap (handedBy c)

def Server.outbound (srv : Server) (c : ConnPtr) : Bytes :=
  handedOver c srv.trace ++ (srv.conn c).unsent

theorem handedOver_append (c : ConnPtr) (before after : List Effect) :
    handedOver c (before ++ after) = handedOver c before ++ handedOver c after :=
  List.flatMap_append

theorem handedOver_eq_nil {c : ConnPtr} {es : List Effect} (h : ∀ e ∈ es, ∀ d data, e ≠ .wrote d data) :
    handedOver c es = [] := by
  apply List.flatMap_eq_nil_iff.mpr
  intro e he
  cases e with
  | wrote d data => exact absurd rfl (h _ he d data)
  | _ => rfl

theorem reply_ne_error {type : Nat} {request : EpiMsgType}
    (h : EpiMsgType.ofRequest type = some request) : request.reply ≠ .error := by
  unfold EpiMsgType.ofRequest at h
  split at h <;> cases h <;> decide

/-- No allocation fails while the frame is handled. -/
structure FrameAnswers.Ample (ans : FrameAnswers) : Prop where
  rdAlloc : ∀ n, ans.rdAlloc n = true
  bufAlloc : ∀ n, ans.bufAlloc n = true
  queueAlloc : ans.queueAlloc = true
  replayAlloc : ans.replayAlloc = true
  snapAlloc : ∃ junk, ans.snapAlloc = .block junk
  groupAlloc : ans.groupAlloc = true
  blobAlloc : ans.blobAlloc = true
  sessionAlloc : ans.spawn.sessionAlloc = true
  ringAlloc : ∃ junk, ans.spawn.ringAlloc = .block junk
  cwdAlloc : ans.spawn.cwdAlloc = true

section Streams

variable {srv : Server} {c d : ConnPtr} {ans : FrameAnswers}

theorem not_wrote_of_backstage {a : Act} (h : a.backstage = true) :
    ∀ e ∈ a.effects srv, ∀ d data, e ≠ .wrote d data := by
  intro e he d data
  rintro rfl
  cases a <;> first | (simp [Act.effects] at he; done) | cases h

theorem outbound_backstage_act {a : Act} (h : a.backstage = true) :
    (a.perform srv).outbound d = srv.outbound d := by
  have hUnsent : ((a.perform srv).conn d).unsent = (srv.conn d).unsent := by
    apply conn_perform_field Connection.unsent
    intro e k hAfter
    cases a <;> first | (cases hAfter; done) | (cases hAfter; rfl) | cases h
  rw [Server.outbound, trace_perform, handedOver_append, handedOver_eq_nil (not_wrote_of_backstage h),
    List.append_nil, hUnsent]
  rfl

theorem Backstage.outbound {mid : Server} (h : Backstage srv mid) : mid.outbound d = srv.outbound d := by
  refine Actions.Path.related (R := fun s t => t.outbound d = s.outbound d) (fun _ => rfl) ?_ ?_ h
  · intro s t u hFirst hSecond
    exact hSecond.trans hFirst
  · intro s a _ hBack
    exact outbound_backstage_act hBack

theorem outbound_queued {srv' : Server} {es : List Effect} {k : Connection} {sent : Bytes}
    (hTrace : srv'.trace = srv.trace ++ es) (hQuiet : ∀ e ∈ es, ∀ d data, e ≠ .wrote d data)
    (hConn : srv'.conn = Function.update srv.conn c k) (hUnsent : k.unsent = (srv.conn c).unsent ++ sent) :
    srv'.outbound c = srv.outbound c ++ sent ∧ ∀ d, d ≠ c → srv'.outbound d = srv.outbound d := by
  have hHanded : ∀ d, handedOver d srv'.trace = handedOver d srv.trace := by
    intro d
    rw [hTrace, handedOver_append, handedOver_eq_nil hQuiet, List.append_nil]
  constructor
  · rw [Server.outbound, hHanded, hConn, Function.update_self, hUnsent, ← List.append_assoc]
    rfl
  · intro d hd
    rw [Server.outbound, hHanded, hConn, Function.update_of_ne hd]
    rfl

theorem queueFrame_unsent (k : Connection) (b : EpiBuf) (alloc : Bool) :
    ∃ sent, (queueFrame k b alloc).unsent = k.unsent ++ sent ∧
      (sent = [] ∨ b.oom = false ∧ sent = b.data) ∧
      (b.oom = false → alloc = true → sent = b.data) := by
  unfold queueFrame
  cases hOom : b.oom with
  | true => exact ⟨[], (List.append_nil _).symm, Or.inl rfl, fun h => nomatch h⟩
  | false =>
    cases hFails : k.growthFails b.data.length alloc with
    | true =>
      refine ⟨[], ?_, Or.inl rfl, ?_⟩
      · rw [List.append_nil]
        exact connQueue_unsent_of_fails hFails
      · rintro - rfl
        simp [Connection.growthFails] at hFails
    | false => exact ⟨b.data, connQueue_unsent hFails, Or.inr ⟨rfl, rfl⟩, fun _ _ => rfl⟩

theorem not_wrote_frameEffects (k : Connection) (b : EpiBuf) (alloc : Bool) :
    ∀ e ∈ frameEffects k c b alloc, ∀ d data, e ≠ .wrote d data := by
  rintro e he d data rfl
  simp at he

/-- A reply reaches the requester whole or not at all, and nobody else. -/
theorem outbound_reply (srv : Server) (c : ConnPtr) (ans : FrameAnswers) {b : EpiBuf} {kind : EpiMsgType}
    {body : Bytes} (hBody : b.Opened ans.bufAlloc kind body) :
    ∃ sent, (reply srv c ans b).outbound c = srv.outbound c ++ sent ∧
      (sent = [] ∨ sent = frameBytes kind.code body) ∧
      (ans.Ample → sent = frameBytes kind.code body) ∧
      ∀ d, d ≠ c → (reply srv c ans b).outbound d = srv.outbound d := by
  obtain ⟨sent, hUnsent, hAlternatives, hAmple⟩ :=
    queueFrame_unsent (srv.conn c) (epiMsgEnd b) ans.queueAlloc
  have hFrame := hBody.sealed
  have hEq := connQueueFrame_eq srv c (epiMsgEnd b) ans.queueAlloc
  obtain ⟨hOwn, hOther⟩ := outbound_queued (congrArg Server.trace hEq) (not_wrote_frameEffects _ _ _)
    (congrArg Server.conn hEq) hUnsent
  refine ⟨sent, hOwn, ?_, ?_, hOther⟩
  · rcases hAlternatives with hNone | ⟨hOom, hSent⟩
    · exact Or.inl hNone
    · exact Or.inr (hSent.trans (hFrame.data_eq hOom))
  · intro h
    have hOom := hFrame.sound h.bufAlloc
    exact (hAmple hOom h.queueAlloc).trans (hFrame.data_eq hOom)

theorem opened_greeting (srv : Server) (c : ConnPtr) (s : SessPtr) (ans : FrameAnswers) :
    (greeting srv c s ans).Filled ans.bufAlloc
      (frameBytes EpiMsgType.attached.code (infoBytes { srv.sess s with client := some c })) := by
  apply EpiBuf.Opened.sealed
  exact (opened_epiMsgStart .attached).put fun bytes hb => filled_putSessionInfo hb _

/-- The attach sends the ATTACHED frame, and after it the ring. -/
theorem outbound_bindClient (srv : Server) (c : ConnPtr) {ans : FrameAnswers} (s : SessPtr)
    (hAmple : ans.Ample) :
    (bindClient srv c ans s).outbound c = srv.outbound c ++
        (frameBytes EpiMsgType.attached.code (infoBytes { srv.sess s with client := some c }) ++
          (srv.sess s).out.ring.contents) ∧
      ∀ d, d ≠ c → (bindClient srv c ans s).outbound d = srv.outbound d := by
  have hFrame := opened_greeting srv c s ans
  have hOom := hFrame.sound hAmple.bufAlloc
  have hGreeted : (greeted srv c s ans).unsent = (srv.conn c).unsent ++
      frameBytes EpiMsgType.attached.code (infoBytes { srv.sess s with client := some c }) := by
    rw [← hFrame.data_eq hOom]
    unfold greeted queueFrame
    rw [if_neg (by rw [hOom]; decide)]
    exact connQueue_unsent (by simp [Connection.growthFails, hAmple.queueAlloc])
  have hRing : ((srv.sess s).out.snapshot ans.snapAlloc).getD [] = (srv.sess s).out.ring.contents := by
    obtain ⟨junk, hBlock⟩ := hAmple.snapAlloc
    rw [hBlock, OutRing.snapshot_block]
    split
    · rename_i hEmpty
      have hLength := (srv.sess s).out.valid.length_contents
      rw [hEmpty] at hLength
      exact (List.eq_nil_of_length_eq_zero hLength).symm
    · rfl
  have hReplayed : (replayed (greeted srv c s ans) (srv.sess s).out ans).unsent =
      (srv.conn c).unsent ++ (frameBytes EpiMsgType.attached.code
        (infoBytes { srv.sess s with client := some c }) ++ (srv.sess s).out.ring.contents) := by
    unfold replayed
    rw [connQueue_unsent (by simp [Connection.growthFails, hAmple.replayAlloc]), hGreeted, hRing,
      List.append_assoc]
  rw [bindClient_eq]
  refine outbound_queued rfl ?_ rfl hReplayed
  rintro e he d data rfl
  simp [attachEffects] at he

def errorBody (code : EpiErrCode) (msg : String) : Bytes := littleEndian 4 code.code ++ strBytes (ascii msg)

theorem opened_refuse (srv : Server) (c : ConnPtr) (ans : FrameAnswers) (code : EpiErrCode) (msg : String) :
    ∃ b, refuse srv c ans code msg = reply srv c ans b ∧ b.Opened ans.bufAlloc .error (errorBody code msg) := by
  have hPut : ∀ bytes, (epiMsgStart ans.bufAlloc .error).Filled ans.bufAlloc bytes →
      (epiBufPutStr ans.bufAlloc (epiBufPutU32 ans.bufAlloc (epiMsgStart ans.bufAlloc .error) code.code)
        (ascii msg)).Filled ans.bufAlloc (bytes ++ errorBody code msg) := by
    intro bytes hb
    rw [errorBody, ← List.append_assoc]
    exact (hb.putU32 code.code).putStr (ascii msg)
  exact ⟨_, rfl, (opened_epiMsgStart .error).put hPut⟩

theorem refuse_eq (srv : Server) (c : ConnPtr) (ans : FrameAnswers) (code : EpiErrCode) (msg : String) :
    ∃ b body, refuse srv c ans code msg = reply srv c ans b ∧ b.Opened ans.bufAlloc .error body := by
  obtain ⟨b, hReply, hBody⟩ := opened_refuse srv c ans code msg
  exact ⟨b, errorBody code msg, hReply, hBody⟩

theorem Outcome.one_reply {request : Option EpiMsgType} {srv' : Server}
    (h : Outcome srv c ans request srv') (hAmple : ans.Ample) :
    ∃ (kind : EpiMsgType) (payload raw : Bytes),
      srv'.outbound c = srv.outbound c ++ (frameBytes kind.code payload ++ raw) ∧
      (kind = .error ∨ ∃ r, request = some r ∧ kind = r.reply) ∧
      (raw ≠ [] → kind = .attached) ∧
      (kind = .attached → ∃ s, (srv'.conn c).session = some s ∧ raw = (srv.sess s).out.ring.contents) ∧
      ∀ d, d ≠ c → srv'.outbound d = srv.outbound d := by
  have hFramed : ∀ {mid : Server} {b : EpiBuf} {kind : EpiMsgType} {body : Bytes}, Backstage srv mid →
      b.Opened ans.bufAlloc kind body →
      (reply mid c ans b).outbound c = srv.outbound c ++ (frameBytes kind.code body ++ []) ∧
        ∀ d, d ≠ c → (reply mid c ans b).outbound d = srv.outbound d := by
    intro mid b kind body before hBody
    obtain ⟨sent, hOwn, _, hWhole, hOther⟩ := outbound_reply mid c ans hBody
    rw [hOwn, hWhole hAmple, List.append_nil, before.outbound]
    exact ⟨rfl, fun d hd => (hOther d hd).trans before.outbound⟩
  have hRefused : ∀ {mid : Server}, Backstage srv mid → ∀ code msg, ∃ body,
      (refuse mid c ans code msg).outbound c =
          srv.outbound c ++ (frameBytes EpiMsgType.error.code body ++ []) ∧
        ∀ d, d ≠ c → (refuse mid c ans code msg).outbound d = srv.outbound d := by
    intro mid before code msg
    obtain ⟨b, body, hReply, hBody⟩ := refuse_eq mid c ans code msg
    rw [hReply]
    exact ⟨body, hFramed before hBody⟩
  cases h with
  | refused code msg =>
    obtain ⟨body, hOwn, hOther⟩ := hRefused (.refl _) code msg
    exact ⟨.error, body, [], hOwn, Or.inl rfl, fun hRaw => absurd rfl hRaw, nofun, hOther⟩
  | uncreated hRequest before _ _ code msg =>
    obtain ⟨body, hOwn, hOther⟩ := hRefused before code msg
    exact ⟨.error, body, [], hOwn, Or.inl rfl, fun hRaw => absurd rfl hRaw, nofun, hOther⟩
  | replied hRequest hPlain before hBody =>
    rename_i r b
    obtain ⟨body, hBody⟩ := hBody
    obtain ⟨hOwn, hOther⟩ := hFramed before hBody
    refine ⟨r.reply, body, [], hOwn, Or.inr ⟨r, hRequest, rfl⟩, fun hRaw => absurd rfl hRaw, ?_, hOther⟩
    intro hAttached
    cases r <;> first | exact absurd rfl hPlain | cases hAttached
  | attached hRequest before s hs hRemoved hClient hRing =>
    rename_i mid
    obtain ⟨hOwn, hOther⟩ := outbound_bindClient mid c s hAmple
    refine ⟨.attached, infoBytes { mid.sess s with client := some c }, (mid.sess s).out.ring.contents, ?_,
      Or.inr ⟨.attach, hRequest, rfl⟩, fun _ => rfl, fun _ => ⟨s, ?_, by rw [hRing]⟩, ?_⟩
    · rw [hOwn, before.outbound]
    · rw [bindClient_eq]
      simp [greeted]
    · exact fun d hd => (hOther d hd).trans before.outbound

/-- Every request is answered by exactly one frame, on the connection it came from. -/
theorem dispatchFrame_one_reply {instanceId : Nat} (hReached : Reached instanceId srv) (c : ConnPtr)
    (hAmple : ans.Ample) (type : Nat) (body : Bytes) :
    ∃ (kind : EpiMsgType) (payload raw : Bytes),
      (dispatchFrame srv c ans type body).outbound c =
        srv.outbound c ++ (frameBytes kind.code payload ++ raw) ∧
      (4 + payload.length < 2 ^ 32 → WellFormed (frameBytes kind.code payload) kind.code) ∧
      (kind = .error ∨ ∃ request, EpiMsgType.ofRequest type = some request ∧ kind = request.reply) ∧
      (raw ≠ [] → kind = .attached) ∧
      (kind = .attached → ∃ s, ((dispatchFrame srv c ans type body).conn c).session = some s ∧
        raw = (srv.sess s).out.ring.contents) ∧
      ∀ d, d ≠ c → (dispatchFrame srv c ans type body).outbound d = srv.outbound d := by
  obtain ⟨kind, payload, raw, hOwn, hKind, hRaw, hRing, hOther⟩ :=
    (outcome_dispatchFrame (c := c) hReached.consistent ans type body).one_reply hAmple
  exact ⟨kind, payload, raw, hOwn, wellFormed_frameBytes kind.code_lt, hKind, hRaw, hRing, hOther⟩

theorem calmFrame_ample (pid : Nat) (clock : Timespec) : (calmFrame pid clock).Ample :=
  ⟨fun _ => rfl, fun _ => rfl, rfl, rfl, ⟨_, rfl⟩, rfl, rfl, rfl, ⟨_, rfl⟩, rfl⟩

/-- A client asks for the list of sessions. -/
theorem dispatchFrame_one_reply_listing :
    ∃ loop, (machine 7).run accepting = some loop ∧ 0 ∈ loop.srv.conns ∧
      ∃ kind payload raw, (dispatchFrame loop.srv 0 (calmFrame 100 ⟨0⟩) 2 []).outbound 0 =
        loop.srv.outbound 0 ++ (frameBytes (EpiMsgType.code kind) payload ++ raw) := by
  have hRun : ((machine 7).run accepting).any fun loop => loop.srv.conns.contains 0 := by decide +kernel
  obtain ⟨loop, hLoop, hConn⟩ := (machine 7).exists_of_run_any hRun
  obtain ⟨kind, payload, raw, hReply, -⟩ :=
    dispatchFrame_one_reply (reached_of_run hLoop) 0 (calmFrame_ample 100 ⟨0⟩) 2 []
  exact ⟨loop, hLoop, by simpa using hConn, kind, payload, raw, hReply⟩

theorem Unchanged.trans {mid srv' : Server} (h : Unchanged srv mid) (h' : Unchanged mid srv') :
    Unchanged srv srv' := by
  constructor
  · exact h'.sessions.trans h.sessions
  · intro s hs
    exact (h'.sess s (by rw [h.sessions]; exact hs)).trans (h.sess s hs)
  · exact h'.groups.trans h.groups
  · exact h'.nextGroupId.trans h.nextGroupId
  · exact h'.instanceId.trans h.instanceId
  · exact h'.running.trans h.running
  · exact h'.conns.trans h.conns
  · exact fun d => (h'.bound d).trans (h.bound d)
  · exact fun d => (h'.control d).trans (h.control d)

theorem unchanged_connQueueFrame (srv : Server) (c : ConnPtr) (b : EpiBuf) (alloc : Bool) :
    Unchanged srv (connQueueFrame srv c b alloc) := by
  rw [connQueueFrame_eq]
  refine ⟨rfl, fun _ _ => rfl, rfl, rfl, rfl, rfl, rfl, ?_, ?_⟩ <;>
  · intro d
    by_cases hSame : d = c
    · subst hSame
      simp
    · simp [hSame]

theorem nextId_refuse (srv : Server) (c : ConnPtr) (ans : FrameAnswers) (code : EpiErrCode) (msg : String) :
    (refuse srv c ans code msg).nextId = srv.nextId := by
  obtain ⟨b, body, hReply, -⟩ := refuse_eq srv c ans code msg
  rw [hReply, reply, connQueueFrame_eq]

theorem Outcome.unchanged {type : Nat} {srv' : Server} {payload : Bytes}
    (h : Outcome srv c ans (EpiMsgType.ofRequest type) srv')
    (hError : srv'.outbound c = srv.outbound c ++ frameBytes EpiMsgType.error.code payload)
    (hControl : (srv'.conn c).isData = false) :
    Unchanged srv srv' ∧ (srv'.nextId = srv.nextId ∨
      EpiMsgType.ofRequest type = some .create ∧ srv'.nextId = srv.nextId + 1) := by
  cases h with
  | refused code msg =>
    exact ⟨unchanged_connQueueFrame srv c _ _, Or.inl (nextId_refuse srv c ans code msg)⟩
  | uncreated hRequest before hSame hNext code msg =>
    rename_i mid
    refine ⟨hSame.trans (unchanged_connQueueFrame mid c _ _), ?_⟩
    rw [nextId_refuse]
    exact hNext.imp_right fun hNext => ⟨hRequest, hNext⟩
  | replied hRequest hPlain before hBody =>
    rename_i mid r b
    obtain ⟨body, hBody⟩ := hBody
    obtain ⟨sent, hOwn, hSent, _⟩ := outbound_reply mid c ans hBody
    rw [hOwn, before.outbound] at hError
    have hSame : sent = frameBytes EpiMsgType.error.code payload := List.append_cancel_left hError
    rcases hSent with hNone | hWhole
    · have hLength := congrArg List.length (hNone.symm.trans hSame)
      rw [length_frameBytes] at hLength
      simp at hLength
      omega
    · have hFrames : frameBytes r.reply.code body = frameBytes EpiMsgType.error.code payload ++ [] := by
        rw [List.append_nil, ← hWhole, hSame]
      have hType := type_of_frameBytes_prefix r.reply.code_lt EpiMsgType.error.code_lt hFrames
      exact absurd (EpiMsgType.code_injective hType) (reply_ne_error hRequest)
  | attached hRequest before s hs hRemoved hClient hRing =>
    rw [bindClient_eq] at hControl
    simp [greeted] at hControl

/-- A request that is answered with ERROR has changed nothing, but that a CREATE may have used up an id. A
connection that becomes a data channel carries no more frames. -/
theorem dispatchFrame_error_unchanged {instanceId : Nat} (hReached : Reached instanceId srv)
    {type : Nat} {body payload : Bytes}
    (hError : (dispatchFrame srv c ans type body).outbound c =
      srv.outbound c ++ frameBytes EpiMsgType.error.code payload)
    (hControl : ((dispatchFrame srv c ans type body).conn c).isData = false) :
    Unchanged srv (dispatchFrame srv c ans type body) ∧
      ((dispatchFrame srv c ans type body).nextId = srv.nextId ∨
        EpiMsgType.ofRequest type = some .create ∧
          (dispatchFrame srv c ans type body).nextId = srv.nextId + 1) :=
  (outcome_dispatchFrame hReached.consistent ans type body).unchanged hError hControl

/-- A client sends a message of a type that is not one. -/
theorem dispatchFrame_error_unchanged_unknown :
    ∃ loop, (machine 7).run accepting = some loop ∧
      Unchanged loop.srv (dispatchFrame loop.srv 0 (calmFrame 100 ⟨0⟩) 99 []) := by
  have hRun : ((machine 7).run accepting).any fun loop =>
      ((dispatchFrame loop.srv 0 (calmFrame 100 ⟨0⟩) 99 []).outbound 0 == loop.srv.outbound 0 ++
        frameBytes EpiMsgType.error.code (littleEndian 4 1 ++ strBytes (ascii "unknown message type"))) &&
      !((dispatchFrame loop.srv 0 (calmFrame 100 ⟨0⟩) 99 []).conn 0).isData := by
    decide +kernel
  obtain ⟨loop, hLoop, hBoth⟩ := (machine 7).exists_of_run_any hRun
  rw [Bool.and_eq_true, beq_iff_eq, Bool.not_eq_true'] at hBoth
  exact ⟨loop, hLoop, (dispatchFrame_error_unchanged (reached_of_run hLoop) hBoth.1 hBoth.2).1⟩

end Streams

end Epimone.Daemon
