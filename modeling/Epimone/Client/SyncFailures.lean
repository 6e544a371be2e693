import Epimone.Client.ActiveTab
import Epimone.Client.Transactions
import Epimone.Daemon.ReplyCodec

/-! # Syncs that fail

A sync asks the daemon for one thing after another, each on a connection of its
own, and anything may come between: no connection, a reply that is cut off, an
ERROR. Whatever it is, a GROUP_SET that fails is followed by a new group.
-/
set_option autoImplicit false

namespace Epimone.Client

open Daemon Program

def blobSizeOk (len : Nat) : Except GError Unit :=
  if len ≤ epiGroupBlobMax then .ok ()
  else .error ⟨1, ascii "layout blob is " ++ ascii (toString len) ++ ascii " bytes, over the " ++
    ascii (toString epiGroupBlobMax) ++ ascii " byte limit"⟩

def epimoneClientGroupNew (x : Exchange) (blob : Bytes) : Except GError UInt64 := do
  blobSizeOk blob.length
  let body ← replyTo x .groupId "unexpected reply to GROUP_NEW"
  return .ofNat (epiRdU64 (epiRdInit body)).1

def epimoneClientGroupSet (x : Exchange) (blob : Bytes) : Except GError Unit := do
  blobSizeOk blob.length
  (replyTo x .ok "unexpected reply to GROUP_SET").map fun _ => ()

def epimoneClientGroupAdd (x : Exchange) : Except GError Unit :=
  (replyTo x .ok "unexpected reply to GROUP_ADD").map fun _ => ()

/-- What a request meets: the daemon as it is then, whether it can be reached and takes the request, and how
much of the reply arrives. -/
structure Meeting where
  srv : Server
  c : ConnPtr
  ans : FrameAnswers
  refusal : Option Bytes
  requestAlloc : Bool
  writeError : Option Bytes
  taken : Bool
  arrives : Nat
  rdAlloc : Nat → Bool

namespace Meeting

variable (m : Meeting) (request : Request)

def handled : Server := dispatchFrame m.srv m.c m.ans request.kind.code request.body

/-- What the daemon adds to the stream of the connection. -/
def answer : Bytes := (m.handled request).outbound m.c |>.drop (m.srv.outbound m.c).length

def exchange : Exchange :=
  ⟨m.refusal, m.requestAlloc, m.writeError, if m.taken then (m.answer request).take m.arrives else [], m.rdAlloc⟩

/-- The request reaches the daemon and a group comes of it. -/
def Creates : Prop :=
  m.refusal = none ∧ m.requestAlloc = true ∧ m.writeError = none ∧ m.taken = true ∧
    m.srv.nextGroupId < (m.handled request).nextGroupId

end Meeting

/-- The requests of a sync, and the blob of the page. -/
structure SyncPass where
  text : Option Bytes
  set : Meeting
  new : Meeting
  add : Nat → Meeting

namespace SyncPass

variable (pass : SyncPass) (page : EpimonePage)

/-- The blob to be sent, unless there is nothing to sync. -/
def due : Option Bytes :=
  if page.zoomed then none
  else if page.root.collectSessionIds = [] then none
  else pass.text

def groupSet (text : Bytes) : Except GError Unit :=
  epimoneClientGroupSet (pass.set.exchange (.groupSet page.groupId text)) text

def groupNew (text : Bytes) : Except GError UInt64 :=
  epimoneClientGroupNew (pass.new.exchange (.groupNew (some text))) text

def groupAdd (gid sid : UInt64) (i : Nat) : Except GError Unit :=
  epimoneClientGroupAdd ((pass.add i).exchange (.groupAdd gid sid))

def updateGroup (text : Bytes) : EpimonePage :=
  if page.groupId = 0 then page
  else
    match pass.groupSet page text with
    | .ok _ => page
    | .error _ => page.setGroupId 0

def createGroup (text : Bytes) : EpimonePage :=
  if page.groupId ≠ 0 then page
  else
    match pass.groupNew text with
    | .ok gid => if gid = 0 then page else page.setGroupId gid
    | .error _ => page

def enroll (gid : UInt64) (page : EpimonePage) (entry : UInt64 × Nat) : EpimonePage :=
  let (sid, i) := entry
  if sid ∈ page.enrolled then page
  else
    match pass.groupAdd gid sid i with
    | .ok _ => page.markEnrolled sid
    | .error _ => page

def syncPageGroup : EpimonePage :=
  match pass.due page with
  | none => page
  | some text =>
    let page := pass.createGroup (pass.updateGroup page text) text
    if page.groupId = 0 then page
    else page.root.collectSessionIds.zipIdx.foldl (pass.enroll page.groupId) page

/-- The group is there whenever the daemon is asked. -/
structure Throughout : Prop where
  named : page.groupId ≠ 0
  set : findGroup pass.set.srv page.groupId.toNat ≠ none
  new : findGroup pass.new.srv page.groupId.toNat ≠ none
  add : ∀ i < page.root.collectSessionIds.length, findGroup (pass.add i).srv page.groupId.toNat ≠ none

/-- GROUP_NEW is sent and the daemon makes a group. -/
def Mints : Prop :=
  ∃ text, pass.due page = some text ∧ (pass.updateGroup page text).groupId = 0 ∧ text.length ≤ epiGroupBlobMax ∧
    pass.new.Creates (.groupNew (some text))

/-- GROUP_SET is answered by an ERROR with the code NOT_FOUND. -/
def NotFound : Prop :=
  ∃ text e, pass.due page = some text ∧ pass.groupSet page text = .error e ∧ e.code = EpiErrCode.notFound.code

/-- A page whose group is there all the time stays with it, and a group is made only for want of one. -/
structure KeepsGroup : Prop where
  groupId : pass.Throughout page → (pass.syncPageGroup page).groupId = page.groupId
  enrolled : pass.Throughout page → ∀ sid, sid ∈ (pass.syncPageGroup page).enrolled ↔ sid ∈ page.enrolled ∨
    (pass.due page).isSome ∧ ∃ i, page.root.collectSessionIds[i]? = some sid ∧ pass.groupAdd page.groupId sid i = .ok ()
  single : pass.Throughout page → ¬ pass.Mints page
  listed : pass.Throughout page → ∀ (v : TabView) (width height : Int) (maximized : Bool),
    pass.syncPageGroup page ∈ v.pages → page.groupId ∈ (windowToVariant v width height maximized).gids
  minted : pass.Mints page → page.groupId = 0 ∨ pass.NotFound page

/-- GROUP_SET is not sent, or it is answered by OK or NOT_FOUND, or the group is not there all the time and no
other one can be made. -/
def Spares : Prop :=
  ∀ text, pass.due page = some text → page.groupId ≠ 0 →
    pass.groupSet page text = .ok () ∨ pass.NotFound page ∨
      ¬ pass.Throughout page ∧ ¬ (text.length ≤ epiGroupBlobMax ∧ pass.new.Creates (.groupNew (some text)))

end SyncPass

/-! What a client makes of the bytes that arrive. -/

section Received

variable {x : Exchange} {type : Nat} {body : Bytes}

theorem controlTxn_eq_ok (h : controlTxn x = .ok (type, body)) :
    x.refusal = none ∧ x.requestAlloc = true ∧ x.writeError = none ∧ recvFrame x.received = .ok (type, body) := by
  unfold controlTxn at h
  cases hRefusal : x.refusal with
  | some reason =>
    rw [hRefusal] at h
    cases h
  | none =>
    rw [hRefusal] at h
    cases hAlloc : x.requestAlloc with
    | false =>
      rw [sendFrame, hAlloc] at h
      cases h
    | true =>
      cases hWrite : x.writeError with
      | some reason =>
        rw [sendFrame, hAlloc, hWrite] at h
        cases h
      | none =>
        rw [sendFrame, hAlloc, hWrite] at h
        exact ⟨rfl, rfl, rfl, h⟩

theorem recvFrame_take {kind : EpiMsgType} {payload sent : Bytes} {n : Nat} (hSize : 4 + payload.length < 2 ^ 32)
    (hSent : sent = [] ∨ sent = frameBytes kind.code payload) (h : recvFrame (sent.take n) = .ok (type, body)) :
    type = kind.code ∧ body = payload := by
  rcases hSent with rfl | rfl
  · rw [List.take_nil] at h
    cases h
  have hLength := length_frameBytes kind.code payload
  unfold recvFrame at h
  split at h
  · cases h
  next hLong =>
  rw [not_lt, List.length_take, hLength] at hLong
  have hWord : ((frameBytes kind.code payload).take n).take 4 = littleEndian 4 (4 + payload.length) := by
    rw [List.take_take, min_eq_left (by omega), take_frameBytes]
  dsimp only at h
  rw [hWord, ofLittleEndian_littleEndian_of_lt hSize] at h
  split at h
  · cases h
  split at h
  · cases h
  next hWhole =>
  rw [not_lt, List.length_take, hLength] at hWhole
  have hAll : (frameBytes kind.code payload).take n = frameBytes kind.code payload :=
    List.take_of_length_le (by omega)
  have hType : ((frameBytes kind.code payload).drop 4).take 4 = littleEndian 4 kind.code := by
    rw [drop_frameBytes]
    exact List.take_left' (length_littleEndian _ _)
  have hBody : (frameBytes kind.code payload).drop 8 = payload := by
    rw [show 8 = 4 + 4 from rfl, ← List.drop_drop, drop_frameBytes]
    exact List.drop_left' (length_littleEndian _ _)
  rw [hAll, hType, hBody, ofLittleEndian_littleEndian_of_lt kind.code_lt] at h
  cases h
  exact ⟨rfl, List.take_of_length_le (by omega)⟩

theorem code_sendFrame {e : GError} (h : sendFrame x = .error e) : e.code = 1 := by
  unfold sendFrame at h
  split at h
  · cases h
    rfl
  split at h <;> cases h
  rfl

theorem code_recvFrame {received : Bytes} {e : GError} (h : recvFrame received = .error e) : e.code = 1 := by
  unfold recvFrame at h
  split at h
  · cases h
    rfl
  dsimp only at h
  split at h
  · cases h
    rfl
  split at h <;> cases h
  rfl

theorem code_controlTxn {e : GError} (h : controlTxn x = .error e) : e.code = 1 := by
  unfold controlTxn at h
  split at h
  · cases h
    rfl
  cases hSend : sendFrame x with
  | error e' =>
    rw [hSend] at h
    cases h
    exact code_sendFrame hSend
  | ok _ =>
    rw [hSend] at h
    exact code_recvFrame h

/-- A code of the daemon is one that an ERROR has brought. -/
theorem replyTo_notFound {reply : EpiMsgType} {unexpected : String} {e : GError}
    (h : replyTo x reply unexpected = .error e) (hCode : e.code = EpiErrCode.notFound.code) :
    ∃ body, controlTxn x = .ok (EpiMsgType.error.code, body) ∧
      (value (Decoder.errorReply x.rdAlloc) (.start body)).1 = EpiErrCode.notFound.code := by
  have hLocal : e.code ≠ 1 := by
    rw [hCode]
    decide
  unfold replyTo at h
  cases hTxn : controlTxn x with
  | error e' =>
    rw [hTxn] at h
    cases h
    exact absurd (code_controlTxn hTxn) hLocal
  | ok frame =>
    obtain ⟨type, body⟩ := frame
    rw [hTxn] at h
    dsimp only [bind, Except.bind] at h
    cases hError : replyIsError x.rdAlloc type body with
    | some e' =>
      rw [hError] at h
      unfold replyIsError at hError
      split at hError
      · next hType =>
        cases h
        cases hError
        have hWord : (value (Decoder.errorReply x.rdAlloc) (.start body)).1 < 2 ^ 32 :=
          Decoder.value_rdU32_lt (.start body)
        exact ⟨body, by rw [hType], eq_of_gint_eq hWord hCode⟩
      · cases hError
    | none =>
      rw [hError] at h
      dsimp only at h
      split at h <;> cases h
      exact absurd rfl hLocal

theorem groupSet_notFound {blob : Bytes} {e : GError} (h : epimoneClientGroupSet x blob = .error e)
    (hCode : e.code = EpiErrCode.notFound.code) :
    blob.length ≤ epiGroupBlobMax ∧ replyTo x .ok "unexpected reply to GROUP_SET" = .error e := by
  unfold epimoneClientGroupSet blobSizeOk at h
  split at h
  · next hFits =>
    refine ⟨hFits, ?_⟩
    change (replyTo x .ok "unexpected reply to GROUP_SET").map (fun _ => ()) = .error e at h
    cases hReply : replyTo x .ok "unexpected reply to GROUP_SET" with
    | error e' =>
      rw [hReply] at h
      cases h
      rfl
    | ok _ =>
      rw [hReply] at h
      cases h
  · cases h
    cases hCode

theorem groupNew_eq_ok {blob : Bytes} {gid : UInt64} (h : epimoneClientGroupNew x blob = .ok gid) :
    blob.length ≤ epiGroupBlobMax ∧ ∃ body, replyTo x .groupId "unexpected reply to GROUP_NEW" = .ok body := by
  unfold epimoneClientGroupNew blobSizeOk at h
  split at h
  · next hFits =>
    refine ⟨hFits, ?_⟩
    cases hReply : replyTo x .groupId "unexpected reply to GROUP_NEW" with
    | error e =>
      rw [hReply] at h
      cases h
    | ok body => exact ⟨body, rfl⟩
  · cases h

theorem value_errorReply (alloc : Nat → Bool) {code : EpiErrCode} {msg : String}
    (hSize : 4 + (errorBody code msg).length < 2 ^ 32) :
    (value (Decoder.errorReply alloc) (.start (errorBody code msg))).1 = code.code := by
  have hCode : code.code < 2 ^ 32 := by cases code <;> decide
  have hRead : Decodes (strBytes (ascii msg)) Decoder.rdU32 (littleEndian 4 code.code) code.code := decodes_count hCode
  exact (hRead.yields (Nat.lt_of_le_of_lt (Nat.le_add_left _ 4) hSize)).1

end Received

namespace Meeting

variable {m : Meeting} {request : Request}

theorem answer_reply {srv : Server} {b : EpiBuf} {kind : EpiMsgType} {body : Bytes}
    (h : m.handled request = reply srv m.c m.ans b) (hSame : srv.outbound m.c = m.srv.outbound m.c)
    (hBody : b.Opened m.ans.bufAlloc kind body) :
    m.answer request = [] ∨ m.answer request = frameBytes kind.code body := by
  obtain ⟨sent, hOwn, hSent, -⟩ := outbound_reply srv m.c m.ans hBody
  have hAnswer : m.answer request = sent := by
    rw [answer, h, hOwn, hSame]
    exact List.drop_left
  rwa [hAnswer]

theorem received_reply {srv : Server} {b : EpiBuf} {kind : EpiMsgType} {payload : Bytes}
    (h : m.handled request = reply srv m.c m.ans b) (hSame : srv.outbound m.c = m.srv.outbound m.c)
    (hBody : b.Opened m.ans.bufAlloc kind payload) (hSize : 4 + payload.length < 2 ^ 32) {type : Nat} {body : Bytes}
    (hTxn : controlTxn (m.exchange request) = .ok (type, body)) :
    type = kind.code ∧ body = payload ∧ m.refusal = none ∧ m.requestAlloc = true ∧ m.writeError = none ∧
    m.taken = true := by
  obtain ⟨hRefusal, hAlloc, hWrite, hReceived⟩ := controlTxn_eq_ok hTxn
  change recvFrame (if m.taken then (m.answer request).take m.arrives else []) = .ok (type, body) at hReceived
  split at hReceived
  · next hTaken =>
    obtain ⟨hType, hSame⟩ := recvFrame_take hSize (answer_reply h hSame hBody) hReceived
    exact ⟨hType, hSame, hRefusal, hAlloc, hWrite, hTaken⟩
  · cases hReceived

end Meeting

/-! What the daemon answers. -/

section Handlers

variable (srv : Server) (c : ConnPtr) (ans : FrameAnswers) (r : EpiRd)

theorem handleGroupSet_answers :
    (∃ code msg, 8 + (ascii msg).length < 2 ^ 10 ∧ (code = EpiErrCode.notFound → findGroup srv (epiRdU64 r).1 = none) ∧
      handleGroupSet srv c ans r = refuse srv c ans code msg) ∨
    ∃ blob, handleGroupSet srv c ans r = acknowledge (setGroupBlob srv (epiRdU64 r).1 blob) c ans := by
  unfold handleGroupSet
  split
  next gid rest hGid =>
  split
  next blob rest' hBlob =>
  rw [hGid]
  dsimp only
  split
  · exact Or.inl ⟨_, _, by decide, Not.elim (by decide), rfl⟩
  split
  · exact Or.inl ⟨_, _, by decide, Not.elim (by decide), rfl⟩
  split
  · next hNone => exact Or.inl ⟨_, _, by decide, fun _ => hNone, rfl⟩
  split
  · exact Or.inl ⟨_, _, by decide, Not.elim (by decide), rfl⟩
  · exact Or.inr ⟨_, rfl⟩

theorem handleGroupNew_answers :
    (∃ code msg, 8 + (ascii msg).length < 2 ^ 10 ∧ handleGroupNew srv c ans r = refuse srv c ans code msg) ∨
    ∃ g, handleGroupNew srv c ans r = reply (linkGroup srv g) c ans
      (epiBufPutU64 ans.bufAlloc (epiMsgStart ans.bufAlloc .groupId) (linkGroup srv g).nextGroupId) := by
  unfold handleGroupNew
  split
  dsimp only
  split
  · exact Or.inl ⟨_, _, by decide, rfl⟩
  split
  · exact Or.inl ⟨_, _, by decide, rfl⟩
  split
  · exact Or.inl ⟨_, _, by decide, rfl⟩
  split
  · exact Or.inl ⟨_, _, by decide, rfl⟩
  · next g _ => exact Or.inr ⟨g, rfl⟩

theorem length_errorBody_lt {code : EpiErrCode} {msg : String} (h : 8 + (ascii msg).length < 2 ^ 10) :
    4 + (errorBody code msg).length < 2 ^ 32 := by
  have hString : (cString (ascii msg)).length ≤ (ascii msg).length :=
    (List.takeWhile_prefix _).length_le
  rw [errorBody, List.length_append, length_littleEndian, strBytes, length_blobBytes]
  omega

end Handlers

namespace Meeting

variable {m : Meeting}

/-- NOT_FOUND says that the group is gone. -/
theorem gone_of_notFound {gid : UInt64} {text : Bytes} {e : GError}
    (h : epimoneClientGroupSet (m.exchange (.groupSet gid text)) text = .error e)
    (hCode : e.code = EpiErrCode.notFound.code) : findGroup m.srv gid.toNat = none := by
  obtain ⟨hFits, hReply⟩ := groupSet_notFound h hCode
  obtain ⟨body, hTxn, hValue⟩ := replyTo_notFound hReply hCode
  have hGid := (@reads_groupSet (fun _ => true) (fun _ => rfl) gid text hFits).1
  have hHandled : m.handled (.groupSet gid text) =
      handleGroupSet m.srv m.c m.ans (epiRdInit (Request.groupSet gid text).body) := rfl
  rcases handleGroupSet_answers m.srv m.c m.ans (epiRdInit (Request.groupSet gid text).body) with
    ⟨code, msg, hSmall, hGone, hRefused⟩ | ⟨blob, hGranted⟩
  · obtain ⟨b, hSent, hBody⟩ := opened_refuse m.srv m.c m.ans code msg
    have hSize : 4 + (errorBody code msg).length < 2 ^ 32 := length_errorBody_lt hSmall
    obtain ⟨-, hPayload, -⟩ := received_reply (hHandled.trans (hRefused.trans hSent)) rfl hBody hSize hTxn
    rw [hPayload, value_errorReply _ hSize] at hValue
    have hNotFound : code = .notFound := by
      cases code <;> first | rfl | cases hValue
    rw [← hGid]
    exact hGone hNotFound
  · obtain ⟨hType, -⟩ := received_reply (hHandled.trans hGranted) rfl (opened_epiMsgStart .ok) (by decide) hTxn
    cases hType

theorem creates_of_groupNew {text : Bytes} {gid : UInt64}
    (h : epimoneClientGroupNew (m.exchange (.groupNew (some text))) text = .ok gid) :
    text.length ≤ epiGroupBlobMax ∧ m.Creates (.groupNew (some text)) := by
  obtain ⟨hFits, body, hReply⟩ := groupNew_eq_ok h
  have hTxn := (replyTo_eq_ok (by decide)).mp hReply
  have hHandled : m.handled (.groupNew (some text)) =
      handleGroupNew m.srv m.c m.ans (epiRdInit (Request.groupNew (some text)).body) := rfl
  refine ⟨hFits, ?_⟩
  rcases handleGroupNew_answers m.srv m.c m.ans (epiRdInit (Request.groupNew (some text)).body) with
    ⟨code, msg, hSmall, hRefused⟩ | ⟨g, hGranted⟩
  · obtain ⟨b, hSent, hBody⟩ := opened_refuse m.srv m.c m.ans code msg
    have hSize : 4 + (errorBody code msg).length < 2 ^ 32 := length_errorBody_lt hSmall
    obtain ⟨hType, -⟩ := received_reply (hHandled.trans (hRefused.trans hSent)) rfl hBody hSize hTxn
    cases hType
  · have hSame : (linkGroup m.srv g).outbound m.c = m.srv.outbound m.c :=
      @outbound_backstage_act m.srv m.c (.newGroup g) rfl
    have hBody := (@opened_epiMsgStart m.ans.bufAlloc .groupId).put fun bytes hb =>
      hb.putU64 (linkGroup m.srv g).nextGroupId
    have hSize : 4 + (([] : Bytes) ++ u64Bytes (linkGroup m.srv g).nextGroupId).length < 2 ^ 32 := by
      rw [List.nil_append, length_u64Bytes]
      decide
    obtain ⟨-, -, hReaches⟩ := received_reply (hHandled.trans hGranted) hSame hBody hSize hTxn
    obtain ⟨hRefusal, hAlloc, hWrite, hTaken⟩ := hReaches
    refine ⟨hRefusal, hAlloc, hWrite, hTaken, ?_⟩
    rw [hHandled, hGranted, reply, connQueueFrame_eq]
    exact Nat.lt_succ_self _

end Meeting

namespace SyncPass

variable {pass : SyncPass} {page : EpimonePage} {gid : UInt64} {text : Bytes}

theorem mem_enroll {page : EpimonePage} {entry : UInt64 × Nat} {sid : UInt64} :
    sid ∈ (pass.enroll gid page entry).enrolled ↔
      sid ∈ page.enrolled ∨ sid = entry.1 ∧ pass.groupAdd gid entry.1 entry.2 = .ok () := by
  obtain ⟨first, i⟩ := entry
  unfold enroll
  dsimp only
  split
  · next hEnrolled =>
    refine ⟨Or.inl, ?_⟩
    rintro (hOld | ⟨rfl, -⟩)
    · exact hOld
    · exact hEnrolled
  next hNew =>
  cases hAdd : pass.groupAdd gid first i with
  | ok _ => simp [EpimonePage.markEnrolled, hNew, or_comm]
  | error e => simp

theorem groupId_enroll {entry : UInt64 × Nat} : (pass.enroll gid page entry).groupId = page.groupId := by
  unfold enroll
  dsimp only
  split
  · rfl
  split
  · exact EpimonePage.groupId_markEnrolled _
  · rfl

theorem enrollAll (entries : List (UInt64 × Nat)) (page : EpimonePage) :
    (entries.foldl (pass.enroll gid) page).groupId = page.groupId ∧
      ∀ sid, sid ∈ (entries.foldl (pass.enroll gid) page).enrolled ↔
        sid ∈ page.enrolled ∨ ∃ i, (sid, i) ∈ entries ∧ pass.groupAdd gid sid i = .ok () := by
  induction entries generalizing page with
  | nil => exact ⟨rfl, fun sid => by simp⟩
  | cons entry entries ih =>
    obtain ⟨hGroup, hEnrolled⟩ := ih (pass.enroll gid page entry)
    refine ⟨hGroup.trans groupId_enroll, fun sid => ?_⟩
    rw [List.foldl_cons, hEnrolled, mem_enroll, or_assoc]
    refine or_congr_right ?_
    constructor
    · rintro (⟨rfl, hAdded⟩ | ⟨i, hIn, hAdded⟩)
      · exact ⟨entry.2, List.mem_cons_self, hAdded⟩
      · exact ⟨i, List.mem_cons_of_mem _ hIn, hAdded⟩
    · rintro ⟨i, hIn, hAdded⟩
      rcases List.mem_cons.mp hIn with rfl | hIn
      · exact Or.inl ⟨rfl, hAdded⟩
      · exact Or.inr ⟨i, hIn, hAdded⟩

theorem sync_of_ok (hDue : pass.due page = some text) (hGroup : page.groupId ≠ 0)
    (hSet : pass.groupSet page text = .ok ()) :
    (pass.syncPageGroup page).groupId = page.groupId ∧
      ∀ sid, sid ∈ (pass.syncPageGroup page).enrolled ↔ sid ∈ page.enrolled ∨
        ∃ i, page.root.collectSessionIds[i]? = some sid ∧ pass.groupAdd page.groupId sid i = .ok () := by
  have hUpdate : pass.updateGroup page text = page := by
    unfold updateGroup
    rw [if_neg hGroup, hSet]
  have hCreate : pass.createGroup page text = page := by
    unfold createGroup
    rw [if_pos hGroup]
  obtain ⟨hSame, hEnrolled⟩ :=
    @enrollAll pass page.groupId page.root.collectSessionIds.zipIdx page
  unfold syncPageGroup
  rw [hDue]
  dsimp only
  rw [hUpdate, hCreate, if_neg hGroup]
  refine ⟨hSame, fun sid => (hEnrolled sid).trans (or_congr_right ?_)⟩
  simp only [List.mem_zipIdx_iff_getElem?]

theorem sync_of_error (hDue : pass.due page = some text) (hGroup : page.groupId ≠ 0) {e : GError}
    (hSet : pass.groupSet page text = .error e) :
    (pass.updateGroup page text).groupId = 0 ∧
      ((pass.syncPageGroup page).groupId = 0 ∨ ∃ gid, pass.groupNew text = .ok gid ∧
        (pass.syncPageGroup page).groupId = gid) := by
  have hUpdate : pass.updateGroup page text = page.setGroupId 0 := by
    unfold updateGroup
    rw [if_neg hGroup, hSet]
  have hGone : (pass.updateGroup page text).groupId = 0 := by
    rw [hUpdate]
    exact EpimonePage.groupId_setGroupId 0
  refine ⟨hGone, ?_⟩
  unfold syncPageGroup
  rw [hDue]
  dsimp only
  have hCreate : (pass.createGroup (pass.updateGroup page text) text).groupId = 0 ∨
      ∃ gid, pass.groupNew text = .ok gid ∧ (pass.createGroup (pass.updateGroup page text) text).groupId = gid := by
    unfold createGroup
    rw [if_neg (not_not.mpr hGone)]
    cases hNew : pass.groupNew text with
    | error e => exact Or.inl hGone
    | ok gid =>
      dsimp only
      split
      · exact Or.inl hGone
      · exact Or.inr ⟨gid, rfl, EpimonePage.groupId_setGroupId gid⟩
  split
  · next hNone => exact Or.inl hNone
  · rw [(enrollAll _ _).1]
    exact hCreate

theorem not_throughout_of_notFound (h : pass.NotFound page) : ¬ pass.Throughout page := by
  obtain ⟨text, e, -, hSet, hCode⟩ := h
  intro hThroughout
  exact hThroughout.set (Meeting.gone_of_notFound hSet hCode)

theorem listed_of_groupId (hGroup : page.groupId ≠ 0) (hSame : (pass.syncPageGroup page).groupId = page.groupId)
    (v : TabView) (width height : Int) (maximized : Bool) (hIn : pass.syncPageGroup page ∈ v.pages) :
    page.groupId ∈ (windowToVariant v width height maximized).gids := by
  rw [windowToVariant, groupIds, List.mem_filter]
  refine ⟨?_, decide_eq_true hGroup⟩
  rw [← hSame]
  exact List.mem_map_of_mem hIn

theorem not_mints_of_ok (hGroup : page.groupId ≠ 0)
    (hSet : ∀ text, pass.due page = some text → pass.groupSet page text = .ok ()) : ¬ pass.Mints page := by
  rintro ⟨text, hDue, hGone, -⟩
  unfold updateGroup at hGone
  rw [if_neg hGroup, hSet text hDue] at hGone
  exact hGroup hGone

/-- With its group there all the time, a page that is spared sends no GROUP_SET or has it granted. -/
theorem Spares.granted (h : pass.Spares page) (hThroughout : pass.Throughout page) :
    ∀ text, pass.due page = some text → pass.groupSet page text = .ok () := by
  intro text hDue
  rcases h text hDue hThroughout.named with hOk | hNotFound | ⟨hGone, -⟩
  · exact hOk
  · exact absurd hThroughout (not_throughout_of_notFound hNotFound)
  · exact absurd hThroughout hGone

theorem Spares.kept (h : pass.Spares page) (hThroughout : pass.Throughout page) :
    (pass.syncPageGroup page).groupId = page.groupId ∧
      ∀ sid, sid ∈ (pass.syncPageGroup page).enrolled ↔ sid ∈ page.enrolled ∨ (pass.due page).isSome ∧
        ∃ i, page.root.collectSessionIds[i]? = some sid ∧ pass.groupAdd page.groupId sid i = .ok () := by
  cases hDue : pass.due page with
  | none =>
    have hSame : pass.syncPageGroup page = page := by
      unfold syncPageGroup
      rw [hDue]
    rw [hSame]
    exact ⟨rfl, fun sid => by simp⟩
  | some text =>
    obtain ⟨hSame, hEnrolled⟩ := sync_of_ok hDue hThroughout.named (h.granted hThroughout text hDue)
    exact ⟨hSame, fun sid => (hEnrolled sid).trans (or_congr_right (and_iff_right rfl).symm)⟩

/-- A page keeps its group, and no other one is made for it, if and only if GROUP_SET fails with NOT_FOUND only,
or else the group has gone and none is made. -/
theorem keepsGroup_iff (pass : SyncPass) (page : EpimonePage) : pass.KeepsGroup page ↔ pass.Spares page := by
  constructor
  · intro h text hDue hGroup
    cases hSet : pass.groupSet page text with
    | ok _ => exact Or.inl rfl
    | error e =>
      rcases eq_or_ne e.code EpiErrCode.notFound.code with hCode | hOther
      · exact Or.inr (Or.inl ⟨text, e, hDue, hSet, hCode⟩)
      obtain ⟨hGone, hResult⟩ := sync_of_error hDue hGroup hSet
      refine Or.inr (Or.inr ⟨?_, ?_⟩)
      · intro hThroughout
        have hSame := h.groupId hThroughout
        rcases hResult with hNone | ⟨gid, hNew, -⟩
        · exact hGroup (hSame.symm.trans hNone)
        · exact h.single hThroughout ⟨text, hDue, hGone, Meeting.creates_of_groupNew hNew⟩
      · rintro ⟨hFits, hCreates⟩
        rcases h.minted ⟨text, hDue, hGone, hFits, hCreates⟩ with hNone | ⟨text', e', hDue', hSet', hCode⟩
        · exact hGroup hNone
        · cases hDue.symm.trans hDue'
          cases hSet.symm.trans hSet'
          exact hOther hCode
  · intro h
    constructor
    · exact fun hThroughout => (h.kept hThroughout).1
    · exact fun hThroughout => (h.kept hThroughout).2
    · exact fun hThroughout => not_mints_of_ok hThroughout.named (h.granted hThroughout)
    · exact fun hThroughout v width height maximized hIn =>
        listed_of_groupId hThroughout.named (h.kept hThroughout).1 v width height maximized hIn
    · rintro ⟨text, hDue, hGone, hFits, hCreates⟩
      rcases eq_or_ne page.groupId 0 with hNone | hGroup
      · exact Or.inl hNone
      refine Or.inr ?_
      rcases h text hDue hGroup with hOk | hNotFound | ⟨-, hFails⟩
      · unfold updateGroup at hGone
        rw [if_neg hGroup, hOk] at hGone
        exact absurd hGone hGroup
      · exact hNotFound
      · exact absurd ⟨hFits, hCreates⟩ hFails

/-! The daemon has the group, and the connection for GROUP_SET is refused. -/

def withGroup : Server := linkGroup (Server.initial 7) ⟨0, [], 0⟩

def meets (refusal : Option Bytes) : Meeting :=
  { srv := withGroup
    c := 0
    ans := calmFrame 100 ⟨0⟩
    refusal := refusal
    requestAlloc := true
    writeError := none
    taken := true
    arrives := 64
    rdAlloc := fun _ => true }

def unreached : SyncPass := ⟨some [1], meets (some (ascii "Connection refused")), meets none, fun _ => meets none⟩

def onGroup : EpimonePage := { EpimonePage.onTree (.leaf ⟨0, 5⟩) with groupId := 1, enrolled := [5] }

/-- The tab goes to a second group while the daemon still has the first one. -/
theorem unreached_rebinds :
    unreached.Throughout onGroup ∧ (unreached.syncPageGroup onGroup).groupId = 2 ∧
      unreached.Mints onGroup ∧ ¬ unreached.NotFound onGroup ∧ ¬ unreached.KeepsGroup onGroup := by
  have hSet : unreached.groupSet onGroup [1] = .error ⟨1, ascii "Connection refused"⟩ := rfl
  have hFound : findGroup withGroup onGroup.groupId.toNat ≠ none := by decide
  have hThroughout : unreached.Throughout onGroup := ⟨by decide, hFound, hFound, fun _ _ => hFound⟩
  have hSecond : (unreached.syncPageGroup onGroup).groupId = 2 := by decide +kernel
  refine ⟨hThroughout, hSecond, ⟨[1], rfl, by decide +kernel, by decide, rfl, rfl, rfl, rfl, by decide +kernel⟩, ?_, ?_⟩
  · rintro ⟨text, e, hDue, hError, hCode⟩
    cases hDue
    rw [hSet] at hError
    cases hError
    cases hCode
  · intro hKeeps
    have hSame := hKeeps.groupId hThroughout
    rw [hSecond] at hSame
    cases hSame

end SyncPass

end Epimone.Client
