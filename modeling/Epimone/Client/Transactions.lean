import Epimone.Codec
import Epimone.Decoders

/-! # Transactions of the clients

A control transaction connects, sends one request and reads one reply.
`Exchange` is everything such a transaction meets, so a request of the client
library is a function of it.
-/
set_option autoImplicit false

namespace Epimone.Client

open Program

/-- The code is a gint. -/
structure GError where
  code : Int
  message : Bytes
  deriving DecidableEq, Repr

/-- A guint32 as a gint: from 2^31 on it is negative. -/
def gint (code : Nat) : Int := if code < 2 ^ 31 then code else code - 2 ^ 32

theorem eq_of_gint_eq {code n : Nat} (hCode : code < 2 ^ 32) (h : gint code = n) : code = n := by
  unfold gint at h
  split at h <;> omega

/-- What one transaction meets: why it cannot connect, whether the request could be built, why it cannot
be written, what arrives before the stream ends or fails, and the allocations of the reader. -/
structure Exchange where
  refusal : Option Bytes
  requestAlloc : Bool
  writeError : Option Bytes
  received : Bytes
  rdAlloc : Nat → Bool

def clientError (message : String) : GError := ⟨1, ascii message⟩

def sendFrame (x : Exchange) : Except GError Unit :=
  if !x.requestAlloc then .error (clientError "out of memory")
  else
    match x.writeError with
    | some reason => .error ⟨1, ascii "write: " ++ reason⟩
    | none => .ok ()

def recvFrame (received : Bytes) : Except GError (Nat × Bytes) :=
  if received.length < 4 then .error (clientError "no reply from daemon")
  else
    let flen := ofLittleEndian (received.take 4)
    if flen < 4 then .error (clientError "short frame")
    else if received.length - 4 < flen then .error (clientError "truncated reply")
    else
      .ok (ofLittleEndian ((received.drop 4).take 4), (received.drop 8).take (flen - 4))

def controlTxn (x : Exchange) : Except GError (Nat × Bytes) :=
  match x.refusal with
  | some reason => .error ⟨1, reason⟩
  | none => do
    sendFrame x
    recvFrame x.received

def replyIsError (alloc : Nat → Bool) (type : Nat) (body : Bytes) : Option GError :=
  if type = EpiMsgType.error.code then
    let (code, msg) := value (Decoder.errorReply alloc) (.start body)
    some ⟨gint code, ascii "daemon error " ++ ascii (toString code) ++ ascii ": " ++ msg⟩
  else none

def replyTo (x : Exchange) (reply : EpiMsgType) (unexpected : String) : Except GError Bytes := do
  let (type, body) ← controlTxn x
  match replyIsError x.rdAlloc type body with
  | some e => .error e
  | none => if type = reply.code then .ok body else .error (clientError unexpected)

def epimoneClientListSessions (x : Exchange) : Except GError (List EpiSessionInfo) := do
  let body ← replyTo x .listReply "unexpected reply to LIST"
  return value (Decoder.sessionsReply x.rdAlloc) (.start body)

def epimoneClientListGroups (x : Exchange) : Except GError (Nat × List EpiGroupInfo) := do
  let body ← replyTo x .groupListReply "unexpected reply to GROUP_LIST"
  return value (Decoder.groupsReply x.rdAlloc) (.start body)

/-- The reply is a whole LIST_REPLY with these sessions. -/
def ListReplied (x : Exchange) (sessions : List EpiSessionInfo) : Prop :=
  ∃ body p, controlTxn x = .ok (EpiMsgType.listReply.code, body) ∧
    Gives (Decoder.sessionsReply x.rdAlloc) (.start body) sessions p ∧ p.rd.err = false

/-- The reply is a whole GROUP_LIST_REPLY with these groups. -/
def GroupListReplied (x : Exchange) (groups : List EpiGroupInfo) : Prop :=
  ∃ body p instanceId, controlTxn x = .ok (EpiMsgType.groupListReply.code, body) ∧
    Gives (Decoder.groupsReply x.rdAlloc) (.start body) (instanceId, groups) p ∧ p.rd.err = false

section Replies

variable {x : Exchange}

theorem replyTo_eq_ok {reply : EpiMsgType} (hReply : reply ≠ .error) {unexpected : String} {body : Bytes} :
    replyTo x reply unexpected = .ok body ↔ controlTxn x = .ok (reply.code, body) := by
  have hCode : reply.code ≠ EpiMsgType.error.code := fun hSame =>
    hReply (EpiMsgType.code_injective hSame)
  unfold replyTo
  cases hTxn : controlTxn x with
  | error e => exact ⟨fun h => (nomatch h), fun h => (nomatch h)⟩
  | ok frame =>
    obtain ⟨type, bytes⟩ := frame
    change (match replyIsError x.rdAlloc type bytes with
      | some e => Except.error e
      | none => if type = reply.code then .ok bytes else .error (clientError unexpected)) = _ ↔ _
    unfold replyIsError
    rcases eq_or_ne type reply.code with rfl | hOther
    · rw [if_neg hCode, if_pos rfl]
      simp
    · have hFails : ∀ e : GError, (Except.error e : Except GError Bytes) = .ok body ↔
          (Except.ok (type, bytes) : Except GError (Nat × Bytes)) = .ok (reply.code, body) := fun e =>
        ⟨fun h => (nomatch h), fun h => absurd (Prod.mk.inj (Except.ok.inj h)).1 hOther⟩
      split
      · exact hFails _
      · rw [if_neg hOther]
        exact hFails _

theorem listSessions_eq_ok {sessions : List EpiSessionInfo} :
    epimoneClientListSessions x = .ok sessions ↔
      ∃ body, controlTxn x = .ok (EpiMsgType.listReply.code, body) ∧
        value (Decoder.sessionsReply x.rdAlloc) (.start body) = sessions := by
  unfold epimoneClientListSessions
  simp only [← @replyTo_eq_ok x .listReply (by decide) "unexpected reply to LIST"]
  cases replyTo x .listReply "unexpected reply to LIST" with
  | error e => exact ⟨fun h => (nomatch h), fun ⟨_, h, _⟩ => (nomatch h)⟩
  | ok body =>
    change Except.ok (value (Decoder.sessionsReply x.rdAlloc) (.start body)) = .ok sessions ↔ _
    rw [Except.ok.injEq]
    constructor
    · intro hValue
      exact ⟨body, rfl, hValue⟩
    · rintro ⟨bytes, hBody, hValue⟩
      rw [Except.ok.inj hBody]
      exact hValue

theorem listGroups_eq_ok {reply : Nat × List EpiGroupInfo} :
    epimoneClientListGroups x = .ok reply ↔
      ∃ body, controlTxn x = .ok (EpiMsgType.groupListReply.code, body) ∧
        value (Decoder.groupsReply x.rdAlloc) (.start body) = reply := by
  unfold epimoneClientListGroups
  simp only [← @replyTo_eq_ok x .groupListReply (by decide) "unexpected reply to GROUP_LIST"]
  cases replyTo x .groupListReply "unexpected reply to GROUP_LIST" with
  | error e => exact ⟨fun h => (nomatch h), fun ⟨_, h, _⟩ => (nomatch h)⟩
  | ok body =>
    change Except.ok (value (Decoder.groupsReply x.rdAlloc) (.start body)) = .ok reply ↔ _
    rw [Except.ok.injEq]
    constructor
    · intro hValue
      exact ⟨body, rfl, hValue⟩
    · rintro ⟨bytes, hBody, hValue⟩
      rw [Except.ok.inj hBody]
      exact hValue

theorem ListReplied.listSessions {sessions : List EpiSessionInfo} (h : ListReplied x sessions) :
    epimoneClientListSessions x = .ok sessions := by
  obtain ⟨body, p, hTxn, hGives, _⟩ := h
  exact listSessions_eq_ok.mpr ⟨body, hTxn, hGives.1⟩

theorem GroupListReplied.listGroups {groups : List EpiGroupInfo} (h : GroupListReplied x groups) :
    ∃ instanceId, epimoneClientListGroups x = .ok (instanceId, groups) := by
  obtain ⟨body, p, instanceId, hTxn, hGives, _⟩ := h
  exact ⟨instanceId, listGroups_eq_ok.mpr ⟨body, hTxn, hGives.1⟩⟩

end Replies

/-- The daemon cannot be reached for a moment. -/
def unreachable : Exchange :=
  { refusal := some (ascii "Connection refused")
    requestAlloc := true
    writeError := none
    received := []
    rdAlloc := fun _ => true }

theorem not_listReplied_unreachable (sessions : List EpiSessionInfo) : ¬ ListReplied unreachable sessions := by
  rintro ⟨_, _, hTxn, _⟩
  cases hTxn

end Epimone.Client
