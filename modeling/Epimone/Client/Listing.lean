import Epimone.Client.Transactions
import Epimone.Daemon.ReplyCodec

/-! # What the client reads of a list of groups

The groups come with their layouts, and a layout is copied: where that fails
the reading stops, and the last group is reported without its members. Every
other group that is reported is one the daemon has.
-/
set_option autoImplicit false

namespace Epimone.Client

open Daemon Program

section Listing

variable (alloc : Nat → Bool)

/-- Allocations that never fail. -/
def everything : Nat → Bool := fun _ => true

theorem takeBlob_cases (n : Nat) (p : Probe) :
    (value (Decoder.takeBlob alloc n) p = value (Decoder.takeBlob everything n) p ∧
        after (Decoder.takeBlob alloc n) p = after (Decoder.takeBlob everything n) p) ∨
      (after (Decoder.takeBlob alloc n) p).rd.err = true := by
  cases hAlloc : alloc p.rd.pos with
  | true =>
    left
    simp [value, after, Decoder.takeBlob, StateT.run, hAlloc, everything]
  | false =>
    cases hShort : p.rd.err || p.short n with
    | true =>
      right
      rw [(Decoder.takeBlob_short alloc hShort).2]
      rfl
    | false =>
      rcases eq_or_ne n 0 with rfl | hSome
      · left
        simp [value, after, Decoder.takeBlob, StateT.run]
      · right
        rw [(Decoder.takeBlob_fits alloc hShort hSome).2, hAlloc]
        rfl

theorem err_rdUint {width : Nat} {p : Probe} (h : p.rd.err = true) :
    (after (Decoder.rdUint width) p).rd.err = true := by
  cases hShort : p.short width with
  | true =>
    rw [(Decoder.rdUint_short hShort).2]
    rfl
  | false =>
    rw [(Decoder.rdUint_fits hShort).2]
    exact h

theorem each_stopped {α : Type} {item : Decoder α} (loop : DecodingLoop) (count : Nat) {p : Probe}
    (h : p.rd.err = true) : Gives (Decoder.each loop item count) p [] p := by
  refine @repeatWhile_of_stop _ _ (fun p : Probe => !p.rd.err) _ count p ?_
  rw [h]
  rfl

theorem each_going {α : Type} {item : Decoder α} (loop : DecodingLoop) (count : Nat) {p : Probe}
    (h : p.rd.err = false) :
    value (Decoder.each loop item (count + 1)) p =
      value item (p.note (.turn loop)) ::
        value (Decoder.each loop item count) (after item (p.note (.turn loop))) := by
  refine (@repeatWhile_of_go _ _ (fun p : Probe => !p.rd.err) _ count p ?_).1
  rw [h]
  rfl

/-- What is read of a group behind its blob. -/
def groupTail (id createdAt : Nat) (blob : Option Bytes) : Decoder EpiGroupInfo := do
  let count ← Decoder.rdU32
  let members ← Decoder.each .members Decoder.rdU64 count
  return ⟨id, toInt64 createdAt, blob.getD [], members⟩

theorem groupTail_stopped (id createdAt : Nat) (blob : Option Bytes) {p : Probe} (h : p.rd.err = true) :
    (value (groupTail id createdAt blob) p).members = [] ∧
      (after (groupTail id createdAt blob) p).rd.err = true := by
  have hErr : (after Decoder.rdU32 p).rd.err = true := err_rdUint h
  obtain ⟨hMembers, hAfter⟩ := @each_stopped _ Decoder.rdU64 .members (value Decoder.rdU32 p) _ hErr
  simp only [groupTail, value_bind, after_bind, value_pure, after_pure]
  rw [hAfter]
  exact ⟨hMembers, hErr⟩

theorem groupInfo_eq : Decoder.groupInfo alloc = (do
    let id ← Decoder.rdU64
    let createdAt ← Decoder.rdU64
    let n ← Decoder.rdU32
    let blob ← Decoder.takeBlob alloc n
    groupTail id createdAt blob) := by
  unfold Decoder.groupInfo Decoder.rdBlob groupTail
  rfl

/-- A group whose blob could not be allocated has no members, and the reading stops. -/
theorem groupInfo_cases (p : Probe) :
    value (Decoder.groupInfo alloc) p = value (Decoder.groupInfo everything) p ∧
        after (Decoder.groupInfo alloc) p = after (Decoder.groupInfo everything) p ∨
      (value (Decoder.groupInfo alloc) p).members = [] ∧ (after (Decoder.groupInfo alloc) p).rd.err = true := by
  simp only [groupInfo_eq, value_bind, after_bind]
  rcases takeBlob_cases alloc _ _ with ⟨hBlob, hRest⟩ | hErr
  · rw [hBlob, hRest]
    exact Or.inl ⟨rfl, rfl⟩
  · exact Or.inr (groupTail_stopped _ _ _ hErr)

theorem reported_group (count : Nat) (p : Probe) {info : EpiGroupInfo}
    (h : info ∈ value (Decoder.each .groups (Decoder.groupInfo alloc) count) p) :
    info.members = [] ∨ info ∈ value (Decoder.each .groups (Decoder.groupInfo everything) count) p := by
  induction count generalizing p with
  | zero => cases h
  | succ count ih =>
    cases hErr : p.rd.err with
    | true =>
      rw [(each_stopped .groups (count + 1) hErr).1] at h
      cases h
    | false =>
      rw [each_going .groups count hErr] at h
      rw [each_going .groups count hErr]
      rcases groupInfo_cases alloc (p.note (.turn .groups)) with ⟨hValue, hAfter⟩ | ⟨hNone, hFailed⟩
      · rw [hValue, hAfter] at h
        rcases List.mem_cons.mp h with hHere | hRest
        · exact Or.inr (List.mem_cons.mpr (Or.inl hHere))
        · exact (ih _ hRest).imp_right (List.mem_cons_of_mem _)
      · rw [(each_stopped .groups count hFailed).1, List.mem_singleton] at h
        rw [h]
        exact Or.inl hNone

theorem value_groupsReply (p : Probe) :
    (value (Decoder.groupsReply alloc) p).2 =
      value (Decoder.each .groups (Decoder.groupInfo alloc) (value Decoder.rdU32 (after Decoder.rdU64 p)))
        (after Decoder.rdU32 (after Decoder.rdU64 p)) := by
  simp only [Decoder.groupsReply, value_bind, value_pure]

end Listing

/-- If the client gets a GROUP_LIST_REPLY at all, it is the one the daemon has for it. -/
def Exchange.AnsweredBy (x : Exchange) (srv : Server) : Prop :=
  ∀ body, controlTxn x = .ok (EpiMsgType.groupListReply.code, body) → body = groupListBody srv

theorem recvFrame_eq_ok {received body : Bytes} {type : Nat} (h : recvFrame received = .ok (type, body)) :
    4 + body.length < 2 ^ 32 := by
  unfold recvFrame at h
  split at h
  · cases h
  dsimp only at h
  split at h
  · cases h
  split at h
  · cases h
  rename_i hEnough hLeast hWhole
  obtain ⟨_, hBody⟩ := Prod.mk.inj (Except.ok.inj h)
  have hLt := ofLittleEndian_lt (received.take 4)
  rw [List.length_take, Nat.min_eq_left (Nat.le_of_not_lt hEnough)] at hLt
  have hLength := List.length_take_le (ofLittleEndian (received.take 4) - 4) (received.drop 8)
  rw [hBody] at hLength
  have hWord : (256 : Nat) ^ 4 = 2 ^ 32 := by decide
  omega

theorem controlTxn_bounded {x : Exchange} {type : Nat} {body : Bytes} (h : controlTxn x = .ok (type, body)) :
    4 + body.length < 2 ^ 32 := by
  unfold controlTxn at h
  split at h
  · cases h
  · cases hSend : sendFrame x with
    | error e =>
      rw [hSend] at h
      cases h
    | ok sent =>
      rw [hSend] at h
      exact recvFrame_eq_ok h

/-- What is reported of the daemon's groups. -/
theorem reported_of_answered {srv : Server} {x : Exchange} (h : x.AnsweredBy srv) {instanceId : Nat}
    {infos : List EpiGroupInfo} (hOk : epimoneClientListGroups x = .ok (instanceId, infos))
    {info : EpiGroupInfo} (hInfo : info ∈ infos) :
    info.members = [] ∨ ∃ g ∈ srv.groups, info = shownGroup srv g := by
  obtain ⟨body, hTxn, hValue⟩ := listGroups_eq_ok.mp hOk
  obtain rfl := h body hTxn
  have hYields := @yields_groupList srv everything (fun _ => rfl) (controlTxn_bounded hTxn)
  have hIn : info ∈ (value (Decoder.groupsReply x.rdAlloc) (.start (groupListBody srv))).2 := by
    rw [hValue]
    exact hInfo
  rw [value_groupsReply] at hIn
  refine (reported_group x.rdAlloc _ _ hIn).imp_right fun hAll => ?_
  rw [← value_groupsReply, hYields.1] at hAll
  obtain ⟨g, hg, hSame⟩ := List.mem_map.mp hAll
  exact ⟨g, hg, hSame.symm⟩

/-- A transaction in which the daemon's reply arrives whole. -/
def answered (srv : Server) : Exchange :=
  { unreachable with
    refusal := none
    received := frameBytes EpiMsgType.groupListReply.code (groupListBody srv) }

theorem recvFrame_frameBytes {type : Nat} {body : Bytes} (hType : type < 2 ^ 32)
    (hBody : 4 + body.length < 2 ^ 32) : recvFrame (frameBytes type body) = .ok (type, body) := by
  have hLength := length_frameBytes type body
  have hFrame := wellFormed_frameBytes hType hBody
  have hWord : ofLittleEndian ((frameBytes type body).take 4) = 4 + body.length := by
    rw [take_frameBytes]
    exact ofLittleEndian_littleEndian_of_lt hBody
  have hRest : (frameBytes type body).drop 8 = body := by
    rw [show (8 : Nat) = 4 + 4 from rfl, ← List.drop_drop, drop_frameBytes]
    exact List.drop_left' (length_littleEndian _ _)
  unfold recvFrame
  rw [if_neg (by omega)]
  dsimp only
  rw [hWord, if_neg (by omega), if_neg (by omega), hFrame.type_eq, hRest, Nat.add_sub_cancel_left,
    List.take_length]

theorem controlTxn_answered {srv : Server} (hSize : 4 + (groupListBody srv).length < 2 ^ 32) :
    controlTxn (answered srv) = .ok (EpiMsgType.groupListReply.code, groupListBody srv) := by
  have hSent : controlTxn (answered srv) = recvFrame (answered srv).received := rfl
  rw [hSent]
  exact recvFrame_frameBytes (by decide) hSize

theorem answered_answeredBy {srv : Server} (hSize : 4 + (groupListBody srv).length < 2 ^ 32) :
    (answered srv).AnsweredBy srv := by
  intro body hBody
  rw [controlTxn_answered hSize] at hBody
  exact (Prod.mk.inj (Except.ok.inj hBody)).2.symm

end Epimone.Client
