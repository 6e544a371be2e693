import Epimone.Client.Transactions
import Epimone.DecoderSafety

/-! # Truncated replies

A decoder that comes to the end of a reply without an error reads the same from
every longer one, so it reports every cut before the place where it would end.
The clients do not look at this report when they return a list.
-/
set_option autoImplicit false

namespace Epimone

open Program

namespace Probe

def prolong (p : Probe) (more : Bytes) : Probe := { p with rd := { p.rd with data := p.rd.data ++ more } }

variable {p : Probe}

theorem fits_prolong (h : p.Safe) {count : Nat} (hCount : count < 2 ^ 32) (hShort : p.short count = false)
    (more : Bytes) : (p.prolong more).short count = false ∧ (p.prolong more).bytesAt count = p.bytesAt count := by
  have hFits := h.fits hCount hShort
  constructor
  · have hSum : sizeAdd (p.prolong more).rd.pos count = p.rd.pos + count := h.sizeAdd_eq hCount
    rw [short, hSum]
    simp only [prolong, List.length_append, decide_eq_false_iff_not]
    omega
  · refine List.map_congr_left fun i hi => ?_
    have hIn : p.rd.pos + i < p.rd.data.length := by
      have hLess := List.mem_range.mp hi
      omega
    simp only [prolong, List.getD_eq_getElem?_getD, List.getElem?_append_left hIn]

end Probe

namespace Decoder

open Probe

variable {α β : Type}

/-- Where the first decoder ends without an error, the second does the same on every longer body. -/
def Extends (d d' : Decoder α) : Prop :=
  ∀ (p : Probe) (more : Bytes), p.Safe → (after d p).rd.err = false →
    Gives d' (p.prolong more) (value d p) ((after d p).prolong more)

theorem Extends.pure (v : α) : Extends (pure v) (pure v) := fun _ _ _ _ => ⟨rfl, rfl⟩

theorem Extends.note (a : Access) : Extends (note a) (note a) := fun _ _ _ _ => ⟨rfl, rfl⟩

theorem Extends.bindFrom {d d' : Decoder α} {f f' : α → Decoder β} (h : Extends d d')
    (hObeys : Obeys (discipline .strings) d) (hRest : ∀ p, p.Safe → Extends (f (value d p)) (f' (value d p)))
    (hObeysRest : ∀ p, p.Safe → ObeysFrom (discipline .strings) (f (value d p)) (after d p)) :
    Extends (d >>= f) (d' >>= f') := by
  intro p more hSafe hErr
  have hMid : (after d p).Safe := (hObeys p hSafe).1
  have hFirst : (after d p).rd.err = false := by
    refine Bool.eq_false_iff.mpr fun hSet => ?_
    have hStays := (hObeysRest p hSafe).2.err_of hSet
    rw [after_bind] at hErr
    rw [hErr] at hStays
    cases hStays
  exact (h p more hSafe hFirst).bind (hRest p hSafe (after d p) more hMid hErr)

theorem Extends.bind {d d' : Decoder α} {f f' : α → Decoder β} (h : Extends d d')
    (hObeys : Obeys (discipline .strings) d) (hRest : ∀ v, Extends (f v) (f' v))
    (hObeysRest : ∀ v, Obeys (discipline .strings) (f v)) : Extends (d >>= f) (d' >>= f') :=
  h.bindFrom hObeys (fun _ _ => hRest _) fun p hSafe => hObeysRest _ _ (hObeys p hSafe).1

theorem extends_rdUint {width : Nat} (hWidth : width < 2 ^ 32) : Extends (rdUint width) (rdUint width) := by
  intro p more hSafe hErr
  cases hShort : p.short width with
  | true =>
    rw [(rdUint_short hShort).2] at hErr
    cases hErr
  | false =>
    obtain ⟨hLonger, hBytes⟩ := fits_prolong hSafe hWidth hShort more
    obtain ⟨hValue, hAfter⟩ := rdUint_fits hShort
    obtain ⟨hValue', hAfter'⟩ := rdUint_fits hLonger
    rw [hValue, hAfter, ← hBytes]
    exact ⟨hValue', hAfter'⟩

theorem extends_rdU8 : Extends rdU8 rdU8 := extends_rdUint (by decide)

theorem extends_rdU32 : Extends rdU32 rdU32 := extends_rdUint (by decide)

theorem extends_rdU64 : Extends rdU64 rdU64 :=
  extends_rdU32.bind obeys_rdU32
    (fun _ => extends_rdU32.bind obeys_rdU32 (fun _ => .pure _) fun _ => .pure _)
    fun _ => obeys_rdU32.bind fun _ => .pure _

section Allocating

variable {alloc : Nat → Bool}

theorem extends_takeStr {n : Nat} (hCount : n < 2 ^ 32) : Extends (takeStr alloc n) (takeStr (fun _ => true) n) := by
  intro p more hSafe hErr
  cases hShort : p.rd.err || p.short n with
  | true =>
    rw [(takeStr_short alloc hShort).2] at hErr
    cases hErr
  | false =>
    obtain ⟨hClear, hFits⟩ := Bool.or_eq_false_iff.mp hShort
    obtain ⟨hLonger, hBytes⟩ := fits_prolong hSafe hCount hFits more
    have hLongerErr : ((p.prolong more).rd.err || (p.prolong more).short n) = false :=
      Bool.or_eq_false_iff.mpr ⟨hClear, hLonger⟩
    obtain ⟨hValue, hAfter⟩ := takeStr_fits alloc hShort
    obtain ⟨hValue', hAfter'⟩ := takeStr_fits (fun _ => true) hLongerErr
    rw [hAfter] at hErr
    split at hErr
    · next hGranted =>
      rw [hValue, hAfter, if_pos hGranted, if_pos hGranted, ← hBytes]
      exact ⟨hValue', hAfter'⟩
    · cases hErr

theorem extends_takeBlob {n : Nat} (hCount : n < 2 ^ 32) : Extends (takeBlob alloc n) (takeBlob (fun _ => true) n) := by
  intro p more hSafe hErr
  cases hShort : p.rd.err || p.short n with
  | true =>
    rw [(takeBlob_short alloc hShort).2] at hErr
    cases hErr
  | false =>
    obtain ⟨hClear, hFits⟩ := Bool.or_eq_false_iff.mp hShort
    obtain ⟨hLonger, hBytes⟩ := fits_prolong hSafe hCount hFits more
    have hLongerErr : ((p.prolong more).rd.err || (p.prolong more).short n) = false :=
      Bool.or_eq_false_iff.mpr ⟨hClear, hLonger⟩
    rcases eq_or_ne n 0 with rfl | hSome
    · obtain ⟨hValue, hAfter⟩ := takeBlob_empty alloc hShort
      rw [hValue, hAfter]
      exact takeBlob_empty (fun _ => true) hLongerErr
    obtain ⟨hValue, hAfter⟩ := takeBlob_fits alloc hShort hSome
    obtain ⟨hValue', hAfter'⟩ := takeBlob_fits (fun _ => true) hLongerErr hSome
    rw [hAfter] at hErr
    split at hErr
    · next hGranted =>
      rw [hValue, hAfter, if_pos hGranted, if_pos hGranted, ← hBytes]
      exact ⟨hValue', hAfter'⟩
    · cases hErr

theorem extends_rdStr : Extends (rdStr alloc) (rdStr fun _ => true) :=
  extends_rdU32.bindFrom obeys_rdU32 (fun p _ => extends_takeStr (value_rdU32_lt p)) fun p hSafe =>
    obeys_takeStr (value_rdU32_lt p) (@obeys_rdU32 .strings p hSafe).1

theorem extends_rdBlob : Extends (rdBlob alloc) (rdBlob fun _ => true) :=
  extends_rdU32.bindFrom obeys_rdU32 (fun p _ => extends_takeBlob (value_rdU32_lt p)) fun p hSafe =>
    obeys_takeBlob (value_rdU32_lt p) (@obeys_rdU32 .strings p hSafe).1

end Allocating

theorem extends_each {item item' : Decoder α} (loop : DecodingLoop) (h : Extends item item')
    (hObeys : Obeys (discipline .strings) item) (hEager : Eager .strings item) (count : Nat) :
    Extends (each loop item count) (each loop item' count) := by
  have hTurn : Extends (do Decoder.note (.turn loop); item) (do Decoder.note (.turn loop); item') := by
    intro p more hSafe hErr
    exact h (p.note (.turn loop)) more (hSafe.note trivial nofun) hErr
  unfold each
  induction count with
  | zero => exact .pure _
  | succ count ih =>
    intro p more hSafe hErr
    cases hClear : p.rd.err with
    | true =>
      have hStop := (@repeatWhile_of_stop _ _ (fun p : Probe => !p.rd.err) (do Decoder.note (.turn loop); item)
        (count + 1) p (by simp [hClear])).2
      rw [hStop, hClear] at hErr
      cases hErr
    | false =>
      obtain ⟨hValue, hAfter⟩ := @repeatWhile_of_go _ _ (fun p : Probe => !p.rd.err)
        (do Decoder.note (.turn loop); item) count p (by simp [hClear])
      have hLonger := @repeatWhile_of_go _ _ (fun p : Probe => !p.rd.err)
        (do Decoder.note (.turn loop); item') count (p.prolong more) (by simp [hClear, prolong])
      obtain ⟨hMid, _⟩ := obeys_turn loop hObeys hEager hSafe hClear
      rw [hAfter] at hErr
      have hFirst : (after (do Decoder.note (.turn loop); item) p).rd.err = false := by
        refine Bool.eq_false_iff.mpr fun hSet => ?_
        have hStays : (after (each loop item count) (after (do Decoder.note (.turn loop); item) p)).rd.err = true :=
          (obeys_each loop hObeys hEager count _ hMid).2.err_of hSet
        exact Bool.false_ne_true (hErr.symm.trans hStays)
      obtain ⟨hHead, hNext⟩ := hTurn p more hSafe hFirst
      obtain ⟨hTail, hEnd⟩ := ih _ more hMid hErr
      rw [hHead, hNext, hTail, hEnd] at hLonger
      rw [hValue, hAfter]
      exact hLonger

section Replies

variable (alloc : Nat → Bool)

theorem extends_sessionsReply : Extends (sessionsReply alloc) (sessionsReply fun _ => true) := by
  have hInfo : Extends (sessionInfo alloc) (sessionInfo fun _ => true) := by
    refine extends_rdU64.bind obeys_rdU64 (fun _ => ?_) obeys_sessionTail
    refine extends_rdU32.bind obeys_rdU32 (fun _ => ?_) fun _ => obeys_rdU8.bind fun _ => obeys_rdU8.bind fun _ =>
      obeys_rdU64.bind fun _ => obeys_rdStr.bind fun _ => .pure _
    refine extends_rdU8.bind obeys_rdU8 (fun _ => ?_) fun _ => obeys_rdU8.bind fun _ =>
      obeys_rdU64.bind fun _ => obeys_rdStr.bind fun _ => .pure _
    refine extends_rdU8.bind obeys_rdU8 (fun _ => ?_) fun _ => obeys_rdU64.bind fun _ =>
      obeys_rdStr.bind fun _ => .pure _
    refine extends_rdU64.bind obeys_rdU64 (fun _ => ?_) fun _ => obeys_rdStr.bind fun _ => .pure _
    exact extends_rdStr.bind obeys_rdStr (fun _ => .pure _) fun _ => .pure _
  exact extends_rdU32.bind obeys_rdU32 (fun count => extends_each .sessions hInfo
    (obeys_rdU64.bind obeys_sessionTail) (eager_rdU64.bind obeys_rdU64 obeys_sessionTail) count) obeys_sessions

theorem extends_groupsReply : Extends (groupsReply alloc) (groupsReply fun _ => true) := by
  have hMembers : ∀ count, Obeys (discipline .strings) (each .members rdU64 count) := fun count =>
    obeys_each .members obeys_rdU64 eager_rdU64 count
  have hInfo : Extends (groupInfo alloc) (groupInfo fun _ => true) := by
    refine extends_rdU64.bind obeys_rdU64 (fun _ => ?_) obeys_groupTail
    refine extends_rdU64.bind obeys_rdU64 (fun _ => ?_) fun _ => obeys_rdBlob.bind fun _ =>
      obeys_rdU32.bind fun count => (hMembers count).bind fun _ => .pure _
    refine extends_rdBlob.bind obeys_rdBlob (fun _ => ?_) fun _ => obeys_rdU32.bind fun count =>
      (hMembers count).bind fun _ => .pure _
    refine extends_rdU32.bind obeys_rdU32 (fun count => ?_) fun count => (hMembers count).bind fun _ => .pure _
    exact (extends_each .members extends_rdU64 obeys_rdU64 eager_rdU64 count).bind (hMembers count) (fun _ => .pure _)
      fun _ => .pure _
  have hGroups : ∀ count, Obeys (discipline .strings) (each .groups (groupInfo alloc) count) := fun count =>
    obeys_each .groups obeys_groupInfo eager_groupInfo count
  refine extends_rdU64.bind obeys_rdU64 (fun _ => ?_) fun _ => obeys_rdU32.bind fun count =>
    (hGroups count).bind fun _ => .pure _
  refine extends_rdU32.bind obeys_rdU32 (fun count => ?_) fun count => (hGroups count).bind fun _ => .pure _
  exact (extends_each .groups hInfo obeys_groupInfo eager_groupInfo count).bind (hGroups count) (fun _ => .pure _)
    fun _ => .pure _

end Replies

/-- The end of what the decoder reads from a body; a shorter one leaves it with an error. -/
theorem err_of_cut {d d' : Decoder α} (h : Extends d d') {body : Bytes} {n : Nat} (hBody : body.length < 2 ^ 63)
    (hObeys : Obeys (discipline .strings) d) (hCut : n < (after d' (.start body)).rd.pos) :
    (after d (.start (body.take n))).rd.err = true := by
  have hLength := List.length_take_le n body
  have hAll := List.length_take_le' n body
  have hSafe : (start (body.take n)).Safe := safe_start (Nat.lt_of_le_of_lt hAll hBody)
  refine (Bool.not_eq_false _).mp fun hClear => ?_
  obtain ⟨hInside, hMoved⟩ := hObeys _ hSafe
  have hWhole : (start (body.take n)).prolong (body.drop n) = start body := by
    simp only [prolong, start, epiRdInit, List.take_append_drop]
  have hEnd := (h (start (body.take n)) (body.drop n) hSafe hClear).2
  rw [hWhole] at hEnd
  rw [hEnd] at hCut
  have hPos := hInside.inside
  rw [hMoved.data_eq] at hPos
  exact absurd (Nat.le_trans hPos hLength) (Nat.not_le.mpr hCut)

end Decoder

namespace Client

/-- The reply that arrives is a valid one, cut before the end of its array. -/
def ArrivesCut {α : Type} (x : Exchange) (reply : EpiMsgType) (decoder : (Nat → Bool) → Decoder α) : Prop :=
  ∃ body n, body.length < 2 ^ 32 ∧ (after (decoder fun _ => true) (.start body)).rd.err = false ∧
    n < (after (decoder fun _ => true) (.start body)).rd.pos ∧ controlTxn x = .ok (reply.code, body.take n)

/-- The reader ends in an error, and the call does not. -/
structure Unreported {α β : Type} (x : Exchange) (decoder : (Nat → Bool) → Decoder α) (body : Bytes)
    (result : Except GError β) : Prop where
  noticed : (after (decoder x.rdAlloc) (.start body)).rd.err = true
  returned : ¬ ∃ e, result = .error e

/-- However a reply to LIST or GROUP_LIST is cut, the reader notices it and the list is returned all the same. -/
theorem cut_lists_returned (x : Exchange) :
    (ArrivesCut x .listReply Decoder.sessionsReply →
      ∃ body, controlTxn x = .ok (EpiMsgType.listReply.code, body) ∧
        Unreported x Decoder.sessionsReply body (epimoneClientListSessions x)) ∧
    (ArrivesCut x .groupListReply Decoder.groupsReply →
      ∃ body, controlTxn x = .ok (EpiMsgType.groupListReply.code, body) ∧
        Unreported x Decoder.groupsReply body (epimoneClientListGroups x)) := by
  constructor
  · rintro ⟨body, n, hSize, _, hCut, hTxn⟩
    refine ⟨body.take n, hTxn, ?_, ?_⟩
    · exact Decoder.err_of_cut (Decoder.extends_sessionsReply x.rdAlloc) (by omega) Decoder.obeys_sessionsReply hCut
    · rintro ⟨e, hFailed⟩
      rw [listSessions_eq_ok.mpr ⟨_, hTxn, rfl⟩] at hFailed
      cases hFailed
  · rintro ⟨body, n, hSize, _, hCut, hTxn⟩
    refine ⟨body.take n, hTxn, ?_, ?_⟩
    · exact Decoder.err_of_cut (Decoder.extends_groupsReply x.rdAlloc) (by omega) Decoder.obeys_groupsReply hCut
    · rintro ⟨e, hFailed⟩
      rw [listGroups_eq_ok.mpr ⟨_, hTxn, rfl⟩] at hFailed
      cases hFailed

/-- A reply with one session, which is alive: id 7, pid 100. -/
def sessionReply : Bytes :=
  littleEndian 4 1 ++ u64Bytes 7 ++ littleEndian 4 100 ++ [1, 0] ++ u64Bytes 5 ++ strBytes [] ++ u64Bytes 9

/-- A reply with one group, which has session 7. -/
def groupReply : Bytes :=
  u64Bytes 9 ++ littleEndian 4 1 ++ u64Bytes 3 ++ u64Bytes 5 ++ blobBytes [65, 66] ++ littleEndian 4 1 ++ u64Bytes 7

/-- The first bytes of the body arrive, as a frame of their own. -/
def cutAt (reply : EpiMsgType) (body : Bytes) (n : Nat) : Exchange :=
  { unreachable with
    refusal := none
    received := frameBytes reply.code (body.take n) }

theorem arrivesCut_lastSession : ArrivesCut (cutAt .listReply sessionReply 16) .listReply Decoder.sessionsReply :=
  ⟨sessionReply, 16, by decide, by decide, by decide, rfl⟩

theorem arrivesCut_lastGroup : ArrivesCut (cutAt .groupListReply groupReply 33) .groupListReply Decoder.groupsReply :=
  ⟨groupReply, 33, by decide, by decide, by decide, rfl⟩

/-- Both lists are returned, each from a cut reply. -/
theorem cut_lists_returned_one :
    (¬ ∃ e, epimoneClientListSessions (cutAt .listReply sessionReply 16) = .error e) ∧
      ¬ ∃ e, epimoneClientListGroups (cutAt .groupListReply groupReply 33) = .error e := by
  obtain ⟨_, _, hSessions⟩ := (cut_lists_returned (cutAt .listReply sessionReply 16)).1 arrivesCut_lastSession
  obtain ⟨_, _, hGroups⟩ := (cut_lists_returned (cutAt .groupListReply groupReply 33)).2 arrivesCut_lastGroup
  exact ⟨hSessions.returned, hGroups.returned⟩

/-- Cut behind its pid, the live session is listed as a dead one; cut in its blob, the group is listed
without its blob and its member. -/
theorem cut_lists_made_up :
    ArrivesCut (cutAt .listReply sessionReply 16) .listReply Decoder.sessionsReply ∧
      epimoneClientListSessions (cutAt .listReply sessionReply 16) = .ok [⟨7, 100, false, false, 0, []⟩] ∧
      ArrivesCut (cutAt .groupListReply groupReply 33) .groupListReply Decoder.groupsReply ∧
      epimoneClientListGroups (cutAt .groupListReply groupReply 33) = .ok (9, [⟨3, 5, [], []⟩]) :=
  ⟨arrivesCut_lastSession, listSessions_eq_ok.mpr ⟨sessionReply.take 16, rfl, by decide +kernel⟩,
    arrivesCut_lastGroup, listGroups_eq_ok.mpr ⟨groupReply.take 33, rfl, by decide +kernel⟩⟩

end Client

end Epimone
