import Epimone.Daemon.Reading
import Epimone.Daemon.Replies
import Epimone.RoundTrip
import Mathlib.Data.List.TakeWhile

/-! # Replies over the wire

What the clients decode from the bodies of LIST_REPLY, GROUP_LIST_REPLY and
PEEK_REPLY is what the daemon holds. The daemon counts without bound; a word of
the wire, as a variable of the C code, holds a number modulo its width.
-/
set_option autoImplicit false

namespace Epimone.Daemon

open Program CircularWindow

def shownSession (k : Session) : EpiSessionInfo :=
  { id := k.id % 2 ^ 64
    pid := k.pid % 2 ^ 32
    alive := k.alive
    attached := k.client.isSome
    createdAt := toInt64 (k.createdAt % 2 ^ 64)
    cwd := cString (k.cwd.getD []) }

def shownSessions (srv : Server) : List EpiSessionInfo :=
  (srv.sessions.filter fun s => !(srv.sess s).removed).map fun s => shownSession (srv.sess s)

def shownGroup (srv : Server) (g : Group) : EpiGroupInfo :=
  { id := g.id % 2 ^ 64
    createdAt := toInt64 (g.createdAt % 2 ^ 64)
    blob := g.blob
    members := (srv.sessions.filter fun s => !(srv.sess s).removed && (srv.sess s).groupId == g.id).map
      fun s => (srv.sess s).id % 2 ^ 64 }

/-- The last bytes of a ring, no more than asked for. -/
def requestedTail (out : OutRing) (maxBytes : Nat) : Bytes :=
  lastN (min maxBytes out.ring.size) out.ring.contents

/-- The body of LIST_REPLY up to the end of the array. -/
def sessionArray (srv : Server) : Bytes :=
  littleEndian 4 (listed srv).length ++ (listed srv).flatMap fun s => infoBytes (srv.sess s)

theorem length_le_flatMap {α : Type} {f : α → Bytes} (items : List α) (hSome : ∀ x ∈ items, f x ≠ []) :
    items.length ≤ (items.flatMap f).length := by
  induction items with
  | nil => exact Nat.zero_le _
  | cons x items ih =>
    have hHead := List.length_pos_of_ne_nil (hSome x List.mem_cons_self)
    have hTail := ih fun y hy => hSome y (List.mem_cons_of_mem _ hy)
    rw [List.flatMap_cons, List.length_cons, List.length_append]
    omega

theorem cString_cString (s : Bytes) : cString (cString s) = cString s := List.takeWhile_idem

theorem flag_eq (flag : Bool) : ((if flag then 1 else 0) % 2 ^ 8 != 0) = flag := by cases flag <;> rfl

section Decoding

variable {alloc : Nat → Bool} (hAlloc : ∀ n, alloc n = true) {rest : Bytes}

include hAlloc

theorem decodes_sessionInfo (k : Session) :
    Decodes rest (Decoder.sessionInfo alloc) (infoBytes k) (shownSession k) := by
  have hInfo := (@Decodes.rdStr rest alloc hAlloc (cString (k.cwd.getD []))).map fun cwd =>
    EpiSessionInfo.mk (k.id % 2 ^ 64) (k.pid % 2 ^ 32) ((if k.alive then 1 else 0) % 2 ^ 8 != 0)
      ((if k.client.isSome then 1 else 0) % 2 ^ 8 != 0) (toInt64 (k.createdAt % 2 ^ 64))
      ((cwd.map cString).getD [])
  have hAll : Decodes rest (Decoder.sessionInfo alloc)
      (u64Bytes k.id ++ (littleEndian 4 k.pid ++ (littleEndian 1 (if k.alive then 1 else 0) ++
        (littleEndian 1 (if k.client.isSome then 1 else 0) ++ (u64Bytes k.createdAt ++
          blobBytes (cString (k.cwd.getD []))))))) _ :=
    .bind (.rdU64 k.id) (.bind (.rdU32 k.pid) (.bind (.rdU8 _) (.bind (.rdU8 _)
      (.bind (.rdU64 k.createdAt) hInfo))))
  rw [flag_eq, flag_eq, Option.map_some, Option.getD_some, cString_cString] at hAll
  simp only [infoBytes, strBytes, List.append_assoc]
  exact hAll

omit hAlloc in
theorem decodes_count {count : Nat} (h : count < 2 ^ 32) :
    Decodes rest Decoder.rdU32 (littleEndian 4 count) count := by
  have hRead := @Decodes.rdU32 rest count
  rwa [Nat.mod_eq_of_lt h] at hRead

theorem decodes_sessions {srv : Server} :
    Decodes rest (Decoder.each .sessions (Decoder.sessionInfo alloc) (listed srv).length)
      ((listed srv).flatMap fun s => infoBytes (srv.sess s)) (shownSessions srv) :=
  .each .sessions fun s _ _ => decodes_sessionInfo hAlloc (srv.sess s)

theorem decodes_sessionsReply {srv : Server} (hCount : (listed srv).length < 2 ^ 32) :
    Decodes rest (Decoder.sessionsReply alloc) (sessionArray srv) (shownSessions srv) :=
  .bind (decodes_count hCount) (decodes_sessions hAlloc)

theorem decodes_instanceIdReply {srv : Server} (hCount : (listed srv).length < 2 ^ 32) :
    Decodes [] (Decoder.instanceIdReply alloc) (listBody srv) (srv.instanceId % 2 ^ 64) := by
  have hId : Decodes [] (Decoder.optional Decoder.rdU64 0) (u64Bytes srv.instanceId)
      (srv.instanceId % 2 ^ 64) :=
    .present 0 (by simp [u64Bytes, littleEndian]) (.rdU64 _)
  rw [listBody, List.append_assoc]
  exact .bind (decodes_count hCount) (.bind (decodes_sessions hAlloc) hId)

theorem decodes_groupInfo {srv : Server} {g : Group} (hCount : (groupMembers srv g.id).length < 2 ^ 32) :
    Decodes rest (Decoder.groupInfo alloc) (groupBytes srv g) (shownGroup srv g) := by
  have hMembers : Decodes rest (Decoder.each .members Decoder.rdU64 (groupMembers srv g.id).length)
      ((groupMembers srv g.id).flatMap fun s => u64Bytes (srv.sess s).id)
      ((groupMembers srv g.id).map fun s => (srv.sess s).id % 2 ^ 64) :=
    .each .members fun s _ _ => .rdU64 _
  have hInfo := hMembers.map fun members => EpiGroupInfo.mk (g.id % 2 ^ 64) (toInt64 (g.createdAt % 2 ^ 64))
    ((if g.blob = [] then none else some g.blob).getD []) members
  have hBlob : (if g.blob = [] then none else some g.blob).getD [] = g.blob := by
    cases g.blob <;> rfl
  have hAll : Decodes rest (Decoder.groupInfo alloc) (u64Bytes g.id ++ (u64Bytes g.createdAt ++
      (blobBytes g.blob ++ (littleEndian 4 (groupMembers srv g.id).length ++
        (groupMembers srv g.id).flatMap fun s => u64Bytes (srv.sess s).id)))) _ :=
    .bind (.rdU64 g.id) (.bind (.rdU64 g.createdAt) (.bind (.rdBlob hAlloc g.blob)
      (.bind (decodes_count hCount) hInfo)))
  rw [hBlob] at hAll
  simp only [groupBytes, List.append_assoc]
  exact hAll

theorem decodes_groupsReply {srv : Server} (hCount : srv.groups.length < 2 ^ 32)
    (hMembers : ∀ g ∈ srv.groups, (groupMembers srv g.id).length < 2 ^ 32) :
    Decodes [] (Decoder.groupsReply alloc) (groupListBody srv)
      (srv.instanceId % 2 ^ 64, srv.groups.map (shownGroup srv)) := by
  have hGroups : Decodes [] (Decoder.each .groups (Decoder.groupInfo alloc) srv.groups.length)
      (srv.groups.flatMap (groupBytes srv)) (srv.groups.map (shownGroup srv)) :=
    .each .groups fun g hg _ => decodes_groupInfo hAlloc (hMembers g hg)
  have hBoth := hGroups.map fun groups => (srv.instanceId % 2 ^ 64, groups)
  rw [groupListBody, List.append_assoc]
  exact .bind (.rdU64 srv.instanceId) (.bind (decodes_count hCount) hBoth)

theorem decodes_peekReply (k : Session) (tail : Bytes) :
    Decodes [] (Decoder.peekReply alloc true) (peekBody k tail) (tail, k.out.ring.size % 2 ^ 64) := by
  have hTotal : Decodes [] (Decoder.optional Decoder.rdU64 0) (u64Bytes k.out.ring.size)
      (k.out.ring.size % 2 ^ 64) :=
    .present 0 (by simp [u64Bytes, littleEndian]) (.rdU64 _)
  have hReply := hTotal.map fun total => ((if tail = [] then none else some tail).getD [], total)
  have hTail : (if tail = [] then none else some tail).getD [] = tail := by
    cases tail <;> rfl
  have hAll : Decodes [] (Decoder.peekReply alloc true)
      (u64Bytes k.id ++ (blobBytes tail ++ u64Bytes k.out.ring.size)) _ :=
    .bind (.rdU64 k.id) (.bind (.rdBlob hAlloc tail) hReply)
  rw [hTail] at hAll
  rw [peekBody, List.append_assoc]
  exact hAll

end Decoding

theorem snapshotTail_block (out : OutRing) (maxBytes : Nat) (junk : Nat → UInt8) :
    (out.snapshotTail maxBytes (.block junk)).getD [] = requestedTail out maxBytes := by
  have hHeld := out.valid.length_contents
  simp only [OutRing.snapshotTail, epiRingSnapshotTail_eq out.valid, Option.get_some]
  split
  · rename_i hNone
    have hZero : min maxBytes out.ring.size = 0 := by omega
    rw [requestedTail, hZero, lastN, Nat.sub_zero, List.drop_length]
    rfl
  · rfl

theorem length_requestedTail (out : OutRing) (maxBytes : Nat) :
    (requestedTail out maxBytes).length ≤ epiRingCap := by
  have hHeld := out.valid.length_contents
  have hSize := out.valid.size_le
  have hCap := out.valid.cap_le
  have hCeiling := out.ceiling
  rw [requestedTail, lastN, List.length_drop]
  omega

section Handlers

variable (srv : Server) (c : ConnPtr) {ans : FrameAnswers} (hAmple : ans.Ample)

include hAmple

theorem outbound_handleList :
    (handleList srv c ans).outbound c =
      srv.outbound c ++ frameBytes EpiMsgType.listReply.code (listBody srv) := by
  obtain ⟨b, hReply, hBody⟩ := opened_handleList srv c ans
  obtain ⟨sent, hOwn, _, hSent, _⟩ := outbound_reply srv c ans hBody
  rw [hReply, hOwn, hSent hAmple]

theorem outbound_handleGroupList :
    (handleGroupList srv c ans).outbound c =
      srv.outbound c ++ frameBytes EpiMsgType.groupListReply.code (groupListBody srv) := by
  obtain ⟨b, hReply, hBody⟩ := opened_handleGroupList srv c ans
  obtain ⟨sent, hOwn, _, hSent, _⟩ := outbound_reply srv c ans hBody
  rw [hReply, hOwn, hSent hAmple]

theorem outbound_handlePeek {request : Object} {p : Probe} {id maxBytes : Nat} {s : SessPtr}
    (hRequest : Gives Decoder.peekRequest (.start request.bytes) (id, maxBytes) p)
    (hErr : p.rd.err = false) (hFind : findSession srv id false = some s) :
    (handlePeek srv c ans (epiRdInit request.bytes)).outbound c =
      srv.outbound c ++ frameBytes EpiMsgType.peekReply.code
        (peekBody (srv.sess s) (requestedTail (srv.sess s).out maxBytes)) := by
  obtain ⟨junk, hSnap⟩ := hAmple.snapAlloc
  obtain ⟨r, hId, hMax⟩ := peek_reads hRequest
  have hBody := (@opened_epiMsgStart ans.bufAlloc .peekReply).put fun bytes hb =>
    filled_peekReply hb (srv.sess s) (requestedTail (srv.sess s).out maxBytes)
  obtain ⟨sent, hOwn, _, hSent, _⟩ := outbound_reply srv c ans hBody
  rw [hSent hAmple, List.nil_append] at hOwn
  unfold handlePeek withSession
  rw [hId]
  dsimp only
  rw [hMax]
  dsimp only
  rw [hErr, if_neg (by decide), hFind]
  dsimp only
  rw [hSnap, snapshotTail_block]
  exact hOwn

end Handlers

section Bodies

variable {srv : Server} {alloc : Nat → Bool} (hAlloc : ∀ n, alloc n = true)

theorem length_groupMembers_le {g : Group} (hg : g ∈ srv.groups) :
    (groupMembers srv g.id).length ≤ (groupListBody srv).length := by
  have hItems := length_le_flatMap (f := fun s => u64Bytes (srv.sess s).id) (groupMembers srv g.id)
    fun s _ => by simp [u64Bytes, littleEndian]
  have hGroup : (groupBytes srv g).length ≤ (srv.groups.flatMap (groupBytes srv)).length :=
    (List.sublist_flatten_of_mem (List.mem_map_of_mem hg)).length_le
  rw [groupBytes, List.length_append] at hGroup
  rw [groupListBody, List.length_append]
  omega

include hAlloc

theorem yields_list (hSize : 4 + (listBody srv).length < 2 ^ 32) :
    Yields (Decoder.sessionsReply alloc) (listBody srv) (shownSessions srv) ∧
      Yields (Decoder.sessionsReply alloc) (sessionArray srv) (shownSessions srv) ∧
      Yields (Decoder.instanceIdReply alloc) (listBody srv) (srv.instanceId % 2 ^ 64) := by
  have hBody : listBody srv = sessionArray srv ++ u64Bytes srv.instanceId := rfl
  have hCount : (listed srv).length ≤ (sessionArray srv).length := by
    have hItems := length_le_flatMap (f := fun s => infoBytes (srv.sess s)) (listed srv)
      fun s _ => by simp [infoBytes, u64Bytes, littleEndian]
    rw [sessionArray, List.length_append]
    omega
  have hArray : (sessionArray srv).length ≤ (listBody srv).length := by
    rw [hBody, List.length_append]
    exact Nat.le_add_right _ _
  have hLess : (listed srv).length < 2 ^ 32 := by omega
  have hAlone := (@decodes_sessionsReply alloc hAlloc [] srv hLess).yields
  have hFollowed := (@decodes_sessionsReply alloc hAlloc (u64Bytes srv.instanceId) srv hLess).yields
  have hId := (@decodes_instanceIdReply alloc hAlloc srv hLess).yields
  rw [List.append_nil] at hAlone hId
  rw [← hBody] at hFollowed
  exact ⟨hFollowed (by omega), hAlone (by omega), hId (by omega)⟩

theorem yields_groupList (hSize : 4 + (groupListBody srv).length < 2 ^ 32) :
    Yields (Decoder.groupsReply alloc) (groupListBody srv)
      (srv.instanceId % 2 ^ 64, srv.groups.map (shownGroup srv)) := by
  have hGroups : srv.groups.length ≤ (groupListBody srv).length := by
    have hItems := length_le_flatMap (f := groupBytes srv) srv.groups
      fun g _ => by simp [groupBytes, u64Bytes, littleEndian]
    rw [groupListBody, List.length_append]
    omega
  have hMembers : ∀ g ∈ srv.groups, (groupMembers srv g.id).length < 2 ^ 32 := by
    intro g hg
    have hLess := length_groupMembers_le hg
    omega
  have hYields := (decodes_groupsReply hAlloc (by omega) hMembers).yields
  rw [List.append_nil] at hYields
  exact hYields (by omega)

theorem yields_peek (k : Session) (maxBytes : Nat) :
    Yields (Decoder.peekReply alloc true) (peekBody k (requestedTail k.out maxBytes))
      (requestedTail k.out maxBytes, k.out.ring.size) := by
  have hHeld := k.out.valid.size_le
  have hCap := k.out.valid.cap_le
  have hCeiling := k.out.ceiling
  have hTop : epiRingCap < 2 ^ 24 := by decide
  have hTail := length_requestedTail k.out maxBytes
  have hYields := (decodes_peekReply hAlloc k (requestedTail k.out maxBytes)).yields
  have hSize : k.out.ring.size % 2 ^ 64 = k.out.ring.size := Nat.mod_eq_of_lt (by omega)
  rw [List.append_nil, hSize] at hYields
  apply hYields
  simp only [peekBody, List.length_append, length_u64Bytes, length_blobBytes]
  omega

end Bodies

/-- The clients read from the replies to LIST, GROUP_LIST and PEEK what the daemon holds, and the array
of LIST_REPLY alike with and without the field that trails it. -/
theorem replies_round_trip (srv : Server) (c : ConnPtr) {ans : FrameAnswers} (hAmple : ans.Ample)
    {alloc : Nat → Bool} (hAlloc : ∀ n, alloc n = true) :
    (4 + (listBody srv).length < 2 ^ 32 →
      (handleList srv c ans).outbound c =
          srv.outbound c ++ frameBytes EpiMsgType.listReply.code (listBody srv) ∧
        Yields (Decoder.sessionsReply alloc) (listBody srv) (shownSessions srv) ∧
        Yields (Decoder.sessionsReply alloc) (sessionArray srv) (shownSessions srv) ∧
        Yields (Decoder.instanceIdReply alloc) (listBody srv) (srv.instanceId % 2 ^ 64)) ∧
    (4 + (groupListBody srv).length < 2 ^ 32 →
      (handleGroupList srv c ans).outbound c =
          srv.outbound c ++ frameBytes EpiMsgType.groupListReply.code (groupListBody srv) ∧
        Yields (Decoder.groupsReply alloc) (groupListBody srv)
          (srv.instanceId % 2 ^ 64, srv.groups.map (shownGroup srv))) ∧
    ∀ (request : Object) (p : Probe) (id maxBytes : Nat) (s : SessPtr),
      Gives Decoder.peekRequest (.start request.bytes) (id, maxBytes) p → p.rd.err = false →
        findSession srv id false = some s →
          (handlePeek srv c ans (epiRdInit request.bytes)).outbound c =
              srv.outbound c ++ frameBytes EpiMsgType.peekReply.code
                (peekBody (srv.sess s) (requestedTail (srv.sess s).out maxBytes)) ∧
            Yields (Decoder.peekReply alloc true)
              (peekBody (srv.sess s) (requestedTail (srv.sess s).out maxBytes))
              (requestedTail (srv.sess s).out maxBytes, (srv.sess s).out.ring.size) := by
  refine ⟨?_, ?_, ?_⟩
  · intro hSize
    exact ⟨outbound_handleList srv c hAmple, yields_list hAlloc hSize⟩
  · intro hSize
    exact ⟨outbound_handleGroupList srv c hAmple, yields_groupList hAlloc hSize⟩
  · intro request p id maxBytes s hRequest hErr hFind
    exact ⟨outbound_handlePeek srv c hAmple hRequest hErr hFind, yields_peek hAlloc _ _⟩

theorem okBytes_bounded : [111, 107].length ≤ ptyReadChunk := by decide

/-- A daemon with a killed session, two groups, and a session that has printed two bytes. -/
def conversing : List Input :=
  populating ++ batchOf (.pty 0 readable) (.pty
    { inputWrites := []
      reads := [⟨.bytes ⟨[111, 107], okBytes_bounded⟩, .block fun _ => 0, true, []⟩]
      eofWrites := [] }) ⟨0⟩

theorem peekRequest_bounded : (u64Bytes 1 ++ littleEndian 4 1).length < 2 ^ 63 := by decide +kernel

/-- PEEK for the last byte of the first session. -/
def peekRequest : Object := ⟨u64Bytes 1 ++ littleEndian 4 1, peekRequest_bounded⟩

def conversed (loop : Loop) : Bool :=
  loop.srv.sessions.any (fun s => (loop.srv.sess s).removed) &&
    decide (shownSessions loop.srv =
      [⟨3, 102, true, false, 0, ascii "/tmp"⟩, ⟨1, 100, true, false, 0, ascii "/tmp"⟩]) &&
    decide (loop.srv.groups.map (shownGroup loop.srv) = [⟨2, 0, [], [3]⟩, ⟨1, 0, [123, 0, 125], [1]⟩]) &&
    decide (4 + (listBody loop.srv).length < 2 ^ 32) && decide (4 + (groupListBody loop.srv).length < 2 ^ 32) &&
    loop.srv.instanceId == 7 && findSession loop.srv 1 false == some 0 &&
    decide (requestedTail (loop.srv.sess 0).out 1 = [107]) && (loop.srv.sess 0).out.ring.size == 2

theorem replies_round_trip_conversing :
    ∃ loop, (machine 7).run conversing = some loop ∧
      (∃ s ∈ loop.srv.sessions, (loop.srv.sess s).removed = true) ∧
      Yields (Decoder.sessionsReply fun _ => true) (listBody loop.srv)
        [⟨3, 102, true, false, 0, ascii "/tmp"⟩, ⟨1, 100, true, false, 0, ascii "/tmp"⟩] ∧
      Yields (Decoder.instanceIdReply fun _ => true) (listBody loop.srv) 7 ∧
      Yields (Decoder.groupsReply fun _ => true) (groupListBody loop.srv)
        (7, [⟨2, 0, [], [3]⟩, ⟨1, 0, [123, 0, 125], [1]⟩]) ∧
      Yields (Decoder.peekReply (fun _ => true) true) (peekBody (loop.srv.sess 0) [107]) ([107], 2) := by
  have hRun : ((machine 7).run conversing).any conversed := by decide +kernel
  obtain ⟨loop, hLoop, hHere⟩ := (machine 7).exists_of_run_any hRun
  simp only [conversed, Bool.and_eq_true, decide_eq_true_eq, beq_iff_eq, List.any_eq_true] at hHere
  obtain ⟨⟨⟨⟨⟨⟨⟨⟨hRemoved, hShown⟩, hGroups⟩, hFits⟩, hFits'⟩, hInstance⟩, hFound⟩, hTail⟩, hTotal⟩ := hHere
  obtain ⟨hList, hGroupList, hPeek⟩ := @replies_round_trip loop.srv 0 _ (calmFrame_ample 0 ⟨0⟩)
    (fun _ => true) fun _ => rfl
  obtain ⟨_, hSessions, _, hId⟩ := hList hFits
  obtain ⟨_, hTable⟩ := hGroupList hFits'
  obtain ⟨_, hRing⟩ := hPeek peekRequest _ 1 1 0 ⟨rfl, rfl⟩ rfl hFound
  rw [hShown] at hSessions
  rw [hInstance] at hId hTable
  rw [hGroups] at hTable
  rw [hTail, hTotal] at hRing
  exact ⟨loop, hLoop, hRemoved, hSessions, hId, hTable, hRing⟩

end Epimone.Daemon
