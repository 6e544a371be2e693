import Epimone.Daemon.Backlog

/-! # Reading the group table back

A GROUP_LIST reply carries every blob and every member of every group in one
frame. The table may hold EPI_GROUP_MAX groups with EPI_GROUP_BLOB_MAX bytes
each, and MAX_WBUF is far below that: a reply that is larger marks its
connection want_close, and the run loop then neither watches the socket for
EPOLLOUT nor closes it.
-/
set_option autoImplicit false

namespace Epimone.Daemon

open Transition

/-- The size of a GROUP_LIST reply: its header, and each group with its blob and its members. -/
def groupListSize (srv : Server) : Nat :=
  20 + (srv.groups.map fun g => 24 + g.blob.length + 8 * countGroupMembers srv g.id).sum

/-- No allocation fails while the frame is answered. -/
def FrameAnswers.Allocates (ans : FrameAnswers) : Prop :=
  (∀ n, ans.bufAlloc n = true) ∧ ans.queueAlloc = true

/-- The whole reply waits to be sent on a connection that takes further requests, and epoll watches for
the moment when the socket takes it. -/
structure AnsweredInFull (srv : Server) (c : ConnPtr) (reply : Bytes) : Prop where
  listed : c ∈ srv.conns
  control : (srv.conn c).isData = false
  usable : (srv.conn c).wantClose = false
  queued : (srv.conn c).unsent = reply
  watched : (srv.conn c).events = some ⟨true, true, true, false, false⟩

/-- The GROUP_LIST request of the connection, and what the run loop does after it. -/
def listGroups (srv : Server) (c : ConnPtr) (ans : FrameAnswers) (body : Bytes) : Server :=
  settleConn (handleFrame srv c ans EpiMsgType.groupList.code body) c

def groupListReply (srv : Server) : Bytes := frameBytes EpiMsgType.groupListReply.code (groupListBody srv)

section Size

theorem length_flatMap_u64 {α : Type} (l : List α) (f : α → Nat) :
    (l.flatMap fun x => u64Bytes (f x)).length = 8 * l.length := by
  induction l with
  | nil => rfl
  | cons x l ih =>
    rw [List.flatMap_cons, List.length_append, ih, length_u64Bytes, List.length_cons]
    omega

theorem length_groupBytes (srv : Server) (g : Group) :
    (groupBytes srv g).length = 24 + g.blob.length + 8 * countGroupMembers srv g.id := by
  simp only [groupBytes, List.length_append, length_u64Bytes, length_blobBytes, length_littleEndian,
    length_flatMap_u64, countGroupMembers_eq]
  omega

theorem length_groupListReply (srv : Server) : (groupListReply srv).length = groupListSize srv := by
  have hGroups : ∀ l : List Group, (l.flatMap (groupBytes srv)).length =
      (l.map fun g => 24 + g.blob.length + 8 * countGroupMembers srv g.id).sum := by
    intro l
    induction l with
    | nil => rfl
    | cons g l ih =>
      rw [List.flatMap_cons, List.length_append, ih, length_groupBytes, List.map_cons, List.sum_cons]
  rw [groupListReply, length_frameBytes, groupListBody, List.length_append, List.length_append, hGroups,
    length_u64Bytes, length_littleEndian, groupListSize]
  omega

end Size

section Reply

variable {srv : Server} {c : ConnPtr} {ans : FrameAnswers}

theorem reply_eq {b : EpiBuf} {kind : EpiMsgType} {body : Bytes} (hAlloc : ans.Allocates)
    (hBody : b.Opened ans.bufAlloc kind body) :
    ∃ es, reply srv c ans b =
      { srv with
        conn := Function.update srv.conn c (connQueue (srv.conn c) (frameBytes kind.code body) true)
        trace := srv.trace ++ es } := by
  have hOom := hBody.sealed.sound hAlloc.1
  have hData := hBody.sealed.data_eq hOom
  refine ⟨frameEffects (srv.conn c) c (epiMsgEnd b) ans.queueAlloc, ?_⟩
  rw [reply, connQueueFrame_eq, queueFrame, hOom, if_neg (by decide), hData, hAlloc.2]

theorem frameBytes_ne_nil (type : Nat) (body : Bytes) : frameBytes type body ≠ [] := by
  intro hNone
  have hLength := length_frameBytes type body
  rw [hNone, List.length_nil] at hLength
  omega

theorem handleGroupList_eq (hAlloc : ans.Allocates) (body : Bytes) :
    ∃ es, handleFrame srv c ans EpiMsgType.groupList.code body =
      { srv with
        conn := Function.update srv.conn c (connQueue (srv.conn c) (groupListReply srv) true)
        trace := srv.trace ++ es } := by
  generalize hNoted : srv.emit (.frame c EpiMsgType.groupList.code body (srv.conn c).unsent.length) = noted
  obtain ⟨b, hReply, hBody⟩ := opened_handleGroupList noted c ans
  obtain ⟨es, hQueued⟩ := @reply_eq noted c ans b _ _ hAlloc hBody
  have hFrame : handleFrame srv c ans EpiMsgType.groupList.code body = handleGroupList noted c ans := by
    rw [← hNoted]
    rfl
  rw [hFrame, hReply, hQueued, ← hNoted]
  exact ⟨.frame c EpiMsgType.groupList.code body (srv.conn c).unsent.length :: es,
    by simp [Server.emit]; rfl⟩

section Asked

variable (hc : c ∈ srv.conns) (hControl : (srv.conn c).isData = false) (hEmpty : (srv.conn c).unsent = [])
  (hOpen : (srv.conn c).wantClose = false) (hAlloc : ans.Allocates) (body : Bytes)

include hEmpty hOpen in
theorem queueReply_spec : ∃ k, connQueue (srv.conn c) (groupListReply srv) true = k ∧
    k.unsent = groupListReply srv ∧ k.wpos < k.wlen ∧ (k.wantClose = true ↔ maxWbuf < groupListSize srv) := by
  have hGrows : (srv.conn c).growthFails (groupListReply srv).length true = false := Bool.and_false _
  have hMark := @connQueue_wantClose (srv.conn c) (groupListReply srv) true (frameBytes_ne_nil _ _)
  have hUnsent := connQueue_unsent hGrows
  rw [hEmpty, hOpen, hGrows, length_groupListReply] at hMark
  rw [hEmpty, List.nil_append] at hUnsent
  refine ⟨_, rfl, hUnsent, ?_, hMark.trans (by simp)⟩
  rw [← Connection.unsent_ne_nil_iff, hUnsent]
  exact frameBytes_ne_nil _ _

include hc hEmpty hOpen hAlloc in
/-- A reply that is too large stays where it is: the connection is given up, and its registration is as it was. -/
theorem listGroups_blocked (hOver : maxWbuf < groupListSize srv) :
    c ∈ (listGroups srv c ans body).conns ∧ ((listGroups srv c ans body).conn c).wantClose = true ∧
      ((listGroups srv c ans body).conn c).unsent = groupListReply srv ∧
      ((listGroups srv c ans body).conn c).events = (srv.conn c).events := by
  obtain ⟨k, hQueue, hUnsent, hWaits, hMark⟩ := queueReply_spec hEmpty hOpen
  obtain ⟨es, hHandled⟩ := @handleGroupList_eq srv c ans hAlloc body
  have hEvents := connQueue_events (srv.conn c) (groupListReply srv) true
  have hClose := hMark.mpr hOver
  rw [hQueue] at hHandled hEvents
  have hSettled : ∀ t : Server, t.conn c = k → settleConn t c = t := by
    intro t ht
    simp [settleConn, ht, hClose, Nat.ne_of_gt hWaits]
  unfold listGroups
  rw [hHandled, hSettled _ (Function.update_self _ _ _)]
  simp [hc, hClose, hUnsent, hEvents]

include hc hControl hEmpty hOpen hAlloc in
/-- A reply that fits is watched for, and the connection goes on. -/
theorem listGroups_answers (hFits : groupListSize srv ≤ maxWbuf) :
    AnsweredInFull (listGroups srv c ans body) c (groupListReply srv) := by
  obtain ⟨k, hQueue, hUnsent, hWaits, hMark⟩ := queueReply_spec hEmpty hOpen
  obtain ⟨es, hHandled⟩ := @handleGroupList_eq srv c ans hAlloc body
  have hData := connQueue_isData (srv.conn c) (groupListReply srv) true
  have hClose : k.wantClose = false := by
    rw [← Bool.not_eq_true, hMark]
    exact Nat.not_lt.mpr hFits
  rw [hQueue] at hHandled hData
  have hSettled : ∀ t : Server, t.conn c = k → settleConn t c = connUpdate t c := by
    intro t ht
    simp [settleConn, ht, hClose, connUpdate, Server.modConn]
  unfold listGroups
  rw [hHandled, hSettled _ (Function.update_self _ _ _)]
  constructor
  · exact hc
  · simp [connUpdate, Server.modConn, hData, hControl]
  · simp [connUpdate, Server.modConn, hClose]
  · rw [← hUnsent]
    simp [connUpdate, Server.modConn, Connection.unsent]
  · simp [connUpdate, Server.modConn, hWaits]

end Asked

/-- The group table is read back exactly if the reply fits the backlog limit. -/
theorem groupList_answered_iff (hc : c ∈ srv.conns) (hControl : (srv.conn c).isData = false)
    (hEmpty : (srv.conn c).unsent = []) (hOpen : (srv.conn c).wantClose = false) (hAlloc : ans.Allocates)
    (body : Bytes) :
    AnsweredInFull (listGroups srv c ans body) c (groupListReply srv) ↔ groupListSize srv ≤ maxWbuf := by
  constructor
  · intro hAnswered
    rw [← Nat.not_lt]
    intro hOver
    obtain ⟨_, hClose, _⟩ := listGroups_blocked hc hEmpty hOpen hAlloc body hOver
    rw [hAnswered.usable] at hClose
    cases hClose
  · exact listGroups_answers hc hControl hEmpty hOpen hAlloc body

/-- The connection is new, and there are two groups, with a blob and with members. -/
def readyForTable (loop : Loop) : Bool :=
  loop.srv.conns.contains 1 && !(loop.srv.conn 1).isData && (loop.srv.conn 1).unsent == [] &&
    !(loop.srv.conn 1).wantClose && decide (groupListSize loop.srv ≤ maxWbuf) &&
    decide (loop.srv.groups.map (fun g => (g.id, g.blob, countGroupMembers loop.srv g.id)) =
      [(2, [], 1), (1, [123, 0, 125], 1)])

theorem groupList_answered_iff_populated :
    ∃ loop, (machine 7).run (populating ++ accepting) = some loop ∧
      loop.srv.groups.map (fun g => (g.id, g.blob, countGroupMembers loop.srv g.id)) =
        [(2, [], 1), (1, [123, 0, 125], 1)] ∧
      AnsweredInFull (listGroups loop.srv 1 (calmFrame 0 ⟨0⟩) []) 1 (groupListReply loop.srv) := by
  have hRun : ((machine 7).run (populating ++ accepting)).any readyForTable := by decide +kernel
  obtain ⟨loop, hLoop, hHere⟩ := (machine 7).exists_of_run_any hRun
  simp only [readyForTable, Bool.and_eq_true, Bool.not_eq_true', beq_iff_eq, List.contains_iff_mem,
    decide_eq_true_eq] at hHere
  obtain ⟨⟨⟨⟨⟨hc, hControl⟩, hEmpty⟩, hOpen⟩, hFits⟩, hGroups⟩ := hHere
  exact ⟨loop, hLoop, hGroups,
    (groupList_answered_iff hc hControl hEmpty hOpen ⟨fun _ => rfl, rfl⟩ []).mpr hFits⟩

end Reply

/-! A client that fills the group table with the largest blobs that one read takes. -/

section Stock

variable {srv : Server} {c : ConnPtr}

theorem readFrame_frameBytes {type : Nat} {body : Bytes} (hType : type < 2 ^ 32)
    (hRoom : 4 + body.length ≤ maxFrame) :
    readFrame (frameBytes type body) = .item (type, body) (8 + body.length) := by
  have hMax : maxFrame < 2 ^ 32 := by decide
  have hSize : ofLittleEndian ((frameBytes type body).take 4) = 4 + body.length := by
    rw [take_frameBytes, ofLittleEndian_littleEndian_of_lt (by omega)]
  have hTypeWord : ofLittleEndian (((frameBytes type body).drop 4).take 4) = type := by
    rw [drop_frameBytes, List.take_left' (length_littleEndian _ _), ofLittleEndian_littleEndian_of_lt hType]
  have hBody : ((frameBytes type body).drop 8).take (4 + body.length - 4) = body := by
    rw [frameBytes, ← List.append_assoc, List.drop_left' (by simp), Nat.add_sub_cancel_left, List.take_length]
  unfold readFrame
  dsimp only
  rw [hSize, hTypeWord, hBody, length_frameBytes, if_neg (by omega), if_neg (by omega), if_neg (by omega),
    if_neg (by omega)]
  congr 1
  omega

theorem connRead_frame {ans : ConnAnswers} {chunk : Chunk} {type : Nat} {body : Bytes}
    (hLinks : srv.links.Consistent) (hc : c ∈ srv.conns) (hControl : (srv.conn c).isData = false)
    (hEmpty : (srv.inbuf c).rbuf = []) (hRead : ans.read = .bytes chunk)
    (hChunk : chunk.bytes = frameBytes type body) (hType : type < 2 ^ 32) (hRoom : 4 + body.length ≤ maxFrame)
    (hAlloc : ans.rbufAlloc = true)
    (hStays : ((handleFrame (storeInbound srv c chunk.bytes) c (ans.frames 0) type body).conn c).isData = false) :
    connRead srv c ans = dropConsumed (handleFrame (storeInbound srv c chunk.bytes) c (ans.frames 0) type body) c
      (8 + body.length) := by
  have hStored : ((storeInbound srv c chunk.bytes).inbuf c).rbuf = frameBytes type body := by
    simp [storeInbound, Server.modIn, Server.emit, hEmpty, hChunk]
  have hInbuf := @inbuf_handleFrame c (storeInbound srv c chunk.bytes) hLinks hc hControl (ans.frames 0) type body
  have hRest : ∀ fuel, frameLoop c ans fuel 1
      (handleFrame (storeInbound srv c chunk.bytes) c (ans.frames 0) type body) (8 + body.length) =
        (handleFrame (storeInbound srv c chunk.bytes) c (ans.frames 0) type body, some (8 + body.length)) := by
    intro fuel
    cases fuel with
    | zero => rfl
    | succ fuel =>
      rw [frameLoop_succ, hInbuf, hStored, List.drop_of_length_le (by rw [length_frameBytes])]
      rfl
  have hLoop : ∀ fuel, frameLoop c ans (fuel + 1) 0 (storeInbound srv c chunk.bytes) 0 =
      (handleFrame (storeInbound srv c chunk.bytes) c (ans.frames 0) type body, some (8 + body.length)) := by
    intro fuel
    rw [frameLoop_succ, hStored, List.drop_zero, readFrame_frameBytes hType hRoom]
    dsimp only
    rw [Nat.zero_add, hStays, if_neg (by decide), hRest, ite_self]
  have hFuel : ((storeInbound srv c chunk.bytes).inbuf c).rbuf.length = 7 + body.length + 1 := by
    rw [hStored, length_frameBytes]
    omega
  unfold connRead
  rw [hRead]
  dsimp only
  rw [if_neg (by rw [hChunk]; exact frameBytes_ne_nil _ _)]
  unfold handleInbound
  rw [if_neg (by rw [hControl]; decide), if_neg (by simp [InBuf.growthFails, hAlloc])]
  dsimp only
  rw [hFuel, hLoop]

theorem epiRdBlob_blobBytes {blob : Bytes} (hSome : blob ≠ []) (hSize : blob.length < 2 ^ 32) :
    epiRdBlob (fun _ => true) (epiRdInit (blobBytes blob)) =
      (some blob, ⟨blobBytes blob, 4 + blob.length, false⟩) := by
  have hWord : epiRdU32 (epiRdInit (blobBytes blob)) = (blob.length, ⟨blobBytes blob, 4, false⟩) := by
    unfold epiRdU32 epiRdUint epiRdInit
    rw [if_neg (by simp)]
    dsimp only
    rw [List.drop_zero, blobBytes, List.take_left' (length_littleEndian _ _),
      ofLittleEndian_littleEndian_of_lt hSize]
  have hBlock : ((blobBytes blob).drop 4).take blob.length = blob := by
    rw [blobBytes, List.drop_left' (length_littleEndian _ _), List.take_length]
  unfold epiRdBlob
  rw [hWord]
  dsimp only
  rw [if_neg (by simp), if_neg (by simpa using hSome), if_pos rfl, hBlock]

theorem handleGroupNew_eq {blob : Bytes} (hSome : blob ≠ []) (hSize : blob.length ≤ epiGroupBlobMax)
    (hRoom : countGroups srv < epiGroupMax) :
    ∃ es, handleFrame srv c (calmFrame 0 ⟨0⟩) EpiMsgType.groupNew.code (blobBytes blob) =
      { srv with
        nextGroupId := srv.nextGroupId + 1
        groups := ⟨srv.nextGroupId + 1, blob, 0⟩ :: srv.groups
        conn := Function.update srv.conn c
          (connQueue (srv.conn c) (frameBytes EpiMsgType.groupId.code (u64Bytes (srv.nextGroupId + 1))) true)
        trace := srv.trace ++ es } := by
  generalize hNoted : srv.emit (.frame c EpiMsgType.groupNew.code (blobBytes blob) (srv.conn c).unsent.length) = noted
  have hFrame : handleFrame srv c (calmFrame 0 ⟨0⟩) EpiMsgType.groupNew.code (blobBytes blob) =
      handleGroupNew noted c (calmFrame 0 ⟨0⟩) (epiRdInit (blobBytes blob)) := by
    rw [← hNoted]
    rfl
  have hRead := epiRdBlob_blobBytes hSome (Nat.lt_of_le_of_lt hSize (by decide))
  have hCount : ¬ epiGroupMax ≤ countGroups noted := by
    rw [← hNoted]
    exact Nat.not_le.mpr hRoom
  have hFilled : 0 < (blobBytes blob).length := by
    rw [length_blobBytes]
    omega
  have hMore : (epiRdInit (blobBytes blob)).more = true := decide_eq_true hFilled
  have hMade : epiGroupNew (calmFrame 0 ⟨0⟩) blob = some ⟨0, blob, 0⟩ := by
    simp [epiGroupNew, calmFrame]
  obtain ⟨es, hReply⟩ := @reply_eq (linkGroup noted ⟨0, blob, 0⟩) c (calmFrame 0 ⟨0⟩) _ .groupId _
    ⟨fun _ => rfl, rfl⟩ ((opened_epiMsgStart .groupId).put fun bytes hb => hb.putU64 (linkGroup noted
      ⟨0, blob, 0⟩).nextGroupId)
  rw [hFrame]
  unfold handleGroupNew
  rw [if_pos hMore]
  rw [show (calmFrame 0 ⟨0⟩).rdAlloc = fun _ => true from rfl, hRead]
  dsimp only [Option.getD_some]
  rw [if_neg (by decide), if_neg (Nat.not_lt.mpr hSize), if_neg hCount, hMade]
  dsimp only
  rw [hReply, ← hNoted]
  refine ⟨.frame c EpiMsgType.groupNew.code (blobBytes blob) (srv.conn c).unsent.length ::
    .groupCreated (srv.nextGroupId + 1) :: es, ?_⟩
  simp [linkGroup, Server.emit]

/-- A blob that makes GROUP_NEW exactly one read long. -/
abbrev StockBlob := {blob : Bytes // blob.length = 65524}

variable {blob : StockBlob}

def stockRequest (blob : StockBlob) : Bytes := frameBytes EpiMsgType.groupNew.code (blobBytes blob)

theorem length_stockRequest (blob : StockBlob) : (stockRequest blob).length = ptyReadChunk := by
  rw [stockRequest, length_frameBytes, length_blobBytes, blob.2]
  rfl

def stockAnswers (blob : StockBlob) : ConnAnswers :=
  calmConn [] (stockRequest blob) (Nat.le_of_eq (length_stockRequest blob)) 0 ⟨0⟩

/-- A client that makes one group after the other and reads no reply. -/
def stocking (blob : StockBlob) : Nat → List Input
  | 0 => accepting
  | n + 1 => stocking blob n ++ batchOf (.conn 0 readable) (.conn (stockAnswers blob)) ⟨0⟩

def zeroBlob : StockBlob := ⟨List.replicate 65524 0, List.length_replicate⟩

structure Stocked (blob : StockBlob) (n : Nat) (srv : Server) : Prop where
  listed : srv.conns = [0]
  next : srv.nextConn = 1
  control : (srv.conn 0).isData = false
  usable : (srv.conn 0).wantClose = false
  backlog : (srv.conn 0).unsent.length = 16 * n
  drained : (srv.inbuf 0).rbuf = []
  watched : (srv.conn 0).events.any readable.within = true
  count : srv.groups.length = n
  blobs : ∀ g ∈ srv.groups, g.blob = blob.1
  bare : srv.sessions = [] ∧ srv.dead = []
  running : srv.running = true

theorem Stocked.dispatch {n : Nat} (h : Stocked blob n srv) (hLinks : srv.links.Consistent) (hRoom : n < epiGroupMax) :
    Stocked blob (n + 1) (dispatchConn srv 0 readable (stockAnswers blob)) := by
  have hc : 0 ∈ srv.conns := by rw [h.listed]; exact List.mem_cons_self
  have hSome : blob.1 ≠ [] := by
    intro hNone
    have hLength := blob.2
    rw [hNone] at hLength
    cases hLength
  have hSize : blob.1.length ≤ epiGroupBlobMax := by rw [blob.2]; decide
  have hFits : 4 + (blobBytes blob).length ≤ maxFrame := by
    rw [length_blobBytes, blob.2]
    decide
  have hCount : countGroups srv < epiGroupMax := by rw [countGroups_eq, h.count]; exact hRoom
  generalize hStored : storeInbound srv 0 (stockRequest blob) = stored
  have hSame : stored.conns = srv.conns ∧ stored.conn = srv.conn ∧ stored.groups = srv.groups ∧
      stored.nextConn = srv.nextConn ∧ stored.sessions = srv.sessions ∧ stored.dead = srv.dead ∧
        stored.running = srv.running ∧ (stored.inbuf 0).rbuf = stockRequest blob := by
    rw [← hStored]
    simp [storeInbound, Server.modIn, Server.emit, h.drained]
  obtain ⟨hConns, hConn, hGroups, hNext, hSessions, hDead, hRunning, hBuffer⟩ := hSame
  obtain ⟨es, hHandled⟩ := @handleGroupNew_eq stored 0 blob.1 hSome hSize
    (by rw [countGroups_eq, hGroups, ← countGroups_eq]; exact hCount)
  have hGrows : (srv.conn 0).growthFails
      (frameBytes EpiMsgType.groupId.code (u64Bytes (stored.nextGroupId + 1))).length true = false := Bool.and_false _
  have hUnsent := connQueue_unsent hGrows
  have hMark := @connQueue_wantClose (srv.conn 0) _ true (frameBytes_ne_nil EpiMsgType.groupId.code
    (u64Bytes (stored.nextGroupId + 1)))
  have hData := connQueue_isData (srv.conn 0)
    (frameBytes EpiMsgType.groupId.code (u64Bytes (stored.nextGroupId + 1))) true
  rw [hConn] at hHandled
  rw [h.usable, hGrows, h.backlog, length_frameBytes, length_u64Bytes] at hMark
  generalize connQueue (srv.conn 0) (frameBytes EpiMsgType.groupId.code (u64Bytes (stored.nextGroupId + 1))) true = k
    at hHandled hUnsent hMark hData
  have hUsable : k.wantClose = false := by
    have hMax : 16 * epiGroupMax + 16 ≤ maxWbuf := by decide
    rw [← Bool.not_eq_true, hMark]
    simp
    omega
  have hRead : connRead srv 0 (stockAnswers blob) = dropConsumed (handleFrame stored 0 (calmFrame 0 ⟨0⟩)
      EpiMsgType.groupNew.code (blobBytes blob)) 0 (8 + (blobBytes blob).length) := by
    rw [← hStored]
    refine @connRead_frame srv 0 (stockAnswers blob) ⟨stockRequest blob, Nat.le_of_eq (length_stockRequest blob)⟩
      EpiMsgType.groupNew.code (blobBytes blob) hLinks hc h.control h.drained rfl rfl (by decide) hFits rfl ?_
    rw [show (stockAnswers blob).frames 0 = calmFrame 0 ⟨0⟩ from rfl]
    dsimp only
    rw [hStored, hHandled]
    simp [hData, h.control]
  have hDispatch : dispatchConn srv 0 readable (stockAnswers blob) =
    settleConn (connRead srv 0 (stockAnswers blob)) 0 := rfl
  have hSettled : ∀ t : Server, t.conn 0 = k → settleConn t 0 = connUpdate t 0 := by
    intro t ht
    simp [settleConn, ht, hUsable, connUpdate, Server.modConn]
  rw [hDispatch, hRead, hHandled, dropConsumed, if_pos (by omega), hSettled _ (by simp [Server.modIn])]
  constructor
  · exact hConns.trans h.listed
  · exact hNext.trans h.next
  · simp [connUpdate, Server.modConn, Server.modIn, hData, h.control]
  · simp [connUpdate, Server.modConn, Server.modIn, hUsable]
  · have hWaits : k.unsent.length = 16 * (n + 1) := by
      rw [hUnsent, List.length_append, h.backlog, length_frameBytes, length_u64Bytes]
      omega
    simpa [connUpdate, Server.modConn, Server.modIn, Connection.unsent] using hWaits
  · have hRest : (stockRequest blob).drop (8 + (blobBytes blob).length) = [] :=
      List.drop_of_length_le (by rw [stockRequest, length_frameBytes])
    simpa [connUpdate, Server.modConn, Server.modIn, hBuffer] using hRest
  · simp [connUpdate, Server.modConn, Events.within, readable]
  · simp [connUpdate, Server.modConn, Server.modIn, hGroups, h.count]
  · intro g hg
    rcases List.mem_cons.mp hg with rfl | hOld
    · rfl
    · exact h.blobs g (by rw [← hGroups]; exact hOld)
  · exact ⟨hSessions.trans h.bare.1, hDead.trans h.bare.2⟩
  · exact hRunning.trans h.running

theorem finishBatch_bare (h : srv.sessions = [] ∧ srv.dead = []) : finishBatch srv ⟨0⟩ onTime = srv := by
  simp [finishBatch, reapDeadSessions, reapDead, processKillDeadlines, escalateAll, h.1, h.2]

theorem run_bare {before : List Input} {loop : Loop} {ready : Ready} {ans : Answers} {srv' : Server}
    (hRun : (machine 7).run before = some loop) (hHead : loop.phase = .head ⟨0⟩)
    (hBatch : possibleBatch loop.srv (readings ⟨0⟩ onTime) [ready] = true)
    (hDispatch : dispatchReady loop.srv ready ans = some srv') (hBare : srv'.sessions = [] ∧ srv'.dead = [])
    (hRunning : srv'.running = true) :
    (machine 7).run (before ++ batchOf ready ans ⟨0⟩) = some ⟨srv', .head ⟨0⟩⟩ := by
  have hEvent := run_event hRun hHead hBatch hDispatch
  have hSplit : before ++ batchOf ready ans ⟨0⟩ =
      (before ++ [.wait onTime [ready], .dispatch ans]) ++ [.finish ⟨0⟩ onTime] := by simp [batchOf]
  unfold Machine.run at hEvent ⊢
  rw [hSplit, Machine.runFrom_append, hEvent]
  simp [Machine.runFrom, machine, Loop.step, finishBatch_bare hBare, hRunning]

theorem stocking_run {n : Nat} (h : n ≤ epiGroupMax) :
    ∃ loop, (machine 7).run (stocking blob n) = some loop ∧ loop.phase = .head ⟨0⟩ ∧ Stocked blob n loop.srv := by
  induction n with
  | zero =>
    refine ⟨_, rfl, rfl, ?_⟩
    constructor
    · rfl
    · rfl
    · rfl
    · rfl
    · rfl
    · rfl
    · rfl
    · rfl
    · intro g hg
      cases hg
    · exact ⟨rfl, rfl⟩
    · rfl
  | succ n ih =>
    obtain ⟨loop, hRun, hHead, hStocked⟩ := ih (by omega)
    have hBatch : possibleBatch loop.srv (readings ⟨0⟩ onTime) [.conn 0 readable] = true := by
      simp [possibleBatch, Ready.registered, distinctSources, hStocked.listed, hStocked.watched]
    have hNext := hStocked.dispatch (reached_of_run hRun).consistent (by omega)
    exact ⟨_, @run_bare _ _ _ (.conn (stockAnswers blob)) _ hRun hHead hBatch rfl hNext.bare hNext.running, rfl, hNext⟩

theorem le_sum_of_le {α : Type} {f : α → Nat} {k : Nat} (l : List α) (h : ∀ x ∈ l, k ≤ f x) :
    l.length * k ≤ (l.map f).sum := by
  induction l with
  | nil => simp
  | cons x l ih =>
    rw [List.length_cons, List.map_cons, List.sum_cons, Nat.succ_mul, Nat.add_comm]
    exact Nat.add_le_add (h x List.mem_cons_self) (ih fun y hy => h y (List.mem_cons_of_mem x hy))

/-- A client that has 128 groups of the largest blob one read takes, and a new one that asks for the table:
its reply is larger than MAX_WBUF, and nobody waits for the moment when the socket takes it. -/
theorem groupList_blocked_stocked :
    ∃ loop, (machine 7).run (stocking zeroBlob 128 ++ accepting) = some loop ∧ 1 ∈ loop.srv.conns ∧
      (loop.srv.conn 1).isData = false ∧ (loop.srv.conn 1).unsent = [] ∧ (loop.srv.conn 1).wantClose = false ∧
      (calmFrame 0 ⟨0⟩).Allocates ∧
      ¬ AnsweredInFull (listGroups loop.srv 1 (calmFrame 0 ⟨0⟩) []) 1 (groupListReply loop.srv) ∧
      1 ∈ (listGroups loop.srv 1 (calmFrame 0 ⟨0⟩) []).conns ∧
      ((listGroups loop.srv 1 (calmFrame 0 ⟨0⟩) []).conn 1).wantClose = true ∧
      ((listGroups loop.srv 1 (calmFrame 0 ⟨0⟩) []).conn 1).polled = false := by
  obtain ⟨loop, hRun, hHead, hStocked⟩ := @stocking_run zeroBlob 128 (by decide)
  have hBatch : possibleBatch loop.srv (readings ⟨0⟩ onTime) [.listen] = true := by
    simp [possibleBatch, Ready.registered, distinctSources]
  have hAccepts : dispatchReady loop.srv .listen (.listen [.accepted true true]) =
      some (watchConn (openConn loop.srv) 1) := by
    simp [dispatchReady, acceptConn, hStocked.next]
  have hAll := run_bare hRun hHead hBatch hAccepts hStocked.bare hStocked.running
  have hGroups : (watchConn (openConn loop.srv) 1).groups = loop.srv.groups := rfl
  have hFresh : (watchConn (openConn loop.srv) 1).conn 1 =
      { Connection.blank with events := some ⟨true, false, true, false, false⟩ } := by
    simp [watchConn, openConn, Server.modConn, Server.modIn, hStocked.next]
  have hListed : 1 ∈ (watchConn (openConn loop.srv) 1).conns := by
    simp [watchConn, openConn, Server.modConn, Server.modIn, hStocked.next]
  generalize watchConn (openConn loop.srv) 1 = asked at hAll hGroups hFresh hListed
  have hLarge : maxWbuf < groupListSize asked := by
    have hSum := @le_sum_of_le _ (fun g : Group => 24 + g.blob.length + 8 * countGroupMembers asked g.id) 65548
      loop.srv.groups fun g hg => by
        rw [hStocked.blobs g hg, zeroBlob.2]
        omega
    have hMax : maxWbuf < 128 * 65548 := by decide
    rw [hStocked.count] at hSum
    rw [groupListSize, hGroups]
    omega
  have hEmpty : (asked.conn 1).unsent = [] := by rw [hFresh]; rfl
  have hOpen : (asked.conn 1).wantClose = false := by rw [hFresh]; rfl
  have hAlloc : (calmFrame 0 ⟨0⟩).Allocates := ⟨fun _ => rfl, rfl⟩
  obtain ⟨hStill, hClose, _, hEvents⟩ := listGroups_blocked hListed hEmpty hOpen hAlloc [] hLarge
  refine ⟨_, hAll, hListed, by rw [hFresh]; rfl, hEmpty, hOpen, hAlloc, ?_, hStill, hClose, ?_⟩
  · intro hAnswered
    have hUsable := hAnswered.usable
    rw [hClose] at hUsable
    cases hUsable
  · rw [Connection.polled, hEvents, hFresh]
    rfl

end Stock

end Epimone.Daemon
