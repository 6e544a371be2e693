import Epimone.Daemon.Blobs
import Epimone.Daemon.Dispatches
import Epimone.Daemon.GroupList
import Epimone.Daemon.ReplyCodec

/-! # The store of blobs

The groups of the daemon as a store of blobs, written by the GROUP_NEW and
GROUP_SET frames of a run that are answered with success. The frames are listed
with the states that they meet, so that the answers can be looked at.
-/
set_option autoImplicit false

namespace Epimone.Daemon

open Transition

namespace Dispatch

variable (d : Dispatch)

/-- What is queued for the connection while the frame is handled. -/
def answer (ans : FrameAnswers) : Bytes :=
  ((handleFrame d.srv d.c ans d.type d.body).conn d.c).unsent.drop (d.srv.conn d.c).unsent.length

/-- The group and the blob of a GROUP_NEW or GROUP_SET that is answered with success. -/
def write (ans : FrameAnswers) : Option (Nat × Bytes) :=
  let gid := d.srv.nextGroupId + 1
  if d.type = EpiMsgType.groupNew.code then
    if d.answer ans = frameBytes EpiMsgType.groupId.code (u64Bytes gid) then
      some (gid, (d.body.drop 4).take (ofLittleEndian (d.body.take 4)))
    else none
  else if d.type = EpiMsgType.groupSet.code then
    if d.answer ans = frameBytes EpiMsgType.ok.code [] then
      some (ofLittleEndian (d.body.take 8), (d.body.drop 12).take (ofLittleEndian ((d.body.drop 8).take 4)))
    else none
  else none

end Dispatch

/-- The same answers of the outside, but the reply gets the memory it asks for. -/
def FrameAnswers.replying (ans : FrameAnswers) : FrameAnswers :=
  { ans with bufAlloc := fun _ => true, queueAlloc := true }

/-- What is stored for each group. -/
abbrev BlobStore := Nat → Option Bytes

def BlobStore.put (st : BlobStore) : Option (Nat × Bytes) → BlobStore
  | none => st
  | some (gid, blob) => Function.update st gid (some blob)

/-- The store after the writes; of several for one group the last one counts. -/
def BlobStore.after (st : BlobStore) (writes : List (Option (Nat × Bytes))) : BlobStore := writes.foldl BlobStore.put st

/-- The daemon has the blobs of the store, within its limits. -/
structure Stored (srv : Server) (st : BlobStore) : Prop where
  blob_eq : ∀ g ∈ srv.groups, st g.id = some g.blob
  blob_le : ∀ g ∈ srv.groups, g.blob.length ≤ epiGroupBlobMax
  count_le : srv.groups.length ≤ epiGroupMax
  id_le : ∀ g ∈ srv.groups, g.id ≤ srv.nextGroupId

section Requests

variable {srv : Server} {c : ConnPtr} {ans : FrameAnswers}

/-- The groups are as they were, or fewer. -/
def Fewer (srv srv' : Server) : Prop :=
  srv'.groups.Sublist srv.groups ∧ srv'.nextGroupId = srv.nextGroupId

theorem Fewer.refl (srv : Server) : Fewer srv srv := ⟨.refl _, rfl⟩

theorem Fewer.trans {mid srv' : Server} (h : Fewer srv mid) (h' : Fewer mid srv') : Fewer srv srv' :=
  ⟨h'.1.trans h.1, h'.2.trans h.2⟩

theorem fewer_perform {a : Act} (h : a.writesBlob = false) : Fewer srv (a.perform srv) := by
  refine ⟨groups_perform h, ?_⟩
  cases a with
  | newGroup | setBlob => cases h
  | queue => simp [Act.perform, enqueue_eq]
  | attach => simp [Act.perform, bindClient_eq]
  | relay => simp [Act.perform, enqueue_eq, readOutput, Server.modSess, Server.emit]
  | reap => simp [Act.perform, markReaped_eq]
  | close => simp [Act.perform, connClose_eq]
  | escalate => simp [Act.perform, epiSessionKill_eq, Server.modSess]
  | unlink => simp [Act.perform, unlinkMember_eq, unlinkSession, Server.modSess]
  | kill => simp [Act.perform, markKilled_eq, hidden, Server.modSess]
  | move => simp [Act.perform, moveSession_eq, regrouped, Server.modSess]
  | _ => rfl

theorem fewer_path {allowed : Act → Prop} {srv' : Server} (hQuiet : ∀ a, allowed a → a.writesBlob = false)
    (h : actions.Path allowed srv srv') : Fewer srv srv' :=
  Actions.Path.related Fewer.refl (fun _ _ _ => Fewer.trans) (fun _ a _ ha => fewer_perform (hQuiet a ha)) h

theorem Stored.fewer {srv' : Server} {st : BlobStore} (h : Stored srv st) (hFewer : Fewer srv srv') :
    Stored srv' st where
  blob_eq g hg := h.blob_eq g (hFewer.1.subset hg)
  blob_le g hg := h.blob_le g (hFewer.1.subset hg)
  count_le := hFewer.1.length_le.trans h.count_le
  id_le g hg := by
    rw [hFewer.2]
    exact h.id_le g (hFewer.1.subset hg)

theorem fewer_connQueueFrame (b : EpiBuf) (alloc : Bool) : Fewer srv (connQueueFrame srv c b alloc) := by
  rw [connQueueFrame_eq]
  exact .refl srv

theorem fewer_refuse (code : EpiErrCode) (msg : String) : Fewer srv (refuse srv c ans code msg) :=
  fewer_connQueueFrame _ _

theorem fewer_reply (b : EpiBuf) : Fewer srv (reply srv c ans b) := fewer_connQueueFrame _ _

theorem fewer_acknowledge : Fewer srv (acknowledge srv c ans) := fewer_connQueueFrame _ _

theorem fewer_detachClient (s : SessPtr) : Fewer srv (detachClient srv s) := by
  unfold detachClient
  split <;> exact .refl srv

theorem fewer_gcGroupIfEmpty (gid : Nat) : Fewer srv (gcGroupIfEmpty srv gid) := by
  rw [gcGroupIfEmpty_eq]
  exact ⟨survivors_sublist gid, rfl⟩

theorem fewer_noteLeft (s : SessPtr) (k : Session) : Fewer srv (noteLeft srv s k) := by
  rw [noteLeft_eq]
  exact .refl srv

theorem fewer_removeSession (s : SessPtr) : Fewer srv (removeSession srv s) := by
  unfold removeSession
  dsimp only
  split
  · exact .refl srv
  have hDropped : Fewer srv (dropClient srv s) := by
    unfold dropClient
    split <;> exact .refl srv
  refine hDropped.trans (Fewer.trans ?_ ((fewer_noteLeft s _).trans (fewer_gcGroupIfEmpty _)))
  split <;> exact .refl _

theorem fewer_withSession (r : EpiRd) (id : Nat) (malformed : String) {handle : SessPtr → Server}
    (h : ∀ s, Fewer srv (handle s)) : Fewer srv (withSession srv c ans r id malformed handle) := by
  unfold withSession
  split
  · exact fewer_refuse _ _
  split
  · exact fewer_refuse _ _
  · exact h _

theorem fewer_assignGroup (s : SessPtr) (gid : Nat) : Fewer srv (assignGroup srv s gid) := by
  rw [assignGroup_eq]
  exact .refl srv

section Handlers

variable (r : EpiRd)

theorem fewer_handleCreate : Fewer srv (handleCreate srv c ans r) := by
  unfold handleCreate
  split
  split
  split
  split
  split
  · exact fewer_refuse _ _
  rename_i cwd _ _ _ argv _ _ _ env _ _ _ execPath _ _ _
  rcases createSession_spec srv cwd argv env execPath ans.spawn with
    ⟨srv', hNone, _, hSame, _⟩ | ⟨pid, cwd', argv', env', exec', k, _, hSome⟩
  · rw [hNone]
    have hMid : Fewer srv srv' := ⟨by rw [hSame.groups], hSame.nextGroupId⟩
    exact hMid.trans (fewer_refuse _ _)
  · rw [hSome]
    have hMid : Fewer srv ((Act.create pid cwd' argv' env' exec' k).perform srv) := fewer_perform rfl
    dsimp only
    split
    · exact (hMid.trans (fewer_removeSession _)).trans (fewer_refuse _ _)
    · have hWatched : Fewer srv (watchPty ((Act.create pid cwd' argv' env' exec' k).perform srv) srv.nextSess) := hMid
      exact hWatched.trans (fewer_reply _)

theorem fewer_handleAttach : Fewer srv (handleAttach srv c ans r) := by
  unfold handleAttach
  split
  apply fewer_withSession
  intro s
  have hBound : ∀ mid, Fewer srv mid → Fewer srv (bindClient mid c ans s) := by
    intro mid hMid
    rw [bindClient_eq]
    exact hMid
  dsimp only
  split
  · exact hBound _ (fewer_detachClient s)
  · exact hBound _ (.refl srv)

theorem fewer_handleKill : Fewer srv (handleKill srv c ans r) := by
  unfold handleKill
  split
  apply fewer_withSession
  intro s
  have hHung : ∀ mid, Fewer srv mid → Fewer srv (epiSessionHangup mid s) := by
    intro mid hMid
    unfold epiSessionHangup
    dsimp only
    split
    · exact hMid
    · exact hMid
  dsimp only
  split
  · exact ((fewer_detachClient s).trans (fewer_removeSession s)).trans fewer_acknowledge
  · have hKilled : Fewer srv ((Act.kill s ans.clock).perform (epiSessionHangup (detachClient srv s) s)) :=
      (hHung _ (fewer_detachClient s)).trans (fewer_perform rfl)
    exact hKilled.trans fewer_acknowledge

theorem fewer_handleResize : Fewer srv (handleResize srv c ans r) := by
  unfold handleResize
  split
  split
  split
  apply fewer_withSession
  intro s
  refine Fewer.trans ?_ fewer_acknowledge
  unfold epiSessionResize
  split
  · exact .refl srv
  · exact .refl srv

theorem fewer_handleDetach : Fewer srv (handleDetach srv c ans r) := by
  unfold handleDetach
  split
  exact fewer_withSession _ _ _ fun s => (fewer_detachClient s).trans fewer_acknowledge

theorem fewer_handlePeek : Fewer srv (handlePeek srv c ans r) := by
  unfold handlePeek
  split
  split
  exact fewer_withSession _ _ _ fun s => fewer_reply _

theorem fewer_handleGroupAdd : Fewer srv (handleGroupAdd srv c ans r) := by
  unfold handleGroupAdd
  split
  split
  split
  · exact fewer_refuse _ _
  split
  · exact fewer_refuse _ _
  split
  · exact fewer_refuse _ _
  dsimp only
  split
  · exact ((fewer_assignGroup _ _).trans (fewer_gcGroupIfEmpty _)).trans fewer_acknowledge
  · exact (fewer_assignGroup _ _).trans fewer_acknowledge

theorem fewer_handleGroupRemove : Fewer srv (handleGroupRemove srv c ans r) := by
  unfold handleGroupRemove
  split
  exact fewer_withSession _ _ _ fun s =>
    ((fewer_assignGroup _ _).trans (fewer_gcGroupIfEmpty _)).trans fewer_acknowledge

/-- No other request than GROUP_NEW and GROUP_SET stores a blob. -/
theorem fewer_dispatchFrame {type : Nat} (body : Bytes) (hNew : type ≠ EpiMsgType.groupNew.code)
    (hSet : type ≠ EpiMsgType.groupSet.code) : Fewer srv (dispatchFrame srv c ans type body) := by
  unfold dispatchFrame
  dsimp only
  cases hType : EpiMsgType.ofRequest type with
  | none => exact fewer_refuse _ _
  | some request =>
    have hCode := EpiMsgType.code_ofRequest hType
    cases request with
    | create => exact fewer_handleCreate _
    | list => exact fewer_reply _
    | attach => exact fewer_handleAttach _
    | kill => exact fewer_handleKill _
    | resize => exact fewer_handleResize _
    | detach => exact fewer_handleDetach _
    | peek => exact fewer_handlePeek _
    | groupNew => exact absurd hCode.symm hNew
    | groupSet => exact absurd hCode.symm hSet
    | groupAdd => exact fewer_handleGroupAdd _
    | groupRemove => exact fewer_handleGroupRemove _
    | groupList => exact fewer_reply _
    | _ => exact fewer_refuse _ _

end Handlers

end Requests

section Decided

variable {srv : Server} {c : ConnPtr}

theorem unsent_reply {mid : Server} {ans : FrameAnswers} {b : EpiBuf} {kind : EpiMsgType} {body : Bytes}
    (hSame : (mid.conn c).unsent = (srv.conn c).unsent) (hAlloc : ans.Allocates)
    (hBody : b.Opened ans.bufAlloc kind body) :
    ((reply mid c ans b).conn c).unsent.drop (srv.conn c).unsent.length = frameBytes kind.code body := by
  obtain ⟨es, hReply⟩ := @reply_eq mid c ans b kind body hAlloc hBody
  have hGrows : (mid.conn c).growthFails (frameBytes kind.code body).length true = false := Bool.and_false _
  rw [hReply]
  change (Function.update mid.conn c _ c).unsent.drop _ = _
  rw [Function.update_self, connQueue_unsent hGrows, hSame, List.drop_left]

theorem allocates_replying (ans : FrameAnswers) : ans.replying.Allocates := ⟨fun _ => rfl, rfl⟩

theorem unsent_refuse (mid : Server) (ans : FrameAnswers) (code : EpiErrCode) (msg : String)
    (hSame : (mid.conn c).unsent = (srv.conn c).unsent) :
    ∃ body, ((refuse mid c ans.replying code msg).conn c).unsent.drop (srv.conn c).unsent.length =
      frameBytes EpiMsgType.error.code body :=
  ⟨_, unsent_reply hSame (allocates_replying ans)
    ((opened_epiMsgStart .error).put fun bytes hb => (List.append_assoc bytes _ _) ▸ (hb.putU32 _).putStr _)⟩

theorem frameBytes_ne {kind kind' : EpiMsgType} (h : kind ≠ kind') (body body' : Bytes) :
    frameBytes kind.code body ≠ frameBytes kind'.code body' := by
  intro hSame
  exact h (EpiMsgType.code_injective ( type_of_frameBytes_prefix kind.code_lt kind'.code_lt
    (hSame.trans (List.append_nil _).symm)))

theorem groupSet_decided (srv : Server) (c : ConnPtr) (ans : FrameAnswers) (body : Bytes) :
    (∃ code msg, handleGroupSet srv c ans (epiRdInit body) = refuse srv c ans code msg ∧
      handleGroupSet srv c ans.replying (epiRdInit body) = refuse srv c ans.replying code msg) ∨
      ∃ gid blob, gid = ofLittleEndian (body.take 8) ∧
        blob = (body.drop 12).take (ofLittleEndian ((body.drop 8).take 4)) ∧ blob.length ≤ epiGroupBlobMax ∧
        handleGroupSet srv c ans (epiRdInit body) = acknowledge (setGroupBlob srv gid blob) c ans ∧
        handleGroupSet srv c ans.replying (epiRdInit body) =
          acknowledge (setGroupBlob srv gid blob) c ans.replying := by
  have hEq : ∀ ans' : FrameAnswers, ans'.rdAlloc = ans.rdAlloc → ans'.blobAlloc = ans.blobAlloc →
      handleGroupSet srv c ans' (epiRdInit body) =
        if (epiRdBlob ans.rdAlloc (epiRdU64 (epiRdInit body)).2).2.err then
          refuse srv c ans' .protocol "malformed GROUP_SET"
        else if epiGroupBlobMax < ((epiRdBlob ans.rdAlloc (epiRdU64 (epiRdInit body)).2).1.getD []).length then
          refuse srv c ans' .tooLarge "blob exceeds maximum size"
        else
          (findGroup srv (epiRdU64 (epiRdInit body)).1).elim (refuse srv c ans' .notFound "no such group") fun _ =>
            if (epiRdBlob ans.rdAlloc (epiRdU64 (epiRdInit body)).2).1.getD [] ≠ [] ∧ !ans.blobAlloc then
              refuse srv c ans' .internal "out of memory"
            else acknowledge (setGroupBlob srv (epiRdU64 (epiRdInit body)).1
              ((epiRdBlob ans.rdAlloc (epiRdU64 (epiRdInit body)).2).1.getD [])) c ans' := by
    intro ans' hRead hBlob
    rw [← hRead, ← hBlob]
    unfold handleGroupSet
    dsimp only
    cases findGroup srv (epiRdU64 (epiRdInit body)).1 <;> rfl
  rw [hEq ans rfl rfl, hEq ans.replying rfl rfl]
  by_cases hErr : (epiRdBlob ans.rdAlloc (epiRdU64 (epiRdInit body)).2).2.err = true
  · rw [if_pos hErr, if_pos hErr]
    exact Or.inl ⟨_, _, rfl, rfl⟩
  rw [if_neg hErr, if_neg hErr]
  obtain ⟨hErr', hBlob⟩ := epiRdBlob_ok (Bool.eq_false_iff.mpr hErr)
  obtain ⟨_, hGid⟩ := epiRdU64_ok hErr'
  generalize findGroup srv (epiRdU64 (epiRdInit body)).1 = found
  rw [hBlob, hGid]
  split
  · exact Or.inl ⟨_, _, rfl, rfl⟩
  rename_i hSize
  cases found with
  | none =>
    rw [Option.elim_none, Option.elim_none]
    exact Or.inl ⟨_, _, rfl, rfl⟩
  | some g =>
    rw [Option.elim_some, Option.elim_some]
    split
    · exact Or.inl ⟨_, _, rfl, rfl⟩
    · exact Or.inr ⟨_, _, rfl, rfl, Nat.not_lt.mp hSize, rfl, rfl⟩

/-- GROUP_NEW is refused, or there is a group more with the blob of the wire, whatever becomes of the reply. -/
theorem groupNew_decided (srv : Server) (c : ConnPtr) (ans : FrameAnswers) (body : Bytes) :
    (∃ code msg, handleGroupNew srv c ans (epiRdInit body) = refuse srv c ans code msg ∧
      handleGroupNew srv c ans.replying (epiRdInit body) = refuse srv c ans.replying code msg) ∨
      ∃ blob, blob = (body.drop 4).take (ofLittleEndian (body.take 4)) ∧ blob.length ≤ epiGroupBlobMax ∧
        countGroups srv < epiGroupMax ∧
        handleGroupNew srv c ans (epiRdInit body) = reply (linkGroup srv ⟨0, blob, ans.now⟩) c ans
          (epiBufPutU64 ans.bufAlloc (epiMsgStart ans.bufAlloc .groupId) (srv.nextGroupId + 1)) ∧
        handleGroupNew srv c ans.replying (epiRdInit body) =
          reply (linkGroup srv ⟨0, blob, ans.now⟩) c ans.replying
            (epiBufPutU64 ans.replying.bufAlloc (epiMsgStart ans.replying.bufAlloc .groupId)
              (srv.nextGroupId + 1)) := by
  generalize hRead : (if (epiRdInit body).more then epiRdBlob ans.rdAlloc (epiRdInit body)
    else (none, epiRdInit body)) = read
  have hEq : ∀ ans' : FrameAnswers, ans'.rdAlloc = ans.rdAlloc → ans'.blobAlloc = ans.blobAlloc →
      ans'.groupAlloc = ans.groupAlloc → ans'.now = ans.now →
      handleGroupNew srv c ans' (epiRdInit body) =
        if read.2.err then refuse srv c ans' .protocol "malformed GROUP_NEW"
        else if epiGroupBlobMax < (read.1.getD []).length then
          refuse srv c ans' .tooLarge "blob exceeds maximum size"
        else if epiGroupMax ≤ countGroups srv then refuse srv c ans' .tooLarge "too many groups"
        else
          (epiGroupNew ans (read.1.getD [])).elim (refuse srv c ans' .internal "out of memory") fun g =>
            reply (linkGroup srv g) c ans'
              (epiBufPutU64 ans'.bufAlloc (epiMsgStart ans'.bufAlloc .groupId) (srv.nextGroupId + 1)) := by
    intro ans' hAlloc hBlob hGroup hNow
    have hMade : epiGroupNew ans' (read.1.getD []) = epiGroupNew ans (read.1.getD []) := by
      unfold epiGroupNew
      rw [hBlob, hGroup, hNow]
    rw [← hMade, ← hRead, ← hAlloc]
    unfold handleGroupNew
    dsimp only
    cases epiGroupNew ans' ((if (epiRdInit body).more then epiRdBlob ans'.rdAlloc (epiRdInit body)
      else (none, epiRdInit body)).1.getD []) <;> rfl
  rw [hEq ans rfl rfl rfl rfl, hEq ans.replying rfl rfl rfl rfl]
  by_cases hErr : read.2.err = true
  · rw [if_pos hErr, if_pos hErr]
    exact Or.inl ⟨_, _, rfl, rfl⟩
  rw [if_neg hErr, if_neg hErr]
  have hBlob : read.1.getD [] = (body.drop 4).take (ofLittleEndian (body.take 4)) := by
    rw [← hRead] at hErr ⊢
    by_cases hMore : (epiRdInit body).more = true
    · rw [if_pos hMore] at hErr ⊢
      exact (epiRdBlob_ok (Bool.eq_false_iff.mpr hErr)).2
    · rw [if_neg hMore]
      have hNone : body = [] := by simpa [EpiRd.more, epiRdInit, List.length_pos_iff] using hMore
      rw [hNone]
      rfl
  rw [hBlob]
  split
  · exact Or.inl ⟨_, _, rfl, rfl⟩
  rename_i hSize
  split
  · exact Or.inl ⟨_, _, rfl, rfl⟩
  rename_i hRoom
  cases hMade : epiGroupNew ans ((body.drop 4).take (ofLittleEndian (body.take 4))) with
  | none =>
    rw [Option.elim_none, Option.elim_none]
    exact Or.inl ⟨_, _, rfl, rfl⟩
  | some g =>
    rw [Option.elim_some, Option.elim_some]
    unfold epiGroupNew at hMade
    split at hMade
    · cases hMade
    split at hMade
    · cases hMade
    · cases hMade
      exact Or.inr ⟨_, rfl, Nat.not_lt.mp hSize, Nat.not_le.mp hRoom, rfl, rfl⟩

end Decided

section Writes

variable {srv : Server} {st : BlobStore}

@[simp] theorem BlobStore.after_nil (st : BlobStore) : st.after [] = st := rfl

@[simp] theorem BlobStore.after_append (st : BlobStore) (writes more : List (Option (Nat × Bytes))) :
    st.after (writes ++ more) = (st.after writes).after more := List.foldl_append

theorem Stored.set {gid : Nat} {blob : Bytes} (h : Stored srv st) (hSize : blob.length ≤ epiGroupBlobMax) :
    Stored (setGroupBlob srv gid blob) (st.put (some (gid, blob))) := by
  have hEach : ∀ g ∈ (setGroupBlob srv gid blob).groups, ∃ g' ∈ srv.groups, g.id = g'.id ∧
      g.blob = if g'.id = gid then blob else g'.blob := by
    intro g hg
    obtain ⟨g', hOld, rfl⟩ := List.mem_map.mp hg
    refine ⟨g', hOld, ?_⟩
    split
    · exact ⟨rfl, rfl⟩
    · exact ⟨rfl, rfl⟩
  constructor
  · intro g hg
    obtain ⟨g', hOld, hId, hBlob⟩ := hEach g hg
    rw [hId, hBlob, BlobStore.put]
    split
    · rename_i hSame
      rw [hSame, Function.update_self]
    · rename_i hOther
      rw [Function.update_of_ne hOther]
      exact h.blob_eq g' hOld
  · intro g hg
    obtain ⟨g', hOld, _, hBlob⟩ := hEach g hg
    rw [hBlob]
    split
    · exact hSize
    · exact h.blob_le g' hOld
  · change (srv.groups.map _).length ≤ _
    rw [List.length_map]
    exact h.count_le
  · intro g hg
    obtain ⟨g', hOld, hId, _⟩ := hEach g hg
    rw [hId]
    exact h.id_le g' hOld

theorem Stored.link {blob : Bytes} (h : Stored srv st) (hSize : blob.length ≤ epiGroupBlobMax)
    (hRoom : countGroups srv < epiGroupMax) (now : Nat) :
    Stored (linkGroup srv ⟨0, blob, now⟩) (st.put (some (srv.nextGroupId + 1, blob))) := by
  constructor
  · intro g hg
    rcases List.mem_cons.mp hg with rfl | hOld
    · exact Function.update_self _ _ _
    · have hLess := h.id_le g hOld
      have hNe : g.id ≠ srv.nextGroupId + 1 := by omega
      rw [BlobStore.put, Function.update_of_ne hNe]
      exact h.blob_eq g hOld
  · intro g hg
    rcases List.mem_cons.mp hg with rfl | hOld
    · exact hSize
    · exact h.blob_le g hOld
  · rw [countGroups_eq] at hRoom
    exact hRoom
  · intro g hg
    rcases List.mem_cons.mp hg with rfl | hOld
    · exact Nat.le_refl _
    · exact (h.id_le g hOld).trans (Nat.le_succ _)

end Writes

section Frames

variable {st : BlobStore} (d : Dispatch)

/-- The state in which the frame is dispatched. -/
def Dispatch.noted : Server := d.srv.emit (.frame d.c d.type d.body (d.srv.conn d.c).unsent.length)

theorem Stored.noted {d : Dispatch} (h : Stored d.srv st) : Stored d.noted st := h.fewer ⟨.refl _, rfl⟩

theorem handleFrame_eq (ans : FrameAnswers) :
    handleFrame d.srv d.c ans d.type d.body = dispatchFrame d.noted d.c ans d.type d.body := rfl

theorem dispatch_groupNew (h : d.type = EpiMsgType.groupNew.code) (ans : FrameAnswers) :
    handleFrame d.srv d.c ans d.type d.body = handleGroupNew d.noted d.c ans (epiRdInit d.body) := by
  rw [handleFrame_eq, h]
  rfl

theorem dispatch_groupSet (h : d.type = EpiMsgType.groupSet.code) (ans : FrameAnswers) :
    handleFrame d.srv d.c ans d.type d.body = handleGroupSet d.noted d.c ans (epiRdInit d.body) := by
  rw [handleFrame_eq, h]
  rfl

variable {d}

theorem answer_refused {code : EpiErrCode} {msg : String}
    (h : handleFrame d.srv d.c d.ans.replying d.type d.body = refuse d.noted d.c d.ans.replying code msg) :
    ∃ body, d.answer d.ans.replying = frameBytes EpiMsgType.error.code body := by
  rw [Dispatch.answer, h]
  exact unsent_refuse d.noted d.ans code msg rfl

theorem answer_replied {mid : Server} {b : EpiBuf} {kind : EpiMsgType} {body : Bytes}
    (h : handleFrame d.srv d.c d.ans.replying d.type d.body = reply mid d.c d.ans.replying b)
    (hSame : (mid.conn d.c).unsent = (d.srv.conn d.c).unsent) (hBody : b.Opened d.ans.replying.bufAlloc kind body) :
    d.answer d.ans.replying = frameBytes kind.code body := by
  rw [Dispatch.answer, h]
  exact unsent_reply hSame (allocates_replying d.ans) hBody

theorem Stored.groupNew (h : Stored d.srv st) (hType : d.type = EpiMsgType.groupNew.code) :
    Stored (handleFrame d.srv d.c d.ans d.type d.body) (st.put (d.write d.ans.replying)) := by
  have hStored := h.noted
  unfold Dispatch.write
  dsimp only
  rw [if_pos hType]
  rcases groupNew_decided d.noted d.c d.ans d.body with ⟨code, msg, hHandled, hReplied⟩ |
    ⟨blob, hBlob, hSize, hRoom, hHandled, hReplied⟩
  · rw [← dispatch_groupNew d hType] at hHandled hReplied
    obtain ⟨told, hAnswer⟩ := answer_refused hReplied
    rw [hHandled, hAnswer, if_neg (frameBytes_ne (by decide) _ _)]
    exact hStored.fewer (fewer_refuse _ _)
  · rw [← dispatch_groupNew d hType] at hHandled hReplied
    have hAnswer := answer_replied hReplied rfl
      ((opened_epiMsgStart .groupId).put fun bytes hb => hb.putU64 (d.noted.nextGroupId + 1))
    have hNext : d.noted.nextGroupId = d.srv.nextGroupId := rfl
    rw [hHandled, hAnswer, List.nil_append, hNext, if_pos rfl, ← hBlob]
    exact (hStored.link hSize hRoom d.ans.now).fewer (fewer_reply _)

theorem Stored.groupSet (h : Stored d.srv st) (hType : d.type = EpiMsgType.groupSet.code) :
    Stored (handleFrame d.srv d.c d.ans d.type d.body) (st.put (d.write d.ans.replying)) := by
  have hStored := h.noted
  have hNot : d.type ≠ EpiMsgType.groupNew.code := by
    rw [hType]
    decide
  unfold Dispatch.write
  dsimp only
  rw [if_neg hNot, if_pos hType]
  rcases groupSet_decided d.noted d.c d.ans d.body with ⟨code, msg, hHandled, hReplied⟩ |
    ⟨gid, blob, hGid, hBlob, hSize, hHandled, hReplied⟩
  · rw [← dispatch_groupSet d hType] at hHandled hReplied
    obtain ⟨told, hAnswer⟩ := answer_refused hReplied
    rw [hHandled, hAnswer, if_neg (frameBytes_ne (by decide) _ _)]
    exact hStored.fewer (fewer_refuse _ _)
  · rw [← dispatch_groupSet d hType] at hHandled hReplied
    have hAnswer := answer_replied (b := epiMsgStart d.ans.replying.bufAlloc .ok) hReplied rfl (opened_epiMsgStart .ok)
    rw [hHandled, hAnswer, if_pos rfl, ← hGid, ← hBlob]
    exact (hStored.set hSize).fewer fewer_acknowledge

/-- Handling a frame is what its write says, for the answer that a reply with enough memory gives. -/
theorem Stored.frame (h : Stored d.srv st) :
    Stored (handleFrame d.srv d.c d.ans d.type d.body) (st.put (d.write d.ans.replying)) := by
  by_cases hNew : d.type = EpiMsgType.groupNew.code
  · exact h.groupNew hNew
  by_cases hSet : d.type = EpiMsgType.groupSet.code
  · exact h.groupSet hSet
  · have hNone : d.write d.ans.replying = none := by
      unfold Dispatch.write
      dsimp only
      rw [if_neg hNew, if_neg hSet]
    rw [hNone]
    exact h.noted.fewer (fewer_dispatchFrame d.body hNew hSet)

end Frames

section Runs

def answered (log : List Dispatch) : List (Option (Nat × Bytes)) := log.map fun d => d.write d.ans

/-- The requests that are carried out: a reply with enough memory would report success. -/
def carriedOut (log : List Dispatch) : List (Option (Nat × Bytes)) := log.map fun d => d.write d.ans.replying

def BlobStore.empty : BlobStore := fun _ => none

/-- Between the two states the store has taken what the frames carried out, one by one. -/
structure Serves (srv : Server) (log : List Dispatch) (srv' : Server) : Prop where
  met : ∀ st, Stored srv st → ∀ before d after, log = before ++ d :: after →
    Stored d.srv (st.after (carriedOut before))
  left : ∀ st, Stored srv st → Stored srv' (st.after (carriedOut log))

theorem carriedOut_append (log log' : List Dispatch) :
    carriedOut (log ++ log') = carriedOut log ++ carriedOut log' := List.map_append

theorem unasked_quiet {a : Act} (h : a.unasked = true) : a.writesBlob = false := by
  cases a <;> first | rfl | cases h

theorem frameWise_serves : FrameWise Serves where
  unasked hPath := by
    constructor
    · intro st _ before d after hSplit
      simp at hSplit
    · intro st hStored
      exact hStored.fewer (fewer_path (fun _ => unasked_quiet) hPath)
  trans {srv mid srv' log log'} h h' := by
    constructor
    · intro st hStored before d after hSplit
      rcases List.append_eq_append_iff.mp hSplit with ⟨more, rfl, hRest⟩ | ⟨more, hFirst, hRest⟩
      · have hMet := h'.met _ (h.left st hStored) more d after hRest
        rwa [← BlobStore.after_append, ← carriedOut_append] at hMet
      · cases more with
        | nil =>
          have hMet := h'.met _ (h.left st hStored) [] d after hRest.symm
          rwa [hFirst, List.append_nil] at hMet
        | cons e more =>
          cases hRest
          exact h.met st hStored before d more hFirst
    · intro st hStored
      rw [carriedOut_append, BlobStore.after_append]
      exact h'.left _ (h.left st hStored)
  frame d _ _ _ := by
    constructor
    · intro st hStored before e after hSplit
      obtain ⟨rfl, hRest⟩ := List.append_eq_singleton_iff.mp hSplit.symm |>.resolve_right (by simp)
      cases hRest
      exact hStored
    · intro st hStored
      exact hStored.frame

theorem stored_initial (instanceId : Nat) : Stored (Server.initial instanceId) .empty where
  blob_eq _ hg := nomatch hg
  blob_le _ hg := nomatch hg
  count_le := Nat.zero_le _
  id_le _ hg := nomatch hg

end Runs

section Answers

variable {d : Dispatch}

/-- A reply is queued as a whole or not at all. -/
theorem answer_whole {mid : Server} {ans : FrameAnswers} {b : EpiBuf} {kind : EpiMsgType} {body : Bytes}
    (h : handleFrame d.srv d.c ans d.type d.body = reply mid d.c ans b)
    (hSame : (mid.conn d.c).unsent = (d.srv.conn d.c).unsent) (hBody : b.Opened ans.bufAlloc kind body) :
    d.answer ans = [] ∨ d.answer ans = frameBytes kind.code body := by
  have hUnsent : d.answer ans = (queueFrame (mid.conn d.c) (epiMsgEnd b) ans.queueAlloc).unsent.drop
      (mid.conn d.c).unsent.length := by
    rw [Dispatch.answer, h, reply, connQueueFrame_eq, hSame]
    dsimp only
    rw [Function.update_self]
  obtain ⟨sent, hSent, hWhole, _⟩ := queueFrame_unsent (mid.conn d.c) (epiMsgEnd b) ans.queueAlloc
  rw [hUnsent, hSent, List.drop_left]
  rcases hWhole with rfl | ⟨hOom, rfl⟩
  · exact Or.inl rfl
  · exact Or.inr (hBody.sealed.data_eq hOom)

theorem answer_not_success {ans : FrameAnswers} {code : EpiErrCode} {msg : String} {kind : EpiMsgType}
    (h : handleFrame d.srv d.c ans d.type d.body = refuse d.noted d.c ans code msg) (hKind : kind ≠ .error)
    (body : Bytes) : d.answer ans ≠ frameBytes kind.code body := by
  have hBody : ∃ body, (epiBufPutStr ans.bufAlloc (epiBufPutU32 ans.bufAlloc (epiMsgStart ans.bufAlloc .error)
      code.code) (ascii msg)).Opened ans.bufAlloc .error body :=
    ⟨_, (opened_epiMsgStart .error).put fun bytes hb => (List.append_assoc bytes _ _) ▸ (hb.putU32 _).putStr _⟩
  obtain ⟨told, hTold⟩ := hBody
  rcases answer_whole h rfl hTold with hNone | hError
  · rw [hNone]
    exact (frameBytes_ne_nil _ _).symm
  · rw [hError]
    exact frameBytes_ne hKind.symm _ _

theorem write_replying {gid : Nat} {blob : Bytes} (h : d.write d.ans = some (gid, blob)) :
    d.write d.ans.replying = some (gid, blob) := by
  unfold Dispatch.write at h ⊢
  dsimp only at h ⊢
  by_cases hNew : d.type = EpiMsgType.groupNew.code
  · rw [if_pos hNew] at h ⊢
    rcases groupNew_decided d.noted d.c d.ans d.body with ⟨code, msg, hHandled, _⟩ | ⟨_, _, _, _, _, hReplied⟩
    · rw [← dispatch_groupNew d hNew] at hHandled
      rw [if_neg (answer_not_success hHandled (by decide) _)] at h
      cases h
    · rw [← dispatch_groupNew d hNew] at hReplied
      have hAnswer := answer_replied hReplied rfl
        ((opened_epiMsgStart .groupId).put fun bytes hb => hb.putU64 (d.noted.nextGroupId + 1))
      have hNext : d.noted.nextGroupId = d.srv.nextGroupId := rfl
      rw [hAnswer, List.nil_append, hNext, if_pos rfl]
      split at h
      · exact h
      · cases h
  · rw [if_neg hNew] at h ⊢
    by_cases hSet : d.type = EpiMsgType.groupSet.code
    · rw [if_pos hSet] at h ⊢
      rcases groupSet_decided d.noted d.c d.ans d.body with ⟨code, msg, hHandled, _⟩ | ⟨_, _, _, _, _, _, hReplied⟩
      · rw [← dispatch_groupSet d hSet] at hHandled
        rw [if_neg (answer_not_success hHandled (by decide) _)] at h
        cases h
      · rw [← dispatch_groupSet d hSet] at hReplied
        have hAnswer := answer_replied (b := epiMsgStart d.ans.replying.bufAlloc .ok) hReplied rfl
          (opened_epiMsgStart .ok)
        rw [hAnswer, if_pos rfl]
        split at h
        · exact h
        · cases h
    · rw [if_neg hSet] at h
      cases h

theorem groups_of_refused (hType : d.type = EpiMsgType.groupSet.code) (h : d.write d.ans.replying = none) :
    (handleFrame d.srv d.c d.ans d.type d.body).groups = d.srv.groups := by
  have hNot : d.type ≠ EpiMsgType.groupNew.code := by
    rw [hType]
    decide
  unfold Dispatch.write at h
  dsimp only at h
  rw [if_neg hNot, if_pos hType] at h
  rcases groupSet_decided d.noted d.c d.ans d.body with ⟨code, msg, hHandled, _⟩ | ⟨_, _, _, _, _, _, hReplied⟩
  · rw [← dispatch_groupSet d hType] at hHandled
    rw [hHandled, refuse, sendError, connQueueFrame_eq]
    rfl
  · rw [← dispatch_groupSet d hType] at hReplied
    have hAnswer := answer_replied (b := epiMsgStart d.ans.replying.bufAlloc .ok) hReplied rfl (opened_epiMsgStart .ok)
    rw [hAnswer, if_pos rfl] at h
    cases h

theorem answer_groupList (hType : d.type = EpiMsgType.groupList.code) (hAlloc : d.ans.Allocates) :
    d.answer d.ans = frameBytes EpiMsgType.groupListReply.code (groupListBody d.srv) := by
  obtain ⟨b, hReply, hBody⟩ := opened_handleGroupList d.noted d.c d.ans
  have hHandled : handleFrame d.srv d.c d.ans d.type d.body = reply d.noted d.c d.ans b := by
    rw [handleFrame_eq, hType, ← hReply]
    rfl
  rw [Dispatch.answer, hHandled]
  exact unsent_reply rfl hAlloc hBody

theorem Stored.untouched {st : BlobStore} (h : Stored d.srv st) {g g' : Group} (hg : g ∈ d.srv.groups)
    (hg' : g' ∈ (handleFrame d.srv d.c d.ans d.type d.body).groups) (hSame : g'.id = g.id) :
    g'.blob = g.blob ∨ d.write d.ans.replying = some (g.id, g'.blob) := by
  have hOld := h.blob_eq g hg
  have hNew := h.frame.blob_eq g' hg'
  rw [hSame] at hNew
  cases hWrite : d.write d.ans.replying with
  | none =>
    rw [hWrite, BlobStore.put, hOld] at hNew
    exact Or.inl (Option.some.inj hNew).symm
  | some written =>
    obtain ⟨gid, blob⟩ := written
    rw [hWrite, BlobStore.put] at hNew
    by_cases hThis : g.id = gid
    · rw [← hThis, Function.update_self] at hNew
      rw [← hThis, Option.some.inj hNew]
      exact Or.inr rfl
    · rw [Function.update_of_ne hThis, hOld] at hNew
      exact Or.inl (Option.some.inj hNew).symm

theorem answered_eq_carriedOut {log : List Dispatch} (h : ∀ d ∈ log, d.ans.Allocates) :
    answered log = carriedOut log := by
  apply List.map_congr_left
  intro d hd
  obtain ⟨hBuf, hQueue⟩ := h d hd
  have hBufs : d.ans.bufAlloc = fun _ => true := funext hBuf
  have hSame : d.ans.replying = d.ans := by rw [FrameAnswers.replying, ← hBufs, ← hQueue]
  rw [hSame]

end Answers

/-- In every run a group has the blob that was last carried out for it, and GROUP_LIST reports it. -/
theorem blobs_reported {instanceId : Nat} {inputs : List Input} {loop : Loop}
    (h : (machine instanceId).run inputs = some loop) {alloc : Nat → Bool} (hAlloc : ∀ n, alloc n = true) :
    Stored loop.srv (BlobStore.empty.after (carriedOut (dispatches (machine instanceId).init inputs))) ∧
      (∀ before d after, dispatches (machine instanceId).init inputs = before ++ d :: after →
        Stored d.srv (BlobStore.empty.after (carriedOut before)) ∧
          (d.type = EpiMsgType.groupList.code → d.ans.Allocates →
            d.answer d.ans = frameBytes EpiMsgType.groupListReply.code (groupListBody d.srv) ∧
              (4 + (groupListBody d.srv).length < 2 ^ 32 →
                Yields (Decoder.groupsReply alloc) (groupListBody d.srv)
                  (d.srv.instanceId % 2 ^ 64, d.srv.groups.map (shownGroup d.srv)))) ∧
          (∀ written, d.write d.ans = some written → d.write d.ans.replying = some written) ∧
          (d.type = EpiMsgType.groupSet.code → d.write d.ans.replying = none →
            (handleFrame d.srv d.c d.ans d.type d.body).groups = d.srv.groups) ∧
          ∀ g ∈ d.srv.groups, ∀ g' ∈ (handleFrame d.srv d.c d.ans d.type d.body).groups, g'.id = g.id →
            g'.blob = g.blob ∨ d.write d.ans.replying = some (g.id, g'.blob)) ∧
      ((∀ d ∈ dispatches (machine instanceId).init inputs, d.ans.Allocates) →
        answered (dispatches (machine instanceId).init inputs) =
          carriedOut (dispatches (machine instanceId).init inputs)) := by
  have hServes := frameWise_serves.run h
  refine ⟨hServes.left _ (stored_initial instanceId), ?_, answered_eq_carriedOut⟩
  intro before d after hSplit
  have hMet := hServes.met _ (stored_initial instanceId) before d after hSplit
  refine ⟨hMet, ?_, fun _ => write_replying, groups_of_refused, fun g hg g' => hMet.untouched hg⟩
  intro hType hAnswers
  exact ⟨answer_groupList hType hAnswers, yields_groupList hAlloc⟩

/-- GROUP_SET with a blob that has zeros in it, and GROUP_LIST. -/
def storingRequests : Bytes :=
  frameBytes EpiMsgType.groupSet.code (u64Bytes 1 ++ blobBytes [0, 65, 0]) ++ frameBytes EpiMsgType.groupList.code []

theorem storingRequests_bounded : storingRequests.length ≤ ptyReadChunk := by decide +kernel

def storing : List Input :=
  populating ++ batchOf (.conn 0 readable) (.conn (calmConn [] storingRequests storingRequests_bounded 0 ⟨0⟩)) ⟨0⟩

theorem allocates_of_storing {d : Dispatch} (h : d ∈ dispatches (machine 7).init storing) : d.ans.Allocates := by
  obtain ⟨ans, turn, hIn, hAns⟩ := ans_of_mem_dispatches _ _ h
  rw [hAns]
  simp only [storing, populating, accepting, batchOf, List.mem_append, List.mem_cons, List.not_mem_nil, or_false,
    reduceCtorEq, false_or, Input.dispatch.injEq, Answers.conn.injEq] at hIn
  rcases hIn with rfl | rfl
  · exact ⟨fun _ => rfl, rfl⟩
  · exact ⟨fun _ => rfl, rfl⟩

def listsStored (d : Dispatch) : Bool :=
  decide (d.type = EpiMsgType.groupList.code) && decide (4 + (groupListBody d.srv).length < 2 ^ 32) &&
    d.srv.instanceId == 7 &&
    decide (d.srv.groups.map (shownGroup d.srv) = [⟨2, 0, [], [3]⟩, ⟨1, 0, [0, 65, 0], [1]⟩])

theorem blobs_reported_storing : ∃ loop before d, (machine 7).run storing = some loop ∧
    dispatches (machine 7).init storing = before ++ [d] ∧
    d.answer d.ans = frameBytes EpiMsgType.groupListReply.code (groupListBody d.srv) ∧
    Yields (Decoder.groupsReply fun _ => true) (groupListBody d.srv)
      (7, [⟨2, 0, [], [3]⟩, ⟨1, 0, [0, 65, 0], [1]⟩]) ∧
    Stored loop.srv (BlobStore.empty.after (answered (dispatches (machine 7).init storing))) := by
  have hRun : ((machine 7).run storing).isSome = true := by decide +kernel
  have hLast : (dispatches (machine 7).init storing).getLast?.any listsStored = true := by decide +kernel
  obtain ⟨loop, hLoop⟩ := Option.isSome_iff_exists.mp hRun
  obtain ⟨d, hEnd, hLists⟩ := (Option.any_eq_true _ _).mp hLast
  obtain ⟨before, hSplit⟩ := List.getLast?_eq_some_iff.mp hEnd
  simp only [listsStored, Bool.and_eq_true, decide_eq_true_eq, beq_iff_eq] at hLists
  obtain ⟨⟨⟨hType, hFits⟩, hInstance⟩, hShown⟩ := hLists
  obtain ⟨hStored, hEach, hAnswered⟩ := blobs_reported hLoop (fun _ => rfl : ∀ n, (fun _ : Nat => true) n = true)
  have hAllocates : d.ans.Allocates := allocates_of_storing (by rw [hSplit]; exact List.mem_concat_self)
  obtain ⟨_, hReports, _⟩ := hEach before d [] hSplit
  obtain ⟨hReply, hYields⟩ := hReports hType hAllocates
  have hTable := hYields hFits
  rw [hInstance, hShown] at hTable
  rw [← hAnswered fun d hd => allocates_of_storing hd] at hStored
  exact ⟨loop, before, d, hLoop, hSplit, hReply, hTable, hStored⟩

/-- A client that makes a group without a blob. -/
def founding : List Input :=
  accepting ++ batchOf (.conn 0 readable) (.conn (calmConn [] [4, 0, 0, 0, 8, 0, 0, 0] (by decide) 0 ⟨0⟩)) ⟨0⟩

/-- The same client stores a blob, and there is no memory for the reply. -/
def unanswered : List Input :=
  founding ++ batchOf (.conn 0 readable)
    (.conn { calmConn [] [17, 0, 0, 0, 9, 0, 0, 0, 1, 0, 0, 0, 0, 0, 0, 0, 1, 0, 0, 0, 65] (by decide) 0 ⟨0⟩ with
      frames := fun _ => { calmFrame 0 ⟨0⟩ with bufAlloc := fun _ => false } }) ⟨0⟩

/-- The blob is stored all the same, but the last request that was answered with success has another. -/
theorem blob_unanswered : ∃ loop, (machine 7).run unanswered = some loop ∧
    loop.srv.groups.map (fun g => (g.id, g.blob)) = [(1, [65])] ∧
    BlobStore.empty.after (answered (dispatches (machine 7).init unanswered)) 1 = some [] := by
  have hRun : ((machine 7).run unanswered).any fun loop =>
      loop.srv.groups.map (fun g => (g.id, g.blob)) == [(1, [65])] &&
        BlobStore.empty.after (answered (dispatches (machine 7).init unanswered)) 1 == some [] := by decide +kernel
  obtain ⟨loop, hLoop, hHere⟩ := (machine 7).exists_of_run_any hRun
  rw [Bool.and_eq_true, beq_iff_eq, beq_iff_eq] at hHere
  exact ⟨loop, hLoop, hHere.1, hHere.2⟩

end Epimone.Daemon
