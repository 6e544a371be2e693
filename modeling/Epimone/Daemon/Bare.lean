import Epimone.Daemon.Handlers

/-! # The server without its connections

No request is decided by what waits in the buffers of a connection, by what epoll
watches there or by the past: two servers that are alike but for these stay so
under every handler.
-/
set_option autoImplicit false

namespace Epimone.Daemon

def Server.bare (srv : Server) : Server :=
  { srv with conn := fun _ => default, inbuf := fun _ => default, trace := [] }

/-- The servers differ in their connections and their past at most. -/
def Alike (srv srv' : Server) : Prop := srv.bare = srv'.bare

namespace Alike

variable {srv srv' mid : Server} {c d : ConnPtr} {s : SessPtr}

theorem refl (srv : Server) : Alike srv srv := rfl

theorem symm (h : Alike srv srv') : Alike srv' srv := Eq.symm h

theorem trans (h : Alike srv mid) (h' : Alike mid srv') : Alike srv srv' := Eq.trans h h'

theorem bare (srv : Server) : Alike srv.bare srv := rfl

theorem map {α : Type} (h : Alike srv srv') (f : Server → α) : f srv.bare = f srv'.bare := congrArg f h

theorem sess (h : Alike srv srv') : srv.sess = srv'.sess := h.map Server.sess

theorem sessions (h : Alike srv srv') : srv.sessions = srv'.sessions := h.map Server.sessions

theorem groups (h : Alike srv srv') : srv.groups = srv'.groups := h.map Server.groups

theorem nextSess (h : Alike srv srv') : srv.nextSess = srv'.nextSess := h.map Server.nextSess

theorem nextId (h : Alike srv srv') : srv.nextId = srv'.nextId := h.map Server.nextId

theorem nextGroupId (h : Alike srv srv') : srv.nextGroupId = srv'.nextGroupId := h.map Server.nextGroupId

theorem emit (h : Alike srv srv') (e e' : Effect) : Alike (srv.emit e) (srv'.emit e') := h

theorem modConn (h : Alike srv srv') (f f' : Connection → Connection) : Alike (srv.modConn c f) (srv'.modConn d f') := h

theorem modSess (h : Alike srv srv') (f : Session → Session) : Alike (srv.modSess s f) (srv'.modSess s f) :=
  h.map fun srv => srv.modSess s f

theorem enqueue (h : Alike srv srv') (data data' : Bytes) (relay relay' alloc alloc' : Bool) :
    Alike (enqueue srv c data relay alloc) (enqueue srv' d data' relay' alloc') := by
  rw [enqueue_eq, enqueue_eq]
  exact h

theorem queueFrame (h : Alike srv srv') (b b' : EpiBuf) (alloc alloc' : Bool) :
    Alike (connQueueFrame srv c b alloc) (connQueueFrame srv' d b' alloc') := by
  rw [connQueueFrame_eq, connQueueFrame_eq]
  exact h

theorem noteLeft (h : Alike srv srv') (k k' : Session) : Alike (noteLeft srv s k) (noteLeft srv' s k') := by
  have hNoted : ∀ (t : Server) k, Alike (Daemon.noteLeft t s k) t := by
    intro t k
    unfold Daemon.noteLeft
    split <;> rfl
  exact ((hNoted srv k).trans h).trans (hNoted srv' k').symm

theorem unbindClient (h : Alike srv srv') : Alike (unbindClient srv s c) (unbindClient srv' s d) :=
  h.map fun srv => srv.modSess s fun k => { k with client := none }

theorem detachClient (h : Alike srv srv') : Alike (detachClient srv s) (detachClient srv' s) := by
  unfold Daemon.detachClient
  rw [h.sess]
  split
  · exact h
  · exact h.unbindClient.modConn _ _

theorem dropClient (h : Alike srv srv') : Alike (dropClient srv s) (dropClient srv' s) := by
  unfold Daemon.dropClient
  rw [h.sess]
  split
  · exact h
  · exact h.unbindClient

theorem closePty (h : Alike srv srv') : Alike (closePty srv s) (closePty srv' s) :=
  h.modSess fun k => { k with ptyOpen := false, ptyEvents := none }

theorem unlinkSession (h : Alike srv srv') : Alike (unlinkSession srv s) (unlinkSession srv' s) :=
  h.map fun srv => Daemon.unlinkSession srv s

theorem groupMembers (h : Alike srv srv') (gid : Nat) : groupMembers srv gid = groupMembers srv' gid := by
  unfold Daemon.groupMembers
  rw [h.sess, h.sessions]

theorem findGroup (h : Alike srv srv') (gid : Nat) : findGroup srv gid = findGroup srv' gid := by
  unfold Daemon.findGroup
  rw [h.groups]

theorem findSession (h : Alike srv srv') (id : Nat) (allowRemoved : Bool) :
    findSession srv id allowRemoved = findSession srv' id allowRemoved := by
  unfold Daemon.findSession
  rw [h.sess, h.sessions]

theorem unlinkGroup (h : Alike srv srv') (g : Group) : Alike (unlinkGroup srv g) (unlinkGroup srv' g) :=
  h.map fun srv => (Daemon.unlinkGroup srv g).bare

theorem gcGroupIfEmpty (h : Alike srv srv') (gid : Nat) : Alike (gcGroupIfEmpty srv gid) (gcGroupIfEmpty srv' gid) := by
  unfold Daemon.gcGroupIfEmpty
  rw [h.findGroup, countGroupMembers_eq, countGroupMembers_eq, h.groupMembers]
  split
  · exact h
  · split
    · exact h
    · split
      · exact h
      · exact h.unlinkGroup _

theorem removeSession (h : Alike srv srv') : Alike (removeSession srv s) (removeSession srv' s) := by
  unfold Daemon.removeSession
  dsimp only
  rw [h.sess]
  split
  · exact h
  refine ((Alike.unlinkSession ?_).noteLeft _ _).gcGroupIfEmpty _
  split
  · exact h.dropClient.closePty
  · exact h.dropClient

theorem assignGroup (h : Alike srv srv') (gid : Nat) : Alike (assignGroup srv s gid) (assignGroup srv' s gid) := by
  have hMoved := h.modSess (s := s) fun k => { k with groupId := gid }
  unfold Daemon.assignGroup
  dsimp only
  rw [h.sess]
  split
  · exact hMoved
  · refine Alike.noteLeft ?_ _ _
    split
    · exact hMoved
    · exact hMoved

theorem markKilled (h : Alike srv srv') (clock : Timespec) :
    Alike (markKilled srv s clock) (markKilled srv' s clock) := by
  unfold Daemon.markKilled
  dsimp only
  rw [h.sess]
  exact (((h.modSess _).emit _ _).noteLeft _ _).gcGroupIfEmpty _

theorem epiSessionHangup (h : Alike srv srv') : Alike (epiSessionHangup srv s) (epiSessionHangup srv' s) := by
  unfold Daemon.epiSessionHangup
  dsimp only
  rw [h.sess]
  split
  · exact h
  · exact h

theorem watchPty (h : Alike srv srv') : Alike (watchPty srv s) (watchPty srv' s) := h.modSess _

theorem linkSession (h : Alike srv srv') : Alike (linkSession srv s) (linkSession srv' s) :=
  h.map fun srv => (Daemon.linkSession srv s).bare

theorem epiSessionSpawn (h : Alike srv srv') (cwd : Option Bytes) (argv env : Option (List Bytes))
    (execPath : Option Bytes) (ans : SpawnAnswers) :
    Alike (epiSessionSpawn srv cwd argv env execPath ans).1 (epiSessionSpawn srv' cwd argv env execPath ans).1 ∧
      (epiSessionSpawn srv cwd argv env execPath ans).2 = (epiSessionSpawn srv' cwd argv env execPath ans).2 := by
  have hFork : srv.forkpty ans.forkpty = srv'.forkpty ans.forkpty := h.map fun srv => srv.forkpty ans.forkpty
  unfold Daemon.epiSessionSpawn
  dsimp only
  rw [hFork, h.nextSess]
  split
  · exact ⟨h, rfl⟩
  split
  · exact ⟨h, rfl⟩
  split
  · exact ⟨h, rfl⟩
  rename_i pid _
  have hBare : ∀ t : Server,
      Server.bare { t with nextSess := srv'.nextSess + 1, children := (pid, srv'.nextSess) :: t.children } =
        { t.bare with nextSess := srv'.nextSess + 1, children := (pid, srv'.nextSess) :: t.bare.children } :=
    fun _ => rfl
  have hForked : Alike { srv with nextSess := srv'.nextSess + 1, children := (pid, srv'.nextSess) :: srv.children }
      { srv' with nextSess := srv'.nextSess + 1, children := (pid, srv'.nextSess) :: srv'.children } := by
    rw [Alike, hBare, hBare, show srv.bare = srv'.bare from h]
  split
  · exact ⟨hForked, rfl⟩
  · exact ⟨(hForked.emit _ _).modSess _, rfl⟩

theorem createSession (h : Alike srv srv') (cwd : Option Bytes) (argv env : Option (List Bytes))
    (execPath : Option Bytes) (ans : SpawnAnswers) :
    Alike (createSession srv cwd argv env execPath ans).1 (createSession srv' cwd argv env execPath ans).1 ∧
      (createSession srv cwd argv env execPath ans).2 = (createSession srv' cwd argv env execPath ans).2 := by
  obtain ⟨hSpawned, hSame⟩ := h.epiSessionSpawn cwd argv env execPath ans
  unfold Daemon.createSession
  generalize Daemon.epiSessionSpawn srv cwd argv env execPath ans = spawned at hSpawned hSame ⊢
  generalize Daemon.epiSessionSpawn srv' cwd argv env execPath ans = spawned' at hSpawned hSame ⊢
  obtain ⟨t, made⟩ := spawned
  obtain ⟨t', made'⟩ := spawned'
  obtain rfl : made = made' := hSame
  cases made with
  | none => exact ⟨hSpawned, rfl⟩
  | some s => exact ⟨hSpawned.linkSession, rfl⟩

theorem bindClient (h : Alike srv srv') (ans : FrameAnswers) :
    Alike (bindClient srv c ans s) (bindClient srv' c ans s) := by
  have hBound := h.modSess (s := s) fun k => { k with client := some c }
  rw [bindClient_eq, bindClient_eq]
  exact hBound

section Handlers

variable (h : Alike srv srv') (ans : FrameAnswers)

include h

theorem refuse (code code' : EpiErrCode) (msg msg' : String) :
    Alike (refuse srv c ans code msg) (refuse srv' c ans code' msg') := h.queueFrame _ _ _ _

theorem reply (b b' : EpiBuf) : Alike (reply srv c ans b) (reply srv' c ans b') := h.queueFrame _ _ _ _

theorem acknowledge : Alike (acknowledge srv c ans) (acknowledge srv' c ans) := h.queueFrame _ _ _ _

theorem withSession (r : EpiRd) (id : Nat) (malformed : String) {handle handle' : SessPtr → Server}
    (hHandle : ∀ s, Alike (handle s) (handle' s)) :
    Alike (withSession srv c ans r id malformed handle) (withSession srv' c ans r id malformed handle') := by
  unfold Daemon.withSession
  rw [h.findSession]
  split
  · exact h.refuse ans _ _ _ _
  split
  · exact h.refuse ans _ _ _ _
  · exact hHandle _

theorem handleCreate (r : EpiRd) : Alike (handleCreate srv c ans r) (handleCreate srv' c ans r) := by
  unfold Daemon.handleCreate
  split
  split
  split
  split
  split
  · exact h.refuse ans _ _ _ _
  rename_i cwd _ _ _ argv _ _ _ env _ _ _ execPath _ _ _
  obtain ⟨hCreated, hSame⟩ := h.createSession cwd argv env execPath ans.spawn
  generalize Daemon.createSession srv cwd argv env execPath ans.spawn = created at hCreated hSame ⊢
  generalize Daemon.createSession srv' cwd argv env execPath ans.spawn = created' at hCreated hSame ⊢
  obtain ⟨t, made⟩ := created
  obtain ⟨t', made'⟩ := created'
  obtain rfl : made = made' := hSame
  cases made with
  | none => exact hCreated.refuse ans _ _ _ _
  | some s =>
    dsimp only
    split
    · exact hCreated.removeSession.refuse ans _ _ _ _
    · exact hCreated.watchPty.reply ans _ _

theorem handleAttach (r : EpiRd) : Alike (handleAttach srv c ans r) (handleAttach srv' c ans r) := by
  unfold Daemon.handleAttach
  split
  refine h.withSession ans _ _ _ fun s => ?_
  dsimp only
  rw [h.sess]
  split
  · exact h.detachClient.bindClient ans
  · exact h.bindClient ans

theorem handleKill (r : EpiRd) : Alike (handleKill srv c ans r) (handleKill srv' c ans r) := by
  unfold Daemon.handleKill
  split
  refine h.withSession ans _ _ _ fun s => ?_
  dsimp only
  rw [(h.detachClient (s := s)).sess]
  split
  · exact h.detachClient.removeSession.acknowledge ans
  · exact (h.detachClient.epiSessionHangup.markKilled _).acknowledge ans

theorem handleResize (r : EpiRd) : Alike (handleResize srv c ans r) (handleResize srv' c ans r) := by
  unfold Daemon.handleResize
  split
  split
  split
  refine h.withSession ans _ _ _ fun s => Alike.acknowledge ?_ ans
  unfold epiSessionResize
  rw [h.sess]
  split
  · exact h
  · exact h

theorem handleDetach (r : EpiRd) : Alike (handleDetach srv c ans r) (handleDetach srv' c ans r) := by
  unfold Daemon.handleDetach
  split
  exact h.withSession ans _ _ _ fun s => h.detachClient.acknowledge ans

theorem handlePeek (r : EpiRd) : Alike (handlePeek srv c ans r) (handlePeek srv' c ans r) := by
  unfold Daemon.handlePeek
  split
  split
  exact h.withSession ans _ _ _ fun s => h.reply ans _ _

theorem handleGroupNew (r : EpiRd) : Alike (handleGroupNew srv c ans r) (handleGroupNew srv' c ans r) := by
  unfold Daemon.handleGroupNew
  split
  dsimp only
  rw [countGroups_eq, countGroups_eq, h.groups]
  split
  · exact h.refuse ans _ _ _ _
  split
  · exact h.refuse ans _ _ _ _
  split
  · exact h.refuse ans _ _ _ _
  split
  · exact h.refuse ans _ _ _ _
  · rename_i g _
    have hLinked : Alike (linkGroup srv g) (linkGroup srv' g) := h.map fun srv => (linkGroup srv g).bare
    exact hLinked.reply ans _ _

theorem handleGroupSet (r : EpiRd) : Alike (handleGroupSet srv c ans r) (handleGroupSet srv' c ans r) := by
  unfold Daemon.handleGroupSet
  split
  split
  dsimp only
  rw [h.findGroup]
  split
  · exact h.refuse ans _ _ _ _
  split
  · exact h.refuse ans _ _ _ _
  split
  · exact h.refuse ans _ _ _ _
  split
  · exact h.refuse ans _ _ _ _
  · have hSet : ∀ gid blob, Alike (setGroupBlob srv gid blob) (setGroupBlob srv' gid blob) := fun gid blob =>
      h.map fun srv => setGroupBlob srv gid blob
    exact (hSet _ _).acknowledge ans

theorem handleGroupAdd (r : EpiRd) : Alike (handleGroupAdd srv c ans r) (handleGroupAdd srv' c ans r) := by
  unfold Daemon.handleGroupAdd
  split
  split
  rw [h.findGroup, h.findSession]
  split
  · exact h.refuse ans _ _ _ _
  split
  · exact h.refuse ans _ _ _ _
  split
  · exact h.refuse ans _ _ _ _
  · dsimp only
    rw [h.sess]
    split
    · exact ((h.assignGroup _).gcGroupIfEmpty _).acknowledge ans
    · exact (h.assignGroup _).acknowledge ans

theorem handleGroupRemove (r : EpiRd) : Alike (handleGroupRemove srv c ans r) (handleGroupRemove srv' c ans r) := by
  unfold Daemon.handleGroupRemove
  split
  refine h.withSession ans _ _ _ fun s => Alike.acknowledge ?_ ans
  rw [h.sess]
  exact (h.assignGroup _).gcGroupIfEmpty _

theorem dispatchFrame (type : Nat) (body : Bytes) :
    Alike (dispatchFrame srv c ans type body) (dispatchFrame srv' c ans type body) := by
  unfold Daemon.dispatchFrame
  dsimp only
  split
  · exact h.handleCreate ans _
  · exact h.reply ans _ _
  · exact h.handleAttach ans _
  · exact h.handleKill ans _
  · exact h.handleResize ans _
  · exact h.handleDetach ans _
  · exact h.handlePeek ans _
  · exact h.handleGroupNew ans _
  · exact h.handleGroupSet ans _
  · exact h.handleGroupAdd ans _
  · exact h.handleGroupRemove ans _
  · exact h.reply ans _ _
  · exact h.refuse ans _ _ _ _

end Handlers

end Alike

end Epimone.Daemon
