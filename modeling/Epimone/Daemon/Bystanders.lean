import Epimone.Daemon.Handlers

/-! # The server but for some of its connections

Two servers agree beyond a set of connections if they differ in the buffers and
flags of these connections, in which of them are open, and in what the trace says
of them, at most. No handler and no event lets such a difference out.
-/
set_option autoImplicit false

namespace Epimone.Daemon

def Effect.peer : Effect → Option ConnPtr
  | .relayed c _ _ | .input _ c _ | .wrote c _ | .writeFailed c | .shutdown c | .closed c | .received c _ _
  | .frame c _ _ _ | .framingError c _ _ | .enqueued c _ | .allocFailed c | .attached c _ _ _ | .detached c _
  | .eof c => some c
  | _ => none

variable (watchers : ConnPtr → Bool)

def Effect.isBeyond (e : Effect) : Bool := e.peer.all fun c => !watchers c

/-- What is left of a server when the connections of the set are blotted out. -/
def Server.without (srv : Server) : Server :=
  { srv with
    conns := srv.conns.filter fun c => !watchers c
    conn := fun c => if watchers c then .blank else srv.conn c
    inbuf := fun c => if watchers c then ⟨[], 0⟩ else srv.inbuf c
    trace := srv.trace.filter (Effect.isBeyond watchers) }

def Beyond (srv srv' : Server) : Prop := srv.without watchers = srv'.without watchers

variable {watchers} {srv srv' mid : Server} {c d : ConnPtr} {s : SessPtr}

section Blotting

variable {α : Type} {blank v : α} {f : ConnPtr → α}

theorem blot_update_hidden (hc : watchers c = true) :
    (fun d => if watchers d then blank else Function.update f c v d) = fun d => if watchers d then blank else f d := by
  funext d
  rcases eq_or_ne d c with rfl | hd
  · rw [if_pos hc, if_pos hc]
  · rw [Function.update_of_ne hd]

theorem blot_update_seen (hc : watchers c = false) :
    (fun d => if watchers d then blank else Function.update f c v d) =
      Function.update (fun d => if watchers d then blank else f d) c v := by
  funext d
  rcases eq_or_ne d c with rfl | hd
  · rw [Function.update_self, Function.update_self, hc]
    rfl
  · rw [Function.update_of_ne hd, Function.update_of_ne hd]

end Blotting

/-- The cell of a connection and what the trace says of it. -/
def Server.put (srv : Server) (c : ConnPtr) (k : Connection) (es : List Effect) : Server :=
  { srv with conn := Function.update srv.conn c k, trace := srv.trace ++ es }

theorem without_put_hidden (hc : watchers c = true) {k : Connection} {es : List Effect}
    (hPeer : ∀ e ∈ es, e.peer = some c) : (srv.put c k es).without watchers = srv.without watchers := by
  have hNone : es.filter (Effect.isBeyond watchers) = [] := by
    apply List.filter_eq_nil_iff.mpr
    intro e he
    simp [Effect.isBeyond, hPeer e he, hc]
  simp only [Server.without, Server.put, List.filter_append, hNone, List.append_nil, blot_update_hidden hc]

theorem without_put_seen (hc : watchers c = false) {k : Connection} {es : List Effect} :
    (srv.put c k es).without watchers = (srv.without watchers).put c k (es.filter (Effect.isBeyond watchers)) := by
  simp only [Server.without, Server.put, List.filter_append, blot_update_seen hc]

theorem without_modIn_hidden (hc : watchers c = true) (f : InBuf → InBuf) :
    (srv.modIn c f).without watchers = srv.without watchers := by
  simp only [Server.without, Server.modIn, blot_update_hidden hc]

theorem without_modIn_seen (hc : watchers c = false) (f : InBuf → InBuf) :
    (srv.modIn c f).without watchers = (srv.without watchers).modIn c f := by
  have hOwn : (if watchers c then (⟨[], 0⟩ : InBuf) else srv.inbuf c) = srv.inbuf c := by
    rw [hc]
    rfl
  simp only [Server.without, Server.modIn, blot_update_seen hc, hOwn]

theorem peer_enqueueEffects (k : Connection) (data : Bytes) (relay alloc : Bool) :
    ∀ e ∈ enqueueEffects k c data relay alloc, e.peer = some c := by
  intro e he
  rcases mem_enqueueEffects.mp he with ⟨-, rfl | ⟨-, rfl⟩⟩ <;> rfl

namespace Beyond

theorem refl (srv : Server) : Beyond watchers srv srv := rfl

theorem symm (h : Beyond watchers srv srv') : Beyond watchers srv' srv := Eq.symm h

theorem trans (h : Beyond watchers srv mid) (h' : Beyond watchers mid srv') : Beyond watchers srv srv' := Eq.trans h h'

theorem map {α : Type} (h : Beyond watchers srv srv') (f : Server → α) :
    f (srv.without watchers) = f (srv'.without watchers) := congrArg f h

theorem congr (h : Beyond watchers srv srv') (f : Server → Server)
    (hf : ∀ t, (f t).without watchers = f (t.without watchers)) : Beyond watchers (f srv) (f srv') := by
  rw [Beyond, hf, hf, show srv.without watchers = _ from h]

theorem sess (h : Beyond watchers srv srv') : srv.sess = srv'.sess := h.map Server.sess

theorem sessions (h : Beyond watchers srv srv') : srv.sessions = srv'.sessions := h.map Server.sessions

theorem dead (h : Beyond watchers srv srv') : srv.dead = srv'.dead := h.map Server.dead

theorem groups (h : Beyond watchers srv srv') : srv.groups = srv'.groups := h.map Server.groups

theorem children (h : Beyond watchers srv srv') : srv.children = srv'.children := h.map Server.children

theorem running (h : Beyond watchers srv srv') : srv.running = srv'.running := h.map Server.running

theorem instanceId (h : Beyond watchers srv srv') : srv.instanceId = srv'.instanceId := h.map Server.instanceId

theorem nextId (h : Beyond watchers srv srv') : srv.nextId = srv'.nextId := h.map Server.nextId

theorem nextGroupId (h : Beyond watchers srv srv') : srv.nextGroupId = srv'.nextGroupId := h.map Server.nextGroupId

theorem nextSess (h : Beyond watchers srv srv') : srv.nextSess = srv'.nextSess := h.map Server.nextSess

theorem nextConn (h : Beyond watchers srv srv') : srv.nextConn = srv'.nextConn := h.map Server.nextConn

theorem conn (h : Beyond watchers srv srv') (hc : watchers c = false) : srv.conn c = srv'.conn c := by
  have hCell : (if watchers c then .blank else srv.conn c) = if watchers c then .blank else srv'.conn c :=
    congrFun (h.map Server.conn) c
  rw [hc] at hCell
  exact hCell

theorem inbuf (h : Beyond watchers srv srv') (hc : watchers c = false) : srv.inbuf c = srv'.inbuf c := by
  have hCell : (if watchers c then ⟨[], 0⟩ else srv.inbuf c) = if watchers c then ⟨[], 0⟩ else srv'.inbuf c :=
    congrFun (h.map Server.inbuf) c
  rw [hc] at hCell
  exact hCell

theorem mem_conns (h : Beyond watchers srv srv') (hc : watchers c = false) : c ∈ srv.conns ↔ c ∈ srv'.conns := by
  have hConns : srv.conns.filter (fun c => !watchers c) = srv'.conns.filter fun c => !watchers c :=
    h.map Server.conns
  have hMem : c ∈ srv.conns.filter (fun c => !watchers c) ↔ c ∈ srv'.conns.filter fun c => !watchers c := by
    rw [hConns]
  simpa [List.mem_filter, hc] using hMem

theorem put (h : Beyond watchers srv srv') (k : Connection → Connection) (es : Connection → List Effect)
    (hPeer : ∀ k, ∀ e ∈ es k, e.peer = some c) :
    Beyond watchers (srv.put c (k (srv.conn c)) (es (srv.conn c)))
      (srv'.put c (k (srv'.conn c)) (es (srv'.conn c))) := by
  cases hc : watchers c with
  | true => exact (without_put_hidden hc (hPeer _)).trans (h.trans (without_put_hidden hc (hPeer _)).symm)
  | false =>
    rw [Beyond, without_put_seen hc, without_put_seen hc, h.conn hc, show srv.without watchers = _ from h]

theorem emit (h : Beyond watchers srv srv') (e : Effect) : Beyond watchers (srv.emit e) (srv'.emit e) := by
  have hEmit : ∀ t : Server, (t.emit e).without watchers =
      { t.without watchers with trace := (t.without watchers).trace ++ [e].filter (Effect.isBeyond watchers) } := by
    intro t
    simp only [Server.without, Server.emit, List.filter_append]
  rw [Beyond, hEmit, hEmit, show srv.without watchers = _ from h]

theorem note (h : Beyond watchers srv srv') (e : Connection → Effect) (hPeer : ∀ k, (e k).peer = some c) :
    Beyond watchers (srv.emit (e (srv.conn c))) (srv'.emit (e (srv'.conn c))) := by
  have hPut := h.put (c := c) id (fun k => [e k]) fun k f hf => by rw [List.mem_singleton.mp hf, hPeer]
  have hSame : ∀ t : Server, t.put c (id (t.conn c)) [e (t.conn c)] = t.emit (e (t.conn c)) := by
    intro t
    simp only [Server.put, Server.emit, id_eq, Function.update_eq_self]
  rwa [hSame, hSame] at hPut

theorem modConn (h : Beyond watchers srv srv') (f : Connection → Connection) :
    Beyond watchers (srv.modConn c f) (srv'.modConn c f) := by
  have hPut := h.put (c := c) f (fun _ => []) fun _ _ hNone => absurd hNone List.not_mem_nil
  have hSame : ∀ t : Server, t.put c (f (t.conn c)) [] = t.modConn c f := by
    intro t
    simp only [Server.put, Server.modConn, List.append_nil]
  rwa [hSame, hSame] at hPut

theorem modSess (h : Beyond watchers srv srv') (f : Session → Session) :
    Beyond watchers (srv.modSess s f) (srv'.modSess s f) :=
  h.map fun srv => srv.modSess s f

theorem modIn (h : Beyond watchers srv srv') (f : InBuf → InBuf) :
    Beyond watchers (srv.modIn c f) (srv'.modIn c f) := by
  cases hc : watchers c with
  | true => exact (without_modIn_hidden hc f).trans (h.trans (without_modIn_hidden hc f).symm)
  | false => rw [Beyond, without_modIn_seen hc, without_modIn_seen hc, show srv.without watchers = _ from h]

theorem enqueue (h : Beyond watchers srv srv') (data : Bytes) (relay alloc : Bool) :
    Beyond watchers (enqueue srv c data relay alloc) (enqueue srv' c data relay alloc) := by
  rw [enqueue_eq, enqueue_eq]
  exact h.put (fun k => connQueue k data alloc) (fun k => enqueueEffects k c data relay alloc) fun k =>
    peer_enqueueEffects k data relay alloc

theorem queueFrame (h : Beyond watchers srv srv') (b : EpiBuf) (alloc : Bool) :
    Beyond watchers (connQueueFrame srv c b alloc) (connQueueFrame srv' c b alloc) := by
  unfold connQueueFrame
  split
  · exact h.emit _
  · exact h.enqueue _ _ _

theorem noteLeft (h : Beyond watchers srv srv') (k : Session) :
    Beyond watchers (noteLeft srv s k) (noteLeft srv' s k) := by
  unfold Daemon.noteLeft
  split
  · exact h
  · exact h.emit _

theorem unbindClient (h : Beyond watchers srv srv') :
    Beyond watchers (unbindClient srv s c) (unbindClient srv' s c) :=
  (((h.modSess _).modConn _).emit _).emit _

theorem connUpdate (h : Beyond watchers srv srv') : Beyond watchers (connUpdate srv c) (connUpdate srv' c) :=
  h.modConn _

theorem detachClient (h : Beyond watchers srv srv') : Beyond watchers (detachClient srv s) (detachClient srv' s) := by
  unfold Daemon.detachClient
  rw [h.sess]
  split
  · exact h
  · exact h.unbindClient.connUpdate

theorem dropClient (h : Beyond watchers srv srv') : Beyond watchers (dropClient srv s) (dropClient srv' s) := by
  unfold Daemon.dropClient
  rw [h.sess]
  split
  · exact h
  · exact h.unbindClient

theorem closePty (h : Beyond watchers srv srv') : Beyond watchers (closePty srv s) (closePty srv' s) :=
  (h.emit _).modSess _

theorem unlinkSession (h : Beyond watchers srv srv') : Beyond watchers (unlinkSession srv s) (unlinkSession srv' s) :=
  h.map fun srv => Daemon.unlinkSession srv s

theorem groupMembers (h : Beyond watchers srv srv') (gid : Nat) : groupMembers srv gid = groupMembers srv' gid := by
  unfold Daemon.groupMembers
  rw [h.sess, h.sessions]

theorem findGroup (h : Beyond watchers srv srv') (gid : Nat) : findGroup srv gid = findGroup srv' gid := by
  unfold Daemon.findGroup
  rw [h.groups]

theorem findSession (h : Beyond watchers srv srv') (id : Nat) (allowRemoved : Bool) :
    findSession srv id allowRemoved = findSession srv' id allowRemoved := by
  unfold Daemon.findSession
  rw [h.sess, h.sessions]

theorem unlinkGroup (h : Beyond watchers srv srv') (g : Group) :
    Beyond watchers (unlinkGroup srv g) (unlinkGroup srv' g) := by
  have hErased : Beyond watchers { srv with groups := srv.groups.eraseP fun k => k.id == g.id }
      { srv' with groups := srv'.groups.eraseP fun k => k.id == g.id } :=
    h.congr (fun srv => { srv with groups := srv.groups.eraseP fun k => k.id == g.id }) fun _ => rfl
  exact hErased.emit _

theorem gcGroupIfEmpty (h : Beyond watchers srv srv') (gid : Nat) :
    Beyond watchers (gcGroupIfEmpty srv gid) (gcGroupIfEmpty srv' gid) := by
  unfold Daemon.gcGroupIfEmpty
  rw [h.findGroup, countGroupMembers_eq, countGroupMembers_eq, h.groupMembers]
  split
  · exact h
  split
  · exact h
  split
  · exact h
  · exact h.unlinkGroup _

theorem removeSession (h : Beyond watchers srv srv') :
    Beyond watchers (removeSession srv s) (removeSession srv' s) := by
  unfold Daemon.removeSession
  dsimp only
  rw [h.sess]
  split
  · exact h
  split
  · exact (h.dropClient.closePty.unlinkSession.noteLeft _).gcGroupIfEmpty _
  · exact (h.dropClient.unlinkSession.noteLeft _).gcGroupIfEmpty _

theorem assignGroup (h : Beyond watchers srv srv') (gid : Nat) :
    Beyond watchers (assignGroup srv s gid) (assignGroup srv' s gid) := by
  have hMoved := h.modSess (s := s) fun k => { k with groupId := gid }
  unfold Daemon.assignGroup
  dsimp only
  rw [h.sess]
  split
  · exact hMoved
  split
  · exact hMoved.noteLeft _
  · exact (hMoved.emit _).noteLeft _

theorem markKilled (h : Beyond watchers srv srv') (clock : Timespec) :
    Beyond watchers (markKilled srv s clock) (markKilled srv' s clock) := by
  unfold Daemon.markKilled
  dsimp only
  rw [h.sess]
  exact (((h.modSess _).emit _).noteLeft _).gcGroupIfEmpty _

theorem kill (h : Beyond watchers srv srv') (pid : Nat) (sig : Signal) :
    Beyond watchers (srv.kill pid sig) (srv'.kill pid sig) := by
  unfold Server.kill Server.childOf
  rw [h.children]
  exact h.emit _

theorem epiSessionHangup (h : Beyond watchers srv srv') :
    Beyond watchers (epiSessionHangup srv s) (epiSessionHangup srv' s) := by
  unfold Daemon.epiSessionHangup
  dsimp only
  rw [h.sess]
  split
  · exact h.kill _ _
  · exact h

theorem watchPty (h : Beyond watchers srv srv') : Beyond watchers (watchPty srv s) (watchPty srv' s) := h.modSess _

theorem linkSession (h : Beyond watchers srv srv') : Beyond watchers (linkSession srv s) (linkSession srv' s) := by
  have hNext : Beyond watchers { srv with nextId := srv.nextId + 1, sessions := s :: srv.sessions }
      { srv' with nextId := srv'.nextId + 1, sessions := s :: srv'.sessions } :=
    h.congr (fun srv => { srv with nextId := srv.nextId + 1, sessions := s :: srv.sessions }) fun _ => rfl
  unfold Daemon.linkSession
  rw [h.nextId] at hNext ⊢
  exact (hNext.modSess _).emit _

theorem epiSessionSpawn (h : Beyond watchers srv srv') (cwd : Option Bytes) (argv env : Option (List Bytes))
    (execPath : Option Bytes) (ans : SpawnAnswers) :
    Beyond watchers (epiSessionSpawn srv cwd argv env execPath ans).1
        (epiSessionSpawn srv' cwd argv env execPath ans).1 ∧
      (epiSessionSpawn srv cwd argv env execPath ans).2 = (epiSessionSpawn srv' cwd argv env execPath ans).2 := by
  have hFork : srv.forkpty ans.forkpty = srv'.forkpty ans.forkpty := h.map fun srv => srv.forkpty ans.forkpty
  unfold Daemon.epiSessionSpawn
  dsimp only
  rw [hFork]
  split
  · exact ⟨h, rfl⟩
  split
  · exact ⟨h, rfl⟩
  split
  · exact ⟨h, rfl⟩
  rename_i pid _
  have hForked : Beyond watchers
      { srv with nextSess := srv.nextSess + 1, children := (pid, srv.nextSess) :: srv.children }
      { srv' with nextSess := srv'.nextSess + 1, children := (pid, srv'.nextSess) :: srv'.children } :=
    h.congr (fun srv => { srv with nextSess := srv.nextSess + 1, children := (pid, srv.nextSess) :: srv.children })
      fun _ => rfl
  rw [h.nextSess] at hForked ⊢
  split
  · exact ⟨(hForked.emit _).kill _ _, rfl⟩
  · exact ⟨(hForked.emit _).modSess _, rfl⟩

theorem createSession (h : Beyond watchers srv srv') (cwd : Option Bytes) (argv env : Option (List Bytes))
    (execPath : Option Bytes) (ans : SpawnAnswers) :
    Beyond watchers (createSession srv cwd argv env execPath ans).1 (createSession srv' cwd argv env execPath ans).1 ∧
      (createSession srv cwd argv env execPath ans).2 = (createSession srv' cwd argv env execPath ans).2 := by
  obtain ⟨hSpawned, hSame⟩ := h.epiSessionSpawn cwd argv env execPath ans
  unfold Daemon.createSession
  generalize Daemon.epiSessionSpawn srv cwd argv env execPath ans = spawned at hSpawned hSame ⊢
  generalize Daemon.epiSessionSpawn srv' cwd argv env execPath ans = spawned' at hSpawned hSame ⊢
  obtain ⟨t, made⟩ := spawned
  obtain ⟨t', made'⟩ := spawned'
  obtain rfl : made = made' := hSame
  cases made with
  | none => exact ⟨hSpawned, rfl⟩
  | some s => exact ⟨hSpawned.linkSession, rfl⟩

theorem reply (h : Beyond watchers srv srv') (ans : FrameAnswers) (b : EpiBuf) :
    Beyond watchers (reply srv c ans b) (reply srv' c ans b) := h.queueFrame _ _

theorem replayRing (h : Beyond watchers srv srv') (ans : FrameAnswers) :
    Beyond watchers (replayRing srv c ans s) (replayRing srv' c ans s) := by
  unfold Daemon.replayRing
  dsimp only
  rw [h.sess]
  split
  · exact h.enqueue _ _ _
  split
  · exact h
  · exact h.emit _

theorem bindClient (h : Beyond watchers srv srv') (ans : FrameAnswers) :
    Beyond watchers (bindClient srv c ans s) (bindClient srv' c ans s) := by
  have hBound := (h.modConn (c := c) fun k => { k with isData := true, session := some s }).modSess (s := s)
    fun k => { k with client := some c }
  unfold Daemon.bindClient
  dsimp only
  rw [hBound.sess]
  refine Beyond.replayRing ?_ ans
  have hReplied := hBound.reply (c := c) ans (putSessionInfo ans.bufAlloc (epiMsgStart ans.bufAlloc .attached)
    (((srv'.modConn c fun k => { k with isData := true, session := some s }).modSess s fun k =>
      { k with client := some c }).sess s))
  rw [hReplied.sess]
  exact hReplied.note (fun k => .attached c s k.unsent.length _) fun _ => rfl

theorem linkGroup (h : Beyond watchers srv srv') (g : Group) :
    Beyond watchers (linkGroup srv g) (linkGroup srv' g) := by
  unfold Daemon.linkGroup
  dsimp only
  rw [h.nextGroupId]
  refine Beyond.emit ?_ _
  exact h.congr (fun t => { t with
    nextGroupId := srv'.nextGroupId + 1, groups := { g with id := srv'.nextGroupId + 1 } :: t.groups }) fun _ => rfl

theorem setGroupBlob (h : Beyond watchers srv srv') (gid : Nat) (blob : Bytes) :
    Beyond watchers (setGroupBlob srv gid blob) (setGroupBlob srv' gid blob) :=
  h.congr (fun t => Daemon.setGroupBlob t gid blob) fun _ => rfl

end Beyond

section Still

variable (srv) (s) (c)

theorem unsent_detachClient : ((detachClient srv s).conn c).unsent = (srv.conn c).unsent := by
  unfold detachClient
  split
  · rfl
  · rename_i d _
    rcases eq_or_ne c d with rfl | hd
    · simp [connUpdate, unbindClient, Server.modConn, Server.modSess, Server.emit, Connection.unsent]
    · simp [connUpdate, unbindClient, Server.modConn, Server.modSess, Server.emit, Function.update_of_ne hd]

theorem unsent_dropClient : ((dropClient srv s).conn c).unsent = (srv.conn c).unsent := by
  unfold dropClient
  split
  · rfl
  · rename_i d _
    rcases eq_or_ne c d with rfl | hd
    · simp [unbindClient, Server.modConn, Server.modSess, Server.emit, Connection.unsent]
    · simp [unbindClient, Server.modConn, Server.modSess, Server.emit, Function.update_of_ne hd]

theorem conn_gcGroupIfEmpty (gid : Nat) : (gcGroupIfEmpty srv gid).conn = srv.conn := by
  rw [gcGroupIfEmpty_eq]

theorem conn_noteLeft (k : Session) : (noteLeft srv s k).conn = srv.conn := by
  rw [noteLeft_eq]

theorem unsent_removeSession : ((removeSession srv s).conn c).unsent = (srv.conn c).unsent := by
  unfold removeSession
  dsimp only
  split
  · rfl
  · rw [conn_gcGroupIfEmpty, conn_noteLeft]
    split <;> exact unsent_dropClient srv c s

theorem conn_assignGroup (gid : Nat) : (assignGroup srv s gid).conn = srv.conn := by
  rw [assignGroup_eq]

theorem conn_epiSessionHangup : (epiSessionHangup srv s).conn = srv.conn := by
  unfold epiSessionHangup
  dsimp only
  split <;> rfl

theorem conn_markKilled (clock : Timespec) : (markKilled srv s clock).conn = srv.conn := by
  rw [markKilled_eq]
  rfl

theorem conn_epiSessionResize (rows cols : Nat) : (epiSessionResize srv s rows cols).conn = srv.conn := by
  unfold epiSessionResize
  split <;> rfl

theorem conn_epiSessionSpawn (cwd : Option Bytes) (argv env : Option (List Bytes)) (execPath : Option Bytes)
    (ans : SpawnAnswers) : (epiSessionSpawn srv cwd argv env execPath ans).1.conn = srv.conn := by
  unfold epiSessionSpawn
  split
  · rfl
  split
  · rfl
  dsimp only
  split
  · rfl
  · split <;> rfl

theorem conn_createSession (cwd : Option Bytes) (argv env : Option (List Bytes)) (execPath : Option Bytes)
    (ans : SpawnAnswers) : (createSession srv cwd argv env execPath ans).1.conn = srv.conn := by
  have hSpawned := conn_epiSessionSpawn srv cwd argv env execPath ans
  unfold createSession
  generalize epiSessionSpawn srv cwd argv env execPath ans = spawned at hSpawned ⊢
  obtain ⟨t, made⟩ := spawned
  cases made with
  | none => exact hSpawned
  | some s => exact hSpawned

end Still

/-- The servers agree beyond the connections of the set, and nothing has been queued for the connection yet. -/
structure Level (watchers : ConnPtr → Bool) (c : ConnPtr) (waiting waiting' : Bytes) (srv srv' : Server) : Prop where
  beyond : Beyond watchers srv srv'
  left : (srv.conn c).unsent = waiting
  right : (srv'.conn c).unsent = waiting'

/-- The same reply has been queued in both, or both have been attached to the same session. -/
inductive Echoed (watchers : ConnPtr → Bool) (c : ConnPtr) (ans : FrameAnswers) (waiting waiting' : Bytes) :
    Server → Server → Prop
  | reply {srv srv' : Server} (h : Level watchers c waiting waiting' srv srv') (b : EpiBuf) :
    Echoed watchers c ans waiting waiting' (connQueueFrame srv c b ans.queueAlloc)
      (connQueueFrame srv' c b ans.queueAlloc)
  | attach {srv srv' : Server} (h : Level watchers c waiting waiting' srv srv') (s : SessPtr) :
    Echoed watchers c ans waiting waiting' (bindClient srv c ans s) (bindClient srv' c ans s)

theorem Echoed.beyond {ans : FrameAnswers} {waiting waiting' : Bytes}
    (h : Echoed watchers c ans waiting waiting' srv srv') : Beyond watchers srv srv' := by
  cases h with
  | reply h b => exact h.beyond.queueFrame b _
  | attach h s => exact h.beyond.bindClient ans

namespace Level

variable {waiting waiting' : Bytes} (h : Level watchers c waiting waiting' srv srv') (ans : FrameAnswers)

include h

/-- A step that queues nothing. -/
theorem step {f : Server → Server} (hBeyond : Beyond watchers (f srv) (f srv'))
    (hStill : ∀ t, ((f t).conn c).unsent = (t.conn c).unsent) : Level watchers c waiting waiting' (f srv) (f srv') :=
  ⟨hBeyond, (hStill srv).trans h.left, (hStill srv').trans h.right⟩

theorem detachClient : Level watchers c waiting waiting' (detachClient srv s) (detachClient srv' s) :=
  h.step h.beyond.detachClient fun t => unsent_detachClient t c s

theorem removeSession : Level watchers c waiting waiting' (removeSession srv s) (removeSession srv' s) :=
  h.step h.beyond.removeSession fun t => unsent_removeSession t c s

theorem reply (b : EpiBuf) : Echoed watchers c ans waiting waiting' (reply srv c ans b) (reply srv' c ans b) :=
  .reply h _

theorem refuse (code : EpiErrCode) (msg : String) :
    Echoed watchers c ans waiting waiting' (refuse srv c ans code msg) (refuse srv' c ans code msg) := .reply h _

theorem acknowledge : Echoed watchers c ans waiting waiting' (acknowledge srv c ans) (acknowledge srv' c ans) :=
  .reply h _

theorem withSession (r : EpiRd) (id : Nat) (malformed : String) {handle handle' : SessPtr → Server}
    (hHandle : ∀ s, Echoed watchers c ans waiting waiting' (handle s) (handle' s)) :
    Echoed watchers c ans waiting waiting' (withSession srv c ans r id malformed handle)
      (withSession srv' c ans r id malformed handle') := by
  unfold Daemon.withSession
  rw [h.beyond.findSession]
  split
  · exact h.refuse ans _ _
  split
  · exact h.refuse ans _ _
  · exact hHandle _

theorem handleCreate (r : EpiRd) :
    Echoed watchers c ans waiting waiting' (handleCreate srv c ans r) (handleCreate srv' c ans r) := by
  unfold Daemon.handleCreate
  split
  split
  split
  split
  split
  · exact h.refuse ans _ _
  rename_i cwd _ _ _ argv _ _ _ env _ _ _ execPath _ _ _
  obtain ⟨hBeyond, hSame⟩ := h.beyond.createSession cwd argv env execPath ans.spawn
  have hCreated : Level watchers c waiting waiting' (createSession srv cwd argv env execPath ans.spawn).1
      (createSession srv' cwd argv env execPath ans.spawn).1 := h.step hBeyond fun t => by rw [conn_createSession]
  generalize createSession srv cwd argv env execPath ans.spawn = created at hCreated hSame ⊢
  generalize createSession srv' cwd argv env execPath ans.spawn = created' at hCreated hSame ⊢
  obtain ⟨t, made⟩ := created
  obtain ⟨t', made'⟩ := created'
  obtain rfl : made = made' := hSame
  cases made with
  | none => exact hCreated.refuse ans _ _
  | some s =>
    dsimp only
    rw [hCreated.beyond.sess]
    split
    · exact hCreated.removeSession.refuse ans _ _
    · have hWatched := hCreated.step (f := fun t => watchPty t s) hCreated.beyond.watchPty fun _ => rfl
      exact hWatched.reply ans _

theorem handleList : Echoed watchers c ans waiting waiting' (handleList srv c ans) (handleList srv' c ans) := by
  unfold Daemon.handleList countShown putShown
  rw [h.beyond.sess, h.beyond.sessions, h.beyond.instanceId]
  exact h.reply ans _

theorem handleAttach (r : EpiRd) :
    Echoed watchers c ans waiting waiting' (handleAttach srv c ans r) (handleAttach srv' c ans r) := by
  unfold Daemon.handleAttach
  split
  refine h.withSession ans _ _ _ fun s => ?_
  dsimp only
  rw [h.beyond.sess]
  split
  · exact .attach h.detachClient s
  · exact .attach h s

theorem handleKill (r : EpiRd) :
    Echoed watchers c ans waiting waiting' (handleKill srv c ans r) (handleKill srv' c ans r) := by
  unfold Daemon.handleKill
  split
  refine h.withSession ans _ _ _ fun s => ?_
  have hDetached := h.detachClient (s := s)
  dsimp only
  rw [hDetached.beyond.sess]
  split
  · exact hDetached.removeSession.acknowledge ans
  · have hHungUp := hDetached.step (hDetached.beyond.epiSessionHangup (s := s)) fun t => by rw [conn_epiSessionHangup]
    have hKilled := hHungUp.step (hHungUp.beyond.markKilled (s := s) ans.clock) fun t => by rw [conn_markKilled]
    exact hKilled.acknowledge ans

theorem handleResize (r : EpiRd) :
    Echoed watchers c ans waiting waiting' (handleResize srv c ans r) (handleResize srv' c ans r) := by
  unfold Daemon.handleResize
  split
  split
  rename_i rows _ _
  split
  rename_i cols _ _
  refine h.withSession ans _ _ _ fun s => ?_
  have hResized : Beyond watchers (epiSessionResize srv s rows cols) (epiSessionResize srv' s rows cols) := by
    unfold epiSessionResize
    rw [h.beyond.sess]
    split
    · exact h.beyond
    · exact h.beyond.emit _
  exact (h.step hResized fun t => by rw [conn_epiSessionResize]).acknowledge ans

theorem handleDetach (r : EpiRd) :
    Echoed watchers c ans waiting waiting' (handleDetach srv c ans r) (handleDetach srv' c ans r) := by
  unfold Daemon.handleDetach
  split
  exact h.withSession ans _ _ _ fun s => h.detachClient.acknowledge ans

theorem handlePeek (r : EpiRd) :
    Echoed watchers c ans waiting waiting' (handlePeek srv c ans r) (handlePeek srv' c ans r) := by
  unfold Daemon.handlePeek
  rw [h.beyond.sess]
  split
  split
  exact h.withSession ans _ _ _ fun s => h.reply ans _

theorem handleGroupNew (r : EpiRd) :
    Echoed watchers c ans waiting waiting' (handleGroupNew srv c ans r) (handleGroupNew srv' c ans r) := by
  unfold Daemon.handleGroupNew
  split
  dsimp only
  rw [countGroups_eq, countGroups_eq, h.beyond.groups]
  split
  · exact h.refuse ans _ _
  split
  · exact h.refuse ans _ _
  split
  · exact h.refuse ans _ _
  split
  · exact h.refuse ans _ _
  · rename_i g _
    have hLinked := h.step (f := fun t => linkGroup t g) (h.beyond.linkGroup g) fun _ => rfl
    rw [hLinked.beyond.nextGroupId]
    exact hLinked.reply ans _

theorem handleGroupSet (r : EpiRd) :
    Echoed watchers c ans waiting waiting' (handleGroupSet srv c ans r) (handleGroupSet srv' c ans r) := by
  unfold Daemon.handleGroupSet
  split
  split
  dsimp only
  rw [h.beyond.findGroup]
  split
  · exact h.refuse ans _ _
  split
  · exact h.refuse ans _ _
  split
  · exact h.refuse ans _ _
  split
  · exact h.refuse ans _ _
  · exact (h.step (f := fun t => setGroupBlob t _ _) (h.beyond.setGroupBlob _ _) fun _ => rfl).acknowledge ans

theorem handleGroupAdd (r : EpiRd) :
    Echoed watchers c ans waiting waiting' (handleGroupAdd srv c ans r) (handleGroupAdd srv' c ans r) := by
  unfold Daemon.handleGroupAdd
  split
  rename_i gid _ _
  split
  rw [h.beyond.findGroup, h.beyond.findSession]
  split
  · exact h.refuse ans _ _
  split
  · exact h.refuse ans _ _
  split
  · exact h.refuse ans _ _
  · rename_i s _
    have hMoved := h.step (h.beyond.assignGroup (s := s) gid) fun t => by rw [conn_assignGroup]
    dsimp only
    rw [h.beyond.sess]
    split
    · exact (hMoved.step (hMoved.beyond.gcGroupIfEmpty _) fun t => by rw [conn_gcGroupIfEmpty]).acknowledge ans
    · exact hMoved.acknowledge ans

theorem handleGroupRemove (r : EpiRd) :
    Echoed watchers c ans waiting waiting' (handleGroupRemove srv c ans r) (handleGroupRemove srv' c ans r) := by
  unfold Daemon.handleGroupRemove
  split
  refine h.withSession ans _ _ _ fun s => ?_
  have hMoved := h.step (h.beyond.assignGroup (s := s) 0) fun t => by rw [conn_assignGroup]
  rw [h.beyond.sess]
  exact (hMoved.step (hMoved.beyond.gcGroupIfEmpty _) fun t => by rw [conn_gcGroupIfEmpty]).acknowledge ans

theorem handleGroupList :
    Echoed watchers c ans waiting waiting' (handleGroupList srv c ans) (handleGroupList srv' c ans) := by
  have hPut : putGroup srv ans = putGroup srv' ans := by
    funext b g
    unfold putGroup
    rw [countGroupMembers_eq, countGroupMembers_eq, putMembers_eq, putMembers_eq, h.beyond.groupMembers, h.beyond.sess]
  unfold Daemon.handleGroupList
  rw [hPut, countGroups_eq, countGroups_eq, h.beyond.groups, h.beyond.instanceId]
  exact h.reply ans _

/-- A frame is answered by what the connections of the set have no part in. -/
theorem dispatchFrame (type : Nat) (body : Bytes) :
    Echoed watchers c ans waiting waiting' (dispatchFrame srv c ans type body)
      (dispatchFrame srv' c ans type body) := by
  unfold Daemon.dispatchFrame
  dsimp only
  split
  · exact h.handleCreate ans _
  · exact h.handleList ans
  · exact h.handleAttach ans _
  · exact h.handleKill ans _
  · exact h.handleResize ans _
  · exact h.handleDetach ans _
  · exact h.handlePeek ans _
  · exact h.handleGroupNew ans _
  · exact h.handleGroupSet ans _
  · exact h.handleGroupAdd ans _
  · exact h.handleGroupRemove ans _
  · exact h.handleGroupList ans
  · exact h.refuse ans _ _

end Level

theorem Beyond.dispatchFrame (h : Beyond watchers srv srv') (ans : FrameAnswers) (type : Nat) (body : Bytes) :
    Beyond watchers (dispatchFrame srv c ans type body) (dispatchFrame srv' c ans type body) :=
  (Level.dispatchFrame ⟨h, rfl, rfl⟩ ans type body).beyond

end Epimone.Daemon
