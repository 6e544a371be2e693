import Epimone.Daemon.Connection

/-! # Requests

The handlers of server.c, from the body of a frame to the reply. `FrameAnswers`
is what the outside answers while one frame is handled. The handlers name the
steps that change more than a buffer (`linkSession`, `bindClient`,
`markKilled`, `assignGroup`), so that they can be spoken of on their own.
-/
set_option autoImplicit false

namespace Epimone.Daemon

structure FrameAnswers where
  rdAlloc : Nat → Bool
  bufAlloc : Nat → Bool
  queueAlloc : Bool
  replayAlloc : Bool
  snapAlloc : Alloc
  groupAlloc : Bool
  blobAlloc : Bool
  spawn : SpawnAnswers
  ptyAdded : Bool
  clock : Timespec
  now : Nat

def readStrings (alloc : Nat → Bool) : Nat → EpiRd → Option (List Bytes) × EpiRd
  | 0, r => (some [], r)
  | count + 1, r =>
    match epiRdStr alloc r with
    | (none, r) => (none, { r with err := true })
    | (some s, r) =>
      match readStrings alloc count r with
      | (none, r) => (none, r)
      | (some rest, r) => (some (s :: rest), r)

def readStrArray (alloc : Nat → Bool) (r : EpiRd) : Option (List Bytes) × EpiRd :=
  let (count, r) := epiRdU32 r
  if r.err then (none, r)
  else if count = 0 then (none, r)
  else if 4096 < count then (none, { r with err := true })
  else if !alloc r.pos then (none, { r with err := true })
  else readStrings alloc count r

def linkSession (srv : Server) (s : SessPtr) : Server :=
  let id := srv.nextId + 1
  let srv := { srv with nextId := id, sessions := s :: srv.sessions }
  (srv.modSess s fun k => { k with id := id }).emit (.created s id)

def createSession (srv : Server) (cwd : Option Bytes) (argv env : Option (List Bytes))
    (execPath : Option Bytes) (ans : SpawnAnswers) : Server × Option SessPtr :=
  match epiSessionSpawn srv cwd argv env execPath ans with
  | (srv, none) => (srv, none)
  | (srv, some s) => (linkSession srv s, some s)

def watchPty (srv : Server) (s : SessPtr) : Server :=
  srv.modSess s fun k => { k with ptyEvents := some ⟨true, false, false, false, false⟩ }

section Handlers

variable (srv : Server) (c : ConnPtr) (ans : FrameAnswers)

def refuse (code : EpiErrCode) (msg : String) : Server :=
  sendError srv c code msg ans.bufAlloc ans.queueAlloc

def reply (b : EpiBuf) : Server := connQueueFrame srv c (epiMsgEnd b) ans.queueAlloc

def acknowledge : Server := sendOk srv c ans.bufAlloc ans.queueAlloc

def handleCreate (r : EpiRd) : Server :=
  let (cwd, r) := epiRdStr ans.rdAlloc r
  let (argv, r) := readStrArray ans.rdAlloc r
  let (env, r) := readStrArray ans.rdAlloc r
  let (execPath, r) := if r.more then epiRdStr ans.rdAlloc r else (none, r)
  if r.err then refuse srv c ans .protocol "malformed CREATE"
  else
    match createSession srv cwd argv env execPath ans.spawn with
    | (srv, none) => refuse srv c ans .spawn "failed to spawn session"
    | (srv, some s) =>
      if !ans.ptyAdded then
        refuse (removeSession srv s) c ans .internal "epoll registration failed"
      else
        let b := epiMsgStart ans.bufAlloc .id
        reply (watchPty srv s) c ans (epiBufPutU64 ans.bufAlloc b (srv.sess s).id)

/-- The first walk of handle_list. -/
def countShown : Nat := srv.sessions.foldl (fun n s => if !(srv.sess s).removed then n + 1 else n) 0

/-- The second walk of handle_list. -/
def putShown (b : EpiBuf) : EpiBuf :=
  srv.sessions.foldl
    (fun b s => if !(srv.sess s).removed then putSessionInfo ans.bufAlloc b (srv.sess s) else b) b

def handleList : Server :=
  let b := epiMsgStart ans.bufAlloc .listReply
  let b := epiBufPutU32 ans.bufAlloc b (countShown srv)
  let b := putShown srv ans b
  reply srv c ans (epiBufPutU64 ans.bufAlloc b srv.instanceId)

def listed : List SessPtr := srv.sessions.filter fun s => !(srv.sess s).removed

theorem countShown_eq : countShown srv = (listed srv).length := by
  rw [countShown, ← List.foldl_filter, List.foldl_add_const, Nat.zero_add, Nat.one_mul]
  rfl

theorem putShown_eq (b : EpiBuf) :
    putShown srv ans b = (listed srv).foldl (fun b s => putSessionInfo ans.bufAlloc b (srv.sess s)) b := by
  rw [putShown, ← List.foldl_filter]
  rfl

def replayRing (s : SessPtr) : Server :=
  let out := (srv.sess s).out
  match out.snapshot ans.snapAlloc with
  | some snap => enqueue srv c snap false ans.replayAlloc
  | none => if out.ring.size = 0 then srv else srv.emit (.allocFailed c)

/-- The connection becomes the data channel of the session. -/
def bindClient (s : SessPtr) : Server :=
  let srv := srv.modConn c fun k => { k with isData := true, session := some s }
  let srv := srv.modSess s fun k => { k with client := some c }
  let b := putSessionInfo ans.bufAlloc (epiMsgStart ans.bufAlloc .attached) (srv.sess s)
  let srv := reply srv c ans b
  let srv := srv.emit (.attached c s (srv.conn c).unsent.length (srv.sess s).out.ring.contents)
  replayRing srv c ans s

/-- The handlers that first look up a session by the id they read. -/
def withSession (r : EpiRd) (id : Nat) (malformed : String) (handle : SessPtr → Server) : Server :=
  if r.err then refuse srv c ans .protocol malformed
  else
    match findSession srv id false with
    | none => refuse srv c ans .notFound "no such session"
    | some s => handle s

def handleAttach (r : EpiRd) : Server :=
  let (id, r) := epiRdU64 r
  withSession srv c ans r id "malformed ATTACH" fun s =>
    let client := (srv.sess s).client
    let srv := if client ≠ none ∧ client ≠ some c then detachClient srv s else srv
    bindClient srv c ans s

def markKilled (s : SessPtr) (clock : Timespec) : Server :=
  let k := srv.sess s
  let deadline : Timespec := ⟨clock.nanos + killGraceMs / 1000 * 1000000000⟩
  let srv := srv.modSess s fun k => { k with killing := true, removed := true, killDeadline := deadline }
  gcGroupIfEmpty (noteLeft (srv.emit (.killed s deadline)) s k) k.groupId

def handleKill (r : EpiRd) : Server :=
  let (id, r) := epiRdU64 r
  withSession srv c ans r id "malformed KILL" fun s =>
    let srv := detachClient srv s
    if !(srv.sess s).alive then acknowledge (removeSession srv s) c ans
    else acknowledge (markKilled (epiSessionHangup srv s) s ans.clock) c ans

def handleResize (r : EpiRd) : Server :=
  let (id, r) := epiRdU64 r
  let (rows, r) := epiRdU16 r
  let (cols, r) := epiRdU16 r
  withSession srv c ans r id "malformed RESIZE" fun s =>
    acknowledge (epiSessionResize srv s rows cols) c ans

def handleDetach (r : EpiRd) : Server :=
  let (id, r) := epiRdU64 r
  withSession srv c ans r id "malformed DETACH" fun s => acknowledge (detachClient srv s) c ans

def handlePeek (r : EpiRd) : Server :=
  let (id, r) := epiRdU64 r
  let (maxBytes, r) := if r.more then epiRdU32 r else (epiPeekDefaultBytes, r)
  withSession srv c ans r id "malformed PEEK" fun s =>
    let out := (srv.sess s).out
    let tail := (out.snapshotTail maxBytes ans.snapAlloc).getD []
    let b := epiMsgStart ans.bufAlloc .peekReply
    let b := epiBufPutU64 ans.bufAlloc b (srv.sess s).id
    let b := epiBufPutBlob ans.bufAlloc b tail
    reply srv c ans (epiBufPutU64 ans.bufAlloc b out.ring.size)

def epiGroupNew (blob : Bytes) : Option Group :=
  if !ans.groupAlloc then none
  else if blob ≠ [] ∧ !ans.blobAlloc then none
  else some ⟨0, blob, ans.now⟩

def linkGroup (g : Group) : Server :=
  let id := srv.nextGroupId + 1
  { srv with nextGroupId := id, groups := { g with id := id } :: srv.groups }.emit (.groupCreated id)

def handleGroupNew (r : EpiRd) : Server :=
  let (blob, r) := if r.more then epiRdBlob ans.rdAlloc r else (none, r)
  let blob := blob.getD []
  if r.err then refuse srv c ans .protocol "malformed GROUP_NEW"
  else if epiGroupBlobMax < blob.length then
    refuse srv c ans .tooLarge "blob exceeds maximum size"
  else if epiGroupMax ≤ countGroups srv then refuse srv c ans .tooLarge "too many groups"
  else
    match epiGroupNew ans blob with
    | none => refuse srv c ans .internal "out of memory"
    | some g =>
      let srv := linkGroup srv g
      let b := epiMsgStart ans.bufAlloc .groupId
      reply srv c ans (epiBufPutU64 ans.bufAlloc b srv.nextGroupId)

def setGroupBlob (gid : Nat) (blob : Bytes) : Server :=
  { srv with groups := srv.groups.map fun g => if g.id = gid then { g with blob := blob } else g }

def handleGroupSet (r : EpiRd) : Server :=
  let (gid, r) := epiRdU64 r
  let (blob, r) := epiRdBlob ans.rdAlloc r
  let blob := blob.getD []
  if r.err then refuse srv c ans .protocol "malformed GROUP_SET"
  else if epiGroupBlobMax < blob.length then
    refuse srv c ans .tooLarge "blob exceeds maximum size"
  else
    match findGroup srv gid with
    | none => refuse srv c ans .notFound "no such group"
    | some _ =>
      if blob ≠ [] ∧ !ans.blobAlloc then refuse srv c ans .internal "out of memory"
      else acknowledge (setGroupBlob srv gid blob) c ans

/-- The assignment to group_id, with the memberships it begins and ends. -/
def assignGroup (s : SessPtr) (gid : Nat) : Server :=
  let k := srv.sess s
  let srv := srv.modSess s fun k => { k with groupId := gid }
  if k.groupId = gid then srv
  else noteLeft (if gid = 0 then srv else srv.emit (.groupJoined gid s)) s k

def handleGroupAdd (r : EpiRd) : Server :=
  let (gid, r) := epiRdU64 r
  let (sid, r) := epiRdU64 r
  if r.err then refuse srv c ans .protocol "malformed GROUP_ADD"
  else if findGroup srv gid = none then refuse srv c ans .notFound "no such group"
  else
    match findSession srv sid false with
    | none => refuse srv c ans .notFound "no such session"
    | some s =>
      let was := (srv.sess s).groupId
      let srv := assignGroup srv s gid
      acknowledge (if was ≠ gid then gcGroupIfEmpty srv was else srv) c ans

def handleGroupRemove (r : EpiRd) : Server :=
  let (sid, r) := epiRdU64 r
  withSession srv c ans r sid "malformed GROUP_REMOVE" fun s =>
    acknowledge (gcGroupIfEmpty (assignGroup srv s 0) (srv.sess s).groupId) c ans

/-- The inner walk of handle_group_list. -/
def putMembers (b : EpiBuf) (gid : Nat) : EpiBuf :=
  srv.sessions.foldl
    (fun b s => if sessionInGroup (srv.sess s) gid then epiBufPutU64 ans.bufAlloc b (srv.sess s).id else b) b

theorem putMembers_eq (b : EpiBuf) (gid : Nat) :
    putMembers srv ans b gid =
      (groupMembers srv gid).foldl (fun b s => epiBufPutU64 ans.bufAlloc b (srv.sess s).id) b := by
  rw [putMembers, ← List.foldl_filter]
  rfl

def putGroup (b : EpiBuf) (g : Group) : EpiBuf :=
  let b := epiBufPutU64 ans.bufAlloc b g.id
  let b := epiBufPutU64 ans.bufAlloc b g.createdAt
  let b := epiBufPutBlob ans.bufAlloc b g.blob
  let b := epiBufPutU32 ans.bufAlloc b (countGroupMembers srv g.id)
  putMembers srv ans b g.id

def handleGroupList : Server :=
  let b := epiMsgStart ans.bufAlloc .groupListReply
  let b := epiBufPutU64 ans.bufAlloc b srv.instanceId
  let b := epiBufPutU32 ans.bufAlloc b (countGroups srv)
  reply srv c ans (srv.groups.foldl (putGroup srv ans) b)

def dispatchFrame (type : Nat) (body : Bytes) : Server :=
  let r := epiRdInit body
  match EpiMsgType.ofRequest type with
  | some .create => handleCreate srv c ans r
  | some .list => handleList srv c ans
  | some .attach => handleAttach srv c ans r
  | some .kill => handleKill srv c ans r
  | some .resize => handleResize srv c ans r
  | some .detach => handleDetach srv c ans r
  | some .peek => handlePeek srv c ans r
  | some .groupNew => handleGroupNew srv c ans r
  | some .groupSet => handleGroupSet srv c ans r
  | some .groupAdd => handleGroupAdd srv c ans r
  | some .groupRemove => handleGroupRemove srv c ans r
  | some .groupList => handleGroupList srv c ans
  | _ => refuse srv c ans .protocol "unknown message type"

end Handlers

end Epimone.Daemon
