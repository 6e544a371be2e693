import Epimone.Daemon.Session

/-! # Connections, sessions and groups of the server

The buffer helpers of a connection, the bookkeeping of sessions and groups, and
the four places where a connection and a session let go of each other:
`detachClient`, `removeSession`, `connClose` and, for the attach itself,
`bindClient`.
-/
set_option autoImplicit false

namespace Epimone.Daemon

def Connection.growthFails (k : Connection) (len : Nat) (alloc : Bool) : Bool :=
  decide (k.wcap < k.unsent.length + len) && !alloc

def connQueue (k : Connection) (data : Bytes) (alloc : Bool) : Connection :=
  if data = [] then k
  else
    let k := if 0 < k.wpos then { k with wbuf := k.wbuf.drop k.wpos, wpos := 0 } else k
    if k.growthFails data.length alloc then { k with wantClose := true }
    else
      let k :=
        if k.wcap < k.wlen + data.length then
          { k with wcap := grownCapacity (k.wlen + data.length) k.wcap }
        else k
      let k := { k with wbuf := k.wbuf ++ data }
      if maxWbuf < k.wlen - k.wpos then { k with wantClose := true } else k

/-- A call of conn_queue on a connection of the server. -/
def enqueue (srv : Server) (c : ConnPtr) (data : Bytes) (relay alloc : Bool) : Server :=
  let k := srv.conn c
  if data = [] then srv
  else
    let failed := k.growthFails data.length alloc
    let srv := srv.emit (.enqueued c ⟨k.unsent.length, data.length, k.polled, k.wantClose, relay, failed⟩)
    let srv := if failed then srv.emit (.allocFailed c) else srv
    srv.modConn c fun k => connQueue k data alloc

def connQueueFrame (srv : Server) (c : ConnPtr) (b : EpiBuf) (alloc : Bool) : Server :=
  if b.oom then srv.emit (.allocFailed c) else enqueue srv c b.data false alloc

def sendError (srv : Server) (c : ConnPtr) (code : EpiErrCode) (msg : String)
    (bufAlloc : Nat → Bool) (alloc : Bool) : Server :=
  let b := epiMsgStart bufAlloc .error
  let b := epiBufPutU32 bufAlloc b code.code
  let b := epiBufPutStr bufAlloc b (ascii msg)
  connQueueFrame srv c (epiMsgEnd b) alloc

def sendOk (srv : Server) (c : ConnPtr) (bufAlloc : Nat → Bool) (alloc : Bool) : Server :=
  connQueueFrame srv c (epiMsgEnd (epiMsgStart bufAlloc .ok)) alloc

def putSessionInfo (bufAlloc : Nat → Bool) (b : EpiBuf) (k : Session) : EpiBuf :=
  let b := epiBufPutU64 bufAlloc b k.id
  let b := epiBufPutU32 bufAlloc b k.pid
  let b := epiBufPutU8 bufAlloc b (if k.alive then 1 else 0)
  let b := epiBufPutU8 bufAlloc b (if k.client.isSome then 1 else 0)
  let b := epiBufPutU64 bufAlloc b k.createdAt
  epiBufPutStr bufAlloc b (k.cwd.getD [])

def connUpdate (srv : Server) (c : ConnPtr) : Server :=
  srv.modConn c fun k => { k with events := some ⟨true, decide (k.wpos < k.wlen), true, false, false⟩ }

def ptyUpdate (srv : Server) (s : SessPtr) : Server :=
  if !(srv.sess s).ptyOpen then srv
  else
    srv.modSess s fun k => { k with ptyEvents := some ⟨true, !k.pin.isEmpty, false, false, false⟩ }

/-- One call of write in conn_flush that hands over bytes. -/
def writeSome (srv : Server) (c : ConnPtr) (n : Nat) : Server :=
  (srv.emit (.wrote c ((srv.conn c).unsent.take n))).modConn c fun k =>
    { k with wpos := k.wpos + min n k.unsent.length }

def writeFails (srv : Server) (c : ConnPtr) : Server :=
  (srv.emit (.writeFailed c)).modConn c fun k => { k with wantClose := true }

def resetIfDrained (srv : Server) (c : ConnPtr) : Server :=
  srv.modConn c fun k => if k.wpos = k.wlen then { k with wpos := 0, wbuf := [] } else k

def connFlush (srv : Server) (c : ConnPtr) : List WriteOutcome → Server
  | [] => resetIfDrained srv c
  | outcome :: outcomes =>
    if (srv.conn c).wpos < (srv.conn c).wlen then
      match outcome with
      | .wrote 0 => writeFails srv c
      | .wrote (n + 1) => connFlush (writeSome srv c (n + 1)) c outcomes
      | .again => resetIfDrained srv c
      | .intr => connFlush srv c outcomes
      | .failed => writeFails srv c
    else resetIfDrained srv c

def findSession (srv : Server) (id : Nat) (allowRemoved : Bool) : Option SessPtr :=
  srv.sessions.find? fun s => (srv.sess s).id == id && (allowRemoved || !(srv.sess s).removed)

def findGroup (srv : Server) (id : Nat) : Option Group := srv.groups.find? fun g => g.id == id

def countGroups (srv : Server) : Nat := srv.groups.foldl (fun n _ => n + 1) 0

theorem countGroups_eq (srv : Server) : countGroups srv = srv.groups.length := by
  rw [countGroups, List.foldl_add_const, Nat.zero_add, Nat.one_mul]

def sessionInGroup (k : Session) (gid : Nat) : Bool := !k.removed && k.groupId == gid

def countGroupMembers (srv : Server) (gid : Nat) : Nat :=
  srv.sessions.foldl (fun n s => if sessionInGroup (srv.sess s) gid then n + 1 else n) 0

def groupMembers (srv : Server) (gid : Nat) : List SessPtr :=
  srv.sessions.filter fun s => sessionInGroup (srv.sess s) gid

theorem countGroupMembers_eq (srv : Server) (gid : Nat) :
    countGroupMembers srv gid = (groupMembers srv gid).length := by
  rw [countGroupMembers, ← List.foldl_filter, List.foldl_add_const, Nat.zero_add, Nat.one_mul]
  rfl

def unlinkGroup (srv : Server) (g : Group) : Server :=
  { srv with groups := srv.groups.eraseP fun h => h.id == g.id }.emit (.groupGone g.id)

def gcGroupIfEmpty (srv : Server) (gid : Nat) : Server :=
  if gid = 0 then srv
  else
    match findGroup srv gid with
    | none => srv
    | some g => if 0 < countGroupMembers srv gid then srv else unlinkGroup srv g

/-- The membership that an operation has just ended, for the trace. -/
def noteLeft (srv : Server) (s : SessPtr) (k : Session) : Server :=
  if k.removed || k.groupId == 0 then srv else srv.emit (.groupLeft k.groupId s)

/-- The two pointers of an attachment are cleared and the socket is shut down. -/
def unbindClient (srv : Server) (s : SessPtr) (c : ConnPtr) : Server :=
  let srv := srv.modSess s fun k => { k with client := none }
  let srv := srv.modConn c fun k => { k with session := none, wantClose := true }
  (srv.emit (.detached c s)).emit (.shutdown c)

def closePty (srv : Server) (s : SessPtr) : Server :=
  (srv.emit (.ptyClosed s)).modSess s fun k => { k with ptyOpen := false, ptyEvents := none }

/-- The session leaves the list and is queued for the free at the end of the batch. -/
def unlinkSession (srv : Server) (s : SessPtr) : Server :=
  { srv with sessions := srv.sessions.erase s, dead := s :: srv.dead }.modSess s fun k =>
    { k with defunct := true }

def dropClient (srv : Server) (s : SessPtr) : Server :=
  match (srv.sess s).client with
  | none => srv
  | some c => unbindClient srv s c

def removeSession (srv : Server) (s : SessPtr) : Server :=
  let k := srv.sess s
  if k.defunct then srv
  else
    let srv := dropClient srv s
    let srv := if k.ptyOpen then closePty srv s else srv
    let srv := unlinkSession srv s
    gcGroupIfEmpty (noteLeft srv s k) k.groupId

def freeSession (srv : Server) (s : SessPtr) : Server :=
  (srv.modSess s fun _ => .blank).emit (.freed s)

def reapDead : List SessPtr → Server → Server
  | [], srv => srv
  | s :: rest, srv => reapDead rest (freeSession { srv with dead := rest } s)

def reapDeadSessions (srv : Server) : Server := reapDead srv.dead srv

def detachClient (srv : Server) (s : SessPtr) : Server :=
  match (srv.sess s).client with
  | none => srv
  | some c => connUpdate (unbindClient srv s c) c

def connClose (srv : Server) (c : ConnPtr) : Server :=
  let srv :=
    match (srv.conn c).session with
    | none => srv
    | some s => if (srv.sess s).client = some c then srv.modSess s fun k => { k with client := none } else srv
  let srv := { srv with conns := srv.conns.erase c }.emit (.closed c)
  (srv.modConn c fun _ => .blank).modIn c fun _ => ⟨[], 0⟩

end Epimone.Daemon
