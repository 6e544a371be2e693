import Epimone.Daemon.Loop

/-! # The actions of the daemon

Every event handler is a sequence of the actions below. `Act.guard` says what
is known where the handlers take the action, `Act.effects` what the action adds
to the trace. An invariant of the daemon is proved once for each action.
-/
set_option autoImplicit false

namespace Epimone.Daemon

open Transition

inductive Act where
  | queue (c : ConnPtr) (data : Bytes) (alloc : Bool)
  | starve (c : ConnPtr)
  | attach (c : ConnPtr) (s : SessPtr) (ans : FrameAnswers)
  | unbind (s : SessPtr) (c : ConnPtr)
  | update (c : ConnPtr)
  | closePty (s : SessPtr)
  | unlink (s : SessPtr)
  | kill (s : SessPtr) (clock : Timespec)
  | fork (pid : Nat) (cwd : Option Bytes) (argv : List Bytes) (env : Option (List Bytes))
      (exec : Option Bytes)
  | create (pid : Nat) (cwd : Option Bytes) (argv : List Bytes) (env : Option (List Bytes))
      (exec : Option Bytes) (k : Session)
  | watchPty (s : SessPtr)
  | signal (pid : Nat) (sig : Signal)
  | winsize (s : SessPtr) (rows cols : Nat)
  | newGroup (g : Group)
  | setBlob (gid : Nat) (blob : Bytes)
  | move (s : SessPtr) (gid : Nat)
  | store (c : ConnPtr) (data : Bytes)
  | consume (c : ConnPtr) (used : Nat)
  | freeInbound (c : ConnPtr)
  | condemn (c : ConnPtr)
  | frame (c : ConnPtr) (type : Nat) (body : Bytes)
  | framingError (c : ConnPtr)
  | input (s : SessPtr) (c : ConnPtr) (data : Bytes)
  | setPin (s : SessPtr) (pin : Bytes) (cap : Nat)
  | writePin (s : SessPtr) (data left : Bytes)
  | updatePty (s : SessPtr)
  | write (c : ConnPtr) (n : Nat)
  | failWrite (c : ConnPtr)
  | reset (c : ConnPtr)
  | read (s : SessPtr) (chunk : Chunk) (ringAlloc : Alloc)
  | relay (s : SessPtr) (c : ConnPtr) (chunk : Chunk) (ringAlloc : Alloc) (queueAlloc : Bool)
  | relayed (c : ConnPtr)
  | ptyHangup (s : SessPtr)
  | eof (s : SessPtr) (c : ConnPtr)
  | shutdown (c : ConnPtr)
  | reap (pid status : Nat) (child : SessPtr)
  | stop
  | openConn
  | watchConn (c : ConnPtr)
  | close (c : ConnPtr)
  | free (s : SessPtr) (rest : List SessPtr)
  | escalate (s : SessPtr)

def forked (srv : Server) (pid : Nat) (cwd : Option Bytes) (argv : List Bytes)
    (env : Option (List Bytes)) (exec : Option Bytes) : Server :=
  { srv with nextSess := srv.nextSess + 1, children := (pid, srv.nextSess) :: srv.children }.emit
    (.forked srv.nextSess pid cwd argv env exec)

def moveSession (srv : Server) (s : SessPtr) (gid : Nat) : Server :=
  let was := (srv.sess s).groupId
  let srv := assignGroup srv s gid
  if was ≠ gid then gcGroupIfEmpty srv was else srv

def unlinkMember (srv : Server) (s : SessPtr) : Server :=
  gcGroupIfEmpty (noteLeft (unlinkSession srv s) s (srv.sess s)) (srv.sess s).groupId

/-- The child has been waited for; the first session of the list with its pid is dead. -/
def markReaped (srv : Server) (pid status : Nat) (child : SessPtr) : Server :=
  let srv := { srv with children := srv.children.filter fun e => e.1 != pid }.emit (.reaped child)
  match srv.sessions.find? fun s => (srv.sess s).pid == pid with
  | none => srv
  | some s => srv.modSess s fun k => { k with alive := false, exitStatus := status }

def readOutput (srv : Server) (s : SessPtr) (chunk : Chunk) (ringAlloc : Alloc) : Server :=
  (srv.emit (.ptyRead s chunk.bytes (srv.sess s).client)).modSess s fun k =>
    { k with out := k.out.write chunk.object ringAlloc }

def Act.perform (srv : Server) : Act → Server
  | .queue c data alloc => enqueue srv c data false alloc
  | .starve c => srv.emit (.allocFailed c)
  | .attach c s ans => bindClient srv c ans s
  | .unbind s c => unbindClient srv s c
  | .update c => connUpdate srv c
  | .closePty s => Daemon.closePty srv s
  | .unlink s => unlinkMember srv s
  | .kill s clock => markKilled srv s clock
  | .fork pid cwd argv env exec => forked srv pid cwd argv env exec
  | .create pid cwd argv env exec k =>
    linkSession ((forked srv pid cwd argv env exec).modSess srv.nextSess fun _ => k) srv.nextSess
  | .watchPty s => Daemon.watchPty srv s
  | .signal pid sig => srv.kill pid sig
  | .winsize s rows cols => srv.emit (.winsize s rows cols)
  | .newGroup g => linkGroup srv g
  | .setBlob gid blob => setGroupBlob srv gid blob
  | .move s gid => moveSession srv s gid
  | .store c data => storeInbound srv c data
  | .consume c used => srv.modIn c fun b => { b with rbuf := b.rbuf.drop used }
  | .freeInbound c => Daemon.freeInbound srv c
  | .condemn c => Daemon.condemn srv c
  | .frame c type body => srv.emit (.frame c type body (srv.conn c).unsent.length)
  | .framingError c =>
    srv.emit (.framingError c (srv.conn c).unsent.length (srv.conn c).polled)
  | .input s c data => srv.emit (.input s c data)
  | .setPin s pin cap => srv.modSess s fun k => { k with pin := pin, pinCap := cap }
  | .writePin s data left => (srv.emit (.ptyWrote s data)).modSess s fun k => { k with pin := left }
  | .updatePty s =>
    srv.modSess s fun k => { k with ptyEvents := some ⟨true, !k.pin.isEmpty, false, false, false⟩ }
  | .write c n => writeSome srv c n
  | .failWrite c => writeFails srv c
  | .reset c => resetIfDrained srv c
  | .read s chunk ringAlloc => readOutput srv s chunk ringAlloc
  | .relay s c chunk ringAlloc queueAlloc =>
    enqueue (readOutput srv s chunk ringAlloc) c chunk.bytes true queueAlloc
  | .relayed c => noteRelayed srv c
  | .ptyHangup s => srv.emit (.ptyHangup s)
  | .eof _ c => Daemon.condemn (srv.emit (.eof c)) c
  | .shutdown c => srv.emit (.shutdown c)
  | .reap pid status child => markReaped srv pid status child
  | .stop => { srv with running := false }
  | .openConn => Daemon.openConn srv
  | .watchConn c => Daemon.watchConn srv c
  | .close c => connClose srv c
  | .free s rest => freeSession { srv with dead := rest } s
  | .escalate s => (epiSessionKill srv s).modSess s fun k => { k with killing := false }

/-- A session as epi_session_spawn hands it over. -/
structure Session.Fresh (k : Session) (pid : Nat) : Prop where
  pid_eq : k.pid = pid
  ptyOpen : k.ptyOpen = true
  alive : k.alive = true
  killing : k.killing = false
  removed : k.removed = false
  defunct : k.defunct = false
  groupId : k.groupId = 0
  client : k.client = none

def Effect.asks (c : ConnPtr) : Effect → Bool
  | .frame d _ _ _ | .framingError d _ _ => d == c
  | _ => false

/-- The connection has asked, and nothing has been queued for it since. -/
def Server.Awaiting (srv : Server) (c : ConnPtr) : Prop :=
  ∃ before e after, srv.trace = before ++ e :: after ∧ e.asks c = true ∧ ∀ q, .enqueued c q ∉ after

/-- Why a session is dropped: its child is dead, it was never killed, or its PTY has just hung up. -/
def Server.MayLeave (srv : Server) (s : SessPtr) : Prop :=
  (srv.sess s).alive = false ∨ (srv.sess s).removed = false ∨
    ∃ before after, srv.trace = before ++ .ptyHangup s :: after ∧ ∀ d, .killed s d ∉ after

def Act.guard (srv : Server) : Act → Prop
  | .queue c _ _ => c ∈ srv.conns ∧ (srv.conn c).isData = false ∧ srv.Awaiting c
  | .starve c => c ∈ srv.conns
  | .attach c s _ =>
    c ∈ srv.conns ∧ (srv.conn c).isData = false ∧ s ∈ srv.sessions ∧ (srv.sess s).removed = false ∧
      ((srv.sess s).client = none ∨ (srv.sess s).client = some c) ∧ srv.Awaiting c
  | .unbind s c => (srv.sess s).client = some c
  | .update c => c ∈ srv.conns
  | .closePty s => (srv.sess s).ptyOpen = true
  | .unlink s =>
    s ∈ srv.sessions ∧ (srv.sess s).client = none ∧ (srv.sess s).ptyOpen = false ∧ srv.MayLeave s
  | .kill s _ =>
    s ∈ srv.sessions ∧ (srv.sess s).client = none ∧ (srv.sess s).alive = true ∧
      (srv.sess s).removed = false
  | .fork pid .. => pid ≠ 0 ∧ srv.childOf pid = none
  | .create pid _ _ _ _ k => pid ≠ 0 ∧ srv.childOf pid = none ∧ k.Fresh pid
  | .watchPty s => s ∈ srv.sessions
  | .signal pid sig =>
    sig = .hup ∧ ((∃ s ∈ srv.sessions, (srv.sess s).alive = true ∧ (srv.sess s).pid = pid) ∨
      srv.childOf pid ≠ none)
  | .winsize s _ _ => s ∈ srv.sessions
  | .newGroup _ => True
  | .setBlob gid _ => findGroup srv gid ≠ none
  | .move s gid =>
    s ∈ srv.sessions ∧ (srv.sess s).removed = false ∧ (gid = 0 ∨ findGroup srv gid ≠ none)
  | .store c data => c ∈ srv.conns ∧ (srv.conn c).isData = false ∧ data.length ≤ ptyReadChunk
  | .consume c _ => c ∈ srv.conns
  | .freeInbound c => c ∈ srv.conns
  | .condemn c => c ∈ srv.conns
  | .frame c _ _ => c ∈ srv.conns ∧ (srv.conn c).isData = false
  | .framingError c => c ∈ srv.conns ∧ (srv.conn c).isData = false
  | .input s c _ => c ∈ srv.conns ∧ (srv.conn c).session = some s
  | .setPin .. => True
  | .writePin s _ _ => (srv.sess s).ptyOpen = true
  | .updatePty s => (srv.sess s).ptyOpen = true
  | .write c n => c ∈ srv.conns ∧ (srv.conn c).wpos < (srv.conn c).wlen ∧ 0 < n
  | .failWrite c => c ∈ srv.conns ∧ (srv.conn c).wpos < (srv.conn c).wlen
  | .reset c => c ∈ srv.conns
  | .read s _ _ => (srv.sess s).ptyOpen = true ∧ (srv.sess s).client = none
  | .relay s c chunk _ _ =>
    (srv.sess s).ptyOpen = true ∧ (srv.sess s).client = some c ∧ chunk.bytes ≠ []
  | .relayed c => c ∈ srv.conns
  | .ptyHangup s => (srv.sess s).ptyOpen = true
  | .eof s c => (srv.sess s).client = some c ∧ (srv.sess s).ptyOpen = false
  | .shutdown c =>
    c ∈ srv.conns ∧ (srv.conn c).wpos = (srv.conn c).wlen ∧ (srv.conn c).wantClose = true
  | .reap pid _ child => srv.childOf pid = some child
  | .stop => True
  | .openConn => True
  | .watchConn c => c ∈ srv.conns ∧ (srv.conn c).unsent = []
  | .close c => c ∈ srv.conns ∧ (srv.conn c).wpos = (srv.conn c).wlen
  | .free s rest => srv.dead = s :: rest
  | .escalate s => s ∈ srv.sessions ∧ (srv.sess s).killing = true ∧ (srv.sess s).alive = true

def actions : Actions Server Act := ⟨Act.perform, Act.guard⟩

end Epimone.Daemon
