import Epimone.RingRefinement
import Epimone.Wire
import Mathlib.Logic.Function.Basic

/-! # The state of the daemon

Sessions and connections live in two heaps and are named by pointers, as the C
structures are; the lists of the server hold pointers. A pointer is never used
twice. The children are the kernel's: the processes forked by the daemon and
not yet reaped, each with the session it was forked for. The trace records the
system calls that reach the outside and the points of the code the laws of the
daemon are about; no function of the daemon reads it.
-/
set_option autoImplicit false

namespace Epimone.Daemon

abbrev SessPtr := Nat

abbrev ConnPtr := Nat

def killGraceMs : Nat := 2000

def maxWbuf : Nat := 8 * 1024 * 1024

def ptyReadChunk : Nat := 65536

def maxFrame : Nat := 8 * 1024 * 1024

/-- A reading of CLOCK_MONOTONIC. -/
structure Timespec where
  nanos : Nat
  deriving DecidableEq, Repr, Inhabited

def Timespec.sec (t : Timespec) : Nat := t.nanos / 1000000000

def Timespec.nsec (t : Timespec) : Nat := t.nanos % 1000000000

/-- Which events epoll watches, or reports, on a descriptor. -/
structure Events where
  pollin : Bool
  pollout : Bool
  rdhup : Bool
  hup : Bool
  pollerr : Bool
  deriving DecidableEq, Repr, Inhabited

inductive Signal where
  | hup | kill
  deriving DecidableEq, Repr

structure Session where
  id : Nat
  groupId : Nat
  pid : Nat
  ptyOpen : Bool
  alive : Bool
  killing : Bool
  removed : Bool
  defunct : Bool
  createdAt : Nat
  exitStatus : Nat
  cwd : Option Bytes
  out : OutRing
  pin : Bytes
  pinCap : Nat
  client : Option ConnPtr
  ptyEvents : Option Events
  killDeadline : Timespec

/-- A connection but for its inbound buffer; `wbuf` holds the first wlen bytes of the buffer. -/
structure Connection where
  isData : Bool
  session : Option SessPtr
  wbuf : Bytes
  wpos : Nat
  wcap : Nat
  wantClose : Bool
  events : Option Events
  deriving DecidableEq, Inhabited

/-- The inbound half of a connection: `rbuf` holds the first rlen bytes. -/
structure InBuf where
  rbuf : Bytes
  rcap : Nat
  deriving DecidableEq, Inhabited

structure Group where
  id : Nat
  blob : Bytes
  createdAt : Nat
  deriving DecidableEq, Inhabited

def Connection.wlen (k : Connection) : Nat := k.wbuf.length

/-- The bytes queued and not yet handed to the socket. -/
def Connection.unsent (k : Connection) : Bytes := k.wbuf.drop k.wpos

def Connection.polled (k : Connection) : Bool := k.events.any Events.pollout

/-- What a call of conn_queue meets: the output already waiting, the size of the new piece, whether
the socket is watched for EPOLLOUT, whether the connection is already marked want_close, whether the
piece is PTY output, and whether the buffer could not grow. -/
structure Enqueue where
  unsent : Nat
  len : Nat
  polled : Bool
  condemned : Bool
  relay : Bool
  failed : Bool
  deriving DecidableEq, Repr

inductive Effect where
  | forked (s : SessPtr) (pid : Nat) (cwd : Option Bytes) (argv : List Bytes)
      (env : Option (List Bytes)) (exec : Option Bytes)
  | signal (child : Option SessPtr) (pid : Nat) (sig : Signal)
  | reaped (child : SessPtr)
  | created (s : SessPtr) (id : Nat)
  | killed (s : SessPtr) (deadline : Timespec)
  | freed (s : SessPtr)
  | ptyRead (s : SessPtr) (data : Bytes) (client : Option ConnPtr)
  | ptyWrote (s : SessPtr) (data : Bytes)
  | ptyHangup (s : SessPtr)
  | ptyClosed (s : SessPtr)
  | relayed (c : ConnPtr) (unsent : Nat) (condemned : Bool)
  | winsize (s : SessPtr) (rows cols : Nat)
  | input (s : SessPtr) (c : ConnPtr) (data : Bytes)
  | wrote (c : ConnPtr) (data : Bytes)
  | writeFailed (c : ConnPtr)
  | shutdown (c : ConnPtr)
  | closed (c : ConnPtr)
  | received (c : ConnPtr) (data : Bytes) (condemned : Bool)
  | frame (c : ConnPtr) (type : Nat) (body : Bytes) (unsent : Nat)
  | framingError (c : ConnPtr) (unsent : Nat) (polled : Bool)
  | enqueued (c : ConnPtr) (q : Enqueue)
  | allocFailed (c : ConnPtr)
  | attached (c : ConnPtr) (s : SessPtr) (unsent : Nat) (ring : Bytes)
  | detached (c : ConnPtr) (s : SessPtr)
  | eof (c : ConnPtr)
  | groupCreated (gid : Nat)
  | groupJoined (gid : Nat) (s : SessPtr)
  | groupLeft (gid : Nat) (s : SessPtr)
  | groupGone (gid : Nat)
  deriving DecidableEq

structure Server where
  nextId : Nat
  nextGroupId : Nat
  running : Bool
  instanceId : Nat
  sessions : List SessPtr
  dead : List SessPtr
  groups : List Group
  conns : List ConnPtr
  sess : SessPtr → Session
  conn : ConnPtr → Connection
  inbuf : ConnPtr → InBuf
  nextSess : SessPtr
  nextConn : ConnPtr
  children : List (Nat × SessPtr)
  trace : List Effect

namespace Server

def modSess (srv : Server) (s : SessPtr) (f : Session → Session) : Server :=
  { srv with sess := Function.update srv.sess s (f (srv.sess s)) }

def modConn (srv : Server) (c : ConnPtr) (f : Connection → Connection) : Server :=
  { srv with conn := Function.update srv.conn c (f (srv.conn c)) }

def modIn (srv : Server) (c : ConnPtr) (f : InBuf → InBuf) : Server :=
  { srv with inbuf := Function.update srv.inbuf c (f (srv.inbuf c)) }

def emit (srv : Server) (e : Effect) : Server := { srv with trace := srv.trace ++ [e] }

end Server

def Session.blank : Session :=
  { id := 0, groupId := 0, pid := 0, ptyOpen := false, alive := false, killing := false,
    removed := false, defunct := false, createdAt := 0, exitStatus := 0, cwd := none,
    out := .blank, pin := [], pinCap := 0, client := none, ptyEvents := none,
    killDeadline := ⟨0⟩ }

def Connection.blank : Connection :=
  { isData := false, session := none, wbuf := [], wpos := 0, wcap := 0, wantClose := false,
    events := none }

/-- The server after epi_server_init. -/
def Server.initial (instanceId : Nat) : Server :=
  { nextId := 0, nextGroupId := 0, running := true, instanceId := instanceId, sessions := [],
    dead := [], groups := [], conns := [], sess := fun _ => .blank, conn := fun _ => .blank,
    inbuf := fun _ => ⟨[], 0⟩, nextSess := 0, nextConn := 0, children := [], trace := [] }

end Epimone.Daemon
