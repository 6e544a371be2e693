import Epimone.Daemon.Requests

/-! # Event handlers

What the daemon does for one ready descriptor, and what it does after a batch.
The answers of the outside to one handler are collected in a record; the loops
of the C code that end with an error of a system call are recursions over the
list of answers, and a list that runs out stands for EAGAIN.
-/
set_option autoImplicit false

namespace Epimone.Daemon

/-- What a connection event meets: the flush, the read, and for each frame its own answers. -/
structure ConnAnswers where
  writes : List WriteOutcome
  read : ReadOutcome
  rbufAlloc : Bool
  frames : Nat → FrameAnswers
  bufAlloc : Nat → Bool
  queueAlloc : Bool
  pinAlloc : Bool
  ptyWrites : List WriteOutcome

def condemn (srv : Server) (c : ConnPtr) : Server :=
  srv.modConn c fun k => { k with wantClose := true }

def dataToPty (srv : Server) (c : ConnPtr) (data : Bytes) (ans : ConnAnswers) : Server :=
  match (srv.conn c).session with
  | none => srv
  | some s =>
    let srv := epiSessionQueueInput (srv.emit (.input s c data)) s data ans.pinAlloc ans.ptyWrites
    ptyUpdate srv s

def rejectFrame (srv : Server) (c : ConnPtr) (code : EpiErrCode) (msg : String) (ans : ConnAnswers) :
    Server :=
  let k := srv.conn c
  let srv := srv.emit (.framingError c k.unsent.length k.polled)
  condemn (sendError srv c code msg ans.bufAlloc ans.queueAlloc) c

def freeInbound (srv : Server) (c : ConnPtr) : Server := srv.modIn c fun _ => ⟨[], 0⟩

/-- The parse loop of conn_read from the offset `used` on; the offset it ends with, none when the
connection became a data channel. Every turn consumes a frame, so the fuel is never short. -/
def frameLoop (c : ConnPtr) (ans : ConnAnswers) : Nat → Nat → Server → Nat → Server × Option Nat
  | 0, _, srv, used => (srv, some used)
  | fuel + 1, turn, srv, used =>
    let p := (srv.inbuf c).rbuf.drop used
    if p.length < 4 then (srv, some used)
    else
      let flen := ofLittleEndian (p.take 4)
      if flen < 4 then (rejectFrame srv c .protocol "short frame" ans, some used)
      else if maxFrame < flen then (rejectFrame srv c .tooLarge "frame too large" ans, some used)
      else if p.length - 4 < flen then (srv, some used)
      else
        let type := ofLittleEndian ((p.drop 4).take 4)
        let body := (p.drop 8).take (flen - 4)
        let srv := srv.emit (.frame c type body (srv.conn c).unsent.length)
        let srv := dispatchFrame srv c (ans.frames turn) type body
        let used := used + (4 + flen)
        if (srv.conn c).isData then
          let rest := (srv.inbuf c).rbuf.drop used
          let srv := if rest = [] then srv else dataToPty srv c rest ans
          (freeInbound srv c, none)
        else if (srv.conn c).wantClose then (srv, some used)
        else frameLoop c ans fuel (turn + 1) srv used

def InBuf.growthFails (b : InBuf) (len : Nat) (alloc : Bool) : Bool :=
  decide (b.rcap < b.rbuf.length + len) && !alloc

/-- The bytes of one read are appended to the inbound buffer. -/
def storeInbound (srv : Server) (c : ConnPtr) (data : Bytes) : Server :=
  (srv.emit (.received c data (srv.conn c).wantClose)).modIn c fun b =>
    let need := b.rbuf.length + data.length
    { rbuf := b.rbuf ++ data, rcap := if b.rcap < need then grownCapacity need b.rcap else b.rcap }

def dropConsumed (srv : Server) (c : ConnPtr) (used : Nat) : Server :=
  if 0 < used then srv.modIn c fun b => { b with rbuf := b.rbuf.drop used } else srv

def handleInbound (srv : Server) (c : ConnPtr) (data : Bytes) (ans : ConnAnswers) : Server :=
  if (srv.conn c).isData then dataToPty srv c data ans
  else if (srv.inbuf c).growthFails data.length ans.rbufAlloc then condemn srv c
  else
    let srv := storeInbound srv c data
    match frameLoop c ans (srv.inbuf c).rbuf.length 0 srv 0 with
    | (srv, none) => srv
    | (srv, some used) => dropConsumed srv c used

def connRead (srv : Server) (c : ConnPtr) (ans : ConnAnswers) : Server :=
  match ans.read with
  | .bytes chunk => if chunk.bytes = [] then condemn srv c else handleInbound srv c chunk.bytes ans
  | .again => srv
  | .intr => srv
  | .failed => condemn srv c

/-- One turn of the loop of accept_conn: a connection, with calloc and ep_add succeeding or not,
EINTR, or an error. -/
inductive AcceptOutcome where
  | accepted (alloc added : Bool)
  | intr
  | failed

def openConn (srv : Server) : Server :=
  let c := srv.nextConn
  let srv := { srv with nextConn := c + 1, conns := c :: srv.conns }
  (srv.modConn c fun _ => .blank).modIn c fun _ => ⟨[], 0⟩

def watchConn (srv : Server) (c : ConnPtr) : Server :=
  srv.modConn c fun k => { k with events := some ⟨true, false, true, false, false⟩ }

def acceptConn (srv : Server) : List AcceptOutcome → Server
  | [] => srv
  | .accepted false _ :: outcomes => acceptConn srv outcomes
  | .accepted true added :: outcomes =>
    let c := srv.nextConn
    let srv := openConn srv
    acceptConn (if added then watchConn srv c else connClose srv c) outcomes
  | .intr :: outcomes => acceptConn srv outcomes
  | .failed :: _ => srv

/-- The end of client_eof, after the flush. -/
def closeAfterDrain (srv : Server) (c : ConnPtr) : Server :=
  let srv := condemn (srv.emit (.eof c)) c
  let srv := if (srv.conn c).wpos = (srv.conn c).wlen then srv.emit (.shutdown c) else srv
  connUpdate srv c

def clientEof (srv : Server) (s : SessPtr) (writes : List WriteOutcome) : Server :=
  match (srv.sess s).client with
  | none => srv
  | some c => closeAfterDrain (connFlush srv c writes) c

/-- One read of a PTY and what its bytes meet on the way to the client. -/
structure PtyRead where
  outcome : ReadOutcome
  ringAlloc : Alloc
  queueAlloc : Bool
  writes : List WriteOutcome

structure PtyAnswers where
  inputWrites : List WriteOutcome
  reads : List PtyRead
  eofWrites : List WriteOutcome

/-- What a read of the PTY has returned, and for whom, for the trace. -/
def noteRead (srv : Server) (s : SessPtr) (chunk : Chunk) : Server :=
  srv.emit (.ptyRead s chunk.bytes (srv.sess s).client)

/-- The output goes into the ring and behind the output queued for the client. -/
def relayOutput (srv : Server) (s : SessPtr) (chunk : Chunk) (read : PtyRead) : Server :=
  let client := (srv.sess s).client
  let srv := srv.modSess s fun k => { k with out := k.out.write chunk.object read.ringAlloc }
  match client with
  | none => srv
  | some c => enqueue srv c chunk.bytes true read.queueAlloc

def noteRelayed (srv : Server) (c : ConnPtr) : Server :=
  srv.emit (.relayed c (srv.conn c).unsent.length (srv.conn c).wantClose)

def ptyOutput (srv : Server) (s : SessPtr) (chunk : Chunk) (read : PtyRead) : Server :=
  let client := (srv.sess s).client
  let srv := relayOutput srv s chunk read
  match client with
  | none => srv
  | some c => noteRelayed (connUpdate (connFlush srv c read.writes) c) c

def ptyHangup (srv : Server) (s : SessPtr) (eofWrites : List WriteOutcome) : Server :=
  let srv := closePty (srv.emit (.ptyHangup s)) s
  if (srv.sess s).removed then removeSession srv s else clientEof srv s eofWrites

def ptyReadLoop (s : SessPtr) (eofWrites : List WriteOutcome) : List PtyRead → Server → Server
  | [], srv => srv
  | read :: reads, srv =>
    match read.outcome with
    | .bytes chunk =>
      if chunk.bytes = [] then ptyHangup srv s eofWrites
      else ptyReadLoop s eofWrites reads (ptyOutput (noteRead srv s chunk) s chunk read)
    | .again => srv
    | .intr => ptyReadLoop s eofWrites reads srv
    | .failed => ptyHangup srv s eofWrites

def ptyReadable (srv : Server) (s : SessPtr) (ans : PtyAnswers) : Server :=
  if (srv.sess s).defunct || !(srv.sess s).ptyOpen then srv
  else ptyReadLoop s ans.eofWrites ans.reads srv

/-- One turn of the loop of reap_children, for a pid waitpid can return. -/
def reapChild (srv : Server) (pid status : Nat) : Server :=
  match srv.childOf pid with
  | none => srv
  | some child =>
    let srv := { srv with children := srv.children.filter fun e => e.1 != pid }.emit (.reaped child)
    match srv.sessions.find? fun s => (srv.sess s).pid == pid with
    | none => srv
    | some s =>
      let srv := srv.modSess s fun k => { k with alive := false, exitStatus := status }
      if (srv.sess s).removed then removeSession srv s else srv

def reapChildren : List (Nat × Nat) → Server → Server
  | [], srv => srv
  | (pid, status) :: waits, srv => reapChildren waits (reapChild srv pid status)

/-- A signal read from the signalfd; with SIGCHLD, what waitpid returns one after the other. -/
inductive SignalRead where
  | chld (waits : List (Nat × Nat))
  | term
  | other

def handleSignalfd (srv : Server) : List SignalRead → Server
  | [] => srv
  | .chld waits :: reads => handleSignalfd (reapChildren waits srv) reads
  | .term :: _ => { srv with running := false }
  | .other :: reads => handleSignalfd srv reads

def msUntil (deadline now : Timespec) : Int :=
  ((deadline.sec : Int) - now.sec) * 1000 + Int.tdiv ((deadline.nsec : Int) - now.nsec) 1000000

/-- The epoll timeout; the clock is read again for each session. -/
def nextTimeout (srv : Server) (clock : SessPtr → Timespec) : Int :=
  srv.sessions.foldl (fun best s =>
    let k := srv.sess s
    if k.killing && k.alive then
      let ms := max 0 (msUntil k.killDeadline (clock s))
      if best < 0 ∨ ms < best then ms else best
    else best) (-1)

def escalate (srv : Server) (s : SessPtr) (now : Timespec) : Server :=
  let k := srv.sess s
  if k.killing && k.alive && decide (msUntil k.killDeadline now ≤ 0) then
    (epiSessionKill srv s).modSess s fun k => { k with killing := false }
  else srv

def escalateAll (clock : SessPtr → Timespec) : List SessPtr → Server → Server
  | [], srv => srv
  | s :: rest, srv => escalateAll clock rest (escalate srv s (clock s))

def processKillDeadlines (srv : Server) (clock : SessPtr → Timespec) : Server :=
  escalateAll clock srv.sessions srv

end Epimone.Daemon
