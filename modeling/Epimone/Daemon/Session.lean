import Epimone.Daemon.State

/-! # Sessions

The functions of session.c. A fork that succeeds puts the child among the
children of the daemon; the kernel never hands out the pid of a child that has
not been reaped, so an answer that names one counts as a failure. A call of
write that runs out of answers is answered by EAGAIN.
-/
set_option autoImplicit false

namespace Epimone.Daemon

/-- How write answers: a count, EAGAIN, EINTR, or another error. -/
inductive WriteOutcome where
  | wrote (n : Nat)
  | again
  | intr
  | failed
  deriving DecidableEq, Repr

/-- What one read can deliver. -/
structure Chunk where
  bytes : Bytes
  bounded : bytes.length ≤ ptyReadChunk

def Chunk.object (chunk : Chunk) : Object :=
  ⟨chunk.bytes, Nat.lt_of_le_of_lt chunk.bounded (by decide)⟩

/-- How read answers; no bytes at all stand for an end of file. -/
inductive ReadOutcome where
  | bytes (chunk : Chunk)
  | again
  | intr
  | failed

/-- What epi_session_spawn meets: its allocations, the environment and the calls on the child. -/
structure SpawnAnswers where
  sessionAlloc : Bool
  ringAlloc : Alloc
  cwdAlloc : Bool
  shell : Option Bytes
  home : Option Bytes
  pwDir : Option Bytes
  forkpty : Option Nat
  nonblock : Bool
  time : Nat

def Server.childOf (srv : Server) (pid : Nat) : Option SessPtr := srv.children.lookup pid

def Server.kill (srv : Server) (pid : Nat) (sig : Signal) : Server :=
  srv.emit (.signal (srv.childOf pid) pid sig)

def Server.forkpty (srv : Server) (answer : Option Nat) : Option Nat :=
  answer.filter fun pid => pid != 0 && (srv.childOf pid).isNone

def nonEmpty (s : Option Bytes) : Option Bytes := (s.map cString).filter (· != [])

def defaultCwd (home pwDir : Option Bytes) : Option Bytes :=
  let isAbsolute := fun path : Bytes => path.take 1 == ascii "/"
  (home.filter isAbsolute).or (pwDir.filter isAbsolute)

def epiSessionSpawn (srv : Server) (cwd : Option Bytes) (argv env : Option (List Bytes))
    (execPath : Option Bytes) (ans : SpawnAnswers) : Server × Option SessPtr :=
  if !ans.sessionAlloc then (srv, none)
  else
    match OutRing.init ans.ringAlloc with
    | none => (srv, none)
    | some out =>
      let shell := (nonEmpty ans.shell).getD (ascii "/bin/bash")
      let startCwd := (nonEmpty cwd).or (defaultCwd ans.home ans.pwDir)
      match srv.forkpty ans.forkpty with
      | none => (srv, none)
      | some pid =>
        let s := srv.nextSess
        let childArgv := (argv.map (List.map cString)).getD [shell]
        let childExec := (nonEmpty execPath).or childArgv.head?
        let srv := { srv with nextSess := s + 1, children := (pid, s) :: srv.children }
        let srv := srv.emit (.forked s pid startCwd childArgv (env.map (List.map cString)) childExec)
        if !ans.nonblock then (srv.kill pid .hup, none)
        else
          (srv.modSess s fun _ =>
            { Session.blank with
              out := out
              pid := pid
              ptyOpen := true
              alive := true
              createdAt := ans.time
              cwd := if ans.cwdAlloc then some (startCwd.getD []) else none }, some s)

/-- The loop of epi_session_flush_input: the bytes that reach the PTY, and those left. -/
def flushPin (pin : Bytes) : List WriteOutcome → Bytes × Bytes
  | [] => ([], pin)
  | outcome :: outcomes =>
    if pin = [] then ([], [])
    else
      match outcome with
      | .wrote 0 => ([], [])
      | .wrote (n + 1) =>
        let (written, left) := flushPin (pin.drop (n + 1)) outcomes
        (pin.take (n + 1) ++ written, left)
      | .again => ([], pin)
      | .intr => flushPin pin outcomes
      | .failed => ([], [])

def epiSessionFlushInput (srv : Server) (s : SessPtr) (outcomes : List WriteOutcome) : Server :=
  if !(srv.sess s).ptyOpen then srv.modSess s fun k => { k with pin := [] }
  else
    let (written, left) := flushPin (srv.sess s).pin outcomes
    (srv.emit (.ptyWrote s written)).modSess s fun k => { k with pin := left }

/-- The doubling of a buffer that starts at one page. -/
def grownCapacity (need cap : Nat) : Nat :=
  doubleCapacity need need 64 (if cap = 0 then 4096 else cap)

def epiSessionQueueInput (srv : Server) (s : SessPtr) (data : Bytes) (alloc : Bool)
    (outcomes : List WriteOutcome) : Server :=
  let k := srv.sess s
  if data = [] then srv
  else if k.pin.length + data.length ≤ k.pinCap then
    epiSessionFlushInput (srv.modSess s fun k => { k with pin := k.pin ++ data }) s outcomes
  else if alloc then
    let cap := grownCapacity (k.pin.length + data.length) k.pinCap
    epiSessionFlushInput (srv.modSess s fun k => { k with pin := k.pin ++ data, pinCap := cap }) s
      outcomes
  else srv

def epiSessionResize (srv : Server) (s : SessPtr) (rows cols : Nat) : Server :=
  if !(srv.sess s).ptyOpen then srv else srv.emit (.winsize s rows cols)

def epiSessionHangup (srv : Server) (s : SessPtr) : Server :=
  let k := srv.sess s
  if k.alive ∧ 0 < k.pid then srv.kill k.pid .hup else srv

def epiSessionKill (srv : Server) (s : SessPtr) : Server :=
  let k := srv.sess s
  if k.alive ∧ 0 < k.pid then srv.kill k.pid .kill else srv

end Epimone.Daemon
