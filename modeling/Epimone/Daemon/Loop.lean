import Epimone.Daemon.Events
import Epimone.Library.Transition

/-! # The event loop

epi_server_run as a machine. At the head of the loop it waits, then it
dispatches the events of the batch one by one, and the end of the batch frees
the removed sessions and serves the kill deadlines. Every head has a clock of
its own, the reading at which its wait begins; the walks over the deadlines
read the clock for each session some time before.
-/
set_option autoImplicit false

namespace Epimone.Daemon

open Transition

/-- An event epoll reports: which source, and what is ready on it. -/
inductive Ready where
  | listen
  | signal
  | pty (s : SessPtr) (ev : Events)
  | conn (c : ConnPtr) (ev : Events)
  deriving DecidableEq

def Ready.sameSource : Ready → Ready → Bool
  | .listen, .listen => true
  | .signal, .signal => true
  | .pty s _, .pty t _ => s == t
  | .conn c _, .conn d _ => c == d
  | _, _ => false

/-- Errors and hangups are always reported, the rest only on request. -/
def Events.within (reported requested : Events) : Bool :=
  (!reported.pollin || requested.pollin) && (!reported.pollout || requested.pollout) &&
    (!reported.rdhup || requested.rdhup)

def Ready.registered (srv : Server) : Ready → Bool
  | .listen => true
  | .signal => true
  | .pty s ev => (srv.sess s).ptyOpen && (srv.sess s).ptyEvents.any ev.within
  | .conn c ev => srv.conns.contains c && (srv.conn c).events.any ev.within

def distinctSources : List Ready → Bool
  | [] => true
  | ready :: batch => batch.all (fun other => !ready.sameSource other) && distinctSources batch

inductive Phase where
  | head (now : Timespec)
  | batch (events : List Ready)
  | stopped
  deriving DecidableEq

structure Loop where
  srv : Server
  phase : Phase

inductive Answers where
  | listen (outcomes : List AcceptOutcome)
  | signal (reads : List SignalRead)
  | pty (ans : PtyAnswers)
  | conn (ans : ConnAnswers)

inductive Input where
  | wait (early : SessPtr → Nat) (batch : List Ready)
  | interrupted (now : Timespec)
  | waitFails
  | dispatch (ans : Answers)
  | finish (now : Timespec) (early : SessPtr → Nat)

/-- What a walk before the head reads for each session. -/
def readings (now : Timespec) (early : SessPtr → Nat) (s : SessPtr) : Timespec := ⟨now.nanos - early s⟩

def dispatchPty (srv : Server) (s : SessPtr) (ev : Events) (ans : PtyAnswers) : Server :=
  if (srv.sess s).defunct then srv
  else
    let srv :=
      if ev.pollout then
        let srv := epiSessionFlushInput srv s ans.inputWrites
        if (srv.sess s).ptyOpen then ptyUpdate srv s else srv
      else srv
    if ev.pollin || ev.hup || ev.pollerr then ptyReadable srv s ans else srv

def settleConn (srv : Server) (c : ConnPtr) : Server :=
  let srv := if !(srv.conn c).wantClose then connUpdate srv c else srv
  if (srv.conn c).wantClose && decide ((srv.conn c).wlen = (srv.conn c).wpos) then connClose srv c
  else srv

def dispatchConn (srv : Server) (c : ConnPtr) (ev : Events) (ans : ConnAnswers) : Server :=
  let srv := if ev.pollout then connFlush srv c ans.writes else srv
  let srv := if ev.pollin || ev.rdhup || ev.hup || ev.pollerr then connRead srv c ans else srv
  settleConn srv c

def dispatchReady (srv : Server) : Ready → Answers → Option Server
  | .listen, .listen outcomes => some (acceptConn srv outcomes)
  | .signal, .signal reads => some (handleSignalfd srv reads)
  | .pty s ev, .pty ans => some (dispatchPty srv s ev ans)
  | .conn c ev, .conn ans => some (dispatchConn srv c ev ans)
  | _, _ => none

/-- What epoll_wait can return at the head of the loop. -/
def possibleBatch (srv : Server) (clock : SessPtr → Timespec) (batch : List Ready) : Bool :=
  decide (batch.length ≤ 64) && batch.all (Ready.registered srv) && distinctSources batch &&
    (!batch.isEmpty || decide (0 ≤ nextTimeout srv clock))

def finishBatch (srv : Server) (now : Timespec) (early : SessPtr → Nat) : Server :=
  processKillDeadlines (reapDeadSessions srv) (readings now early)

def Loop.step (loop : Loop) : Input → Option Loop
  | .wait early batch =>
    match loop.phase with
    | .head now =>
      if possibleBatch loop.srv (readings now early) batch then some ⟨loop.srv, .batch batch⟩ else none
    | _ => none
  | .interrupted now =>
    match loop.phase with
    | .head _ => some ⟨loop.srv, .head now⟩
    | _ => none
  | .waitFails =>
    match loop.phase with
    | .head _ => some ⟨loop.srv, .stopped⟩
    | _ => none
  | .dispatch ans =>
    match loop.phase with
    | .batch (ready :: rest) =>
      (dispatchReady loop.srv ready ans).map fun srv => ⟨srv, .batch rest⟩
    | _ => none
  | .finish now early =>
    match loop.phase with
    | .batch [] =>
      let srv := finishBatch loop.srv now early
      some ⟨srv, if srv.running then .head now else .stopped⟩
    | _ => none

/-- The daemon from the end of its initialisation on. -/
def machine (instanceId : Nat) : Machine Loop Input where
  init := ⟨Server.initial instanceId, .head ⟨0⟩⟩
  step := Loop.step

end Epimone.Daemon
