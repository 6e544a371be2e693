import Epimone.Daemon.Splices

/-! # Two runs abreast

Two runs of the daemon that are the same but for requests that only ask, on
whatever connections and in whatever reads they come, and for what the sockets
of the connections take.
-/
set_option autoImplicit false

namespace Epimone.Daemon

open Transition

variable {srv srv' : Server} {c : ConnPtr} {s : SessPtr}

/-- At the end of the batch no session is freed and no kill deadline has passed. -/
def Server.Quiet (srv : Server) (now : Timespec) (early : SessPtr → Nat) : Prop :=
  srv.dead = [] ∧ ∀ s ∈ srv.sessions, (srv.sess s).killing = true → (srv.sess s).alive = true →
    0 < msUntil (srv.sess s).killDeadline (readings now early s)

section Steps

variable {loop loop' next next' : Loop} {i i' : Input} {here : List (Dispatch × Dispatch)}

/-- The frames of two lists are the same but for some that only ask, and those that the lists share meet servers that
only the connections can tell apart. -/
def Shared (log log' : List Dispatch) (pairs : List (Dispatch × Dispatch)) : Prop :=
  Spliced log log' pairs ∧ ∀ pair ∈ pairs, pair.1.Same pair.2 ∧ Beyond everyone pair.1.srv pair.2.srv

theorem Shared.none : Shared [] [] [] := ⟨.nil, List.forall_mem_nil _⟩

end Steps

section Walking

instance (srv : Server) (now : Timespec) (early : SessPtr → Nat) : Decidable (srv.Quiet now early) :=
  inferInstanceAs (Decidable (_ ∧ _))

/-- The frames that ask for more. -/
def demands (log : List Dispatch) : List (Nat × Bytes) :=
  (log.filter fun d => !decide (Asking d.type)).map fun d => (d.type, d.body)

/-- A way to go on in two runs: the same input in both, an event of a connection with the answers to each, all frames
being answered alike, or an input of the one or of the other. -/
inductive Move where
  | same (i : Input)
  | serve (frame : FrameAnswers) (ans ans' : ConnAnswers)
  | left (i : Input)
  | right (i : Input)

def ConnAnswers.steady (ans : ConnAnswers) (frame : FrameAnswers) : ConnAnswers := { ans with frames := fun _ => frame }

/-- As `steady`, with the PTY answering as in the other run. -/
def ConnAnswers.follow (ans' : ConnAnswers) (frame : FrameAnswers) (ans : ConnAnswers) : ConnAnswers :=
  { ans' with frames := fun _ => frame, pinAlloc := ans.pinAlloc, ptyWrites := ans.ptyWrites }

def Move.lefts : Move → List Input
  | .same i => [i]
  | .serve frame ans _ => [.dispatch (.conn (ans.steady frame))]
  | .left i => [i]
  | .right _ => []

def Move.rights : Move → List Input
  | .same i => [i]
  | .serve frame ans ans' => [.dispatch (.conn (ans'.follow frame ans))]
  | .left _ => []
  | .right i => [i]

variable (together : Bool)

def Loop.idles (loop : Loop) : Input → Bool
  | .finish now early => decide (loop.srv.Quiet now early)
  | .dispatch (.conn ans) =>
    match loop.phase with
    | .batch (.conn c ev :: _) =>
      (framesIn loop.srv c ev ans).all (fun d => decide (Asking d.type)) && decide (passedIn loop.srv c ev ans = []) &&
        (!together || !attachedIn loop.srv c ev ans || decide (c ∈ (dispatchConn loop.srv c ev ans).conns))
    | _ => false
  | .dispatch _ => false
  | _ => true

def Loop.agrees (loop loop' : Loop) : Input → Bool
  | .finish _ _ => true
  | .dispatch (.conn _) => false
  | .dispatch _ => decide (loop.pending.head? = loop'.pending.head?)
  | _ => false

def Loop.serves (loop loop' : Loop) (ans ans' : ConnAnswers) : Bool :=
  match loop.phase, loop'.phase with
  | .batch (.conn c ev :: _), .batch (.conn d ev' :: _) =>
    decide (c = d) && decide (demands (framesIn loop.srv c ev ans) = demands (framesIn loop'.srv c ev' ans')) &&
      decide (passedIn loop.srv c ev ans = passedIn loop'.srv c ev' ans') &&
      (!together || !attachedIn loop.srv c ev ans ||
        decide (c ∈ (dispatchConn loop.srv c ev ans).conns ↔ c ∈ (dispatchConn loop'.srv c ev' ans').conns))
  | _, _ => false

def Move.allowed (loop loop' : Loop) : Move → Bool
  | .same i => loop.agrees loop' i
  | .serve frame ans ans' => loop.serves together loop' (ans.steady frame) (ans'.follow frame ans)
  | .left i => loop.idles together i
  | .right i => loop'.idles together i

/-- Both runs, move by move, as long as every move is allowed. -/
def walk (instanceId : Nat) : List Move → Loop → Loop → Option (Loop × Loop)
  | [], loop, loop' => some (loop, loop')
  | m :: moves, loop, loop' =>
    if m.allowed together loop loop' then
      ((machine instanceId).runFrom loop m.lefts).bind fun next =>
        ((machine instanceId).runFrom loop' m.rights).bind fun next' => walk instanceId moves next next'
    else none

variable {together} {loop loop' : Loop} {i : Input}

end Walking

section Calm

/-- The next wait reports the events in both runs. -/
def Move.reported (batch : List Ready) : List Move := [.left (.wait onTime batch), .right (.wait onTime batch)]

def Move.finished : Move := .same (.finish ⟨0⟩ onTime)

/-- What a connection sends in the one run and in the other. -/
def Move.sent (c : ConnPtr) (bytes bytes' : Bytes) (h : bytes.length ≤ ptyReadChunk)
    (h' : bytes'.length ≤ ptyReadChunk) : List Move :=
  Move.reported [.conn c readable] ++
    [.serve (calmFrame 100 ⟨0⟩) (calmConn [] bytes h 0 ⟨0⟩) (calmConn [] bytes' h' 0 ⟨0⟩), Move.finished]

/-- A client makes a session and attaches to it, in the other run with a LIST in between. -/
def Move.attached : List Move :=
  Move.sent 0 (createRequest ++ requestFor 3) (createRequest ++ frameBytes EpiMsgType.list.code [] ++ requestFor 3)
    (by decide) (by decide)

def Move.accepted : List Move :=
  Move.reported [.listen] ++ [.same (.dispatch (.listen [.accepted true true, .accepted true true])), Move.finished]

/-- In one run only, the other client asks for recent output, with a body cut short and then with a good one. -/
def Move.peeked : List Move :=
  [.right (.wait onTime [.conn 1 readable]),
    .right (.dispatch (.conn (calmConn [] (frameBytes EpiMsgType.peek.code [1, 0] ++
      frameBytes EpiMsgType.peek.code (u64Bytes 1)) (by decide) 0 ⟨0⟩))),
    .right (.finish ⟨0⟩ onTime)]

theorem hiBytes_bounded : ([104, 105] : Bytes).length ≤ ptyReadChunk := by decide

/-- The PTY takes what has been typed, the shell prints, and the socket takes all that waits. -/
def Move.printed (ev : Events) : List Move :=
  Move.reported [.pty 0 ev] ++
    [.same (.dispatch (.pty
      ⟨[.wrote 4096], [⟨.bytes ⟨[104, 105], hiBytes_bounded⟩, .block fun _ => 0, true, [.wrote 4096]⟩], []⟩)),
      Move.finished]

end Calm

end Epimone.Daemon
