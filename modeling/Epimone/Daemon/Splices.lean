import Epimone.Daemon.Answers
import Epimone.Daemon.InputRuns
import Epimone.Daemon.Observers

/-! # Requests that only ask

Between two servers that differ in what only their connections know, an event
makes no other difference if it is the same in both but for LIST, PEEK and
GROUP_LIST, for how the bytes come in reads, and for what the sockets take.
-/
set_option autoImplicit false

namespace Epimone.Daemon

open Transition

/-- LIST, PEEK or GROUP_LIST. -/
def Asking (type : Nat) : Prop :=
  EpiMsgType.ofRequest type = some .list ∨ EpiMsgType.ofRequest type = some .peek ∨
    EpiMsgType.ofRequest type = some .groupList

instance (type : Nat) : Decidable (Asking type) := inferInstanceAs (Decidable (_ ∨ _))

theorem Asking.observing {type : Nat} (h : Asking type) : Observing type := by
  intro request hRequest
  rcases h with h | h | h <;> rw [h] at hRequest <;> cases hRequest <;> simp

/-- The frames of two lists are the same but for some that only ask; the frames that the lists share, in pairs. -/
inductive Spliced : List Dispatch → List Dispatch → List (Dispatch × Dispatch) → Prop where
  | nil : Spliced [] [] []
  | shared {d d' : Dispatch} {log log' : List Dispatch} {pairs : List (Dispatch × Dispatch)} (hSame : d.Same d')
    (rest : Spliced log log' pairs) : Spliced (d :: log) (d' :: log') ((d, d') :: pairs)
  | left {d : Dispatch} {log log' : List Dispatch} {pairs : List (Dispatch × Dispatch)} (hAsks : Asking d.type)
    (rest : Spliced log log' pairs) : Spliced (d :: log) log' pairs
  | right {d : Dispatch} {log log' : List Dispatch} {pairs : List (Dispatch × Dispatch)} (hAsks : Asking d.type)
    (rest : Spliced log log' pairs) : Spliced log (d :: log') pairs

theorem Spliced.lefts {log log' asked : List Dispatch} {pairs : List (Dispatch × Dispatch)}
    (h : ∀ d ∈ asked, Asking d.type) (rest : Spliced log log' pairs) : Spliced (asked ++ log) log' pairs := by
  induction asked with
  | nil => exact rest
  | cons d asked ih => exact .left (h d List.mem_cons_self) (ih fun e he => h e (List.mem_cons_of_mem d he))

theorem Spliced.rights {log log' asked : List Dispatch} {pairs : List (Dispatch × Dispatch)}
    (h : ∀ d ∈ asked, Asking d.type) (rest : Spliced log log' pairs) : Spliced log (asked ++ log') pairs := by
  induction asked with
  | nil => exact rest
  | cons d asked ih => exact .right (h d List.mem_cons_self) (ih fun e he => h e (List.mem_cons_of_mem d he))

theorem Spliced.append {log log' later later' : List Dispatch} {pairs more : List (Dispatch × Dispatch)}
    (h : Spliced log log' pairs) (rest : Spliced later later' more) :
    Spliced (log ++ later) (log' ++ later') (pairs ++ more) := by
  induction h with
  | nil => exact rest
  | shared hSame _ ih => exact .shared hSame ih
  | left hAsks _ ih => exact .left hAsks ih
  | right hAsks _ ih => exact .right hAsks ih

/-- The bytes behind the frame that makes the connection a data channel, turn by turn as in `frameLoop`. -/
def behindAttach (c : ConnPtr) (ans : ConnAnswers) : Nat → Nat → Server → Nat → Bytes
  | 0, _, _, _ => []
  | fuel + 1, turn, srv, used =>
    match readFrame ((srv.inbuf c).rbuf.drop used) with
    | .item (type, body) n =>
      let handled := handleFrame srv c (ans.frames turn) type body
      if (handled.conn c).isData then (handled.inbuf c).rbuf.drop (used + n)
      else if (handled.conn c).wantClose then []
      else behindAttach c ans fuel (turn + 1) handled (used + n)
    | _ => []

def passedInbound (srv : Server) (c : ConnPtr) (data : Bytes) (ans : ConnAnswers) : Bytes :=
  if (srv.conn c).isData then data
  else if (srv.inbuf c).growthFails data.length ans.rbufAlloc then []
  else behindAttach c ans ((storeInbound srv c data).inbuf c).rbuf.length 0 (storeInbound srv c data) 0

/-- What a read brings for the session of the connection. -/
def passedRead (srv : Server) (c : ConnPtr) (ans : ConnAnswers) : Bytes :=
  match ans.read with
  | .bytes chunk => if chunk.bytes = [] then [] else passedInbound srv c chunk.bytes ans
  | _ => []

/-- The frames of an event of a connection. -/
def framesIn (srv : Server) (c : ConnPtr) (ev : Events) (ans : ConnAnswers) : List Dispatch :=
  if ev.reads then parsedRead (flushReady srv c ev ans) c ans else []

/-- The input for the session in an event of a connection. -/
def passedIn (srv : Server) (c : ConnPtr) (ev : Events) (ans : ConnAnswers) : Bytes :=
  if ev.reads then passedRead (flushReady srv c ev ans) c ans else []

abbrev everyone : ConnPtr → Bool := fun _ => true

variable {srv srv' : Server} {c : ConnPtr} {s : SessPtr}

section Events

/-- One frame after the other, and between them nothing that is known to any but the connections. -/
inductive Chain : Server → List Dispatch → Server → Prop where
  | nil {srv srv' : Server} (h : Beyond everyone srv srv') : Chain srv [] srv'
  | cons {srv srv' : Server} {d : Dispatch} {log : List Dispatch} (h : Beyond everyone srv d.srv)
    (rest : Chain d.handled log srv') : Chain srv (d :: log) srv'

theorem Chain.before {mid : Server} {log : List Dispatch} (h : Beyond everyone srv mid) (hChain : Chain mid log srv') :
    Chain srv log srv' := by
  cases hChain with
  | nil h' => exact .nil (h.trans h')
  | cons h' rest => exact .cons (h.trans h') rest

/-- A request that only asks is answered, and that is all. -/
theorem Dispatch.handled_asking {d : Dispatch} (h : Asking d.type) : Beyond everyone d.handled d.srv := by
  obtain ⟨b, hAnswered⟩ := @dispatchFrame_observing
    (d.srv.emit (.frame d.c d.type d.body (d.srv.conn d.c).unsent.length)) d.c d.type h.observing d.ans d.body
  unfold Dispatch.handled handleFrame
  rw [hAnswered]
  exact (hidden_queueFrame rfl _ _).trans (hidden_emit (c := d.c) rfl rfl)

/-- What two servers are not told apart by is still so after frames that are the same but for some that only ask. -/
theorem Spliced.beyond {log log' : List Dispatch} {pairs : List (Dispatch × Dispatch)} (h : Spliced log log' pairs)
    {t t' : Server} (hBeyond : Beyond everyone srv srv') (hChain : Chain srv log t) (hChain' : Chain srv' log' t') :
    Beyond everyone t t' ∧ ∀ pair ∈ pairs, pair.1.Same pair.2 ∧ Beyond everyone pair.1.srv pair.2.srv := by
  induction h generalizing srv srv' with
  | nil =>
    cases hChain with
    | nil h =>
      cases hChain' with
      | nil h' => exact ⟨(h.symm.trans hBeyond).trans h', fun _ hNone => absurd hNone List.not_mem_nil⟩
  | shared hSame rest ih =>
    cases hChain with
    | cons h hRest =>
      cases hChain' with
      | cons h' hRest' =>
        have hMet := (h.symm.trans hBeyond).trans h'
        obtain ⟨hEnd, hPairs⟩ := ih (hMet.handledFrame hSame) hRest hRest'
        refine ⟨hEnd, fun pair hPair => ?_⟩
        rcases List.mem_cons.mp hPair with rfl | hPair
        · exact ⟨hSame, hMet⟩
        · exact hPairs pair hPair
  | left hAsks rest ih =>
    cases hChain with
    | cons h hRest => exact ih (((Dispatch.handled_asking hAsks).trans h.symm).trans hBeyond) hRest hChain'
  | right hAsks rest ih =>
    cases hChain' with
    | cons h hRest => exact ih (hBeyond.trans (h.trans (Dispatch.handled_asking hAsks).symm)) hChain hRest

/-- The bytes that a read brings for the session are handed on. -/
def handOn (srv : Server) (c : ConnPtr) (ans : ConnAnswers) (data : Bytes) : Server :=
  if data = [] then srv else dataToPty srv c data ans

/-- What an event of the connection comes to: its frames, and the input for its session. -/
structure Told (srv : Server) (c : ConnPtr) (ans : ConnAnswers) (log : List Dispatch) (data : Bytes) (srv' : Server) :
    Prop where
  told : ∃ t, Chain srv log t ∧ t.links.Consistent ∧ c ∈ t.conns ∧ Beyond everyone srv' (handOn t c ans data)

variable {ans : ConnAnswers}

theorem Told.before {mid : Server} {log : List Dispatch} {data : Bytes} (h : Beyond everyone srv mid)
    (hTold : Told mid c ans log data srv') : Told srv c ans log data srv' := by
  obtain ⟨t, hChain, hRest⟩ := hTold
  exact ⟨t, hChain.before h, hRest⟩

theorem Told.after {mid : Server} {log : List Dispatch} {data : Bytes} (hTold : Told srv c ans log data mid)
    (h : Beyond everyone srv' mid) : Told srv c ans log data srv' := by
  obtain ⟨t, hChain, hLinks, hc, hEnd⟩ := hTold
  exact ⟨t, hChain, hLinks, hc, h.trans hEnd⟩

/-- Whose client a connection is, the sessions tell. -/
theorem Beyond.session (hBeyond : Beyond everyone srv srv') (h : srv.links.Consistent) (h' : srv'.links.Consistent)
    (c : ConnPtr) : (srv.conn c).session = (srv'.conn c).session := by
  ext s
  have hPaired : (srv.conn c).session = some s ↔ (srv.sess s).client = some c := h.paired c s
  have hPaired' : (srv'.conn c).session = some s ↔ (srv'.sess s).client = some c := h'.paired c s
  rw [hPaired, hPaired', hBeyond.sess]

theorem Beyond.handOn {ans' : ConnAnswers} (hBeyond : Beyond everyone srv srv') (h : srv.links.Consistent)
    (h' : srv'.links.Consistent) (data : Bytes) (hAlloc : ans.pinAlloc = ans'.pinAlloc)
    (hWrites : ans.ptyWrites = ans'.ptyWrites) :
    Beyond everyone (handOn srv c ans data) (handOn srv' c ans' data) := by
  unfold Daemon.handOn
  split
  · exact hBeyond
  unfold Daemon.dataToPty
  rw [hBeyond.session h h', hAlloc, hWrites]
  split
  · exact hBeyond
  · exact ((hBeyond.emit _).epiSessionQueueInput _ _ _).ptyUpdate

/-- In the event the connection is the client of a session, up to the point where want_close is looked at. -/
def attachedIn (srv : Server) (c : ConnPtr) (ev : Events) (ans : ConnAnswers) : Bool :=
  ((serveConn srv c ev ans).conn c).session.isSome

/-- Two reads of a PTY that bring the same, whatever its client takes of it. -/
structure PtyRead.Alike (read read' : PtyRead) : Prop where
  outcome : read.outcome = read'.outcome
  ringAlloc : read.ringAlloc = read'.ringAlloc

structure PtyAnswers.Alike (ans ans' : PtyAnswers) : Prop where
  inputWrites : ans.inputWrites = ans'.inputWrites
  reads : List.Forall₂ PtyRead.Alike ans.reads ans'.reads

end Events

end Epimone.Daemon
