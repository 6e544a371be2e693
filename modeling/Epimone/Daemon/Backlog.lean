import Epimone.Daemon.Changes
import Epimone.Daemon.Runs

/-! # The outbound backlog

conn_queue marks a connection want_close once more than MAX_WBUF bytes wait to
be sent, but nothing else looks at the mark before the next event of that very
connection. The backlog is bounded in the runs where nothing more is asked of,
or printed for, a connection whose limit has tripped.
-/
set_option autoImplicit false

namespace Epimone.Daemon

open Transition History

/-- An enqueue took the backlog of the connection over the limit. -/
def tripped (c : ConnPtr) (history : List Effect) : Bool :=
  history.any fun e => match e with
    | .enqueued d q => d == c && !q.failed && decide (maxWbuf < q.unsent + q.len)
    | _ => false

/-- No frame is handled, no output read and no ring replayed for a connection that has tripped. -/
def unburdened (before : List Effect) : Effect → Bool
  | .frame c _ _ _ | .framingError c _ _ | .ptyRead _ _ (some c) => !tripped c before
  | .attached c _ _ ring => !tripped c before || ring.isEmpty
  | _ => true

def idleAfterTrip (before : List Effect) : Effect → Bool
  | .enqueued c _ => !tripped c before
  | _ => true

/-- The backlog bound, and nothing queued on a connection that has exceeded it. -/
structure Server.BacklogBounded (srv : Server) : Prop where
  bound : ∀ c ∈ srv.conns, (srv.conn c).unsent.length ≤ maxWbuf ∨
    ∃ q, .enqueued c q ∈ srv.trace ∧ (srv.conn c).unsent.length ≤ maxWbuf + q.len
  idle : Lawful (fun before e => idleAfterTrip before e = true) srv.trace

theorem tripped_append (c : ConnPtr) (before after : List Effect) :
    tripped c (before ++ after) = (tripped c before || tripped c after) :=
  List.any_append

theorem tripped_cons (c : ConnPtr) (e : Effect) (after : List Effect) :
    tripped c (e :: after) = (tripped c [e] || tripped c after) := by
  rw [← List.singleton_append, tripped_append]

theorem tripped_eq_false_of_not_mem {c : ConnPtr} {history : List Effect}
    (h : ∀ q, .enqueued c q ∉ history) : tripped c history = false := by
  rw [tripped, List.any_eq_false]
  intro e he hTrip
  cases e <;> simp at hTrip
  obtain ⟨⟨rfl, _⟩, _⟩ := hTrip
  exact h _ he

section Reckoning

variable {c : ConnPtr} {k : Connection} {history : List Effect}

/-- What waits to be sent is no more than the enqueues of the history account for. -/
structure Connection.Reckoned (k : Connection) (c : ConnPtr) (history : List Effect) : Prop where
  warned : maxWbuf < k.unsent.length → tripped c history = true
  sized : k.unsent = [] ∨ ∃ q, .enqueued c q ∈ history ∧ k.unsent.length ≤ q.unsent + q.len

namespace Connection.Reckoned

theorem mono {k' : Connection} (h : k.Reckoned c history) (es : List Effect)
    (hLe : k'.unsent.length ≤ k.unsent.length) : k'.Reckoned c (history ++ es) := by
  constructor
  · intro hOver
    rw [tripped_append, h.warned (Nat.lt_of_lt_of_le hOver hLe), Bool.true_or]
  · rcases h.sized with hNone | ⟨q, hq, hSize⟩
    · rw [hNone] at hLe
      exact Or.inl (List.eq_nil_of_length_eq_zero (Nat.le_zero.mp hLe))
    · exact Or.inr ⟨q, List.mem_append_left _ hq, Nat.le_trans hLe hSize⟩

theorem queue (h : k.Reckoned c history) (data : Bytes) (relay alloc : Bool) :
    (connQueue k data alloc).Reckoned c (history ++ enqueueEffects k c data relay alloc) := by
  by_cases hData : data = []
  · rw [hData, connQueue_nil]
    exact h.mono _ (Nat.le_refl _)
  cases hFails : k.growthFails data.length alloc with
  | true => exact h.mono _ (Nat.le_of_eq (congrArg List.length (connQueue_unsent_of_fails hFails)))
  | false =>
    have hQueued : .enqueued c (k.enqueue data relay alloc) ∈ enqueueEffects k c data relay alloc :=
      mem_enqueueEffects.mpr ⟨hData, Or.inl rfl⟩
    have hLength : (connQueue k data alloc).unsent.length = k.unsent.length + data.length := by
      rw [connQueue_unsent hFails, List.length_append]
    constructor
    · intro hOver
      rw [hLength] at hOver
      rw [tripped_append, Bool.or_eq_true]
      refine Or.inr (List.any_eq_true.mpr ⟨_, hQueued, ?_⟩)
      simpa [Connection.enqueue, hFails] using hOver
    · exact Or.inr ⟨_, List.mem_append_right _ hQueued, Nat.le_of_eq hLength⟩

theorem queueFrame (h : k.Reckoned c history) (b : EpiBuf) (alloc : Bool) :
    (queueFrame k b alloc).Reckoned c (history ++ frameEffects k c b alloc) := by
  unfold Daemon.queueFrame frameEffects
  split
  · exact h.mono _ (Nat.le_refl _)
  · exact h.queue b.data false alloc

theorem replayed (h : k.Reckoned c history) (out : OutRing) (ans : FrameAnswers) :
    (replayed k out ans).Reckoned c (history ++ replayEffects k c out ans) := by
  unfold Daemon.replayed replayEffects
  cases out.snapshot ans.snapAlloc with
  | none => exact h.mono _ (Nat.le_refl _)
  | some snap => exact h.queue snap false ans.replayAlloc

end Connection.Reckoned

end Reckoning

section Actions

variable {srv : Server} {a : Act}

def Act.queues : Act → Bool
  | .queue .. | .attach .. | .relay .. => true
  | _ => false

theorem unsent_of_not_queues (hQuiet : a.queues = false) {c : ConnPtr} {k : Connection}
    (h : a.connAfter srv = some (c, k)) : k.unsent.length ≤ (srv.conn c).unsent.length := by
  cases a with
  | queue | attach | relay => cases hQuiet
  | reset d =>
    obtain ⟨rfl, rfl⟩ : d = c ∧ _ = k := by simpa [Act.connAfter] using h
    split
    · exact Nat.zero_le _
    · exact Nat.le_refl _
  | write d n =>
    obtain ⟨rfl, rfl⟩ : d = c ∧ _ = k := by simpa [Act.connAfter] using h
    simp only [Connection.unsent_length, Connection.wlen]
    exact Nat.sub_le_sub_left (Nat.le_add_right _ _) _
  | openConn | close =>
    obtain ⟨rfl, rfl⟩ : _ = c ∧ _ = k := by simpa [Act.connAfter] using h
    exact Nat.zero_le _
  | unbind | update | condemn | failWrite | eof | watchConn =>
    obtain ⟨rfl, rfl⟩ : _ = c ∧ _ = k := by simpa [Act.connAfter] using h
    exact Nat.le_refl _
  | _ => cases h

theorem reckoned_perform (h : ∀ c, (srv.conn c).Reckoned c srv.trace) (c : ConnPtr) :
    ((a.perform srv).conn c).Reckoned c (a.perform srv).trace := by
  rw [trace_perform]
  by_cases hChanged : ∃ k, a.connAfter srv = some (c, k)
  · obtain ⟨k, hAfter⟩ := hChanged
    rw [conn_perform_of_eq hAfter]
    by_cases hQuiet : a.queues = false
    · exact (h c).mono _ (unsent_of_not_queues hQuiet hAfter)
    · cases a with
      | queue d data alloc =>
        cases hAfter
        exact (h c).queue data false alloc
      | attach d s ans =>
        cases hAfter
        have hBound : ({ srv.conn c with isData := true, session := some s } : Connection).Reckoned c
            srv.trace := ⟨(h c).warned, (h c).sized⟩
        have hGreeted := hBound.queueFrame (greeting srv c s ans) ans.queueAlloc
        have hMarked := hGreeted.mono [.attached c s (greeted srv c s ans).unsent.length
          (srv.sess s).out.ring.contents] (Nat.le_refl _)
        have hReplayed := hMarked.replayed (srv.sess s).out ans
        simp only [List.append_assoc, List.singleton_append] at hReplayed
        exact hReplayed
      | relay s d chunk ringAlloc alloc =>
        cases hAfter
        have hRead := (h c).mono [.ptyRead s chunk.bytes (srv.sess s).client] (Nat.le_refl _)
        have hQueued := hRead.queue chunk.bytes true alloc
        rw [List.append_assoc] at hQueued
        exact hQueued
      | _ => exact absurd rfl hQuiet
  · rw [conn_perform_of_ne (fun k hAfter => hChanged ⟨k, hAfter⟩)]
    exact (h c).mono _ (Nat.le_refl _)

/-- The enqueues of a history that has tripped say so. -/
def warnedLaw (before : List Effect) : Effect → Prop
  | .enqueued c q => maxWbuf < q.unsent → tripped c before = true
  | _ => True

theorem warned_perform (h : ∀ c, (srv.conn c).Reckoned c srv.trace)
    (hLaw : Lawful warnedLaw srv.trace) : Lawful warnedLaw (a.perform srv).trace := by
  refine lawful_perform.mpr ⟨hLaw, ?_⟩
  by_cases hQuiet : a.queues = false
  · apply lawful_of_mem
    intro e he history
    cases e with
    | enqueued c q =>
      rcases enqueued_mem_effects he with ⟨_, _, rfl⟩ | ⟨_, _, rfl⟩ | ⟨_, _, _, _, rfl⟩ <;> cases hQuiet
    | _ => trivial
  · cases a with
    | queue c data alloc =>
      refine lawful_enqueueEffects (fun _ => trivial) fun _ hOver => ?_
      rw [List.append_nil]
      exact (h c).warned hOver
    | attach c s ans =>
      have hBound : ({ srv.conn c with isData := true, session := some s } : Connection).Reckoned c
          srv.trace := ⟨(h c).warned, (h c).sized⟩
      refine (lawful_append _ _).mpr ⟨?_, (lawful_cons _ _).mpr ⟨trivial, ?_⟩⟩
      · refine lawful_frameEffects (fun _ => trivial) fun _ _ hOver => ?_
        rw [List.append_nil]
        exact (h c).warned hOver
      · refine lawful_replayEffects (fun _ => trivial) fun _ hOver => ?_
        rw [← List.append_assoc]
        exact ((hBound.queueFrame (greeting srv c s ans) ans.queueAlloc).mono _ (Nat.le_refl _)).warned hOver
    | relay s c chunk ringAlloc alloc =>
      refine (lawful_cons _ _).mpr ⟨trivial, ?_⟩
      refine lawful_enqueueEffects (fun _ => trivial) fun _ hOver => ?_
      exact ((h c).mono [_] (Nat.le_refl _)).warned hOver
    | _ => exact absurd rfl hQuiet

theorem untripped_of_awaiting {c : ConnPtr}
    (hLaw : Lawful (fun before e => unburdened before e = true) srv.trace) (h : srv.Awaiting c) :
    tripped c srv.trace = false := by
  obtain ⟨before, e, after, hSplit, hAsks, hAfter⟩ := h
  have hBefore := hLaw before e after hSplit
  rw [hSplit, tripped_append, tripped_cons, tripped_eq_false_of_not_mem hAfter]
  cases e with
  | frame d type body unsent | framingError d unsent polled =>
    obtain rfl : d = c := by simpa [Effect.asks] using hAsks
    have hQuiet : tripped d before = false := by simpa [unburdened] using hBefore
    rw [hQuiet]
    rfl
  | _ => cases hAsks

theorem idle_perform (hGuard : a.guard srv)
    (hLaw : Lawful (fun before e => unburdened before e = true) (a.perform srv).trace)
    (h : Lawful (fun before e => idleAfterTrip before e = true) srv.trace) :
    Lawful (fun before e => idleAfterTrip before e = true) (a.perform srv).trace := by
  obtain ⟨hBefore, hNow⟩ := lawful_perform.mp hLaw
  refine lawful_perform.mpr ⟨h, ?_⟩
  by_cases hQuiet : a.queues = false
  · apply lawful_of_mem
    intro e he history
    cases e with
    | enqueued c q =>
      rcases enqueued_mem_effects he with ⟨_, _, rfl⟩ | ⟨_, _, rfl⟩ | ⟨_, _, _, _, rfl⟩ <;> cases hQuiet
    | _ => rfl
  · cases a with
    | queue c data alloc =>
      obtain ⟨_, _, hAwait⟩ := hGuard
      refine lawful_enqueueEffects (fun _ => rfl) fun _ => ?_
      rw [List.append_nil, idleAfterTrip, untripped_of_awaiting hBefore hAwait]
      rfl
    | attach c s ans =>
      obtain ⟨_, _, _, _, _, hAwait⟩ := hGuard
      obtain ⟨_, hNow⟩ := (lawful_append _ _).mp hNow
      obtain ⟨hAttached, _⟩ := (lawful_cons _ _).mp hNow
      refine (lawful_append _ _).mpr ⟨?_, (lawful_cons _ _).mpr ⟨rfl, ?_⟩⟩
      · refine lawful_frameEffects (fun _ => rfl) fun _ _ => ?_
        rw [List.append_nil, idleAfterTrip, untripped_of_awaiting hBefore hAwait]
        rfl
      · refine lawful_replayEffects (fun _ => rfl) fun hRing => ?_
        have hRest : tripped c (srv.trace ++ frameEffects
            { srv.conn c with isData := true, session := some s } c (greeting srv c s ans)
            ans.queueAlloc) = false := by
          simpa [unburdened, hRing] using hAttached
        simp only [idleAfterTrip]
        rw [← List.append_assoc, tripped_append, hRest]
        rfl
    | relay s c chunk ringAlloc alloc =>
      obtain ⟨_, hClient, _⟩ := hGuard
      obtain ⟨hRead, _⟩ := (lawful_cons _ _).mp hNow
      refine (lawful_cons _ _).mpr ⟨rfl, ?_⟩
      refine lawful_enqueueEffects (fun _ => rfl) fun _ => ?_
      rw [hClient, List.append_nil] at hRead
      have hRest : tripped c srv.trace = false := by simpa [unburdened] using hRead
      simp only [idleAfterTrip]
      rw [tripped_append, hRest]
      rfl
    | _ => exact absurd rfl hQuiet

end Actions

theorem run_reckoned {instanceId : Nat} {inputs : List Input} {loop : Loop}
    (h : (machine instanceId).run inputs = some loop) :
    (∀ c, (loop.srv.conn c).Reckoned c loop.srv.trace) ∧ Lawful warnedLaw loop.srv.trace ∧
      (Lawful (fun before e => unburdened before e = true) loop.srv.trace →
        Lawful (fun before e => idleAfterTrip before e = true) loop.srv.trace) := by
  refine run_perform (P := fun srv => (∀ c, (srv.conn c).Reckoned c srv.trace) ∧
    Lawful warnedLaw srv.trace ∧ (Lawful (fun before e => unburdened before e = true) srv.trace →
      Lawful (fun before e => idleAfterTrip before e = true) srv.trace)) ?_ ?_ h
  · refine ⟨fun c => ⟨fun hOver => ?_, Or.inl rfl⟩, lawful_nil, fun _ => lawful_nil⟩
    exact absurd hOver (Nat.not_lt_zero _)
  · rintro srv a _ ⟨hReckoned, hWarned, hIdle⟩ hGuard
    refine ⟨reckoned_perform hReckoned, warned_perform hReckoned hWarned, fun hLaw => ?_⟩
    exact idle_perform hGuard hLaw (hIdle (lawful_perform.mp hLaw).1)

/-- The backlog stays bounded while a connection that has tripped is left alone. -/
theorem backlog_bounded_of_unburdened {instanceId : Nat} {inputs : List Input} {loop : Loop}
    (h : (machine instanceId).run inputs = some loop)
    (hLaw : Lawful (fun before e => unburdened before e = true) loop.srv.trace) :
    loop.srv.BacklogBounded := by
  obtain ⟨hReckoned, hWarned, hIdle⟩ := run_reckoned h
  constructor
  · intro c _
    rcases (hReckoned c).sized with hNone | ⟨q, hq, hSize⟩
    · rw [hNone]
      exact Or.inl (Nat.zero_le _)
    · obtain ⟨before, after, hSplit⟩ := List.append_of_mem hq
      have hQuiet : tripped c before = false := by
        simpa [idleAfterTrip] using hIdle hLaw before _ after hSplit
      have hRoom : q.unsent ≤ maxWbuf := by
        apply Nat.le_of_not_lt
        intro hOver
        have hTrip : tripped c before = true := hWarned before _ after hSplit hOver
        rw [hQuiet] at hTrip
        cases hTrip
      exact Or.inr ⟨q, hq, Nat.le_trans hSize (Nat.add_le_add_right hRoom _)⟩
  · exact hIdle hLaw

/-! A shell that prints for a client that does not read: as much as trips the limit, and more. -/

section Flood

def floodChunk : Chunk := ⟨List.replicate ptyReadChunk 0, by rw [List.length_replicate]⟩

def floodRead : PtyRead :=
  { outcome := .bytes floodChunk, ringAlloc := .block fun _ => 0, queueAlloc := true, writes := [] }

def flood (reads : Nat) : PtyAnswers :=
  { inputWrites := [], reads := List.replicate reads floodRead, eofWrites := [] }

def flooding (reads : Nat) : List Input :=
  attaching ++ [.wait onTime [.pty 0 readable], .dispatch (.pty (flood reads))]

variable {srv : Server} {s : SessPtr} {c : ConnPtr} {n : Nat}

structure Flooded (srv : Server) (s : SessPtr) (c : ConnPtr) (n : Nat) : Prop where
  listed : c ∈ srv.conns
  client : (srv.sess s).client = some c
  unsent : (srv.conn c).unsent.length = n
  small : ∀ d q, .enqueued d q ∈ srv.trace → q.len ≤ ptyReadChunk

theorem floodChunk_length : floodChunk.bytes.length = ptyReadChunk := List.length_replicate

theorem floodChunk_ne_nil : floodChunk.bytes ≠ [] := by
  intro hNil
  have hLength := floodChunk_length
  rw [hNil] at hLength
  cases hLength

theorem ptyOutput_stalled (hClient : (srv.sess s).client = some c) {chunk : Chunk} (hData : chunk.bytes ≠ [])
    {read : PtyRead} (hWrites : read.writes = []) (hAlloc : read.queueAlloc = true) :
    (ptyOutput (noteRead srv s chunk) s chunk read).conns = srv.conns ∧
      ((ptyOutput (noteRead srv s chunk) s chunk read).sess s).client = some c ∧
      ((ptyOutput (noteRead srv s chunk) s chunk read).conn c).unsent = (srv.conn c).unsent ++ chunk.bytes ∧
      ∃ q m condemned, (ptyOutput (noteRead srv s chunk) s chunk read).trace = srv.trace ++
          [.ptyRead s chunk.bytes (some c), .enqueued c q, .relayed c m condemned] ∧
        q.unsent = (srv.conn c).unsent.length ∧ q.len = chunk.bytes.length ∧ q.failed = false := by
  have hGrows : (srv.conn c).growthFails chunk.bytes.length true = false := Bool.and_false _
  have hHere : (noteRead srv s chunk).sess s = srv.sess s := rfl
  unfold ptyOutput
  dsimp only
  rw [hHere]
  simp only [hClient, hWrites, hAlloc, relayOutput_eq, enqueue_eq, connFlush, resetIfDrained, connUpdate,
    noteRelayed, readOutput, Server.modConn, Server.modSess, Server.emit, Function.update_idem,
    Function.update_self, true_and]
  constructor
  · change (Connection.unsent (if Connection.wpos _ = Connection.wlen _ then _ else _)) = _
    rw [unsent_reset, connQueue_unsent hGrows]
  · rw [enqueueEffects, if_neg hData]
    dsimp only
    rw [hGrows, if_neg Bool.false_ne_true, List.append_assoc, List.append_assoc]
    exact ⟨⟨(srv.conn c).unsent.length, chunk.bytes.length, (srv.conn c).polled, (srv.conn c).wantClose, true, false⟩,
      _, _, rfl, rfl, rfl, rfl⟩

theorem Flooded.ptyOutput (h : Flooded srv s c n) :
    Flooded (ptyOutput (noteRead srv s floodChunk) s floodChunk floodRead) s c (n + ptyReadChunk) := by
  obtain ⟨hConns, hClient, hUnsent, q, m, condemned, hTrace, -, hLength, -⟩ := ptyOutput_stalled h.client
    floodChunk_ne_nil (show floodRead.writes = [] from rfl) (show floodRead.queueAlloc = true from rfl)
  constructor
  · rw [hConns]
    exact h.listed
  · exact hClient
  · rw [hUnsent, List.length_append, h.unsent, floodChunk_length]
  · intro d q' hIn
    rw [hTrace] at hIn
    simp only [List.mem_append, List.mem_cons, List.not_mem_nil, reduceCtorEq, Effect.enqueued.injEq, false_or,
      or_false] at hIn
    rcases hIn with hOld | ⟨-, rfl⟩
    · exact h.small d q' hOld
    · exact Nat.le_of_eq (hLength.trans floodChunk_length)

theorem ptyReadLoop_flood (srv : Server) (s : SessPtr) (reads : List PtyRead) :
    ptyReadLoop s [] (floodRead :: reads) srv =
      ptyReadLoop s [] reads (ptyOutput (noteRead srv s floodChunk) s floodChunk floodRead) := by
  rw [ptyReadLoop]
  exact if_neg floodChunk_ne_nil

theorem Flooded.ptyReadLoop (h : Flooded srv s c n) (reads : Nat) :
    Flooded (ptyReadLoop s [] (List.replicate reads floodRead) srv) s c (n + reads * ptyReadChunk) := by
  induction reads generalizing srv n with
  | zero => simpa [Daemon.ptyReadLoop] using h
  | succ reads ih =>
    have hRead := ih h.ptyOutput
    rw [show n + (reads + 1) * ptyReadChunk = n + ptyReadChunk + reads * ptyReadChunk by
      rw [Nat.succ_mul]; omega, List.replicate_succ, ptyReadLoop_flood]
    exact hRead

def smallEnqueue : Effect → Bool
  | .enqueued _ q => decide (q.len ≤ ptyReadChunk)
  | _ => true

/-- A flood in which no limit has tripped yet. -/
structure Filling (srv : Server) (s : SessPtr) (c : ConnPtr) (n : Nat) : Prop extends Flooded srv s c n where
  law : Lawful (fun before e => unburdened before e = true) srv.trace
  quiet : tripped c srv.trace = false

theorem Filling.ptyOutput (h : Filling srv s c n) :
    Lawful (fun before e => unburdened before e = true)
        (ptyOutput (noteRead srv s floodChunk) s floodChunk floodRead).trace ∧
      tripped c (ptyOutput (noteRead srv s floodChunk) s floodChunk floodRead).trace =
        decide (maxWbuf < n + ptyReadChunk) := by
  obtain ⟨-, -, -, q, m, condemned, hTrace, hUnsent, hLength, hQueued⟩ := ptyOutput_stalled h.client
    floodChunk_ne_nil (show floodRead.writes = [] from rfl) (show floodRead.queueAlloc = true from rfl)
  have hSize : q.unsent + q.len = n + ptyReadChunk := by rw [hUnsent, h.unsent, hLength, floodChunk_length]
  rw [hTrace]
  constructor
  · refine (lawful_append _ _).mpr ⟨h.law, ?_⟩
    refine (lawful_cons _ _).mpr ⟨?_, (lawful_cons _ _).mpr ⟨rfl, (lawful_cons _ _).mpr ⟨rfl, lawful_nil⟩⟩⟩
    rw [List.append_nil, unburdened, h.quiet]
    rfl
  · rw [tripped_append, h.quiet, Bool.false_or]
    simp [tripped, hQueued, hSize]

theorem Filling.ptyReadLoop (h : Filling srv s c n) {reads : Nat} (hRoom : n + reads * ptyReadChunk ≤ maxWbuf)
    (hFull : maxWbuf < n + (reads + 1) * ptyReadChunk) :
    Lawful (fun before e => unburdened before e = true)
        (ptyReadLoop s [] (List.replicate (reads + 1) floodRead) srv).trace ∧
      tripped c (ptyReadLoop s [] (List.replicate (reads + 1) floodRead) srv).trace = true := by
  obtain ⟨hLaw, hTrips⟩ := h.ptyOutput
  induction reads generalizing srv n with
  | zero =>
    rw [List.replicate_succ, List.replicate_zero, ptyReadLoop_flood, Daemon.ptyReadLoop]
    exact ⟨hLaw, hTrips.trans (decide_eq_true (by omega))⟩
  | succ reads ih =>
    have hFits : n + ptyReadChunk ≤ maxWbuf := by
      rw [Nat.succ_mul] at hRoom
      omega
    have hNext : Filling (Daemon.ptyOutput (noteRead srv s floodChunk) s floodChunk floodRead) s c (n + ptyReadChunk) :=
      ⟨h.toFlooded.ptyOutput, hLaw, hTrips.trans (decide_eq_false (Nat.not_lt.mpr hFits))⟩
    obtain ⟨hLater, hTripsLater⟩ := hNext.ptyOutput
    rw [List.replicate_succ, ptyReadLoop_flood]
    refine ih hNext ?_ ?_ hLater hTripsLater
    · rw [Nat.succ_mul] at hRoom
      omega
    · rw [Nat.succ_mul] at hFull
      omega

/-- The state in which the flood begins. -/
def floodable (loop : Loop) : Bool :=
  loop.phase == .head ⟨0⟩ && possibleBatch loop.srv (readings ⟨0⟩ onTime) [.pty 0 readable] &&
    !(loop.srv.sess 0).defunct && (loop.srv.sess 0).ptyOpen && (loop.srv.sess 0).client == some 0 &&
    loop.srv.conns.contains 0 && loop.srv.trace.all smallEnqueue

theorem floodable_attaching : ∃ loop, (machine 7).run attaching = some loop ∧
    Filling loop.srv 0 0 (loop.srv.conn 0).unsent.length ∧ 0 < (loop.srv.conn 0).unsent.length ∧
    (loop.srv.conn 0).unsent.length ≤ ptyReadChunk ∧ ∀ reads, ∃ srv',
      (machine 7).run (flooding reads) = some ⟨srv', .batch []⟩ ∧
        ptyReadLoop 0 [] (List.replicate reads floodRead) loop.srv = srv' := by
  have hRun : ((machine 7).run attaching).any fun loop => floodable loop && (!tripped 0 loop.srv.trace &&
      decide (Lawful (fun before e => unburdened before e = true) loop.srv.trace) &&
        decide (0 < (loop.srv.conn 0).unsent.length ∧ (loop.srv.conn 0).unsent.length ≤ ptyReadChunk)) := by
    decide +kernel
  obtain ⟨loop, hLoop, hReady⟩ := (machine 7).exists_of_run_any hRun
  simp only [floodable, Bool.and_eq_true, beq_iff_eq, Bool.not_eq_true', List.contains_iff_mem,
    List.all_eq_true, decide_eq_true_eq] at hReady
  obtain ⟨⟨⟨⟨⟨⟨⟨hHead, hBatch⟩, hLive⟩, hOpen⟩, hClient⟩, hListed⟩, hSmall⟩, ⟨hQuiet, hLaw⟩, hSome, hFew⟩ := hReady
  have hStart : Flooded loop.srv 0 0 (loop.srv.conn 0).unsent.length := by
    refine ⟨hListed, hClient, rfl, fun d q hIn => ?_⟩
    simpa [smallEnqueue] using hSmall _ hIn
  refine ⟨loop, hLoop, ⟨hStart, hLaw, hQuiet⟩, hSome, hFew, fun reads => ?_⟩
  have hDispatch : dispatchPty loop.srv 0 readable (flood reads) =
      ptyReadLoop 0 [] (List.replicate reads floodRead) loop.srv := by
    simp [dispatchPty, ptyReadable, readable, flood, hLive, hOpen]
  exact ⟨_, run_event hLoop hHead hBatch (congrArg some hDispatch), rfl⟩

/-- The limit trips at the last of 128 chunks, and nothing more is read. -/
theorem backlog_bounded_of_unburdened_filling :
    ∃ loop, (machine 7).run (flooding 128) = some loop ∧ tripped 0 loop.srv.trace = true ∧
      loop.srv.BacklogBounded := by
  obtain ⟨loop, -, hFilling, hSome, hFew, hRun⟩ := floodable_attaching
  have hFull : maxWbuf = 128 * ptyReadChunk := by decide
  have hLoop := @Filling.ptyReadLoop _ _ _ _ hFilling 127 (by omega) (by omega)
  obtain ⟨srv', hRun, hEnd⟩ := hRun (127 + 1)
  rw [hEnd] at hLoop
  exact ⟨_, hRun, hLoop.2, backlog_bounded_of_unburdened hRun hLoop.1⟩

/-- More than MAX_WBUF bytes and any one enqueue wait to be sent. -/
theorem backlog_unbounded_flooding :
    ∃ loop, (machine 7).run (flooding 130) = some loop ∧ ¬ loop.srv.BacklogBounded := by
  obtain ⟨loop, -, hFilling, -, -, hRun⟩ := floodable_attaching
  have hFlooded := hFilling.toFlooded.ptyReadLoop 130
  obtain ⟨srv', hRun, hEnd⟩ := hRun 130
  rw [hEnd] at hFlooded
  refine ⟨_, hRun, ?_⟩
  intro hBounded
  have hFull : maxWbuf + ptyReadChunk < 130 * ptyReadChunk := by decide
  rcases hBounded.bound 0 hFlooded.listed with hFew | ⟨q, hq, hFew⟩
  · rw [hFlooded.unsent] at hFew
    omega
  · have hLen := hFlooded.small 0 q hq
    rw [hFlooded.unsent] at hFew
    omega

end Flood

end Epimone.Daemon
