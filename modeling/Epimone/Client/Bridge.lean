import Epimone.Daemon.Session
import Epimone.Library.Conservation

/-! # The display bridge

A bridge carries the bytes of a session between the data socket and the PTY
that the terminal reads. What cannot be written at once waits in the buffer of
its direction, and a source in the main loop waits with it.
-/
set_option autoImplicit false

namespace Epimone.Client

open Daemon Transition

/-- The sources that a bridge adds to the main loop, by their callbacks. -/
inductive Watch where
  | sockReadable
  | sockWritable
  | slaveReadable
  | slaveWritable
  | death
  deriving DecidableEq, Repr

structure Source where
  id : Nat
  watch : Watch
  deriving DecidableEq, Repr

/-- One direction: the bytes that wait and the id of the writable source, with what the descriptor has
taken and whether there has been a hard error. -/
structure Outlet where
  buf : Bytes
  outId : Nat
  written : Bytes
  failed : Bool
  deriving DecidableEq, Repr

namespace Outlet

variable (o : Outlet)

def new : Outlet := ⟨[], 0, [], false⟩

/-- flush_buf; false is its -1. When there are no more outcomes, the next write would block. -/
def flushBuf (o : Outlet) : List WriteOutcome → Outlet × Bool
  | [] => (o, true)
  | outcome :: outcomes =>
    if o.buf = [] then (o, true)
    else
      match outcome with
      | .wrote 0 => ({ o with failed := true }, false)
      | .wrote (n + 1) =>
        flushBuf { o with buf := o.buf.drop (n + 1), written := o.written ++ o.buf.take (n + 1) } outcomes
      | .again => (o, true)
      | .intr => flushBuf o outcomes
      | .failed => ({ o with failed := true }, false)

def append (data : Bytes) : Outlet := { o with buf := o.buf ++ data }

def needsSource : Bool := decide (o.buf ≠ [] ∧ o.outId = 0)

def unwatch : Outlet := { o with outId := 0 }

end Outlet

/-- The bridge with its sources. -/
structure EpiBridge where
  toSock : Outlet
  toSlave : Outlet
  sockInId : Nat
  slaveInId : Nat
  deathId : Nat
  dead : Bool
  sources : List Source
  deriving DecidableEq, Repr

/-- What read returns; no bytes are the end of the file. -/
inductive PumpRead where
  | got (data : Bytes)
  | again
  | intr
  | failed
  deriving DecidableEq, Repr

/-- A source is dispatched: the conditions on its descriptor, what reading and writing come to, and the id of a
source that is added. -/
structure Wake where
  id : Nat
  input : Bool
  hungUp : Bool
  read : PumpRead
  writes : List WriteOutcome
  fresh : Nat

namespace EpiBridge

variable (b : EpiBridge) (ev : Wake)

def addSource (id : Nat) (watch : Watch) : EpiBridge := { b with sources := ⟨id, watch⟩ :: b.sources }

def scheduleDeath : EpiBridge :=
  if b.dead then b else { b with dead := true, deathId := ev.fresh }.addSource ev.fresh .death

def forwardToSock (data : Bytes) : EpiBridge :=
  match (b.toSock.append data).flushBuf ev.writes with
  | (o, false) => { b with toSock := o }.scheduleDeath ev
  | (o, true) =>
    if o.needsSource then { b with toSock := { o with outId := ev.fresh } }.addSource ev.fresh .sockWritable
    else { b with toSock := o }

def forwardToSlave (data : Bytes) : EpiBridge :=
  match (b.toSlave.append data).flushBuf ev.writes with
  | (o, false) => { b with toSlave := o }
  | (o, true) =>
    if o.needsSource then { b with toSlave := { o with outId := ev.fresh } }.addSource ev.fresh .slaveWritable
    else { b with toSlave := o }

/-- The callbacks say whether their source stays. -/
def onSockWritable : EpiBridge × Bool :=
  if ev.hungUp then ({ b with toSock := { b.toSock.unwatch with failed := true } }.scheduleDeath ev, false)
  else
    match b.toSock.flushBuf ev.writes with
    | (o, false) => ({ b with toSock := o.unwatch }.scheduleDeath ev, false)
    | (o, true) => if o.buf = [] then ({ b with toSock := o.unwatch }, false) else ({ b with toSock := o }, true)

def onSlaveWritable : EpiBridge × Bool :=
  match b.toSlave.flushBuf ev.writes with
  | (o, false) => ({ b with toSlave := o.unwatch }, false)
  | (o, true) => if o.buf = [] then ({ b with toSlave := o.unwatch }, false) else ({ b with toSlave := o }, true)

def onSlaveReadable : EpiBridge × Bool :=
  if ev.hungUp && !ev.input then ({ b with slaveInId := 0 }, false)
  else
    match ev.read with
    | .got [] => ({ b with slaveInId := 0 }, false)
    | .got data => (b.forwardToSock ev data, true)
    | .again | .intr | .failed => (b, true)

def onSockReadable : EpiBridge × Bool :=
  match ev.read with
  | .got [] | .failed => ({ b with sockInId := 0 }.scheduleDeath ev, false)
  | .got data => (b.forwardToSlave ev data, true)
  | .again | .intr => (b, true)

/-- death_idle closes the pane, and with it the bridge is gone. -/
def callback : Watch → Option (EpiBridge × Bool)
  | .sockReadable => some (b.onSockReadable ev)
  | .sockWritable => some (b.onSockWritable ev)
  | .slaveReadable => some (b.onSlaveReadable ev)
  | .slaveWritable => some (b.onSlaveWritable ev)
  | .death => none

def removeSource (id : Nat) : EpiBridge := { b with sources := b.sources.filter fun s => s.id ≠ id }

/-- The main loop calls back a source that is there. The id of a new source is not 0 and not in use. -/
def step : Option EpiBridge :=
  if ev.fresh = 0 ∨ ev.fresh ∈ b.sources.map Source.id then none
  else
    (b.sources.find? fun s => s.id = ev.id).bind fun s =>
      (b.callback ev s.watch).map fun
        | (b, true) => b
        | (b, false) => b.removeSource s.id

end EpiBridge

/-- The two sources that attach_bridge adds. -/
structure Readers where
  sockIn : Nat
  slaveIn : Nat
  sockIn_ne : sockIn ≠ 0
  slaveIn_ne : slaveIn ≠ 0
  distinct : sockIn ≠ slaveIn

def Readers.attachBridge (readers : Readers) : EpiBridge :=
  ⟨.new, .new, readers.sockIn, readers.slaveIn, 0, false,
    [⟨readers.slaveIn, .slaveReadable⟩, ⟨readers.sockIn, .sockReadable⟩]⟩

def pump (readers : Readers) : Machine EpiBridge Wake := ⟨readers.attachBridge, EpiBridge.step⟩

/-! What is read. -/

/-- The bytes that the callback of a readable source gets from its read, if it comes to it. -/
def Wake.taken (ev : Wake) : Watch → Bytes
  | .sockReadable =>
    match ev.read with
    | .got data => data
    | _ => []
  | .slaveReadable =>
    if ev.hungUp && !ev.input then []
    else
      match ev.read with
      | .got data => data
      | _ => []
  | _ => []

/-- The bytes that are read in one step of the main loop by the callback of such a source. -/
def EpiBridge.readBy (watch : Watch) (b : EpiBridge) (ev : Wake) : Bytes :=
  match b.sources.find? fun s => s.id = ev.id with
  | some s => if s.watch = watch then ev.taken watch else []
  | none => []

def Readers.readBy (readers : Readers) (watch : Watch) (wakes : List Wake) : Bytes :=
  ((pump readers).steps wakes).flatMap fun step => step.before.readBy watch step.input

/-! Both directions are queues with a source. -/

namespace Outlet

variable {o : Outlet} {writes : List WriteOutcome}

/-- The bytes that have come so far, written or waiting. -/
def carried (o : Outlet) : Bytes := o.written ++ o.buf

@[simp] theorem carried_append (o : Outlet) (data : Bytes) : (o.append data).carried = o.carried ++ data :=
  (List.append_assoc _ _ _).symm

@[simp] theorem carried_unwatch (o : Outlet) : o.unwatch.carried = o.carried := rfl

/-- What a flush does: some bytes go from the front of the buffer to the descriptor, and a failure is told. -/
structure Flushed (o o' : Outlet) (ok : Bool) : Prop where
  carried : o'.carried = o.carried
  outId : o'.outId = o.outId
  failed : o'.failed = (o.failed || !ok)

theorem flushed_flushBuf (o : Outlet) (writes : List WriteOutcome) :
    Flushed o (o.flushBuf writes).1 (o.flushBuf writes).2 := by
  induction writes generalizing o with
  | nil => exact ⟨rfl, rfl, (Bool.or_false _).symm⟩
  | cons outcome outcomes ih =>
    unfold flushBuf
    split
    · exact ⟨rfl, rfl, (Bool.or_false _).symm⟩
    cases outcome with
    | wrote n =>
      cases n with
      | zero => exact ⟨rfl, rfl, (Bool.or_true _).symm⟩
      | succ n =>
        have hRest := ih { o with buf := o.buf.drop (n + 1), written := o.written ++ o.buf.take (n + 1) }
        refine ⟨hRest.carried.trans ?_, hRest.outId, hRest.failed⟩
        unfold Outlet.carried
        rw [List.append_assoc, List.take_append_drop]
    | again => exact ⟨rfl, rfl, (Bool.or_false _).symm⟩
    | intr => exact ih o
    | failed => exact ⟨rfl, rfl, (Bool.or_true _).symm⟩

/-- The writable source is the one with the id in the bridge, if any; and while nothing has failed, there
is one if anything waits. -/
structure Sound (o : Outlet) (watch : Watch) (sources : List Source) : Prop where
  watched : ∀ id, ⟨id, watch⟩ ∈ sources ↔ id = o.outId ∧ id ≠ 0
  armed : o.failed = false → o.buf ≠ [] → o.outId ≠ 0

end Outlet

namespace Outlet.Sound

variable {o o' : Outlet} {watch : Watch} {sources sources' : List Source} {ok : Bool}

theorem of_same (h : o.Sound watch sources) (hSame : ∀ id, ⟨id, watch⟩ ∈ sources' ↔ ⟨id, watch⟩ ∈ sources) :
    o.Sound watch sources' :=
  ⟨fun id => (hSame id).trans (h.watched id), h.armed⟩

theorem forward_failed (h : o.Sound watch sources) {data : Bytes} (hFlush : Flushed (o.append data) o' false) :
    o'.Sound watch sources := by
  constructor
  · rw [hFlush.outId]
    exact h.watched
  · intro hOk
    rw [hFlush.failed, Bool.not_false, Bool.or_true] at hOk
    cases hOk

theorem forward_added (h : o.Sound watch sources) {data : Bytes} (hFlush : Flushed (o.append data) o' true)
    (hNeeds : o'.needsSource = true) {id : Nat} (hId : id ≠ 0) :
    { o' with outId := id }.Sound watch (⟨id, watch⟩ :: sources) := by
  have hNone : o.outId = 0 := hFlush.outId.symm.trans (of_decide_eq_true hNeeds).2
  refine ⟨fun id' => ?_, fun _ _ => hId⟩
  rw [List.mem_cons, h.watched, hNone, Source.mk.injEq]
  constructor
  · rintro (⟨rfl, -⟩ | ⟨rfl, hNonzero⟩)
    · exact ⟨rfl, hId⟩
    · exact absurd rfl hNonzero
  · rintro ⟨rfl, -⟩
    exact Or.inl ⟨rfl, rfl⟩

theorem forward_rest (h : o.Sound watch sources) {data : Bytes} (hFlush : Flushed (o.append data) o' true)
    (hNeeds : ¬ o'.needsSource = true) : o'.Sound watch sources := by
  constructor
  · rw [hFlush.outId]
    exact h.watched
  · intro _ hWaits hNone
    exact hNeeds (decide_eq_true ⟨hWaits, hNone⟩)

theorem flush_rest (h : o.Sound watch sources) (hFlush : Flushed o o' true) {id : Nat} (hId : ⟨id, watch⟩ ∈ sources) :
    o'.Sound watch sources := by
  constructor
  · rw [hFlush.outId]
    exact h.watched
  · intro _ _
    obtain ⟨hSame, hNonzero⟩ := (h.watched id).mp hId
    rw [hFlush.outId, ← hSame]
    exact hNonzero

/-- The writable source is removed, since nothing waits or writing has failed. -/
theorem flush_done (h : o.Sound watch sources) (hDone : o'.failed = true ∨ o'.buf = []) {id : Nat}
    (hId : ⟨id, watch⟩ ∈ sources) : o'.unwatch.Sound watch (sources.filter fun s => s.id ≠ id) := by
  refine ⟨fun id' => ?_, ?_⟩
  · rw [List.mem_filter, h.watched, ((h.watched id).mp hId).1]
    constructor
    · rintro ⟨⟨rfl, -⟩, hOther⟩
      exact absurd rfl (of_decide_eq_true hOther)
    · rintro ⟨rfl, hNonzero⟩
      exact absurd rfl hNonzero
  · intro hOk hWaits
    rcases hDone with hFailed | hEmpty
    · cases hFailed.symm.trans hOk
    · exact absurd hEmpty hWaits

theorem watching (h : o.Sound watch sources) (hOk : o.failed = false) (hWaits : o.buf ≠ []) :
    ∃ s ∈ sources, s.watch = watch :=
  ⟨⟨o.outId, watch⟩, (h.watched o.outId).mpr ⟨rfl, h.armed hOk hWaits⟩, rfl⟩

theorem single (h : o.Sound watch sources) (hUnique : (sources.map Source.id).Nodup) :
    (sources.filter fun s => s.watch = watch).length ≤ 1 := by
  have hSame : ∀ s ∈ sources.filter fun s => s.watch = watch, s = ⟨o.outId, watch⟩ := by
    rintro ⟨id, watch'⟩ hIn
    obtain ⟨hMem, hWatch⟩ := List.mem_filter.mp hIn
    cases of_decide_eq_true hWatch
    rw [((h.watched id).mp hMem).1]
  have hNodup : (sources.filter fun s => s.watch = watch).Nodup := (hUnique.of_map _).filter _
  rw [List.eq_replicate_of_mem hSame, List.nodup_replicate] at hNodup
  exact hNodup

end Outlet.Sound

namespace EpiBridge

structure Sound (b : EpiBridge) : Prop where
  toSock : b.toSock.Sound .sockWritable b.sources
  toSlave : b.toSlave.Sound .slaveWritable b.sources
  unique : (b.sources.map Source.id).Nodup

variable {b : EpiBridge} {ev : Wake} {s : Source}

theorem unique_removeSource (h : b.Sound) (id : Nat) : ((b.removeSource id).sources.map Source.id).Nodup :=
  h.unique.sublist (List.filter_sublist.map _)

theorem mem_removeSource (h : b.Sound) (hs : s ∈ b.sources) {watch : Watch} (hOther : s.watch ≠ watch) (id : Nat) :
    ⟨id, watch⟩ ∈ (b.removeSource s.id).sources ↔ ⟨id, watch⟩ ∈ b.sources := by
  rw [removeSource, List.mem_filter]
  refine and_iff_left_of_imp fun hIn => decide_eq_true ?_
  rintro hSame
  have hEq := List.inj_on_of_nodup_map h.unique hIn hs hSame
  exact hOther (congrArg Source.watch hEq).symm

theorem sound_removeSource (h : b.Sound) (hs : s ∈ b.sources) (hSock : s.watch ≠ .sockWritable)
    (hSlave : s.watch ≠ .slaveWritable) : (b.removeSource s.id).Sound :=
  ⟨h.toSock.of_same (mem_removeSource h hs hSock), h.toSlave.of_same (mem_removeSource h hs hSlave),
    unique_removeSource h s.id⟩

theorem sound_scheduleDeath (h : b.Sound) (hFresh : ev.fresh ∉ b.sources.map Source.id) :
    (b.scheduleDeath ev).Sound := by
  unfold scheduleDeath
  split
  · exact h
  · have hSame : ∀ watch, watch ≠ .death → ∀ id, (⟨id, watch⟩ ∈ ⟨ev.fresh, .death⟩ :: b.sources ↔
        ⟨id, watch⟩ ∈ b.sources) := by
      intro watch hWatch id
      rw [List.mem_cons, Source.mk.injEq]
      exact or_iff_right fun hDeath => hWatch hDeath.2
    exact ⟨h.toSock.of_same (hSame _ (by decide)), h.toSlave.of_same (hSame _ (by decide)),
      List.nodup_cons.mpr ⟨hFresh, h.unique⟩⟩

def Fresh (b : EpiBridge) (ev : Wake) : Prop := ev.fresh ≠ 0 ∧ ev.fresh ∉ b.sources.map Source.id

theorem mem_addSource {watch watch' : Watch} (hOther : watch' ≠ watch) (id id' : Nat) :
    ⟨id', watch'⟩ ∈ (b.addSource id watch).sources ↔ ⟨id', watch'⟩ ∈ b.sources := by
  rw [addSource, List.mem_cons, Source.mk.injEq]
  exact or_iff_right fun hSame => hOther hSame.2

theorem sound_forwardToSock (h : b.Sound) (hFresh : b.Fresh ev) (data : Bytes) : (b.forwardToSock ev data).Sound := by
  have hFlush := (b.toSock.append data).flushed_flushBuf ev.writes
  unfold forwardToSock
  generalize (b.toSock.append data).flushBuf ev.writes = flushed at hFlush
  obtain ⟨o, ok⟩ := flushed
  cases ok with
  | false =>
    have hSound : { b with toSock := o }.Sound := ⟨h.toSock.forward_failed hFlush, h.toSlave, h.unique⟩
    exact sound_scheduleDeath hSound hFresh.2
  | true =>
    dsimp only
    split
    · next hNeeds =>
      exact ⟨h.toSock.forward_added hFlush hNeeds hFresh.1,
        h.toSlave.of_same (mem_addSource (by decide) ev.fresh), List.nodup_cons.mpr ⟨hFresh.2, h.unique⟩⟩
    · next hNeeds => exact ⟨h.toSock.forward_rest hFlush hNeeds, h.toSlave, h.unique⟩

theorem sound_forwardToSlave (h : b.Sound) (hFresh : b.Fresh ev) (data : Bytes) : (b.forwardToSlave ev data).Sound := by
  have hFlush := (b.toSlave.append data).flushed_flushBuf ev.writes
  unfold forwardToSlave
  generalize (b.toSlave.append data).flushBuf ev.writes = flushed at hFlush
  obtain ⟨o, ok⟩ := flushed
  cases ok with
  | false => exact ⟨h.toSock, h.toSlave.forward_failed hFlush, h.unique⟩
  | true =>
    dsimp only
    split
    · next hNeeds =>
      exact ⟨h.toSock.of_same (mem_addSource (by decide) ev.fresh),
        h.toSlave.forward_added hFlush hNeeds hFresh.1, List.nodup_cons.mpr ⟨hFresh.2, h.unique⟩⟩
    · next hNeeds => exact ⟨h.toSock, h.toSlave.forward_rest hFlush hNeeds, h.unique⟩

/-- What a callback comes to once its source has been kept or removed. -/
def settleSource (s : Source) : EpiBridge × Bool → EpiBridge
  | (b, true) => b
  | (b, false) => b.removeSource s.id

theorem removeSource_scheduleDeath {id : Nat} (hFresh : ev.fresh ≠ id) :
    (b.scheduleDeath ev).removeSource id = (b.removeSource id).scheduleDeath ev := by
  have hFilter : (⟨ev.fresh, .death⟩ :: b.sources).filter (fun s => s.id ≠ id) =
      ⟨ev.fresh, .death⟩ :: b.sources.filter fun s => s.id ≠ id :=
    List.filter_cons_of_pos (decide_eq_true hFresh)
  unfold scheduleDeath removeSource
  dsimp only
  split
  · rfl
  · exact congrArg (fun sources => { b with dead := true, deathId := ev.fresh, sources := sources }) hFilter

theorem Fresh.removeSource (h : b.Fresh ev) (id : Nat) : ev.fresh ∉ (b.removeSource id).sources.map Source.id :=
  fun hIn => h.2 (((List.filter_sublist (l := b.sources)).map Source.id).subset hIn)

theorem Fresh.ne (h : b.Fresh ev) (hs : s ∈ b.sources) : ev.fresh ≠ s.id := by
  rintro hSame
  exact h.2 (List.mem_map.mpr ⟨s, hs, hSame.symm⟩)

theorem sound_onSockWritable (h : b.Sound) (hFresh : b.Fresh ev) (hs : s ∈ b.sources)
    (hWatch : s.watch = .sockWritable) :
    (settleSource s (b.onSockWritable ev)).Sound := by
  obtain ⟨id, watch⟩ := s
  cases hWatch
  have hDone : ∀ o : Outlet, (o.failed = true ∨ o.buf = []) →
      ({ b with toSock := o.unwatch }.removeSource id).Sound := fun o hOver =>
    ⟨h.toSock.flush_done hOver hs, h.toSlave.of_same (mem_removeSource h hs nofun), unique_removeSource h id⟩
  have hFlush := b.toSock.flushed_flushBuf ev.writes
  unfold onSockWritable
  split
  · change (({ b with toSock := _ }.scheduleDeath ev).removeSource id).Sound
    rw [removeSource_scheduleDeath (hFresh.ne hs)]
    exact sound_scheduleDeath (hDone { b.toSock with failed := true } (Or.inl rfl)) (hFresh.removeSource id)
  generalize b.toSock.flushBuf ev.writes = flushed at hFlush
  obtain ⟨o, ok⟩ := flushed
  cases ok with
  | false =>
    have hFailed : o.failed = true := hFlush.failed.trans (Bool.or_true _)
    change (({ b with toSock := o.unwatch }.scheduleDeath ev).removeSource id).Sound
    rw [removeSource_scheduleDeath (hFresh.ne hs)]
    exact sound_scheduleDeath (hDone o (Or.inl hFailed)) (hFresh.removeSource id)
  | true =>
    dsimp only
    split
    · next hEmpty => exact hDone o (Or.inr hEmpty)
    · exact ⟨h.toSock.flush_rest hFlush hs, h.toSlave, h.unique⟩

theorem sound_onSlaveWritable (h : b.Sound) (hs : s ∈ b.sources) (hWatch : s.watch = .slaveWritable) :
    (settleSource s (b.onSlaveWritable ev)).Sound := by
  obtain ⟨id, watch⟩ := s
  cases hWatch
  have hDone : ∀ o : Outlet, (o.failed = true ∨ o.buf = []) →
      ({ b with toSlave := o.unwatch }.removeSource id).Sound := fun o hOver =>
    ⟨h.toSock.of_same (mem_removeSource h hs nofun), h.toSlave.flush_done hOver hs, unique_removeSource h id⟩
  have hFlush := b.toSlave.flushed_flushBuf ev.writes
  unfold onSlaveWritable
  generalize b.toSlave.flushBuf ev.writes = flushed at hFlush
  obtain ⟨o, ok⟩ := flushed
  cases ok with
  | false => exact hDone o (Or.inl (hFlush.failed.trans (Bool.or_true _)))
  | true =>
    dsimp only
    split
    · next hEmpty => exact hDone o (Or.inr hEmpty)
    · exact ⟨h.toSock, h.toSlave.flush_rest hFlush hs, h.unique⟩

theorem sound_onSlaveReadable (h : b.Sound) (hFresh : b.Fresh ev) (hs : s ∈ b.sources)
    (hWatch : s.watch = .slaveReadable) :
    (settleSource s (b.onSlaveReadable ev)).Sound := by
  have hRemoved : ({ b with slaveInId := 0 }.removeSource s.id).Sound := by
    obtain ⟨hSock, hSlave, hUnique⟩ := sound_removeSource h hs (by rw [hWatch]; decide) (by rw [hWatch]; decide)
    exact ⟨hSock, hSlave, hUnique⟩
  unfold onSlaveReadable
  split
  · exact hRemoved
  cases ev.read with
  | got data =>
    cases data with
    | nil => exact hRemoved
    | cons byte data => exact sound_forwardToSock h hFresh (byte :: data)
  | again | intr | failed => exact h

theorem sound_onSockReadable (h : b.Sound) (hFresh : b.Fresh ev) (hs : s ∈ b.sources)
    (hWatch : s.watch = .sockReadable) :
    (settleSource s (b.onSockReadable ev)).Sound := by
  have hEnded : (({ b with sockInId := 0 }.scheduleDeath ev).removeSource s.id).Sound := by
    obtain ⟨hSock, hSlave, hUnique⟩ := sound_removeSource h hs (by rw [hWatch]; decide) (by rw [hWatch]; decide)
    have hRemoved : ({ b with sockInId := 0 }.removeSource s.id).Sound := ⟨hSock, hSlave, hUnique⟩
    rw [removeSource_scheduleDeath (hFresh.ne hs)]
    exact sound_scheduleDeath hRemoved (hFresh.removeSource s.id)
  unfold onSockReadable
  cases ev.read with
  | got data =>
    cases data with
    | nil => exact hEnded
    | cons byte data => exact sound_forwardToSlave h hFresh (byte :: data)
  | failed => exact hEnded
  | again | intr => exact h

theorem step_eq_some {b' : EpiBridge} (hStep : b.step ev = some b') :
    b.Fresh ev ∧ ∃ s result, b.sources.find? (fun s => s.id = ev.id) = some s ∧
      b.callback ev s.watch = some result ∧ b' = settleSource s result := by
  unfold step at hStep
  split at hStep
  · cases hStep
  next hFresh =>
  obtain ⟨s, hFind, hCalled⟩ := Option.bind_eq_some_iff.mp hStep
  obtain ⟨result, hResult, hSettled⟩ := Option.map_eq_some_iff.mp hCalled
  refine ⟨not_or.mp hFresh, s, result, hFind, hResult, ?_⟩
  rw [← hSettled]
  obtain ⟨b₁, keep⟩ := result
  cases keep <;> rfl

theorem sound_step {b' : EpiBridge} (h : b.Sound) (hStep : b.step ev = some b') : b'.Sound := by
  obtain ⟨hFresh, s, result, hFind, hResult, rfl⟩ := step_eq_some hStep
  have hs : s ∈ b.sources := List.mem_of_find?_eq_some hFind
  cases hWatch : s.watch with
  | death =>
    rw [hWatch] at hResult
    cases hResult
  | sockReadable =>
    rw [hWatch] at hResult
    cases hResult
    exact sound_onSockReadable h hFresh hs hWatch
  | sockWritable =>
    rw [hWatch] at hResult
    cases hResult
    exact sound_onSockWritable h hFresh hs hWatch
  | slaveReadable =>
    rw [hWatch] at hResult
    cases hResult
    exact sound_onSlaveReadable h hFresh hs hWatch
  | slaveWritable =>
    rw [hWatch] at hResult
    cases hResult
    exact sound_onSlaveWritable h hs hWatch

/-- What each direction has carried before and after, where so much has been read from the socket and
from the slave. -/
structure Carries (b b' : EpiBridge) (fromSock fromSlave : Bytes) : Prop where
  toSlave : b'.toSlave.carried = b.toSlave.carried ++ fromSock
  toSock : b'.toSock.carried = b.toSock.carried ++ fromSlave

theorem carries_refl (b : EpiBridge) : b.Carries b [] [] := ⟨(List.append_nil _).symm, (List.append_nil _).symm⟩

theorem carries_settleSource {b' : EpiBridge} {keep : Bool} {fromSock fromSlave : Bytes}
    (h : b.Carries b' fromSock fromSlave) : b.Carries (settleSource s (b', keep)) fromSock fromSlave := by
  cases keep
  · exact ⟨h.toSlave, h.toSock⟩
  · exact h

theorem carries_scheduleDeath {b' : EpiBridge} {fromSock fromSlave : Bytes}
    (h : b.Carries b' fromSock fromSlave) : b.Carries (b'.scheduleDeath ev) fromSock fromSlave := by
  unfold scheduleDeath
  split
  · exact h
  · exact ⟨h.toSlave, h.toSock⟩

theorem carries_forwardToSock (b : EpiBridge) (ev : Wake) (data : Bytes) :
    b.Carries (b.forwardToSock ev data) [] data := by
  have hFlush := ((b.toSock.append data).flushed_flushBuf ev.writes).carried
  rw [Outlet.carried_append] at hFlush
  unfold forwardToSock
  generalize (b.toSock.append data).flushBuf ev.writes = flushed at hFlush
  obtain ⟨o, ok⟩ := flushed
  have hMoved : b.Carries { b with toSock := o } [] data := ⟨(List.append_nil _).symm, hFlush⟩
  cases ok with
  | false => exact carries_scheduleDeath hMoved
  | true =>
    dsimp only
    split
    · exact ⟨hMoved.toSlave, hMoved.toSock⟩
    · exact hMoved

theorem carries_forwardToSlave (b : EpiBridge) (ev : Wake) (data : Bytes) :
    b.Carries (b.forwardToSlave ev data) data [] := by
  have hFlush := ((b.toSlave.append data).flushed_flushBuf ev.writes).carried
  rw [Outlet.carried_append] at hFlush
  unfold forwardToSlave
  generalize (b.toSlave.append data).flushBuf ev.writes = flushed at hFlush
  obtain ⟨o, ok⟩ := flushed
  have hMoved : b.Carries { b with toSlave := o } data [] := ⟨hFlush, (List.append_nil _).symm⟩
  cases ok with
  | false => exact hMoved
  | true =>
    dsimp only
    split
    · exact ⟨hMoved.toSlave, hMoved.toSock⟩
    · exact hMoved

theorem carries_onSockWritable (b : EpiBridge) (ev : Wake) : b.Carries (b.onSockWritable ev).1 [] [] := by
  have hFlush := (b.toSock.flushed_flushBuf ev.writes).carried
  unfold onSockWritable
  split
  · exact carries_scheduleDeath ⟨(List.append_nil _).symm, (List.append_nil _).symm⟩
  generalize b.toSock.flushBuf ev.writes = flushed at hFlush
  obtain ⟨o, ok⟩ := flushed
  have hMoved : b.Carries { b with toSock := o } [] [] :=
    ⟨(List.append_nil _).symm, hFlush.trans (List.append_nil _).symm⟩
  cases ok with
  | false => exact carries_scheduleDeath ⟨hMoved.toSlave, hMoved.toSock⟩
  | true =>
    dsimp only
    split
    · exact ⟨hMoved.toSlave, hMoved.toSock⟩
    · exact hMoved

theorem carries_onSlaveWritable (b : EpiBridge) (ev : Wake) : b.Carries (b.onSlaveWritable ev).1 [] [] := by
  have hFlush := (b.toSlave.flushed_flushBuf ev.writes).carried
  unfold onSlaveWritable
  generalize b.toSlave.flushBuf ev.writes = flushed at hFlush
  obtain ⟨o, ok⟩ := flushed
  have hMoved : b.Carries { b with toSlave := o } [] [] :=
    ⟨hFlush.trans (List.append_nil _).symm, (List.append_nil _).symm⟩
  cases ok with
  | false => exact ⟨hMoved.toSlave, hMoved.toSock⟩
  | true =>
    dsimp only
    split
    · exact ⟨hMoved.toSlave, hMoved.toSock⟩
    · exact hMoved

theorem carries_onSockReadable (b : EpiBridge) (ev : Wake) :
    b.Carries (b.onSockReadable ev).1 (ev.taken .sockReadable) [] := by
  have hRest := carries_refl b
  unfold onSockReadable Wake.taken
  cases ev.read with
  | got data =>
    cases data with
    | nil => exact carries_scheduleDeath ⟨hRest.toSlave, hRest.toSock⟩
    | cons byte data => exact carries_forwardToSlave b ev (byte :: data)
  | failed => exact carries_scheduleDeath ⟨hRest.toSlave, hRest.toSock⟩
  | again | intr => exact hRest

theorem carries_onSlaveReadable (b : EpiBridge) (ev : Wake) :
    b.Carries (b.onSlaveReadable ev).1 [] (ev.taken .slaveReadable) := by
  have hRest := carries_refl b
  unfold onSlaveReadable Wake.taken
  dsimp only
  split
  · exact ⟨hRest.toSlave, hRest.toSock⟩
  cases ev.read with
  | got data =>
    cases data with
    | nil => exact ⟨hRest.toSlave, hRest.toSock⟩
    | cons byte data => exact carries_forwardToSock b ev (byte :: data)
  | again | intr | failed => exact hRest

theorem carries_step {b' : EpiBridge} (hStep : b.step ev = some b') :
    b.Carries b' (b.readBy .sockReadable ev) (b.readBy .slaveReadable ev) := by
  obtain ⟨_, s, result, hFind, hResult, rfl⟩ := step_eq_some hStep
  unfold readBy
  rw [hFind]
  dsimp only
  cases hWatch : s.watch with
  | death =>
    rw [hWatch] at hResult
    cases hResult
  | sockReadable =>
    rw [hWatch] at hResult
    cases hResult
    exact carries_settleSource (carries_onSockReadable b ev)
  | sockWritable =>
    rw [hWatch] at hResult
    cases hResult
    exact carries_settleSource (carries_onSockWritable b ev)
  | slaveReadable =>
    rw [hWatch] at hResult
    cases hResult
    exact carries_settleSource (carries_onSlaveReadable b ev)
  | slaveWritable =>
    rw [hWatch] at hResult
    cases hResult
    exact carries_settleSource (carries_onSlaveWritable b ev)

end EpiBridge

/-- Over a run each direction carries what the reads of the run have returned. -/
theorem Readers.carried_of_run (readers : Readers) {wakes : List Wake} {b : EpiBridge}
    (h : (pump readers).run wakes = some b) :
    b.toSlave.carried = readers.readBy .sockReadable wakes ∧
    b.toSock.carried = readers.readBy .slaveReadable wakes := by
  have hSteps : ∀ step ∈ (pump readers).steps wakes, (pump readers).step step.before step.input = some step.after :=
    fun step hMem => ((pump readers).stepsFrom_spec (P := fun _ => True) (fun _ _ _ _ _ _ => trivial) trivial
      step hMem).2.1
  constructor
  · exact @Machine.runFrom_record _ _ (pump readers) _ _ _ _ (fun b => b.toSlave.carried) _
      (fun step hMem => (EpiBridge.carries_step (hSteps step hMem)).toSlave) h
  · exact @Machine.runFrom_record _ _ (pump readers) _ _ _ _ (fun b => b.toSock.carried) _
      (fun step hMem => (EpiBridge.carries_step (hSteps step hMem)).toSock) h

theorem Readers.sound_attachBridge (readers : Readers) : readers.attachBridge.Sound := by
  have hNew : ∀ watch, watch ≠ .sockReadable → watch ≠ .slaveReadable →
      Outlet.new.Sound watch readers.attachBridge.sources := by
    intro watch hSock hSlave
    refine ⟨fun id => ?_, fun _ hWaits => absurd rfl hWaits⟩
    constructor
    · intro hIn
      rcases List.mem_cons.mp hIn with hSame | hIn
      · exact absurd (congrArg Source.watch hSame) hSlave
      · exact absurd (congrArg Source.watch (List.mem_singleton.mp hIn)) hSock
    · rintro ⟨rfl, hNonzero⟩
      exact absurd rfl hNonzero
  refine ⟨hNew _ (by decide) (by decide), hNew _ (by decide) (by decide), ?_⟩
  exact List.nodup_cons.mpr ⟨fun hIn => readers.distinct (List.mem_singleton.mp hIn).symm, List.nodup_singleton _⟩

/-- Both directions are queues, no direction has two writable sources, and nothing waits without one as long as
there has been no hard error. -/
theorem bridge_fifo (readers : Readers) {wakes : List Wake} {b : EpiBridge} (h : (pump readers).run wakes = some b) :
    b.toSlave.written ++ b.toSlave.buf = readers.readBy .sockReadable wakes ∧
    b.toSock.written ++ b.toSock.buf = readers.readBy .slaveReadable wakes ∧
    (b.sources.filter fun s => s.watch = .sockWritable).length ≤ 1 ∧
    (b.sources.filter fun s => s.watch = .slaveWritable).length ≤ 1 ∧
    (b.toSock.failed = false → b.toSock.buf ≠ [] → ∃ s ∈ b.sources, s.watch = .sockWritable) ∧
    (b.toSlave.failed = false → b.toSlave.buf ≠ [] → ∃ s ∈ b.sources, s.watch = .slaveWritable) := by
  have hSound : b.Sound := (pump readers).run_invariant readers.sound_attachBridge (fun _ _ _ hs =>
    EpiBridge.sound_step hs) h
  obtain ⟨hSlave, hSock⟩ := readers.carried_of_run h
  exact ⟨hSlave, hSock, hSound.toSock.single hSound.unique, hSound.toSlave.single hSound.unique,
    hSound.toSock.watching, hSound.toSlave.watching⟩

def twoReaders : Readers := ⟨1, 2, by decide, by decide, by decide⟩

/-- Output and keystrokes; of neither all can be written at once, and then some more can. -/
def slowBoth : List Wake :=
  [⟨1, true, false, .got [65, 66, 67], [.intr, .wrote 1, .again], 3⟩,
    ⟨2, true, false, .got [13, 10], [.wrote 1, .again], 4⟩, ⟨1, true, false, .got [68], [.again], 5⟩,
    ⟨3, false, false, .again, [.wrote 2, .again], 5⟩]

theorem bridge_fifo_slowBoth : ∃ b, (pump twoReaders).run slowBoth = some b ∧
    b.toSlave.buf = [68] ∧ b.toSlave.written ++ b.toSlave.buf = [65, 66, 67, 68] ∧
    b.toSock.buf = [10] ∧ b.toSock.written ++ b.toSock.buf = [13, 10] ∧
    (∃ s ∈ b.sources, s.watch = .slaveWritable) ∧ ∃ s ∈ b.sources, s.watch = .sockWritable := by
  have hRun : ((pump twoReaders).run slowBoth).any fun b => b.toSlave.failed = false ∧ b.toSock.failed = false ∧
      b.toSlave.buf = [68] ∧ b.toSock.buf = [10] := by decide +kernel
  have hSock : twoReaders.readBy .sockReadable slowBoth = [65, 66, 67, 68] := by decide +kernel
  have hSlave : twoReaders.readBy .slaveReadable slowBoth = [13, 10] := by decide +kernel
  obtain ⟨b, hb, hState⟩ := (pump twoReaders).exists_of_run_any hRun
  obtain ⟨hOk, hOk', hBuf, hBuf'⟩ := of_decide_eq_true hState
  obtain ⟨hFifo, hFifo', -, -, hArmed', hArmed⟩ := bridge_fifo twoReaders hb
  have hWaits : b.toSlave.buf ≠ [] := by
    rw [hBuf]
    decide
  have hWaits' : b.toSock.buf ≠ [] := by
    rw [hBuf']
    decide
  exact ⟨b, hb, hBuf, hFifo.trans hSock, hBuf', hFifo'.trans hSlave, hArmed hOk hWaits, hArmed' hOk' hWaits'⟩

end Epimone.Client
