import Epimone.Daemon.InputStream

/-! # Input over whole runs

Each step of a run types into the sessions what its read delivers, and the
PTYs take it in the order in which it came. What is dropped is dropped by a
write that fails for good, or once the PTY has been closed. Input comes only
from the connection that is attached, and not any more once the attachment is
severed.
-/
set_option autoImplicit false

namespace Epimone.Daemon

open Transition History

/-- The effect ends the attachment of the connection to the session, or the session's life. -/
def Effect.severs (c : ConnPtr) (s : SessPtr) : Effect → Bool
  | .detached d _ | .closed d => d == c
  | .attached _ t _ _ | .killed t _ | .freed t => t == s
  | _ => false

/-- The connection is attached to the session, and nothing since then has ended that. -/
def Tethered (c : ConnPtr) (s : SessPtr) (history : List Effect) : Prop :=
  ∃ before unsent ring after, history = before ++ .attached c s unsent ring :: after ∧
    ∀ e ∈ after, e.severs c s = false

def fromClient (history : List Effect) : Effect → Prop
  | .input s c _ => Tethered c s history
  | _ => True

def Server.Tethers (srv : Server) : Prop :=
  ∀ s c, (srv.sess s).client = some c → Tethered c s srv.trace

section Perform

variable {srv : Server} {a : Act}

theorem Tethered.append {c : ConnPtr} {s : SessPtr} {history es : List Effect} (h : Tethered c s history)
    (hSpares : ∀ e ∈ es, e.severs c s = false) : Tethered c s (history ++ es) := by
  obtain ⟨before, unsent, ring, after, rfl, hAfter⟩ := h
  refine ⟨before, unsent, ring, after ++ es, by simp, fun e he => ?_⟩
  exact (List.mem_append.mp he).elim (hAfter e) (hSpares e)

theorem severs_mem_effects {c : ConnPtr} {s : SessPtr} {e : Effect} (h : e ∈ a.effects srv)
    (hSevers : e.severs c s = true) :
    (∃ d ans, a = .attach d s ans) ∨ (∃ t, a = .unbind t c) ∨ a = .close c ∨ (∃ clock, a = .kill s clock) ∨
      ∃ rest, a = .free s rest := by
  cases e with
  | attached d t n ring =>
    obtain rfl : t = s := by simpa [Effect.severs] using hSevers
    cases a <;> simp [Act.effects, attachEffects] at h
    obtain ⟨rfl, rfl, rfl, rfl⟩ := h
    exact Or.inl ⟨_, _, rfl⟩
  | detached d t =>
    obtain rfl : d = c := by simpa [Effect.severs] using hSevers
    cases a <;> simp [Act.effects, attachEffects] at h
    obtain ⟨rfl, rfl⟩ := h
    exact Or.inr (Or.inl ⟨_, rfl⟩)
  | closed d =>
    obtain rfl : d = c := by simpa [Effect.severs] using hSevers
    cases a <;> simp [Act.effects, attachEffects] at h
    obtain rfl := h
    exact Or.inr (Or.inr (Or.inl rfl))
  | killed t deadline =>
    obtain rfl : t = s := by simpa [Effect.severs] using hSevers
    cases a <;> simp [Act.effects, attachEffects] at h
    obtain ⟨rfl, _⟩ := h
    exact Or.inr (Or.inr (Or.inr (Or.inl ⟨_, rfl⟩)))
  | freed t =>
    obtain rfl : t = s := by simpa [Effect.severs] using hSevers
    cases a <;> simp [Act.effects, attachEffects] at h
    obtain rfl := h
    exact Or.inr (Or.inr (Or.inr (Or.inr ⟨_, rfl⟩)))
  | _ => cases hSevers

/-- An action severs only the attachment that it undoes. -/
theorem spares_effects {s : SessPtr} {c : ConnPtr} (hLinks : srv.links.Consistent) (hGuard : a.guard srv)
    (hBefore : (srv.sess s).client = some c) (hAfter : ((a.perform srv).sess s).client = some c) :
    ∀ e ∈ a.effects srv, e.severs c s = false := by
  have hBound := (hLinks.paired c s).mpr hBefore
  have hRelinked : (a.relink srv.links).client s = some c := by
    rw [← links_perform hGuard]
    exact hAfter
  intro e he
  rw [← Bool.not_eq_true]
  intro hSevers
  rcases severs_mem_effects he hSevers with ⟨d, ans, rfl⟩ | ⟨t, rfl⟩ | rfl | ⟨clock, rfl⟩ | ⟨rest, rfl⟩
  · -- the session has a client, and it is no control connection
    have hClient : some c = none ∨ some c = some d := by
      rw [← hBefore]
      exact hGuard.2.2.2.2.1
    rcases hClient with hNone | hSame
    · cases hNone
    · obtain rfl := Option.some.inj hSame
      have hData : srv.links.isData c = false := hGuard.2.1
      rw [(hLinks.bound_conn c s hBound).2] at hData
      cases hData
  · obtain rfl : t = s := hLinks.client_unique hGuard hBefore
    simp [Act.relink, Links.unbind] at hRelinked
  · have hClient : srv.links.client s = some c := hBefore
    simp [Act.relink, Links.close, hBound, hClient] at hRelinked
  · rw [hGuard.2.1] at hBefore
    cases hBefore
  · refine hLinks.disjoint s (hLinks.bound_listed c s hBound) ?_
    rw [show srv.links.dead = s :: rest from hGuard]
    exact List.mem_cons_self

theorem tethers_perform (hLinks : srv.links.Consistent) (h : srv.Tethers) (hGuard : a.guard srv) :
    (a.perform srv).Tethers := by
  intro s c hClient
  rw [trace_perform]
  have hRelinked : (a.relink srv.links).client s = some c := by
    rw [← links_perform hGuard]
    exact hClient
  rcases client_relink hRelinked with ⟨ans, rfl⟩ | ⟨hOld, _⟩
  · refine ⟨srv.trace ++ frameEffects { srv.conn c with isData := true, session := some s } c
      (greeting srv c s ans) ans.queueAlloc, (greeted srv c s ans).unsent.length, (srv.sess s).out.ring.contents,
      replayEffects (greeted srv c s ans) c (srv.sess s).out ans, ?_, ?_⟩
    · exact (List.append_assoc _ _ _).symm
    · intro e he
      simp only [mem_replayEffects, mem_enqueueEffects] at he
      rcases he with ⟨_, _, _, rfl | ⟨_, rfl⟩⟩ | ⟨_, _, rfl⟩ <;> rfl
  · exact (h s c hOld).append (spares_effects hLinks hGuard hOld hClient)

theorem fromClient_effects (hLinks : srv.links.Consistent) (h : srv.Tethers) (hGuard : a.guard srv) :
    Lawful (fun history => fromClient (srv.trace ++ history)) (a.effects srv) := by
  intro before e after hSplit
  cases e with
  | input s c data =>
    have hIn : .input s c data ∈ a.effects srv := by rw [hSplit]; simp
    cases a with
    | input t d bytes =>
      have hLength : 1 = before.length + (after.length + 1) := by
        simpa [Act.effects] using congrArg List.length hSplit
      obtain rfl : before = [] := List.length_eq_zero_iff.mp (by omega)
      cases hSplit
      rw [List.append_nil]
      exact h s c ((hLinks.paired c s).mp hGuard.2)
    | _ => simp [Act.effects, attachEffects] at hIn
  | _ => trivial

theorem Reached.fromClient {instanceId : Nat} (h : Reached instanceId srv) :
    Lawful fromClient srv.trace := by
  have hAll : srv.Tethers ∧ Lawful Daemon.fromClient srv.trace := by
    refine Reached.invariant (P := fun t => t.Tethers ∧ Lawful Daemon.fromClient t.trace)
      ⟨fun s c hClient => (nomatch hClient), lawful_nil⟩ ?_ h
    rintro t a hLinks ⟨hTethers, hLaw⟩ hGuard
    exact ⟨tethers_perform hLinks hTethers hGuard,
      lawful_perform.mpr ⟨hLaw, fromClient_effects hLinks hTethers hGuard⟩⟩
  exact hAll.2

end Perform

section Events

variable {srv srv' : Server} {c : ConnPtr} {s : SessPtr}

theorem flushReady_inbuf (hc : c ∈ srv.conns) (ev : Events) (ans : ConnAnswers) :
    (flushReady srv c ev ans).inbuf = srv.inbuf := by
  refine Actions.Path.related (R := fun t u => u.inbuf = t.inbuf) (fun _ => rfl) ?_ ?_ (path_flushReady hc ev ans)
  · intro t u v hFirst hSecond
    exact hSecond.trans hFirst
  · intro t a _ ha
    cases a <;> first | rfl | cases ha

theorem spares_flushes {a : Act} (h : a.flushes c = true) : a.wires = false ∧
    (∀ type body, a ≠ .frame c type body) ∧ ∀ s ans, a ≠ .attach c s ans := by
  cases a <;> first | exact ⟨rfl, fun _ _ => Act.noConfusion, fun _ _ => Act.noConfusion⟩ | cases h

/-- The actions with which the run loop settles a connection. -/
def Act.settles (c : ConnPtr) (a : Act) : Prop := a = .update c ∨ a = .close c

theorem spares_settles {a : Act} (h : a.settles c) : a.wires = false ∧
    (∀ type body, a ≠ .frame c type body) ∧ ∀ s ans, a ≠ .attach c s ans := by
  rcases h with rfl | rfl <;> exact ⟨rfl, fun _ _ => Act.noConfusion, fun _ _ => Act.noConfusion⟩

/-- The event reads the connection. -/
def Events.reads (ev : Events) : Bool := ev.pollin || ev.rdhup || ev.hup || ev.pollerr

def typedOn (srv : Server) (c : ConnPtr) (ev : Events) (ans : ConnAnswers) (es : List Effect) (s : SessPtr) : Bytes :=
  if ev.reads then typedBy srv c ans.data es s else []

theorem typedBy_congr {data : Bytes} {es before after : List Effect} (hLinks : srv'.links = srv.links)
    (hInbuf : srv'.inbuf = srv.inbuf) (hBefore : ∀ e ∈ before, e.aside c = true)
    (hAfter : ∀ e ∈ after, e.aside c = true) :
    typedBy srv' c data es = typedBy srv c data (before ++ es ++ after) := by
  funext s
  have hData : (srv'.conn c).isData = (srv.conn c).isData := congrFun (congrArg Links.isData hLinks) c
  have hBound : (srv'.conn c).session = (srv.conn c).session := congrFun (congrArg Links.bound hLinks) c
  obtain ⟨hNone, hApart⟩ := aside_turns hBefore
  obtain ⟨hNone', hApart'⟩ := aside_turns hAfter
  unfold typedBy
  rw [hData, hBound, hInbuf, attachedTo_append, attachedTo_append, hApart, hApart', framesLength_append,
    framesLength_append, hNone, hNone', Nat.zero_add, Nat.add_zero, Bool.false_or, Bool.or_false]

theorem dispatchConn_types (hLinks : srv.links.Consistent) (hc : c ∈ srv.conns) (ev : Events) {ans : ConnAnswers}
    (hAlloc : ans.pinAlloc = true) :
    ∃ es, (dispatchConn srv c ev ans).trace = srv.trace ++ es ∧ Types (typedOn srv c ev ans es)
      (fun s => typedOn srv c ev ans es s ≠ [] ∧ endsHard ans.ptyWrites = true) srv (dispatchConn srv c ev ans) := by
  have hFlush := path_flushReady hc ev ans
  have hFlushed := flushReady_links hc ev ans
  have hCons : (flushReady srv c ev ans).links.Consistent := by rw [hFlushed]; exact hLinks
  have hListed : c ∈ (flushReady srv c ev ans).conns := by
    rw [show (flushReady srv c ev ans).conns = srv.conns from congrArg Links.conns hFlushed]
    exact hc
  obtain ⟨before, hBefore, hAside⟩ := aside_path (fun a ha => (spares_flushes ha).2) hFlush
  have hSteady := steady_path (fun a ha => (spares_flushes ha).1) hFlush
  have hShut : ShutBefore srv (flushReady srv c ev ans) := by
    refine shutBefore_path hLinks ?_ hFlush
    rintro a ha t rfl
    cases ha
  have hServed : c ∈ (serveConn srv c ev ans).conns := by
    rw [(ofConn_serveConn hLinks hc ev ans).2]
    exact hc
  have hSettle : actions.Path (fun a => a.settles c) (serveConn srv c ev ans) (dispatchConn srv c ev ans) :=
    path_settleConn (Or.inl rfl) (Or.inr rfl) hServed
  obtain ⟨after, hAfter, hAside'⟩ := aside_path (fun a ha => (spares_settles ha).2) hSettle
  have hSettled := steady_path (fun a ha => (spares_settles ha).1) hSettle
  rw [serveConn_eq] at hAfter hSettled
  unfold typedOn Events.reads
  split at hAfter
  · rename_i hReads
    obtain ⟨es, hTrace, hTypes⟩ := connRead_types hCons hListed hAlloc
    have hSame := @typedBy_congr srv _ c ans.data es before after hFlushed (flushReady_inbuf hc ev ans) hAside hAside'
    rw [if_pos hReads] at hSettled
    refine ⟨before ++ es ++ after, ?_, ?_⟩
    · rw [hAfter, hTrace, hBefore]
      simp
    · simp only [hReads, if_true]
      rw [hSame] at hTypes
      exact (hTypes.before hSteady hShut).after hSettled
  · rename_i hIdle
    rw [if_neg hIdle] at hSettled
    refine ⟨before ++ after, ?_, ?_⟩
    · rw [hAfter, hBefore, List.append_assoc]
    · exact .of_steady (hSteady.trans hSettled) fun s => by simp only [hIdle, Bool.false_eq_true, if_false]

theorem heard_spares {client : Option ConnPtr} {a : Act} (h : a.hears s client = true) : a.wires = false := by
  cases a <;> first | rfl | simp [Act.hears, Act.outputs] at h

theorem flushPty_eq (srv : Server) (s : SessPtr) (ev : Events) (ans : PtyAnswers) :
    flushPty srv s ev ans =
      if ev.pollout then ptyUpdate (epiSessionFlushInput srv s ans.inputWrites) s else srv := by
  unfold flushPty
  dsimp only
  split
  · split
    · rfl
    · rename_i hShut
      rw [ptyUpdate, if_pos (by simpa using hShut)]
  · rfl

theorem dispatchPty_types (hLinks : srv.links.Consistent) {ev : Events} (hReady : Ready.Allocated srv (.pty s ev))
    (ans : PtyAnswers) :
    Types (fun _ => []) (fun t => t = s ∧ ev.pollout = true ∧ endsHard ans.inputWrites = true) srv
      (dispatchPty srv s ev ans) := by
  rw [dispatchPty_eq]
  split
  · exact .of_steady (.refl srv) fun _ => rfl
  rename_i hLive
  have hs : s ∈ srv.sessions := by
    rcases hReady with hs | hDead
    · exact hs
    · exact absurd (hLinks.dead_defunct s hDead) hLive
  have hFlush : Types (fun _ => []) (fun t => t = s ∧ ev.pollout = true ∧ endsHard ans.inputWrites = true) srv
      (flushPty srv s ev ans) := by
    rw [flushPty_eq]
    split
    · rename_i hOut
      exact .of_poured (poured_epiSessionFlushInput srv s ans.inputWrites) hs (hLinks.sessions_lt s hs) rfl
        (fun _ _ => rfl) fun hHard => ⟨rfl, hOut, hHard⟩
    · exact .of_steady (.refl srv) fun _ => rfl
  have hFlushed := links_of_feeds (@path_flushPty srv s ev ans)
  split
  · refine hFlush.after ?_
    unfold ptyReadable
    split
    · exact .refl _
    · rename_i hOpen
      have hPty : ((flushPty srv s ev ans).sess s).ptyOpen = true := by simp_all
      exact steady_path (fun _ => heard_spares)
        (heard_ptyReadLoop (by rw [hFlushed]; exact hLinks) hPty ans.eofWrites ans.reads)
  · exact hFlush

theorem dry_of_finish {a : Act} (h : a.ofFinish = true) : ∀ e ∈ a.effects srv, e.dry = true := by
  cases a with
  | free t rest =>
    intro e he
    rw [List.mem_singleton.mp he]
    rfl
  | escalate t => exact dry_effects rfl
  | _ => cases h

theorem reapDeadSessions_types : Types (fun _ => []) (fun s => s ∈ srv.dead) srv (reapDeadSessions srv) := by
  have hPath := (@ofFinish_reapDead srv srv.dead rfl).1
  have hNext := nextSess_path hPath
  obtain ⟨es, hTrace, hDry⟩ := trace_path (fun t a _ ha => dry_of_finish ha) hPath
  have hCell : ∀ t, (reapDeadSessions srv).sess t = if t ∈ srv.dead then .blank else srv.sess t :=
    reapDead_sess srv.dead
  change srv.nextSess ≤ (reapDeadSessions srv).nextSess at hNext
  change (reapDeadSessions srv).trace = _ at hTrace
  generalize reapDeadSessions srv = reaped at *
  intro hWired
  refine ⟨⟨fun t hOpen => ?_, fun t ht => ?_⟩, fun t => ?_⟩
  · rw [hCell] at hOpen ⊢
    split at hOpen
    · cases hOpen
    · rename_i hLive
      rw [if_neg hLive]
      exact hWired.watched t hOpen
  · rw [hCell]
    split
    · rfl
    · exact hWired.fresh t (Nat.le_trans hNext ht)
  · obtain ⟨hTyped, hTaken⟩ := dry_typed hDry t
    rcases em (t ∈ srv.dead) with hDead | hLive
    · refine ⟨[], (srv.sess t).pin, ⟨⟨es, hTrace, hTyped, hTaken⟩, ?_⟩, fun _ => Or.inr hDead⟩
      rw [hCell, if_pos hDead]
      rfl
    · refine ⟨[], [], ⟨⟨es, hTrace, hTyped, hTaken⟩, ?_⟩, fun hLost => absurd rfl hLost⟩
      rw [hCell, if_neg hLive]
      simp

theorem tended_escalateAll (clock : SessPtr → Timespec) (l : List SessPtr) :
    Tended srv (escalateAll clock l srv) := by
  induction l generalizing srv with
  | nil => exact .refl srv
  | cons s rest ih =>
    refine Tended.trans ?_ ih
    unfold escalate
    dsimp only
    split
    · exact tended_perform (a := .escalate s) rfl
    · exact .refl srv

theorem finishBatch_types (now : Timespec) (early : SessPtr → Nat) :
    Types (fun _ => []) (fun s => s ∈ srv.dead) srv (finishBatch srv now early) := by
  have hPath := (@ofFinish_escalateAll (reapDeadSessions srv) (readings now early)
    (reapDeadSessions srv).sessions fun _ hs => hs).1
  obtain ⟨es, hTrace, hDry⟩ := trace_path (fun t a _ ha => dry_of_finish ha) hPath
  exact reapDeadSessions_types.after
    (steady_of_tended (tended_escalateAll _ _) (nextSess_path hPath) hTrace hDry)

end Events

section Runs

def effectsOf (step : Step Loop Input) : List Effect :=
  step.after.srv.trace.drop step.before.srv.trace.length

/-- What a step types into a session: what it reads from a connection, where that is input of the session. -/
def typedIn (s : SessPtr) (step : Step Loop Input) : Bytes :=
  match step.input, step.before.phase with
  | .dispatch (.conn ans), .batch (.conn c ev :: _) =>
    typedOn step.before.srv c ev ans (effectsOf step) s
  | _, _ => []

def takenIn (s : SessPtr) (step : Step Loop Input) : Bytes := takenBy s (effectsOf step)

/-- The step writes to the PTY of the session, and a write fails for good. -/
def failsHard (s : SessPtr) (step : Step Loop Input) : Prop :=
  match step.input, step.before.phase with
  | .dispatch (.conn ans), .batch (.conn _ _ :: _) => typedIn s step ≠ [] ∧ endsHard ans.ptyWrites = true
  | .dispatch (.pty ans), .batch (.pty t ev :: _) => t = s ∧ ev.pollout = true ∧ endsHard ans.inputWrites = true
  | _, _ => False

/-- The queue of input can grow. -/
def Input.growsPin : Input → Bool
  | .dispatch (.conn ans) => ans.pinAlloc
  | _ => true

theorem step_types {loop loop' : Loop} {input : Input} (h : loop.Sound) (hAlloc : input.growsPin = true)
    (hStep : loop.step input = some loop') :
    (∃ es, loop'.srv.trace = loop.srv.trace ++ es) ∧ Types (fun s => typedIn s ⟨loop, input, loop'⟩)
      (fun s => s ∈ loop.srv.dead ∨ failsHard s ⟨loop, input, loop'⟩) loop.srv loop'.srv := by
  have hPath := step_path h hStep
  obtain ⟨grown, hGrown, _⟩ := trace_path (Q := fun _ => True) (fun _ _ _ _ _ _ => trivial) hPath
  refine ⟨⟨grown, hGrown⟩, ?_⟩
  obtain ⟨srv, phase⟩ := loop
  cases input with
  | wait clock batch =>
    cases phase <;> simp only [Loop.step, reduceCtorEq] at hStep
    split at hStep <;> cases hStep
    exact .of_steady (.refl srv) fun _ => rfl
  | interrupted => cases phase <;> cases hStep; exact .of_steady (.refl srv) fun _ => rfl
  | waitFails => cases phase <;> cases hStep; exact .of_steady (.refl srv) fun _ => rfl
  | dispatch ans =>
    cases phase with
    | head => cases hStep
    | stopped => cases hStep
    | batch events =>
      cases events with
      | nil => cases hStep
      | cons ready rest =>
        obtain ⟨srv', hDispatch, rfl⟩ := Option.map_eq_some_iff.mp hStep
        have hReady := h.allocated ready List.mem_cons_self
        cases ready with
        | listen =>
          cases ans <;> cases hDispatch
          refine .of_steady (steady_path ?_ (ofAccept_acceptConn _ (Nat.le_refl _))) fun _ => rfl
          rintro a ha
          cases a <;> first | rfl | cases ha
        | signal =>
          cases ans <;> cases hDispatch
          refine .of_steady (steady_path ?_ (ofSignal_handleSignalfd _)) fun _ => rfl
          rintro a ha
          cases a <;> first | rfl | cases ha
        | pty s ev =>
          cases ans with
          | pty ans =>
            obtain rfl := Option.some.inj hDispatch
            exact (dispatchPty_types h.consistent hReady ans).mono fun _ hHard => Or.inr ⟨hHard.1.symm, hHard.2⟩
          | _ => cases hDispatch
        | conn c ev =>
          cases ans with
          | conn ans =>
            obtain rfl := Option.some.inj hDispatch
            obtain ⟨es, hTrace, hTypes⟩ := dispatchConn_types h.consistent hReady ev hAlloc
            have hEffects : ∀ s, typedIn s ⟨⟨srv, .batch (.conn c ev :: rest)⟩, .dispatch (.conn ans),
                ⟨dispatchConn srv c ev ans, .batch rest⟩⟩ = typedOn srv c ev ans es s := by
              intro s
              simp only [typedIn, effectsOf, hTrace, List.drop_left]
            have hAll := funext hEffects
            rw [← hAll] at hTypes
            refine hTypes.mono fun s hHard => Or.inr ⟨hHard.1, hHard.2⟩
          | _ => cases hDispatch
  | finish now early =>
    cases phase with
    | head => cases hStep
    | stopped => cases hStep
    | batch events =>
      cases events with
      | cons => cases hStep
      | nil =>
        cases hStep
        exact (finishBatch_types now early).mono fun _ hDead => Or.inl hDead

variable {instanceId : Nat} {srv : Server} {s : SessPtr}

/-- A session that is off the list, or on it with a closed PTY, has had its PTY closed. -/
theorem Reached.closed_of_dead (h : Reached instanceId srv) (hs : s ∈ srv.dead) : .ptyClosed s ∈ srv.trace := by
  have hTally := h.tallied
  have hPlaces := hTally.places s
  have hMasters := hTally.masters s
  have hOnce := hTally.once s
  have hCount := List.count_pos_iff.mpr hs
  rw [shut_of_dead h.consistent hs, Bool.toNat_false] at hMasters
  exact List.count_pos_iff.mp (by omega)

theorem initial_wired (instanceId : Nat) : (Server.initial instanceId).Wired :=
  ⟨fun _ hOpen => (nomatch hOpen), fun _ _ => rfl⟩

/-- What holds where a step of a run begins. -/
structure Loop.Poised (instanceId : Nat) (loop : Loop) : Prop where
  sound : loop.Sound
  reached : Reached instanceId loop.srv
  wired : loop.srv.Wired

theorem poised_step {loop loop' : Loop} {input : Input} (h : loop.Poised instanceId)
    (hAlloc : input.growsPin = true) (hStep : loop.step input = some loop') : loop'.Poised instanceId :=
  ⟨step_sound h.sound hStep, h.reached.trans (step_path h.sound hStep),
    ((step_types h.sound hAlloc hStep).2 h.wired).1⟩

/-- What a step drops of the input of a session: what is neither taken nor left of what waited and came. -/
def droppedIn (s : SessPtr) (step : Step Loop Input) : Bytes :=
  let waiting := (step.before.srv.sess s).pin ++ typedIn s step
  let left := waiting.drop (takenIn s step).length
  left.take (left.length - (step.after.srv.sess s).pin.length)

theorem droppedIn_eq {step : Step Loop Input} {lost : Bytes}
    (h : (step.before.srv.sess s).pin ++ typedIn s step =
      takenIn s step ++ lost ++ (step.after.srv.sess s).pin) : droppedIn s step = lost := by
  unfold droppedIn
  dsimp only
  rw [h, List.append_assoc, List.drop_left, List.length_append, Nat.add_sub_cancel]
  exact List.take_left

theorem step_balance {step : Step Loop Input} (h : step.before.Poised instanceId)
    (hAlloc : step.input.growsPin = true) (hStep : step.before.step step.input = some step.after) (s : SessPtr) :
    (step.before.srv.sess s).pin ++ typedIn s step =
        (takenIn s step ++ droppedIn s step) ++ (step.after.srv.sess s).pin ∧
      step.after.srv.trace = step.before.srv.trace ++ effectsOf step ∧
      typedTo s (effectsOf step) = typedIn s step ∧
      (droppedIn s step ≠ [] → .ptyClosed s ∈ step.before.srv.trace ∨ failsHard s step) := by
  obtain ⟨⟨es, hTrace⟩, hTypes⟩ := step_types h.sound hAlloc hStep
  have hEffects : effectsOf step = es := by
    rw [effectsOf, hTrace, List.drop_left]
  obtain ⟨taken, lost, ⟨⟨es', hTrace', hTyped, hTaken⟩, hBalance⟩, hLost⟩ := (hTypes h.wired).2 s
  obtain rfl : es' = es := List.append_cancel_left (hTrace'.symm.trans hTrace)
  have hHere : takenIn s step = taken := by rw [takenIn, hEffects, hTaken]
  have hBooks : (step.before.srv.sess s).pin ++ typedIn s step =
      takenIn s step ++ lost ++ (step.after.srv.sess s).pin := by rw [hHere]; exact hBalance
  have hDropped := droppedIn_eq hBooks
  rw [hDropped, hEffects]
  refine ⟨hBooks, hTrace, hTyped, fun hDrop => ?_⟩
  rcases hLost hDrop with ⟨hs, hShut⟩ | hDead | hHard
  · exact Or.inl (h.reached.closingsNoted s hs hShut)
  · exact Or.inl (h.reached.closed_of_dead hDead)
  · exact Or.inr hHard

/-- The stream from the clients to the PTYs loses nothing but what the PTYs refuse. -/
theorem input_stream_exact {inputs : List Input} {loop : Loop} (h : (machine instanceId).run inputs = some loop)
    (hAlloc : ∀ input ∈ inputs, input.growsPin = true) :
    (∀ s, ((machine instanceId).steps inputs).flatMap (typedIn s) =
        ((machine instanceId).steps inputs).flatMap (fun step => takenIn s step ++ droppedIn s step) ++
          (loop.srv.sess s).pin ∧
      takenBy s loop.srv.trace = ((machine instanceId).steps inputs).flatMap (takenIn s) ∧
      typedTo s loop.srv.trace = ((machine instanceId).steps inputs).flatMap (typedIn s) ∧
      ∀ step ∈ (machine instanceId).steps inputs, droppedIn s step ≠ [] →
        .ptyClosed s ∈ step.before.srv.trace ∨ failsHard s step) ∧
    Lawful fromClient loop.srv.trace ∧
    ∀ s, (loop.srv.sess s).ptyOpen = true →
      (loop.srv.sess s).ptyEvents = some ⟨true, !(loop.srv.sess s).pin.isEmpty, false, false, false⟩ := by
  have hStart : (machine instanceId).init.Poised instanceId :=
    ⟨initial_sound instanceId, .refl _, initial_wired instanceId⟩
  have hKeeps : ∀ l i l', Loop.Poised instanceId l → i ∈ inputs → (machine instanceId).step l i = some l' →
      l'.Poised instanceId := fun l i l' hl hi => poised_step hl (hAlloc i hi)
  have hEnd := (machine instanceId).runFrom_of_mem hKeeps hStart h
  have hSteps := (machine instanceId).stepsFrom_spec hKeeps hStart
  have hBooks : ∀ step ∈ (machine instanceId).steps inputs, ∀ s, _ := fun step hMem s =>
    step_balance (hSteps step hMem).1 (hAlloc _ (hSteps step hMem).2.2) (hSteps step hMem).2.1 s
  refine ⟨fun s => ⟨?_, ?_, ?_, fun step hMem => (hBooks step hMem s).2.2.2⟩, (reached_of_run h).fromClient,
    hEnd.wired.watched⟩
  · have hFlow := @Machine.runFrom_flow _ _ (machine instanceId) _ _ _ _ (fun l => (l.srv.sess s).pin)
      (typedIn s) (fun step => takenIn s step ++ droppedIn s step) (fun step hMem => (hBooks step hMem s).1) h
    exact hFlow
  · refine @Machine.runFrom_record _ _ (machine instanceId) _ _ _ _ (fun l => takenBy s l.srv.trace) (takenIn s)
      (fun step hMem => ?_) h
    rw [(hBooks step hMem s).2.1, takenBy_append, takenIn]
  · refine @Machine.runFrom_record _ _ (machine instanceId) _ _ _ _ (fun l => typedTo s l.srv.trace) (typedIn s)
      (fun step hMem => ?_) h
    rw [(hBooks step hMem s).2.1, typedTo_append, (hBooks step hMem s).2.2.1]

/-- The client of `attaching` types two bytes that the PTY does not take at once. -/
def typing : List Input :=
  attaching ++ batchOf (.conn 0 readable) (.conn (calmConn [] [104, 105] (by decide) 0 ⟨0⟩)) ⟨0⟩

theorem input_stream_exact_typing :
    ∃ loop, (machine 7).run typing = some loop ∧ (loop.srv.sess 0).pin = [104, 105] ∧
      (loop.srv.sess 0).ptyEvents = some ⟨true, true, false, false, false⟩ ∧
      typedTo 0 loop.srv.trace = ((machine 7).steps typing).flatMap
        (fun step => takenIn 0 step ++ droppedIn 0 step) ++ [104, 105] := by
  have hRun : ((machine 7).run typing).any fun loop =>
      (loop.srv.sess 0).pin == [104, 105] && (loop.srv.sess 0).ptyOpen := by decide +kernel
  obtain ⟨loop, hLoop, hHere⟩ := (machine 7).exists_of_run_any hRun
  obtain ⟨hPin, hOpen⟩ : (loop.srv.sess 0).pin = [104, 105] ∧ (loop.srv.sess 0).ptyOpen = true := by
    simpa using hHere
  have hAlloc : ∀ input ∈ typing, input.growsPin = true := by
    intro input hMem
    simp only [typing, attaching, accepting, batchOf, List.mem_append, List.mem_cons, List.not_mem_nil,
      or_false] at hMem
    rcases hMem with (((rfl | rfl | rfl) | rfl | rfl | rfl) | rfl | rfl | rfl) | rfl | rfl | rfl <;> rfl
  obtain ⟨hStream, _, hWatched⟩ := input_stream_exact hLoop hAlloc
  obtain ⟨hBooks, _, hTyped, _⟩ := hStream 0
  refine ⟨loop, hLoop, hPin, ?_, ?_⟩
  · have hEvents := hWatched 0 hOpen
    rw [hPin] at hEvents
    exact hEvents
  · rw [hTyped, hBooks, hPin]

end Runs

end Epimone.Daemon
