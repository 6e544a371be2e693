import Epimone.Daemon.Changes
import Epimone.Daemon.Observers
import Epimone.Library.Simulation

/-! # Two runs of the daemon

Beside a run stands another in which nothing is ever read from the observers: the
same clock, the same events of everyone else with the same answers. The two agree
beyond the observers all along.
-/
set_option autoImplicit false

namespace Epimone.Daemon

open Transition

variable {watchers : ConnPtr → Bool} {srv srv' : Server} {c d : ConnPtr} {s : SessPtr} {a : Act}

section Sparing

/-- The connection an action is about, but for the two that a request of another client may bring. -/
def Act.touches : Act → Option ConnPtr
  | .queue c _ _ | .starve c | .attach c _ _ | .store c _ | .consume c _ | .freeInbound c | .condemn c | .frame c _ _
  | .framingError c | .input _ c _ | .write c _ | .failWrite c | .reset c | .relay _ c _ _ _ | .relayed c | .eof _ c
  | .shutdown c | .watchConn c | .close c => some c
  | _ => none

/-- The action is about other connections, if about any. -/
def Act.spares (c : ConnPtr) (a : Act) : Prop := a ≠ .openConn ∧ a.touches ≠ some c

/-- Nothing has been heard of the connection, and nothing is kept for it. -/
structure Dormant (srv : Server) (c : ConnPtr) : Prop extends Idle srv c where
  kept : (srv.conn c).wantClose = false
  watched : c ∈ srv.conns → (srv.conn c).events.any Events.pollin = true
  unheard : ∀ e ∈ srv.trace, e.peer = some c → e = .closed c

theorem Idle.not_client (h : Idle srv c) (hCons : srv.links.Consistent) (s : SessPtr) :
    (srv.sess s).client ≠ some c := by
  intro hClient
  have hBound : (srv.conn c).session = some s := (hCons.paired c s).mpr hClient
  rw [h.unbound] at hBound
  cases hBound

theorem connAfter_of_spares (hCons : srv.links.Consistent) (h : Idle srv c) (hGuard : a.guard srv)
    (hSpares : a.spares c) {k : Connection} (hAfter : a.connAfter srv = some (c, k)) :
    k.isData = (srv.conn c).isData ∧ k.session = (srv.conn c).session ∧ k.wantClose = (srv.conn c).wantClose ∧
      k.events.any Events.pollin = true := by
  cases a with
  | unbind s d =>
    cases hAfter
    exact absurd hGuard (h.not_client hCons s)
  | update d =>
    cases hAfter
    exact ⟨rfl, rfl, rfl, rfl⟩
  | openConn => exact absurd rfl hSpares.1
  | queue | attach | condemn | failWrite | eof | write | reset | relay | watchConn | close =>
    cases hAfter
    exact absurd rfl hSpares.2
  | _ => cases hAfter

theorem conn_of_spares (hCons : srv.links.Consistent) (h : Idle srv c) (hGuard : a.guard srv) (hSpares : a.spares c) :
    (a.perform srv).conn c = srv.conn c ∨
      ((a.perform srv).conn c).isData = (srv.conn c).isData ∧ ((a.perform srv).conn c).session = (srv.conn c).session ∧
        ((a.perform srv).conn c).wantClose = (srv.conn c).wantClose ∧
        ((a.perform srv).conn c).events.any Events.pollin = true := by
  rw [conn_perform]
  cases hAfter : a.connAfter srv with
  | none => exact Or.inl rfl
  | some cell =>
    obtain ⟨d, k⟩ := cell
    rcases eq_or_ne c d with rfl | hd
    · have hCell : written srv.conn (some (c, k)) c = k := Function.update_self ..
      rw [hCell]
      exact Or.inr (connAfter_of_spares hCons h hGuard hSpares hAfter)
    · exact Or.inl (Function.update_of_ne hd _ _)

theorem mem_conns_of_spares (hGuard : a.guard srv) (hSpares : a.spares c) :
    c ∈ (a.perform srv).conns ↔ c ∈ srv.conns := by
  have hConns : (a.perform srv).conns = (a.relink srv.links).conns := congrArg Links.conns (links_perform hGuard)
  rw [hConns]
  cases a with
  | openConn => exact absurd rfl hSpares.1
  | close d =>
    have hNe : c ≠ d := by
      rintro rfl
      exact hSpares.2 rfl
    exact List.mem_erase_of_ne hNe
  | _ => rfl

theorem peer_frameEffects {k : Connection} {b : EpiBuf} {alloc : Bool} :
    ∀ e ∈ frameEffects k c b alloc, e.peer = some c := by
  intro e he
  rcases mem_frameEffects.mp he with ⟨-, rfl⟩ | ⟨-, he⟩
  · rfl
  · exact peer_enqueueEffects _ _ _ _ e he

theorem peer_attachEffects {ans : FrameAnswers} : ∀ e ∈ attachEffects srv c s ans, e.peer = some c := by
  intro e he
  rcases List.mem_append.mp he with he | he
  · exact peer_frameEffects e he
  rcases List.mem_cons.mp he with rfl | he
  · rfl
  rcases mem_replayEffects.mp he with ⟨_, _, he⟩ | ⟨-, -, rfl⟩
  · exact peer_enqueueEffects _ _ _ _ e he
  · rfl

theorem effects_of_spares (hCons : srv.links.Consistent) (h : Idle srv c) (hGuard : a.guard srv)
    (hSpares : a.spares c) : ∀ e ∈ a.effects srv, e.peer ≠ some c := by
  intro e he hPeer
  have hOther : ∀ d, a.touches = some d → e.peer ≠ some d := by
    rintro d hTouches hd
    rw [hPeer] at hd
    cases hd
    exact hSpares.2 hTouches
  cases a with
  | unbind s d =>
    have hNe : d ≠ c := by
      rintro rfl
      exact h.not_client hCons s hGuard
    simp only [Act.effects, List.mem_cons, List.not_mem_nil, or_false] at he
    rcases he with rfl | rfl <;>
    · cases hPeer
      exact hNe rfl
  | queue d data alloc => exact hOther d rfl (peer_enqueueEffects _ _ _ _ e he)
  | attach d s ans => exact hOther d rfl (peer_attachEffects e he)
  | relay s d chunk ringAlloc alloc =>
    rcases List.mem_cons.mp he with rfl | he
    · cases hPeer
    · exact hOther d rfl (peer_enqueueEffects _ _ _ _ e he)
  | starve d | store d data | frame d type body | framingError d | input s d data | write d n | failWrite d | relayed d
    | eof s d | shutdown d | close d =>
    rw [List.mem_singleton.mp he] at hOther
    exact hOther d rfl rfl
  | unlink t =>
    rcases List.mem_append.mp he with he | he
    · rw [(mem_leftEffects.mp he).2.2] at hPeer
      cases hPeer
    · rw [(mem_goneEffects.mp he).2] at hPeer
      cases hPeer
  | kill t clock =>
    rcases List.mem_cons.mp he with rfl | he
    · cases hPeer
    rcases List.mem_append.mp he with he | he
    · rw [(mem_leftEffects.mp he).2.2] at hPeer
      cases hPeer
    · rw [(mem_goneEffects.mp he).2] at hPeer
      cases hPeer
  | move t gid =>
    obtain ⟨-, ⟨-, rfl⟩ | he | he⟩ := mem_moveEffects.mp he
    · cases hPeer
    · rw [(mem_leftEffects.mp he).2.2] at hPeer
      cases hPeer
    · rw [(mem_goneEffects.mp he).2] at hPeer
      cases hPeer
  | escalate t =>
    rw [(mem_killEffects.mp he).2.2] at hPeer
    cases hPeer
  | create pid cwd argv env exec k =>
    simp only [Act.effects, List.mem_cons, List.not_mem_nil, or_false] at he
    rcases he with rfl | rfl <;> cases hPeer
  | closePty | fork | signal | winsize | newGroup | writePin | read | ptyHangup | reap | free =>
    rw [List.mem_singleton.mp he] at hPeer
    cases hPeer
  | update | watchPty | setBlob | consume | freeInbound | condemn | setPin | updatePty | reset | stop | openConn
    | watchConn => cases he

theorem Idle.perform (h : Idle srv c) (hCons : srv.links.Consistent) (hGuard : a.guard srv) (hSpares : a.spares c) :
    Idle (a.perform srv) c := by
  rcases conn_of_spares hCons h hGuard hSpares with hSame | ⟨hData, hSession, -, -⟩
  · exact ⟨by rw [hSame]; exact h.control, by rw [hSame]; exact h.unbound⟩
  · exact ⟨hData.trans h.control, hSession.trans h.unbound⟩

theorem Dormant.perform (h : Dormant srv c) (hCons : srv.links.Consistent) (hGuard : a.guard srv)
    (hSpares : a.spares c) : Dormant (a.perform srv) c where
  toIdle := h.toIdle.perform hCons hGuard hSpares
  kept := by
    rcases conn_of_spares hCons h.toIdle hGuard hSpares with hSame | ⟨-, -, hKept, -⟩
    · rw [hSame]
      exact h.kept
    · exact hKept.trans h.kept
  watched := by
    intro hMem
    rcases conn_of_spares hCons h.toIdle hGuard hSpares with hSame | ⟨-, -, -, hWatched⟩
    · rw [hSame]
      exact h.watched ((mem_conns_of_spares hGuard hSpares).mp hMem)
    · exact hWatched
  unheard := by
    intro e he hPeer
    rw [trace_perform] at he
    rcases List.mem_append.mp he with he | he
    · exact h.unheard e he hPeer
    · exact absurd hPeer (effects_of_spares hCons h.toIdle hGuard hSpares e he)

/-- What holds of a spared connection holds at the end of an event of everyone else. -/
theorem spared_path {P : Server → Prop} {allowed : Act → Prop} (hSpares : ∀ a, allowed a → a.spares c)
    (hPerform : ∀ (t : Server) (a : Act), t.links.Consistent → P t → a.guard t → a.spares c → P (a.perform t))
    (hPath : actions.Path allowed srv srv') (hCons : srv.links.Consistent) (h : P srv) :
    P srv' ∧ (c ∈ srv'.conns ↔ c ∈ srv.conns) := by
  have hAll : srv'.links.Consistent ∧ P srv' ∧ (c ∈ srv'.conns ↔ c ∈ srv.conns) := by
    refine Actions.Path.invariant (P := fun t => t.links.Consistent ∧ P t ∧ (c ∈ t.conns ↔ c ∈ srv.conns)) ?_ hPath
      ⟨hCons, h, Iff.rfl⟩
    rintro t a ⟨hCons, hHere, hMem⟩ hGuard hAllowed
    exact ⟨consistent_perform hCons hGuard, hPerform t a hCons hHere hGuard (hSpares a hAllowed),
      (mem_conns_of_spares hGuard (hSpares a hAllowed)).trans hMem⟩
  exact hAll.2

theorem spares_of_ofConn (hNe : d ≠ c) (h : a.ofConn d = true) : a.spares c := by
  constructor
  · rintro rfl
    cases h
  · intro hTouches
    cases a with
    | queue e | starve e | attach e | store e | consume e | freeInbound e | condemn e | frame e | framingError e
      | input _ e | write e | failWrite e | reset e | close e =>
      obtain rfl : e = d := by
        simpa [Act.ofConn, Act.flushes, Act.inbound, Act.backstage, Act.answers, Act.feeds] using h
      cases hTouches
      exact hNe rfl
    | relay | relayed | eof | shutdown | watchConn =>
      simp [Act.ofConn, Act.flushes, Act.inbound, Act.backstage, Act.answers, Act.feeds] at h
    | _ => cases hTouches

theorem spares_of_ofPty {client : Option ConnPtr} (hNe : client ≠ some c) (h : a.ofPty s client = true) :
    a.spares c := by
  constructor
  · rintro rfl
    cases h
  · intro hTouches
    cases a with
    | relay t e | eof t e =>
      obtain ⟨-, rfl⟩ : t = s ∧ client = some e := by simpa [Act.ofPty, Act.outputs, Act.feeds] using h
      exact hNe hTouches
    | write e | failWrite e | reset e | relayed e | shutdown e =>
      obtain rfl : client = some e := by simpa [Act.ofPty, Act.outputs, Act.feeds] using h
      exact hNe hTouches
    | queue | starve | attach | store | consume | freeInbound | condemn | frame | framingError | input | watchConn
      | close => simp [Act.ofPty, Act.outputs, Act.feeds] at h
    | _ => cases hTouches

theorem spares_of_ofSignal (h : a.ofSignal = true) : a.spares c := by
  constructor
  · rintro rfl
    cases h
  · intro hTouches
    cases a <;> first | (cases h; done) | cases hTouches

theorem spares_of_ofFinish (h : a.ofFinish = true) : a.spares c := by
  constructor
  · rintro rfl
    cases h
  · intro hTouches
    cases a <;> first | (cases h; done) | cases hTouches

end Sparing

section Accepting

/-- One turn of accept_conn that makes a connection. -/
def acceptOne (srv : Server) (added : Bool) : Server :=
  if added then watchConn (openConn srv) srv.nextConn else connClose (openConn srv) srv.nextConn

theorem acceptOne_conn (added : Bool) : (acceptOne srv added).conn = Function.update srv.conn srv.nextConn
    (if added then { Connection.blank with events := some ⟨true, false, true, false, false⟩ } else .blank) := by
  cases added with
  | true => simp [acceptOne, openConn, watchConn, Server.modConn, Server.modIn]
  | false => simp [acceptOne, connClose_eq, openConn, Server.modConn, Server.modIn]

theorem acceptOne_conns (added : Bool) :
    (acceptOne srv added).conns = if added then srv.nextConn :: srv.conns else srv.conns := by
  cases added with
  | true => rfl
  | false => simp [acceptOne, connClose_eq, openConn, Server.modConn, Server.modIn]

theorem acceptOne_trace (added : Bool) :
    (acceptOne srv added).trace = srv.trace ++ if added then [] else [.closed srv.nextConn] := by
  cases added with
  | true => exact (List.append_nil _).symm
  | false => simp [acceptOne, connClose_eq, openConn, Server.modConn, Server.modIn]

theorem consistent_acceptOne (hCons : srv.links.Consistent) (added : Bool) : (acceptOne srv added).links.Consistent :=
  Actions.consistent (ofAccept_acceptConn [.accepted true added] (Nat.le_refl srv.nextConn)) hCons

theorem Idle.acceptOne (h : Idle srv c) (added : Bool) : Idle (acceptOne srv added) c := by
  rcases eq_or_ne c srv.nextConn with rfl | hNew
  · constructor <;>
    · rw [acceptOne_conn, Function.update_self]
      cases added <;> rfl
  · constructor
    · rw [acceptOne_conn, Function.update_of_ne hNew, h.control]
    · rw [acceptOne_conn, Function.update_of_ne hNew, h.unbound]

theorem Dormant.acceptOne (h : Dormant srv c) (hCons : srv.links.Consistent) (added : Bool) :
    Dormant (acceptOne srv added) c where
  toIdle := h.toIdle.acceptOne added
  kept := by
    rw [acceptOne_conn]
    rcases eq_or_ne c srv.nextConn with rfl | hNew
    · rw [Function.update_self]
      cases added <;> rfl
    · rw [Function.update_of_ne hNew, h.kept]
  watched := by
    rw [acceptOne_conn, acceptOne_conns]
    intro hMem
    rcases eq_or_ne c srv.nextConn with rfl | hNew
    · cases added with
      | true =>
        rw [Function.update_self]
        rfl
      | false => exact absurd (hCons.conns_lt _ hMem) (Nat.lt_irrefl _)
    · rw [Function.update_of_ne hNew]
      cases added with
      | true => exact h.watched ((List.mem_cons.mp hMem).resolve_left hNew)
      | false => exact h.watched hMem
  unheard := by
    rw [acceptOne_trace]
    intro e he hPeer
    rcases List.mem_append.mp he with he | he
    · exact h.unheard e he hPeer
    · cases added with
      | true => cases he
      | false =>
        obtain rfl := List.mem_singleton.mp he
        cases hPeer
        rfl

end Accepting

section Pairs

variable {t t' : Server}

/-- What the two runs know of an observer. -/
structure Apart (srv srv' : Server) (c : ConnPtr) : Prop where
  idle : Idle srv c
  dormant : Dormant srv' c
  stays : c ∈ srv.conns → c ∈ srv'.conns

theorem Apart.path {allowed allowed' : Act → Prop} (h : Apart srv srv' c) (hCons : srv.links.Consistent)
    (hCons' : srv'.links.Consistent) (hSpares : ∀ a, allowed a → a.spares c) (hSpares' : ∀ a, allowed' a → a.spares c)
    (hPath : actions.Path allowed srv t) (hPath' : actions.Path allowed' srv' t') : Apart t t' c := by
  obtain ⟨hIdle, hMem⟩ := spared_path (P := fun t => Idle t c) hSpares
    (fun _ _ hCons h hGuard hSpares => h.perform hCons hGuard hSpares) hPath hCons h.idle
  obtain ⟨hDormant, hMem'⟩ := spared_path (P := fun t => Dormant t c) hSpares'
    (fun _ _ hCons h hGuard hSpares => h.perform hCons hGuard hSpares) hPath' hCons' h.dormant
  exact ⟨hIdle, hDormant, fun hListed => hMem'.mpr (h.stays (hMem.mp hListed))⟩

theorem Apart.acceptConn (h : Apart srv srv' c) (hBeyond : Beyond watchers srv srv') (hCons : srv.links.Consistent)
    (hCons' : srv'.links.Consistent) (outcomes : List AcceptOutcome) :
    Apart (acceptConn srv outcomes) (acceptConn srv' outcomes) c := by
  induction outcomes generalizing srv srv' with
  | nil => exact h
  | cons outcome outcomes ih =>
    cases outcome with
    | accepted alloc added =>
      cases alloc with
      | false => exact ih h hBeyond hCons hCons'
      | true =>
        have hAccepted : Apart (acceptOne srv added) (acceptOne srv' added) c := by
          refine ⟨h.idle.acceptOne added, h.dormant.acceptOne hCons' added, ?_⟩
          rw [acceptOne_conns, acceptOne_conns, hBeyond.nextConn]
          cases added with
          | true =>
            intro hMem
            exact List.mem_cons.mpr ((List.mem_cons.mp hMem).imp_right h.stays)
          | false => exact h.stays
        exact ih hAccepted (hBeyond.acceptConn [.accepted true added]) (consistent_acceptOne hCons added)
          (consistent_acceptOne hCons' added)
    | intr => exact ih h hBeyond hCons hCons'
    | failed => exact h

/-- The frames of observers have types that only ask. -/
def Effect.observed (watchers : ConnPtr → Bool) : Effect → Bool
  | .frame c type _ _ => !watchers c || decide (Observing type)
  | _ => true

/-- The same event, for an observer a mere report that something can be read. -/
def Ready.hush (watchers : ConnPtr → Bool) : Ready → Ready
  | .conn c ev => if watchers c then .conn c readable else .conn c ev
  | ready => ready

theorem hush_seen (hSeen : watchers d = false) (ev : Events) : (Ready.conn d ev).hush watchers = .conn d ev := by
  rw [Ready.hush, hSeen]
  rfl

theorem hush_hidden (hHidden : watchers d = true) (ev : Events) :
    (Ready.conn d ev).hush watchers = .conn d readable := if_pos hHidden

/-- The read ends in EAGAIN. -/
def ConnAnswers.silent (ans : ConnAnswers) : ConnAnswers := { ans with read := .again }

/-- The two servers agree beyond the observers, and of these the second has heard nothing. -/
structure Parted (watchers : ConnPtr → Bool) (srv srv' : Server) : Prop where
  beyond : Beyond watchers srv srv'
  apart : ∀ c, watchers c = true → Apart srv srv' c

theorem dispatchConn_silent (h : Dormant srv c) (ans : ConnAnswers) :
    dispatchConn srv c readable ans.silent = connUpdate srv c := by
  have hUpdated : ((connUpdate srv c).conn c).wantClose = false := by
    simp [connUpdate, Server.modConn, h.kept]
  have hSettled : dispatchConn srv c readable ans.silent = settleConn srv c := rfl
  rw [hSettled, settleConn]
  simp only [h.kept, hUpdated, Bool.not_false, Bool.false_and, Bool.false_eq_true, ↓reduceIte]

namespace Parted

variable (h : Parted watchers srv srv')

include h

theorem dispatchConn (hCons : srv.links.Consistent) (hCons' : srv'.links.Consistent) (hMem : d ∈ srv.conns)
    (hSeen : watchers d = false) (ev : Events) (ans : ConnAnswers) :
    Parted watchers (dispatchConn srv d ev ans) (dispatchConn srv' d ev ans) := by
  refine ⟨h.beyond.dispatchConn hSeen ev ans, ?_⟩
  intro c hc
  have hNe : d ≠ c := by
    rintro rfl
    rw [hSeen] at hc
    cases hc
  exact (h.apart c hc).path hCons hCons' (fun _ => spares_of_ofConn hNe) (fun _ => spares_of_ofConn hNe)
    (ofConn_dispatchConn hCons hMem ev ans) (ofConn_dispatchConn hCons' ((h.beyond.mem_conns hSeen).mp hMem) ev ans)

/-- An event of an observer, of which nothing is read in the second run. -/
theorem dispatchObserver (hCons : srv.links.Consistent) (hCons' : srv'.links.Consistent) (hMem : d ∈ srv.conns)
    (hHidden : watchers d = true) (ev : Events) (ans : ConnAnswers)
    (hAsks : ∀ e ∈ (Daemon.dispatchConn srv d ev ans).trace, e.observed watchers = true) :
    Parted watchers (Daemon.dispatchConn srv d ev ans) (Daemon.dispatchConn srv' d readable ans.silent) := by
  have hObserver := h.apart d hHidden
  have hMem' : d ∈ srv'.conns := hObserver.stays hMem
  have hMuffled : Muffled watchers d srv (Daemon.dispatchConn srv d ev ans) := by
    refine Muffled.dispatchConn hHidden ⟨hObserver.idle, .refl _⟩ hCons hMem ev ans ?_
    intro type body n hFrame
    simpa [Effect.observed, hHidden] using hAsks _ hFrame
  have hUpdate : actions.Path (fun a => a = .update d) srv' (Daemon.dispatchConn srv' d readable ans.silent) := by
    rw [dispatchConn_silent hObserver.dormant]
    exact perform_path (.update d) hMem' rfl
  have hSpares : ∀ (c : ConnPtr) (a : Act), a = .update d → a.spares c := by
    rintro c a rfl
    refine ⟨Act.noConfusion, ?_⟩
    intro hTouches
    cases hTouches
  constructor
  · rw [dispatchConn_silent hObserver.dormant]
    exact hMuffled.beyond.trans (h.beyond.trans (hidden_modConn hHidden _).symm)
  · intro c hc
    rcases eq_or_ne d c with rfl | hNe
    · obtain ⟨hDormant, hKept⟩ := spared_path (P := fun t => Dormant t d) (hSpares d)
        (fun _ _ hCons h hGuard hSpares => h.perform hCons hGuard hSpares) hUpdate hCons' hObserver.dormant
      exact ⟨hMuffled.toIdle, hDormant, fun _ => hKept.mpr hMem'⟩
    · exact (h.apart c hc).path hCons hCons' (fun _ => spares_of_ofConn hNe) (hSpares c)
        (ofConn_dispatchConn hCons hMem ev ans) hUpdate

theorem dispatchReady {ready : Ready} {ans : Answers} (hCons : srv.links.Consistent) (hCons' : srv'.links.Consistent)
    (hReady : ready.Allocated srv) (hAsks : ∀ e ∈ t.trace, e.observed watchers = true)
    (hStep : dispatchReady srv ready ans = some t) :
    ∃ ans' t', (ans' = ans ∨ ∃ a, ans = .conn a ∧ ans' = .conn a.silent) ∧
      Daemon.dispatchReady srv' (ready.hush watchers) ans' = some t' ∧ Parted watchers t t' := by
  cases ready with
  | listen =>
    cases ans <;> cases hStep
    rename_i outcomes
    exact ⟨_, _, Or.inl rfl, rfl, h.beyond.acceptConn outcomes,
      fun c hc => (h.apart c hc).acceptConn h.beyond hCons hCons' outcomes⟩
  | signal =>
    cases ans <;> cases hStep
    rename_i reads
    exact ⟨_, _, Or.inl rfl, rfl, h.beyond.handleSignalfd reads, fun c hc => (h.apart c hc).path hCons hCons'
      (fun _ => spares_of_ofSignal) (fun _ => spares_of_ofSignal) (ofSignal_handleSignalfd reads)
      (ofSignal_handleSignalfd reads)⟩
  | pty s ev =>
    cases ans <;> cases hStep
    rename_i ans
    refine ⟨_, _, Or.inl rfl, rfl, h.beyond.dispatchPty ev ans, ?_⟩
    intro c hc
    have hClient := (h.apart c hc).idle.not_client hCons s
    have hClient' := (h.apart c hc).dormant.toIdle.not_client hCons' s
    exact (h.apart c hc).path hCons hCons' (fun _ => spares_of_ofPty hClient) (fun _ => spares_of_ofPty hClient')
      (ofPty_dispatchPty hCons ev ans) (ofPty_dispatchPty hCons' ev ans)
  | conn d ev =>
    cases ans <;> cases hStep
    rename_i ans
    cases hd : watchers d with
    | true =>
      refine ⟨.conn ans.silent, _, Or.inr ⟨ans, rfl, rfl⟩, ?_, h.dispatchObserver hCons hCons' hReady hd ev ans hAsks⟩
      rw [hush_hidden hd]
      rfl
    | false =>
      refine ⟨.conn ans, _, Or.inl rfl, ?_, h.dispatchConn hCons hCons' hReady hd ev ans⟩
      rw [hush_seen hd]
      rfl

theorem finishBatch (hCons : srv.links.Consistent) (hCons' : srv'.links.Consistent) (now : Timespec)
    (early : SessPtr → Nat) : Parted watchers (finishBatch srv now early) (finishBatch srv' now early) :=
  ⟨h.beyond.finishBatch now early, fun c hc => (h.apart c hc).path hCons hCons' (fun _ => spares_of_ofFinish)
    (fun _ => spares_of_ofFinish) (ofFinish_finishBatch now early).1 (ofFinish_finishBatch now early).1⟩

theorem registered_hush {ready : Ready} (hRegistered : ready.registered srv = true) :
    (ready.hush watchers).registered srv' = true := by
  cases ready with
  | listen => rfl
  | signal => rfl
  | pty s ev =>
    change Ready.registered srv' (.pty s ev) = true
    rw [Ready.registered, ← h.beyond.sess]
    exact hRegistered
  | conn d ev =>
    simp only [Ready.registered, Bool.and_eq_true, List.contains_iff_mem] at hRegistered
    cases hd : watchers d with
    | true =>
      have hMem' := (h.apart d hd).stays hRegistered.1
      have hWatched := (h.apart d hd).dormant.watched hMem'
      rw [hush_hidden hd, Ready.registered, List.contains_iff_mem.mpr hMem', Bool.true_and]
      cases hEvents : (srv'.conn d).events with
      | none =>
        rw [hEvents] at hWatched
        cases hWatched
      | some requested =>
        rw [hEvents, Option.any_some] at hWatched
        simp [readable, Events.within, hWatched]
    | false =>
      rw [hush_seen hd, Ready.registered, ← h.beyond.conn hd,
        List.contains_iff_mem.mpr ((h.beyond.mem_conns hd).mp hRegistered.1), Bool.true_and]
      exact hRegistered.2

end Parted

end Pairs

section Machines

theorem sameSource_hush (ready other : Ready) :
    (ready.hush watchers).sameSource (other.hush watchers) = ready.sameSource other := by
  cases ready with
  | conn c ev =>
    cases other with
    | conn d ev' =>
      unfold Ready.hush
      dsimp only
      split <;> split <;> rfl
    | _ =>
      unfold Ready.hush
      dsimp only
      split <;> rfl
  | _ =>
    cases other with
    | conn d ev' =>
      unfold Ready.hush
      dsimp only
      split <;> rfl
    | _ => rfl

theorem distinctSources_hush (batch : List Ready) :
    distinctSources (batch.map (Ready.hush watchers)) = distinctSources batch := by
  induction batch with
  | nil => rfl
  | cons ready batch ih =>
    simp only [List.map_cons, distinctSources, List.all_map, Function.comp_def, sameSource_hush, ih]

theorem Parted.possibleBatch_hush (h : Parted watchers srv srv') {clock : SessPtr → Timespec} {batch : List Ready}
    (hPossible : possibleBatch srv clock batch = true) :
    possibleBatch srv' clock (batch.map (Ready.hush watchers)) = true := by
  have hTimeout : nextTimeout srv clock = nextTimeout srv' clock := h.beyond.map fun srv => nextTimeout srv clock
  simp only [possibleBatch, Bool.and_eq_true, List.all_eq_true] at hPossible
  obtain ⟨⟨⟨hLength, hRegistered⟩, hDistinct⟩, hTime⟩ := hPossible
  simp only [possibleBatch, List.length_map, distinctSources_hush, List.isEmpty_map, ← hTimeout, hLength, hDistinct,
    hTime, Bool.and_true, Bool.true_and, List.all_map, List.all_eq_true]
  intro ready hReady
  exact h.registered_hush (hRegistered ready hReady)

/-- The inputs of the second run. -/
inductive Muted (watchers : ConnPtr → Bool) : Input → Input → Prop
  | wait (early : SessPtr → Nat) (batch : List Ready) :
    Muted watchers (.wait early batch) (.wait early (batch.map (Ready.hush watchers)))
  | same (input : Input) : Muted watchers input input
  | silent (ans : ConnAnswers) : Muted watchers (.dispatch (.conn ans)) (.dispatch (.conn ans.silent))

def Phase.hush (watchers : ConnPtr → Bool) : Phase → Phase
  | .batch events => .batch (events.map (Ready.hush watchers))
  | phase => phase

/-- The two runs side by side. -/
structure Twins (watchers : ConnPtr → Bool) (loop loop' : Loop) : Prop where
  parted : Parted watchers loop.srv loop'.srv
  phase : loop'.phase = loop.phase.hush watchers
  sound : loop'.Sound

variable {loop loop' other : Loop} {input : Input}

theorem Twins.step (hSound : loop.Sound) (h : Twins watchers loop other)
    (hAsks : ∀ e ∈ loop'.srv.trace, e.observed watchers = true) (hStep : loop.step input = some loop') :
    ∃ input' other', Muted watchers input input' ∧ other.step input' = some other' ∧ Twins watchers loop' other' := by
  obtain ⟨srv, phase⟩ := loop
  obtain ⟨srv', phase'⟩ := other
  obtain ⟨hParted, rfl, hSound'⟩ := h
  cases input with
  | wait early batch =>
    cases phase <;> simp only [Loop.step, reduceCtorEq] at hStep
    rename_i now
    split at hStep <;> cases hStep
    rename_i hPossible
    have hFollowed : Loop.step ⟨srv', .head now⟩ (.wait early (batch.map (Ready.hush watchers))) =
        some ⟨srv', .batch (batch.map (Ready.hush watchers))⟩ := if_pos (hParted.possibleBatch_hush hPossible)
    exact ⟨_, _, .wait early batch, hFollowed, hParted, rfl, step_sound hSound' hFollowed⟩
  | interrupted now =>
    cases phase <;> cases hStep
    exact ⟨_, _, .same (.interrupted now), rfl, hParted, rfl, @step_sound _ _ (.interrupted now) hSound' rfl⟩
  | waitFails =>
    cases phase <;> cases hStep
    exact ⟨_, _, .same .waitFails, rfl, hParted, rfl, @step_sound _ _ .waitFails hSound' rfl⟩
  | dispatch ans =>
    cases phase with
    | head => cases hStep
    | stopped => cases hStep
    | batch events =>
      cases events with
      | nil => cases hStep
      | cons ready rest =>
        obtain ⟨t, hDispatch, rfl⟩ := Option.map_eq_some_iff.mp hStep
        obtain ⟨ans', t', hAns, hDispatch', hParted'⟩ := hParted.dispatchReady hSound.consistent hSound'.consistent
          (hSound.allocated ready List.mem_cons_self) hAsks hDispatch
        have hFollowed : Loop.step ⟨srv', .batch (ready.hush watchers :: rest.map (Ready.hush watchers))⟩
            (.dispatch ans') = some ⟨t', .batch (rest.map (Ready.hush watchers))⟩ :=
          Option.map_eq_some_iff.mpr ⟨t', hDispatch', rfl⟩
        have hMuted : Muted watchers (.dispatch ans) (.dispatch ans') := by
          rcases hAns with rfl | ⟨a, rfl, rfl⟩
          · exact .same _
          · exact .silent a
        exact ⟨_, _, hMuted, hFollowed, hParted', rfl, step_sound hSound' hFollowed⟩
  | finish now early =>
    cases phase with
    | head => cases hStep
    | stopped => cases hStep
    | batch events =>
      cases events with
      | cons => cases hStep
      | nil =>
        cases hStep
        have hFinished := hParted.finishBatch hSound.consistent hSound'.consistent now early
        have hFollowed : Loop.step ⟨srv', .batch []⟩ (.finish now early) = some ⟨finishBatch srv' now early,
            if (finishBatch srv' now early).running then .head now else .stopped⟩ := rfl
        refine ⟨_, _, .same (.finish now early), hFollowed, hFinished, ?_, step_sound hSound' hFollowed⟩
        dsimp only
        rw [hFinished.beyond.running]
        split <;> rfl

theorem twins_initial (watchers : ConnPtr → Bool) (instanceId : Nat) :
    Twins watchers (machine instanceId).init (machine instanceId).init := by
  have hIdle : ∀ c, Idle (Server.initial instanceId) c := fun _ => ⟨rfl, rfl⟩
  refine ⟨⟨.refl _, ?_⟩, rfl, initial_sound instanceId⟩
  intro c _
  refine ⟨hIdle c, ⟨hIdle c, rfl, ?_, ?_⟩, id⟩
  · intro hMem
    cases hMem
  · intro e he
    cases he

/-- Whatever a run hears of connections that only ask for lists and for output, there is a run that hears nothing of
them, and to everyone else the two are the same: the sessions, the groups, the children, every other connection, and
what the trace says of all these. -/
theorem observers_inert {instanceId : Nat} {inputs : List Input} {loop : Loop} {watchers : ConnPtr → Bool}
    (h : (machine instanceId).run inputs = some loop) (hAsks : ∀ e ∈ loop.srv.trace, e.observed watchers = true) :
    ∃ inputs' loop', List.Forall₂ (Muted watchers) inputs inputs' ∧ (machine instanceId).run inputs' = some loop' ∧
      Beyond watchers loop.srv loop'.srv ∧ loop'.phase = loop.phase.hush watchers ∧
      ∀ c, watchers c = true → ∀ e ∈ loop'.srv.trace, e.peer = some c → e = .closed c := by
  have hBack : ∀ loop input loop', loop.Sound → (machine instanceId).step loop input = some loop' →
      (∀ e ∈ loop'.srv.trace, e.observed watchers = true) → ∀ e ∈ loop.srv.trace, e.observed watchers = true :=
    fun loop input loop' hSound hStep hAsks e he => hAsks e (trace_mono (step_path hSound hStep) e he)
  obtain ⟨inputs', loop', hMuted, hRun, hTwins⟩ := (machine instanceId).runFrom_follows (machine instanceId)
    (fun _ _ _ hSound hStep => step_sound hSound hStep) hBack
    (fun _ _ _ _ hSound hAsks hTwins hStep => hTwins.step hSound hAsks hStep) inputs (initial_sound instanceId)
    (twins_initial watchers instanceId) h hAsks
  exact ⟨inputs', loop', hMuted, hRun, hTwins.parted.beyond, hTwins.phase,
    fun c hc => (hTwins.parted.apart c hc).dormant.unheard⟩

/-- One client makes a session and attaches to it; another, connection 1, asks for the list. -/
def listedMeanwhile : List Input :=
  attaching ++ accepting ++
    batchOf (.conn 1 readable) (.conn (calmConn [] (requestFor 2) attachRequest_bounded 0 ⟨0⟩)) ⟨0⟩

def secondWatches (loop : Loop) : Bool :=
  loop.srv.trace.all (Effect.observed fun c => c == 1) && loop.srv.trace.any fun e => e.peer == some 1

theorem observers_inert_listedMeanwhile : ∃ loop inputs' loop', (machine 7).run listedMeanwhile = some loop ∧
    (∃ e ∈ loop.srv.trace, e.peer = some 1) ∧ List.Forall₂ (Muted fun c => c == 1) listedMeanwhile inputs' ∧
    (machine 7).run inputs' = some loop' ∧ Beyond (fun c => c == 1) loop.srv loop'.srv ∧
    ∀ e ∈ loop'.srv.trace, e.peer = some 1 → e = .closed 1 := by
  have hRun : ((machine 7).run listedMeanwhile).any secondWatches := by decide +kernel
  obtain ⟨loop, hLoop, hWatches⟩ := (machine 7).exists_of_run_any hRun
  simp only [secondWatches, Bool.and_eq_true, List.all_eq_true, List.any_eq_true, beq_iff_eq] at hWatches
  obtain ⟨hAsks, hHeard⟩ := hWatches
  obtain ⟨inputs', loop', hMuted, hRun', hBeyond, -, hUnheard⟩ := observers_inert hLoop hAsks
  exact ⟨loop, inputs', loop', hLoop, hHeard, hMuted, hRun', hBeyond, hUnheard 1 rfl⟩

end Machines

end Epimone.Daemon
