import Epimone.Daemon.Changes
import Epimone.Daemon.Runs

/-! # Draining

A connection with queued output is drained by EPOLLOUT, so it has to be
registered for it, and a connection that is to be closed is closed by its next
event. The run loop registers a connection after its events unless it is marked
want_close, so a reply queued together with the mark is left behind; and the
PTY path drains a connection without looking at the mark.
-/
set_option autoImplicit false

namespace Epimone.Daemon

open Transition

/-- What the daemon owes the peers whose sockets have not failed, at the head of the loop. -/
structure Server.Unstranded (srv : Server) : Prop where
  registered : ∀ c ∈ srv.conns, .writeFailed c ∉ srv.trace →
    (srv.conn c).wpos < (srv.conn c).wlen → (srv.conn c).polled = true
  drains : ∀ c ∈ srv.conns, .writeFailed c ∉ srv.trace → (srv.conn c).wpos < (srv.conn c).wlen →
    Ready.registered srv (.conn c writable) = true ∧
      ∀ ans : ConnAnswers, ans.writes = [.wrote (srv.conn c).wlen] →
        .wrote c (srv.conn c).unsent ∈ (dispatchConn srv c writable ans).trace ∧
          ((srv.conn c).wantClose = true → c ∉ (dispatchConn srv c writable ans).conns)
  closing : ∀ c ∈ srv.conns, (srv.conn c).wantClose = true → (srv.conn c).wpos = (srv.conn c).wlen →
    .shutdown c ∈ srv.trace

/-- What is known of a reply while it is queued: the socket is watched for EPOLLOUT, or the reply
leaves the connection open. -/
def Enqueue.harmless (q : Enqueue) : Bool :=
  q.relay || q.polled ||
    !q.condemned && (q.failed && q.unsent == 0 || !q.failed && decide (q.unsent + q.len ≤ maxWbuf))

/-- No reply is queued with the mark on a connection that is not registered, and the PTY path drains
no connection that is marked. -/
def drainable : Effect → Bool
  | .framingError _ _ polled => polled
  | .enqueued _ q => q.harmless
  | .relayed _ unsent condemned => !(unsent == 0 && condemned)
  | _ => true

section Actions

variable {srv srv' : Server} {c : ConnPtr} {a : Act}

/-- Output that waits for a socket that works will be reported by epoll. -/
def Connection.Watched (k : Connection) (failed : Prop) : Prop := k.unsent ≠ [] → k.polled = true ∨ failed

def Connection.Parting (k : Connection) (failed : Prop) : Prop := k.wantClose = true → k.Watched failed

structure Server.Settled (srv : Server) (c : ConnPtr) : Prop where
  watched : c ∈ srv.conns → (srv.conn c).Watched (.writeFailed c ∈ srv.trace)
  closing : c ∈ srv.conns → (srv.conn c).wantClose = true → (srv.conn c).unsent = [] →
    .shutdown c ∈ srv.trace

theorem Connection.Watched.mono {k : Connection} {failed failed' : Prop} (h : k.Watched failed)
    (hImp : failed → failed') : k.Watched failed' :=
  fun hPending => (h hPending).imp_right hImp

theorem trace_perform_mono : ∀ e ∈ srv.trace, e ∈ (a.perform srv).trace := by
  intro e he
  rw [trace_perform]
  exact List.mem_append_left _ he

/-- The actions that queue output for the connection, mark it, or take output from its queue. -/
def Act.unsettles (c : ConnPtr) : Act → Bool
  | .queue d _ _ | .attach d _ _ | .relay _ d _ _ _ | .condemn d | .eof _ d | .write d _ => d == c
  | _ => false

theorem settled_perform (hCons : srv.links.Consistent) (hGuard : a.guard srv) (h : srv.Settled c)
    (hQuiet : a.unsettles c = false) : (a.perform srv).Settled c := by
  rcases em (∃ k, a.connAfter srv = some (c, k)) with ⟨k, hAfter⟩ | hSame
  · have hCell := conn_perform_of_eq hAfter
    cases a with
    | queue | attach | relay | condemn | eof | write =>
      cases hAfter
      simp [Act.unsettles] at hQuiet
    | openConn =>
      cases hAfter
      refine ⟨fun _ hPending => ?_, fun _ hWant => ?_⟩
      · rw [hCell] at hPending
        exact absurd rfl hPending
      · rw [hCell] at hWant
        cases hWant
    | close d =>
      cases hAfter
      have hGone : c ∉ ((Act.close c).perform srv).conns := fun hc => ne_close_of_listed hCons hc rfl
      exact ⟨fun hc => absurd hc hGone, fun hc => absurd hc hGone⟩
    | unbind s d =>
      cases hAfter
      have hc := (hCons.bound_conn c s ((hCons.paired c s).mpr hGuard)).1
      have hBefore := (h.watched hc).mono (trace_perform_mono (a := .unbind s c) (.writeFailed c))
      refine ⟨fun _ => ?_, fun _ _ _ => ?_⟩
      · rw [hCell]
        exact hBefore
      · rw [trace_perform]
        exact List.mem_append_right _ (by simp [Act.effects])
    | update d =>
      cases hAfter
      refine ⟨fun _ hPending => Or.inl ?_, fun hc hWant hDrained => ?_⟩
      · rw [hCell] at hPending ⊢
        exact decide_eq_true (Connection.unsent_ne_nil_iff.mp hPending)
      · rw [hCell] at hWant hDrained
        exact trace_perform_mono _ (h.closing hc hWant hDrained)
    | failWrite d =>
      cases hAfter
      refine ⟨fun _ _ => Or.inr ?_, fun _ _ hDrained => ?_⟩
      · rw [trace_perform]
        exact List.mem_append_right _ List.mem_cons_self
      · rw [hCell] at hDrained
        exact absurd hDrained (Connection.unsent_ne_nil_iff.mpr hGuard.2)
    | reset d =>
      cases hAfter
      have hFields : (((Act.reset c).perform srv).conn c).unsent = (srv.conn c).unsent ∧
          (((Act.reset c).perform srv).conn c).polled = (srv.conn c).polled ∧
          (((Act.reset c).perform srv).conn c).wantClose = (srv.conn c).wantClose := by
        rw [hCell]
        refine ⟨unsent_reset _, ?_, ?_⟩ <;> split <;> rfl
      obtain ⟨hUnsent, hPolled, hWant⟩ := hFields
      refine ⟨fun hc hPending => ?_, fun hc hMarked hDrained => ?_⟩
      · rw [hUnsent] at hPending
        rw [hPolled]
        exact (h.watched hc hPending).imp_right (trace_perform_mono _)
      · rw [hWant] at hMarked
        rw [hUnsent] at hDrained
        exact trace_perform_mono _ (h.closing hc hMarked hDrained)
    | watchConn d =>
      cases hAfter
      refine ⟨fun _ hPending => ?_, fun hc hWant hDrained => ?_⟩
      · rw [hCell] at hPending
        exact absurd hGuard.2 hPending
      · rw [hCell] at hWant hDrained
        exact trace_perform_mono _ (h.closing hc hWant hDrained)
    | _ => cases hAfter
  · have hCell := conn_perform_of_ne fun k hAfter => hSame ⟨k, hAfter⟩
    have hOpen : a = .openConn → c ≠ srv.nextConn := by
      rintro rfl rfl
      exact hSame ⟨_, rfl⟩
    refine ⟨fun hc => ?_, fun hc hWant hDrained => ?_⟩
    · rw [hCell]
      exact (h.watched (listed_perform hGuard hOpen hc)).mono (trace_perform_mono _)
    · rw [hCell] at hWant hDrained
      exact trace_perform_mono _ (h.closing (listed_perform hGuard hOpen hc) hWant hDrained)

theorem settled_path {allowed : Act → Prop} (hCons : srv.links.Consistent) (h : srv.Settled c)
    (hQuiet : ∀ a, allowed a → a.unsettles c = false) (hPath : actions.Path allowed srv srv') :
    srv'.Settled c := by
  have hBoth := Actions.Path.invariant (P := fun t => t.links.Consistent ∧ t.Settled c)
    (fun t a hHere hGuard hAllowed => ⟨consistent_perform hHere.1 hGuard,
      settled_perform hHere.1 hGuard hHere.2 (hQuiet a hAllowed)⟩) hPath ⟨hCons, h⟩
  exact hBoth.2

theorem watched_flush (hGuard : a.guard srv) (hFlush : a.flushes c = true)
    (h : (srv.conn c).Watched (.writeFailed c ∈ srv.trace)) :
    ((a.perform srv).conn c).Watched (.writeFailed c ∈ (a.perform srv).trace) := by
  cases a with
  | write d n =>
    obtain rfl : d = c := beq_iff_eq.mp hFlush
    have hCell := conn_perform_of_eq (show (Act.write d n).connAfter srv = some (d, _) from rfl)
    intro hPending
    rw [hCell] at hPending ⊢
    rcases h (Connection.unsent_ne_nil_iff.mpr hGuard.2.1) with hPolled | hFailed
    · exact Or.inl hPolled
    · exact Or.inr (trace_perform_mono _ hFailed)
  | failWrite d =>
    obtain rfl : d = c := beq_iff_eq.mp hFlush
    intro _
    refine Or.inr ?_
    rw [trace_perform]
    exact List.mem_append_right _ List.mem_cons_self
  | reset d =>
    obtain rfl : d = c := beq_iff_eq.mp hFlush
    have hCell := conn_perform_of_eq (show (Act.reset d).connAfter srv = some (d, _) from rfl)
    intro hPending
    rw [hCell, unsent_reset] at hPending
    rw [hCell]
    refine (h hPending).imp (fun hPolled => ?_) (trace_perform_mono _)
    split <;> exact hPolled
  | _ => cases hFlush

theorem watched_flushPath {allowed : Act → Prop} (hFlushes : ∀ a, allowed a → a.flushes c = true)
    (h : (srv.conn c).Watched (.writeFailed c ∈ srv.trace)) (hPath : actions.Path allowed srv srv') :
    (srv'.conn c).Watched (.writeFailed c ∈ srv'.trace) :=
  Actions.Path.invariant (P := fun t => (t.conn c).Watched (.writeFailed c ∈ t.trace))
    (fun _ a ht hGuard hAllowed => watched_flush hGuard (hFlushes a hAllowed) ht) hPath h

theorem within_path {allowed : Act → Prop} (h : ∀ d, (srv.conn d).wpos ≤ (srv.conn d).wlen)
    (hPath : actions.Path allowed srv srv') : ∀ d, (srv'.conn d).wpos ≤ (srv'.conn d).wlen :=
  Actions.Path.invariant (P := fun t => ∀ d, (t.conn d).wpos ≤ (t.conn d).wlen)
    (fun _ _ ht _ _ => within_perform ht) hPath h

end Actions

section Read

variable {srv srv' : Server} {c : ConnPtr} {ans : ConnAnswers}

/-- A harmless reply does not leave its connection marked and unwatched. -/
theorem connQueue_parting {k : Connection} {failed : Prop} (h : k.Parting failed) (data : Bytes) (alloc : Bool)
    (hLaw : data ≠ [] → (k.enqueue data false alloc).harmless = true) :
    (connQueue k data alloc).Parting failed := by
  rcases eq_or_ne data [] with rfl | hData
  · exact h
  intro hMarked hPending
  rw [connQueue_polled]
  have hHarmless := hLaw hData
  simp only [Connection.enqueue, Enqueue.harmless, Bool.false_or, Bool.or_eq_true, Bool.and_eq_true,
    Bool.not_eq_true', beq_iff_eq] at hHarmless
  rcases hHarmless with hPolled | ⟨hOpen, hRoom⟩
  · exact Or.inl hPolled
  -- the connection was open, so the piece itself has marked it
  rcases (connQueue_wantClose hData).mp hMarked with hWas | hFails | ⟨hTrip, hStored⟩
  · rw [hOpen] at hWas
    cases hWas
  · rw [connQueue_unsent_of_fails hFails] at hPending
    rcases hRoom with ⟨_, hNone⟩ | ⟨hStored, _⟩
    · exact absurd (List.eq_nil_of_length_eq_zero hNone) hPending
    · rw [hFails] at hStored
      cases hStored
  · rcases hRoom with ⟨hFails, _⟩ | ⟨_, hFits⟩
    · rw [hStored] at hFails
      cases hFails
    · exact absurd hTrip (Nat.not_lt.mpr (of_decide_eq_true hFits))

theorem queueFrame_parting {k : Connection} {failed : Prop} (h : k.Parting failed) (b : EpiBuf) (alloc : Bool)
    (hLaw : b.data ≠ [] → b.oom = false → (k.enqueue b.data false alloc).harmless = true) :
    (queueFrame k b alloc).Parting failed := by
  unfold queueFrame
  split
  · exact h
  · rename_i hData
    exact connQueue_parting h b.data alloc fun hSome => hLaw hSome (by simpa using hData)

theorem parting_connQueueFrame {b : EpiBuf} {alloc : Bool}
    (h : (srv.conn c).Parting (.writeFailed c ∈ srv.trace))
    (hLaw : ∀ e ∈ (connQueueFrame srv c b alloc).trace, drainable e = true) :
    ((connQueueFrame srv c b alloc).conn c).Parting
      (.writeFailed c ∈ (connQueueFrame srv c b alloc).trace) := by
  rw [connQueueFrame_eq] at hLaw ⊢
  have hQueued : (queueFrame (srv.conn c) b alloc).Parting (.writeFailed c ∈ srv.trace) := by
    refine queueFrame_parting h b alloc fun hSome hData => ?_
    have hIn : .enqueued c ((srv.conn c).enqueue b.data false alloc) ∈
        frameEffects (srv.conn c) c b alloc :=
      mem_frameEffects.mpr (Or.inr ⟨hData, mem_enqueueEffects.mpr ⟨hSome, Or.inl rfl⟩⟩)
    exact hLaw _ (List.mem_append_right _ hIn)
  simp only [Function.update_self]
  exact fun hMarked => (hQueued hMarked).mono (List.mem_append_left _)

theorem parting_bindClient {s : SessPtr} {ans : FrameAnswers}
    (h : (srv.conn c).Parting (.writeFailed c ∈ srv.trace))
    (hLaw : ∀ e ∈ (bindClient srv c ans s).trace, drainable e = true) :
    ((bindClient srv c ans s).conn c).Parting (.writeFailed c ∈ (bindClient srv c ans s).trace) := by
  rw [bindClient_eq] at hLaw ⊢
  have hBound : ({ srv.conn c with isData := true, session := some s } : Connection).Parting
      (.writeFailed c ∈ srv.trace) := h
  have hGreeted : (greeted srv c s ans).Parting (.writeFailed c ∈ srv.trace) := by
    refine queueFrame_parting hBound (greeting srv c s ans) ans.queueAlloc fun hSome hData => ?_
    have hIn : .enqueued c (Connection.enqueue _ (greeting srv c s ans).data false ans.queueAlloc) ∈
        frameEffects { srv.conn c with isData := true, session := some s } c (greeting srv c s ans)
          ans.queueAlloc :=
      mem_frameEffects.mpr (Or.inr ⟨hData, mem_enqueueEffects.mpr ⟨hSome, Or.inl rfl⟩⟩)
    exact hLaw _ (List.mem_append_right _ (List.mem_append_left _ hIn))
  have hReplayed : (replayed (greeted srv c s ans) (srv.sess s).out ans).Parting
      (.writeFailed c ∈ srv.trace) := by
    refine connQueue_parting hGreeted _ ans.replayAlloc fun hSome => ?_
    cases hSnap : (srv.sess s).out.snapshot ans.snapAlloc with
    | none =>
      rw [hSnap] at hSome
      exact absurd rfl hSome
    | some snap =>
      rw [hSnap] at hSome
      have hIn : .enqueued c ((greeted srv c s ans).enqueue snap false ans.replayAlloc) ∈
          replayEffects (greeted srv c s ans) c (srv.sess s).out ans :=
        mem_replayEffects.mpr (Or.inl ⟨snap, hSnap, mem_enqueueEffects.mpr ⟨hSome, Or.inl rfl⟩⟩)
      exact hLaw _ (List.mem_append_right _ (List.mem_append_right _ (List.mem_cons_of_mem _ hIn)))
  simp only [Function.update_self]
  exact fun hMarked => (hReplayed hMarked).mono (List.mem_append_left _)

theorem parting_backstage (hCons : srv.links.Consistent) (hData : (srv.conn c).isData = false)
    (h : (srv.conn c).Parting (.writeFailed c ∈ srv.trace)) (hPath : Backstage srv srv') :
    (srv'.conn c).Parting (.writeFailed c ∈ srv'.trace) := by
  have hAll := Actions.Path.invariant (P := fun t => t.links.Consistent ∧ (t.conn c).isData = false ∧
    (t.conn c).Parting (.writeFailed c ∈ t.trace)) ?_ hPath ⟨hCons, hData, h⟩
  · exact hAll.2.2
  rintro t a ⟨hHere, hControl, ht⟩ hGuard hBack
  have hSame : ((a.perform t).conn c).isData = false := by
    have hKept := (backstage_relink hBack t.links).2
    have hLinks := congrFun (congrArg Links.isData (links_perform hGuard)) c
    exact (hLinks.trans (congrFun hKept c)).trans hControl
  refine ⟨consistent_perform hHere hGuard, hSame, ?_⟩
  change ((a.perform t).conn c).Parting (.writeFailed c ∈ (a.perform t).trace)
  rcases em (∃ k, a.connAfter t = some (c, k)) with ⟨k, hAfter⟩ | hOther
  · have hCell := conn_perform_of_eq hAfter
    cases a with
    | unbind s d =>
      cases hAfter
      have hBound := hHere.bound_conn c s ((hHere.paired c s).mpr hGuard)
      exact absurd (hBound.2.symm.trans hControl) (by decide)
    | update d =>
      cases hAfter
      intro _ hPending
      rw [hCell] at hPending ⊢
      exact Or.inl (decide_eq_true (Connection.unsent_ne_nil_iff.mp hPending))
    | queue | attach | condemn | failWrite | eof | write | reset | relay | openConn | watchConn | close =>
      cases hBack
    | _ => cases hAfter
  · rw [conn_perform_of_ne fun k hAfter => hOther ⟨k, hAfter⟩]
    exact fun hMarked => (ht hMarked).mono (trace_perform_mono _)

theorem parting_handleFrame (hCons : srv.links.Consistent) (hData : (srv.conn c).isData = false)
    (h : (srv.conn c).Parting (.writeFailed c ∈ srv.trace)) {ans : FrameAnswers} {type : Nat} {body : Bytes}
    (hLaw : ∀ e ∈ (handleFrame srv c ans type body).trace, drainable e = true) :
    ((handleFrame srv c ans type body).conn c).Parting
      (.writeFailed c ∈ (handleFrame srv c ans type body).trace) := by
  unfold handleFrame at hLaw ⊢
  generalize hEmit : srv.emit (.frame c type body (srv.conn c).unsent.length) = noted at hLaw ⊢
  have hNoted : noted.links.Consistent ∧ (noted.conn c).isData = false ∧
      (noted.conn c).Parting (.writeFailed c ∈ noted.trace) := by
    rw [← hEmit]
    exact ⟨hCons, hData, fun hMarked => (h hMarked).mono (List.mem_append_left _)⟩
  have hAnswered := answered_dispatchFrame (c := c) hNoted.1 ans type body
  generalize dispatchFrame noted c ans type body = handled at hAnswered hLaw ⊢
  cases hAnswered with
  | reply before b =>
    exact parting_connQueueFrame (parting_backstage hNoted.1 hNoted.2.1 hNoted.2.2 before) hLaw
  | attach before s =>
    exact parting_bindClient (parting_backstage hNoted.1 hNoted.2.1 hNoted.2.2 before) hLaw

theorem parting_rejectFrame {code : EpiErrCode} {msg : String}
    (hLaw : ∀ e ∈ (rejectFrame srv c code msg ans).trace, drainable e = true) :
    ((rejectFrame srv c code msg ans).conn c).polled = true := by
  unfold rejectFrame sendError at hLaw ⊢
  dsimp only at hLaw ⊢
  rw [connQueueFrame_eq] at hLaw ⊢
  have hPolled : (srv.conn c).polled = true :=
    hLaw (.framingError c (srv.conn c).unsent.length (srv.conn c).polled)
      (List.mem_append_left _ (List.mem_append_right _ List.mem_cons_self))
  have hQueued : ∀ b, (queueFrame (srv.conn c) b ans.queueAlloc).polled = true := by
    intro b
    unfold queueFrame
    split
    · exact hPolled
    · rw [connQueue_polled]
      exact hPolled
  simp only [condemn, Server.modConn, Function.update_self]
  exact hQueued _

theorem FrameRun.parting {turn used : Nat} {left : Option Nat} (hRun : FrameRun c ans turn srv used srv' left)
    (hCons : srv.links.Consistent) (hc : c ∈ srv.conns) (hData : (srv.conn c).isData = false)
    (h : (srv.conn c).Parting (.writeFailed c ∈ srv.trace))
    (hLaw : ∀ e ∈ srv'.trace, drainable e = true) :
    (srv'.conn c).Parting (.writeFailed c ∈ srv'.trace) := by
  induction hRun with
  | more => exact h
  | refused => exact fun _ _ => Or.inl (parting_rejectFrame hLaw)
  | switched =>
    rename_i turn srv used type n body _ _
    have hPath : Inbound c srv _ :=
      (path_handleFrame hCons hc hData (ans.frames turn) type body).mono fun _ => inbound_of_handles
    have hListed : c ∈ (handleFrame srv c (ans.frames turn) type body).conns := by
      rw [hPath.conns]
      exact hc
    obtain ⟨fed, hFed, hSwitch⟩ := switchConn_fed hListed ans (used + n)
    rw [hSwitch] at hLaw ⊢
    have hHandled := parting_handleFrame hCons hData h fun e he => hLaw e (trace_mono hFed e he)
    change (fed.conn c).Parting (.writeFailed c ∈ fed.trace)
    rw [hFed.conn]
    exact fun hMarked => (hHandled hMarked).mono (trace_mono hFed _)
  | condemned => exact parting_handleFrame hCons hData h hLaw
  | next _ hControl _ rest ih =>
    rename_i turn srv srv' used type n body left _ _
    have hPath : Inbound c srv _ :=
      (path_handleFrame hCons hc hData (ans.frames turn) type body).mono fun _ => inbound_of_handles
    have hListed : c ∈ (handleFrame srv c (ans.frames turn) type body).conns := by
      rw [hPath.conns]
      exact hc
    have hNext := Actions.consistent hPath hCons
    have hGrows := trace_mono (rest.path hNext hListed hControl)
    exact ih hNext hListed hControl (parting_handleFrame hCons hData h fun e he => hLaw e (hGrows e he)) hLaw

/-- Whatever conn_read does to a watched connection, it does not leave it marked and unwatched. -/
theorem parting_connRead (hCons : srv.links.Consistent) (hc : c ∈ srv.conns)
    (h : (srv.conn c).Watched (.writeFailed c ∈ srv.trace))
    (hLaw : ∀ e ∈ (connRead srv c ans).trace, drainable e = true) :
    ((connRead srv c ans).conn c).Parting (.writeFailed c ∈ (connRead srv c ans).trace) := by
  rcases connRead_cases hCons hc ans with
    hSame | hCondemn | ⟨data, _, hFed⟩ | ⟨data, srv', left, hData, _, hRun, hRead⟩
  · rw [hSame]
    exact fun _ => h
  · rw [hCondemn]
    intro _
    simp only [condemn, Server.modConn, Function.update_self]
    exact h
  · have hFeeds := fed_dataToPty hc data ans
    rw [hFed, hFeeds.conn]
    exact fun _ => h.mono (trace_mono hFeeds _)
  · obtain ⟨hConn, _, _, hTrace⟩ := keepRest_same srv' c left
    rw [hRead, hTrace] at hLaw
    rw [hRead, hConn, hTrace]
    exact hRun.parting hCons hc hData (fun _ => h.mono (List.mem_append_left _)) hLaw

end Read

section Dispatch

variable {srv srv' : Server} {c d : ConnPtr} {s : SessPtr}

theorem settled_settleConn (hCons : srv.links.Consistent) (hWithin : (srv.conn c).wpos ≤ (srv.conn c).wlen)
    (h : (srv.conn c).Parting (.writeFailed c ∈ srv.trace)) : (settleConn srv c).Settled c := by
  unfold settleConn
  dsimp only
  split
  · rename_i hOpen
    rw [Bool.not_eq_true'] at hOpen
    have hCell : (connUpdate srv c).conn c =
        { srv.conn c with
          events := some ⟨true, decide ((srv.conn c).wpos < (srv.conn c).wlen), true, false, false⟩ } :=
      Function.update_self _ _ _
    rw [hCell, hOpen, Bool.false_and, if_neg (by decide)]
    refine ⟨fun _ hPending => ?_, fun _ hMarked => ?_⟩
    · rw [hCell] at hPending ⊢
      exact Or.inl (decide_eq_true (Connection.unsent_ne_nil_iff.mp hPending))
    · rw [hCell, hOpen] at hMarked
      cases hMarked
  · rename_i hMarked
    rw [Bool.not_eq_true', Bool.not_eq_false] at hMarked
    rw [hMarked, Bool.true_and]
    split
    · have hGone : c ∉ (connClose srv c).conns := by
        rw [connClose_eq]
        exact hCons.conns_nodup.not_mem_erase
      exact ⟨fun hc => absurd hc hGone, fun hc => absurd hc hGone⟩
    · rename_i hPending
      refine ⟨fun _ => h hMarked, fun _ _ hDrained => ?_⟩
      have hEnd := Connection.unsent_ne_nil_iff.not.mp (not_not.mpr hDrained)
      exact absurd (decide_eq_true (Nat.le_antisymm (Nat.not_lt.mp hEnd) hWithin)) hPending

theorem settled_dispatchConn (hCons : srv.links.Consistent) (hc : c ∈ srv.conns)
    (hWithin : ∀ e, (srv.conn e).wpos ≤ (srv.conn e).wlen) (h : srv.Settled c) {ev : Events}
    {ans : ConnAnswers} (hLaw : ∀ e ∈ (dispatchConn srv c ev ans).trace, drainable e = true) :
    (dispatchConn srv c ev ans).Settled c := by
  have hFlush := path_flushReady hc ev ans
  have hReady := Actions.consistent hFlush hCons
  have hListed : c ∈ (flushReady srv c ev ans).conns := by
    rw [show (flushReady srv c ev ans).conns = srv.conns from congrArg Links.conns (flushReady_links hc ev ans)]
    exact hc
  obtain ⟨hServe, hConns⟩ := ofConn_serveConn hCons hc ev ans
  have hSettle : OfConn c (serveConn srv c ev ans) (settleConn (serveConn srv c ev ans) c) :=
    ofConn_settleConn (by rw [hConns]; exact hc)
  have hWatched := watched_flushPath (fun _ ha => ha) (h.watched hc) hFlush
  rw [dispatchConn_eq] at hLaw ⊢
  apply settled_settleConn (Actions.consistent hServe hCons) (within_path hWithin hServe c)
  have hServed : ∀ e ∈ (serveConn srv c ev ans).trace, drainable e = true := fun e he =>
    hLaw e (trace_mono hSettle e he)
  rw [serveConn_eq] at hServed ⊢
  split at hServed
  · rename_i hRead
    rw [if_pos hRead]
    exact parting_connRead hReady hListed hWatched hServed
  · rename_i hIdle
    rw [if_neg hIdle]
    exact fun _ => hWatched

theorem settled_connUpdate (hClosing : (srv.conn c).wantClose = true → (srv.conn c).unsent = [] →
    .shutdown c ∈ srv.trace) : (connUpdate srv c).Settled c := by
  have hCell : (connUpdate srv c).conn c =
      { srv.conn c with
        events := some ⟨true, decide ((srv.conn c).wpos < (srv.conn c).wlen), true, false, false⟩ } :=
    Function.update_self _ _ _
  refine ⟨fun _ hPending => ?_, fun _ hMarked hDrained => ?_⟩
  · rw [hCell] at hPending ⊢
    exact Or.inl (decide_eq_true (Connection.unsent_ne_nil_iff.mp hPending))
  · rw [hCell] at hMarked hDrained
    exact hClosing hMarked hDrained

theorem settled_ptyOutput (hClient : (srv.sess s).client = some c) {chunk : Chunk} {read : PtyRead}
    (hLaw : ∀ e ∈ (ptyOutput srv s chunk read).trace, drainable e = true) :
    (ptyOutput srv s chunk read).Settled c := by
  unfold ptyOutput at hLaw ⊢
  dsimp only at hLaw ⊢
  rw [hClient] at hLaw ⊢
  dsimp only at hLaw ⊢
  generalize connFlush (relayOutput srv s chunk read) c read.writes = flushed at hLaw ⊢
  have hRelayed : drainable (.relayed c ((connUpdate flushed c).conn c).unsent.length
      ((connUpdate flushed c).conn c).wantClose) = true :=
    hLaw _ (List.mem_append_right _ List.mem_cons_self)
  have hUpdated : (connUpdate flushed c).Settled c := by
    refine settled_connUpdate fun hMarked hDrained => ?_
    have hFields : ((connUpdate flushed c).conn c).unsent = (flushed.conn c).unsent ∧
        ((connUpdate flushed c).conn c).wantClose = (flushed.conn c).wantClose := by
      simp [connUpdate, Server.modConn, Connection.unsent]
    rw [hFields.1, hFields.2, hMarked, hDrained] at hRelayed
    cases hRelayed
  exact ⟨fun hc => (hUpdated.watched hc).mono (List.mem_append_left _),
    fun hc hMarked hDrained => List.mem_append_left _ (hUpdated.closing hc hMarked hDrained)⟩

theorem settled_closeAfterDrain (hWithin : (srv.conn c).wpos ≤ (srv.conn c).wlen) :
    (closeAfterDrain srv c).Settled c := by
  unfold closeAfterDrain
  dsimp only
  apply settled_connUpdate
  intro _ hDrained
  have hCell : (condemn (srv.emit (.eof c)) c).conn c = { srv.conn c with wantClose := true } :=
    Function.update_self _ _ _
  split
  · exact List.mem_append_right _ List.mem_cons_self
  · rename_i hPending
    rw [hCell] at hPending
    rw [if_neg (by rw [hCell]; exact hPending), hCell] at hDrained
    have hEnd := Connection.unsent_ne_nil_iff.not.mp (not_not.mpr hDrained)
    exact absurd (Nat.le_antisymm hWithin (Nat.not_lt.mp hEnd)) hPending

theorem settled_ptyHangup (hCons : srv.links.Consistent) (hOpen : (srv.sess s).ptyOpen = true)
    (hWithin : ∀ e, (srv.conn e).wpos ≤ (srv.conn e).wlen) (hClient : (srv.sess s).client = some c)
    (eofWrites : List WriteOutcome) : (ptyHangup srv s eofWrites).Settled c := by
  have hc : c ∈ srv.conns := (hCons.bound_conn c s ((hCons.paired c s).mpr hClient)).1
  have hClosed : actions.Path (fun _ => True) srv (closePty (srv.emit (.ptyHangup s)) s) :=
    path_perform (perform_path (.ptyHangup s) hOpen trivial) (.closePty s) hOpen trivial
  have hFields : ((closePty (srv.emit (.ptyHangup s)) s).sess s).client = some c ∧
      ((closePty (srv.emit (.ptyHangup s)) s).sess s).removed = false := by
    have hKept : (srv.sess s).removed = false := by
      by_contra hRemoved
      have hNone := hCons.removed_free s (Bool.not_eq_false _ ▸ hRemoved)
      exact absurd (hNone.symm.trans hClient) (by simp)
    simp [closePty, Server.modSess, Server.emit, hClient, hKept]
  unfold ptyHangup clientEof
  dsimp only
  rw [hFields.2, if_neg (by decide), hFields.1]
  have hListed : c ∈ (closePty (srv.emit (.ptyHangup s)) s).conns := hc
  have hFlush : actions.Path (fun a => a.flushes c = true) (closePty (srv.emit (.ptyHangup s)) s)
      (connFlush (closePty (srv.emit (.ptyHangup s)) s) c eofWrites) :=
    path_connFlush (fun _ ha => ha) hListed eofWrites
  exact settled_closeAfterDrain (within_path (within_path hWithin hClosed) hFlush c)

theorem settled_ptyReadLoop (hCons : srv.links.Consistent) (hOpen : (srv.sess s).ptyOpen = true)
    (hWithin : ∀ e, (srv.conn e).wpos ≤ (srv.conn e).wlen) (hClient : (srv.sess s).client = some c)
    (h : srv.Settled c) {eofWrites : List WriteOutcome} (reads : List PtyRead)
    (hLaw : ∀ e ∈ (ptyReadLoop s eofWrites reads srv).trace, drainable e = true) :
    (ptyReadLoop s eofWrites reads srv).Settled c := by
  induction reads generalizing srv with
  | nil => exact h
  | cons read reads ih =>
    have hPath := ofPty_ptyReadLoop hCons hOpen eofWrites (read :: reads)
    unfold ptyReadLoop at hLaw hPath ⊢
    cases hOutcome : read.outcome with
    | again =>
      simp only [hOutcome] at hLaw ⊢
      exact h
    | intr =>
      simp only [hOutcome] at hLaw ⊢
      exact ih hCons hOpen hWithin hClient h hLaw
    | failed => exact settled_ptyHangup hCons hOpen hWithin hClient eofWrites
    | bytes chunk =>
      simp only [hOutcome] at hLaw ⊢
      split
      · exact settled_ptyHangup hCons hOpen hWithin hClient eofWrites
      · rename_i hData
        rw [if_neg hData] at hLaw
        have hOutput := output_ptyOutput hCons hOpen hData read
        have hLinks := hOutput.links
        have hNext : (ptyOutput (noteRead srv s chunk) s chunk read).links.Consistent := by
          rw [hLinks]
          exact hCons
        have hStill := (congrFun (congrArg Links.ptyOpen hLinks) s).trans hOpen
        have hBound := (congrFun (congrArg Links.client hLinks) s).trans hClient
        have hRest := ofPty_ptyReadLoop hNext hStill eofWrites reads
        have hHere : ((noteRead srv s chunk).sess s).client = some c := hClient
        have hSettled := settled_ptyOutput hHere fun e he => hLaw e (trace_mono hRest e he)
        exact ih hNext hStill (within_path hWithin hOutput) hBound hSettled hLaw

theorem unsettles_of_ofPty {client : Option ConnPtr} {a : Act} (h : a.ofPty s client = true)
    (hNe : client ≠ some c) : a.unsettles c = false := by
  cases a with
  | queue | attach | condemn => simp [Act.ofPty, Act.outputs, Act.feeds] at h
  | relay t d | eof t d =>
    obtain ⟨_, rfl⟩ : t = s ∧ client = some d := by simpa [Act.ofPty, Act.outputs, Act.feeds] using h
    simpa [Act.unsettles] using hNe
  | write d n =>
    obtain rfl : client = some d := by simpa [Act.ofPty, Act.outputs, Act.feeds] using h
    simpa [Act.unsettles] using hNe
  | _ => rfl

theorem settled_dispatchPty (hCons : srv.links.Consistent)
    (hWithin : ∀ e, (srv.conn e).wpos ≤ (srv.conn e).wlen) (h : srv.Settled c) {ev : Events}
    {ans : PtyAnswers} (hLaw : ∀ e ∈ (dispatchPty srv s ev ans).trace, drainable e = true) :
    (dispatchPty srv s ev ans).Settled c := by
  rcases eq_or_ne (srv.sess s).client (some c) with hClient | hNe
  · obtain ⟨fed, hFed, hDispatch⟩ := dispatchPty_fed srv s ev ans
    have hSettled : fed.Settled c := by
      refine settled_path hCons h ?_ hFed
      intro a ha
      cases a <;> first | rfl | cases ha
    have hLinks := links_of_feeds hFed
    rcases hDispatch with hSame | ⟨hOpen, hLoop⟩
    · rw [hSame]
      exact hSettled
    · rw [hLoop] at hLaw ⊢
      refine settled_ptyReadLoop (Actions.consistent hFed hCons) hOpen (within_path hWithin hFed) ?_ hSettled
        ans.reads hLaw
      exact (congrFun (congrArg Links.client hLinks) s).trans hClient
  · exact settled_path hCons h (fun a ha => unsettles_of_ofPty ha hNe) (ofPty_dispatchPty hCons ev ans)

theorem unsettles_of_ofConn {a : Act} (h : a.ofConn d = true) (hNe : c ≠ d) : a.unsettles c = false := by
  cases a with
  | queue e | attach e | condemn e | write e =>
    obtain rfl : e = d := by
      simpa [Act.ofConn, Act.flushes, Act.inbound, Act.backstage, Act.answers, Act.feeds] using h
    simpa [Act.unsettles] using Ne.symm hNe
  | relay | eof => simp [Act.ofConn, Act.flushes, Act.inbound, Act.backstage, Act.answers, Act.feeds] at h
  | _ => rfl

theorem settled_dispatchReady (hCons : srv.links.Consistent)
    (hWithin : ∀ e, (srv.conn e).wpos ≤ (srv.conn e).wlen) (h : srv.Settled c) {ready : Ready}
    {ans : Answers} (hReady : ready.Allocated srv) (hStep : dispatchReady srv ready ans = some srv')
    (hLaw : ∀ e ∈ srv'.trace, drainable e = true) : srv'.Settled c := by
  cases ready with
  | listen =>
    cases ans <;> cases hStep
    rename_i outcomes
    refine settled_path hCons h ?_ (@ofAccept_acceptConn srv outcomes _ (Nat.le_refl _))
    intro a ha
    cases a <;> first | rfl | cases ha
  | signal =>
    cases ans <;> cases hStep
    refine settled_path hCons h ?_ (ofSignal_handleSignalfd _)
    intro a ha
    cases a <;> first | rfl | cases ha
  | pty s ev =>
    cases ans <;> cases hStep
    exact settled_dispatchPty hCons hWithin h hLaw
  | conn d ev =>
    cases ans <;> cases hStep
    rcases eq_or_ne c d with rfl | hNe
    · exact settled_dispatchConn hCons hReady hWithin h hLaw
    · exact settled_path hCons h (fun a ha => unsettles_of_ofConn ha hNe)
        (ofConn_dispatchConn hCons hReady ev _)

end Dispatch

section Loop

theorem settled_step {loop loop' : Loop} {input : Input} {c : ConnPtr} (hSound : loop.Sound)
    (hWithin : ∀ e, (loop.srv.conn e).wpos ≤ (loop.srv.conn e).wlen) (h : loop.srv.Settled c)
    (hStep : loop.step input = some loop') (hLaw : ∀ e ∈ loop'.srv.trace, drainable e = true) :
    loop'.srv.Settled c := by
  rcases step_cases hSound hStep with hSame | ⟨ready, ans, hReady, hDispatch⟩ | ⟨now, early, hFinish⟩
  · rw [hSame]
    exact h
  · exact settled_dispatchReady hSound.consistent hWithin h hReady hDispatch hLaw
  · rw [hFinish]
    refine settled_path hSound.consistent h ?_ (ofFinish_finishBatch now early).1
    intro a ha
    cases a <;> first | rfl | cases ha

variable {srv : Server} {c : ConnPtr}

theorem settleConn_closes (hMarked : (srv.conn c).wantClose = true)
    (hDrained : (srv.conn c).wpos = (srv.conn c).wlen) : settleConn srv c = connClose srv c := by
  unfold settleConn
  simp [hMarked, hDrained]

/-- A socket that takes everything takes the whole backlog, and a connection to be closed is closed. -/
theorem dispatchConn_drains (hCons : srv.links.Consistent) (hc : c ∈ srv.conns)
    (hPending : (srv.conn c).wpos < (srv.conn c).wlen) {ans : ConnAnswers}
    (hTakes : ans.writes = [.wrote (srv.conn c).wlen]) :
    .wrote c (srv.conn c).unsent ∈ (dispatchConn srv c writable ans).trace ∧
      ((srv.conn c).wantClose = true → c ∉ (dispatchConn srv c writable ans).conns) := by
  obtain ⟨n, hLength⟩ : ∃ n, (srv.conn c).wlen = n + 1 :=
    ⟨(srv.conn c).wlen - 1, by omega⟩
  have hAll : (srv.conn c).unsent.take (n + 1) = (srv.conn c).unsent := by
    apply List.take_of_length_le
    rw [Connection.unsent_length]
    omega
  have hFlushed : dispatchConn srv c writable ans = settleConn (resetIfDrained (writeSome srv c (n + 1)) c) c := by
    rw [dispatchConn_eq, serveConn_eq, flushReady, hTakes, hLength]
    simp only [writable, Bool.or_self, Bool.false_eq_true, ↓reduceIte, connFlush, hPending]
  have hConns : c ∈ (resetIfDrained (writeSome srv c (n + 1)) c).conns := hc
  have hSettle := @ofConn_settleConn (resetIfDrained (writeSome srv c (n + 1)) c) c hConns
  rw [hFlushed]
  constructor
  · refine trace_mono hSettle _ (List.mem_append_right srv.trace ?_)
    rw [hAll]
    exact List.mem_cons_self
  · intro hMarked
    have hEnd : ((writeSome srv c (n + 1)).conn c).wpos = ((writeSome srv c (n + 1)).conn c).wlen := by
      have hUnsent := @Connection.unsent_length (srv.conn c)
      simp only [writeSome, Server.modConn, Server.emit, Function.update_self]
      change _ + min (n + 1) _ = (srv.conn c).wlen
      omega
    have hCell : (resetIfDrained (writeSome srv c (n + 1)) c).conn c =
        { (writeSome srv c (n + 1)).conn c with wpos := 0, wbuf := [] } := by
      unfold resetIfDrained
      simp only [Server.modConn, Function.update_self]
      rw [if_pos hEnd]
    have hWant : ((resetIfDrained (writeSome srv c (n + 1)) c).conn c).wantClose = true := by
      rw [hCell]
      simpa [writeSome, Server.modConn, Server.emit] using hMarked
    rw [settleConn_closes hWant (by rw [hCell]; rfl), connClose_eq]
    exact hCons.conns_nodup.not_mem_erase

theorem Reached.within {instanceId : Nat} (h : Reached instanceId srv) :
    ∀ c, (srv.conn c).wpos ≤ (srv.conn c).wlen :=
  Reached.invariant (P := fun srv => ∀ c, (srv.conn c).wpos ≤ (srv.conn c).wlen) (fun _ => Nat.le_refl _)
    (fun _ _ _ hWithin _ => within_perform hWithin) h

/-- In a run where no reply is queued together with the mark on an unregistered connection, and the
PTY path drains no marked one, no output is stranded. -/
theorem unstranded_of_drainable {instanceId : Nat} {inputs : List Input} {loop : Loop}
    (h : (machine instanceId).run inputs = some loop) (hLaw : ∀ e ∈ loop.srv.trace, drainable e = true) :
    loop.srv.Unstranded := by
  have hAll : loop.Sound ∧ Reached instanceId loop.srv ∧
      ((∀ e ∈ loop.srv.trace, drainable e = true) → ∀ c, loop.srv.Settled c) := by
    refine (machine instanceId).run_invariant (P := fun loop => loop.Sound ∧ Reached instanceId loop.srv ∧
      ((∀ e ∈ loop.srv.trace, drainable e = true) → ∀ c, loop.srv.Settled c))
      ⟨initial_sound instanceId, .refl _, ?_⟩ ?_ h
    · intro _ c
      constructor
      · rintro ⟨⟩
      · rintro ⟨⟩
    · rintro loop input loop' ⟨hSound, hReached, hSettled⟩ hStep
      have hPath := step_path hSound hStep
      refine ⟨step_sound hSound hStep, hReached.trans hPath, fun hDrainable c => ?_⟩
      refine settled_step hSound hReached.within (hSettled ?_ c) hStep hDrainable
      exact fun e he => hDrainable e (trace_mono hPath e he)
  obtain ⟨hSound, hReached, hSettled⟩ := hAll
  have hPolled : ∀ c ∈ loop.srv.conns, .writeFailed c ∉ loop.srv.trace →
      (loop.srv.conn c).wpos < (loop.srv.conn c).wlen → (loop.srv.conn c).polled = true := by
    intro c hc hWorks hPending
    exact ((hSettled hLaw c).watched hc (Connection.unsent_ne_nil_iff.mpr hPending)).resolve_right hWorks
  refine ⟨hPolled, fun c hc hWorks hPending => ⟨?_, fun ans hTakes => ?_⟩, fun c hc hMarked hDrained => ?_⟩
  · have hEvents := hPolled c hc hWorks hPending
    simp only [Ready.registered, Bool.and_eq_true, List.contains_iff_mem]
    refine ⟨hc, ?_⟩
    unfold Connection.polled at hEvents
    cases hKnown : (loop.srv.conn c).events with
    | none =>
      rw [hKnown] at hEvents
      cases hEvents
    | some ev =>
      rw [hKnown] at hEvents
      simpa [Events.within, writable] using hEvents
  · exact dispatchConn_drains hSound.consistent hc hPending hTakes
  · refine (hSettled hLaw c).closing hc hMarked ?_
    rw [Connection.unsent, hDrained]
    exact List.drop_length

theorem unstranded_of_drainable_attaching :
    ∃ loop, (machine 7).run attaching = some loop ∧ loop.srv.Unstranded := by
  have hRun : ((machine 7).run attaching).any fun loop => loop.srv.trace.all drainable := by
    decide +kernel
  obtain ⟨loop, hLoop, hLaw⟩ := (machine 7).exists_of_run_any hRun
  exact ⟨loop, hLoop, unstranded_of_drainable hLoop (List.all_eq_true.mp hLaw)⟩

def strands (loop : Loop) : Bool :=
  loop.phase == .head ⟨0⟩ && loop.srv.conns.contains 0 && !loop.srv.trace.contains (.writeFailed 0) &&
    decide ((loop.srv.conn 0).wpos < (loop.srv.conn 0).wlen) && !(loop.srv.conn 0).polled

/-- The ERROR reply to an empty frame is left behind. -/
theorem stranded_shortFrame :
    ∃ loop, (machine 7).run shortFrame = some loop ∧ loop.phase = .head ⟨0⟩ ∧ ¬ loop.srv.Unstranded := by
  have hRun : ((machine 7).run shortFrame).any strands := by decide +kernel
  obtain ⟨loop, hLoop, hStrands⟩ := (machine 7).exists_of_run_any hRun
  simp only [strands, Bool.and_eq_true, beq_iff_eq, List.contains_iff_mem, Bool.not_eq_true',
    decide_eq_true_eq, Bool.eq_false_iff, ne_eq] at hStrands
  obtain ⟨⟨⟨⟨hHead, hc⟩, hWorks⟩, hPending⟩, hBlind⟩ := hStrands
  exact ⟨loop, hLoop, hHead, fun hUnstranded => hBlind (hUnstranded.registered 0 hc hWorks hPending)⟩

end Loop

end Epimone.Daemon
