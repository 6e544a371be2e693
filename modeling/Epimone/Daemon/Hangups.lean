import Epimone.Daemon.Groups

/-! # Clients of sessions that have hung up

client_eof tells the client that is attached when the PTY hangs up. The daemon
says nothing to a client that attaches afterwards. `ShutBefore` follows the
PTYs through the handlers: only a hangup closes the PTY of a session that stays
on the list.
-/
set_option autoImplicit false

namespace Epimone.Daemon

open Transition History

/-- No client attaches to a session whose PTY has been closed. -/
def attachedInTime (history : List Effect) : Effect → Bool
  | .attached _ s _ _ => !history.contains (.ptyClosed s)
  | _ => true

/-- A client of a session whose PTY is closed is to be closed once it has drained. -/
def Server.Told (srv : Server) : Prop :=
  ∀ s c, (srv.sess s).client = some c → (srv.sess s).ptyOpen = false → (srv.conn c).wantClose = true

/-- The sessions on the list with a closed PTY were on it before, with a closed PTY. -/
def ShutBefore (srv srv' : Server) : Prop :=
  ∀ s ∈ srv'.sessions, (srv'.sess s).ptyOpen = false → s ∈ srv.sessions ∧ (srv.sess s).ptyOpen = false

def Server.ClosingsNoted (srv : Server) : Prop :=
  ∀ s ∈ srv.sessions, (srv.sess s).ptyOpen = false → .ptyClosed s ∈ srv.trace

theorem ShutBefore.refl (srv : Server) : ShutBefore srv srv := fun _ hs hShut => ⟨hs, hShut⟩

theorem ShutBefore.trans {srv mid srv' : Server} (h : ShutBefore srv mid) (h' : ShutBefore mid srv') :
    ShutBefore srv srv' := by
  intro s hs hShut
  obtain ⟨hMid, hMidShut⟩ := h' s hs hShut
  exact h s hMid hMidShut

theorem ShutBefore.of_same {srv srv' : Server} (hSessions : srv'.sessions = srv.sessions)
    (hOpen : ∀ s ∈ srv.sessions, (srv'.sess s).ptyOpen = (srv.sess s).ptyOpen) : ShutBefore srv srv' := by
  intro s hs hShut
  rw [hSessions] at hs
  exact ⟨hs, (hOpen s hs).symm.trans hShut⟩

section Actions

variable {srv srv' : Server} {a : Act}

theorem shutBefore_perform (hLinks : srv.links.Consistent) (hGuard : a.guard srv)
    (hKeeps : ∀ s, a ≠ .closePty s) : ShutBefore srv (a.perform srv) := by
  intro s
  change s ∈ (a.perform srv).links.sessions → (a.perform srv).links.ptyOpen s = false →
    s ∈ srv.links.sessions ∧ srv.links.ptyOpen s = false
  rw [links_perform hGuard]
  intro hs hShut
  cases a with
  | closePty t => exact absurd rfl (hKeeps t)
  | create pid cwd argv env exec k =>
    simp only [Act.relink, Links.create, Function.update_apply] at hs hShut
    split at hShut
    · cases hShut
    · rename_i hOld
      exact ⟨(List.mem_cons.mp hs).resolve_left hOld, hShut⟩
  | unlink t => exact ⟨List.mem_of_mem_erase hs, hShut⟩
  | free t rest =>
    have hNe : s ≠ t := by
      rintro rfl
      refine hLinks.disjoint s hs ?_
      rw [show srv.links.dead = s :: rest from hGuard]
      exact List.mem_cons_self
    simp only [Act.relink, Links.free, Function.update_of_ne hNe] at hShut
    exact ⟨hs, hShut⟩
  | _ => exact ⟨hs, hShut⟩

theorem shutBefore_path {allowed : Act → Prop} (hLinks : srv.links.Consistent)
    (hKeeps : ∀ a, allowed a → ∀ s, a ≠ .closePty s) (h : actions.Path allowed srv srv') :
    ShutBefore srv srv' := by
  have hBoth := Actions.Path.invariant (P := fun t => t.links.Consistent ∧ ShutBefore srv t)
    (fun t a hHere hGuard hAllowed => ⟨consistent_perform hHere.1 hGuard,
      hHere.2.trans (shutBefore_perform hHere.1 hGuard (hKeeps a hAllowed))⟩) h ⟨hLinks, .refl srv⟩
  exact hBoth.2

theorem closingsNoted_perform (hLinks : srv.links.Consistent) (h : srv.ClosingsNoted)
    (hGuard : a.guard srv) : (a.perform srv).ClosingsNoted := by
  intro s hs hShut
  rw [trace_perform]
  rcases em (∃ t, a = .closePty t) with ⟨t, rfl⟩ | hOther
  · rcases eq_or_ne s t with rfl | hNe
    · exact List.mem_append_right _ List.mem_cons_self
    · have hCell : ((Act.closePty t).perform srv).sess s = srv.sess s := Function.update_of_ne hNe _ _
      rw [hCell] at hShut
      exact List.mem_append_left _ (h s hs hShut)
  · obtain ⟨hOld, hOldShut⟩ := shutBefore_perform hLinks hGuard (fun t hSame => hOther ⟨t, hSame⟩) s hs hShut
    exact List.mem_append_left _ (h s hOld hOldShut)

theorem Reached.closingsNoted {instanceId : Nat} (h : Reached instanceId srv) : srv.ClosingsNoted :=
  Reached.invariant (by simp [Server.ClosingsNoted, Server.initial])
    (fun _ _ => closingsNoted_perform) h

theorem client_relink {l : Links} {s : SessPtr} {c : ConnPtr} (h : (a.relink l).client s = some c) :
    (∃ ans, a = .attach c s ans) ∨ l.client s = some c ∧ (a = .close c → l.bound c ≠ some s) := by
  cases a with
  | attach d t ans =>
    simp only [Act.relink, Links.bind, Function.update_apply] at h
    split at h
    · rename_i hSame
      cases h
      rw [hSame]
      exact Or.inl ⟨ans, rfl⟩
    · exact Or.inr ⟨h, fun hClose => by cases hClose⟩
  | unbind t d =>
    simp only [Act.relink, Links.unbind, Function.update_apply] at h
    split at h
    · cases h
    · exact Or.inr ⟨h, fun hClose => by cases hClose⟩
  | create =>
    simp only [Act.relink, Links.create, Function.update_apply] at h
    split at h
    · cases h
    · exact Or.inr ⟨h, fun hClose => by cases hClose⟩
  | free t rest =>
    simp only [Act.relink, Links.free, Function.update_apply] at h
    split at h
    · cases h
    · exact Or.inr ⟨h, fun hClose => by cases hClose⟩
  | close d =>
    simp only [Act.relink, Links.close] at h
    split at h
    · cases h
    · rename_i hOther
      refine Or.inr ⟨h, ?_⟩
      rintro ⟨rfl⟩ hBound
      exact hOther ⟨hBound, h⟩
  | _ => exact Or.inr ⟨h, fun hClose => by cases hClose⟩

theorem client_perform (hLinks : srv.links.Consistent) (hGuard : a.guard srv) {s : SessPtr} {c : ConnPtr}
    (hClient : ((a.perform srv).sess s).client = some c) :
    (∃ n ring, .attached c s n ring ∈ a.effects srv) ∨
      (srv.sess s).client = some c ∧
        ((srv.conn c).wantClose = true → ((a.perform srv).conn c).wantClose = true) := by
  have hRelinked : (a.relink srv.links).client s = some c := by
    rw [← links_perform hGuard]
    exact hClient
  rcases client_relink hRelinked with ⟨ans, rfl⟩ | ⟨hOld, hClose⟩
  · refine Or.inl ⟨(greeted srv c s ans).unsent.length, (srv.sess s).out.ring.contents, ?_⟩
    exact List.mem_append_right _ List.mem_cons_self
  · have hBound := (hLinks.paired c s).mpr hOld
    refine Or.inr ⟨hOld, wantClose_perform (fun hSame => hClose hSame hBound) fun _ hNew => ?_⟩
    exact Nat.ne_of_lt (hLinks.conns_lt c (hLinks.bound_conn c s hBound).1) hNew

theorem client_path {allowed : Act → Prop} (hLinks : srv.links.Consistent)
    (h : actions.Path allowed srv srv') :
    ∃ es, srv'.trace = srv.trace ++ es ∧ ∀ s c, (srv'.sess s).client = some c →
      (∃ n ring, .attached c s n ring ∈ es) ∨
        (srv.sess s).client = some c ∧
          ((srv.conn c).wantClose = true → (srv'.conn c).wantClose = true) := by
  have hBoth := Actions.Path.invariant (P := fun t => t.links.Consistent ∧
    ∃ es, t.trace = srv.trace ++ es ∧ ∀ s c, (t.sess s).client = some c →
      (∃ n ring, .attached c s n ring ∈ es) ∨
        (srv.sess s).client = some c ∧ ((srv.conn c).wantClose = true → (t.conn c).wantClose = true))
    ?_ h ⟨hLinks, [], (List.append_nil _).symm, fun s c hClient => Or.inr ⟨hClient, id⟩⟩
  · exact hBoth.2
  rintro t a ⟨hCons, es, hTrace, hClients⟩ hGuard -
  refine ⟨consistent_perform hCons hGuard, es ++ a.effects t, ?_, ?_⟩
  · exact (trace_perform t a).trans (by rw [hTrace, List.append_assoc])
  intro s c hClient
  rcases client_perform hCons hGuard hClient with ⟨n, ring, hNew⟩ | ⟨hOld, hMono⟩
  · exact Or.inl ⟨n, ring, List.mem_append_right _ hNew⟩
  · rcases hClients s c hOld with ⟨n, ring, hAttached⟩ | ⟨hFirst, hMonoFirst⟩
    · exact Or.inl ⟨n, ring, List.mem_append_left _ hAttached⟩
    · exact Or.inr ⟨hFirst, fun hMarked => hMono (hMonoFirst hMarked)⟩

/-- Clients stay told while the PTYs that are closed were closed before, or the client is told. -/
theorem told_path {allowed : Act → Prop} (hLinks : srv.links.Consistent) (hNoted : srv.ClosingsNoted)
    (hTold : srv.Told) (h : actions.Path allowed srv srv')
    (hLaw : Lawful (fun before e => attachedInTime before e = true) srv'.trace)
    (hShut : ∀ s c, (srv'.sess s).client = some c → (srv'.sess s).ptyOpen = false →
      s ∈ srv.sessions ∧ (srv.sess s).ptyOpen = false ∨ (srv'.conn c).wantClose = true) :
    srv'.Told := by
  intro s c hClient hClosed
  rcases hShut s c hClient hClosed with ⟨hs, hBefore⟩ | hMarked
  · obtain ⟨es, hTrace, hClients⟩ := client_path hLinks h
    rcases hClients s c hClient with ⟨n, ring, hAttached⟩ | ⟨hOld, hMono⟩
    · -- the law forbids the attach, since the closing is in the trace already
      obtain ⟨before, after, rfl⟩ := List.append_of_mem hAttached
      have hInTime := hLaw (srv.trace ++ before) (.attached c s n ring) after (by rw [hTrace]; simp)
      have hNotNoted : .ptyClosed s ∉ srv.trace ++ before := by
        simpa [attachedInTime] using hInTime
      exact absurd (List.mem_append_left _ (hNoted s hs hBefore)) hNotNoted
    · exact hMono (hTold s c hOld hBefore)
  · exact hMarked

end Actions

section Handlers

variable {srv : Server} {c : ConnPtr} {s : SessPtr} {ans : FrameAnswers}

theorem shutBefore_connQueueFrame (b : EpiBuf) (alloc : Bool) :
    ShutBefore srv (connQueueFrame srv c b alloc) := by
  rw [connQueueFrame_eq]
  exact .of_same rfl fun _ _ => rfl

theorem shutBefore_detachClient : ShutBefore srv (detachClient srv s) := by
  apply ShutBefore.of_same (detachClient_sessions srv s)
  intro t _
  obtain ⟨client, hSame⟩ := detachClient_sess srv s t
  rw [hSame]

theorem shutBefore_bindClient : ShutBefore srv (bindClient srv c ans s) := by
  rw [bindClient_eq]
  refine ShutBefore.of_same rfl fun t _ => ?_
  rcases eq_or_ne t s with rfl | hNe
  · simp
  · simp [hNe]

theorem shutBefore_moveSession (gid : Nat) : ShutBefore srv (moveSession srv s gid) := by
  rw [moveSession_eq]
  refine ShutBefore.of_same rfl fun t _ => ?_
  rcases eq_or_ne t s with rfl | hNe
  · simp [regrouped, Server.modSess]
  · simp [regrouped, Server.modSess, hNe]

theorem shutBefore_markKilled (clock : Timespec) : ShutBefore srv (markKilled srv s clock) := by
  rw [markKilled_eq]
  refine ShutBefore.of_same rfl fun t _ => ?_
  rcases eq_or_ne t s with rfl | hNe
  · simp [hidden, Server.modSess]
  · simp [hidden, Server.modSess, hNe]

theorem shutBefore_epiSessionHangup : ShutBefore srv (epiSessionHangup srv s) := by
  unfold epiSessionHangup
  dsimp only
  split
  · exact .of_same rfl fun _ _ => rfl
  · exact .refl srv

theorem shutBefore_removeSession (hNodup : srv.sessions.Nodup) : ShutBefore srv (removeSession srv s) := by
  unfold removeSession
  dsimp only
  split
  · exact .refl srv
  rw [gcGroupIfEmpty_eq, noteLeft_eq]
  have hDrop : ∀ t, t ≠ s → (dropClient srv s).sess t = srv.sess t := by
    intro t hNe
    unfold dropClient
    split
    · rfl
    · simp [unbindClient, Server.modSess, Server.modConn, Server.emit, hNe]
  have hSessions : (dropClient srv s).sessions = srv.sessions := by
    unfold dropClient
    split <;> rfl
  intro t ht hShut
  have hErased : t ∈ srv.sessions.erase s := by
    rw [← hSessions]
    split at ht <;> exact ht
  obtain ⟨hNe, hListed⟩ := hNodup.mem_erase_iff.mp hErased
  refine ⟨hListed, ?_⟩
  split at hShut <;>
    simpa [unlinkSession, closePty, Server.modSess, Server.emit, hNe, hDrop t hNe] using hShut

theorem shutBefore_withSession (r : EpiRd) (id : Nat) (malformed : String) {handle : SessPtr → Server}
    (hHandle : ∀ s ∈ srv.sessions, ShutBefore srv (handle s)) :
    ShutBefore srv (withSession srv c ans r id malformed handle) := by
  unfold withSession
  split
  · exact shutBefore_connQueueFrame _ _
  split
  · exact shutBefore_connQueueFrame _ _
  · rename_i s hFind
    exact hHandle s (findSession_spec hFind).1

theorem shutBefore_handleCreate (hLinks : srv.links.Consistent) (r : EpiRd) :
    ShutBefore srv (handleCreate srv c ans r) := by
  unfold handleCreate
  split
  split
  split
  split
  split
  · exact shutBefore_connQueueFrame _ _
  rename_i cwd _ _ _ argv _ _ _ env _ _ _ execPath _ _ _
  rcases createSession_spec srv cwd argv env execPath ans.spawn with
    ⟨srv', hNone, _, hSame, _⟩ | ⟨pid, cwd', argv', env', exec', k, hGuard, hSome⟩
  · rw [hNone]
    have hKept : ShutBefore srv srv' := .of_same hSame.sessions fun t ht => by rw [hSame.sess t ht]
    exact hKept.trans (shutBefore_connQueueFrame _ _)
  · rw [hSome]
    have hCreate := shutBefore_perform hLinks hGuard fun t => Act.noConfusion
    have hCons := consistent_perform hLinks hGuard
    dsimp only
    split
    · exact (hCreate.trans (shutBefore_removeSession hCons.sessions_nodup)).trans
        (shutBefore_connQueueFrame _ _)
    · refine (hCreate.trans ?_).trans (shutBefore_connQueueFrame _ _)
      exact shutBefore_perform (a := .watchPty srv.nextSess) hCons List.mem_cons_self
        fun t => Act.noConfusion

theorem shutBefore_handleAttach (r : EpiRd) : ShutBefore srv (handleAttach srv c ans r) := by
  unfold handleAttach
  split
  refine shutBefore_withSession _ _ _ fun s _ => ?_
  dsimp only
  split
  · exact shutBefore_detachClient.trans shutBefore_bindClient
  · exact shutBefore_bindClient

theorem shutBefore_handleKill (hLinks : srv.links.Consistent) (r : EpiRd) :
    ShutBefore srv (handleKill srv c ans r) := by
  unfold handleKill
  split
  refine shutBefore_withSession _ _ _ fun s _ => ?_
  dsimp only
  split
  · refine (shutBefore_detachClient.trans (shutBefore_removeSession ?_)).trans
      (shutBefore_connQueueFrame _ _)
    rw [detachClient_sessions]
    exact hLinks.sessions_nodup
  · exact ((shutBefore_detachClient.trans shutBefore_epiSessionHangup).trans
      (shutBefore_markKilled _)).trans (shutBefore_connQueueFrame _ _)

theorem shutBefore_handleResize (r : EpiRd) : ShutBefore srv (handleResize srv c ans r) := by
  unfold handleResize
  split
  split
  split
  refine shutBefore_withSession _ _ _ fun s _ => ?_
  unfold epiSessionResize acknowledge
  split
  · exact shutBefore_connQueueFrame _ _
  · exact (ShutBefore.of_same rfl fun _ _ => rfl).trans (shutBefore_connQueueFrame _ _)

theorem shutBefore_handleDetach (r : EpiRd) : ShutBefore srv (handleDetach srv c ans r) := by
  unfold handleDetach
  split
  exact shutBefore_withSession _ _ _ fun s _ =>
    shutBefore_detachClient.trans (shutBefore_connQueueFrame _ _)

theorem shutBefore_handlePeek (r : EpiRd) : ShutBefore srv (handlePeek srv c ans r) := by
  unfold handlePeek
  split
  split
  exact shutBefore_withSession _ _ _ fun s _ => shutBefore_connQueueFrame _ _

theorem shutBefore_handleGroupNew (r : EpiRd) : ShutBefore srv (handleGroupNew srv c ans r) := by
  unfold handleGroupNew
  split
  dsimp only
  split
  · exact shutBefore_connQueueFrame _ _
  split
  · exact shutBefore_connQueueFrame _ _
  split
  · exact shutBefore_connQueueFrame _ _
  split
  · exact shutBefore_connQueueFrame _ _
  · rename_i g _
    have hLinked : ShutBefore srv (linkGroup srv g) := .of_same rfl fun _ _ => rfl
    exact hLinked.trans (shutBefore_connQueueFrame _ _)

theorem shutBefore_setGroupBlob {gid : Nat} {blob : Bytes} :
    ShutBefore srv (setGroupBlob srv gid blob) :=
  .of_same rfl fun _ _ => rfl

theorem shutBefore_handleGroupSet (r : EpiRd) : ShutBefore srv (handleGroupSet srv c ans r) := by
  unfold handleGroupSet
  split
  split
  dsimp only
  split
  · exact shutBefore_connQueueFrame _ _
  split
  · exact shutBefore_connQueueFrame _ _
  split
  · exact shutBefore_connQueueFrame _ _
  split
  · exact shutBefore_connQueueFrame _ _
  · exact shutBefore_setGroupBlob.trans (shutBefore_connQueueFrame _ _)

theorem shutBefore_handleGroupAdd (r : EpiRd) : ShutBefore srv (handleGroupAdd srv c ans r) := by
  rcases handleGroupAdd_cases srv c ans r with ⟨code, msg, hRefused⟩ | ⟨s, _, _, hMoved⟩
  · rw [hRefused]
    exact shutBefore_connQueueFrame _ _
  · rw [hMoved]
    exact (shutBefore_moveSession _).trans (shutBefore_connQueueFrame _ _)

theorem shutBefore_handleGroupRemove (r : EpiRd) : ShutBefore srv (handleGroupRemove srv c ans r) := by
  unfold handleGroupRemove
  split
  refine shutBefore_withSession _ _ _ fun s _ => ?_
  rw [gcGroupIfEmpty_assign]
  exact (shutBefore_moveSession 0).trans (shutBefore_connQueueFrame _ _)

theorem shutBefore_dispatchFrame (hLinks : srv.links.Consistent) (ans : FrameAnswers) (type : Nat)
    (body : Bytes) : ShutBefore srv (dispatchFrame srv c ans type body) := by
  unfold dispatchFrame
  dsimp only
  split
  · exact shutBefore_handleCreate hLinks _
  · exact shutBefore_connQueueFrame _ _
  · exact shutBefore_handleAttach _
  · exact shutBefore_handleKill hLinks _
  · exact shutBefore_handleResize _
  · exact shutBefore_handleDetach _
  · exact shutBefore_handlePeek _
  · exact shutBefore_handleGroupNew _
  · exact shutBefore_handleGroupSet _
  · exact shutBefore_handleGroupAdd _
  · exact shutBefore_handleGroupRemove _
  · exact shutBefore_connQueueFrame _ _
  · exact shutBefore_connQueueFrame _ _

end Handlers

section Dispatch

variable {srv : Server} {c : ConnPtr} {s : SessPtr}

theorem shutBefore_rejectFrame (code : EpiErrCode) (msg : String) (ans : ConnAnswers) :
    ShutBefore srv (rejectFrame srv c code msg ans) := by
  unfold rejectFrame sendError
  dsimp only
  rw [connQueueFrame_eq]
  exact .of_same rfl fun _ _ => rfl

theorem shutBefore_dataToPty (hLinks : srv.links.Consistent) (data : Bytes) (ans : ConnAnswers) :
    ShutBefore srv (dataToPty srv c data ans) := by
  unfold dataToPty
  split
  · exact .refl srv
  · rename_i s _
    have hInput : ShutBefore srv (srv.emit (.input s c data)) := .of_same rfl fun _ _ => rfl
    have hFed : actions.Path (fun a => a.feeds = true) (srv.emit (.input s c data))
        (epiSessionQueueInput (srv.emit (.input s c data)) s data ans.pinAlloc ans.ptyWrites) :=
      path_epiSessionQueueInput (fun _ ha => ha) s data ans.pinAlloc ans.ptyWrites
    refine hInput.trans (shutBefore_path hLinks ?_ (hFed.trans (path_ptyUpdate (fun _ ha => ha) s)))
    rintro a ha t rfl
    cases ha

theorem shutBefore_handleFrame (hLinks : srv.links.Consistent) (ans : FrameAnswers) (type : Nat)
    (body : Bytes) : ShutBefore srv (handleFrame srv c ans type body) := by
  unfold handleFrame
  generalize hEmit : srv.emit (.frame c type body (srv.conn c).unsent.length) = noted
  have hNoted : ShutBefore srv noted ∧ noted.links.Consistent := by
    rw [← hEmit]
    exact ⟨.of_same rfl fun _ _ => rfl, hLinks⟩
  exact hNoted.1.trans (shutBefore_dispatchFrame hNoted.2 ans type body)

theorem shutBefore_switchConn (hLinks : srv.links.Consistent) (ans : ConnAnswers) (used : Nat) :
    ShutBefore srv (switchConn srv c ans used) := by
  have hFree : ∀ t : Server, ShutBefore t (freeInbound t c) := fun t => .of_same rfl fun _ _ => rfl
  unfold switchConn
  dsimp only
  split
  · exact hFree srv
  · exact (shutBefore_dataToPty hLinks _ ans).trans (hFree _)

theorem shutBefore_dropConsumed (used : Nat) : ShutBefore srv (dropConsumed srv c used) := by
  unfold dropConsumed
  split
  · exact .of_same rfl fun _ _ => rfl
  · exact .refl srv

theorem shutBefore_connRead (hLinks : srv.links.Consistent) (hc : c ∈ srv.conns) (ans : ConnAnswers) :
    ShutBefore srv (connRead srv c ans) := by
  rcases connRead_cases hLinks hc ans with
    hSame | hCondemn | ⟨data, _, hFed⟩ | ⟨data, srv', left, hData, _, hRun, hRead⟩
  · rw [hSame]
    exact .refl srv
  · rw [hCondemn]
    exact .of_same rfl fun _ _ => rfl
  · rw [hFed]
    exact shutBefore_dataToPty hLinks data ans
  · have hStore : ShutBefore srv (storeInbound srv c data) := .of_same rfl fun _ _ => rfl
    have hLoop := hRun.related ShutBefore.refl (fun _ _ _ => .trans)
      (fun t code msg => shutBefore_rejectFrame code msg ans)
      (fun t ans type body hCons => shutBefore_handleFrame hCons ans type body)
      (fun t used hCons => shutBefore_switchConn hCons ans used) hLinks hc hData
    rw [hRead]
    cases left with
    | none => exact hStore.trans hLoop
    | some used => exact (hStore.trans hLoop).trans (shutBefore_dropConsumed used)

theorem shutBefore_settleConn : ShutBefore srv (settleConn srv c) := by
  unfold settleConn
  dsimp only
  generalize hUpdated : (if (!(srv.conn c).wantClose) = true then connUpdate srv c else srv) = updated
  have hSame : ShutBefore srv updated := by
    rw [← hUpdated]
    split
    · exact .of_same rfl fun _ _ => rfl
    · exact .refl srv
  split
  · rw [connClose_eq]
    refine hSame.trans (.of_same rfl fun t _ => ?_)
    dsimp only
    split <;> rfl
  · exact hSame

theorem shutBefore_dispatchConn (hLinks : srv.links.Consistent) (hc : c ∈ srv.conns) (ev : Events)
    (ans : ConnAnswers) : ShutBefore srv (dispatchConn srv c ev ans) := by
  have hFlush : ShutBefore srv (flushReady srv c ev ans) := by
    refine shutBefore_path hLinks ?_ (path_flushReady hc ev ans)
    rintro a ha t rfl
    cases ha
  have hSame := flushReady_links hc ev ans
  have hRead : ShutBefore (flushReady srv c ev ans) (serveConn srv c ev ans) := by
    rw [serveConn_eq]
    split
    · refine shutBefore_connRead (by rw [hSame]; exact hLinks) ?_ ans
      rw [show (flushReady srv c ev ans).conns = srv.conns from congrArg Links.conns hSame]
      exact hc
    · exact .refl _
  exact (hFlush.trans hRead).trans shutBefore_settleConn

theorem shutBefore_reapChild (hLinks : srv.links.Consistent) (pid status : Nat) :
    ShutBefore srv (reapChild srv pid status) := by
  unfold reapChild
  split
  · exact .refl srv
  rename_i child hChild
  have hMarked : ShutBefore srv (markReaped srv pid status child) :=
    shutBefore_perform (a := .reap pid status child) hLinks hChild fun t => Act.noConfusion
  have hNodup : (markReaped srv pid status child).sessions.Nodup := by
    rw [markReaped_eq]
    exact hLinks.sessions_nodup
  unfold markReaped at hMarked hNodup
  dsimp only at hMarked hNodup ⊢
  split
  · rename_i hNone
    rw [hNone] at hMarked
    exact hMarked
  · rename_i t hSome
    rw [hSome] at hMarked hNodup
    split
    · exact hMarked.trans (shutBefore_removeSession hNodup)
    · exact hMarked

theorem shutBefore_reapChildren (hLinks : srv.links.Consistent) (waits : List (Nat × Nat)) :
    ShutBefore srv (reapChildren waits srv) := by
  induction waits generalizing srv with
  | nil => exact .refl srv
  | cons wait waits ih =>
    have hCons := Actions.consistent (ofSignal_reapChild wait.1 wait.2) hLinks
    exact (shutBefore_reapChild hLinks wait.1 wait.2).trans (ih hCons)

theorem shutBefore_handleSignalfd (hLinks : srv.links.Consistent) (reads : List SignalRead) :
    ShutBefore srv (handleSignalfd srv reads) := by
  induction reads generalizing srv with
  | nil => exact .refl srv
  | cons read reads ih =>
    cases read with
    | chld waits =>
      have hCons := Actions.consistent (ofSignal_reapChildren waits) hLinks
      exact (shutBefore_reapChildren hLinks waits).trans (ih hCons)
    | term => exact .of_same rfl fun _ _ => rfl
    | other => exact ih hLinks

end Dispatch

section Hangup

variable {srv srv' mid : Server} {c : ConnPtr} {s : SessPtr}

/-- A PTY that closes under a client condemns it. -/
def HangupTold (srv srv' : Server) : Prop :=
  ∀ t c, (srv'.sess t).client = some c → (srv'.sess t).ptyOpen = false →
    t ∈ srv.sessions ∧ (srv.sess t).ptyOpen = false ∨ (srv'.conn c).wantClose = true

theorem ShutBefore.hangupTold (h : ShutBefore srv srv') (hLinks : srv'.links.Consistent) :
    HangupTold srv srv' := by
  intro t c hClient hShut
  exact Or.inl (h t (hLinks.bound_listed c t ((hLinks.paired c t).mpr hClient)) hShut)

theorem ShutBefore.trans_hangupTold (h : ShutBefore srv mid) (h' : HangupTold mid srv') :
    HangupTold srv srv' := by
  intro t c hClient hShut
  exact (h' t c hClient hShut).imp_left fun hMid => h t hMid.1 hMid.2

theorem removeSession_sessions (hLive : (srv.sess s).defunct = false) :
    (removeSession srv s).sessions = srv.sessions.erase s := by
  unfold removeSession
  dsimp only
  rw [hLive, if_neg (by decide), gcGroupIfEmpty_eq, noteLeft_eq]
  have hDrop : (dropClient srv s).sessions = srv.sessions := by
    unfold dropClient
    split <;> rfl
  split <;> exact congrArg (List.erase · s) hDrop

theorem closePty_sess (srv : Server) (s t : SessPtr) :
    ((closePty (srv.emit (.ptyHangup s)) s).sess t).client = (srv.sess t).client ∧
      (t ≠ s → ((closePty (srv.emit (.ptyHangup s)) s).sess t).ptyOpen = (srv.sess t).ptyOpen) := by
  rcases eq_or_ne t s with rfl | hNe
  · simp [closePty, Server.modSess, Server.emit]
  · simp [closePty, Server.modSess, Server.emit, hNe]

theorem connFlush_sess (srv : Server) (c : ConnPtr) (outcomes : List WriteOutcome) :
    (connFlush srv c outcomes).sess = srv.sess := by
  induction outcomes generalizing srv with
  | nil => rfl
  | cons outcome outcomes ih =>
    unfold connFlush
    split
    · cases outcome with
      | wrote n =>
        cases n with
        | zero => rfl
        | succ n => exact ih (writeSome srv c (n + 1))
      | again => rfl
      | intr => exact ih srv
      | failed => rfl
    · rfl

theorem closeAfterDrain_spec (srv : Server) (c : ConnPtr) :
    (closeAfterDrain srv c).sess = srv.sess ∧ ((closeAfterDrain srv c).conn c).wantClose = true := by
  unfold closeAfterDrain
  dsimp only
  split <;> exact ⟨rfl, by simp [connUpdate, condemn, Server.modConn, Server.emit]⟩

theorem hangupTold_ptyHangup (hLinks : srv.links.Consistent) (hOpen : (srv.sess s).ptyOpen = true)
    (eofWrites : List WriteOutcome) : HangupTold srv (ptyHangup srv s eofWrites) := by
  have hs : s ∈ srv.sessions := hLinks.open_listed s hOpen
  have hCons := Actions.consistent (ofPty_ptyHangup hLinks hOpen eofWrites) hLinks
  have hClosed := closePty_sess srv s
  unfold ptyHangup at hCons ⊢
  dsimp only at hCons ⊢
  generalize hMid : closePty (srv.emit (.ptyHangup s)) s = closed at hClosed hCons ⊢
  have hSessions : closed.sessions = srv.sessions ∧ (closed.sess s).defunct = (srv.sess s).defunct := by
    rw [← hMid]
    simp [closePty, Server.modSess, Server.emit]
  revert hCons
  split
  · -- the session is off the list, so a session with a client is another one
    intro hCons t c hClient hShut
    have hLive : (closed.sess s).defunct = false := hSessions.2.trans (hLinks.listed_live s hs)
    have hListed := hCons.bound_listed c t ((hCons.paired c t).mpr hClient)
    obtain ⟨ht, hBefore⟩ := shutBefore_removeSession (by rw [hSessions.1]; exact hLinks.sessions_nodup) t
      hListed hShut
    have hErased : t ∈ srv.sessions.erase s := by
      rw [← hSessions.1, ← removeSession_sessions hLive]
      exact hListed
    obtain ⟨hNe, hOld⟩ := hLinks.sessions_nodup.mem_erase_iff.mp hErased
    exact Or.inl ⟨hOld, ((hClosed t).2 hNe).symm.trans hBefore⟩
  · unfold clientEof
    split
    · rename_i hNone
      intro _ t c hClient hShut
      have hNe : t ≠ s := by
        rintro rfl
        rw [hNone] at hClient
        cases hClient
      have hListed := hLinks.bound_listed c t ((hLinks.paired c t).mpr ((hClosed t).1.symm.trans hClient))
      exact Or.inl ⟨hListed, ((hClosed t).2 hNe).symm.trans hShut⟩
    · rename_i d hd
      intro _ t c hClient hShut
      obtain ⟨hSess, hMarked⟩ := closeAfterDrain_spec (connFlush closed d eofWrites) d
      rw [hSess, connFlush_sess] at hClient hShut
      rcases eq_or_ne t s with rfl | hNe
      · rw [hd] at hClient
        cases hClient
        exact Or.inr hMarked
      · have hListed := hLinks.bound_listed c t ((hLinks.paired c t).mpr ((hClosed t).1.symm.trans hClient))
        exact Or.inl ⟨hListed, ((hClosed t).2 hNe).symm.trans hShut⟩

theorem outputs_keep {client : Option ConnPtr} {a : Act} (h : a.outputs s client = true) (t : SessPtr) :
    a ≠ .closePty t := by
  rintro rfl
  cases h

theorem hangupTold_ptyReadLoop (hLinks : srv.links.Consistent) (hOpen : (srv.sess s).ptyOpen = true)
    (eofWrites : List WriteOutcome) (reads : List PtyRead) :
    HangupTold srv (ptyReadLoop s eofWrites reads srv) := by
  have hStays : HangupTold srv srv := (ShutBefore.refl srv).hangupTold hLinks
  induction reads generalizing srv with
  | nil => exact hStays
  | cons read reads ih =>
    unfold ptyReadLoop
    split
    · rename_i chunk _
      split
      · exact hangupTold_ptyHangup hLinks hOpen eofWrites
      · rename_i hData
        have hOutput := output_ptyOutput hLinks hOpen hData read
        have hSame := hOutput.links
        have hCons : (ptyOutput (noteRead srv s chunk) s chunk read).links.Consistent := by rw [hSame]; exact hLinks
        have hRest := ih hCons ((congrFun (congrArg Links.ptyOpen hSame) s).trans hOpen)
          ((ShutBefore.refl _).hangupTold hCons)
        exact (shutBefore_path hLinks (fun a ha => outputs_keep ha) hOutput).trans_hangupTold hRest
    · exact hStays
    · exact ih hLinks hOpen hStays
    · exact hangupTold_ptyHangup hLinks hOpen eofWrites

theorem hangupTold_dispatchPty (hLinks : srv.links.Consistent) (ev : Events) (ans : PtyAnswers) :
    HangupTold srv (dispatchPty srv s ev ans) := by
  obtain ⟨fed, hFed, hDispatch⟩ := dispatchPty_fed srv s ev ans
  have hKept : ShutBefore srv fed := by
    refine shutBefore_path hLinks ?_ hFed
    rintro a ha t rfl
    cases ha
  have hCons := Actions.consistent hFed hLinks
  rcases hDispatch with hSame | ⟨hOpen, hLoop⟩
  · rw [hSame]
    exact hKept.hangupTold hCons
  · rw [hLoop]
    exact hKept.trans_hangupTold (hangupTold_ptyReadLoop hCons hOpen ans.eofWrites ans.reads)

theorem hangupTold_dispatchReady (hLinks : srv.links.Consistent) {ready : Ready} {ans : Answers}
    (hReady : ready.Allocated srv) (hStep : dispatchReady srv ready ans = some srv') :
    HangupTold srv srv' := by
  have hCons := Actions.consistent (dispatchReady_path hLinks hReady hStep) hLinks
  cases ready with
  | listen =>
    cases ans <;> cases hStep
    rename_i outcomes
    refine (shutBefore_path hLinks ?_ (@ofAccept_acceptConn srv outcomes _ (Nat.le_refl _))).hangupTold
      hCons
    rintro a ha t rfl
    cases ha
  | signal =>
    cases ans <;> cases hStep
    exact (shutBefore_handleSignalfd hLinks _).hangupTold hCons
  | pty s ev =>
    cases ans <;> cases hStep
    exact hangupTold_dispatchPty hLinks ev _
  | conn c ev =>
    cases ans <;> cases hStep
    exact (shutBefore_dispatchConn hLinks hReady ev _).hangupTold hCons

end Hangup

theorem hangupTold_step {loop loop' : Loop} {input : Input} (h : loop.Sound)
    (hStep : loop.step input = some loop') : HangupTold loop.srv loop'.srv := by
  rcases step_cases h hStep with hSame | ⟨ready, ans, hReady, hDispatch⟩ | ⟨now, early, hFinish⟩
  · rw [hSame]
    exact (ShutBefore.refl loop.srv).hangupTold h.consistent
  · exact hangupTold_dispatchReady h.consistent hReady hDispatch
  · have hPath := (@ofFinish_finishBatch loop.srv now early).1
    rw [hFinish]
    refine (shutBefore_path h.consistent ?_ hPath).hangupTold (Actions.consistent hPath h.consistent)
    rintro a ha t rfl
    cases ha

theorem step_told {loop loop' : Loop} {input : Input} (h : loop.Sound)
    (hNoted : loop.srv.ClosingsNoted) (hStep : loop.step input = some loop')
    (hTold : Lawful (fun before e => attachedInTime before e = true) loop.srv.trace → loop.srv.Told)
    (hLaw : Lawful (fun before e => attachedInTime before e = true) loop'.srv.trace) :
    loop'.srv.Told := by
  have hPath := step_path h hStep
  obtain ⟨es, hTrace, _⟩ := client_path h.consistent hPath
  have hBefore := hLaw
  rw [hTrace, lawful_append] at hBefore
  exact told_path h.consistent hNoted (hTold hBefore.1) hPath hLaw (hangupTold_step h hStep)

/-- Where no client attaches to a session that has hung up, every client of such a session is to be
closed once it has drained. -/
theorem told_of_inTime {instanceId : Nat} {inputs : List Input} {loop : Loop}
    (h : (machine instanceId).run inputs = some loop)
    (hLaw : Lawful (fun before e => attachedInTime before e = true) loop.srv.trace) :
    ∀ s ∈ listed loop.srv, ∀ c, (loop.srv.sess s).ptyOpen = false →
      (loop.srv.sess s).client = some c → (loop.srv.conn c).wantClose = true := by
  have hAll : loop.Sound ∧ Reached instanceId loop.srv ∧
      (Lawful (fun before e => attachedInTime before e = true) loop.srv.trace → loop.srv.Told) := by
    refine (machine instanceId).run_invariant (P := fun loop => loop.Sound ∧
      Reached instanceId loop.srv ∧
      (Lawful (fun before e => attachedInTime before e = true) loop.srv.trace → loop.srv.Told))
      ⟨initial_sound instanceId, .refl _, ?_⟩ ?_ h
    · intro _ s c hClient
      cases hClient
    · rintro loop input loop' ⟨hSound, hReached, hTold⟩ hStep
      exact ⟨step_sound hSound hStep, hReached.trans (step_path hSound hStep),
        step_told hSound hReached.closingsNoted hStep hTold⟩
  intro s _ c hShut hClient
  exact hAll.2.2 hLaw s c hClient hShut

/-- The shell has exited before the client attaches. -/
def attachingLate : List Input :=
  accepting ++ batchOf (.conn 0 readable) (.conn (calmConn [] createRequest createRequest_bounded 100 ⟨0⟩)) ⟨0⟩ ++
    batchOf (.pty 0 hungUp) (.pty hangsUp) ⟨0⟩ ++ waitedFor ++
    batchOf (.conn 0 readable) (.conn (calmConn [] (requestFor 3) attachRequest_bounded 0 ⟨0⟩)) ⟨0⟩

def shutUnder (loop : Loop) : Bool :=
  (listed loop.srv).contains 0 && !(loop.srv.sess 0).ptyOpen && (loop.srv.sess 0).client == some 0

/-- The late client is never told. -/
theorem told_attachingLate :
    ∃ loop, (machine 7).run attachingLate = some loop ∧ 0 ∈ listed loop.srv ∧
      (loop.srv.sess 0).ptyOpen = false ∧ (loop.srv.sess 0).client = some 0 ∧
      (loop.srv.conn 0).wantClose = false := by
  have hRun : ((machine 7).run attachingLate).any fun loop =>
      shutUnder loop && !(loop.srv.conn 0).wantClose := by
    decide +kernel
  obtain ⟨loop, hLoop, hLate⟩ := (machine 7).exists_of_run_any hRun
  simp only [shutUnder, Bool.and_eq_true, List.contains_iff_mem, Bool.not_eq_true', beq_iff_eq] at hLate
  obtain ⟨⟨⟨hListed, hShut⟩, hClient⟩, hOpen⟩ := hLate
  exact ⟨loop, hLoop, hListed, hShut, hClient, hOpen⟩

/-- The shell exits under its client, whose socket takes nothing. -/
def exitingUnder : List Input :=
  attaching ++ batchOf (.pty 0 hungUp) (.pty { hangsUp with eofWrites := [] }) ⟨0⟩

theorem told_of_inTime_exitingUnder :
    ∃ loop, (machine 7).run exitingUnder = some loop ∧ 0 ∈ listed loop.srv ∧
      (loop.srv.sess 0).ptyOpen = false ∧ (loop.srv.sess 0).client = some 0 ∧
      (loop.srv.conn 0).wantClose = true := by
  have hRun : ((machine 7).run exitingUnder).any fun loop => shutUnder loop &&
      decide (Lawful (fun before e => attachedInTime before e = true) loop.srv.trace) := by
    decide +kernel
  obtain ⟨loop, hLoop, hUnder⟩ := (machine 7).exists_of_run_any hRun
  simp only [shutUnder, Bool.and_eq_true, List.contains_iff_mem, Bool.not_eq_true', beq_iff_eq,
    decide_eq_true_eq] at hUnder
  obtain ⟨⟨⟨hListed, hShut⟩, hClient⟩, hLaw⟩ := hUnder
  exact ⟨loop, hLoop, hListed, hShut, hClient, told_of_inTime hLoop hLaw 0 hListed 0 hShut hClient⟩

end Epimone.Daemon
