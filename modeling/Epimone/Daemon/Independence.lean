import Epimone.Daemon.Changes
import Epimone.Daemon.Runs
import Mathlib.Data.List.Find

/-! # What the handlers do not look at

A recast server differs in the cell of a session that waits to be freed, in the
inbound buffers and in what the trace begins with. Every handler of a frame
commutes with the recasting, and so does every event of a batch where the
buffers stay: it neither reads nor writes what is recast, but for the flag
that marks the session.
-/
set_option autoImplicit false

namespace Epimone.Daemon

open Transition

structure Recast where
  cell : Option (SessPtr × Session)
  inbuf : (ConnPtr → InBuf) → ConnPtr → InBuf
  past : List Effect

namespace Recast

variable (r : Recast) {srv : Server} {c : ConnPtr} {s : SessPtr}

def apply (srv : Server) : Server :=
  { srv with sess := written srv.sess r.cell, inbuf := r.inbuf srv.inbuf, trace := r.past ++ srv.trace }

def Clear (s : SessPtr) : Prop := ∀ k, r.cell ≠ some (s, k)

/-- The cell that differs is that of a session waiting to be freed, and marked so. -/
def Apart (srv : Server) : Prop := ∀ s k, r.cell = some (s, k) → s ∈ srv.dead ∧ k.defunct = true

variable {r}

/-- No session that is listed, or will be, is the one whose cell differs. -/
structure Unlisted (r : Recast) (srv : Server) : Prop where
  listed : ∀ s ∈ srv.sessions, r.Clear s
  next : r.Clear srv.nextSess

theorem Apart.unlisted (h : r.Apart srv) (hLinks : srv.links.Consistent) : r.Unlisted srv where
  listed s hs k hCell := hLinks.disjoint s hs (h s k hCell).1
  next k hCell := Nat.lt_irrefl _ (hLinks.dead_lt _ (h _ k hCell).1)

theorem Apart.path {allowed : Act → Prop} {srv' : Server} (h : r.Apart srv)
    (hPath : actions.Path allowed srv srv') (hKeep : ∀ a, allowed a → a.frees = false) :
    r.Apart srv' := by
  intro s k hCell
  obtain ⟨hDead, hMarked⟩ := h s k hCell
  refine ⟨?_, hMarked⟩
  refine Actions.Path.invariant (P := fun t => s ∈ t.dead) ?_ hPath hDead
  intro t a ht hGuard hAllowed
  have hSame : (a.perform t).dead = (a.relink t.links).dead := congrArg Links.dead (links_perform hGuard)
  change s ∈ (a.perform t).dead
  rw [hSame]
  cases a with
  | unlink u => exact List.mem_cons_of_mem _ ht
  | free u rest => cases hKeep _ hAllowed
  | _ => exact ht

theorem sess_apply (h : r.Clear s) : (r.apply srv).sess s = srv.sess s := by
  change written srv.sess r.cell s = _
  cases hCell : r.cell with
  | none => rfl
  | some cell =>
    refine Function.update_of_ne ?_ _ _
    rintro rfl
    exact h cell.2 hCell

theorem apply_emit (e : Effect) : (r.apply srv).emit e = r.apply (srv.emit e) := by
  simp [apply, Server.emit]

theorem apply_modConn (f : Connection → Connection) :
    (r.apply srv).modConn c f = r.apply (srv.modConn c f) := rfl

theorem apply_modSess (h : r.Clear s) (f : Session → Session) :
    (r.apply srv).modSess s f = r.apply (srv.modSess s f) := by
  unfold Server.modSess
  rw [sess_apply h]
  simp only [apply]
  congr 1
  cases hCell : r.cell with
  | none => rfl
  | some cell =>
    refine Function.update_comm ?_ _ _ _
    rintro rfl
    exact h cell.2 hCell

section Queues

variable (srv c)

theorem apply_enqueue (data : Bytes) (relay alloc : Bool) :
    enqueue (r.apply srv) c data relay alloc = r.apply (enqueue srv c data relay alloc) := by
  simp [enqueue_eq, apply]

theorem apply_connQueueFrame (b : EpiBuf) (alloc : Bool) :
    connQueueFrame (r.apply srv) c b alloc = r.apply (connQueueFrame srv c b alloc) := by
  simp [connQueueFrame_eq, apply]

theorem apply_refuse (ans : FrameAnswers) (code : EpiErrCode) (msg : String) :
    refuse (r.apply srv) c ans code msg = r.apply (refuse srv c ans code msg) :=
  apply_connQueueFrame srv c _ _

theorem apply_reply (ans : FrameAnswers) (b : EpiBuf) :
    reply (r.apply srv) c ans b = r.apply (reply srv c ans b) :=
  apply_connQueueFrame srv c _ _

theorem apply_acknowledge (ans : FrameAnswers) :
    acknowledge (r.apply srv) c ans = r.apply (acknowledge srv c ans) :=
  apply_connQueueFrame srv c _ _

end Queues

section Listed

variable (h : ∀ s ∈ srv.sessions, r.Clear s)
include h

theorem apply_listed : Daemon.listed (r.apply srv) = Daemon.listed srv :=
  List.filter_congr fun s hs => by rw [sess_apply (h s hs)]

theorem apply_findSession (id : Nat) (allowRemoved : Bool) :
    findSession (r.apply srv) id allowRemoved = findSession srv id allowRemoved :=
  List.find?_congr fun s hs => by rw [sess_apply (h s hs)]

theorem apply_groupMembers (gid : Nat) : groupMembers (r.apply srv) gid = groupMembers srv gid :=
  List.filter_congr fun s hs => by rw [sess_apply (h s hs)]

theorem apply_gcGroupIfEmpty (gid : Nat) :
    gcGroupIfEmpty (r.apply srv) gid = r.apply (gcGroupIfEmpty srv gid) := by
  have hCollect : collectable (r.apply srv) gid = collectable srv gid := by
    unfold collectable
    rw [apply_groupMembers h]
    rfl
  rw [gcGroupIfEmpty_eq, gcGroupIfEmpty_eq, survivors, survivors, goneEffects, goneEffects, hCollect]
  simp [apply]

end Listed

theorem apply_noteLeft (k : Session) : noteLeft (r.apply srv) s k = r.apply (noteLeft srv s k) := by
  simp [noteLeft_eq, apply]

theorem apply_unbindClient (h : r.Clear s) (d : ConnPtr) :
    unbindClient (r.apply srv) s d = r.apply (unbindClient srv s d) := by
  unfold unbindClient
  dsimp only
  rw [apply_modSess h, apply_modConn, apply_emit, apply_emit]

theorem apply_connUpdate : connUpdate (r.apply srv) c = r.apply (connUpdate srv c) := rfl

theorem apply_detachClient (h : r.Clear s) :
    detachClient (r.apply srv) s = r.apply (detachClient srv s) := by
  unfold detachClient
  rw [sess_apply h]
  split
  · rfl
  · rw [apply_unbindClient h, apply_connUpdate]

theorem apply_dropClient (h : r.Clear s) : dropClient (r.apply srv) s = r.apply (dropClient srv s) := by
  unfold dropClient
  rw [sess_apply h]
  split
  · rfl
  · exact apply_unbindClient h _

theorem apply_closePty (h : r.Clear s) : closePty (r.apply srv) s = r.apply (closePty srv s) := by
  unfold closePty
  rw [apply_emit, apply_modSess h]

theorem apply_unlinkSession (h : r.Clear s) :
    unlinkSession (r.apply srv) s = r.apply (unlinkSession srv s) := by
  unfold unlinkSession
  exact @apply_modSess r { srv with sessions := srv.sessions.erase s, dead := s :: srv.dead } s h _

theorem dropClient_sessions (srv : Server) (s : SessPtr) :
    (dropClient srv s).sessions = srv.sessions := by
  unfold dropClient
  split <;> rfl

theorem apply_removeSession (h : ∀ t ∈ srv.sessions, r.Clear t) (hs : r.Clear s) :
    removeSession (r.apply srv) s = r.apply (removeSession srv s) := by
  unfold removeSession
  dsimp only
  rw [sess_apply hs]
  split
  · rfl
  rw [apply_dropClient hs]
  have hShut : (if (srv.sess s).ptyOpen = true then closePty (r.apply (dropClient srv s)) s
      else r.apply (dropClient srv s)) =
      r.apply (if (srv.sess s).ptyOpen = true then closePty (dropClient srv s) s else dropClient srv s) := by
    split
    · exact apply_closePty hs
    · rfl
  rw [hShut, apply_unlinkSession hs, apply_noteLeft, apply_gcGroupIfEmpty]
  intro t ht
  refine h t ?_
  rw [noteLeft_eq] at ht
  have hErased : t ∈ srv.sessions.erase s := by
    rw [← dropClient_sessions srv s]
    split at ht <;> exact ht
  exact List.mem_of_mem_erase hErased

theorem apply_kill (pid : Nat) (sig : Signal) : (r.apply srv).kill pid sig = r.apply (srv.kill pid sig) :=
  apply_emit _

theorem apply_epiSessionHangup (h : r.Clear s) :
    epiSessionHangup (r.apply srv) s = r.apply (epiSessionHangup srv s) := by
  unfold epiSessionHangup
  dsimp only
  rw [sess_apply h]
  split
  · exact apply_kill _ _
  · rfl

theorem apply_markKilled (h : ∀ t ∈ srv.sessions, r.Clear t) (hs : r.Clear s) (clock : Timespec) :
    markKilled (r.apply srv) s clock = r.apply (markKilled srv s clock) := by
  unfold markKilled
  dsimp only
  rw [sess_apply hs, apply_modSess hs, apply_emit, apply_noteLeft, apply_gcGroupIfEmpty]
  intro t ht
  rw [noteLeft_eq] at ht
  exact h t ht

theorem apply_assignGroup (h : r.Clear s) (gid : Nat) :
    assignGroup (r.apply srv) s gid = r.apply (assignGroup srv s gid) := by
  unfold assignGroup
  dsimp only
  rw [sess_apply h, apply_modSess h]
  split
  · rfl
  split
  · exact apply_noteLeft _
  · rw [apply_emit, apply_noteLeft]

theorem apply_forked (pid : Nat) (cwd : Option Bytes) (argv : List Bytes) (env : Option (List Bytes))
    (exec : Option Bytes) :
    forked (r.apply srv) pid cwd argv env exec = r.apply (forked srv pid cwd argv env exec) := by
  simp [forked, apply, Server.emit]

theorem apply_epiSessionSpawn (h : r.Clear srv.nextSess) (cwd : Option Bytes)
    (argv env : Option (List Bytes)) (execPath : Option Bytes) (ans : SpawnAnswers) :
    epiSessionSpawn (r.apply srv) cwd argv env execPath ans =
      (r.apply (epiSessionSpawn srv cwd argv env execPath ans).1,
        (epiSessionSpawn srv cwd argv env execPath ans).2) := by
  unfold epiSessionSpawn
  split
  · rfl
  cases OutRing.init ans.ringAlloc with
  | none => rfl
  | some out =>
    dsimp only
    rw [show (r.apply srv).forkpty ans.forkpty = srv.forkpty ans.forkpty from rfl]
    cases srv.forkpty ans.forkpty with
    | none => rfl
    | some pid =>
      have hForked := @apply_forked r srv pid ((nonEmpty cwd).or (defaultCwd ans.home ans.pwDir))
        ((argv.map (List.map cString)).getD [(nonEmpty ans.shell).getD (ascii "/bin/bash")])
        (env.map (List.map cString))
        ((nonEmpty execPath).or
          ((argv.map (List.map cString)).getD [(nonEmpty ans.shell).getD (ascii "/bin/bash")]).head?)
      unfold forked at hForked
      dsimp only
      rw [hForked, show (r.apply srv).nextSess = srv.nextSess from rfl]
      split
      · rw [apply_kill]
      · rw [apply_modSess h]

theorem apply_linkSession (h : r.Clear s) : linkSession (r.apply srv) s = r.apply (linkSession srv s) := by
  unfold linkSession
  dsimp only
  rw [← apply_emit]
  congr 1
  exact @apply_modSess r { srv with nextId := srv.nextId + 1, sessions := s :: srv.sessions } s h _

theorem apply_createSession (h : r.Clear srv.nextSess) (cwd : Option Bytes)
    (argv env : Option (List Bytes)) (execPath : Option Bytes) (ans : SpawnAnswers) :
    createSession (r.apply srv) cwd argv env execPath ans =
      (r.apply (createSession srv cwd argv env execPath ans).1,
        (createSession srv cwd argv env execPath ans).2) := by
  have hNew : ∀ srv' s, epiSessionSpawn srv cwd argv env execPath ans = (srv', some s) → s = srv.nextSess := by
    intro srv' s hSpawn
    rcases createSession_spec srv cwd argv env execPath ans with
      ⟨_, hNone, _⟩ | ⟨_, _, _, _, _, _, _, hSome⟩
    · rw [createSession, hSpawn] at hNone
      cases hNone
    · rw [createSession, hSpawn] at hSome
      exact Option.some.inj (Prod.mk.inj hSome).2
  unfold createSession
  rw [apply_epiSessionSpawn h]
  generalize epiSessionSpawn srv cwd argv env execPath ans = spawned at hNew ⊢
  obtain ⟨srv', made⟩ := spawned
  cases made with
  | none => rfl
  | some s =>
    obtain rfl := hNew srv' s rfl
    dsimp only
    rw [apply_linkSession h]

section Handlers

variable {ans : FrameAnswers}

theorem apply_withSession (h : ∀ s ∈ srv.sessions, r.Clear s) (rd : EpiRd) (id : Nat) (malformed : String)
    {handle handle' : SessPtr → Server} (hHandle : ∀ s ∈ srv.sessions, handle' s = r.apply (handle s)) :
    withSession (r.apply srv) c ans rd id malformed handle' =
      r.apply (withSession srv c ans rd id malformed handle) := by
  unfold withSession
  rw [apply_findSession h]
  split
  · exact apply_refuse _ _ _ _ _
  cases hFind : findSession srv id false with
  | none => exact apply_refuse _ _ _ _ _
  | some s => exact hHandle s (findSession_spec hFind).1

theorem apply_handleCreate (h : r.Unlisted srv) (rd : EpiRd) :
    handleCreate (r.apply srv) c ans rd = r.apply (handleCreate srv c ans rd) := by
  unfold handleCreate
  split
  split
  split
  split
  split
  · exact apply_refuse _ _ _ _ _
  rename_i cwd _ _ _ argv _ _ _ env _ _ _ execPath _ _ _
  rw [apply_createSession h.next]
  rcases createSession_spec srv cwd argv env execPath ans.spawn with
    ⟨srv', hNone, _⟩ | ⟨pid, cwd', argv', env', exec', k, _, hSome⟩
  · rw [hNone]
    exact apply_refuse _ _ _ _ _
  · rw [hSome]
    have hListed : ∀ t ∈ ((Act.create pid cwd' argv' env' exec' k).perform srv).sessions, r.Clear t :=
      List.forall_mem_cons.mpr ⟨h.next, h.listed⟩
    dsimp only
    split
    · rw [apply_removeSession hListed h.next]
      exact apply_refuse _ _ _ _ _
    · rw [sess_apply h.next, watchPty, apply_modSess h.next]
      exact apply_reply _ _ _ _

theorem apply_handleList (h : ∀ s ∈ srv.sessions, r.Clear s) :
    handleList (r.apply srv) c ans = r.apply (handleList srv c ans) := by
  unfold handleList
  dsimp only
  rw [countShown_eq, countShown_eq, putShown_eq, putShown_eq, apply_listed h]
  have hInfos : ∀ b : EpiBuf,
      (Daemon.listed srv).foldl (fun b s => putSessionInfo ans.bufAlloc b ((r.apply srv).sess s)) b =
        (Daemon.listed srv).foldl (fun b s => putSessionInfo ans.bufAlloc b (srv.sess s)) b := by
    intro b
    refine List.foldl_ext _ _ _ fun b s hs => ?_
    rw [sess_apply (h s (List.mem_of_mem_filter hs))]
  rw [hInfos]
  exact apply_reply _ _ _ _

theorem apply_replayRing (h : r.Clear s) :
    replayRing (r.apply srv) c ans s = r.apply (replayRing srv c ans s) := by
  unfold replayRing
  dsimp only
  rw [sess_apply h]
  split
  · exact apply_enqueue _ _ _ _ _
  split
  · rfl
  · exact apply_emit _

theorem apply_bindClient (h : r.Clear s) :
    bindClient (r.apply srv) c ans s = r.apply (bindClient srv c ans s) := by
  unfold bindClient
  dsimp only
  rw [apply_modConn, apply_modSess h, sess_apply h, apply_reply, sess_apply h, ← apply_replayRing h,
    ← apply_emit]
  rfl

theorem apply_handleAttach (h : ∀ s ∈ srv.sessions, r.Clear s) (rd : EpiRd) :
    handleAttach (r.apply srv) c ans rd = r.apply (handleAttach srv c ans rd) := by
  unfold handleAttach
  split
  refine apply_withSession h _ _ _ fun s hs => ?_
  dsimp only
  rw [sess_apply (h s hs)]
  split
  · rw [apply_detachClient (h s hs), apply_bindClient (h s hs)]
  · exact apply_bindClient (h s hs)

theorem detachClient_listed (h : ∀ t ∈ srv.sessions, r.Clear t) (s : SessPtr) :
    ∀ t ∈ (detachClient srv s).sessions, r.Clear t := by
  rw [detachClient_sessions]
  exact h

theorem apply_handleKill (h : ∀ s ∈ srv.sessions, r.Clear s) (rd : EpiRd) :
    handleKill (r.apply srv) c ans rd = r.apply (handleKill srv c ans rd) := by
  unfold handleKill
  split
  refine apply_withSession h _ _ _ fun s hs => ?_
  have hs' := h s hs
  dsimp only
  rw [apply_detachClient hs', sess_apply hs']
  split
  · rw [apply_removeSession (detachClient_listed h s) hs']
    exact apply_acknowledge _ _ _
  · rw [apply_epiSessionHangup hs', apply_markKilled _ hs']
    · exact apply_acknowledge _ _ _
    · intro t ht
      refine detachClient_listed h s t ?_
      unfold epiSessionHangup at ht
      dsimp only at ht
      split at ht <;> exact ht

theorem apply_handleResize (h : ∀ s ∈ srv.sessions, r.Clear s) (rd : EpiRd) :
    handleResize (r.apply srv) c ans rd = r.apply (handleResize srv c ans rd) := by
  unfold handleResize
  split
  split
  split
  refine apply_withSession h _ _ _ fun s hs => ?_
  unfold epiSessionResize
  rw [sess_apply (h s hs)]
  split
  · exact apply_acknowledge _ _ _
  · rw [apply_emit]
    exact apply_acknowledge _ _ _

theorem apply_handleDetach (h : ∀ s ∈ srv.sessions, r.Clear s) (rd : EpiRd) :
    handleDetach (r.apply srv) c ans rd = r.apply (handleDetach srv c ans rd) := by
  unfold handleDetach
  split
  refine apply_withSession h _ _ _ fun s hs => ?_
  rw [apply_detachClient (h s hs)]
  exact apply_acknowledge _ _ _

theorem apply_handlePeek (h : ∀ s ∈ srv.sessions, r.Clear s) (rd : EpiRd) :
    handlePeek (r.apply srv) c ans rd = r.apply (handlePeek srv c ans rd) := by
  unfold handlePeek
  split
  split
  refine apply_withSession h _ _ _ fun s hs => ?_
  dsimp only
  rw [sess_apply (h s hs)]
  exact apply_reply _ _ _ _

theorem apply_handleGroupNew (rd : EpiRd) :
    handleGroupNew (r.apply srv) c ans rd = r.apply (handleGroupNew srv c ans rd) := by
  unfold handleGroupNew
  split
  dsimp only
  rw [show countGroups (r.apply srv) = countGroups srv from rfl]
  split
  · exact apply_refuse _ _ _ _ _
  split
  · exact apply_refuse _ _ _ _ _
  split
  · exact apply_refuse _ _ _ _ _
  split
  · exact apply_refuse _ _ _ _ _
  · rename_i g _
    have hLink : linkGroup (r.apply srv) g = r.apply (linkGroup srv g) := by
      simp [linkGroup, apply, Server.emit]
    rw [hLink]
    exact apply_reply _ _ _ _

theorem apply_handleGroupSet (rd : EpiRd) :
    handleGroupSet (r.apply srv) c ans rd = r.apply (handleGroupSet srv c ans rd) := by
  unfold handleGroupSet
  split
  split
  dsimp only
  rw [show findGroup (r.apply srv) = findGroup srv from rfl]
  split
  · exact apply_refuse _ _ _ _ _
  split
  · exact apply_refuse _ _ _ _ _
  split
  · exact apply_refuse _ _ _ _ _
  split
  · exact apply_refuse _ _ _ _ _
  · exact apply_acknowledge (setGroupBlob srv _ _) _ _

theorem assignGroup_sessions (srv : Server) (s : SessPtr) (gid : Nat) :
    (assignGroup srv s gid).sessions = srv.sessions := by
  rw [assignGroup_eq]

theorem apply_handleGroupAdd (h : ∀ s ∈ srv.sessions, r.Clear s) (rd : EpiRd) :
    handleGroupAdd (r.apply srv) c ans rd = r.apply (handleGroupAdd srv c ans rd) := by
  unfold handleGroupAdd
  split
  split
  rw [show findGroup (r.apply srv) = findGroup srv from rfl, apply_findSession h]
  split
  · exact apply_refuse _ _ _ _ _
  split
  · exact apply_refuse _ _ _ _ _
  split
  · exact apply_refuse _ _ _ _ _
  · rename_i s hFind
    have hs := h s (findSession_spec hFind).1
    dsimp only
    rw [sess_apply hs, apply_assignGroup hs]
    split
    · rw [apply_gcGroupIfEmpty]
      · exact apply_acknowledge _ _ _
      · rw [assignGroup_sessions]
        exact h
    · exact apply_acknowledge _ _ _

theorem apply_handleGroupRemove (h : ∀ s ∈ srv.sessions, r.Clear s) (rd : EpiRd) :
    handleGroupRemove (r.apply srv) c ans rd = r.apply (handleGroupRemove srv c ans rd) := by
  unfold handleGroupRemove
  split
  refine apply_withSession h _ _ _ fun s hs => ?_
  rw [sess_apply (h s hs), apply_assignGroup (h s hs), apply_gcGroupIfEmpty]
  · exact apply_acknowledge _ _ _
  · rw [assignGroup_sessions]
    exact h

theorem apply_handleGroupList (h : ∀ s ∈ srv.sessions, r.Clear s) :
    handleGroupList (r.apply srv) c ans = r.apply (handleGroupList srv c ans) := by
  unfold handleGroupList
  dsimp only
  have hPut : putGroup (r.apply srv) ans = putGroup srv ans := by
    funext b g
    unfold putGroup
    dsimp only
    rw [countGroupMembers_eq, countGroupMembers_eq, putMembers_eq, putMembers_eq, apply_groupMembers h]
    refine List.foldl_ext _ _ _ fun b s hs => ?_
    rw [sess_apply (h s (List.mem_of_mem_filter hs))]
  rw [hPut]
  exact apply_reply _ _ _ _

/-- No request looks at what is recast. -/
theorem apply_dispatchFrame (h : r.Unlisted srv) (type : Nat) (body : Bytes) :
    dispatchFrame (r.apply srv) c ans type body = r.apply (dispatchFrame srv c ans type body) := by
  unfold dispatchFrame
  dsimp only
  split
  · exact apply_handleCreate h _
  · exact apply_handleList h.listed
  · exact apply_handleAttach h.listed _
  · exact apply_handleKill h.listed _
  · exact apply_handleResize h.listed _
  · exact apply_handleDetach h.listed _
  · exact apply_handlePeek h.listed _
  · exact apply_handleGroupNew _
  · exact apply_handleGroupSet _
  · exact apply_handleGroupAdd h.listed _
  · exact apply_handleGroupRemove h.listed _
  · exact apply_handleGroupList h.listed
  · exact apply_refuse _ _ _ _ _

end Handlers

end Recast

end Epimone.Daemon
