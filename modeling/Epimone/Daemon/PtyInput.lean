import Epimone.Daemon.Hangups
import Epimone.Daemon.Reclaim

/-! # Input on its way to a PTY

What a client types waits in the queue of its session until the PTY takes it.
Every step of the daemon balances: what waited and what was typed is what the
PTY took, what was dropped, and what waits now. The registration of the PTY is
recomputed wherever the queue changes, so it asks for EPOLLOUT as long as
something waits.
-/
set_option autoImplicit false

namespace Epimone.Daemon

open Transition History

/-- What the effect adds to the queue of the session. -/
def Effect.typed (s : SessPtr) : Effect → Bytes
  | .input t _ data => if t = s then data else []
  | _ => []

def Effect.taken (s : SessPtr) : Effect → Bytes
  | .ptyWrote t data => if t = s then data else []
  | _ => []

def typedTo (s : SessPtr) (history : List Effect) : Bytes := history.flatMap (Effect.typed s)

def takenBy (s : SessPtr) (history : List Effect) : Bytes := history.flatMap (Effect.taken s)

@[simp] theorem typedTo_append (s : SessPtr) (es es' : List Effect) :
    typedTo s (es ++ es') = typedTo s es ++ typedTo s es' := List.flatMap_append

@[simp] theorem takenBy_append (s : SessPtr) (es es' : List Effect) :
    takenBy s (es ++ es') = takenBy s es ++ takenBy s es' := List.flatMap_append

/-- A write that fails for good. -/
def WriteOutcome.hard : WriteOutcome → Bool
  | .wrote 0 => true
  | .failed => true
  | _ => false

/-- A write that ends the loop over a queue that is not empty. -/
def WriteOutcome.stops (outcome : WriteOutcome) : Bool := outcome.hard || outcome == .again

/-- The calls of write go on until one fails for good. -/
def endsHard (outcomes : List WriteOutcome) : Bool :=
  (outcomes.find? WriteOutcome.stops).any WriteOutcome.hard

/-- Without a hard error the queue is cut in two, and nothing is dropped. -/
theorem flushPin_spec (pin : Bytes) (outcomes : List WriteOutcome) :
    ∃ lost, pin = (flushPin pin outcomes).1 ++ lost ++ (flushPin pin outcomes).2 ∧
      (lost ≠ [] → endsHard outcomes = true) := by
  induction outcomes generalizing pin with
  | nil => exact ⟨[], rfl, fun hLost => absurd rfl hLost⟩
  | cons outcome outcomes ih =>
    unfold flushPin
    split
    · rename_i hEmpty
      exact ⟨[], hEmpty, fun hLost => absurd rfl hLost⟩
    cases outcome with
    | wrote n =>
      cases n with
      | zero => exact ⟨pin, (List.append_nil _).symm, fun _ => rfl⟩
      | succ n =>
        obtain ⟨lost, hSplit, hHard⟩ := ih (pin.drop (n + 1))
        refine ⟨lost, ?_, fun hLost => hHard hLost⟩
        dsimp only
        rw [List.append_assoc, List.append_assoc, ← List.append_assoc _ lost, ← hSplit,
          List.take_append_drop]
    | again => exact ⟨[], rfl, fun hLost => absurd rfl hLost⟩
    | intr =>
      obtain ⟨lost, hSplit, hHard⟩ := ih pin
      exact ⟨lost, hSplit, fun hLost => hHard hLost⟩
    | failed => exact ⟨pin, (List.append_nil _).symm, fun _ => rfl⟩

/-- A stretch of the run: what was typed, what the PTY took and what was dropped of the input of a session. -/
structure Balanced (s : SessPtr) (srv srv' : Server) (typed taken lost : Bytes) : Prop where
  effects : ∃ es, srv'.trace = srv.trace ++ es ∧ typedTo s es = typed ∧ takenBy s es = taken
  balance : (srv.sess s).pin ++ typed = taken ++ lost ++ (srv'.sess s).pin

section Balance

variable {srv mid srv' : Server} {s : SessPtr} {typed taken lost : Bytes}

/-- Nothing happens to the input of the session. -/
abbrev Undisturbed (s : SessPtr) (srv srv' : Server) : Prop := Balanced s srv srv' [] [] []

theorem Balanced.refl (srv : Server) : Undisturbed s srv srv :=
  ⟨⟨[], (List.append_nil _).symm, rfl, rfl⟩, by simp⟩

theorem Balanced.trans {typed' taken' lost' : Bytes} (h : Balanced s srv mid typed [] [])
    (h' : Balanced s mid srv' typed' taken' lost') :
    Balanced s srv srv' (typed ++ typed') taken' lost' := by
  obtain ⟨⟨es, hTrace, hTyped, hTaken⟩, hPin⟩ := h
  obtain ⟨⟨es', hTrace', hTyped', hTaken'⟩, hPin'⟩ := h'
  refine ⟨⟨es ++ es', by rw [hTrace', hTrace, List.append_assoc], ?_, ?_⟩, ?_⟩
  · rw [typedTo_append, hTyped, hTyped']
  · rw [takenBy_append, hTaken, hTaken', List.nil_append]
  · rw [← hPin', ← List.append_assoc]
    simpa using congrArg (· ++ typed') hPin

theorem Balanced.then (h : Balanced s srv mid typed taken lost) (h' : Undisturbed s mid srv') :
    Balanced s srv srv' typed taken lost := by
  obtain ⟨⟨es, hTrace, hTyped, hTaken⟩, hPin⟩ := h
  obtain ⟨⟨es', hTrace', hTyped', hTaken'⟩, hPin'⟩ := h'
  refine ⟨⟨es ++ es', by rw [hTrace', hTrace, List.append_assoc], ?_, ?_⟩, ?_⟩
  · rw [typedTo_append, hTyped', List.append_nil, hTyped]
  · rw [takenBy_append, hTaken', List.append_nil, hTaken]
  · rw [hPin]
    simpa using congrArg (taken ++ lost ++ ·) hPin'

/-- The effect is neither input of a session nor output to a PTY. -/
def Effect.dry : Effect → Bool
  | .input .. | .ptyWrote .. => false
  | _ => true

theorem dry_typed {es : List Effect} (h : ∀ e ∈ es, e.dry = true) (s : SessPtr) :
    typedTo s es = [] ∧ takenBy s es = [] := by
  constructor
  · refine List.flatMap_eq_nil_iff.mpr fun e he => ?_
    have hDry := h e he
    cases e <;> first | rfl | cases hDry
  · refine List.flatMap_eq_nil_iff.mpr fun e he => ?_
    have hDry := h e he
    cases e <;> first | rfl | cases hDry

theorem Undisturbed.of_dry {es : List Effect} (hTrace : srv'.trace = srv.trace ++ es)
    (hDry : ∀ e ∈ es, e.dry = true) (hPin : (srv'.sess s).pin = (srv.sess s).pin) :
    Undisturbed s srv srv' :=
  ⟨⟨es, hTrace, dry_typed hDry s⟩, by rw [hPin]; simp⟩

end Balance

/-- The queue and the registration of a session are as they were, or its PTY has been closed. -/
structure Session.Tended (k k' : Session) : Prop where
  pin : k'.pin = k.pin
  watched : k'.ptyOpen = true → k.ptyOpen = true ∧ k'.ptyEvents = k.ptyEvents

theorem Session.Tended.refl (k : Session) : k.Tended k := ⟨rfl, fun hOpen => ⟨hOpen, rfl⟩⟩

theorem Session.Tended.trans {k k' k'' : Session} (h : k.Tended k') (h' : k'.Tended k'') : k.Tended k'' := by
  refine ⟨h'.pin.trans h.pin, fun hOpen => ?_⟩
  obtain ⟨hMid, hEvents⟩ := h'.watched hOpen
  exact ⟨(h.watched hMid).1, hEvents.trans (h.watched hMid).2⟩

/-- No session's queue or registration is touched. -/
def Tended (srv srv' : Server) : Prop := ∀ s, (srv.sess s).Tended (srv'.sess s)

theorem Tended.refl (srv : Server) : Tended srv srv := fun _ => .refl _

theorem Tended.trans {srv mid srv' : Server} (h : Tended srv mid) (h' : Tended mid srv') :
    Tended srv srv' :=
  fun s => (h s).trans (h' s)

theorem Tended.of_sess {srv srv' : Server} (h : srv'.sess = srv.sess) : Tended srv srv' := by
  intro s
  rw [h]
  exact .refl _

theorem Tended.modSess {srv : Server} {s : SessPtr} {f : Session → Session}
    (h : (srv.sess s).Tended (f (srv.sess s))) : Tended srv (srv.modSess s f) := by
  intro t
  rcases eq_or_ne t s with rfl | hNe
  · simpa [Server.modSess] using h
  · simp [Server.modSess, hNe, Session.Tended.refl]

/-- The actions that touch a queue or a registration. -/
def Act.wires : Act → Bool
  | .create .. | .watchPty _ | .setPin .. | .writePin .. | .updatePty _ | .free .. | .input .. => true
  | _ => false

section Actions

variable {srv srv' : Server} {a : Act}

theorem tended_perform (h : a.wires = false) : Tended srv (a.perform srv) := by
  intro s
  rcases em (∃ k, a.sessionAfter srv = some (s, k)) with ⟨k, hAfter⟩ | hSame
  · rw [sess_perform_of_eq hAfter]
    cases a with
    | create | watchPty | setPin | writePin | updatePty | free => cases h
    | closePty t =>
      cases hAfter
      exact ⟨rfl, fun hOpen => nomatch hOpen⟩
    | reap pid status child =>
      obtain ⟨t, _, hCell⟩ := Option.map_eq_some_iff.mp hAfter
      cases hCell
      exact ⟨rfl, fun hOpen => ⟨hOpen, rfl⟩⟩
    | close c =>
      obtain ⟨t, _, hCell⟩ := Option.bind_eq_some_iff.mp hAfter
      split at hCell <;> cases hCell
      exact ⟨rfl, fun hOpen => ⟨hOpen, rfl⟩⟩
    | attach | unbind | unlink | kill | move | read | relay | escalate =>
      cases hAfter
      exact ⟨rfl, fun hOpen => ⟨hOpen, rfl⟩⟩
    | _ => cases hAfter
  · rw [sess_perform_of_ne fun k hAfter => hSame ⟨k, hAfter⟩]
    exact .refl _

theorem dry_effects (h : a.wires = false) : ∀ e ∈ a.effects srv, e.dry = true := by
  intro e he
  cases e with
  | input t c data =>
    cases a <;> simp [Act.effects, attachEffects] at he
    cases h
  | ptyWrote t data =>
    cases a <;> simp [Act.effects, attachEffects] at he
    cases h
  | _ => rfl

theorem tended_path {allowed : Act → Prop} (hSpares : ∀ a, allowed a → a.wires = false)
    (h : actions.Path allowed srv srv') : Tended srv srv' := by
  refine Actions.Path.related Tended.refl (fun _ _ _ => Tended.trans) ?_ h
  intro t a _ hAllowed
  exact tended_perform (hSpares a hAllowed)

end Actions

section Handlers

variable {srv : Server} {c : ConnPtr} {s : SessPtr} {ans : FrameAnswers}

theorem tended_connQueueFrame (b : EpiBuf) (alloc : Bool) : Tended srv (connQueueFrame srv c b alloc) := by
  rw [connQueueFrame_eq]
  exact .of_sess rfl

theorem tended_detachClient : Tended srv (detachClient srv s) := by
  unfold detachClient
  split
  · exact .refl srv
  · rename_i d _
    have hUnbind : Tended srv (unbindClient srv s d) := tended_perform (a := .unbind s d) rfl
    exact hUnbind.trans (.of_sess rfl)

theorem tended_dropClient : Tended srv (dropClient srv s) := by
  unfold dropClient
  split
  · exact .refl srv
  · rename_i d _
    exact tended_perform (a := .unbind s d) rfl

theorem tended_shutPty (k : Session) : Tended srv (if k.ptyOpen = true then closePty srv s else srv) := by
  split
  · exact tended_perform (a := .closePty s) rfl
  · exact .refl srv

theorem tended_unlinkSession : Tended srv (unlinkSession srv s) := by
  have hListed : Tended srv { srv with sessions := srv.sessions.erase s, dead := s :: srv.dead } :=
    .of_sess rfl
  exact hListed.trans (Tended.modSess ⟨rfl, fun hOpen => ⟨hOpen, rfl⟩⟩)

theorem tended_gcGroupIfEmpty (k : Session) : Tended srv (gcGroupIfEmpty (noteLeft srv s k) k.groupId) := by
  rw [gcGroupIfEmpty_eq, noteLeft_eq]
  exact .of_sess rfl

theorem tended_removeSession : Tended srv (removeSession srv s) := by
  unfold removeSession
  dsimp only
  split
  · exact .refl srv
  · exact (tended_dropClient.trans (tended_shutPty _)).trans
      (tended_unlinkSession.trans (tended_gcGroupIfEmpty _))

theorem removeSession_shut (hLive : (srv.sess s).defunct = false) :
    ((removeSession srv s).sess s).ptyOpen = false := by
  unfold removeSession
  dsimp only
  rw [hLive, if_neg (by decide)]
  have hDropped := @tended_dropClient srv s s
  have hTail : ∀ shut : Server, (shut.sess s).Tended ((gcGroupIfEmpty
      (noteLeft (unlinkSession shut s) s (srv.sess s)) (srv.sess s).groupId).sess s) := fun shut =>
    (tended_unlinkSession.trans (tended_gcGroupIfEmpty _)) s
  rw [← Bool.not_eq_true]
  intro hOpen
  have hBefore := ((hTail _).watched hOpen).1
  split at hBefore
  · simp [closePty, Server.modSess] at hBefore
  · rename_i hShut
    exact hShut (hDropped.watched hBefore).1

theorem tended_epiSessionHangup : Tended srv (epiSessionHangup srv s) := by
  unfold epiSessionHangup
  dsimp only
  split
  · exact .of_sess rfl
  · exact .refl srv

theorem tended_withSession (r : EpiRd) (id : Nat) (malformed : String) {handle : SessPtr → Server}
    (hHandle : ∀ s, Tended srv (handle s)) : Tended srv (withSession srv c ans r id malformed handle) := by
  unfold withSession
  split
  · exact tended_connQueueFrame _ _
  split
  · exact tended_connQueueFrame _ _
  · exact hHandle _

theorem tended_handleAttach (r : EpiRd) : Tended srv (handleAttach srv c ans r) := by
  unfold handleAttach
  split
  refine tended_withSession _ _ _ fun s => ?_
  dsimp only
  split
  · exact tended_detachClient.trans (tended_perform (a := .attach c s ans) rfl)
  · exact tended_perform (a := .attach c s ans) rfl

theorem tended_handleKill (r : EpiRd) : Tended srv (handleKill srv c ans r) := by
  unfold handleKill
  split
  refine tended_withSession _ _ _ fun s => ?_
  dsimp only
  split
  · exact (tended_detachClient.trans tended_removeSession).trans (tended_connQueueFrame _ _)
  · exact ((tended_detachClient.trans tended_epiSessionHangup).trans
      (tended_perform (a := .kill s ans.clock) rfl)).trans (tended_connQueueFrame _ _)

theorem tended_handleResize (r : EpiRd) : Tended srv (handleResize srv c ans r) := by
  unfold handleResize
  split
  split
  split
  refine tended_withSession _ _ _ fun s => ?_
  unfold epiSessionResize
  split
  · exact tended_connQueueFrame _ _
  · have hEmit : ∀ e, Tended srv (srv.emit e) := fun _ => .of_sess rfl
    exact (hEmit _).trans (tended_connQueueFrame _ _)

theorem tended_handleDetach (r : EpiRd) : Tended srv (handleDetach srv c ans r) := by
  unfold handleDetach
  split
  exact tended_withSession _ _ _ fun s => tended_detachClient.trans (tended_connQueueFrame _ _)

theorem tended_handlePeek (r : EpiRd) : Tended srv (handlePeek srv c ans r) := by
  unfold handlePeek
  split
  split
  exact tended_withSession _ _ _ fun s => tended_connQueueFrame _ _

theorem tended_handleGroupNew (r : EpiRd) : Tended srv (handleGroupNew srv c ans r) := by
  unfold handleGroupNew
  split
  dsimp only
  split
  · exact tended_connQueueFrame _ _
  split
  · exact tended_connQueueFrame _ _
  split
  · exact tended_connQueueFrame _ _
  split
  · exact tended_connQueueFrame _ _
  · rename_i g _
    have hLinked : Tended srv (linkGroup srv g) := .of_sess rfl
    exact hLinked.trans (tended_connQueueFrame _ _)

theorem tended_handleGroupSet (r : EpiRd) : Tended srv (handleGroupSet srv c ans r) := by
  unfold handleGroupSet
  split
  split
  dsimp only
  split
  · exact tended_connQueueFrame _ _
  split
  · exact tended_connQueueFrame _ _
  split
  · exact tended_connQueueFrame _ _
  split
  · exact tended_connQueueFrame _ _
  · have hBlob : ∀ gid blob, Tended srv (setGroupBlob srv gid blob) := fun _ _ => .of_sess rfl
    exact (hBlob _ _).trans (tended_connQueueFrame _ _)

theorem tended_handleGroupAdd (r : EpiRd) : Tended srv (handleGroupAdd srv c ans r) := by
  unfold handleGroupAdd
  split
  split
  split
  · exact tended_connQueueFrame _ _
  split
  · exact tended_connQueueFrame _ _
  split
  · exact tended_connQueueFrame _ _
  · have hMove : ∀ s gid, Tended srv (moveSession srv s gid) :=
      fun s gid => tended_perform (a := .move s gid) rfl
    exact (hMove _ _).trans (tended_connQueueFrame _ _)

theorem tended_handleGroupRemove (r : EpiRd) : Tended srv (handleGroupRemove srv c ans r) := by
  unfold handleGroupRemove
  split
  refine tended_withSession _ _ _ fun s => ?_
  rw [gcGroupIfEmpty_assign]
  exact (tended_perform (a := .move s 0) rfl).trans (tended_connQueueFrame _ _)

/-- A queue that is empty, and watched accordingly if the PTY is open. -/
structure Session.Idle (k : Session) : Prop where
  pin : k.pin = []
  watched : k.ptyOpen = true → k.ptyEvents = some ⟨true, false, false, false, false⟩

theorem Session.Idle.tended {k k' : Session} (h : k.Idle) (hTended : k.Tended k') : k'.Idle := by
  refine ⟨hTended.pin.trans h.pin, fun hOpen => ?_⟩
  obtain ⟨hBefore, hEvents⟩ := hTended.watched hOpen
  exact hEvents.trans (h.watched hBefore)

theorem epiSessionSpawn_sess (cwd : Option Bytes) (argv env : Option (List Bytes)) (execPath : Option Bytes)
    (ans : SpawnAnswers) :
    (epiSessionSpawn srv cwd argv env execPath ans).2 = none ∧
        (epiSessionSpawn srv cwd argv env execPath ans).1.sess = srv.sess ∨
      ∃ k, (epiSessionSpawn srv cwd argv env execPath ans).2 = some srv.nextSess ∧
        k.pin = [] ∧ k.defunct = false ∧
        (epiSessionSpawn srv cwd argv env execPath ans).1.sess = Function.update srv.sess srv.nextSess k := by
  unfold epiSessionSpawn
  split
  · exact Or.inl ⟨rfl, rfl⟩
  split
  · exact Or.inl ⟨rfl, rfl⟩
  dsimp only
  split
  · exact Or.inl ⟨rfl, rfl⟩
  split
  · exact Or.inl ⟨rfl, rfl⟩
  · exact Or.inr ⟨_, rfl, rfl, rfl, rfl⟩

/-- What a CREATE leaves behind: a session that waits for nothing, if it leaves one at all. -/
theorem handleCreate_spec (hPin : (srv.sess srv.nextSess).pin = []) (hShut : (srv.sess srv.nextSess).ptyOpen = false)
    (r : EpiRd) : (∀ s, s ≠ srv.nextSess → (srv.sess s).Tended ((handleCreate srv c ans r).sess s)) ∧
      ((handleCreate srv c ans r).sess srv.nextSess).Idle := by
  have hBlank : (srv.sess srv.nextSess).Idle := ⟨hPin, fun hOpen => by rw [hShut] at hOpen; cases hOpen⟩
  have hSame : ∀ t, Tended srv t → (∀ s, s ≠ srv.nextSess → (srv.sess s).Tended (t.sess s)) ∧
      (t.sess srv.nextSess).Idle := fun t ht => ⟨fun s _ => ht s, hBlank.tended (ht _)⟩
  unfold handleCreate
  split
  split
  split
  split
  split
  · exact hSame _ (tended_connQueueFrame _ _)
  rename_i cwd _ _ _ argv _ _ _ env _ _ _ execPath _ _ _
  unfold createSession
  rcases @epiSessionSpawn_sess srv cwd argv env execPath ans.spawn with
    ⟨hNone, hSess⟩ | ⟨k, hSome, hEmpty, hLive, hSess⟩
  · generalize epiSessionSpawn srv cwd argv env execPath ans.spawn = spawned at hNone hSess
    obtain ⟨srv', made⟩ := spawned
    obtain rfl := hNone
    exact hSame _ ((Tended.of_sess hSess).trans (tended_connQueueFrame _ _))
  · generalize epiSessionSpawn srv cwd argv env execPath ans.spawn = spawned at hSome hSess
    obtain ⟨srv', made⟩ := spawned
    obtain rfl := hSome
    dsimp only at hSess ⊢
    have hLinked : ∀ s, s ≠ srv.nextSess → (linkSession srv' srv.nextSess).sess s = srv.sess s := by
      intro s hNe
      simp [linkSession, Server.modSess, Server.emit, hSess, hNe]
    have hNew : ((linkSession srv' srv.nextSess).sess srv.nextSess).pin = [] ∧
        ((linkSession srv' srv.nextSess).sess srv.nextSess).defunct = false := by
      simp [linkSession, Server.modSess, Server.emit, hSess, hEmpty, hLive]
    generalize linkSession srv' srv.nextSess = linked at hLinked hNew
    split
    · have hRefused : Tended (removeSession linked srv.nextSess) (refuse (removeSession linked srv.nextSess)
          c ans .internal "epoll registration failed") := tended_connQueueFrame _ _
      have hGone := tended_removeSession.trans hRefused
      refine ⟨fun s hNe => ?_, (hGone srv.nextSess).pin.trans hNew.1, fun hOpen => ?_⟩
      · rw [← hLinked s hNe]
        exact hGone s
      · have hStill := ((hRefused srv.nextSess).watched hOpen).1
        rw [removeSession_shut hNew.2] at hStill
        cases hStill
    · have hWatch : Tended (watchPty linked srv.nextSess) (reply (watchPty linked srv.nextSess) c ans
          (epiBufPutU64 ans.bufAlloc (epiMsgStart ans.bufAlloc .id) (linked.sess srv.nextSess).id)) :=
        tended_connQueueFrame _ _
      refine ⟨fun s hNe => ?_, ?_⟩
      · have hKept : (watchPty linked srv.nextSess).sess s = srv.sess s := by
          simp [watchPty, Server.modSess, hNe, hLinked s hNe]
        rw [← hKept]
        exact hWatch s
      · refine Session.Idle.tended ⟨?_, fun _ => ?_⟩ (hWatch srv.nextSess)
        · simp [watchPty, Server.modSess, hNew.1]
        · simp [watchPty, Server.modSess]

end Handlers

/-- Every open PTY is watched for what its queue asks for, and nothing waits for a session yet to come. -/
structure Server.Wired (srv : Server) : Prop where
  watched : ∀ s, (srv.sess s).ptyOpen = true →
    (srv.sess s).ptyEvents = some ⟨true, !(srv.sess s).pin.isEmpty, false, false, false⟩
  fresh : ∀ s, srv.nextSess ≤ s → (srv.sess s).pin = []

/-- No input comes and none goes, and the registrations stay right. -/
def Steady (srv srv' : Server) : Prop := srv.Wired → srv'.Wired ∧ ∀ s, Undisturbed s srv srv'

section Steady

variable {srv mid srv' : Server} {allowed : Act → Prop}

theorem Steady.refl (srv : Server) : Steady srv srv := fun hWired => ⟨hWired, fun _ => .refl srv⟩

theorem Steady.trans (h : Steady srv mid) (h' : Steady mid srv') : Steady srv srv' := by
  intro hWired
  obtain ⟨hMid, hFirst⟩ := h hWired
  obtain ⟨hEnd, hSecond⟩ := h' hMid
  exact ⟨hEnd, fun s => (hFirst s).trans (hSecond s)⟩

theorem nextSess_path (h : actions.Path allowed srv srv') : srv.nextSess ≤ srv'.nextSess := by
  refine Actions.Path.related (R := fun t u => t.nextSess ≤ u.nextSess) (fun _ => Nat.le_refl _)
    (fun _ _ _ => Nat.le_trans) ?_ h
  intro t a hGuard _
  have hNext : (a.perform t).nextSess = (a.relink t.links).nextSess :=
    congrArg Links.nextSess (links_perform hGuard)
  change t.nextSess ≤ (a.perform t).nextSess
  rw [hNext]
  cases a with
  | fork => exact Nat.le_succ _
  | create => exact Nat.le_succ _
  | _ => exact Nat.le_refl _

theorem Tended.wired (h : Tended srv srv') (hNext : srv.nextSess ≤ srv'.nextSess) (hWired : srv.Wired) :
    srv'.Wired := by
  constructor
  · intro s hOpen
    obtain ⟨hBefore, hEvents⟩ := (h s).watched hOpen
    rw [hEvents, (h s).pin]
    exact hWired.watched s hBefore
  · intro s hs
    rw [(h s).pin]
    exact hWired.fresh s (Nat.le_trans hNext hs)

theorem steady_of_tended (h : Tended srv srv') (hNext : srv.nextSess ≤ srv'.nextSess) {es : List Effect}
    (hTrace : srv'.trace = srv.trace ++ es) (hDry : ∀ e ∈ es, e.dry = true) : Steady srv srv' :=
  fun hWired => ⟨h.wired hNext hWired, fun s => .of_dry hTrace hDry (h s).pin⟩

theorem steady_path (hSpares : ∀ a, allowed a → a.wires = false) (h : actions.Path allowed srv srv') :
    Steady srv srv' := by
  obtain ⟨es, hTrace, hDry⟩ := trace_path (fun t a _ ha => dry_effects (hSpares a ha)) h
  exact steady_of_tended (tended_path hSpares h) (nextSess_path h) hTrace hDry

theorem dispatchFrame_spec {c : ConnPtr} (hPin : (srv.sess srv.nextSess).pin = [])
    (hShut : (srv.sess srv.nextSess).ptyOpen = false) (ans : FrameAnswers) (type : Nat) (body : Bytes) :
    Tended srv (dispatchFrame srv c ans type body) ∨
      (∀ s, s ≠ srv.nextSess → (srv.sess s).Tended ((dispatchFrame srv c ans type body).sess s)) ∧
        ((dispatchFrame srv c ans type body).sess srv.nextSess).Idle := by
  unfold dispatchFrame
  dsimp only
  split
  · exact Or.inr (handleCreate_spec hPin hShut _)
  · exact Or.inl (tended_connQueueFrame _ _)
  · exact Or.inl (tended_handleAttach _)
  · exact Or.inl (tended_handleKill _)
  · exact Or.inl (tended_handleResize _)
  · exact Or.inl (tended_handleDetach _)
  · exact Or.inl (tended_handlePeek _)
  · exact Or.inl (tended_handleGroupNew _)
  · exact Or.inl (tended_handleGroupSet _)
  · exact Or.inl (tended_handleGroupAdd _)
  · exact Or.inl (tended_handleGroupRemove _)
  · exact Or.inl (tended_connQueueFrame _ _)
  · exact Or.inl (tended_connQueueFrame _ _)

theorem dry_of_handles {c : ConnPtr} {a : Act} (h : a.handles c = true) : ∀ e ∈ a.effects srv, e.dry = true := by
  cases a with
  | create pid cwd argv env exec k =>
    intro e he
    rcases List.mem_cons.mp he with rfl | hMade
    · rfl
    · rw [List.mem_singleton.mp hMade]; rfl
  | watchPty => simp [Act.effects]
  | setPin | writePin | updatePty | free | input => simp [Act.handles, Act.backstage, Act.answers] at h
  | _ => exact dry_effects rfl

theorem steady_handleFrame {c : ConnPtr} (hLinks : srv.links.Consistent) (hc : c ∈ srv.conns)
    (hData : (srv.conn c).isData = false) (ans : FrameAnswers) (type : Nat) (body : Bytes) :
    Steady srv (handleFrame srv c ans type body) := by
  have hPath := path_handleFrame hLinks hc hData ans type body
  obtain ⟨es, hTrace, hDry⟩ := trace_path (fun t a _ ha => dry_of_handles ha) hPath
  have hNext := nextSess_path hPath
  intro hWired
  have hShut : (srv.sess srv.nextSess).ptyOpen = false := by
    cases hOpen : (srv.sess srv.nextSess).ptyOpen with
    | false => rfl
    | true => exact absurd (hLinks.sessions_lt _ (hLinks.open_listed _ hOpen)) (Nat.lt_irrefl _)
  have hBlank := hWired.fresh srv.nextSess (Nat.le_refl _)
  have hSpec : Tended srv (handleFrame srv c ans type body) ∨
      (∀ s, s ≠ srv.nextSess → (srv.sess s).Tended ((handleFrame srv c ans type body).sess s)) ∧
        ((handleFrame srv c ans type body).sess srv.nextSess).Idle :=
    @dispatchFrame_spec (srv.emit _) c hBlank hShut ans type body
  generalize handleFrame srv c ans type body = handled at hSpec hTrace hNext
  rcases hSpec with hTended | ⟨hOthers, hIdle⟩
  · exact steady_of_tended hTended hNext hTrace hDry hWired
  · have hPins : ∀ s, (handled.sess s).pin = (srv.sess s).pin := by
      intro s
      rcases eq_or_ne s srv.nextSess with rfl | hNe
      · exact hIdle.pin.trans hBlank.symm
      · exact (hOthers s hNe).pin
    refine ⟨⟨fun s hOpen => ?_, fun s hs => ?_⟩, fun s => .of_dry hTrace hDry (hPins s)⟩
    · rcases eq_or_ne s srv.nextSess with rfl | hNe
      · rw [hIdle.pin]
        exact hIdle.watched hOpen
      · obtain ⟨hBefore, hEvents⟩ := (hOthers s hNe).watched hOpen
        rw [hEvents, hPins]
        exact hWired.watched s hBefore
    · rw [hPins]
      exact hWired.fresh s (Nat.le_trans hNext hs)

end Steady

end Epimone.Daemon
