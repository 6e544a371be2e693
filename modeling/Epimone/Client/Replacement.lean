import Epimone.Client.Instances
import Epimone.Client.KillWindow
import Epimone.Daemon.Runs
import Epimone.Library.Conservation

/-! # The daemon behind the GUI is replaced

The GUI and its files over a daemon that may be replaced at any time, also
between two requests of one procedure. The ids of the new instance start at 1
again, so a stored id that is no longer good mostly names something else.
-/
set_option autoImplicit false

namespace Epimone.Daemon

/-! A daemon keeps its instance id. -/

section Lifetime

variable {srv : Server}

@[simp] theorem instanceId_enqueue (c : ConnPtr) (data : Bytes) (relay alloc : Bool) :
    (enqueue srv c data relay alloc).instanceId = srv.instanceId := by
  rw [enqueue_eq]

@[simp] theorem instanceId_gcGroupIfEmpty (gid : Nat) : (gcGroupIfEmpty srv gid).instanceId = srv.instanceId := by
  unfold gcGroupIfEmpty
  split
  · rfl
  · split
    · rfl
    · split <;> rfl

@[simp] theorem instanceId_noteLeft (s : SessPtr) (k : Session) : (noteLeft srv s k).instanceId = srv.instanceId := by
  unfold noteLeft
  split <;> rfl

@[simp] theorem instanceId_replayRing (c : ConnPtr) (ans : FrameAnswers) (s : SessPtr) :
    (replayRing srv c ans s).instanceId = srv.instanceId := by
  unfold replayRing
  dsimp only
  split
  · exact instanceId_enqueue c _ _ _
  · split <;> rfl

@[simp] theorem instanceId_reply (c : ConnPtr) (ans : FrameAnswers) (b : EpiBuf) :
    (reply srv c ans b).instanceId = srv.instanceId := by
  unfold reply connQueueFrame
  split
  · rfl
  · exact instanceId_enqueue c _ _ _

@[simp] theorem instanceId_bindClient (c : ConnPtr) (ans : FrameAnswers) (s : SessPtr) :
    (bindClient srv c ans s).instanceId = srv.instanceId := by
  unfold bindClient
  dsimp only
  rw [instanceId_replayRing]
  exact instanceId_reply c ans _

@[simp] theorem instanceId_assignGroup (s : SessPtr) (gid : Nat) :
    (assignGroup srv s gid).instanceId = srv.instanceId := by
  unfold assignGroup
  dsimp only
  split
  · rfl
  · rw [instanceId_noteLeft]
    split <;> rfl

@[simp] theorem instanceId_moveSession (s : SessPtr) (gid : Nat) :
    (moveSession srv s gid).instanceId = srv.instanceId := by
  unfold moveSession
  dsimp only
  split
  · rw [instanceId_gcGroupIfEmpty, instanceId_assignGroup]
  · exact instanceId_assignGroup s gid

@[simp] theorem instanceId_connUpdate (c : ConnPtr) : (connUpdate srv c).instanceId = srv.instanceId := rfl

@[simp] theorem instanceId_unbindClient (s : SessPtr) (c : ConnPtr) :
    (unbindClient srv s c).instanceId = srv.instanceId := rfl

@[simp] theorem instanceId_dropClient (s : SessPtr) : (dropClient srv s).instanceId = srv.instanceId := by
  unfold dropClient
  split
  · rfl
  · exact instanceId_unbindClient s _

@[simp] theorem instanceId_detachClient (s : SessPtr) : (detachClient srv s).instanceId = srv.instanceId := by
  unfold detachClient
  split
  · rfl
  · rw [instanceId_connUpdate, instanceId_unbindClient]

@[simp] theorem instanceId_epiSessionHangup (s : SessPtr) : (epiSessionHangup srv s).instanceId = srv.instanceId := by
  unfold epiSessionHangup
  dsimp only
  split <;> rfl

@[simp] theorem instanceId_epiSessionKill (s : SessPtr) : (epiSessionKill srv s).instanceId = srv.instanceId := by
  unfold epiSessionKill
  dsimp only
  split <;> rfl

@[simp] theorem instanceId_markKilled (s : SessPtr) (clock : Timespec) :
    (markKilled srv s clock).instanceId = srv.instanceId :=
  (instanceId_gcGroupIfEmpty _).trans (instanceId_noteLeft s _)

@[simp] theorem instanceId_removeSession (s : SessPtr) : (removeSession srv s).instanceId = srv.instanceId := by
  unfold removeSession
  dsimp only
  split
  · rfl
  · rw [instanceId_gcGroupIfEmpty, instanceId_noteLeft]
    change (if _ then _ else _ : Server).instanceId = _
    split
    · exact instanceId_dropClient s
    · exact instanceId_dropClient s

theorem instanceId_perform (srv : Server) (a : Act) : (a.perform srv).instanceId = srv.instanceId := by
  cases a with
  | queue c data alloc => exact instanceId_enqueue c data false alloc
  | attach c s ans => exact instanceId_bindClient c ans s
  | unlink s => exact (instanceId_gcGroupIfEmpty _).trans (instanceId_noteLeft s _)
  | kill s clock => exact instanceId_markKilled s clock
  | move s gid => exact instanceId_moveSession s gid
  | relay s c chunk ringAlloc queueAlloc => exact instanceId_enqueue c _ true queueAlloc
  | reap pid status child =>
    change (markReaped srv pid status child).instanceId = _
    unfold markReaped
    dsimp only
    split <;> rfl
  | close c =>
    change (connClose srv c).instanceId = _
    unfold connClose
    dsimp only [Server.emit, Server.modConn, Server.modIn]
    split
    · rfl
    · split <;> rfl
  | escalate s => exact instanceId_epiSessionKill s
  | _ => rfl

end Lifetime

end Epimone.Daemon

namespace Epimone.Talks

open Client Daemon Dialogues Dialogue Transition

/-- The daemon that answers, and for each group the sessions that its blob names, if it parses. -/
structure Host where
  srv : Server
  leaves : Nat → Option (List Stored)

/-- What becomes of a request, the connection it came on, how many entries of a list arrive, and what else
the daemon meets as it handles it. -/
structure Service where
  delivery : Delivery
  entries : Nat
  conn : ConnPtr
  ans : FrameAnswers
  pid : Nat
  session : Session
  now : Nat

namespace Host

variable (h : Host)

def live : Nat := h.srv.instanceId

def stored (id : Nat) : Stored := ⟨.ofNat id, h.live⟩

/-- The sessions as LIST has them, with whether they are alive. -/
def sessionEntries : List (Stored × Bool) :=
  (listed h.srv).map fun s => (h.stored (h.srv.sess s).id, (h.srv.sess s).alive)

def groupEntries : List GroupEntry :=
  h.srv.groups.map fun g => ⟨h.stored g.id, (groupMembers h.srv g.id).map fun s => h.stored (h.srv.sess s).id, g.blob,
    h.leaves g.id⟩

def killed (srv : Server) (s : SessPtr) (clock : Timespec) : Server :=
  let srv := detachClient srv s
  if !(srv.sess s).alive then removeSession srv s else markKilled (epiSessionHangup srv s) s clock

def attached (srv : Server) (c : ConnPtr) (ans : FrameAnswers) (s : SessPtr) : Server :=
  let client := (srv.sess s).client
  let srv := if client ≠ none ∧ client ≠ some c then detachClient srv s else srv
  bindClient srv c ans s

/-- What the daemon does with a request that it does not refuse, and its reply. -/
def grant (x : Service) : Ask → Option (Host × Reply)
  | .instanceId => some (h, .instanceId h.live)
  | .listSessions => some (h, .sessions (h.sessionEntries.take x.entries))
  | .listGroups => some (h, .groups (h.groupEntries.take x.entries))
  | .create =>
    let srv := (Act.create x.pid none [] none none x.session).perform h.srv
    some ({ h with srv := srv }, .made (h.stored srv.nextId))
  | .attach sid _ =>
    (findSession h.srv sid.id.toNat false).map fun s => ({ h with srv := attached h.srv x.conn x.ans s }, .granted)
  | .kill sid _ =>
    (findSession h.srv sid.id.toNat false).map fun s => ({ h with srv := killed h.srv s x.ans.clock }, .granted)
  | .groupNew text leaves =>
    (groupNew h.srv ⟨0, text, x.now⟩).map fun srv =>
      (⟨srv, Function.update h.leaves srv.nextGroupId (some leaves)⟩, .made (h.stored srv.nextGroupId))
  | .groupSet gid text leaves =>
    (groupSet h.srv gid.id text).map fun srv => (⟨srv, Function.update h.leaves gid.id.toNat (some leaves)⟩, .granted)
  | .groupAdd gid sid => (groupAdd h.srv gid.id sid.id).map fun srv => ({ h with srv := srv }, .granted)
  | .writeGroups .. | .writeLayout .. => none

def serve (x : Service) (q : Ask) : Host × Reply :=
  match x.delivery, h.grant x q with
  | .refused, _ | _, none => (h, .failed)
  | .lost, some (h', _) => (h', .failed)
  | .replied, some (h', r) => (h', r)

end Host

/-- The two files: the stamp and the groups of groups.json, and the groups of each window of layout.json. -/
structure Files where
  groups : Option (Nat × List Stored)
  layout : Option (List (List Stored))
  deriving DecidableEq, Repr

/-- What the GUI is doing when it is not idle. -/
inductive Procedure where
  | newTab (w : Nat)
  | splitPage (w i : Nat)
  | save (print : Print) (doGroups doLayout : Bool)
  | death (sid : Stored)
  | restore (w : Nat) (gid : Stored)
  | rename (name : Bytes → Bytes) (gid : Stored)
  | reload
  | kill (sid : Stored)
  | killGroup (gid : Stored)
  | killWindow (gids : List Stored)

namespace Procedure

def talk : Procedure → Gui → Talk Gui
  | .newTab w, gui => Talks.newTab w gui
  | .splitPage w i, gui => Talks.splitPage w i gui
  | .save print doGroups doLayout, gui => Talks.save print doGroups doLayout gui
  | .death sid, gui => deathIdle sid gui
  | .restore w gid, gui => do
    let (_, gui) ← restoreGroup w gid gui
    return gui
  | .rename name gid, gui => renameGroup name gid gui
  | .reload, gui => overviewReload gui
  | .kill sid, gui => do
    killSession none sid
    return gui
  | .killGroup gid, gui => do
    Talks.killGroup gid
    return gui
  | .killWindow gids, gui => do
    Talks.killWindow gids
    return gui

/-- The stored ids that the procedure is started for. -/
def held : Procedure → List Stored
  | .death sid | .kill sid => [sid]
  | .restore _ gid | .rename _ gid | .killGroup gid => [gid]
  | .killWindow gids => gids
  | _ => []

/-- Those of the pages that it syncs. -/
def synced : Procedure → Gui → List Stored
  | .save .., gui => gui.pageIds
  | _, _ => []

/-- Those that it uses without asking for the instance first. -/
def unguarded : Procedure → Gui → List Stored
  | .save .., gui => gui.pageIds
  | .restore .., _ | .rename .., _ => []
  | p, _ => p.held

theorem synced_unguarded {p : Procedure} {gui : Gui} {s : Stored} (h : s ∈ p.synced gui) : s ∈ p.unguarded gui := by
  cases p with
  | save print doGroups doLayout => exact h
  | _ => cases h

end Procedure

/-- The daemon and the instances before it, the files, and the GUI, while it runs: idle, or with a request
to be answered. `written` notes which instance was live as layout.json was last written. -/
structure World where
  host : Host
  older : List Nat
  files : Files
  gui : Option Gui
  talk : Option (Talk Gui)
  written : Nat

/-- What happens: to the GUI, to the daemon, and between them. -/
inductive Happening where
  | launch (groupsRead layoutRead : Bool)
  | start (p : Procedure)
  | serve (x : Service)
  | finish
  | arrange (windows : List (List StoredPage))
  | quit
  | daemon (a : Act)
  | otherBlob (gid : Nat) (text : Bytes) (leaves : List Stored)
  | replace (instanceId : Nat)

namespace World

variable (w : World)

def initial (instanceId : Nat) : World :=
  ⟨⟨Server.initial instanceId, fun _ => none⟩, [], ⟨none, none⟩, none, none, instanceId⟩

def pending : Option Ask :=
  match w.talk with
  | some (.ask q _) => some q
  | _ => none

def recorded (groupsRead : Bool) : Nat := ((if groupsRead then w.files.groups.map Prod.fst else none).getD 0)

def layout (layoutRead : Bool) : List (List Stored) := (if layoutRead then w.files.layout else none).getD []

/-- Who answers the request: the file system or the daemon. -/
def answer (x : Service) : Ask → World × Reply
  | .writeGroups stamp gids =>
    if x.delivery = .replied then ({ w with files := { w.files with groups := some (stamp, gids) } }, .granted)
    else (w, .failed)
  | .writeLayout windows =>
    if x.delivery = .replied then
      ({ w with files := { w.files with layout := some windows }, written := w.host.live }, .granted)
    else (w, .failed)
  | q => ({ w with host := (w.host.serve x q).1 }, (w.host.serve x q).2)

def step (w : World) : Happening → Option World
  | .launch groupsRead layoutRead =>
    match w.gui, w.talk with
    | none, none =>
      let recorded := if groupsRead then w.files.groups.map Prod.fst else none
      let layout := if layoutRead then w.files.layout else none
      some { w with talk := some (activate recorded layout) }
    | _, _ => none
  | .start p =>
    match w.gui, w.talk with
    | some gui, none => if ∀ s ∈ p.held, s ∈ gui.ids then some { w with talk := some (p.talk gui) } else none
    | _, _ => none
  | .serve x =>
    match w.talk with
    | some (.ask q next) =>
      let (w, r) := w.answer x q
      some { w with talk := some (next r) }
    | _ => none
  | .finish =>
    match w.talk with
    | some (.done gui) => some { w with gui := some gui, talk := none }
    | _ => none
  | .arrange windows =>
    match w.gui, w.talk with
    | some gui, none =>
      if ∀ s ∈ windows.flatten.flatMap StoredPage.ids, s.id = 0 ∨ s ∈ gui.ids then
        some { w with gui := some { gui with windows := windows } }
      else none
    | _, _ => none
  | .quit => some { w with gui := none, talk := none }
  | .daemon a => some { w with host := { w.host with srv := a.perform w.host.srv } }
  | .otherBlob gid text leaves =>
    if ∀ s ∈ leaves, s.id = 0 ∨ s.issuer = w.host.live then
      some { w with host :=
        ⟨(Act.setBlob gid text).perform w.host.srv, Function.update w.host.leaves gid (some leaves)⟩ }
    else none
  | .replace instanceId =>
    if instanceId = 0 ∨ instanceId ∈ w.host.live :: w.older then none
    else some { w with
      host := ⟨Server.initial instanceId, fun _ => none⟩
      older := w.host.live :: w.older }

end World

def world (instanceId : Nat) : Machine World Happening := ⟨.initial instanceId, World.step⟩

/-- The sessions that the request puts into a blob. -/
def Ask.leaves : Ask → List Stored
  | .groupNew _ leaves | .groupSet _ _ leaves => leaves
  | _ => []

/-- A dialogue with nothing more for the daemon that depends on an id. -/
def unaddressed : Contract Ask Reply := ⟨fun q => q.named = [] ∧ q.leaves = [], fun _ _ => True⟩

/-- The GUI goes by one of these instances, or by none. -/
def Gui.Bound (instances : List Nat) (gui : Gui) : Prop := gui.sessionInstance ∈ 0 :: instances

namespace World

variable (w : World)

/-- The daemon is not replaced while requests for ids are still to come, and where no guard asks for the
instance, the ids are of the daemon that answers. At the start the stamp has to vouch for the saved ids. -/
def Steady : Happening → Prop
  | .replace _ => ∀ d ∈ w.talk, d.Keeps unaddressed (Gui.Bound (w.host.live :: w.older))
  | .start p => ∀ gui ∈ w.gui, ∀ s ∈ p.unguarded gui, s.Of w.host.live
  | .launch groupsRead layoutRead =>
    w.recorded groupsRead = 0 ∨ w.recorded groupsRead = w.host.live →
      ∀ gid ∈ (w.layout layoutRead).flatten, gid.Of w.host.live
  | _ => True

/-- A request that has an effect is for ids that this daemon has issued. -/
def Rightful (e : Happening) : Prop :=
  ∀ x q, e = .serve x → w.pending = some q → x.delivery ≠ .refused → (w.host.grant x q).isSome = true →
    ∀ s ∈ q.named, s.Of w.host.live

end World

/-! What the daemon answers. -/

namespace Host

/-- The blobs name sessions of this daemon. -/
def Sound (h : Host) : Prop := ∀ gid leaves, h.leaves gid = some leaves → ∀ s ∈ leaves, s.Of h.live

variable {h : Host}

theorem stored_of (id : Nat) : (h.stored id).Of h.live := fun _ => rfl

theorem Sound.update (hSound : h.Sound) {srv : Server} (hLive : srv.instanceId = h.live) {gid : Nat}
    {leaves : List Stored}
    (hLeaves : ∀ s ∈ leaves, s.Of h.live) : Sound ⟨srv, Function.update h.leaves gid (some leaves)⟩ := by
  intro gid' leaves' hBlob s hs
  change s.Of srv.instanceId
  change Function.update h.leaves gid (some leaves) gid' = some leaves' at hBlob
  rw [hLive]
  rw [Function.update_apply] at hBlob
  split at hBlob
  · cases hBlob
    exact hLeaves s hs
  · exact hSound gid' leaves' hBlob s hs

theorem Sound.keep (hSound : h.Sound) {srv : Server} (hLive : srv.instanceId = h.live) :
    Sound { h with srv := srv } := by
  intro gid leaves hBlob s hs
  change s.Of srv.instanceId
  rw [hLive]
  exact hSound gid leaves hBlob s hs

theorem sessionEntries_of : ∀ e ∈ h.sessionEntries, e.1.Of h.live := by
  intro e he
  obtain ⟨s, _, rfl⟩ := List.mem_map.mp he
  exact stored_of _

theorem Sound.groupEntries_of (hSound : h.Sound) : ∀ g ∈ h.groupEntries, ∀ s ∈ g.ids, s.Of h.live := by
  intro g hg s hs
  obtain ⟨group, _, rfl⟩ := List.mem_map.mp hg
  rcases List.mem_cons.mp hs with rfl | hs
  · exact stored_of _
  · rcases List.mem_append.mp hs with hMember | hLeaf
    · obtain ⟨m, _, rfl⟩ := List.mem_map.mp hMember
      exact stored_of _
    · cases hBlob : h.leaves group.id with
      | none => rw [hBlob] at hLeaf; cases hLeaf
      | some leaves =>
        rw [hBlob] at hLeaf
        exact hSound group.id leaves hBlob s hLeaf

theorem instanceId_killed (srv : Server) (s : SessPtr) (clock : Timespec) :
    (killed srv s clock).instanceId = srv.instanceId := by
  unfold killed
  dsimp only
  split
  · rw [instanceId_removeSession, instanceId_detachClient]
  · rw [instanceId_markKilled, instanceId_epiSessionHangup, instanceId_detachClient]

theorem instanceId_attached (srv : Server) (c : ConnPtr) (ans : FrameAnswers) (s : SessPtr) :
    (attached srv c ans s).instanceId = srv.instanceId := by
  unfold attached
  dsimp only
  rw [instanceId_bindClient]
  split
  · exact instanceId_detachClient s
  · rfl

/-- Who answers by the contract: the same daemon, with blobs of its own sessions. -/
theorem Sound.grant (hSound : h.Sound) {x : Service} {q : Ask} (hLeaves : ∀ s ∈ q.leaves, s.Of h.live) {h' : Host}
    {r : Reply} (hGrant : h.grant x q = some (h', r)) :
    h'.live = h.live ∧ h'.Sound ∧ (contract True h.live).gives q r := by
  cases q with
  | instanceId =>
    cases hGrant
    refine ⟨rfl, hSound, fun s hs => absurd hs List.not_mem_nil, ?_⟩
    rintro n ⟨⟩
    rfl
  | listSessions =>
    cases hGrant
    refine ⟨rfl, hSound, ?_, nofun⟩
    intro s hs
    obtain ⟨e, he, rfl⟩ := List.mem_map.mp hs
    exact sessionEntries_of e (List.mem_of_mem_take he)
  | listGroups =>
    cases hGrant
    refine ⟨rfl, hSound, ?_, nofun⟩
    intro s hs
    obtain ⟨g, hg, hs⟩ := List.mem_flatMap.mp hs
    exact hSound.groupEntries_of g (List.mem_of_mem_take hg) s hs
  | create =>
    cases hGrant
    refine ⟨instanceId_perform _ _, hSound.keep (instanceId_perform _ _), ?_, nofun⟩
    intro s hs
    rw [List.mem_singleton.mp hs]
    exact stored_of _
  | attach sid gid =>
    obtain ⟨s, _, hSame⟩ := Option.map_eq_some_iff.mp hGrant
    cases hSame
    have hLive := instanceId_attached h.srv x.conn x.ans s
    exact ⟨hLive, hSound.keep hLive, fun s hs => absurd hs List.not_mem_nil, nofun⟩
  | kill sid gid =>
    obtain ⟨s, _, hSame⟩ := Option.map_eq_some_iff.mp hGrant
    cases hSame
    have hLive := instanceId_killed h.srv s x.ans.clock
    exact ⟨hLive, hSound.keep hLive, fun s hs => absurd hs List.not_mem_nil, nofun⟩
  | groupNew text leaves =>
    cases hGrant
    have hLive := instanceId_perform h.srv (.newGroup ⟨0, text, x.now⟩)
    refine ⟨hLive, hSound.update hLive hLeaves, ?_, nofun⟩
    intro s hs
    rw [List.mem_singleton.mp hs]
    exact stored_of _
  | groupSet gid text leaves =>
    obtain ⟨srv, hSet, hSame⟩ := Option.map_eq_some_iff.mp hGrant
    obtain ⟨g, _, hSet⟩ := Option.map_eq_some_iff.mp hSet
    cases hSame
    cases hSet
    have hLive := instanceId_perform h.srv (.setBlob gid.id.toNat text)
    exact ⟨hLive, hSound.update hLive hLeaves, fun s hs => absurd hs List.not_mem_nil, nofun⟩
  | groupAdd gid sid =>
    obtain ⟨srv, hAdd, hSame⟩ := Option.map_eq_some_iff.mp hGrant
    obtain ⟨g, _, hAdd⟩ := Option.bind_eq_some_iff.mp hAdd
    obtain ⟨s, _, hAdd⟩ := Option.map_eq_some_iff.mp hAdd
    cases hSame
    cases hAdd
    have hLive := instanceId_perform h.srv (.move s gid.id.toNat)
    exact ⟨hLive, hSound.keep hLive, fun s hs => absurd hs List.not_mem_nil, nofun⟩
  | writeGroups stamp gids => cases hGrant
  | writeLayout windows => cases hGrant

theorem Sound.serve (hSound : h.Sound) (x : Service) {q : Ask} (hLeaves : ∀ s ∈ q.leaves, s.Of h.live) :
    (h.serve x q).1.live = h.live ∧ (h.serve x q).1.Sound ∧ (contract True h.live).gives q (h.serve x q).2 := by
  have hFailed : (contract True h.live).gives q .failed := ⟨fun s hs => absurd hs List.not_mem_nil, nofun⟩
  unfold Host.serve
  split
  · exact ⟨rfl, hSound, hFailed⟩
  · exact ⟨rfl, hSound, hFailed⟩
  · next hGrant =>
    obtain ⟨hLive, hSound', _⟩ := hSound.grant hLeaves hGrant
    exact ⟨hLive, hSound', hFailed⟩
  · next hGrant => exact hSound.grant hLeaves hGrant

end Host

theorem contract_leaves {strict : Prop} {live : Nat} {q : Ask} (h : (contract strict live).asks q) :
    ∀ s ∈ q.leaves, s.Of live := by
  cases q with
  | groupNew text leaves => exact h.2.1
  | groupSet gid text leaves => exact h.2.1
  | _ => exact fun s hs => absurd hs List.not_mem_nil

/-! The invariant. -/

/-- The GUI goes by an instance that there has been, and where that is the live one, its ids are this one's. -/
def Tied (live : Nat) (older : List Nat) (gui : Gui) : Prop :=
  gui.Bound (live :: older) ∧ (gui.sessionInstance ≠ 0 → gui.sessionInstance = live → ∀ s ∈ gui.ids, s.Of live)

section Tying

variable {strict : Prop} {live : Nat} {older : List Nat} {gui gui' : Gui}

theorem Tied.grows (h : Tied live older gui) (hGrows : Grows live gui gui') : Tied live older gui' := by
  obtain ⟨hSame, hIds⟩ := hGrows
  constructor
  · rw [Gui.Bound, hSame]
    exact h.1
  · rw [hSame]
    intro hSome hLive s hs
    rcases hIds s hs with hNew | hOld
    · exact hNew
    · exact h.2 hSome hLive s hOld

theorem Tied.guards (h : Tied live older gui) {gid : Stored} (hHeld : gid ∈ gui.ids) (hPasses : gui.Passes live) :
    gid.Of live :=
  h.2 hPasses.2.2.1 hPasses.2.2.2.1.symm gid hHeld

theorem Gui.Bound.tied (h : gui.Bound older) (hFresh : live ∉ older) : Tied live older gui := by
  constructor
  · rcases List.mem_cons.mp h with hNone | hOld
    · exact List.mem_cons.mpr (Or.inl hNone)
    · exact List.mem_cons_of_mem _ (List.mem_cons_of_mem _ hOld)
  · intro hSome hLive
    rcases List.mem_cons.mp h with hNone | hOld
    · exact absurd hNone hSome
    · rw [hLive] at hOld
      exact absurd hOld hFresh

theorem Tied.arrange (h : Tied live older gui) {windows : List (List StoredPage)}
    (hIds : ∀ s ∈ windows.flatten.flatMap StoredPage.ids, s.id = 0 ∨ s ∈ gui.ids) :
    Tied live older { gui with windows := windows } := by
  refine ⟨h.1, ?_⟩
  intro hSome hLive s hs
  rcases List.mem_append.mp hs with hPage | hShown
  · rcases hIds s hPage with hNone | hOld
    · exact fun hId => absurd hNone hId
    · exact h.2 hSome hLive s hOld
  · exact h.2 hSome hLive s (List.mem_append_right _ hShown)

theorem keeps_procedure (p : Procedure) (hTied : Tied live older gui) (hHeld : ∀ s ∈ p.held, s ∈ gui.ids)
    (hSynced : ∀ s ∈ p.synced gui, s.Of live) (hUnguarded : strict → ∀ s ∈ p.unguarded gui, s.Of live) :
    (p.talk gui).Keeps (contract strict live) (Tied live older) := by
  have hKill : ∀ d : Talk PUnit, d.Keeps (contract strict live) (fun _ => True) →
      (d >>= fun _ => pure gui : Talk Gui).Keeps (contract strict live) (Tied live older) :=
    fun d hd => hd.bind fun _ _ => hTied
  cases p with
  | newTab w => exact (keeps_newTab w).mono fun gui' hGrows => hTied.grows hGrows
  | splitPage w i => exact (keeps_splitPage w i).mono fun gui' hGrows => hTied.grows hGrows
  | save print doGroups doLayout =>
    have hPages : ∀ page ∈ gui.windows.flatten, page.Of live := fun page hPage s hs =>
      hSynced s (mem_pageIds hPage hs)
    exact (keeps_save hPages).mono fun gui' hOwns => hTied.grows hOwns.grows
  | death sid =>
    have hSid : strict → sid.Of live := fun hStrict => hUnguarded hStrict sid List.mem_cons_self
    exact (keeps_deathIdle hSid).mono fun gui' hGrows => hTied.grows hGrows
  | restore w gid =>
    have hRestored := @keeps_restoreGroup strict live gui w gid (hTied.guards (hHeld gid List.mem_cons_self))
    exact hRestored.bind fun result hResult => hTied.grows hResult.1
  | rename name gid =>
    have hRenamed := @keeps_renameGroup strict live gui name gid (hTied.guards (hHeld gid List.mem_cons_self))
    exact hRenamed.mono fun gui' hGrows => hTied.grows hGrows
  | reload => exact keeps_overviewReload.mono fun gui' hGrows => hTied.grows hGrows
  | kill sid =>
    have hSid : strict → sid.Of live := fun hStrict => hUnguarded hStrict sid List.mem_cons_self
    refine hKill _ ((keeps_kill hSid ?_).bind fun _ _ => trivial)
    intro _ s hs
    cases hs
  | killGroup gid =>
    refine hKill _ (keeps_killMembers ?_)
    intro hStrict g gid' hChosen
    obtain ⟨_, hSame⟩ := Option.ite_none_right_eq_some.mp hChosen
    cases hSame
    exact hUnguarded hStrict gid List.mem_cons_self
  | killWindow gids =>
    refine hKill _ (keeps_killMembers ?_)
    intro hStrict g gid' hChosen
    exact hUnguarded hStrict gid' (List.mem_of_find?_eq_some hChosen)

end Tying

namespace World

/-- The dialogue under way is held with the live daemon, or goes on quietly after another has come. Whether
all its requests have to be for ids of the live daemon may depend on there being a GUI yet. -/
structure Settled (strict : Option Gui → Prop) (quiet : Contract Ask Reply) (w : World) : Prop where
  fresh : w.host.live ∉ w.older
  sound : w.host.Sound
  idle : ∀ gui ∈ w.gui, Tied w.host.live w.older gui
  talking : ∀ d ∈ w.talk, d.Keeps (contract (strict w.gui) w.host.live) (Tied w.host.live w.older) ∨
    d.Keeps quiet (Gui.Bound w.older)

/-- What happens does not take a dialogue out of its contract. -/
structure Spared (strict : Option Gui → Prop) (quiet : Contract Ask Reply) (w : World) (e : Happening) : Prop where
  replace : ∀ instanceId, e = .replace instanceId →
    ∀ d ∈ w.talk, d.Keeps quiet (Gui.Bound (w.host.live :: w.older))
  start : ∀ p, e = .start p → ∀ gui ∈ w.gui, (∀ s ∈ p.synced gui, s.Of w.host.live) ∧
    (strict w.gui → ∀ s ∈ p.unguarded gui, s.Of w.host.live)
  launch : ∀ groupsRead layoutRead, e = .launch groupsRead layoutRead →
    w.recorded groupsRead = 0 ∨ w.recorded groupsRead = w.host.live →
      ∀ gid ∈ (w.layout layoutRead).flatten, gid.Of w.host.live

variable {strict : Option Gui → Prop} {quiet : Contract Ask Reply}

theorem settled_initial (instanceId : Nat) : (initial instanceId).Settled strict quiet where
  fresh := List.not_mem_nil
  sound := by
    intro gid leaves hBlob
    cases hBlob
  idle := by
    intro gui hGui
    cases hGui
  talking := by
    intro d hTalk
    cases hTalk

variable {w : World}

/-- The reply to a request without ids that are not of this daemon. -/
theorem answer_spec (hSound : w.host.Sound) (x : Service) {q : Ask} (hLeaves : ∀ s ∈ q.leaves, s.Of w.host.live) :
    ((w.answer x q).1.host.live = w.host.live ∧ (w.answer x q).1.host.Sound ∧ (w.answer x q).1.older = w.older ∧
      (w.answer x q).1.gui = w.gui) ∧ (contract True w.host.live).gives q (w.answer x q).2 := by
  have hServed := hSound.serve x hLeaves
  have hBare : ∀ r : Reply, r = .granted ∨ r = .failed → (contract True w.host.live).gives q r := by
    rintro r (rfl | rfl) <;> exact ⟨fun s hs => absurd hs List.not_mem_nil, nofun⟩
  cases q with
  | writeGroups stamp gids =>
    unfold answer
    dsimp only
    split
    · exact ⟨⟨rfl, hSound, rfl, rfl⟩, hBare _ (Or.inl rfl)⟩
    · exact ⟨⟨rfl, hSound, rfl, rfl⟩, hBare _ (Or.inr rfl)⟩
  | writeLayout windows =>
    unfold answer
    dsimp only
    split
    · exact ⟨⟨rfl, hSound, rfl, rfl⟩, hBare _ (Or.inl rfl)⟩
    · exact ⟨⟨rfl, hSound, rfl, rfl⟩, hBare _ (Or.inr rfl)⟩
  | _ => exact ⟨⟨hServed.1, hServed.2.1, rfl, rfl⟩, hServed.2.2⟩

theorem Settled.leaves (h : w.Settled strict quiet) (hQuiet : ∀ q, quiet.asks q → q.leaves = []) {q : Ask}
    {next : Reply → Talk Gui} (hTalk : w.talk = some (.ask q next)) : ∀ s ∈ q.leaves, s.Of w.host.live := by
  rcases h.talking _ hTalk with hKept | hSilent
  · exact contract_leaves hKept.1
  · rw [hQuiet q hSilent.1]
    exact fun s hs => absurd hs List.not_mem_nil

/-- After a reply from the daemon there is still the same daemon, and the dialogue goes on. -/
theorem Settled.answered (h : w.Settled strict quiet) (hQuiet : ∀ q, quiet.asks q → q.leaves = [])
    (hGives : ∀ q r, quiet.gives q r) (x : Service) {q : Ask} {next : Reply → Talk Gui}
    (hTalk : w.talk = some (.ask q next)) :
    Settled strict quiet { (w.answer x q).1 with talk := some (next (w.answer x q).2) } := by
  obtain ⟨⟨hLive, hSound, hOlder, hGui⟩, hReply⟩ := answer_spec h.sound x (h.leaves hQuiet hTalk)
  constructor
  · change (w.answer x q).1.host.live ∉ (w.answer x q).1.older
    rw [hLive, hOlder]
    exact h.fresh
  · exact hSound
  · change ∀ gui ∈ (w.answer x q).1.gui, Tied (w.answer x q).1.host.live (w.answer x q).1.older gui
    rw [hLive, hOlder, hGui]
    exact h.idle
  · rintro d ⟨⟩
    change Keeps (contract (strict (w.answer x q).1.gui) (w.answer x q).1.host.live)
      (Tied (w.answer x q).1.host.live (w.answer x q).1.older) _ ∨ Keeps quiet (Gui.Bound (w.answer x q).1.older) _
    rw [hLive, hOlder, hGui]
    rcases h.talking _ hTalk with hKept | hSilent
    · exact Or.inl (hKept.2 _ hReply)
    · exact Or.inr (hSilent.2 _ (hGives _ _))

theorem Settled.replaced (h : w.Settled strict quiet) {instanceId : Nat} (hNew : instanceId ∉ w.host.live :: w.older)
    (hSilent : ∀ d ∈ w.talk, d.Keeps quiet (Gui.Bound (w.host.live :: w.older))) :
    Settled strict quiet { w with
      host := ⟨Server.initial instanceId, fun _ => none⟩
      older := w.host.live :: w.older } where
  fresh := hNew
  sound := by
    intro gid leaves hBlob
    cases hBlob
  idle gui hGui := (h.idle gui hGui).1.tied hNew
  talking d hTalk := Or.inr (hSilent d hTalk)

theorem Settled.hosted (h : w.Settled strict quiet) {host : Host} (hLive : host.live = w.host.live)
    (hSound : host.Sound) : Settled strict quiet { w with host := host } := by
  constructor
  · change host.live ∉ w.older
    rw [hLive]
    exact h.fresh
  · exact hSound
  · change ∀ gui ∈ w.gui, Tied host.live w.older gui
    rw [hLive]
    exact h.idle
  · change ∀ d ∈ w.talk, Keeps (contract (strict w.gui) host.live) (Tied host.live w.older) d ∨
      Keeps quiet (Gui.Bound w.older) d
    rw [hLive]
    exact h.talking

theorem Settled.step {w' : World} {e : Happening} (h : w.Settled strict quiet)
    (hQuiet : ∀ q, quiet.asks q → q.leaves = []) (hGives : ∀ q r, quiet.gives q r)
    (hSpared : w.Spared strict quiet e) (hStep : w.step e = some w') : w'.Settled strict quiet := by
  cases e with
  | launch groupsRead layoutRead =>
    simp only [World.step] at hStep
    split at hStep
    · cases hStep
      refine { h with talking := ?_ }
      rintro d ⟨⟩
      have hVouched := hSpared.launch groupsRead layoutRead rfl
      refine Or.inl ((keeps_activate fun gid hGid hStamp => hVouched hStamp gid hGid).mono ?_)
      rintro gui ⟨hSession, hIds⟩
      refine ⟨?_, fun _ _ => hIds⟩
      rcases hSession with hNone | hLive
      · exact List.mem_cons.mpr (Or.inl hNone)
      · exact List.mem_cons_of_mem _ (List.mem_cons.mpr (Or.inl hLive))
    · cases hStep
  | start p =>
    simp only [World.step] at hStep
    split at hStep
    · next gui hGui _ =>
      obtain ⟨hHeld, hSame⟩ := Option.ite_none_right_eq_some.mp hStep
      cases hSame
      refine { h with talking := ?_ }
      rintro d ⟨⟩
      obtain ⟨hSynced, hUnguarded⟩ := hSpared.start p rfl gui hGui
      exact Or.inl (keeps_procedure p (h.idle gui hGui) hHeld hSynced hUnguarded)
    · cases hStep
  | serve x =>
    simp only [World.step] at hStep
    split at hStep
    · next q next hTalk =>
      cases hStep
      exact h.answered hQuiet hGives x hTalk
    · cases hStep
  | finish =>
    simp only [World.step] at hStep
    split at hStep
    · next gui hTalk =>
      cases hStep
      refine { h with idle := ?_, talking := nofun }
      rintro gui' ⟨⟩
      rcases h.talking _ hTalk with hKept | hSilent
      · exact hKept
      · exact Gui.Bound.tied hSilent h.fresh
    · cases hStep
  | arrange windows =>
    simp only [World.step] at hStep
    split at hStep
    · next gui hGui hTalk =>
      obtain ⟨hIds, hSame⟩ := Option.ite_none_right_eq_some.mp hStep
      cases hSame
      refine { h with idle := ?_, talking := ?_ }
      · rintro gui' ⟨⟩
        exact (h.idle gui hGui).arrange hIds
      · intro d hSome
        rw [hTalk] at hSome
        cases hSome
    · cases hStep
  | quit =>
    cases hStep
    exact { h with idle := nofun, talking := nofun }
  | daemon a =>
    cases hStep
    have hLive := instanceId_perform w.host.srv a
    exact h.hosted hLive (h.sound.keep hLive)
  | otherBlob gid text leaves =>
    obtain ⟨hLeaves, hSame⟩ := Option.ite_none_right_eq_some.mp hStep
    cases hSame
    have hLive := instanceId_perform w.host.srv (.setBlob gid text)
    refine h.hosted hLive (h.sound.update hLive ?_)
    intro s hs hSome
    rcases hLeaves s hs with hNone | hIssued
    · exact absurd hNone hSome
    · exact hIssued
  | replace instanceId =>
    simp only [World.step] at hStep
    split at hStep
    · cases hStep
    · next hNew =>
      cases hStep
      exact h.replaced (fun hOld => hNew (Or.inr hOld)) (hSpared.replace instanceId rfl)

/-! With a running GUI. -/

theorem Steady.spared {e : Happening} (h : w.Steady e) : w.Spared (fun _ => True) unaddressed e := by
  constructor
  · rintro instanceId rfl
    exact h
  · rintro p rfl gui hGui
    have hOwn := h gui hGui
    exact ⟨fun s hs => hOwn s (Procedure.synced_unguarded hs), fun _ => hOwn⟩
  · rintro groupsRead layoutRead rfl
    exact h

/-- A request under way is for ids of the daemon that answers it. -/
theorem Settled.rightful (h : w.Settled (fun _ => True) unaddressed) (e : Happening) : w.Rightful e := by
  rintro x q rfl hPending _ _
  unfold pending at hPending
  split at hPending
  · next q' next hTalk =>
    cases hPending
    rcases h.talking _ hTalk with hKept | hSilent
    · exact hKept.1.1 trivial
    · rw [hSilent.1.1]
      exact fun s hs => absurd hs List.not_mem_nil
  · cases hPending

/-- In a run that keeps to the conditions, no request takes effect on behalf of an id that another instance
of the daemon has issued. -/
theorem stale_ids_idle {instanceId : Nat} {inputs : List Happening}
    (hSteady : (world instanceId).Meets Steady (initial instanceId) inputs)
    (hRun : (world instanceId).run inputs = some w) : ∀ e, w.Rightful e := by
  have hSettled : w.Settled (fun _ => True) unaddressed := hSteady.invariant (fun _ _ _ hSettled hCondition hStep =>
    hSettled.step (fun _ hAsks => hAsks.2) (fun _ _ => trivial) (Steady.spared hCondition) hStep)
      (settled_initial instanceId) hRun
  exact hSettled.rightful

/-- The request gets through. -/
def prompt : Service := ⟨.replied, 9, 0, calmFrame 0 ⟨0⟩, 100, shell 100, 0⟩

/-- What is enough for the conditions on a step. -/
def vouched (w : World) : Happening → Bool
  | .replace _ => w.talk.isNone
  | .start p => w.gui.all fun gui => (p.unguarded gui).all fun s => s.id == 0 || s.issuer == w.host.live
  | .launch _ layoutRead => (w.layout layoutRead).isEmpty
  | _ => true

theorem steady_of_vouched {e : Happening} (h : w.vouched e = true) : w.Steady e := by
  cases e with
  | replace instanceId =>
    intro d hTalk
    rw [Option.isNone_iff_eq_none.mp h] at hTalk
    cases hTalk
  | start p =>
    intro gui hGui s hs hSome
    have hAll := (Option.all_eq_true _ _).mp h gui hGui
    rcases Bool.or_eq_true_iff.mp (List.all_eq_true.mp hAll s hs) with hNone | hIssued
    · exact absurd (beq_iff_eq.mp hNone) hSome
    · exact beq_iff_eq.mp hIssued
  | launch groupsRead layoutRead =>
    intro _ gid hGid
    rw [List.isEmpty_iff.mp h] at hGid
    cases hGid
  | _ => trivial

/-- The tab of daemon 7 is saved; daemon 8 has a group with the same id. The guard does not let the group
of daemon 7 be restored from it, and a new tab attaches to its own session. -/
def outlived : List Happening :=
  .launch true true :: List.replicate 3 (.serve prompt) ++ [.finish, .start (.save (fun _ => []) true true)] ++
    List.replicate 5 (.serve prompt) ++
      [.finish, .replace 8, .daemon (.create 100 none [] none none (shell 100)), .daemon (.newGroup ⟨0, [], 0⟩),
        .otherBlob 1 [1] [⟨1, 8⟩], .start (.restore 0 ⟨1, 7⟩), .serve prompt, .finish, .start (.newTab 0),
        .serve { prompt with pid := 101, session := shell 101 }]

theorem stale_ids_idle_outlived : ∃ w, (world 7).run outlived = some w ∧ w.host.live = 8 ∧
    w.pending = some (.attach ⟨2, 8⟩ none) ∧ (w.host.grant prompt (.attach ⟨2, 8⟩ none)).isSome = true ∧
      ∀ e, w.Rightful e := by
  have hSteps : ((world 7).steps outlived).all (fun step => step.before.vouched step.input) := by decide +kernel
  have hSteady : (world 7).Meets Steady (initial 7) outlived := fun step hMem =>
    steady_of_vouched (List.all_eq_true.mp hSteps step hMem)
  have hCheck : ((world 7).run outlived).any fun w => w.host.live == 8 &&
      decide (w.pending = some (.attach ⟨2, 8⟩ none)) && (w.host.grant prompt (.attach ⟨2, 8⟩ none)).isSome := by
    decide +kernel
  obtain ⟨w, hRun, hw⟩ := Machine.exists_of_run_any (world 7) hCheck
  simp only [Bool.and_eq_true, decide_eq_true_eq, beq_iff_eq] at hw
  obtain ⟨⟨hLive, hPending⟩, hGranted⟩ := hw
  exact ⟨w, hRun, hLive, hPending, hGranted, stale_ids_idle hSteady hRun⟩

/-- A request that has an effect is for an id of another instance. -/
def strays (w : World) : Bool :=
  match w.pending with
  | some q => (w.host.grant prompt q).isSome && q.named.any fun s => s.id != 0 && s.issuer != w.host.live
  | none => false

theorem not_rightful_of_strays (h : w.strays = true) : ¬ w.Rightful (.serve prompt) := by
  intro hRightful
  unfold strays at h
  split at h
  · next q hPending =>
    obtain ⟨hGranted, hNamed⟩ := Bool.and_eq_true_iff.mp h
    obtain ⟨s, hs, hOther⟩ := List.any_eq_true.mp hNamed
    have hOf := hRightful prompt q rfl hPending nofun hGranted s hs
    simp only [Bool.and_eq_true, bne_iff_ne] at hOther
    exact hOther.2 (hOf hOther.1)
  · cases h

/-- One tab is opened and saved by daemon 7; daemon 8 comes and has a group; the tab is saved again. -/
def savedTwice : List Happening :=
  .launch true true :: List.replicate 3 (.serve prompt) ++ [.finish, .start (.save (fun _ => []) true true)] ++
    List.replicate 5 (.serve prompt) ++
      [.finish, .replace 8, .daemon (.newGroup ⟨0, [], 0⟩), .start (.save (fun _ => []) true true)]

/-- GROUP_SET for the group of the old daemon overwrites the group of the new one. -/
theorem stale_ids_overwrite : ∃ w, (world 7).run savedTwice = some w ∧
    w.pending = some (.groupSet ⟨1, 7⟩ [] [⟨1, 7⟩]) ∧ ¬ w.Rightful (.serve prompt) := by
  have hCheck : ((world 7).run savedTwice).any fun w =>
      w.strays && decide (w.pending = some (.groupSet ⟨1, 7⟩ [] [⟨1, 7⟩])) := by decide +kernel
  obtain ⟨w, hRun, hw⟩ := Machine.exists_of_run_any (world 7) hCheck
  obtain ⟨hStrays, hPending⟩ := Bool.and_eq_true_iff.mp hw
  exact ⟨w, hRun, of_decide_eq_true hPending, not_rightful_of_strays hStrays⟩

end World

end Epimone.Talks
