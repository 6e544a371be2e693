import Epimone.Client.KillWindow

/-! # Tabs from stored layouts

The blob of a group holds the tree of a tab. Restoring it attaches to the
sessions of its leaves that are still alive and takes them for members of the
group; the tabs of an old layout file look for a group that has their sessions.
-/
set_option autoImplicit false

namespace Epimone.Client

open Daemon Transition

/-- The tree of a blob or of a layout file; a node of another type, of which nothing is built, stands as a
leaf for session 0. -/
inductive Node where
  | leaf (sid : UInt64)
  | paned (start rest : Node)
  deriving DecidableEq, Repr

def Split.toVariant : Split → Node
  | .leaf pane => .leaf pane.sid
  | .paned start rest => .paned start.toVariant rest.toVariant

namespace Node

def sids : Node → List UInt64
  | .leaf sid => [sid]
  | .paned start rest => start.sids ++ rest.sids

/-- The tree of the leaves that can be attached to; the terminals are numbered from here on. -/
def build (attaches : UInt64 → Bool) : Node → Nat → Option Split × Nat
  | .leaf sid, next => if attaches sid then (some (.leaf ⟨next, sid⟩), next + 1) else (none, next)
  | .paned start rest, next =>
    let (start, next) := start.build attaches next
    let (rest, next) := rest.build attaches next
    (match start, rest with
      | none, rest => rest
      | some start, none => some start
      | some start, some rest => some (.paned start rest), next)

theorem sids_toVariant (tree : Split) : tree.toVariant.sids = tree.panes.map Pane.sid := by
  induction tree with
  | leaf pane => rfl
  | paned start rest ihStart ihRest =>
    rw [Split.toVariant, sids, ihStart, ihRest, Split.panes, List.map_append]

theorem leftPanes_build_leaf (attaches : UInt64 → Bool) (sid : UInt64) (next : Nat) :
    Split.leftPanes ((leaf sid).build attaches next).1 = if attaches sid then [⟨next, sid⟩] else [] := by
  unfold build
  split <;> rfl

theorem leftPanes_build_paned (attaches : UInt64 → Bool) (start rest : Node) (next : Nat) :
    Split.leftPanes ((paned start rest).build attaches next).1 =
      Split.leftPanes (start.build attaches next).1 ++
        Split.leftPanes (rest.build attaches (start.build attaches next).2).1 := by
  rw [build]
  dsimp only
  cases (start.build attaches next).1 with
  | none => rfl
  | some start' =>
    cases (rest.build attaches (start.build attaches next).2).1 with
    | none => exact (List.append_nil _).symm
    | some rest' => rfl

theorem sids_build (attaches : UInt64 → Bool) (tree : Node) (next : Nat) :
    (Split.leftPanes (tree.build attaches next).1).map Pane.sid = tree.sids.filter attaches := by
  induction tree generalizing next with
  | leaf sid =>
    rw [leftPanes_build_leaf, sids, List.filter_singleton]
    cases attaches sid <;> rfl
  | paned start rest ihStart ihRest =>
    rw [leftPanes_build_paned, List.map_append, ihStart, ihRest, sids, List.filter_append]

theorem terminals_build (attaches : UInt64 → Bool) (tree : Node) (next : Nat) :
    next ≤ (tree.build attaches next).2 ∧
      (∀ pane ∈ Split.leftPanes (tree.build attaches next).1,
        next ≤ pane.terminal ∧ pane.terminal < (tree.build attaches next).2) ∧
      (Split.leftPanes (tree.build attaches next).1).Pairwise fun p q => p.terminal ≠ q.terminal := by
  induction tree generalizing next with
  | leaf sid =>
    rw [leftPanes_build_leaf]
    unfold build
    split
    · refine ⟨Nat.le_succ next, ?_, List.pairwise_singleton _ _⟩
      intro pane hPane
      rw [List.mem_singleton.mp hPane]
      exact ⟨Nat.le_refl next, Nat.lt_succ_self next⟩
    · exact ⟨Nat.le_refl next, fun pane hPane => absurd hPane List.not_mem_nil, List.Pairwise.nil⟩
  | paned start rest ihStart ihRest =>
    obtain ⟨hStart, hStartIn, hStartPairwise⟩ := ihStart next
    obtain ⟨hRest, hRestIn, hRestPairwise⟩ := ihRest (start.build attaches next).2
    have hNext : ((paned start rest).build attaches next).2 = (rest.build attaches (start.build attaches next).2).2 :=
      rfl
    rw [leftPanes_build_paned, hNext]
    refine ⟨hStart.trans hRest, ?_, List.pairwise_append.mpr ⟨hStartPairwise, hRestPairwise, ?_⟩⟩
    · intro pane hPane
      rcases List.mem_append.mp hPane with hIn | hIn
      · exact ⟨(hStartIn pane hIn).1, (hStartIn pane hIn).2.trans_le hRest⟩
      · exact ⟨hStart.trans (hRestIn pane hIn).1, (hRestIn pane hIn).2⟩
    · intro p hp q hq
      exact ((hStartIn p hp).2.trans_le (hRestIn q hq).1).ne

end Node

namespace Split

variable {terminal : Nat}

theorem collectSessionIds_eq (tree : Split) : tree.collectSessionIds = (tree.panes.map Pane.sid).filter (· ≠ 0) := by
  induction tree with
  | leaf pane =>
    rw [collectSessionIds, panes, List.map_singleton, List.filter_singleton]
    simp
  | paned start rest ihStart ihRest =>
    rw [collectSessionIds, ihStart, ihRest, panes, List.map_append, List.filter_append]

theorem panes_ne_nil (tree : Split) : tree.panes ≠ [] := by
  induction tree with
  | leaf pane => exact List.cons_ne_nil _ _
  | paned start rest ihStart _ => exact List.append_ne_nil_of_left_ne_nil ihStart _

theorem insert_of_absent {tree : Split} {pane : Pane} (h : ∀ p ∈ tree.panes, p.terminal ≠ terminal) :
    tree.insert terminal pane = tree := by
  induction tree with
  | leaf old => exact if_neg (h old List.mem_cons_self)
  | paned start rest ihStart ihRest =>
    rw [insert, ihStart fun p hp => h p (List.mem_append_left _ hp),
      ihRest fun p hp => h p (List.mem_append_right _ hp)]

/-- Where no two leaves have the same terminal, an insertion adds one pane at most. -/
theorem panes_insert {tree : Split} {pane : Pane} (h : tree.panes.Pairwise fun p q => p.terminal ≠ q.terminal) :
    (tree.insert terminal pane).panes.Subperm (pane :: tree.panes) := by
  induction tree with
  | leaf old =>
    unfold insert
    split
    · exact (List.Perm.swap pane old []).subperm
    · exact (List.sublist_cons_self _ _).subperm
  | paned start rest ihStart ihRest =>
    obtain ⟨hStart, hRest, hCross⟩ := List.pairwise_append.mp h
    rw [insert, panes, panes]
    by_cases hIn : ∃ p ∈ start.panes, p.terminal = terminal
    · obtain ⟨p, hp, hSame⟩ := hIn
      rw [@insert_of_absent terminal rest pane fun q hq hOther => hCross p hp q hq (hSame.trans hOther.symm)]
      exact (List.subperm_append_right rest.panes).mpr (ihStart hStart)
    · rw [@insert_of_absent terminal start pane fun p hp hSame => hIn ⟨p, hp, hSame⟩]
      exact ((List.subperm_append_left start.panes).mpr (ihRest hRest)).trans List.perm_middle.subperm

end Split

namespace EpimonePage

variable {page page' : EpimonePage} {terminal : Nat}

theorem removeTerminal_left (h : page.removeTerminal terminal = some page') :
    page'.groupId = page.groupId ∧ page'.enrolled = page.enrolled ∧ page'.root.panes.Subperm page.root.panes := by
  unfold removeTerminal at h
  split at h
  · cases h
    exact ⟨rfl, rfl, List.Subperm.refl _⟩
  · next left hTake =>
    obtain ⟨root, hLeft, hSame⟩ := Option.map_eq_some_iff.mp h
    cases hSame
    cases hLeft
    exact ⟨rfl, rfl, (List.sublist_cons_self _ _).subperm.trans (Split.panes_take hTake).symm.subperm⟩

theorem closePane_left (h : page.closePane = some page') :
    page'.groupId = page.groupId ∧ page'.enrolled = page.enrolled ∧ page'.root.panes.Subperm page.root.panes := by
  unfold closePane at h
  split at h
  · cases h
    exact ⟨rfl, rfl, List.Subperm.refl _⟩
  · exact removeTerminal_left h

theorem takeFocusedLeaf_left {pane : Pane} (h : page.takeFocusedLeaf = some (pane, page')) :
    page'.groupId = page.groupId ∧ page'.enrolled = page.enrolled ∧
    page.root.panes.Perm (pane :: page'.root.panes) := by
  unfold takeFocusedLeaf at h
  obtain ⟨terminal, hFocused, h⟩ := Option.bind_eq_some_iff.mp h
  obtain ⟨⟨taken, left⟩, hTake, h⟩ := Option.bind_eq_some_iff.mp h
  obtain ⟨root, hLeft, h⟩ := Option.bind_eq_some_iff.mp h
  cases h
  cases hLeft
  exact ⟨rfl, rfl, Split.panes_take hTake⟩

theorem split_gain (h : page.root.panes.Pairwise fun p q => p.terminal ≠ q.terminal) (pane : Pane) :
    (page.split pane).groupId = page.groupId ∧ (page.split pane).enrolled = page.enrolled ∧
      (page.split pane).root.panes.Subperm (pane :: page.root.panes) := by
  unfold split
  split
  · exact ⟨rfl, rfl, (List.sublist_cons_self _ _).subperm⟩
  · exact ⟨rfl, rfl, Split.panes_insert h⟩

/-- A page around a tree, without a group. -/
def onTree (root : Split) : EpimonePage := ⟨root, some root.firstTerminal, false, 0, []⟩

def adopt (page : EpimonePage) (gid : UInt64) : EpimonePage :=
  page.root.collectSessionIds.foldl markEnrolled (page.setGroupId gid)

theorem foldl_markEnrolled (ids : List UInt64) (page : EpimonePage) :
    (ids.foldl markEnrolled page).root = page.root ∧ (ids.foldl markEnrolled page).groupId = page.groupId := by
  induction ids generalizing page with
  | nil => exact ⟨rfl, rfl⟩
  | cons sid ids ih =>
    obtain ⟨hRoot, hGroup⟩ := ih (page.markEnrolled sid)
    exact ⟨hRoot.trans (root_markEnrolled sid), hGroup.trans (groupId_markEnrolled sid)⟩

@[simp] theorem root_adopt (page : EpimonePage) (gid : UInt64) : (page.adopt gid).root = page.root :=
  (foldl_markEnrolled _ _).1.trans (root_setGroupId gid)

@[simp] theorem groupId_adopt (page : EpimonePage) (gid : UInt64) : (page.adopt gid).groupId = gid :=
  (foldl_markEnrolled _ _).2.trans (groupId_setGroupId gid)

end EpimonePage

def buildAliveSet (srv : Server) : List Nat :=
  ((listed srv).filter fun s => (srv.sess s).alive).map fun s => lowWord (srv.sess s).id

/-- For each session the group that has it, by their keys, in the order in which they are put in. -/
def buildSessionGroupMap (srv : Server) : List (Nat × Nat) :=
  srv.groups.flatMap fun g => (memberIds srv g.id).map fun sid => (lowWord sid, lowWord g.id)

/-- What was put in last is found; 0 is nothing. -/
def lookupGroup (map : List (Nat × Nat)) (sid : UInt64) : Nat :=
  ((map.reverse.find? fun e => e.1 = lowWord sid.toNat).map Prod.snd).getD 0

/-- The first group that one of the sessions is in. -/
def groupToAdopt (map : List (Nat × Nat)) (ids : List UInt64) : Nat :=
  ((ids.map (lookupGroup map)).find? (· ≠ 0)).getD 0

def adoptExistingGroup (map : List (Nat × Nat)) (page : EpimonePage) : EpimonePage :=
  let gid := groupToAdopt map page.root.collectSessionIds
  if gid = 0 then page else page.adopt (.ofNat gid)

/-- What a restore meets: the checks and the replies that it gets, and the sessions that ATTACH is granted for. -/
structure RestoreAnswers where
  instanceOk : Bool
  groups : Bool
  sessions : Bool
  attach : UInt64 → Bool

namespace Desk

variable (d : Desk) (x : RestoreAnswers)

/-- A leaf for a live session that can be attached to. -/
def attaches (sid : UInt64) : Bool :=
  decide (sid ≠ 0 ∧ lowWord sid.toNat ∈ buildAliveSet d.srv) && x.attach sid &&
    (findSession d.srv sid.toNat false).isSome

def findPageForMembers (gid : Nat) : Bool :=
  (memberIds d.srv gid).any fun sid => d.panes.any fun pane => decide (pane.sid ≠ 0) && pane.sid == .ofNat sid

def addTree (window : Nat) (tree : Node) (finish : EpimonePage → EpimonePage) : Desk :=
  match tree.build (d.attaches x) d.nextTerminal with
  | (none, next) => { d with nextTerminal := next }
  | (some root, next) => { d with tabs := d.tabs ++ [⟨window, finish (.onTree root)⟩], nextTerminal := next }

/-- The layout that restore_group comes to build. -/
def storedLayout (blobTree : Bytes → Option Node) (gid : UInt64) : Option Node :=
  if gid = 0 ∨ x.instanceOk = false ∨ x.groups = false then none
  else
    match findGroup d.srv gid.toNat with
    | none => none
    | some g =>
      if d.findPageForMembers g.id ∨ g.blob = [] then none
      else
        match blobTree g.blob with
        | none => none
        | some tree => if x.sessions then some tree else none

def restoreGroup (blobTree : Bytes → Option Node) (window : Nat) (gid : UInt64) : Desk :=
  match d.storedLayout x blobTree gid with
  | none => d
  | some tree => d.addTree x window tree fun page => page.adopt gid

def sessionGroups : List (Nat × Nat) := if x.groups then buildSessionGroupMap d.srv else []

def restoreTab (tab : Nat × Node) : Desk := d.addTree x tab.1 tab.2 (adoptExistingGroup (d.sessionGroups x))

/-- The tabs of a version 1 layout file, each with its window. -/
def restoreFromV1 (tabs : List (Nat × Node)) : Desk :=
  if x.sessions then tabs.foldl (fun d tab => d.restoreTab x tab) d else d

end Desk

/-- What happens to the tabs, with the restores. -/
inductive Gesture where
  | move (m : Move)
  | restoreGroup (window : Nat) (gid : UInt64) (x : RestoreAnswers)
  | restoreFromV1 (tabs : List (Nat × Node)) (x : RestoreAnswers)

def Gesture.perform (blobTree : Bytes → Option Node) (d : Desk) : Gesture → Desk
  | .move m => m.perform d
  | .restoreGroup window gid x => d.restoreGroup x blobTree window gid
  | .restoreFromV1 tabs x => d.restoreFromV1 x tabs

end Epimone.Client
