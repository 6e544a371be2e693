import Epimone.Client.Overview
import Epimone.Daemon.Groups
import Epimone.Daemon.RequestCodec

/-! # Pages and panes

A tab holds one page, a tree of splits with a terminal at each leaf. Closing a
pane and moving it out take one leaf from the tree and put its sibling in the
place of the split; the daemon learns of the panes of a page when the page is
synced.
-/
set_option autoImplicit false

namespace Epimone.Client

open Daemon Program

/-- A leaf: the terminal, and the session of its bridge, 0 where none could be started. -/
structure Pane where
  terminal : Nat
  sid : UInt64
  deriving DecidableEq, Repr

inductive Split where
  | leaf (pane : Pane)
  | paned (start rest : Split)
  deriving DecidableEq, Repr

namespace Split

def panes : Split → List Pane
  | .leaf pane => [pane]
  | .paned start rest => start.panes ++ rest.panes

def collectSessionIds : Split → List UInt64
  | .leaf pane => if pane.sid ≠ 0 then [pane.sid] else []
  | .paned start rest => start.collectSessionIds ++ rest.collectSessionIds

def firstTerminal : Split → Nat
  | .leaf pane => pane.terminal
  | .paned start _ => start.firstTerminal

def holds (terminal : Nat) : Split → Bool
  | .leaf pane => pane.terminal == terminal
  | .paned .. => false

/-- The leaf of the terminal becomes a split of itself and the new leaf. -/
def insert (terminal : Nat) (pane : Pane) : Split → Split
  | .leaf old => if old.terminal = terminal then .paned (.leaf old) (.leaf pane) else .leaf old
  | .paned start rest => .paned (start.insert terminal pane) (rest.insert terminal pane)

/-- The leaf of the terminal, and the tree in which its sibling has taken the place of their split. -/
def take (terminal : Nat) : Split → Option (Pane × Option Split)
  | .leaf pane => if pane.terminal = terminal then some (pane, none) else none
  | .paned start rest =>
    match start.take terminal with
    | some (pane, left) => some (pane, some (match left with
      | none => rest
      | some start => .paned start rest))
    | none =>
      match rest.take terminal with
      | some (pane, left) => some (pane, some (match left with
        | none => start
        | some rest => .paned start rest))
      | none => none

def sibling (terminal : Nat) : Split → Option Split
  | .leaf _ => none
  | .paned start rest =>
    if start.holds terminal then some rest
    else if rest.holds terminal then some start
    else (start.sibling terminal).or (rest.sibling terminal)

variable {terminal : Nat}

theorem mem_collectSessionIds {tree : Split} {sid : UInt64} :
    sid ∈ tree.collectSessionIds ↔ sid ≠ 0 ∧ sid ∈ tree.panes.map Pane.sid := by
  induction tree with
  | leaf pane =>
    simp only [collectSessionIds, panes, List.map_cons, List.map_nil, List.mem_singleton]
    split
    · rename_i hSome
      rw [List.mem_singleton]
      exact ⟨fun h => ⟨h ▸ hSome, h⟩, And.right⟩
    · rename_i hNone
      refine ⟨fun h => (nomatch h), fun h => absurd h.1 ?_⟩
      rw [h.2]
      exact hNone
  | paned start rest ihStart ihRest =>
    rw [collectSessionIds, panes, List.map_append, List.mem_append, List.mem_append, ihStart, ihRest,
      and_or_left]

theorem panes_subset_insert (pane : Pane) (tree : Split) : tree.panes ⊆ (tree.insert terminal pane).panes := by
  induction tree with
  | leaf old =>
    unfold insert
    split
    · exact List.subset_append_left _ _
    · exact List.Subset.refl _
  | paned start rest ihStart ihRest =>
    intro p hp
    exact List.mem_append.mpr ((List.mem_append.mp hp).imp (fun h => ihStart h) fun h => ihRest h)

/-- The panes that are left when a leaf is taken. -/
def leftPanes (left : Option Split) : List Pane := (left.map panes).getD []

theorem panes_take {tree : Split} {pane : Pane} {left : Option Split}
    (h : tree.take terminal = some (pane, left)) : tree.panes.Perm (pane :: leftPanes left) := by
  induction tree generalizing left with
  | leaf old =>
    unfold take at h
    split at h
    · cases h
      exact .refl _
    · cases h
  | paned start rest ihStart ihRest =>
    unfold take at h
    split at h
    · rename_i found left' hStart
      cases h
      have hPerm := (ihStart hStart).append_right rest.panes
      cases left' with
      | none => exact hPerm
      | some start' => exact hPerm
    · split at h
      · rename_i found left' hRest
        cases h
        have hPerm := ((ihRest hRest).append_left start.panes).trans List.perm_middle
        cases left' with
        | none =>
          rw [leftPanes, Option.map_none, Option.getD_none, List.append_nil] at hPerm
          exact hPerm
        | some rest' => exact hPerm
      · cases h

end Split

structure EpimonePage where
  root : Split
  focused : Option Nat
  zoomed : Bool
  groupId : UInt64
  enrolled : List UInt64
  deriving DecidableEq, Repr

namespace EpimonePage

def sids (page : EpimonePage) : List UInt64 := page.root.panes.map Pane.sid

/-- A page around one leaf, as a new tab and a moved pane have it. -/
def around (pane : Pane) : EpimonePage := ⟨.leaf pane, some pane.terminal, false, 0, []⟩

def split (page : EpimonePage) (pane : Pane) : EpimonePage :=
  match page.focused with
  | none => page
  | some terminal =>
    { page with
      root := page.root.insert terminal pane
      focused := some pane.terminal
      zoomed := false }

/-- epimone_page_remove_terminal; without a page left, the tab is told to close. -/
def removeTerminal (page : EpimonePage) (terminal : Nat) : Option EpimonePage :=
  match page.root.take terminal with
  | none => some page
  | some (_, left) => left.map fun root =>
    { page with
      root := root
      zoomed := false
      focused := if page.focused = some terminal then
        (page.root.sibling terminal).map Split.firstTerminal else page.focused }

def closePane (page : EpimonePage) : Option EpimonePage :=
  match page.focused with
  | none => some page
  | some terminal => page.removeTerminal terminal

/-- The focused leaf and the page without it, if there is another one. -/
def takeFocusedLeaf (page : EpimonePage) : Option (Pane × EpimonePage) := do
  let terminal ← page.focused
  let (pane, left) ← page.root.take terminal
  let root ← left
  return (pane,
    { page with
      root := root
      zoomed := false
      focused := (page.root.sibling terminal).map Split.firstTerminal })

def toggleZoom (page : EpimonePage) : EpimonePage :=
  if page.zoomed then { page with zoomed := false }
  else { page with zoomed := page.focused.isSome && 2 ≤ page.root.panes.length }

/-- A different group means the old enrollments say nothing about the new one. -/
def setGroupId (page : EpimonePage) (gid : UInt64) : EpimonePage :=
  if page.groupId = gid then page else { page with groupId := gid, enrolled := [] }

def markEnrolled (page : EpimonePage) (sid : UInt64) : EpimonePage :=
  if sid ∈ page.enrolled then page else { page with enrolled := sid :: page.enrolled }

variable {page : EpimonePage} {terminal : Nat}

@[simp] theorem sids_around (pane : Pane) : (around pane).sids = [pane.sid] := rfl

@[simp] theorem sids_toggleZoom : page.toggleZoom.sids = page.sids := by
  unfold toggleZoom
  split <;> rfl

@[simp] theorem groupId_toggleZoom : page.toggleZoom.groupId = page.groupId := by
  unfold toggleZoom
  split <;> rfl

@[simp] theorem root_setGroupId (gid : UInt64) : (page.setGroupId gid).root = page.root := by
  unfold setGroupId
  split <;> rfl

@[simp] theorem groupId_setGroupId (gid : UInt64) : (page.setGroupId gid).groupId = gid := by
  unfold setGroupId
  split
  · rename_i hSame
    exact hSame
  · rfl

@[simp] theorem root_markEnrolled (sid : UInt64) : (page.markEnrolled sid).root = page.root := by
  unfold markEnrolled
  split <;> rfl

@[simp] theorem groupId_markEnrolled (sid : UInt64) : (page.markEnrolled sid).groupId = page.groupId := by
  unfold markEnrolled
  split <;> rfl

theorem sids_subset_split (pane : Pane) : page.sids ⊆ (page.split pane).sids := by
  unfold split
  split
  · exact List.Subset.refl _
  · exact List.map_subset _ (Split.panes_subset_insert pane page.root)

theorem groupId_split (pane : Pane) : (page.split pane).groupId = page.groupId := by
  unfold split
  split <;> rfl

/-- What removing a terminal comes to: nothing, or the sessions are those left and the one taken. -/
theorem removeTerminal_cases (page : EpimonePage) (terminal : Nat) :
    page.root.take terminal = none ∧ page.removeTerminal terminal = some page ∨
    ∃ pane left, page.root.take terminal = some (pane, left) ∧
      page.sids.Perm (pane.sid :: (Split.leftPanes left).map Pane.sid) ∧
      (left = none ∧ page.removeTerminal terminal = none ∨
        ∃ root page', left = some root ∧ page.removeTerminal terminal = some page' ∧
          page'.groupId = page.groupId ∧ page'.sids = (Split.leftPanes left).map Pane.sid) := by
  cases hTake : page.root.take terminal with
  | none =>
    refine Or.inl ⟨rfl, ?_⟩
    rw [removeTerminal, hTake]
  | some taken =>
    obtain ⟨pane, left⟩ := taken
    refine Or.inr ⟨pane, left, rfl, (Split.panes_take hTake).map Pane.sid, ?_⟩
    rw [removeTerminal, hTake]
    cases left with
    | none => exact Or.inl ⟨rfl, rfl⟩
    | some root => exact Or.inr ⟨root, _, rfl, rfl, rfl, rfl⟩

theorem takeFocusedLeaf_spec {pane : Pane} {page' : EpimonePage}
    (h : page.takeFocusedLeaf = some (pane, page')) :
    page'.groupId = page.groupId ∧ page.sids.Perm (pane.sid :: page'.sids) := by
  unfold takeFocusedLeaf at h
  obtain ⟨terminal, hFocused, h⟩ := Option.bind_eq_some_iff.mp h
  obtain ⟨⟨taken, left⟩, hTake, h⟩ := Option.bind_eq_some_iff.mp h
  obtain ⟨root, hLeft, h⟩ := Option.bind_eq_some_iff.mp h
  cases h
  cases hLeft
  exact ⟨rfl, (Split.panes_take hTake).map Pane.sid⟩

end EpimonePage

/-! What the daemon does with the requests of a sync, where it grants them. -/

section Granted

variable (srv : Server)

def groupSet (gid : UInt64) (blob : Bytes) : Option Server :=
  (findGroup srv gid.toNat).map fun _ => (Act.setBlob gid.toNat blob).perform srv

def groupNew (g : Group) : Option Server := some ((Act.newGroup g).perform srv)

def groupAdd (gid sid : UInt64) : Option Server :=
  (findGroup srv gid.toNat).bind fun _ =>
    (findSession srv sid.toNat false).map fun s => (Act.move s gid.toNat).perform srv

end Granted

/-! The handlers of the daemon grant the requests in this way, or refuse them. -/

section Handled

variable (srv : Server) (c : ConnPtr) (ans : FrameAnswers)

theorem reads_groupAdd (gid sid : UInt64) :
    let r := epiRdInit (Request.groupAdd gid sid).body
    (epiRdU64 r).1 = gid.toNat ∧ (epiRdU64 (epiRdU64 r).2).1 = sid.toNat := by
  have hBody : (Request.groupAdd gid sid).body.length < 2 ^ 32 := by
    rw [Request.body, List.length_append, length_u64Bytes, length_u64Bytes]
    decide
  have hAll : Decodes [] Decoder.groupAddRequest (Request.groupAdd gid sid).body (gid.toNat, sid.toNat) :=
    .bind (decodes_id gid) (.map (Prod.mk gid.toNat) (decodes_id sid))
  obtain ⟨r, hGid, hSid⟩ :=
    @groupAdd_reads ⟨_, Nat.lt_trans hBody (by decide)⟩ _ _ ⟨(hAll.complete hBody).1, rfl⟩
  dsimp only
  rw [hGid]
  exact ⟨rfl, congrArg Prod.fst hSid⟩

theorem reads_groupSet {alloc : Nat → Bool} (hAlloc : ∀ n, alloc n = true) (gid : UInt64) {blob : Bytes}
    (hBlob : blob.length ≤ epiGroupBlobMax) :
    let r := epiRdInit (Request.groupSet gid blob).body
    (epiRdU64 r).1 = gid.toNat ∧ (epiRdBlob alloc (epiRdU64 r).2).1.getD [] = blob := by
  have hMax : epiGroupBlobMax < 2 ^ 17 := by decide
  have hBody : (Request.groupSet gid blob).body.length < 2 ^ 32 := by
    rw [Request.body, List.length_append, length_u64Bytes, length_blobBytes]
    omega
  obtain ⟨received, hRead, hSame⟩ := @decodes_blob alloc hAlloc [] blob
  have hAll : Decodes [] (Decoder.groupSetRequest alloc) (Request.groupSet gid blob).body
      (gid.toNat, received) := .bind (decodes_id gid) (.map (Prod.mk gid.toNat) hRead)
  obtain ⟨r, hGid, hFound⟩ :=
    @groupSet_reads alloc ⟨_, Nat.lt_trans hBody (by decide)⟩ _ _ ⟨(hAll.complete hBody).1, rfl⟩
  dsimp only
  rw [hGid]
  refine ⟨rfl, ?_⟩
  rw [hFound]
  exact hSame

theorem handled_groupAdd (gid sid : UInt64) :
    (∃ code msg, handleGroupAdd srv c ans (epiRdInit (Request.groupAdd gid sid).body) =
        refuse srv c ans code msg) ∨
      ∃ granted, groupAdd srv gid sid = some granted ∧
        handleGroupAdd srv c ans (epiRdInit (Request.groupAdd gid sid).body) = acknowledge granted c ans := by
  obtain ⟨hGid, hSid⟩ := reads_groupAdd gid sid
  refine (handleGroupAdd_cases srv c ans _).imp_right ?_
  rintro ⟨s, hGroup, hFind, hMoved⟩
  rw [hGid] at hGroup hMoved
  rw [hSid] at hFind
  obtain ⟨g, hFound⟩ := Option.ne_none_iff_exists'.mp hGroup
  refine ⟨moveSession srv s gid.toNat, ?_, hMoved⟩
  rw [groupAdd, hFound, hFind]
  rfl

theorem handled_groupSet (gid : UInt64) {blob : Bytes} (hBlob : blob.length ≤ epiGroupBlobMax)
    (hAlloc : ∀ n, ans.rdAlloc n = true) :
    (∃ code msg, handleGroupSet srv c ans (epiRdInit (Request.groupSet gid blob).body) =
        refuse srv c ans code msg) ∨
      ∃ granted, groupSet srv gid blob = some granted ∧
        handleGroupSet srv c ans (epiRdInit (Request.groupSet gid blob).body) = acknowledge granted c ans := by
  obtain ⟨hGid, hRead⟩ := reads_groupSet hAlloc gid hBlob
  refine (handleGroupSet_cases srv c ans _).imp_right ?_
  rintro ⟨hGroup, hSet⟩
  rw [hGid] at hGroup hSet
  rw [hRead] at hSet
  obtain ⟨g, hFound⟩ := Option.ne_none_iff_exists'.mp hGroup
  refine ⟨setGroupBlob srv gid.toNat blob, ?_, hSet⟩
  rw [groupSet, hFound]
  rfl

theorem handled_groupNew (r : EpiRd) :
    (∃ code msg, handleGroupNew srv c ans r = refuse srv c ans code msg) ∨
      ∃ g granted, groupNew srv g = some granted ∧
        handleGroupNew srv c ans r = reply granted c ans
          (epiBufPutU64 ans.bufAlloc (epiMsgStart ans.bufAlloc .groupId) granted.nextGroupId) := by
  refine (handleGroupNew_cases srv c ans r).imp_right ?_
  rintro ⟨g, hNew⟩
  exact ⟨g, linkGroup srv g, rfl, hNew⟩

end Handled

/-- What becomes of a request: it is not carried out, or its reply does not arrive, or it does. -/
inductive Delivery where
  | refused | lost | replied
  deriving DecidableEq, Repr

/-- The daemon after the request, and whether the client takes it for granted. -/
def Delivery.carry (delivery : Delivery) (srv : Server) (granted : Option Server) : Server × Bool :=
  match delivery, granted with
  | .refused, _ | _, none => (srv, false)
  | .lost, some srv' => (srv', false)
  | .replied, some srv' => (srv', true)

/-- What one sync meets; `text` is the blob of the page. -/
structure SyncAnswers where
  text : Option Bytes
  set : Delivery
  new : Delivery
  now : Nat
  add : UInt64 → Delivery

section Syncing

variable (ans : SyncAnswers) (text : Bytes)

/-- The group may be gone, and the page then starts over with a new one. -/
def updateGroup (srv : Server) (page : EpimonePage) : Server × EpimonePage :=
  if page.groupId = 0 then (srv, page)
  else
    match ans.set.carry srv (groupSet srv page.groupId text) with
    | (srv, true) => (srv, page)
    | (srv, false) => (srv, page.setGroupId 0)

def createGroup (srv : Server) (page : EpimonePage) : Server × EpimonePage :=
  if page.groupId ≠ 0 then (srv, page)
  else
    match ans.new.carry srv (groupNew srv ⟨0, text, ans.now⟩) with
    | (srv, true) => (srv, page.setGroupId (.ofNat srv.nextGroupId))
    | (srv, false) => (srv, page)

def enroll (gid : UInt64) (state : Server × EpimonePage) (sid : UInt64) : Server × EpimonePage :=
  let (srv, page) := state
  if sid ∈ page.enrolled then (srv, page)
  else
    match (ans.add sid).carry srv (groupAdd srv gid sid) with
    | (srv, true) => (srv, page.markEnrolled sid)
    | (srv, false) => (srv, page)

def syncPageGroup (srv : Server) (page : EpimonePage) : Server × EpimonePage :=
  if page.zoomed then (srv, page)
  else
    let ids := page.root.collectSessionIds
    match ids, ans.text with
    | [], _ | _, none => (srv, page)
    | _, some text =>
      let (srv, page) := updateGroup ans text srv page
      let (srv, page) := createGroup ans text srv page
      if page.groupId = 0 then (srv, page)
      else ids.foldl (enroll ans page.groupId) (srv, page)

end Syncing

end Epimone.Client
