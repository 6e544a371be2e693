import Epimone.Client.Enrollment

/-! # Adopted groups

A restored tab takes its sessions for members of the group that it takes. Where
they are, and no other tab has that group, a pass of the syncs brings every
session on screen into the group of its tab.
-/
set_option autoImplicit false

namespace Epimone.Client

open Daemon Transition Program

/-- The page that takes the group, if there is one. -/
def EpimonePage.inGroup (page : EpimonePage) : Option UInt64 → EpimonePage
  | none => page
  | some gid => page.adopt gid

namespace Desk

variable (strict : Prop) (d : Desk) (x : RestoreAnswers) (tree : Node)

def attached : List UInt64 := tree.sids.filter (d.attaches x)

/-- The group that a tab of an old layout file adopts. -/
def adopted : Option UInt64 :=
  let gid := groupToAdopt (d.sessionGroups x) (d.attached x tree)
  if gid = 0 then none else some (.ofNat gid)

/-- The sessions of the restored tab each have one pane and are in the group that it takes. Strictly, no
other tab has that group. -/
structure Fits (group : Option UInt64) : Prop where
  once : (d.attached x tree).Nodup
  member : ∀ gid ∈ group, ∀ sid ∈ d.attached x tree, sid.toNat ∈ memberIds d.srv gid.toNat
  unlike : strict → ∀ gid ∈ group, gid ≠ 0 → ∀ sid ∈ d.attached x tree, ∀ t ∈ d.tabs, t.page.groupId ≠ gid

/-- No tab shows a session that the restored tab attaches to. -/
def OffScreen : Prop := ∀ sid ∈ d.attached x tree, ∀ t ∈ d.tabs, sid ∉ t.page.sids

/-- The tabs of an old layout file fit, next to the open ones and to each other. -/
structure AllFit (tabs : List (Nat × Node)) : Prop where
  each : ∀ tab ∈ tabs, d.Fits strict x tab.2 (d.adopted x tab.2) ∧ d.OffScreen x tab.2
  others : tabs.Pairwise fun a b => (d.attached x a.2).Disjoint (d.attached x b.2) ∧
    (strict → ∀ gid ∈ d.adopted x a.2, gid ∉ d.adopted x b.2)

end Desk

/-- The restores by which a session gets into a page of its own group only. -/
def Gesture.Fits (strict : Prop) (blobTree : Bytes → Option Node) (d : Desk) : Gesture → Prop
  | .move _ => True
  | .restoreGroup _ gid x => ∀ tree, d.storedLayout x blobTree gid = some tree → d.Fits strict x tree (some gid)
  | .restoreFromV1 tabs x => x.sessions = true → d.AllFit strict x tabs

section Restores

variable {strict : Prop} {instanceId : Nat} {d : Desk} {x : RestoreAnswers} {tree : Node}

theorem known_of_attaches {sid : UInt64} (h : d.attaches x sid = true) : sid ≠ 0 ∧ Known d.srv sid := by
  obtain ⟨hFirst, hFound⟩ := Bool.and_eq_true_iff.mp h
  obtain ⟨s, hFind⟩ := Option.isSome_iff_exists.mp hFound
  obtain ⟨hIn, hId, hHere⟩ := findSession_spec hFind
  exact ⟨(of_decide_eq_true (Bool.and_eq_true_iff.mp hFirst).1).1, s, mem_listed.mpr ⟨hIn, hHere⟩, hId⟩

theorem known_of_attached {sid : UInt64} (h : sid ∈ d.attached x tree) : sid ≠ 0 ∧ Known d.srv sid :=
  known_of_attaches (List.of_mem_filter h)

theorem sids_onTree {root : Split} {next : Nat} (h : (tree.build (d.attaches x) next).1 = some root) :
    (EpimonePage.onTree root).sids = d.attached x tree := by
  have hSids := Node.sids_build (d.attaches x) tree next
  rw [h] at hSids
  exact hSids

theorem collectSessionIds_onTree {root : Split} {next : Nat} (h : (tree.build (d.attaches x) next).1 = some root) :
    root.collectSessionIds = d.attached x tree := by
  rw [Split.collectSessionIds_eq]
  refine (congrArg _ (sids_onTree h)).trans (List.filter_eq_self.mpr ?_)
  intro sid hSid
  exact decide_eq_true (known_of_attached hSid).1

theorem root_inGroup (page : EpimonePage) (group : Option UInt64) : (page.inGroup group).root = page.root := by
  cases group with
  | none => rfl
  | some gid => exact EpimonePage.root_adopt page gid

theorem le_nextGroupId_of_member {srv : Server} (h : Reached instanceId srv) {sid gid : Nat}
    (hMember : sid ∈ memberIds srv gid) : gid ≤ srv.nextGroupId := by
  obtain ⟨s, hs, _⟩ := List.mem_map.mp hMember
  obtain ⟨hIn, hHere, rfl⟩ := mem_groupMembers.mp hs
  rcases h.rostered.1.grouped s hIn hHere with hNone | hGroup
  · exact hNone.trans_le (Nat.zero_le _)
  · exact h.rostered.1.groups_le _ hGroup

theorem sound_restored {root : Split} {window next : Nat} {group : Option UInt64} (h : d.Trusted strict instanceId)
    (hBuild : tree.build (d.attaches x) d.nextTerminal = (some root, next)) (hFits : d.Fits strict x tree group)
    (hOff : d.OffScreen x tree) :
    Tab.Sound strict next d.srv d.tabs ⟨window, (EpimonePage.onTree root).inGroup group⟩ := by
  have hRoot : (tree.build (d.attaches x) d.nextTerminal).1 = some root := congrArg Prod.fst hBuild
  obtain ⟨_, hNumbers, hTerminals⟩ := tree.terminals_build (d.attaches x) d.nextTerminal
  rw [hBuild] at hNumbers hTerminals
  have hSids : ((EpimonePage.onTree root).inGroup group).sids = d.attached x tree := by
    rw [EpimonePage.sids, root_inGroup]
    exact sids_onTree hRoot
  have hSome : ∃ sid, sid ∈ d.attached x tree := by
    rw [← hSids, EpimonePage.sids, root_inGroup]
    exact List.exists_mem_of_ne_nil _ (List.map_eq_nil_iff.not.mpr (Split.panes_ne_nil root))
  constructor
  · rw [root_inGroup]
    have hOnce : (EpimonePage.onTree root).sids.Nodup := by
      rw [sids_onTree hRoot]
      exact hFits.once
    exact (hTerminals.and (List.pairwise_map.mp hOnce)).imp fun h => ⟨h.1, fun _ => h.2.symm⟩
  · rw [root_inGroup]
    exact fun pane hPane => (hNumbers pane hPane).2
  · rw [hSids]
    exact fun sid hSid => le_nextId_of_known h.reached (known_of_attached hSid).2
  · rw [hSids]
    exact fun _ sid hSid _ => (known_of_attached hSid).2
  · rw [hSids]
    intro sid hSid _ hMarked
    cases group with
    | none => cases hMarked
    | some gid =>
      change Within d.srv sid ((EpimonePage.onTree root).adopt gid).groupId.toNat
      rw [EpimonePage.groupId_adopt]
      exact (within_of_mem_memberIds h.reached (hFits.member gid rfl sid hSid)).2
  · cases group with
    | none => exact Nat.zero_le _
    | some gid =>
      change ((EpimonePage.onTree root).adopt gid).groupId.toNat ≤ _
      obtain ⟨sid, hSid⟩ := hSome
      rw [EpimonePage.groupId_adopt]
      exact le_nextGroupId_of_member h.reached (hFits.member gid rfl sid hSid)
  · rw [hSids]
    exact fun sid hSid _ => hOff sid hSid
  · intro hStrict hGroup u hu
    cases group with
    | none => exact absurd rfl hGroup
    | some gid =>
      change ((EpimonePage.onTree root).adopt gid).groupId ≠ 0 at hGroup
      change u.page.groupId ≠ ((EpimonePage.onTree root).adopt gid).groupId
      obtain ⟨sid, hSid⟩ := hSome
      rw [EpimonePage.groupId_adopt] at hGroup ⊢
      exact hFits.unlike hStrict gid rfl hGroup sid hSid u hu

theorem trusted_addTree {window : Nat} {finish : EpimonePage → EpimonePage} {group : Option UInt64}
    (h : d.Trusted strict instanceId) (hFits : d.Fits strict x tree group) (hOff : d.OffScreen x tree)
    (hFinish : ∀ root, (tree.build (d.attaches x) d.nextTerminal).1 = some root →
      finish (.onTree root) = (EpimonePage.onTree root).inGroup group) :
    (d.addTree x window tree finish).Trusted strict instanceId := by
  have hNext := (tree.terminals_build (d.attaches x) d.nextTerminal).1
  unfold Desk.addTree
  split
  · next next hBuild =>
    rw [hBuild] at hNext
    exact h.later hNext
  · next root next hBuild =>
    rw [hBuild] at hNext
    rw [hFinish root (congrArg Prod.fst hBuild)]
    have hSound : Tab.Sound strict next d.srv d.tabs ⟨window, (EpimonePage.onTree root).inGroup group⟩ :=
      sound_restored h hBuild hFits hOff
    exact ((h.later hNext).cons hSound).perm (List.perm_append_singleton _ _).symm

/-- What restore_group comes to build is the stored layout of a group with no member on screen. -/
theorem storedLayout_spec {blobTree : Bytes → Option Node} {gid : UInt64}
    (h : d.storedLayout x blobTree gid = some tree) :
    ∃ g ∈ d.srv.groups, g.id = gid.toNat ∧ blobTree g.blob = some tree ∧ d.findPageForMembers g.id = false := by
  unfold Desk.storedLayout at h
  split at h
  · cases h
  split at h
  · cases h
  next g hFound =>
  split at h
  · cases h
  next hHidden =>
  split at h
  · cases h
  next stored hTree =>
  split at h
  · cases h
    have hId : g.id = gid.toNat := by simpa using List.find?_some hFound
    exact ⟨g, List.mem_of_find?_eq_some hFound, hId, hTree, Bool.eq_false_iff.mpr (not_or.mp hHidden).1⟩
  · cases h

theorem offScreen_of_storedLayout {blobTree : Bytes → Option Node} {gid : UInt64}
    (hStored : d.storedLayout x blobTree gid = some tree)
    (hMember : ∀ sid ∈ d.attached x tree, sid.toNat ∈ memberIds d.srv gid.toNat) : d.OffScreen x tree := by
  intro sid hSid t ht hShown
  obtain ⟨g, _, hId, _, hHidden⟩ := storedLayout_spec hStored
  refine Bool.eq_false_iff.mp hHidden ?_
  obtain ⟨pane, hPane, hSame⟩ := List.mem_map.mp hShown
  refine List.any_eq_true.mpr ⟨sid.toNat, hId ▸ hMember sid hSid, List.any_eq_true.mpr ⟨pane, ?_, ?_⟩⟩
  · exact List.mem_flatMap.mpr ⟨t, ht, hPane⟩
  · rw [hSame, UInt64.ofNat_toNat, beq_self_eq_true, Bool.and_true]
    exact decide_eq_true (known_of_attached hSid).1

theorem trusted_restoreGroup {blobTree : Bytes → Option Node} {window : Nat} {gid : UInt64}
    (h : d.Trusted strict instanceId)
    (hFits : ∀ tree, d.storedLayout x blobTree gid = some tree → d.Fits strict x tree (some gid)) :
    (d.restoreGroup x blobTree window gid).Trusted strict instanceId := by
  unfold Desk.restoreGroup
  split
  · exact h
  · next tree hStored =>
    have hHere := hFits tree hStored
    exact trusted_addTree h hHere (offScreen_of_storedLayout hStored (hHere.member gid rfl)) fun _ _ => rfl

theorem adoptExistingGroup_onTree {root : Split} {next : Nat} (h : (tree.build (d.attaches x) next).1 = some root) :
    adoptExistingGroup (d.sessionGroups x) (.onTree root) = (EpimonePage.onTree root).inGroup (d.adopted x tree) := by
  have hIds : (EpimonePage.onTree root).root.collectSessionIds = d.attached x tree := collectSessionIds_onTree h
  unfold adoptExistingGroup Desk.adopted
  rw [hIds]
  dsimp only
  split <;> rfl

theorem trusted_restoreTab {tab : Nat × Node} (h : d.Trusted strict instanceId)
    (hFits : d.Fits strict x tab.2 (d.adopted x tab.2)) (hOff : d.OffScreen x tab.2) :
    (d.restoreTab x tab).Trusted strict instanceId := by
  exact trusted_addTree h hFits hOff fun root hBuild => adoptExistingGroup_onTree hBuild

theorem restoreTab_cases (d : Desk) (x : RestoreAnswers) (tab : Nat × Node) :
    (d.restoreTab x tab).srv = d.srv ∧ ∀ t ∈ (d.restoreTab x tab).tabs, t ∈ d.tabs ∨
      t.page.sids = d.attached x tab.2 ∧ (t.page.groupId ≠ 0 → t.page.groupId ∈ d.adopted x tab.2) := by
  unfold Desk.restoreTab Desk.addTree
  split
  · exact ⟨rfl, fun t ht => Or.inl ht⟩
  next root next hBuild =>
  have hRoot : (tab.2.build (d.attaches x) d.nextTerminal).1 = some root := congrArg Prod.fst hBuild
  refine ⟨rfl, fun t ht => (List.mem_append.mp ht).imp_right fun hNew => ?_⟩
  rw [List.mem_singleton.mp hNew]
  change (adoptExistingGroup (d.sessionGroups x) (.onTree root)).sids = _ ∧
    ((adoptExistingGroup (d.sessionGroups x) (.onTree root)).groupId ≠ 0 → _)
  rw [adoptExistingGroup_onTree hRoot, EpimonePage.sids, root_inGroup]
  refine ⟨sids_onTree hRoot, fun hSome => ?_⟩
  cases hGroup : d.adopted x tab.2 with
  | none =>
    rw [hGroup] at hSome
    exact absurd rfl hSome
  | some gid => exact congrArg some (EpimonePage.groupId_adopt _ gid).symm

theorem trusted_restoreFromV1 (tabs : List (Nat × Node)) (h : d.Trusted strict instanceId)
    (hFit : d.AllFit strict x tabs) :
    (tabs.foldl (fun d tab => d.restoreTab x tab) d).Trusted strict instanceId := by
  induction tabs generalizing d with
  | nil => exact h
  | cons tab tabs ih =>
    obtain ⟨hFits, hOff⟩ := hFit.each tab List.mem_cons_self
    obtain ⟨hFirst, hRest⟩ := List.pairwise_cons.mp hFit.others
    obtain ⟨hSrv, hTabs⟩ := restoreTab_cases d x tab
    have hAttached : ∀ tree, (d.restoreTab x tab).attached x tree = d.attached x tree := fun tree => by
      unfold Desk.attached Desk.attaches
      rw [hSrv]
    have hAdopted : ∀ tree, (d.restoreTab x tab).adopted x tree = d.adopted x tree := fun tree => by
      unfold Desk.adopted Desk.sessionGroups
      rw [hAttached, hSrv]
    refine ih (trusted_restoreTab h hFits hOff) ⟨fun later hLater => ?_, ?_⟩
    · obtain ⟨hFits', hOff'⟩ := hFit.each later (List.mem_cons_of_mem tab hLater)
      obtain ⟨hDisjoint, hUnlike⟩ := hFirst later hLater
      refine ⟨⟨?_, ?_, ?_⟩, ?_⟩
      · rw [hAttached]
        exact hFits'.once
      · rw [hAttached, hAdopted, hSrv]
        exact hFits'.member
      · rw [hAttached, hAdopted]
        intro hStrict gid hGid hSome sid hSid t ht hSame
        rcases hTabs t ht with hOld | ⟨_, hNew⟩
        · exact hFits'.unlike hStrict gid hGid hSome sid hSid t hOld hSame
        · subst hSame
          exact hUnlike hStrict t.page.groupId (hNew hSome) hGid
      · unfold Desk.OffScreen
        rw [hAttached]
        intro sid hSid t ht hShown
        rcases hTabs t ht with hOld | ⟨hNew, _⟩
        · exact hOff' sid hSid t hOld hShown
        · rw [hNew] at hShown
          exact hDisjoint hShown hSid
    · refine hRest.imp fun hPair => ?_
      rw [hAttached, hAttached, hAdopted, hAdopted]
      exact hPair

end Restores

def fittingGestures (strict : Prop) (blobTree : Bytes → Option Node) : Actions Desk Gesture :=
  ⟨Gesture.perform blobTree, fun d g => g.guard strict d ∧ g.Fits strict blobTree d⟩

section Runs

variable {strict : Prop} {instanceId : Nat} {blobTree : Bytes → Option Node} {d : Desk}

theorem trusted_perform {g : Gesture} (h : d.Trusted strict instanceId) (hGuard : g.guard strict d)
    (hFits : g.Fits strict blobTree d) : (g.perform blobTree d).Trusted strict instanceId := by
  cases g with
  | move m => exact trusted_move h hGuard.1 hGuard.2
  | restoreGroup window gid x => exact trusted_restoreGroup h hFits
  | restoreFromV1 tabs x =>
    change (d.restoreFromV1 x tabs).Trusted strict instanceId
    unfold Desk.restoreFromV1
    split
    · next hSessions => exact trusted_restoreFromV1 tabs h (hFits hSessions)
    · exact h

theorem trusted_opened {srv : Server} (h : Reached instanceId srv) : (Desk.opened srv).Trusted strict instanceId where
  reached := h
  tidy := nofun
  numbered := nofun
  issued := nofun
  known _ := nofun
  enrolled := nofun
  carried := nofun
  apart := .nil
  unlike _ := .nil

/-- In every run of fitting gestures the tabs know of the daemon what is so. -/
theorem trusted_run {srv : Server} (hFound : Reached instanceId srv)
    (h : (fittingGestures strict blobTree).Path (fun _ => True) (.opened srv) d) : d.Trusted strict instanceId := by
  refine h.invariant (P := fun d => d.Trusted strict instanceId) ?_ (trusted_opened hFound)
  rintro d g hTrusted ⟨hGuard, hFits⟩ _
  exact trusted_perform hTrusted hGuard hFits

end Runs

/-! A pass of the syncs in which every request is answered. -/

/-- The page can be written down, and no request of the sync is lost or refused on the way. -/
structure SyncAnswers.Succeeds (ans : SyncAnswers) : Prop where
  text : ans.text.isSome = true
  set : ans.set = .replied
  new : ans.new = .replied
  add : ∀ sid, ans.add sid = .replied

def EpimonePage.Complete (page : EpimonePage) : Prop :=
  ∀ sid ∈ page.sids, sid ≠ 0 → page.groupId ≠ 0 ∧ sid ∈ page.enrolled

section Pass

variable {ans : SyncAnswers} {srv : Server} {page : EpimonePage}

theorem enroll_replied {gid sid : UInt64} (hAdd : ans.add sid = .replied)
    (hGroup : (findGroup srv gid.toNat).isSome = true) :
    let next := enroll ans gid (srv, page) sid
    (Known srv sid → sid ∈ next.2.enrolled) ∧ page.enrolled ⊆ next.2.enrolled ∧ next.2.groupId = page.groupId ∧
      (findGroup next.1 gid.toNat).isSome = true ∧ ∀ i, Known next.1 i ↔ Known srv i := by
  unfold enroll
  dsimp only
  split
  · next hMarked => exact ⟨fun _ => hMarked, List.Subset.refl _, rfl, hGroup, fun _ => Iff.rfl⟩
  next hUnmarked =>
  obtain ⟨g, hFound⟩ := Option.isSome_iff_exists.mp hGroup
  rw [hAdd]
  cases hFind : findSession srv sid.toNat false with
  | none =>
    have hRefused : groupAdd srv gid sid = none := by
      rw [groupAdd, hFound, Option.bind_some, hFind, Option.map_none]
    rw [hRefused]
    refine ⟨?_, List.Subset.refl _, rfl, hGroup, fun _ => Iff.rfl⟩
    rintro ⟨s, hListed, hId⟩
    have hMatch := List.find?_eq_none.mp hFind s (mem_listed.mp hListed).1
    simp [hId, (mem_listed.mp hListed).2] at hMatch
  | some s =>
    have hGranted : groupAdd srv gid sid = some ((Act.move s gid.toNat).perform srv) := by
      rw [groupAdd, hFound, Option.bind_some, hFind, Option.map_some]
    have hMark : page.markEnrolled sid = { page with enrolled := sid :: page.enrolled } := if_neg hUnmarked
    rw [hGranted]
    dsimp only [Delivery.carry]
    rw [hMark]
    refine ⟨fun _ => List.mem_cons_self, List.subset_cons_self _ _, rfl, findGroup_moveSession hGroup, fun i => ?_⟩
    exact known_sync_iff (Or.inr (Or.inr ⟨_, _, rfl⟩))

theorem enrollAll_replied (ids : List UInt64) {gid : UInt64} (hAdd : ∀ sid ∈ ids, ans.add sid = .replied)
    (hGroup : (findGroup srv gid.toNat).isSome = true) :
    let next := ids.foldl (enroll ans gid) (srv, page)
    (∀ sid ∈ ids, Known srv sid → sid ∈ next.2.enrolled) ∧ page.enrolled ⊆ next.2.enrolled ∧
      next.2.groupId = page.groupId ∧ ∀ i, Known next.1 i ↔ Known srv i := by
  induction ids generalizing srv page with
  | nil => exact ⟨fun _ => nofun, List.Subset.refl _, rfl, fun _ => Iff.rfl⟩
  | cons sid ids ih =>
    obtain ⟨hHere, hKept, hSame, hStill, hKnown⟩ := @enroll_replied ans srv page gid sid
      (hAdd sid List.mem_cons_self) hGroup
    obtain ⟨hRest, hOn, hGid, hAll⟩ := ih (fun i hi => hAdd i (List.mem_cons_of_mem sid hi)) hStill
    rw [List.foldl_cons]
    refine ⟨?_, fun i hi => hOn (hKept hi), hGid.trans hSame, fun i => (hAll i).trans (hKnown i)⟩
    intro i hi hIn
    rcases List.mem_cons.mp hi with rfl | hLater
    · exact hOn (hHere hIn)
    · exact hRest i hLater ((hKnown i).mpr hIn)

theorem toNat_nextGroup (hCounter : srv.nextGroupId + 1 < 2 ^ 64) :
    (UInt64.ofNat (srv.nextGroupId + 1)).toNat = srv.nextGroupId + 1 ∧ UInt64.ofNat (srv.nextGroupId + 1) ≠ 0 := by
  have hNat : (UInt64.ofNat (srv.nextGroupId + 1)).toNat = srv.nextGroupId + 1 := UInt64.toNat_ofNat_of_lt' hCounter
  refine ⟨hNat, fun hZero => ?_⟩
  rw [hZero] at hNat
  exact absurd hNat (by simp)

theorem grouped_replied (hSet : ans.set = .replied) (hNew : ans.new = .replied) (text : Bytes)
    (hCounter : srv.nextGroupId + 1 < 2 ^ 64) :
    let update := updateGroup ans text srv page
    let create := createGroup ans text update.1 update.2
    page.groupId ≠ 0 ∧ (findGroup srv page.groupId.toNat).isSome = true ∧
        create = ((Act.setBlob page.groupId.toNat text).perform srv, page) ∨
      (page.groupId = 0 ∨ findGroup srv page.groupId.toNat = none) ∧
        create = ((Act.newGroup ⟨0, text, ans.now⟩).perform srv,
          { page with groupId := .ofNat (srv.nextGroupId + 1), enrolled := [] }) := by
  have hCreate : ∀ page' : EpimonePage, page'.groupId = 0 → createGroup ans text srv page' =
      ((Act.newGroup ⟨0, text, ans.now⟩).perform srv,
        { page' with groupId := .ofNat (srv.nextGroupId + 1), enrolled := [] }) := by
    intro page' hNone
    have hOther : page'.groupId ≠ .ofNat (srv.nextGroupId + 1) := hNone ▸ (toNat_nextGroup hCounter).2.symm
    have hPage : page'.setGroupId (.ofNat (srv.nextGroupId + 1)) =
        { page' with groupId := .ofNat (srv.nextGroupId + 1), enrolled := [] } := if_neg hOther
    rw [← hPage, createGroup, if_neg (not_not.mpr hNone), hNew]
    rfl
  dsimp only
  rcases eq_or_ne page.groupId 0 with hNone | hSome
  · have hUpdate : updateGroup ans text srv page = (srv, page) := if_pos hNone
    rw [hUpdate]
    exact Or.inr ⟨Or.inl hNone, hCreate page hNone⟩
  cases hFound : findGroup srv page.groupId.toNat with
  | none =>
    have hReset : page.setGroupId 0 = { page with groupId := 0, enrolled := [] } := if_neg hSome
    have hUpdate : updateGroup ans text srv page = (srv, { page with groupId := 0, enrolled := [] }) := by
      rw [updateGroup, if_neg hSome, hSet, groupSet, hFound, ← hReset]
      rfl
    rw [hUpdate]
    exact Or.inr ⟨Or.inr rfl, hCreate _ rfl⟩
  | some g =>
    have hUpdate : updateGroup ans text srv page = ((Act.setBlob page.groupId.toNat text).perform srv, page) := by
      rw [updateGroup, if_neg hSome, hSet, groupSet, hFound]
      rfl
    rw [hUpdate]
    exact Or.inl ⟨hSome, rfl, if_pos hSome⟩

/-- A sync that succeeds: the layout is stored, and then each session is enrolled. -/
theorem syncPageGroup_replied (hSet : ans.set = .replied) (hNew : ans.new = .replied) {text : Bytes}
    (hText : ans.text = some text) (hCounter : srv.nextGroupId + 1 < 2 ^ 64) (hZoom : page.zoomed = false)
    (hSome : page.root.collectSessionIds ≠ []) : ∃ srv' page',
      (page.groupId ≠ 0 ∧ (findGroup srv page.groupId.toNat).isSome = true ∧
          (srv', page') = ((Act.setBlob page.groupId.toNat text).perform srv, page) ∨
        (page.groupId = 0 ∨ findGroup srv page.groupId.toNat = none) ∧
          (srv', page') = ((Act.newGroup ⟨0, text, ans.now⟩).perform srv,
            { page with groupId := .ofNat (srv.nextGroupId + 1), enrolled := [] })) ∧
      page'.groupId ≠ 0 ∧ (findGroup srv' page'.groupId.toNat).isSome = true ∧ (∀ sid, Known srv' sid ↔ Known srv sid) ∧
      syncPageGroup ans srv page = page.root.collectSessionIds.foldl (enroll ans page'.groupId) (srv', page') := by
  have hCases := @grouped_replied ans srv page hSet hNew text hCounter
  dsimp only at hCases
  generalize hCreate : createGroup ans text (updateGroup ans text srv page).1 (updateGroup ans text srv page).2 = create
    at hCases
  have hGroup : create.2.groupId ≠ 0 ∧ (findGroup create.1 create.2.groupId.toNat).isSome = true ∧
      ∀ sid, Known create.1 sid ↔ Known srv sid := by
    rcases hCases with ⟨hOld, hFound, rfl⟩ | ⟨_, rfl⟩
    · refine ⟨hOld, ?_, fun sid => Iff.rfl⟩
      rw [findGroup_isSome] at hFound ⊢
      rw [List.contains_iff_mem] at hFound ⊢
      obtain ⟨g, hg, hId⟩ := List.mem_map.mp hFound
      refine List.mem_map.mpr ⟨_, List.mem_map_of_mem hg, ?_⟩
      dsimp only
      split <;> exact hId
    · obtain ⟨hNat, hNonzero⟩ := toNat_nextGroup hCounter
      refine ⟨hNonzero, ?_, fun sid => Iff.rfl⟩
      rw [findGroup_isSome, List.contains_iff_mem, hNat]
      exact List.mem_cons_self
  refine ⟨create.1, create.2, hCases, hGroup.1, hGroup.2.1, hGroup.2.2, ?_⟩
  unfold syncPageGroup
  rw [hZoom, if_neg Bool.false_ne_true]
  dsimp only
  split
  · next hNone => exact absurd hNone hSome
  · next hNone _ =>
    rw [hText] at hNone
    cases hNone
  · next text' hText' _ =>
    rw [hText] at hText'
    cases hText'
    rw [hCreate, if_neg hGroup.1]

/-- A zoomed page is not stored, nor one without a session or one that cannot be printed. -/
theorem syncPageGroup_quiet (h : page.zoomed = true ∨ page.root.collectSessionIds = [] ∨ ans.text = none) :
    syncPageGroup ans srv page = (srv, page) := by
  unfold syncPageGroup
  split
  · rfl
  next hZoom =>
  dsimp only
  split
  · rfl
  · rfl
  next text hText hSome =>
  rcases h with hZoomed | hNone | hPrinted
  · exact absurd hZoomed hZoom
  · exact absurd hNone hSome
  · rw [hText] at hPrinted
    cases hPrinted

theorem enrollAll_keeps (ans : SyncAnswers) (gid : UInt64) (ids : List UInt64) (state : Server × EpimonePage) :
    (ids.foldl (enroll ans gid) state).2.root = state.2.root ∧
      (ids.foldl (enroll ans gid) state).2.zoomed = state.2.zoomed ∧
      (ids.foldl (enroll ans gid) state).1.nextGroupId = state.1.nextGroupId := by
  induction ids generalizing state with
  | nil => exact ⟨rfl, rfl, rfl⟩
  | cons sid ids ih =>
    have hOne : (enroll ans gid state sid).2.root = state.2.root ∧
      (enroll ans gid state sid).2.zoomed = state.2.zoomed ∧
        (enroll ans gid state sid).1.nextGroupId = state.1.nextGroupId := by
      rcases enroll_cases ans state.1 state.2 gid sid with hSame | ⟨s, _, _, hMoved, hPage⟩
      · rw [hSame]
        exact ⟨rfl, rfl, rfl⟩
      · have hNext : ((Act.move s gid.toNat).perform state.1).nextGroupId = state.1.nextGroupId := by
          simp only [Act.perform, moveSession_eq]
          rfl
        rcases hPage with hSame | hMarked
        · exact ⟨congrArg EpimonePage.root hSame, congrArg EpimonePage.zoomed hSame, (congrArg _ hMoved).trans hNext⟩
        · refine ⟨(congrArg EpimonePage.root hMarked).trans (EpimonePage.root_markEnrolled sid), ?_,
            (congrArg _ hMoved).trans hNext⟩
          refine (congrArg EpimonePage.zoomed hMarked).trans ?_
          unfold EpimonePage.markEnrolled
          split <;> rfl
    obtain ⟨hRoot, hZoomed, hNext⟩ := ih (enroll ans gid state sid)
    exact ⟨hRoot.trans hOne.1, hZoomed.trans hOne.2.1, hNext.trans hOne.2.2⟩

theorem complete_sync (hAns : ans.Succeeds) (hCounter : srv.nextGroupId + 1 < 2 ^ 64) (hZoom : page.zoomed = false)
    (hKnown : ∀ sid ∈ page.sids, sid ≠ 0 → Known srv sid) : (syncPageGroup ans srv page).2.Complete := by
  obtain ⟨text, hText⟩ := Option.isSome_iff_exists.mp hAns.text
  rcases eq_or_ne page.root.collectSessionIds [] with hNone | hSome
  · rw [syncPageGroup_quiet (Or.inr (Or.inl hNone))]
    intro sid hSid hNonzero
    have hIn := Split.mem_collectSessionIds.mpr ⟨hNonzero, hSid⟩
    rw [hNone] at hIn
    cases hIn
  obtain ⟨srv', page', hCases, hGroup, hFound, hKept, hSync⟩ :=
    syncPageGroup_replied hAns.set hAns.new hText hCounter hZoom hSome
  have hRoot : page'.root = page.root := by
    rcases hCases with ⟨_, _, hSame⟩ | ⟨_, hSame⟩ <;> cases hSame <;> rfl
  obtain ⟨hMarked, _, hGid, _⟩ := @enrollAll_replied ans srv' page' page.root.collectSessionIds page'.groupId
    (fun sid _ => hAns.add sid) hFound
  intro sid hSid hNonzero
  rw [hSync] at hSid ⊢
  rw [EpimonePage.sids, (enrollAll_keeps ans _ _ _).1, hRoot] at hSid
  have hIn := Split.mem_collectSessionIds.mpr ⟨hNonzero, hSid⟩
  exact ⟨hGid.trans_ne hGroup, hMarked sid hIn ((hKept sid).mpr (hKnown sid hSid hNonzero))⟩

theorem sync_keeps (ans : SyncAnswers) (srv : Server) (page : EpimonePage) :
    (syncPageGroup ans srv page).2.zoomed = page.zoomed ∧
      (syncPageGroup ans srv page).1.nextGroupId ≤ srv.nextGroupId + 1 := by
  have hGroup : ∀ gid, (page.setGroupId gid).zoomed = page.zoomed := fun gid => by
    unfold EpimonePage.setGroupId
    split <;> rfl
  have hCreate : ∀ text,
      (createGroup ans text (updateGroup ans text srv page).1 (updateGroup ans text srv page).2).2.zoomed =
        page.zoomed ∧
      (createGroup ans text (updateGroup ans text srv page).1
        (updateGroup ans text srv page).2).1.nextGroupId ≤ srv.nextGroupId + 1 := by
    intro text
    have hUpdate : (updateGroup ans text srv page).2.zoomed = page.zoomed := by
      rcases (updateGroup_cases ans text srv page).2 with hSame | hReset
      · rw [hSame]
      · rw [hReset, hGroup]
    rw [← (updateGroup_srv ans text srv page).2]
    rcases createGroup_cases ans text (updateGroup ans text srv page).1 (updateGroup ans text srv page).2 with
      hSame | ⟨_, hNew, hPage⟩
    · rw [hSame]
      exact ⟨hUpdate, Nat.le_succ _⟩
    · rw [hNew]
      refine ⟨?_, Nat.le_refl _⟩
      rcases hPage with hSame | hTaken
      · rw [hSame, hUpdate]
      · rw [hTaken, ← hUpdate]
        unfold EpimonePage.setGroupId
        split <;> rfl
  unfold syncPageGroup
  split
  · exact ⟨rfl, Nat.le_succ _⟩
  dsimp only
  split
  · exact ⟨rfl, Nat.le_succ _⟩
  · exact ⟨rfl, Nat.le_succ _⟩
  split
  · exact hCreate _
  · obtain ⟨_, hZoomed, hNext⟩ := enrollAll_keeps ans _ page.root.collectSessionIds _
    exact ⟨hZoomed.trans (hCreate _).1, hNext.trans_le (hCreate _).2⟩

end Pass

def Desk.syncGroupsNow (d : Desk) (order : List (Nat × SyncAnswers)) : Desk :=
  order.foldl (fun d e => (Move.sync e.1 e.2).perform d) d

/-- A pass over all tabs in which every request succeeds and no page is zoomed. -/
structure Desk.Pass (d : Desk) (order : List (Nat × SyncAnswers)) : Prop where
  all : ∀ i < d.tabs.length, ∃ ans, (i, ans) ∈ order
  unzoomed : ∀ t ∈ d.tabs, t.page.zoomed = false
  succeeds : ∀ e ∈ order, e.2.Succeeds
  counter : d.srv.nextGroupId + order.length < 2 ^ 64

/-- Each session on screen is a member of the group of its page, which the daemon has, and of no other; and
no two tabs carry the same group. -/
structure Desk.Enrolled (d : Desk) : Prop where
  member : ∀ t ∈ d.tabs, ∀ sid ∈ t.page.sids, sid ≠ 0 →
    (∃ g ∈ d.srv.groups, g.id = t.page.groupId.toNat) ∧
      ∀ gid, sid.toNat ∈ memberIds d.srv gid ↔ gid = t.page.groupId.toNat
  unlike : d.tabs.Pairwise fun t u => t.page.groupId ≠ 0 → u.page.groupId ≠ t.page.groupId

section Syncs

variable {instanceId : Nat} {d : Desk}

/-- Where the tabs know what is so, and have all their sessions marked, the daemon has them there. -/
theorem enrolled_of_complete (h : d.Trusted True instanceId) (hComplete : ∀ t ∈ d.tabs, t.page.Complete) :
    d.Enrolled := by
  refine ⟨fun t ht sid hSid hSome => ?_, h.unlike trivial⟩
  obtain ⟨hGroup, hMarked⟩ := hComplete t ht sid hSid hSome
  have hKnown := h.known trivial t ht sid hSid hSome
  have hWithin := h.enrolled t ht sid hSid hSome hMarked
  have hNonzero : t.page.groupId.toNat ≠ 0 := fun hZero => hGroup (UInt64.toNat_inj.mp hZero)
  obtain ⟨s, hListed, hId⟩ := hKnown
  obtain ⟨hIn, hHere⟩ := mem_listed.mp hListed
  have hOf := hWithin s hListed hId
  constructor
  · rcases h.reached.rostered.1.grouped s hIn hHere with hNone | hFound
    · exact absurd (hOf.symm.trans hNone) hNonzero
    · obtain ⟨g, hg, hSame⟩ := List.mem_map.mp hFound
      exact ⟨g, hg, hSame.trans hOf⟩
  · intro gid
    constructor
    · intro hMember
      have hThere := (within_of_mem_memberIds h.reached hMember).2
      exact (hThere s hListed hId).symm.trans hOf
    · rintro rfl
      exact mem_memberIds_of_within ⟨s, hListed, hId⟩ hWithin

theorem complete_perform {i : Nat} {ans : SyncAnswers} (h : d.Trusted True instanceId) (hAns : ans.Succeeds)
    (hUnzoomed : ∀ t ∈ d.tabs, t.page.zoomed = false) (hCounter : d.srv.nextGroupId + 1 < 2 ^ 64) :
    let next := (Move.sync i ans).perform d
    next.Trusted True instanceId ∧ next.tabs.length = d.tabs.length ∧ next.srv.nextGroupId ≤ d.srv.nextGroupId + 1 ∧
      (∀ t ∈ next.tabs, t.page.zoomed = false) ∧
        ∀ j t, next.tabs[j]? = some t → j = i ∧ t.page.Complete ∨ d.tabs[j]? = some t ∧ j ≠ i := by
  refine ⟨trusted_move (m := .sync i ans) h trivial hCounter, ?_⟩
  cases hTab : d.tabs[i]? with
  | none =>
    have hSame : (Move.sync i ans).perform d = d := by
      simp only [Move.perform, Desk.withTab, hTab]
    rw [hSame]
    refine ⟨rfl, Nat.le_succ _, hUnzoomed, fun j t ht => Or.inr ⟨ht, ?_⟩⟩
    rintro rfl
    rw [hTab] at ht
    cases ht
  | some t =>
    have ht : t ∈ d.tabs := List.mem_of_getElem? hTab
    have hSync : (Move.sync i ans).perform d = { d.setPage i t (syncPageGroup ans d.srv t.page).2 with
        srv := (syncPageGroup ans d.srv t.page).1 } := by
      simp only [Move.perform, Desk.withTab, hTab]
    obtain ⟨hZoomed, hNext⟩ := sync_keeps ans d.srv t.page
    rw [hSync]
    refine ⟨List.length_set, hNext, ?_, ?_⟩
    · intro u hu
      rcases List.mem_or_eq_of_mem_set hu with hOld | rfl
      · exact hUnzoomed u hOld
      · exact hZoomed.trans (hUnzoomed t ht)
    · intro j u hu
      rcases eq_or_ne j i with rfl | hOther
      · have hHere : (d.tabs.set j { t with page := (syncPageGroup ans d.srv t.page).2 })[j]? = some u := hu
        rw [List.getElem?_set_self (List.getElem?_eq_some_iff.mp hTab).1] at hHere
        cases hHere
        exact Or.inl ⟨rfl, complete_sync hAns hCounter (hUnzoomed t ht) fun sid hSid hSome =>
          h.known trivial t ht sid hSid hSome⟩
      · have hElse : (d.tabs.set i { t with page := (syncPageGroup ans d.srv t.page).2 })[j]? = some u := hu
        rw [List.getElem?_set_ne hOther.symm] at hElse
        exact Or.inr ⟨hElse, hOther⟩

theorem complete_syncs (order : List (Nat × SyncAnswers)) (h : d.Trusted True instanceId)
    (hUnzoomed : ∀ t ∈ d.tabs, t.page.zoomed = false) (hSucceeds : ∀ e ∈ order, e.2.Succeeds)
    (hCounter : d.srv.nextGroupId + order.length < 2 ^ 64)
    (hAll : ∀ j t, d.tabs[j]? = some t → t.page.Complete ∨ ∃ ans, (j, ans) ∈ order) :
    (d.syncGroupsNow order).Trusted True instanceId ∧ ∀ t ∈ (d.syncGroupsNow order).tabs, t.page.Complete := by
  induction order generalizing d with
  | nil =>
    refine ⟨h, fun t ht => ?_⟩
    obtain ⟨j, hj⟩ := List.getElem?_of_mem ht
    exact (hAll j t hj).resolve_right (by simp)
  | cons e order ih =>
    rw [List.length_cons] at hCounter
    obtain ⟨hTrusted, _, hNext, hZoomed, hTabs⟩ := @complete_perform instanceId d e.1 e.2 h
      (hSucceeds e List.mem_cons_self) hUnzoomed (by omega)
    have hLater : ((Move.sync e.1 e.2).perform d).srv.nextGroupId + order.length < 2 ^ 64 := by omega
    refine ih hTrusted hZoomed (fun e' he => hSucceeds e' (List.mem_cons_of_mem e he)) hLater ?_
    intro j t hj
    rcases hTabs j t hj with ⟨_, hComplete⟩ | ⟨hOld, hOther⟩
    · exact Or.inl hComplete
    · refine (hAll j t hOld).imp_right ?_
      rintro ⟨ans, hIn⟩
      rcases List.mem_cons.mp hIn with rfl | hThere
      · exact absurd rfl hOther
      · exact ⟨ans, hThere⟩

/-- In every run of gestures whose restores fit, a pass of the syncs leaves every session on screen in the
group of its tab. -/
theorem membership_follows_tabs {blobTree : Bytes → Option Node} {srv : Server} (hFound : Reached instanceId srv)
    (h : (fittingGestures True blobTree).Path (fun _ => True) (.opened srv) d) {order : List (Nat × SyncAnswers)}
    (hPass : d.Pass order) : (d.syncGroupsNow order).Enrolled := by
  obtain ⟨hTrusted, hComplete⟩ := complete_syncs order (trusted_run hFound h) hPass.unzoomed
    hPass.succeeds hPass.counter
    fun j t hj => Or.inr (hPass.all j (List.getElem?_eq_some_iff.mp hj).1)
  exact enrolled_of_complete hTrusted hComplete

end Syncs

/-! Two panes in one tab, and the pane that is moved out before its old tab is closed. -/

/-- The blobs of a tab with sessions 1 and 2 side by side, and of a tab with session 2. -/
def blobOfBoth : Bytes := ascii ("(uint32 3, uint64 2, '', <('split', 'h', 0.5, <('leaf', uint64 1)>, " ++
  "<('leaf', uint64 2)>)>, uint16 80, uint16 24, '')")

def blobOfSecond : Bytes := ascii "(uint32 3, uint64 2, '', <('leaf', uint64 2)>, uint16 80, uint16 24, '')"

def printedTree (blob : Bytes) : Option Node :=
  if blob = blobOfBoth then some (.paned (.leaf 1) (.leaf 2))
  else if blob = blobOfSecond then some (.leaf 2)
  else none

def syncWith (text : Bytes) : SyncAnswers := { calmSync with text := some text }

theorem succeeds_syncWith (text : Bytes) : (syncWith text).Succeeds := ⟨rfl, rfl, rfl, fun _ => rfl⟩

def calmRestore : RestoreAnswers := ⟨true, true, true, fun _ => true⟩

/-- A tab is opened and split, and stored with both panes. -/
def pairing : List Gesture :=
  [.move (shellCreated 100), .move (shellCreated 101), .move (.newTab 0 (some 0)), .move (.split 0 (some 1)),
    .move (.sync 0 (syncWith blobOfBoth))]

/-- The second pane moves to a tab of its own, and the old tab is closed before the next sync. -/
def movingOut : List Gesture :=
  [.move (.openInNewTab 0), .move (.closeTab 0), .move (.sync 0 (syncWith blobOfSecond))]

def deskOf (gestures : List Gesture) : Desk :=
  gestures.foldl (Gesture.perform printedTree) (.opened (Server.initial 7))

theorem guard_sync {strict : Prop} {d : Desk} (i : Nat) (ans : SyncAnswers) (h : d.srv.nextGroupId + 1 < 2 ^ 64) :
    (Gesture.move (.sync i ans)).guard strict d := ⟨trivial, h⟩

theorem enabled_pairing {strict : Prop} :
    (fittingGestures strict printedTree).Enabled (.opened (Server.initial 7)) pairing := by
  have hStarted : ((deskOf (pairing.take 2)).Fresh (some 0) ∧ (deskOf (pairing.take 2)).Unheard (some 0)) ∧
      ((deskOf (pairing.take 3)).Fresh (some 1) ∧ (deskOf (pairing.take 3)).Unheard (some 1)) ∧
        (deskOf (pairing.take 4)).srv.nextGroupId + 1 < 2 ^ 64 ∧
          (deskOf (pairing.take 0)).srv.childOf 100 = none ∧ (deskOf (pairing.take 1)).srv.childOf 101 = none := by
    decide +kernel
  obtain ⟨hFirst, hSecond, hCounter, hNone, hOther⟩ := hStarted
  refine Actions.enabled_of_take pairing ?_
  rintro (_ | _ | _ | _ | _ | i) hi
  · exact ⟨⟨⟨⟨by decide, hNone, fresh_shell 100⟩, by simp⟩, fun _ => nofun⟩, trivial⟩
  · exact ⟨⟨⟨⟨by decide, hOther, fresh_shell 101⟩, by simp⟩, fun _ => nofun⟩, trivial⟩
  · exact ⟨hFirst, trivial⟩
  · exact ⟨hSecond, trivial⟩
  · exact ⟨guard_sync 0 _ hCounter, trivial⟩
  · exact absurd hi (by simp [pairing])

/-- The tab is closed and restored from its group. -/
def restoring : List Gesture := [.move (.closeTab 0), .restoreGroup 0 1 calmRestore]

theorem fits_restoring : (Gesture.restoreGroup 0 1 calmRestore).Fits True printedTree
    (deskOf (pairing ++ restoring.take 1)) := by
  have hClosed : (deskOf (pairing ++ restoring.take 1)).storedLayout calmRestore printedTree 1 =
        some (.paned (.leaf 1) (.leaf 2)) ∧
      (deskOf (pairing ++ restoring.take 1)).attached calmRestore (.paned (.leaf 1) (.leaf 2)) = [1, 2] ∧
      (deskOf (pairing ++ restoring.take 1)).tabs = [] ∧
      (([1, 2] : List UInt64).all fun sid =>
        sid.toNat ∈ memberIds (deskOf (pairing ++ restoring.take 1)).srv (1 : UInt64).toNat) = true := by decide +kernel
  obtain ⟨hTree, hAttached, hTabs, hMembers⟩ := hClosed
  intro tree hStored
  rw [hTree] at hStored
  cases hStored
  constructor
  · rw [hAttached]
    decide
  · rw [hAttached]
    rintro gid ⟨⟩ sid hSid
    exact of_decide_eq_true (List.all_eq_true.mp hMembers sid hSid)
  · rw [hTabs]
    exact fun _ _ _ _ _ _ => nofun

theorem path_restoring :
    (fittingGestures True printedTree).Path (fun _ => True) (.opened (Server.initial 7))
      (deskOf (pairing ++ restoring)) := by
  have hFits := fits_restoring
  rw [deskOf, List.foldl_append] at hFits ⊢
  refine .trans (.of_enabled pairing enabled_pairing) (.of_enabled restoring (Actions.enabled_of_take restoring ?_))
  rintro (_ | _ | i) hi
  · exact ⟨⟨trivial, trivial⟩, trivial⟩
  · exact ⟨trivial, hFits⟩
  · exact absurd hi (by simp [restoring])

def passOver (text : Bytes) : List (Nat × SyncAnswers) := [(0, syncWith text)]

theorem pass_passOver {d : Desk} {text : Bytes} (hLength : d.tabs.length = 1)
    (hUnzoomed : ∀ t ∈ d.tabs, t.page.zoomed = false)
    (hCounter : d.srv.nextGroupId + 1 < 2 ^ 64) : d.Pass (passOver text) := by
  refine ⟨fun i hi => ⟨syncWith text, ?_⟩, hUnzoomed, ?_, hCounter⟩
  · rw [hLength, Nat.lt_one_iff] at hi
    rw [hi]
    exact List.mem_cons_self
  · intro e he
    rw [List.mem_singleton.mp he]
    exact succeeds_syncWith text

/-- The restored tab: the pass finds both sessions in the group. -/
theorem membership_follows_restored :
    (deskOf (pairing ++ restoring)).tabs.map (fun t => (t.page.groupId, t.page.sids)) = [(1, [1, 2])] ∧
      ((deskOf (pairing ++ restoring)).syncGroupsNow (passOver blobOfBoth)).Enrolled := by
  have hRestored : (deskOf (pairing ++ restoring)).tabs.map (fun t => (t.page.groupId, t.page.sids)) = [(1, [1, 2])] ∧
      (deskOf (pairing ++ restoring)).tabs.length = 1 ∧
      (∀ t ∈ (deskOf (pairing ++ restoring)).tabs, t.page.zoomed = false) ∧
      (deskOf (pairing ++ restoring)).srv.nextGroupId + 1 < 2 ^ 64 := by decide +kernel
  obtain ⟨hTabs, hLength, hUnzoomed, hCounter⟩ := hRestored
  exact ⟨hTabs, membership_follows_tabs (.refl _) path_restoring (pass_passOver hLength hUnzoomed hCounter)⟩

/-- The daemon once both tabs are closed: the layout of the first group names a session of the second. -/
def misnamed : Server := (deskOf (pairing ++ movingOut)).srv

theorem path_movingOut {strict : Prop} :
    (fittingGestures strict printedTree).Path (fun _ => True) (.opened (Server.initial 7))
      (deskOf (pairing ++ movingOut)) := by
  have hSync : (Gesture.move (.sync 0 (syncWith blobOfSecond))).guard strict (deskOf (pairing ++ movingOut.take 2)) :=
    guard_sync 0 _ (by decide +kernel)
  rw [deskOf, List.foldl_append] at hSync ⊢
  refine .trans (.of_enabled pairing enabled_pairing) (.of_enabled movingOut (Actions.enabled_of_take movingOut ?_))
  rintro (_ | _ | _ | i) hi
  · exact ⟨⟨trivial, trivial⟩, trivial⟩
  · exact ⟨⟨trivial, trivial⟩, trivial⟩
  · exact ⟨hSync, trivial⟩
  · exact absurd hi (by simp [movingOut])

/-- The first group is restored, and the pane of the second session is not pulled in by the next sync. -/
theorem restored_pane_elsewhere :
    let d := (Gesture.restoreGroup 0 1 calmRestore).perform printedTree (.opened misnamed)
    Reached 7 misnamed ∧ d.Pass (passOver blobOfBoth) ∧ ¬ (d.syncGroupsNow (passOver blobOfBoth)).Enrolled := by
  have hRestored : let d := (Gesture.restoreGroup 0 1 calmRestore).perform printedTree (.opened misnamed)
      d.tabs.length = 1 ∧ (∀ t ∈ d.tabs, t.page.zoomed = false) ∧ d.srv.nextGroupId + 1 < 2 ^ 64 ∧
        ∃ t ∈ (d.syncGroupsNow (passOver blobOfBoth)).tabs, (2 : UInt64) ∈ t.page.sids ∧ (2 : UInt64).toNat ∉
          memberIds (d.syncGroupsNow (passOver blobOfBoth)).srv t.page.groupId.toNat := by decide +kernel
  obtain ⟨hLength, hUnzoomed, hCounter, t, ht, hShown, hNot⟩ := hRestored
  have hReached : Reached 7 misnamed := (@trusted_run True 7 _ _ _ (.refl _) path_movingOut).reached
  refine ⟨hReached, pass_passOver hLength hUnzoomed hCounter, fun hEnrolled => ?_⟩
  exact hNot (((hEnrolled.member t ht 2 hShown (by decide)).2 _).mpr rfl)

end Epimone.Client
