import Epimone.Client.Windows
import Mathlib.Data.List.Perm.Basic

/-! # Kill in this window

What a sync and the moves of panes make of the groups, and when the sessions of
a window's groups are those that the window shows. A pane that is closed leaves
its session in the group, and the next kill in the window takes it along.
-/
set_option autoImplicit false

namespace Epimone.Client

open Daemon Transition Program

variable {srv : Server}

theorem mem_enrolledUnder {key : Nat} {sid : UInt64} :
    sid ∈ enrolledUnder srv key ↔ ∃ s ∈ listed srv, (srv.sess s).groupId ≠ 0 ∧
      lowWord (srv.sess s).groupId = key ∧ .ofNat (srv.sess s).id = sid := by
  simp [enrolledUnder, and_assoc]

theorem enrolledUnder_perform {a : Act} (hLinks : srv.links.Consistent) (hGuard : a.guard srv) {key : Nat}
    {sid : UInt64} (h : sid ∈ enrolledUnder (a.perform srv) key) :
    sid ∈ enrolledUnder srv key ∨ ∃ s gid, a = .move s gid ∧ s ∈ listed srv ∧ lowWord gid = key ∧
      .ofNat (srv.sess s).id = sid := by
  obtain ⟨s, hListed, hSome, hKey, hSid⟩ := mem_enrolledUnder.mp h
  obtain ⟨hBefore, hId, hGroup⟩ := stayed_perform hLinks hGuard hListed hSome
  rw [hId] at hSid
  rcases hGroup with hSame | hMove
  · rw [hSame] at hSome hKey
    exact Or.inl (mem_enrolledUnder.mpr ⟨s, hBefore, hSome, hKey, hSid⟩)
  · exact Or.inr ⟨s, _, hMove, hBefore, hKey, hSid⟩

theorem lowWord_ofNat (n : Nat) : lowWord (UInt64.ofNat n).toNat = lowWord n := by
  rw [lowWord, lowWord, UInt64.toNat_ofNat']
  exact Nat.mod_mod_of_dvd n (by decide)

theorem granted_of_carry {delivery : Delivery} {granted : Option Server} {srv' : Server}
    (h : delivery.carry srv granted = (srv', true)) : granted = some srv' := by
  cases granted with
  | none => cases delivery <;> cases h
  | some carried =>
    cases delivery with
    | refused | lost => cases h
    | replied =>
      cases h
      rfl

/-- An update of the blob leaves the members and the counter of the groups alone. -/
theorem updateGroup_srv (ans : SyncAnswers) (text : Bytes) (srv : Server) (page : EpimonePage) :
    enrolledUnder (updateGroup ans text srv page).1 = enrolledUnder srv ∧
      (updateGroup ans text srv page).1.nextGroupId = srv.nextGroupId := by
  have hCarry : ∀ srv' taken, ans.set.carry srv (groupSet srv page.groupId text) = (srv', taken) →
      enrolledUnder srv' = enrolledUnder srv ∧ srv'.nextGroupId = srv.nextGroupId := by
    intro srv' taken hCarry
    cases hFound : findGroup srv page.groupId.toNat with
    | none =>
      rw [groupSet, hFound] at hCarry
      cases hSet : ans.set <;> rw [hSet] at hCarry <;> cases hCarry <;> exact ⟨rfl, rfl⟩
    | some g =>
      rw [groupSet, hFound] at hCarry
      cases hSet : ans.set <;> rw [hSet] at hCarry <;> cases hCarry <;> exact ⟨rfl, rfl⟩
  unfold updateGroup
  split
  · exact ⟨rfl, rfl⟩
  split
  · rename_i srv' hHere
    exact hCarry srv' true hHere
  · rename_i srv' hHere
    exact hCarry srv' false hHere

@[simp] theorem root_updateGroup (ans : SyncAnswers) (text : Bytes) (srv : Server) (page : EpimonePage) :
    (updateGroup ans text srv page).2.root = page.root := by
  unfold updateGroup
  split
  · rfl
  · split
    · rfl
    · exact EpimonePage.root_setGroupId 0

@[simp] theorem root_createGroup (ans : SyncAnswers) (text : Bytes) (srv : Server) (page : EpimonePage) :
    (createGroup ans text srv page).2.root = page.root := by
  unfold createGroup
  split
  · rfl
  · split
    · exact EpimonePage.root_setGroupId _
    · rfl

/-- A state of the daemon that the sync of the first of these tabs meets. -/
structure Met (instanceId : Nat) (tabs : List Tab) (srv : Server) : Prop where
  reached : Reached instanceId srv
  kept : Kept tabs srv

namespace Met

variable {instanceId : Nat} {tabs : List Tab} {t : Tab}

theorem perform (h : Met instanceId tabs srv) {a : Act} (hGuard : a.guard srv)
    (hMove : ∀ s gid, a ≠ .move s gid) : Met instanceId tabs (a.perform srv) := by
  refine ⟨.step a h.reached hGuard trivial, h.kept.shrink fun key sid hSid => ?_⟩
  rcases enrolledUnder_perform h.reached.consistent hGuard hSid with hOld | ⟨s, gid, hSame, _⟩
  · exact hOld
  · exact absurd hSame (hMove s gid)

theorem carry (h : Met instanceId tabs srv) (delivery : Delivery) {granted : Option Server}
    (hGranted : ∀ srv', granted = some srv' → Met instanceId tabs srv') :
    Met instanceId tabs (delivery.carry srv granted).1 := by
  cases granted with
  | none => cases delivery <;> exact h
  | some srv' =>
    cases delivery with
    | refused => exact h
    | lost | replied => exact hGranted srv' rfl

theorem repage {page : EpimonePage} (h : Met instanceId (t :: tabs) srv)
    (hGroup : page.groupId = 0 ∨ page.groupId = t.page.groupId) (hRoot : page.root = t.page.root) :
    Met instanceId ({ t with page := page } :: tabs) srv := by
  refine ⟨h.reached, h.kept.repage hGroup fun sid hSid => Or.inl ?_⟩
  rw [EpimonePage.sids, hRoot]
  exact hSid

theorem updateGroup (ans : SyncAnswers) (text : Bytes) (h : Met instanceId (t :: tabs) srv) :
    Met instanceId ({ t with page := (Client.updateGroup ans text srv t.page).2 } :: tabs)
      (Client.updateGroup ans text srv t.page).1 := by
  unfold Client.updateGroup
  split
  · exact h
  have hSet : Met instanceId (t :: tabs) (ans.set.carry srv (groupSet srv t.page.groupId text)).1 := by
    refine h.carry ans.set fun srv' hGranted => ?_
    obtain ⟨g, hFound, rfl⟩ := Option.map_eq_some_iff.mp hGranted
    exact h.perform (a := .setBlob _ text) (by simp [Act.guard, hFound]) (by simp)
  split
  · rename_i srv' hCarry
    rw [hCarry] at hSet
    exact hSet
  · rename_i srv' hCarry
    rw [hCarry] at hSet
    exact hSet.repage (Or.inl (EpimonePage.groupId_setGroupId 0)) (EpimonePage.root_setGroupId 0)

theorem createGroup (ans : SyncAnswers) (text : Bytes) (h : Met instanceId (t :: tabs) srv)
    (hUnused : t.page.groupId = 0 → enrolledUnder srv (lowWord (srv.nextGroupId + 1)) = [] ∧
      ∀ u ∈ tabs, u.page.groupId ≠ 0 → u.key ≠ lowWord (srv.nextGroupId + 1)) :
    Met instanceId ({ t with page := (Client.createGroup ans text srv t.page).2 } :: tabs)
      (Client.createGroup ans text srv t.page).1 := by
  unfold Client.createGroup
  split
  · exact h
  rename_i hNone
  obtain ⟨hEmpty, hOther⟩ := hUnused (not_not.mp hNone)
  have hNew : Met instanceId (t :: tabs) (ans.new.carry srv (groupNew srv ⟨0, text, ans.now⟩)).1 := by
    refine h.carry ans.new fun srv' hGranted => ?_
    rw [← Option.some.inj hGranted]
    exact h.perform (a := .newGroup _) trivial (by simp)
  split
  · rename_i srv' hCarry
    rw [hCarry] at hNew
    obtain rfl : (Act.newGroup ⟨0, text, ans.now⟩).perform srv = srv' :=
      Option.some.inj (granted_of_carry hCarry)
    have hKey : lowWord (EpimonePage.setGroupId t.page (.ofNat (srv.nextGroupId + 1))).groupId.toNat =
        lowWord (srv.nextGroupId + 1) := by
      rw [EpimonePage.groupId_setGroupId, lowWord_ofNat]
    refine ⟨hNew.reached, hNew.kept.regroup ?_ ?_ ?_⟩
    · rw [EpimonePage.sids, EpimonePage.root_setGroupId]
      rfl
    · exact (congrArg (enrolledUnder srv) hKey).trans hEmpty
    · intro u hu hSome hSame
      exact hOther u hu hSome (hSame.symm.trans hKey)
  · rename_i srv' hCarry
    rw [hCarry] at hNew
    exact hNew

theorem enroll (ans : SyncAnswers) {sid : UInt64} (hSome : t.page.groupId ≠ 0) (hShown : sid ∈ t.page.sids)
    (h : Met instanceId (t :: tabs) srv) :
    ∃ srv' page, Client.enroll ans t.page.groupId (srv, t.page) sid = (srv', page) ∧
      page.groupId = t.page.groupId ∧ page.sids = t.page.sids ∧
        Met instanceId ({ t with page := page } :: tabs) srv' := by
  unfold Client.enroll
  dsimp only
  split
  · exact ⟨srv, t.page, rfl, rfl, rfl, h⟩
  have hAdd : Met instanceId (t :: tabs)
      ((ans.add sid).carry srv (groupAdd srv t.page.groupId sid)).1 := by
    refine h.carry _ fun srv' hGranted => ?_
    obtain ⟨g, hFound, hGranted⟩ := Option.bind_eq_some_iff.mp hGranted
    obtain ⟨s, hFind, rfl⟩ := Option.map_eq_some_iff.mp hGranted
    obtain ⟨hListed, hId, hRemoved⟩ := findSession_spec hFind
    have hGuard : (Act.move s t.page.groupId.toNat).guard srv :=
      ⟨hListed, hRemoved, Or.inr (by rw [hFound]; exact Option.some_ne_none g)⟩
    have hReached : Reached instanceId ((Act.move s t.page.groupId.toNat).perform srv) :=
      Actions.Path.step (Act.move s t.page.groupId.toNat) h.reached hGuard trivial
    refine ⟨hReached, h.kept.join hSome hShown fun key i hi => ?_⟩
    rcases enrolledUnder_perform h.reached.consistent hGuard hi with hOld | ⟨s', gid, hSame, _, hKey, hSid⟩
    · exact Or.inl hOld
    · cases hSame
      refine Or.inr ⟨hKey.symm, ?_⟩
      rw [← hSid, hId]
      exact UInt64.ofNat_toNat
  split
  · rename_i srv' hCarry
    rw [hCarry] at hAdd
    have hRoot : (t.page.markEnrolled sid).root = t.page.root := EpimonePage.root_markEnrolled sid
    refine ⟨srv', _, rfl, EpimonePage.groupId_markEnrolled sid, ?_, hAdd.repage (Or.inr ?_) hRoot⟩
    · rw [EpimonePage.sids, hRoot]
      rfl
    · exact EpimonePage.groupId_markEnrolled sid
  · rename_i srv' hCarry
    rw [hCarry] at hAdd
    exact ⟨srv', t.page, rfl, rfl, rfl, hAdd⟩

theorem enrollAll (ans : SyncAnswers) (ids : List UInt64) {gid : UInt64} (hGroup : t.page.groupId = gid)
    (hSome : gid ≠ 0) (hShown : ids ⊆ t.page.sids) (h : Met instanceId (t :: tabs) srv) :
    Met instanceId ({ t with page := (ids.foldl (Client.enroll ans gid) (srv, t.page)).2 } :: tabs)
      (ids.foldl (Client.enroll ans gid) (srv, t.page)).1 := by
  induction ids generalizing t srv with
  | nil => exact h
  | cons sid ids ih =>
    subst hGroup
    obtain ⟨srv', page, hEnroll, hSame, hSids, hMet⟩ := h.enroll ans hSome (hShown List.mem_cons_self)
    rw [List.foldl_cons, hEnroll]
    refine ih (t := { t with page := page }) hSame ?_ hMet
    rw [hSids]
    exact fun i hi => hShown (List.mem_cons_of_mem sid hi)

theorem sync (ans : SyncAnswers) (h : Met instanceId (t :: tabs) srv)
    (hUnused : ∀ text, ans.text = some text → (Client.updateGroup ans text srv t.page).2.groupId = 0 →
      enrolledUnder srv (lowWord (srv.nextGroupId + 1)) = [] ∧
        ∀ u ∈ tabs, u.page.groupId ≠ 0 → u.key ≠ lowWord (srv.nextGroupId + 1)) :
    Met instanceId ({ t with page := (syncPageGroup ans srv t.page).2 } :: tabs)
      (syncPageGroup ans srv t.page).1 := by
  unfold syncPageGroup
  split
  · exact h
  dsimp only
  split
  · exact h
  · exact h
  rename_i text hText _
  obtain ⟨hEnrolled, hNext⟩ := updateGroup_srv ans text srv t.page
  have hUpdate := h.updateGroup ans text
  have hCreate := hUpdate.createGroup ans text (by
    rw [hEnrolled, hNext]
    exact hUnused text hText)
  split
  · exact hCreate
  · rename_i hSome
    refine hCreate.enrollAll ans t.page.root.collectSessionIds rfl hSome fun sid hSid => ?_
    rw [EpimonePage.sids, root_createGroup, root_updateGroup]
    exact (Split.mem_collectSessionIds.mp hSid).2

theorem perm {tabs' : List Tab} (h : Met instanceId tabs srv) (hPerm : tabs.Perm tabs') :
    Met instanceId tabs' srv := ⟨h.reached, h.kept.perm hPerm⟩

end Met

namespace Desk

variable (d : Desk)

/-- The terminal goes, and its session is in no group that a tab of the window goes on to carry. -/
def Forgotten (i : Nat) (t : Tab) (terminal : Nat) : Prop :=
  ∀ pane left, t.page.root.take terminal = some (pane, left) →
    Apart d.srv [pane.sid] ((left.map fun _ => t).toList ++ neighbours (d.tabs.eraseIdx i) t.window)

/-- No session is in a group with the key of the new group, and no other tab carries it. -/
def Unused (i gid : Nat) : Prop :=
  enrolledUnder d.srv (lowWord gid) = [] ∧
    ∀ u ∈ d.tabs.eraseIdx i, u.page.groupId ≠ 0 → u.key ≠ lowWord gid

instance (i gid : Nat) : Decidable (d.Unused i gid) :=
  inferInstanceAs (Decidable (_ ∧ ∀ u ∈ d.tabs.eraseIdx i, u.page.groupId ≠ 0 → u.key ≠ lowWord gid))

end Desk

/-- No session stays behind in a group of a window that no longer shows it, and the group of a sync is
told from the others by its key. -/
def Move.Careful (d : Desk) : Move → Prop
  | .closePane i => ∀ t terminal, d.tabs[i]? = some t → t.page.focused = some terminal →
    d.Forgotten i t terminal
  | .death i terminal => ∀ t, d.tabs[i]? = some t → d.Forgotten i t terminal
  | .closeTab i => ∀ t, d.tabs[i]? = some t →
    Apart d.srv t.page.sids (neighbours (d.tabs.eraseIdx i) t.window)
  | .moveTab i window _ => ∀ t, d.tabs[i]? = some t → window ≠ t.window →
    Apart d.srv t.page.sids (neighbours (d.tabs.eraseIdx i) t.window) ∧
      Apart d.srv ((neighbours (d.tabs.eraseIdx i) t.window).flatMap fun u => u.page.sids) [t]
  | .sync i ans => ∀ t text, d.tabs[i]? = some t → ans.text = some text →
    (updateGroup ans text d.srv t.page).2.groupId = 0 → d.Unused i (d.srv.nextGroupId + 1)
  | _ => True

def carefulMoves : Actions Desk Move := ⟨Move.perform, fun d m => m.guard d ∧ m.Careful d⟩

theorem path_of_careful {d d' : Desk} (h : carefulMoves.Path (fun _ => True) d d') :
    moves.Path (fun _ => True) d d' := by
  induction h with
  | refl => exact .refl d
  | step m _ hGuard hAllowed ih => exact .step m ih hGuard.1 hAllowed

section Steps

variable {instanceId : Nat} {d : Desk} {i : Nat} {t : Tab}

theorem perm_of_tab {tabs : List Tab} (h : tabs[i]? = some t) : tabs.Perm (t :: tabs.eraseIdx i) := by
  obtain ⟨hBound, hHere⟩ := List.getElem?_eq_some_iff.mp h
  rw [← hHere]
  exact (List.getElem_cons_eraseIdx_perm hBound).symm

theorem perm_set_tab {tabs : List Tab} (h : tabs[i]? = some t) (u : Tab) :
    (u :: tabs.eraseIdx i).Perm (tabs.set i u) :=
  (List.set_perm_cons_eraseIdx (List.getElem?_eq_some_iff.mp h).1 u).symm

theorem met_withTab {f : Tab → Desk} (h : Met instanceId d.tabs d.srv)
    (hTab : ∀ t, d.tabs[i]? = some t → Met instanceId (t :: d.tabs.eraseIdx i) d.srv →
      Met instanceId (f t).tabs (f t).srv) :
    Met instanceId (d.withTab i f).tabs (d.withTab i f).srv := by
  unfold Desk.withTab
  split
  · exact h
  · rename_i t hHere
    exact hTab t hHere (h.perm (perm_of_tab hHere))

theorem met_setPage {page : EpimonePage} (hTab : d.tabs[i]? = some t)
    (h : Met instanceId (t :: d.tabs.eraseIdx i) d.srv) (hGroup : page.groupId = t.page.groupId)
    (hSids : t.page.sids ⊆ page.sids) : Met instanceId (d.tabs.set i { t with page := page }) d.srv := by
  refine Met.perm ?_ (perm_set_tab hTab _)
  exact ⟨h.reached, h.kept.repage (Or.inr hGroup) fun sid hSid => Or.inl (hSids hSid)⟩

theorem met_removeTerminal {terminal : Nat} (hTab : d.tabs[i]? = some t)
    (h : Met instanceId (t :: d.tabs.eraseIdx i) d.srv) (hForgotten : d.Forgotten i t terminal) :
    Met instanceId (d.settle i t (t.page.removeTerminal terminal)).tabs
      (d.settle i t (t.page.removeTerminal terminal)).srv := by
  rcases t.page.removeTerminal_cases terminal with ⟨_, hSame⟩ | ⟨pane, left, hTake, hPerm, hLeft⟩
  · rw [hSame]
    exact met_setPage hTab h rfl (List.Subset.refl _)
  have hApart := hForgotten pane left hTake
  rcases hLeft with ⟨rfl, hClosed⟩ | ⟨root, page, rfl, hPage, hGroup, hSids⟩
  · rw [hClosed]
    refine ⟨h.reached, h.kept.tail ?_⟩
    intro u hu hSome sid hSid hMem
    exact hApart u hu hSome sid hSid (hPerm.mem_iff.mp hMem)
  · rw [hPage]
    refine Met.perm ⟨h.reached, h.kept.repage (Or.inr hGroup) fun sid hSid => ?_⟩ (perm_set_tab hTab _)
    rcases List.mem_cons.mp (hPerm.mem_iff.mp hSid) with rfl | hStays
    · exact Or.inr (Or.inr hApart)
    · rw [← hSids] at hStays
      exact Or.inl hStays

theorem met_openInNewTab (hTab : d.tabs[i]? = some t) (h : Met instanceId (t :: d.tabs.eraseIdx i) d.srv) :
    Met instanceId (d.openInNewTab i t).tabs (d.openInNewTab i t).srv := by
  unfold Desk.openInNewTab
  split
  · exact h.perm (perm_of_tab hTab).symm
  rename_i pane page hTake
  obtain ⟨hGroup, hPerm⟩ := EpimonePage.takeFocusedLeaf_spec hTake
  have hAdded := (h.kept.cons (t := ⟨t.window, .around pane⟩) rfl).perm (List.Perm.swap _ _ _)
  have hMoved := @Kept.repage _ _ _ page hAdded (Or.inr hGroup) fun sid hSid => by
    rcases List.mem_cons.mp (hPerm.mem_iff.mp hSid) with rfl | hStays
    · exact Or.inr (Or.inl (shownIn_cons.mpr (Or.inl ⟨rfl, List.mem_singleton_self pane.sid⟩)))
    · exact Or.inl hStays
  have hBound := (List.getElem?_eq_some_iff.mp hTab).1
  refine ⟨h.reached, hMoved.perm ?_⟩
  refine (List.Perm.swap _ _ _).trans (.trans (.cons _ (perm_set_tab hTab _)) ?_)
  exact (List.perm_insertIdx _ _ (by rw [List.length_set]; exact hBound)).symm

theorem met_perform {m : Move} (h : Met instanceId d.tabs d.srv) (hGuard : m.guard d)
    (hCareful : m.Careful d) : Met instanceId (m.perform d).tabs (m.perform d).srv := by
  cases m with
  | daemon a => exact h.perform hGuard.1 hGuard.2
  | newTab window started =>
    refine ⟨h.reached, (h.kept.cons (t := ⟨window, .around (d.newPane started)⟩) rfl).perm ?_⟩
    exact (List.perm_append_singleton _ _).symm
  | split i started =>
    refine met_withTab h fun t hTab hHere => ?_
    exact met_setPage hTab hHere (EpimonePage.groupId_split _) (EpimonePage.sids_subset_split _)
  | focus i terminal =>
    exact met_withTab h fun t hTab hHere => met_setPage hTab hHere rfl (List.Subset.refl _)
  | toggleZoom i =>
    refine met_withTab h fun t hTab hHere => met_setPage hTab hHere EpimonePage.groupId_toggleZoom ?_
    rw [EpimonePage.sids_toggleZoom]
    exact List.Subset.refl _
  | closePane i =>
    refine met_withTab h fun t hTab hHere => ?_
    cases hFocused : t.page.focused with
    | none =>
      rw [EpimonePage.closePane, hFocused]
      exact met_setPage hTab hHere rfl (List.Subset.refl _)
    | some terminal =>
      rw [EpimonePage.closePane, hFocused]
      exact met_removeTerminal hTab hHere (hCareful t terminal hTab hFocused)
  | death i terminal =>
    exact met_withTab h fun t hTab hHere => met_removeTerminal hTab hHere (hCareful t hTab)
  | openInNewTab i => exact met_withTab h fun t hTab hHere => met_openInNewTab hTab hHere
  | closeTab i =>
    exact met_withTab h fun t hTab hHere => ⟨hHere.reached, hHere.kept.tail (hCareful t hTab)⟩
  | moveTab i window position =>
    refine met_withTab h fun t hTab hHere => ⟨hHere.reached, ?_⟩
    have hBound := (List.getElem?_eq_some_iff.mp hTab).1
    have hMoved : Kept ({ t with window := window } :: d.tabs.eraseIdx i) d.srv := by
      rcases eq_or_ne window t.window with rfl | hOther
      · exact hHere.kept
      · obtain ⟨hStay, hGo⟩ := hCareful t hTab hOther
        exact hHere.kept.rewindow hStay hGo
    refine hMoved.perm (List.perm_insertIdx _ _ ?_).symm
    have hPosition : position < d.tabs.length := hGuard
    rw [List.length_eraseIdx_of_lt hBound]
    omega
  | sync i ans =>
    refine met_withTab h fun t hTab hHere => ?_
    exact (hHere.sync ans fun text => hCareful t text hTab).perm (perm_set_tab hTab _)

end Steps

theorem lowWord_mod (id : Nat) : lowWord (id % 2 ^ 64) = lowWord id := Nat.mod_mod_of_dvd id (by decide)

theorem mem_dupAttachedGroupIds {tabs : List Tab} {window : Nat} {gid : UInt64} :
    gid ∈ dupAttachedGroupIds tabs window ↔
      ∃ t ∈ tabs, t.window = window ∧ t.page.groupId = gid ∧ gid ≠ 0 := by
  simp only [dupAttachedGroupIds, List.mem_filter, List.mem_map, decide_eq_true_eq, and_assoc]
  constructor
  · rintro ⟨⟨t, ht, hWindow, hGroup⟩, hSome⟩
    exact ⟨t, ht, hWindow, hGroup, hSome⟩
  · rintro ⟨t, ht, hWindow, hGroup, hSome⟩
    exact ⟨⟨t, ht, hWindow, hGroup⟩, hSome⟩

theorem mem_killWindow {myIds : List UInt64} {x : Exchange} {sid : Nat} :
    sid ∈ overviewKillWindowExecute myIds x ↔
      ∃ reply, epimoneClientListGroups x = .ok reply ∧ ∃ info ∈ reply.2,
        (∃ gid ∈ myIds, lowWord gid.toNat = lowWord info.id) ∧ sid ∈ info.members := by
  unfold overviewKillWindowExecute
  cases epimoneClientListGroups x with
  | error e => simp
  | ok reply =>
    obtain ⟨instanceId, infos⟩ := reply
    simp only [List.mem_flatMap, Except.ok.injEq, exists_eq_left']
    refine exists_congr fun info => and_congr_right fun _ => ?_
    split
    · rename_i hMine
      rw [List.contains_iff_mem, List.mem_map] at hMine
      exact (and_iff_right hMine).symm
    · rename_i hOther
      rw [List.contains_iff_mem, List.mem_map] at hOther
      exact ⟨fun h => (nomatch h), fun h => absurd h.1 hOther⟩

/-- What is killed in a window the daemon has under the key of one of its tabs. -/
theorem enrolled_of_killed {instanceId : Nat} (h : Reached instanceId srv) {tabs : List Tab} {window : Nat}
    {x : Exchange} (hAnswered : x.AnsweredBy srv) {sid : Nat}
    (hKilled : sid ∈ overviewKillWindowExecute (dupAttachedGroupIds tabs window) x) :
    ∃ t ∈ tabs, t.window = window ∧ t.page.groupId ≠ 0 ∧ ∃ i ∈ enrolledUnder srv t.key, i.toNat = sid := by
  obtain ⟨⟨instanceId, infos⟩, hOk, info, hInfo, ⟨gid, hMine, hKey⟩, hMember⟩ := mem_killWindow.mp hKilled
  obtain ⟨t, ht, hWindow, rfl, hSome⟩ := mem_dupAttachedGroupIds.mp hMine
  rcases reported_of_answered hAnswered hOk hInfo with hNone | ⟨g, hg, rfl⟩
  · rw [hNone] at hMember
    cases hMember
  obtain ⟨s, hs, rfl⟩ := List.mem_map.mp hMember
  obtain ⟨hIn, hHere, hGroup⟩ := mem_groupMembers.mp hs
  have hPos : 0 < g.id := h.rostered.1.groups_pos g.id (List.mem_map_of_mem hg)
  refine ⟨t, ht, hWindow, hSome, .ofNat (srv.sess s).id, ?_, UInt64.toNat_ofNat'⟩
  refine mem_enrolledUnder.mpr ⟨s, mem_listed.mpr ⟨hIn, hHere⟩, ?_, ?_, rfl⟩
  · rw [hGroup]
    exact Nat.ne_of_gt hPos
  · rw [hGroup, Tab.key, hKey]
    exact (lowWord_mod g.id).symm

/-- In a run of careful steps "Kill in this window" kills only what the window shows. -/
theorem killWindow_spares {instanceId : Nat} (hFound : Reached instanceId srv) {d : Desk}
    (h : carefulMoves.Path (fun _ => True) (.opened srv) d) (window : Nat) : d.SparesOthers window := by
  have hMet : Met instanceId d.tabs d.srv := by
    refine h.invariant (P := fun d => Met instanceId d.tabs d.srv) ?_ ⟨hFound, ?_⟩
    · rintro d m hMet ⟨hGuard, hCareful⟩ _
      exact met_perform hMet hGuard hCareful
    · exact ⟨fun t ht => (nomatch ht), .nil⟩
  intro x hAnswered sid hKilled
  obtain ⟨t, ht, rfl, hSome, i, hi, rfl⟩ := enrolled_of_killed hMet.reached hAnswered hKilled
  exact ⟨i, hMet.kept.shown t ht hSome i hi, rfl⟩

def shell (pid : Nat) : Session := { Session.blank with pid := pid, ptyOpen := true, alive := true }

def shellCreated (pid : Nat) : Move := .daemon (.create pid none [] none none (shell pid))

def calmSync : SyncAnswers :=
  { text := some [], set := .replied, new := .replied, now := 0, add := fun _ => .replied }

/-- A tab is opened and split, and the debounced sync runs. -/
def splitting : List Move :=
  [shellCreated 100, .newTab 0 (some 0), shellCreated 101, .split 0 (some 1), .sync 0 calmSync]

def deskAfter (steps : List Move) : Desk := steps.foldl Move.perform (.opened (Server.initial 7))

theorem fresh_shell (pid : Nat) : (shell pid).Fresh pid := by constructor <;> rfl

theorem enabled_splitting : carefulMoves.Enabled (.opened (Server.initial 7)) splitting := by
  have hFirst : (Move.perform (.opened (Server.initial 7)) (shellCreated 100)).Fresh (some 0) := by
    decide +kernel
  have hSecond : (deskAfter (splitting.take 3)).Fresh (some 1) := by decide +kernel
  have hUnused : (deskAfter (splitting.take 4)).Unused 0 1 := by decide +kernel
  refine ⟨⟨⟨⟨by decide, by decide, fresh_shell 100⟩, by simp⟩, trivial⟩, ⟨hFirst, trivial⟩,
    ⟨⟨⟨by decide, by decide +kernel, fresh_shell 101⟩, by simp⟩, trivial⟩, ⟨hSecond, trivial⟩,
    ⟨trivial, ?_⟩, trivial⟩
  intro t text _ _ _
  exact hUnused

/-- The window with both panes: the kill takes the sessions of both, and no others. -/
theorem killWindow_spares_splitting :
    overviewKillWindowExecute (dupAttachedGroupIds (deskAfter splitting).tabs 0)
        (answered (deskAfter splitting).srv) = [2, 1] ∧
      (deskAfter splitting).SparesOthers 0 :=
  ⟨by decide +kernel, killWindow_spares (.refl _) (.of_enabled splitting enabled_splitting) 0⟩

/-- The second pane is closed, its session goes on without a pane. -/
def detaching : List Move := splitting ++ [.closePane 0]

/-- The session of the closed pane is killed with the window that no longer shows it. -/
theorem killWindow_detaching :
    moves.Path (fun _ => True) (.opened (Server.initial 7)) (deskAfter detaching) ∧
      ¬ (deskAfter detaching).SparesOthers 0 := by
  have hSplit := path_of_careful (.of_enabled splitting enabled_splitting)
  have hLast : deskAfter detaching = (Move.closePane 0).perform (deskAfter splitting) := by
    rw [deskAfter, detaching, List.foldl_append]
    rfl
  constructor
  · rw [hLast]
    exact .step (Move.closePane 0) hSplit trivial trivial
  · intro hSpares
    have hSize : 4 + (groupListBody (deskAfter detaching).srv).length < 2 ^ 32 := by decide +kernel
    have hKilled : 2 ∈ overviewKillWindowExecute (dupAttachedGroupIds (deskAfter detaching).tabs 0)
        (answered (deskAfter detaching).srv) := by decide +kernel
    obtain ⟨shown, ⟨t, ht, _, hShown⟩, hId⟩ := hSpares _ (answered_answeredBy hSize) 2 hKilled
    have hNone : ((deskAfter detaching).tabs.all fun t => t.page.sids.all fun sid => sid.toNat ≠ 2) = true := by
      decide +kernel
    exact of_decide_eq_true (List.all_eq_true.mp (List.all_eq_true.mp hNone t ht) shown hShown) hId

end Epimone.Client
