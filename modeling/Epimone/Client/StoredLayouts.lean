import Epimone.Client.Adoption
import Epimone.Daemon.Blobs

/-! # Stored layouts

restore_group looks for the members of the group on screen and attaches to the
leaves of its stored layout. The two agree as long as every stored layout names
members of its own group, and this is what a sync has to keep.
-/
set_option autoImplicit false

namespace Epimone.Client

open Daemon Transition Program

/-- The stored layout names each session once, and only members of its group, of the sessions that are left. -/
structure NamesMembers (srv : Server) (gid : Nat) (tree : Node) : Prop where
  once : (tree.sids.filter (· ≠ 0)).Nodup
  issued : ∀ sid ∈ tree.sids, sid.toNat ≤ srv.nextId
  within : ∀ sid ∈ tree.sids, sid ≠ 0 → Within srv sid gid

def Named (blobTree : Bytes → Option Node) (srv : Server) : Prop :=
  ∀ g ∈ srv.groups, ∀ tree, blobTree g.blob = some tree → NamesMembers srv g.id tree

/-- The sync of the page stores its layout and gets an answer to every request, and no layout of another
group names one of its sessions. -/
structure Records (blobTree : Bytes → Option Node) (srv : Server) (page : EpimonePage) (ans : SyncAnswers)
    (text : Bytes) : Prop where
  written : blobTree text = some page.root.toVariant
  set : ans.set = .replied
  new : ans.new = .replied
  add : ∀ sid ∈ page.sids, ans.add sid = .replied
  others : ∀ g ∈ srv.groups, g.id ≠ page.groupId.toNat → ∀ tree, blobTree g.blob = some tree →
    ∀ sid ∈ page.sids, sid ≠ 0 → sid ∉ tree.sids

/-- The gestures that keep the stored layouts in step with the groups. -/
def Gesture.InStep (blobTree : Bytes → Option Node) (d : Desk) : Gesture → Prop
  | .move (.daemon a) => a.writesBlob = false
  | .move (.sync i ans) => ∀ t text, d.tabs[i]? = some t → t.page.zoomed = false →
    t.page.root.collectSessionIds ≠ [] → ans.text = some text → Records blobTree d.srv t.page ans text
  | .restoreFromV1 tabs x => x.sessions = true → d.AllFit False x tabs
  | _ => True

/-- No session that restore_group attaches to is on screen. -/
def Desk.StealsNothing (blobTree : Bytes → Option Node) (d : Desk) : Prop :=
  ∀ gid x tree, d.storedLayout x blobTree gid = some tree → d.OffScreen x tree

section Layouts

variable {blobTree : Bytes → Option Node} {instanceId : Nat} {srv : Server} {d : Desk}

theorem named_perform (hReached : Reached instanceId srv) (h : Named blobTree srv) {a : Act} (hGuard : a.guard srv)
    (hBlob : a.writesBlob = false) (hMove : ∀ s gid, a ≠ .move s gid) : Named blobTree (a.perform srv) := by
  intro g hg tree hTree
  have hOld := h g ((groups_perform hBlob).subset hg) tree hTree
  refine ⟨hOld.once, fun sid hSid => (hOld.issued sid hSid).trans (counters_perform a).1, fun sid hSid hSome => ?_⟩
  exact within_perform hReached hGuard (fun s _ => hMove s) (hOld.issued sid hSid) (hOld.within sid hSid hSome)

/-- What the enrolling does to the sessions that it is not about, and to the groups. -/
theorem enrollAll_spares {ans : SyncAnswers} {gid : UInt64} (ids : List UInt64) (state : Server × EpimonePage)
    (hReached : Reached instanceId state.1) :
    let next := ids.foldl (enroll ans gid) state
    Reached instanceId next.1 ∧ next.1.groups.Sublist state.1.groups ∧ state.1.nextId ≤ next.1.nextId ∧
      ∀ sid home, sid ∉ ids → sid.toNat ≤ state.1.nextId → Within state.1 sid home → Within next.1 sid home := by
  induction ids generalizing state with
  | nil => exact ⟨hReached, .refl _, Nat.le_refl _, fun _ _ _ _ hWithin => hWithin⟩
  | cons first ids ih =>
    have hOne : Reached instanceId (enroll ans gid state first).1 ∧
        (enroll ans gid state first).1.groups.Sublist state.1.groups ∧
        state.1.nextId ≤ (enroll ans gid state first).1.nextId ∧
          ∀ sid home, sid ≠ first → sid.toNat ≤ state.1.nextId → Within state.1 sid home →
            Within (enroll ans gid state first).1 sid home := by
      rcases enroll_cases ans state.1 state.2 gid first with hSame | ⟨s, hGuard, hId, hMoved, _⟩
      · rw [hSame]
        exact ⟨hReached, .refl _, Nat.le_refl _, fun _ _ _ _ hWithin => hWithin⟩
      · rw [hMoved]
        have hNext : Reached instanceId ((Act.move s gid.toNat).perform state.1) :=
          Actions.Path.step (Act.move s gid.toNat) hReached hGuard trivial
        refine ⟨hNext, groups_perform rfl, (counters_perform _).1, ?_⟩
        intro sid home hOther hOld hWithin
        refine within_perform hReached hGuard ?_ hOld hWithin
        rintro s' hId' gid' ⟨⟩
        exact hOther (UInt64.toNat_inj.mp (hId'.symm.trans hId))
    obtain ⟨hReached', hGroups, hNext, hSpared⟩ := hOne
    obtain ⟨hLast, hGroups', hNext', hSpared'⟩ := ih (enroll ans gid state first) hReached'
    refine ⟨hLast, hGroups'.trans hGroups, hNext.trans hNext', ?_⟩
    intro sid home hNot hOld hWithin
    obtain ⟨hOther, hLater⟩ := not_or.mp (List.mem_cons.not.mp hNot)
    exact hSpared' sid home hLater (hOld.trans hNext) (hSpared sid home hOther hOld hWithin)

theorem namesMembers_page {page : EpimonePage} {gid : Nat} (hTidy : page.root.panes.Pairwise Pane.Differ)
    (hIssued : ∀ sid ∈ page.sids, sid.toNat ≤ srv.nextId) (hWithin : ∀ sid ∈ page.sids, sid ≠ 0 → Within srv sid gid) :
    NamesMembers srv gid page.root.toVariant := by
  have hSids : page.root.toVariant.sids = page.sids := Node.sids_toVariant page.root
  constructor
  · rw [hSids]
    refine List.pairwise_filter.mpr (List.pairwise_map.mpr (hTidy.imp ?_))
    intro p q hDiffer hSome _
    exact (hDiffer.2 (of_decide_eq_true hSome)).symm
  · rw [hSids]
    exact hIssued
  · rw [hSids]
    exact hWithin

theorem stored_cases {ans : SyncAnswers} {text : Bytes} {page page' : EpimonePage} {srv' : Server}
    (hReached : Reached instanceId srv) (hCounter : srv.nextGroupId + 1 < 2 ^ 64)
    (h : page.groupId ≠ 0 ∧ (findGroup srv page.groupId.toNat).isSome = true ∧
        (srv', page') = ((Act.setBlob page.groupId.toNat text).perform srv, page) ∨
      (page.groupId = 0 ∨ findGroup srv page.groupId.toNat = none) ∧
        (srv', page') = ((Act.newGroup ⟨0, text, ans.now⟩).perform srv,
          { page with groupId := .ofNat (srv.nextGroupId + 1), enrolled := [] })) :
    Reached instanceId srv' ∧ srv'.nextId = srv.nextId ∧ (∀ sid home, Within srv sid home → Within srv' sid home) ∧
      ∀ g ∈ srv'.groups, g.id = page'.groupId.toNat ∧ g.blob = text ∨ g ∈ srv.groups ∧ g.id ≠ page.groupId.toNat := by
  rcases h with ⟨_, hFound, hSame⟩ | ⟨hNone, hSame⟩
  · cases hSame
    have hGuard : (Act.setBlob page.groupId.toNat text).guard srv := Option.ne_none_iff_isSome.mpr hFound
    have hNext : Reached instanceId ((Act.setBlob page.groupId.toNat text).perform srv) :=
      Actions.Path.step (Act.setBlob page.groupId.toNat text) hReached hGuard trivial
    refine ⟨hNext, rfl, fun _ _ hWithin => hWithin, fun g hg => ?_⟩
    obtain ⟨old, hOld, rfl⟩ := List.mem_map.mp hg
    by_cases hHere : old.id = page.groupId.toNat
    · rw [if_pos hHere]
      exact Or.inl ⟨hHere, rfl⟩
    · rw [if_neg hHere]
      exact Or.inr ⟨hOld, hHere⟩
  · cases hSame
    have hNext : Reached instanceId ((Act.newGroup ⟨0, text, ans.now⟩).perform srv) :=
      Actions.Path.step (Act.newGroup ⟨0, text, ans.now⟩) hReached trivial trivial
    refine ⟨hNext, rfl, fun _ _ hWithin => hWithin, fun g hg => ?_⟩
    rcases List.mem_cons.mp hg with rfl | hOld
    · exact Or.inl ⟨(toNat_nextGroup hCounter).1.symm, rfl⟩
    · refine Or.inr ⟨hOld, fun hId => ?_⟩
      rcases hNone with hZero | hGone
      · have hPos : 0 < g.id := hReached.rostered.1.groups_pos g.id (List.mem_map_of_mem hOld)
        rw [hId, hZero] at hPos
        exact absurd hPos (Nat.lt_irrefl 0)
      · have hNot := List.find?_eq_none.mp hGone g hOld
        simp [hId] at hNot

/-- A sync that is recorded leaves every session of the page in the group whose stored layout is the page's. -/
theorem named_sync {next : Nat} {t : Tab} {tabs : List Tab} {ans : SyncAnswers} {text : Bytes}
    (hTrusted : Client.Trusted False instanceId next (t :: tabs) srv) (h : Named blobTree srv)
    (hCounter : srv.nextGroupId + 1 < 2 ^ 64) (hZoom : t.page.zoomed = false)
    (hSome : t.page.root.collectSessionIds ≠ []) (hText : ans.text = some text)
    (hRecords : Records blobTree srv t.page ans text) : Named blobTree (syncPageGroup ans srv t.page).1 := by
  obtain ⟨srv', page', hCases, _, hFound, _, hSync⟩ :=
    syncPageGroup_replied hRecords.set hRecords.new hText hCounter hZoom hSome
  have hRoot : page'.root = t.page.root := by
    rcases hCases with ⟨_, _, hSame⟩ | ⟨_, hSame⟩ <;> cases hSame <;> rfl
  obtain ⟨hReached, hIds, hKept, hGroups⟩ := stored_cases hTrusted.reached hCounter hCases
  obtain ⟨_, hSub, hLater, hSpared⟩ := @enrollAll_spares instanceId ans page'.groupId
    t.page.root.collectSessionIds (srv', page') hReached
  obtain ⟨hMarked, _, hGid, hKnown⟩ := @enrollAll_replied ans srv' page' t.page.root.collectSessionIds page'.groupId
    (fun sid hSid => hRecords.add sid (Split.mem_collectSessionIds.mp hSid).2) hFound
  have hSids := congrArg (fun root : Split => root.panes.map Pane.sid)
    (enrollAll_keeps ans page'.groupId t.page.root.collectSessionIds (srv', page')).1
  have hAfter := hTrusted.sync ans hCounter
  rw [hSync] at hAfter ⊢
  dsimp only at hSub hLater hSpared hMarked hGid hKnown
  generalize t.page.root.collectSessionIds.foldl (enroll ans page'.groupId) (srv', page') = last at *
  rw [hRoot] at hSids
  have hNext : srv.nextId ≤ last.1.nextId := hIds.ge.trans hLater
  have hOwn : ∀ sid ∈ t.page.sids, sid ≠ 0 → Within last.1 sid page'.groupId.toNat := by
    intro sid hSid hNonzero s hListed hId
    have hThere := (hKnown sid).mp ⟨s, hListed, hId⟩
    have hIn := hMarked sid (Split.mem_collectSessionIds.mpr ⟨hNonzero, hSid⟩) hThere
    have hShown : sid ∈ last.2.sids := by
      rw [EpimonePage.sids, hSids]
      exact hSid
    rw [← hGid]
    exact hAfter.head.enrolled sid hShown hNonzero hIn s hListed hId
  intro g hg tree hTree
  rcases hGroups g (hSub.subset hg) with ⟨hHere, hBlob⟩ | ⟨hOld, hOther⟩
  · rw [hBlob, hRecords.written] at hTree
    cases hTree
    rw [hHere]
    exact namesMembers_page hTrusted.head.tidy (fun sid hSid => (hTrusted.head.issued sid hSid).trans hNext) hOwn
  · have hBefore := h g hOld tree hTree
    refine ⟨hBefore.once, fun sid hSid => (hBefore.issued sid hSid).trans hNext, fun sid hSid hNonzero => ?_⟩
    refine hSpared sid g.id (fun hIn => ?_) ((hBefore.issued sid hSid).trans hIds.ge)
      (hKept sid g.id (hBefore.within sid hSid hNonzero))
    exact hRecords.others g hOld hOther tree hTree sid (Split.mem_collectSessionIds.mp hIn).2 hNonzero hSid

/-- Where the stored layouts name members, a restored group fits and takes nothing off the screen. -/
theorem fits_of_named {x : RestoreAnswers} {tree : Node} {gid : UInt64} (h : Named blobTree d.srv)
    (hStored : d.storedLayout x blobTree gid = some tree) :
    d.Fits False x tree (some gid) ∧ d.OffScreen x tree := by
  obtain ⟨g, hg, hId, hTree, _⟩ := storedLayout_spec hStored
  have hNames := h g hg tree hTree
  have hMember : ∀ sid ∈ d.attached x tree, sid.toNat ∈ memberIds d.srv gid.toNat := by
    intro sid hSid
    obtain ⟨hNonzero, hKnown⟩ := known_of_attached hSid
    rw [← hId]
    exact mem_memberIds_of_within hKnown (hNames.within sid (List.mem_of_mem_filter hSid) hNonzero)
  have hOnce : (d.attached x tree).Nodup := by
    refine hNames.once.sublist (List.monotone_filter_right tree.sids ?_)
    intro sid hAttaches
    exact decide_eq_true (known_of_attaches hAttaches).1
  refine ⟨⟨hOnce, ?_, fun hStrict => hStrict.elim⟩, offScreen_of_storedLayout hStored hMember⟩
  rintro gid' ⟨⟩
  exact hMember

theorem srv_move {m : Move} (hDaemon : ∀ a, m ≠ .daemon a) (hSync : ∀ i ans, m ≠ .sync i ans) :
    (m.perform d).srv = d.srv := by
  have hTab : ∀ (i : Nat) (f : Tab → Desk), (∀ t, (f t).srv = d.srv) → (d.withTab i f).srv = d.srv := by
    intro i f hSame
    unfold Desk.withTab
    split
    · rfl
    · exact hSame _
  have hSettle : ∀ i t left, (d.settle i t left).srv = d.srv := by
    rintro i t (_ | page) <;> rfl
  cases m with
  | daemon a => exact absurd rfl (hDaemon a)
  | sync i ans => exact absurd rfl (hSync i ans)
  | newTab window started => rfl
  | closePane i => exact hTab i _ fun t => hSettle i t _
  | death i terminal => exact hTab i _ fun t => hSettle i t _
  | openInNewTab i =>
    refine hTab i _ fun t => ?_
    unfold Desk.openInNewTab
    split <;> rfl
  | _ => exact hTab _ _ fun _ => rfl

theorem srv_addTree (x : RestoreAnswers) (window : Nat) (tree : Node) (finish : EpimonePage → EpimonePage) :
    (d.addTree x window tree finish).srv = d.srv := by
  unfold Desk.addTree
  split <;> rfl

theorem srv_restoreFromV1 (x : RestoreAnswers) (tabs : List (Nat × Node)) : (d.restoreFromV1 x tabs).srv = d.srv := by
  have hFold : ∀ (tabs : List (Nat × Node)) (d : Desk),
      (tabs.foldl (fun d tab => d.restoreTab x tab) d).srv = d.srv := by
    intro tabs
    induction tabs with
    | nil => exact fun _ => rfl
    | cons tab tabs ih => exact fun d => (ih _).trans (srv_addTree x tab.1 tab.2 _)
  unfold Desk.restoreFromV1
  split
  · exact hFold tabs d
  · rfl

/-- A run keeps this: the tabs know what is so, and the stored layouts name members. -/
structure Desk.InStep (instanceId : Nat) (blobTree : Bytes → Option Node) (d : Desk) : Prop where
  trusted : d.Trusted False instanceId
  named : Named blobTree d.srv

def gesturesInStep (blobTree : Bytes → Option Node) : Actions Desk Gesture :=
  ⟨Gesture.perform blobTree, fun d g => g.guard False d ∧ g.InStep blobTree d⟩

theorem named_move {m : Move} (h : d.InStep instanceId blobTree) (hGuard : (Gesture.move m).guard False d)
    (hInStep : (Gesture.move m).InStep blobTree d) : Named blobTree (m.perform d).srv := by
  by_cases hDaemon : ∃ a, m = .daemon a
  · obtain ⟨a, rfl⟩ := hDaemon
    exact named_perform h.trusted.reached h.named hGuard.1.1 hInStep hGuard.1.2
  by_cases hSync : ∃ i ans, m = .sync i ans
  · obtain ⟨i, ans, rfl⟩ := hSync
    cases hTab : d.tabs[i]? with
    | none =>
      have hSame : (Move.sync i ans).perform d = d := by
        simp only [Move.perform, Desk.withTab, hTab]
      rw [hSame]
      exact h.named
    | some t =>
      have hNext : ((Move.sync i ans).perform d).srv = (syncPageGroup ans d.srv t.page).1 := by
        simp only [Move.perform, Desk.withTab, hTab]
      rw [hNext]
      by_cases hQuiet : t.page.zoomed = true ∨ t.page.root.collectSessionIds = [] ∨ ans.text = none
      · rw [syncPageGroup_quiet hQuiet]
        exact h.named
      · simp only [not_or, Bool.not_eq_true] at hQuiet
        obtain ⟨hZoom, hSome, hPrinted⟩ := hQuiet
        obtain ⟨text, hText⟩ := Option.ne_none_iff_exists'.mp hPrinted
        exact named_sync (h.trusted.perm (perm_of_tab hTab)) h.named hGuard.2 hZoom hSome hText
          (hInStep t text hTab hZoom hSome hText)
  rw [srv_move (fun a hSame => hDaemon ⟨a, hSame⟩) fun i ans hSame => hSync ⟨i, ans, hSame⟩]
  exact h.named

theorem inStep_perform {g : Gesture} (h : d.InStep instanceId blobTree) (hGuard : g.guard False d)
    (hInStep : g.InStep blobTree d) : (g.perform blobTree d).InStep instanceId blobTree := by
  have hFits : g.Fits False blobTree d := by
    cases g with
    | move m => trivial
    | restoreGroup window gid x => exact fun tree hStored => (fits_of_named h.named hStored).1
    | restoreFromV1 tabs x => exact hInStep
  refine ⟨trusted_perform h.trusted hGuard hFits, ?_⟩
  cases g with
  | restoreGroup window gid x =>
    unfold Gesture.perform Desk.restoreGroup
    dsimp only
    split
    · exact h.named
    · rw [srv_addTree]
      exact h.named
  | restoreFromV1 tabs x =>
    change Named blobTree (d.restoreFromV1 x tabs).srv
    rw [srv_restoreFromV1]
    exact h.named
  | move m => exact named_move h hGuard hInStep

/-- In every run of gestures in step, restore_group attaches to no session that is on screen. -/
theorem restore_steals_nothing (hFound : Reached instanceId srv) (hNamed : Named blobTree srv)
    (h : (gesturesInStep blobTree).Path (fun _ => True) (.opened srv) d) : d.StealsNothing blobTree := by
  have hInStep : d.InStep instanceId blobTree := by
    refine h.invariant (P := fun d => d.InStep instanceId blobTree) ?_ ⟨trusted_opened hFound, hNamed⟩
    rintro d g hInStep ⟨hGuard, hHere⟩ _
    exact inStep_perform hInStep hGuard hHere
  intro gid x tree hStored
  exact (fits_of_named hInStep.named hStored).2

end Layouts

theorem enabled_inStep : (gesturesInStep printedTree).Enabled (.opened (Server.initial 7)) pairing := by
  have hSplit : (deskOf (pairing.take 4)).srv.groups = [] ∧
      (deskOf (pairing.take 4)).tabs.map (fun t => t.page.root.toVariant) = [.paned (.leaf 1) (.leaf 2)] ∧
      printedTree blobOfBoth = some (.paned (.leaf 1) (.leaf 2)) := by decide +kernel
  obtain ⟨hGroups, hTabs, hPrinted⟩ := hSplit
  have hGuards := @Actions.Enabled.guard_take _ _ _ _ _ (@enabled_pairing False)
  refine Actions.enabled_of_take pairing ?_
  rintro (_ | _ | _ | _ | _ | i) hi
  · exact ⟨(hGuards 0 (by decide)).1, rfl⟩
  · exact ⟨(hGuards 1 (by decide)).1, rfl⟩
  · exact ⟨(hGuards 2 (by decide)).1, trivial⟩
  · exact ⟨(hGuards 3 (by decide)).1, trivial⟩
  · refine ⟨(hGuards 4 (by decide)).1, ?_⟩
    intro t text hTab _ _ hText
    obtain rfl : blobOfBoth = text := Option.some.inj hText
    have hHere : (deskOf (pairing.take 4)).tabs[0]? = some t := hTab
    refine ⟨?_, rfl, rfl, fun _ _ => rfl, fun g hg => ?_⟩
    · have hVariant : t.page.root.toVariant ∈ (deskOf (pairing.take 4)).tabs.map fun t => t.page.root.toVariant :=
        List.mem_map_of_mem (List.mem_of_getElem? hHere)
      rw [hTabs, List.mem_singleton] at hVariant
      rw [hVariant]
      exact hPrinted
    · have hNone : g ∈ (deskOf (pairing.take 4)).srv.groups := hg
      rw [hGroups] at hNone
      cases hNone
  · exact absurd hi (by simp [pairing])

/-- The tab is closed, and another one opened with a third session. -/
def replacing : List Gesture := [.move (.closeTab 0), .move (shellCreated 102), .move (.newTab 0 (some 2))]

theorem path_inStep : (gesturesInStep printedTree).Path (fun _ => True) (.opened (Server.initial 7))
    (deskOf (pairing ++ replacing)) := by
  have hStarted : (deskOf (pairing ++ replacing.take 1)).srv.childOf 102 = none ∧
      (deskOf (pairing ++ replacing.take 2)).Fresh (some 2) ∧
        (deskOf (pairing ++ replacing.take 2)).Unheard (some 2) := by decide +kernel
  obtain ⟨hNone, hFresh, hUnheard⟩ := hStarted
  simp only [deskOf, List.foldl_append] at hNone hFresh hUnheard ⊢
  refine .trans (.of_enabled pairing enabled_inStep) (.of_enabled replacing (Actions.enabled_of_take replacing ?_))
  rintro (_ | _ | _ | i) hi
  · exact ⟨⟨trivial, trivial⟩, trivial⟩
  · exact ⟨⟨⟨⟨by decide, hNone, fresh_shell 102⟩, by simp⟩, False.elim⟩, rfl⟩
  · exact ⟨⟨hFresh, hUnheard⟩, trivial⟩
  · exact absurd hi (by simp [replacing])

/-- The tab with both panes is stored and closed: the restore finds its sessions off screen, where the third one is. -/
theorem restore_steals_nothing_paired :
    (deskOf (pairing ++ replacing)).storedLayout calmRestore printedTree 1 = some (.paned (.leaf 1) (.leaf 2)) ∧
      (deskOf (pairing ++ replacing)).attached calmRestore (.paned (.leaf 1) (.leaf 2)) = [1, 2] ∧
      (deskOf (pairing ++ replacing)).tabs.map (fun t => t.page.sids) = [[3]] ∧
      (deskOf (pairing ++ replacing)).StealsNothing printedTree :=
  ⟨by decide +kernel, by decide +kernel, by decide +kernel,
    restore_steals_nothing (.refl _) (fun g hg => by cases hg) path_inStep⟩

/-- The second pane is in a tab of its own when the old group, which still names it, is restored. -/
theorem restore_steals_moved_pane :
    (fittingGestures False printedTree).Path (fun _ => True) (.opened (Server.initial 7))
      (deskOf (pairing ++ movingOut)) ∧ ¬ (deskOf (pairing ++ movingOut)).StealsNothing printedTree := by
  refine ⟨path_movingOut, fun hSpares => ?_⟩
  have hStolen : (deskOf (pairing ++ movingOut)).storedLayout calmRestore printedTree 1 =
        some (.paned (.leaf 1) (.leaf 2)) ∧
      (2 : UInt64) ∈ (deskOf (pairing ++ movingOut)).attached calmRestore (.paned (.leaf 1) (.leaf 2)) ∧
      ∃ t ∈ (deskOf (pairing ++ movingOut)).tabs, (2 : UInt64) ∈ t.page.sids := by decide +kernel
  obtain ⟨hStored, hAttached, t, ht, hShown⟩ := hStolen
  exact hSpares 1 calmRestore _ hStored 2 hAttached t ht hShown

end Epimone.Client
