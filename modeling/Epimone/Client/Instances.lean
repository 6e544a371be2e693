import Epimone.Client.Procedures

/-! # Ids and the instance that issued them

What the procedures of the GUI keep while one daemon instance answers: they send
requests for ids of this instance only, if the ids they start from are its own or
are guarded by `instance_ok`.
-/
set_option autoImplicit false

namespace Epimone.Talks

open Client Dialogues Dialogue

/-- With this instance: the requests put down ids of its own only, and so the replies; the strict ones are
also sent for no others. -/
def contract (strict : Prop) (live : Nat) : Contract Ask Reply where
  asks q := (strict → ∀ s ∈ q.named, s.Of live) ∧ (∀ s ∈ q.records, s.Of live) ∧
    ∀ stamp gids, q = .writeGroups stamp gids → stamp = 0 ∨ stamp = live
  gives _ r := (∀ s ∈ r.ids, s.Of live) ∧ ∀ n, r = .instanceId n → n = live

/-- The GUI goes by the same session instance, and has only got ids of this instance. -/
def Grows (live : Nat) (gui gui' : Gui) : Prop :=
  gui'.sessionInstance = gui.sessionInstance ∧ ∀ s ∈ gui'.ids, s.Of live ∨ s ∈ gui.ids

theorem Stored.of_none (live : Nat) : Stored.none.Of live := fun h => absurd rfl h

namespace Grows

variable {live : Nat} {gui gui' gui'' : Gui}

theorem refl (gui : Gui) : Grows live gui gui := ⟨rfl, fun _ hs => Or.inr hs⟩

theorem trans (h : Grows live gui gui') (h' : Grows live gui' gui'') : Grows live gui gui'' := by
  refine ⟨h'.1.trans h.1, ?_⟩
  intro s hs
  rcases h'.2 s hs with hNew | hOld
  · exact Or.inl hNew
  · exact h.2 s hOld

theorem windows (gui : Gui) (windows : List (List StoredPage))
    (h : ∀ page ∈ windows.flatten, ∀ s ∈ page.ids, s.Of live ∨ s ∈ gui.pageIds) :
    Grows live gui { gui with windows := windows } := by
  refine ⟨rfl, ?_⟩
  intro s hs
  rcases List.mem_append.mp hs with hPages | hShown
  · obtain ⟨page, hPage, hId⟩ := List.mem_flatMap.mp hPages
    rcases h page hPage s hId with hNew | hOld
    · exact Or.inl hNew
    · exact Or.inr (List.mem_append_left _ hOld)
  · exact Or.inr (List.mem_append_right _ hShown)

end Grows

theorem mem_pageIds {gui : Gui} {page : StoredPage} {s : Stored} (hPage : page ∈ gui.windows.flatten)
    (hs : s ∈ page.ids) : s ∈ gui.pageIds := List.mem_flatMap.mpr ⟨page, hPage, hs⟩

theorem mem_flatten_modify {α : Type} {windows : List (List α)} {w : Nat} {f : List α → List α} {a : α}
    (h : a ∈ (windows.modify w f).flatten) : a ∈ windows.flatten ∨ ∃ pages ∈ windows, a ∈ f pages := by
  induction windows generalizing w with
  | nil => exact absurd h (by simp)
  | cons pages rest ih =>
    cases w with
    | zero =>
      rw [List.modify_zero_cons, List.flatten_cons] at h
      rcases List.mem_append.mp h with hHere | hRest
      · exact Or.inr ⟨pages, List.mem_cons_self, hHere⟩
      · exact Or.inl (List.mem_append_right _ hRest)
    | succ w =>
      rw [List.modify_succ_cons, List.flatten_cons] at h
      rcases List.mem_append.mp h with hHere | hRest
      · exact Or.inl (List.mem_append_left _ hHere)
      · rcases ih hRest with hOld | ⟨pages', hMem, hIn⟩
        · exact Or.inl (List.mem_append_right _ hOld)
        · exact Or.inr ⟨pages', List.mem_cons_of_mem _ hMem, hIn⟩

section Keeping

variable {strict : Prop} {live : Nat} {gui : Gui}

theorem keeps_isGranted {q : Ask} (h : (contract strict live).asks q) :
    (isGranted q).Keeps (contract strict live) fun _ => True := by
  refine keeps_request h fun r _ => ?_
  cases r <;> trivial

theorem keeps_madeBy {q : Ask} (h : (contract strict live).asks q) :
    (madeBy q).Keeps (contract strict live) fun sid => sid.Of live := by
  refine keeps_request h fun r hGives => ?_
  cases r with
  | made id => exact hGives.1 id List.mem_cons_self
  | _ => exact Stored.of_none live

theorem asks_for {q : Ask} (hNamed : strict → ∀ s ∈ q.named, s.Of live) (hRecords : q.records = [])
    (hOther : ∀ stamp gids, q ≠ .writeGroups stamp gids) : (contract strict live).asks q := by
  refine ⟨hNamed, ?_, fun stamp gids hSame => absurd hSame (hOther stamp gids)⟩
  rw [hRecords]
  exact fun s hs => absurd hs List.not_mem_nil

theorem asks_plain {q : Ask} (hNamed : q.named = []) (hRecords : q.records = [])
    (hOther : ∀ stamp gids, q ≠ .writeGroups stamp gids) : (contract strict live).asks q := by
  refine asks_for (fun _ => ?_) hRecords hOther
  rw [hNamed]
  exact fun s hs => absurd hs List.not_mem_nil

theorem keeps_instanceId : epimoneClientInstanceId.Keeps (contract strict live) fun n => n = 0 ∨ n = live := by
  refine keeps_request (asks_plain rfl rfl nofun) fun r hGives => ?_
  cases r with
  | instanceId n => exact Or.inr (hGives.2 n rfl)
  | _ => exact Or.inl rfl

theorem keeps_listSessions :
    listSessionEntries.Keeps (contract strict live) fun o => ∀ e ∈ o.getD [], e.1.Of live := by
  refine keeps_request (asks_plain rfl rfl nofun) fun r hGives => ?_
  cases r with
  | sessions entries => exact fun e he => hGives.1 e.1 (List.mem_map_of_mem he)
  | _ => exact fun e he => absurd he List.not_mem_nil

theorem keeps_listGroups :
    listGroupEntries.Keeps (contract strict live) fun o => ∀ g ∈ o.getD [], ∀ s ∈ g.ids, s.Of live := by
  refine keeps_request (asks_plain rfl rfl nofun) fun r hGives => ?_
  cases r with
  | groups entries => exact fun g hg s hs => hGives.1 s (List.mem_flatMap.mpr ⟨g, hg, hs⟩)
  | _ => exact fun e he => absurd he List.not_mem_nil

/-! The sync. -/

def StoredPage.Of (live : Nat) (page : StoredPage) : Prop := ∀ s ∈ page.ids, s.Of live

variable {print : Print} {page : StoredPage}

theorem StoredPage.Of.setGroupId (h : page.Of live) {gid : Stored} (hGid : gid.Of live) :
    (page.setGroupId gid).Of live := by
  unfold StoredPage.setGroupId
  split
  · exact h
  · intro s hs
    rcases List.mem_cons.mp hs with rfl | hLeaf
    · exact hGid
    · exact h s (List.mem_cons_of_mem _ hLeaf)

theorem StoredPage.Of.markEnrolled (h : page.Of live) (sid : UInt64) : (page.markEnrolled sid).Of live := by
  unfold StoredPage.markEnrolled
  split
  · exact h
  · exact h

theorem keeps_updateGroup (h : page.Of live) :
    (updateGroup print page).Keeps (contract strict live) fun page => page.Of live := by
  unfold updateGroup
  split
  · exact h
  · have hAsks : (contract strict live).asks (.groupSet page.group (print page) page.leaves) := by
      refine ⟨fun _ => List.forall_mem_singleton.mpr (h _ List.mem_cons_self), ?_, nofun⟩
      intro s hs
      exact h s (List.mem_cons_of_mem _ hs)
    refine (keeps_isGranted hAsks).bind fun granted _ => ?_
    split
    · exact h
    · exact h.setGroupId (Stored.of_none live)

theorem keeps_createGroup (h : page.Of live) :
    (createGroup print page).Keeps (contract strict live) fun page => page.Of live := by
  unfold createGroup
  split
  · exact h
  · have hAsks : (contract strict live).asks (.groupNew (print page) page.leaves) :=
      ⟨fun _ s hs => absurd hs List.not_mem_nil, fun s hs => h s (List.mem_cons_of_mem _ hs), nofun⟩
    exact (keeps_madeBy hAsks).bind fun gid hGid => h.setGroupId hGid

theorem keeps_enroll {gid sid : Stored} (hGid : gid.Of live) (hSid : sid.Of live) (h : page.Of live) :
    (enroll gid page sid).Keeps (contract strict live) fun page => page.Of live := by
  unfold enroll
  split
  · exact h
  · have hAsks : (contract strict live).asks (.groupAdd gid sid) :=
      asks_for (fun _ => List.forall_mem_cons.mpr ⟨hGid, List.forall_mem_singleton.mpr hSid⟩) rfl nofun
    refine (keeps_isGranted hAsks).bind fun granted _ => ?_
    split
    · exact h.markEnrolled sid.id
    · exact h

theorem keeps_syncPageGroup (h : page.Of live) :
    (syncPageGroup print page).Keeps (contract strict live) fun page => page.Of live := by
  unfold syncPageGroup
  split
  · exact h
  · refine (keeps_updateGroup h).bind fun updated hUpdated => ?_
    refine (keeps_createGroup hUpdated).bind fun created hCreated => ?_
    split
    · exact hCreated
    · refine keeps_fold (fun next sid hSid hNext => ?_) hCreated
      refine keeps_enroll (hCreated _ List.mem_cons_self) ?_ hNext
      exact hCreated sid (List.mem_cons_of_mem _ (List.mem_filter.mp hSid).1)

theorem forall₂_right {α β : Type} {P : β → Prop} {l : List α} {l' : List β}
    (h : List.Forall₂ (fun _ b => P b) l l') : ∀ b ∈ l', P b := by
  induction h with
  | nil => exact fun b hb => absurd hb List.not_mem_nil
  | cons hHead _ ih =>
    intro b hb
    rcases List.mem_cons.mp hb with rfl | hRest
    · exact hHead
    · exact ih b hRest

theorem of_groupIds {pages : List StoredPage} (h : ∀ page ∈ pages, page.Of live) : ∀ s ∈ groupIds pages, s.Of live := by
  intro s hs
  obtain ⟨page, hPage, rfl⟩ := List.mem_map.mp (List.mem_filter.mp hs).1
  exact h page hPage _ List.mem_cons_self

theorem keeps_saveGroupsState {gids : List Stored} (hGids : ∀ s ∈ gids, s.Of live) :
    (saveGroupsState gui gids).Keeps (contract strict live) fun gui' =>
      gui'.windows = gui.windows ∧ gui'.shown = gui.shown ∧ gui'.sessionInstance = gui.sessionInstance := by
  refine keeps_instanceId.bind fun n hn => ?_
  have hAsks : (contract strict live).asks (.writeGroups n gids) := by
    refine ⟨fun _ s hs => absurd hs List.not_mem_nil, hGids, ?_⟩
    rintro stamp gids' hSame
    cases hSame
    exact hn
  exact (keeps_isGranted hAsks).bind fun _ _ => ⟨rfl, rfl, rfl⟩

/-- What the GUI keeps when its pages are all of this instance. -/
def Owns (live : Nat) (gui gui' : Gui) : Prop :=
  gui'.sessionInstance = gui.sessionInstance ∧ gui'.shown = gui.shown ∧ ∀ page ∈ gui'.windows.flatten, page.Of live

theorem Owns.grows {gui' : Gui} (h : Owns live gui gui') : Grows live gui gui' := by
  obtain ⟨hSession, hShown, hPages⟩ := h
  refine ⟨hSession, ?_⟩
  intro s hs
  rcases List.mem_append.mp hs with hPage | hOther
  · obtain ⟨page, hPage, hId⟩ := List.mem_flatMap.mp hPage
    exact Or.inl (hPages page hPage s hId)
  · rw [hShown] at hOther
    exact Or.inr (List.mem_append_right _ hOther)

theorem keeps_syncGroupsNow (h : ∀ page ∈ gui.windows.flatten, page.Of live) :
    (syncGroupsNow print gui).Keeps (contract strict live) (Owns live gui) := by
  have hSynced : (forEach (forEach (syncPageGroup print)) gui.windows).Keeps (contract strict live) fun windows =>
      ∀ page ∈ windows.flatten, page.Of live := by
    have hWindow : ∀ pages ∈ gui.windows, (forEach (syncPageGroup print) pages).Keeps (contract strict live)
        fun pages' => ∀ page ∈ pages', page.Of live := by
      intro pages hPages
      have hEach : (forEach (syncPageGroup print) pages).Keeps (contract strict live) fun pages' =>
          List.Forall₂ (fun _ page => page.Of live) pages pages' :=
        keeps_forEach fun page hPage => keeps_syncPageGroup (h page (List.mem_flatten.mpr ⟨pages, hPages, hPage⟩))
      exact hEach.mono fun pages' hAll => forall₂_right hAll
    have hEach : (forEach (forEach (syncPageGroup print)) gui.windows).Keeps (contract strict live) fun windows =>
        List.Forall₂ (fun _ pages' => ∀ page ∈ pages', page.Of live) gui.windows windows :=
      keeps_forEach hWindow
    refine hEach.mono ?_
    intro windows hAll page hPage
    obtain ⟨pages', hPages', hIn⟩ := List.mem_flatten.mp hPage
    exact forall₂_right hAll pages' hPages' page hIn
  refine hSynced.bind fun windows hWindows => ?_
  refine (keeps_saveGroupsState (of_groupIds hWindows)).mono ?_
  rintro gui' ⟨hSame, hShown, hSession⟩
  refine ⟨hSession, hShown, ?_⟩
  rw [hSame]
  exact hWindows

theorem keeps_layoutSaveNow (h : ∀ page ∈ gui.windows.flatten, page.Of live) :
    (layoutSaveNow gui).Keeps (contract strict live) (Owns live gui) := by
  unfold layoutSaveNow
  split
  · exact ⟨rfl, rfl, h⟩
  · have hAsks : (contract strict live).asks (.writeLayout (gui.windows.map groupIds)) := by
      refine ⟨fun _ s hs => absurd hs List.not_mem_nil, ?_, nofun⟩
      intro s hs
      obtain ⟨gids, hGids, hIn⟩ := List.mem_flatten.mp hs
      obtain ⟨pages, hPages, rfl⟩ := List.mem_map.mp hGids
      exact of_groupIds (fun page hPage => h page (List.mem_flatten.mpr ⟨pages, hPages, hPage⟩)) s hIn
    exact (keeps_isGranted hAsks).bind fun _ _ => ⟨rfl, rfl, h⟩

theorem keeps_save {doGroups doLayout : Bool} (h : ∀ page ∈ gui.windows.flatten, page.Of live) :
    (save print doGroups doLayout gui).Keeps (contract strict live) (Owns live gui) := by
  have hFirst : (if doGroups = true then syncGroupsNow print gui else pure gui).Keeps (contract strict live)
      (Owns live gui) := by
    split
    · exact keeps_syncGroupsNow h
    · exact ⟨rfl, rfl, h⟩
  refine hFirst.bind fun synced hSynced => ?_
  split
  · refine (keeps_layoutSaveNow hSynced.2.2).mono ?_
    rintro gui' ⟨hSession, hShown, hPages⟩
    exact ⟨hSession.trans hSynced.1, hShown.trans hSynced.2.1, hPages⟩
  · exact hSynced

/-! Restoring and renaming. -/

theorem keeps_instanceOk : (instanceOk gui).Keeps (contract strict live) fun ok => ok = true → gui.Passes live := by
  refine keeps_instanceId.bind fun n hn => ?_
  intro hOk
  have hPasses := of_decide_eq_true hOk
  rcases hn with rfl | rfl
  · exact absurd rfl hPasses.1
  · exact hPasses

theorem keeps_buildLeaf {gid leaf : Stored} {alive : List Nat} {built : List Stored} (hGid : gid.Of live)
    (hLeaf : leaf.Of live) (h : ∀ s ∈ built, s.Of live) :
    (buildLeaf gid alive built leaf).Keeps (contract strict live) fun built => ∀ s ∈ built, s.Of live := by
  unfold buildLeaf
  split
  · have hAsks : (contract strict live).asks (.attach leaf (some gid)) :=
      asks_for (fun _ => List.forall_mem_cons.mpr ⟨hLeaf, List.forall_mem_singleton.mpr hGid⟩) rfl nofun
    refine (keeps_isGranted hAsks).bind fun granted _ => ?_
    split
    · intro s hs
      rcases List.mem_append.mp hs with hOld | hNew
      · exact h s hOld
      · rw [List.mem_singleton.mp hNew]
        exact hLeaf
    · exact h
  · exact h

theorem Grows.addPage (w : Nat) (hPage : page.Of live) : Grows live gui (gui.addPage w page) := by
  refine Grows.windows gui _ ?_
  intro page' hPage' s hs
  rcases mem_flatten_modify hPage' with hOld | ⟨pages, hPages, hIn⟩
  · exact Or.inr (mem_pageIds hOld hs)
  · rcases List.mem_append.mp hIn with hOld | hNew
    · exact Or.inr (mem_pageIds (List.mem_flatten.mpr ⟨pages, hPages, hOld⟩) hs)
    · rw [List.mem_singleton.mp hNew] at hs
      exact Or.inl (hPage s hs)

/-- What the guard goes by. -/
def Gui.guard (gui : Gui) : Nat × Nat × Bool := (gui.sessionInstance, gui.recordedInstance, gui.instanceChecked)

theorem passes_congr {gui gui' : Gui} (h : gui'.guard = gui.guard) : gui'.Passes live ↔ gui.Passes live := by
  obtain ⟨hSession, hRest⟩ := Prod.mk.inj h
  obtain ⟨hRecorded, hChecked⟩ := Prod.mk.inj hRest
  rw [Gui.Passes, Gui.Passes, hSession, hRecorded, hChecked]

/-- The GUI has only got ids of this instance, and its guard is the same. -/
def Extends (live : Nat) (gui gui' : Gui) : Prop := Grows live gui gui' ∧ gui'.guard = gui.guard

theorem Extends.refl (gui : Gui) : Extends live gui gui := ⟨Grows.refl gui, rfl⟩

theorem Extends.trans {gui' gui'' : Gui} (h : Extends live gui gui') (h' : Extends live gui' gui'') :
    Extends live gui gui'' :=
  ⟨h.1.trans h'.1, h'.2.trans h.2⟩

theorem keeps_buildGroup {w : Nat} {gid : Stored} {leaves : List Stored} (hGid : gid.Of live)
    (hLeaves : ∀ s ∈ leaves, s.Of live) :
    (buildGroup w gid leaves gui).Keeps (contract strict live) fun result => Extends live gui result.2 := by
  refine keeps_listSessions.bind fun entries _ => ?_
  cases entries with
  | none => exact Extends.refl gui
  | some entries =>
    have hBuilt : (fold (buildLeaf gid (aliveSet entries)) [] leaves).Keeps (contract strict live) fun built =>
        ∀ s ∈ built, s.Of live :=
      keeps_fold (fun built leaf hLeaf hBuilt => keeps_buildLeaf hGid (hLeaves leaf hLeaf) hBuilt)
        fun s hs => absurd hs List.not_mem_nil
    refine hBuilt.bind fun built hAll => ?_
    split
    · exact Extends.refl gui
    · refine ⟨Grows.addPage w ?_, rfl⟩
      intro s hs
      rcases List.mem_cons.mp hs with rfl | hLeaf
      · exact hGid
      · exact hAll s hLeaf

theorem of_findEntry {gid : Stored} {entries : List GroupEntry} {found : GroupEntry}
    (hEntries : ∀ g ∈ entries, ∀ s ∈ g.ids, s.Of live) (hFind : findEntry gid entries = some found)
    {leaves : List Stored} (hLeaves : found.leaves = some leaves) : ∀ s ∈ leaves, s.Of live := by
  intro s hs
  refine hEntries found (List.mem_of_find?_eq_some hFind) s ?_
  rw [GroupEntry.ids, hLeaves]
  exact List.mem_cons_of_mem _ (List.mem_append_right _ hs)

/-- Where a guard lets the restore pass, the group has to be of the instance that answers. -/
theorem keeps_restoreGroup {w : Nat} {gid : Stored} (hGuard : gui.Passes live → gid.Of live) :
    (restoreGroup w gid gui).Keeps (contract strict live) fun result => Extends live gui result.2 := by
  unfold restoreGroup
  split
  · exact Extends.refl gui
  · refine keeps_instanceOk.bind fun ok hOk => ?_
    split
    · next hPass =>
      have hGid := hGuard (hOk hPass)
      refine keeps_listGroups.bind fun entries hEntries => ?_
      cases entries with
      | none => exact Extends.refl gui
      | some entries =>
        cases hFind : findEntry gid entries with
        | none => simp only [hFind]; exact Extends.refl gui
        | some found =>
          simp only [hFind]
          split
          · exact Extends.refl gui
          · split
            · exact Extends.refl gui
            · next leaves hLeaves => exact keeps_buildGroup hGid (of_findEntry hEntries hFind hLeaves)
    · exact Extends.refl gui

theorem keeps_renameGroup {rename : Bytes → Bytes} {gid : Stored} (hGuard : gui.Passes live → gid.Of live) :
    (renameGroup rename gid gui).Keeps (contract strict live) fun gui' => Grows live gui gui' := by
  unfold renameGroup
  split
  · exact Grows.refl gui
  · refine keeps_instanceOk.bind fun ok hOk => ?_
    split
    · next hPass =>
      have hGid := hGuard (hOk hPass)
      refine keeps_listGroups.bind fun entries hEntries => ?_
      cases entries with
      | none => exact Grows.refl gui
      | some entries =>
        cases hFind : findEntry gid entries with
        | none => simp only [hFind]; exact Grows.refl gui
        | some found =>
          simp only [hFind]
          split
          · exact Grows.refl gui
          · split
            · exact Grows.refl gui
            · next leaves hLeaves =>
              have hAsks : (contract strict live).asks (.groupSet gid (rename found.text) leaves) :=
                ⟨fun _ => List.forall_mem_singleton.mpr hGid, of_findEntry hEntries hFind hLeaves, nofun⟩
              exact (keeps_isGranted hAsks).bind fun _ _ => Grows.refl gui
    · exact Grows.refl gui

/-! Panes that begin and end, and the kills. -/

theorem keeps_createTerminal : createTerminal.Keeps (contract strict live) fun leaf => leaf.Of live := by
  have hCreate : (contract strict live).asks .create := asks_plain rfl rfl nofun
  refine (keeps_madeBy hCreate).bind fun sid hSid => ?_
  split
  · exact Stored.of_none live
  · have hAsks : (contract strict live).asks (.attach sid none) :=
      asks_for (fun _ => List.forall_mem_singleton.mpr hSid) rfl nofun
    refine (keeps_isGranted hAsks).bind fun granted _ => ?_
    split
    · exact hSid
    · exact Stored.of_none live

theorem keeps_newTab (w : Nat) : (newTab w gui).Keeps (contract strict live) (Grows live gui) := by
  refine keeps_createTerminal.bind fun leaf hLeaf => Grows.addPage w ?_
  intro s hs
  rcases List.mem_cons.mp hs with rfl | hRest
  · exact Stored.of_none live
  · rw [List.mem_singleton.mp hRest]
    exact hLeaf

theorem keeps_splitPage (w i : Nat) : (splitPage w i gui).Keeps (contract strict live) (Grows live gui) := by
  refine keeps_createTerminal.bind fun leaf hLeaf => Grows.windows gui _ ?_
  intro page hPage s hs
  rcases mem_flatten_modify hPage with hOld | ⟨pages, hPages, hIn⟩
  · exact Or.inr (mem_pageIds hOld hs)
  · have hSplit : page ∈ pages ∨ ∃ old ∈ pages,
        page = { old with leaves := old.leaves ++ [leaf], zoomed := false } := by
      obtain ⟨j, hj⟩ := List.mem_iff_getElem?.mp hIn
      rw [List.getElem?_modify] at hj
      split at hj
      · obtain ⟨old, hOld, hSame⟩ := Option.map_eq_some_iff.mp hj
        exact Or.inr ⟨old, List.mem_of_getElem? hOld, hSame.symm⟩
      · exact Or.inl (List.mem_of_getElem? ((id_map pages[j]?).symm.trans hj))
    rcases hSplit with hSame | ⟨old, hOld, rfl⟩
    · exact Or.inr (mem_pageIds (List.mem_flatten.mpr ⟨pages, hPages, hSame⟩) hs)
    · have hThere := @mem_pageIds gui old s (List.mem_flatten.mpr ⟨pages, hPages, hOld⟩)
      rcases List.mem_cons.mp hs with rfl | hLeaves
      · exact Or.inr (hThere List.mem_cons_self)
      · rcases List.mem_append.mp hLeaves with hBefore | hNew
        · exact Or.inr (hThere (List.mem_cons_of_mem _ hBefore))
        · rw [List.mem_singleton.mp hNew]
          exact Or.inl hLeaf

theorem Grows.removeTerminal (sid : Stored) : Grows live gui (gui.removeTerminal sid) := by
  refine Grows.windows gui _ ?_
  intro page hPage s hs
  obtain ⟨pages, hPages, hIn⟩ := List.mem_flatten.mp hPage
  obtain ⟨old, hOld, rfl⟩ := List.mem_map.mp (List.mem_filter.mp hPages).1
  obtain ⟨page', hPage', rfl⟩ := List.mem_map.mp (List.mem_filter.mp hIn).1
  have hThere := @mem_pageIds gui page' s (List.mem_flatten.mpr ⟨old, hOld, hPage'⟩)
  rcases List.mem_cons.mp hs with rfl | hLeaf
  · exact Or.inr (hThere List.mem_cons_self)
  · exact Or.inr (hThere (List.mem_cons_of_mem _ (List.mem_of_mem_erase hLeaf)))

theorem keeps_kill {sid : Stored} {gid : Option Stored} (hSid : strict → sid.Of live)
    (hGid : strict → ∀ s ∈ gid, s.Of live) :
    (isGranted (.kill sid gid)).Keeps (contract strict live) fun _ => True := by
  refine keeps_isGranted (asks_for (fun hStrict => List.forall_mem_cons.mpr ⟨hSid hStrict, ?_⟩) rfl nofun)
  exact fun s hs => hGid hStrict s (Option.mem_toList.mp hs)

theorem keeps_deathIdle {sid : Stored} (hSid : strict → sid.Of live) :
    (deathIdle sid gui).Keeps (contract strict live) (Grows live gui) := by
  unfold deathIdle
  split
  · exact Grows.removeTerminal sid
  · refine keeps_listSessions.bind fun entries _ => ?_
    dsimp only
    split
    · exact Grows.removeTerminal sid
    · refine (keeps_kill hSid fun _ s hs => ?_).bind fun _ _ => Grows.removeTerminal sid
      cases hs

theorem keeps_killAll {victims : List (Stored × Stored)} (h : strict → ∀ v ∈ victims, v.1.Of live ∧ v.2.Of live) :
    (forEach (fun v : Stored × Stored => killSession (some v.1) v.2) victims).Keeps (contract strict live) fun done =>
      List.Forall₂ (fun _ _ => True) victims done := by
  refine keeps_forEach fun v hv => ?_
  refine (keeps_kill (fun hStrict => (h hStrict v hv).2) ?_).bind fun _ _ => trivial
  intro hStrict s hs
  cases hs
  exact (h hStrict v hv).1

/-- The sessions killed are members by the daemon's own reply; the groups are those they were chosen by. -/
theorem keeps_killMembers {choose : GroupEntry → Option Stored}
    (hChoose : strict → ∀ g gid, choose g = some gid → gid.Of live) :
    (killMembers choose).Keeps (contract strict live) fun _ => True := by
  refine keeps_listGroups.bind fun entries hEntries => ?_
  have hVictims : strict → ∀ v ∈ (entries.getD []).flatMap fun g =>
      (choose g).toList.flatMap fun gid => g.members.map (gid, ·), v.1.Of live ∧ v.2.Of live := by
    intro hStrict v hv
    obtain ⟨g, hg, hv⟩ := List.mem_flatMap.mp hv
    obtain ⟨gid, hGid, hv⟩ := List.mem_flatMap.mp hv
    obtain ⟨m, hm, rfl⟩ := List.mem_map.mp hv
    exact ⟨hChoose hStrict g gid (Option.mem_toList.mp hGid),
      hEntries g hg m (List.mem_cons_of_mem _ (List.mem_append_left _ hm))⟩
  exact (keeps_killAll hVictims).bind fun _ _ => trivial

theorem keeps_overviewReload : (overviewReload gui).Keeps (contract strict live) (Grows live gui) := by
  refine keeps_listGroups.bind fun groups hGroups => ?_
  refine keeps_listSessions.bind fun sessions hSessions => ?_
  refine ⟨rfl, ?_⟩
  intro s hs
  rcases List.mem_append.mp hs with hPage | hShown
  · exact Or.inr (List.mem_append_left _ hPage)
  · rcases List.mem_append.mp hShown with hGroup | hSession
    · obtain ⟨g, hg, hIn⟩ := List.mem_flatMap.mp hGroup
      exact Or.inl (hGroups g hg s hIn)
    · obtain ⟨e, he, rfl⟩ := List.mem_map.mp hSession
      exact Or.inl (hSessions e he)

/-! The start. -/

theorem keeps_checkInstance {recorded : Option Nat} :
    (checkInstance recorded .initial).Keeps (contract strict live) fun gui =>
      (gui.sessionInstance = 0 ∨ gui.sessionInstance = live) ∧ gui.recordedInstance = recorded.getD 0 ∧
      gui.windows = [] ∧ gui.shown = [] := by
  refine keeps_instanceId.bind fun n hn => ?_
  exact ⟨hn, rfl, rfl, rfl⟩

theorem keeps_restoreWindow {gids : List Stored} (hGuard : ∀ gid ∈ gids, gui.Passes live → gid.Of live) :
    (restoreWindow gui gids).Keeps (contract strict live) (Extends live gui) := by
  have hOpened : Extends live gui { gui with windows := gui.windows ++ [[]] } := by
    refine ⟨Grows.windows gui _ ?_, rfl⟩
    intro page hPage s hs
    rw [List.flatten_append] at hPage
    exact Or.inr (mem_pageIds (by simpa using hPage) hs)
  have hLoop : (fold (fun (state : Nat × Gui) gid => do
      let result ← restoreGroup gui.windows.length gid state.2
      return (if result.1 then state.1 + 1 else state.1, result.2))
        (0, { gui with windows := gui.windows ++ [[]] }) gids).Keeps (contract strict live)
          fun state => Extends live gui state.2 := by
    refine keeps_fold (fun state gid hGid hState => ?_) hOpened
    have hPassed : state.2.Passes live → gid.Of live := fun hPasses =>
      hGuard gid hGid ((passes_congr hState.2).mp hPasses)
    exact (keeps_restoreGroup hPassed).bind fun result hResult => hState.trans hResult
  refine hLoop.bind fun state hState => ?_
  obtain ⟨restored, gui'⟩ := state
  dsimp only
  split
  · refine hState.trans ⟨Grows.windows gui' _ ?_, rfl⟩
    intro page hPage s hs
    obtain ⟨pages, hPages, hIn⟩ := List.mem_flatten.mp hPage
    exact Or.inr (mem_pageIds (List.mem_flatten.mpr ⟨pages, List.mem_of_mem_eraseIdx hPages, hIn⟩) hs)
  · exact hState

theorem keeps_restoreFromV2 {windows : List (List Stored)}
    (hGuard : ∀ gid ∈ windows.flatten, gui.Passes live → gid.Of live) :
    (restoreFromV2 windows gui).Keeps (contract strict live) (Extends live gui) := by
  refine keeps_fold (fun gui' gids hGids hExtends => ?_) (Extends.refl gui)
  refine (keeps_restoreWindow fun gid hGid hPasses => ?_).mono fun gui'' hNext => hExtends.trans hNext
  exact hGuard gid (List.mem_flatten.mpr ⟨gids, hGids, hGid⟩) ((passes_congr hExtends.2).mp hPasses)

/-- The start: the GUI is bound to this instance or to none, and has only ids of this one, if what the
file has recorded vouches for the saved ids. -/
theorem keeps_activate {recorded : Option Nat} {layout : Option (List (List Stored))}
    (hVouched : ∀ gid ∈ (layout.getD []).flatten, recorded.getD 0 = 0 ∨ recorded.getD 0 = live → gid.Of live) :
    (activate recorded layout).Keeps (contract strict live) fun gui =>
      (gui.sessionInstance = 0 ∨ gui.sessionInstance = live) ∧ ∀ s ∈ gui.ids, s.Of live := by
  refine keeps_checkInstance.bind fun checked hChecked => ?_
  obtain ⟨hSession, hRecorded, hWindows, hShown⟩ := hChecked
  have hBare : checked.ids = [] := by
    rw [Gui.ids, Gui.pageIds, Gui.pages, hWindows, hShown]
    rfl
  have hSound : ∀ gui, Grows live checked gui →
      (gui.sessionInstance = 0 ∨ gui.sessionInstance = live) ∧ ∀ s ∈ gui.ids, s.Of live := by
    rintro gui ⟨hSame, hIds⟩
    rw [hSame]
    refine ⟨hSession, fun s hs => ?_⟩
    rcases hIds s hs with hNew | hOld
    · exact hNew
    · rw [hBare] at hOld
      cases hOld
  have hRestored := @keeps_restoreFromV2 strict live checked (layout.getD []) fun gid hGid hPasses =>
    hVouched gid hGid (by rw [← hRecorded]; exact hPasses.2.2.2.2)
  refine hRestored.bind fun gui hExtends => ?_
  split
  · next hNone =>
    have hOpened : Grows live gui { gui with windows := [[]] } := by
      refine Grows.windows gui _ ?_
      intro page hPage
      cases hPage
    exact (keeps_newTab 0).mono fun gui' hNext => hSound gui' (hExtends.1.trans (hOpened.trans hNext))
  · exact hSound gui hExtends.1

end Keeping

end Epimone.Talks
