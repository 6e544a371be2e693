import Epimone.Client.PaneTrees

/-! # The zoom of a page

A zoomed page hides what is beside the path from its root to one leaf, by the
flags of the widgets themselves. Whatever changes the tree shows all of it
first, and takes the zoom off.
-/
set_option autoImplicit false

namespace Epimone.Client

open LinkedTree IdTree

/-- What is hidden of a page: nothing, or the siblings along the path to the zoomed leaf, of which there is one. -/
def Desktop.HidesOffPath (s : Desktop) (page : Nat) (tree : PageTree) : Prop :=
  match s.zoomedLeaf page with
  | none => ∀ x ∈ ids tree, s.visible x = true
  | some leaf => ∃ c, c ≠ [] ∧ tree = plug c (.leaf leaf) ∧ ∀ x ∈ ids tree, s.visible x = false ↔ x ∈ siblings c

def Desktop.Zooms (s : Desktop) (trees : Nat → PageTree) : Prop := ∀ page ∈ s.pages, s.HidesOffPath page (trees page)

section Walking

variable {h : Heap GtkOrientation}

theorem showAll_below {tree : PageTree} (hBelow : h.Below tree) {fuel : Nat} (hFuel : height tree ≤ fuel)
    (visible : Nat → Bool) (x : Nat) :
    showAll h fuel (some (root tree)) visible x = if x ∈ ids tree then true else visible x := by
  induction tree generalizing fuel visible with
  | leaf a =>
    obtain ⟨fuel, rfl⟩ : ∃ n, fuel = n + 1 := ⟨fuel - 1, by have := hFuel; simp only [height] at this; omega⟩
    have hCell : h.cell a = .item := hBelow
    rw [root, showAll, hCell]
    simp only [ids, List.mem_singleton, Function.update_apply]
  | split label start finish ihStart ihFinish =>
    obtain ⟨hCell, ⟨_, hStart⟩, _, hFinish⟩ := hBelow
    simp only [height] at hFuel
    obtain ⟨fuel, rfl⟩ : ∃ n, fuel = n + 1 := ⟨fuel - 1, by omega⟩
    rw [root, showAll, hCell]
    dsimp only
    rw [ihFinish hFinish (by omega), ihStart hStart (by omega), Function.update_apply]
    simp only [ids, List.mem_cons, List.mem_append]
    grind

/-- The siblings along the path are hidden, and nothing else changes. -/
theorem hideSiblings_around {page : Nat} {c : Context GtkOrientation} {r fuel : Nat} (hAround : h.Around page c r)
    (hParent : h.parent r = some (above page c)) (hNodup : (r :: contextIds c).Nodup) (hFuel : c.length < fuel)
    (found : (Nat → Bool) × Bool) :
    hideSiblings h fuel r found =
      (fun x => if x ∈ siblings c then false else found.1 x, found.2 || decide (c ≠ [])) := by
  induction c generalizing r fuel found with
  | nil =>
    obtain ⟨fuel, rfl⟩ : ∃ n, fuel = n + 1 := ⟨fuel - 1, by omega⟩
    rw [hideSiblings, panedOf_page hAround hParent]
    simp [siblings]
  | cons f c ih =>
    obtain ⟨fuel, rfl⟩ : ∃ n, fuel = n + 1 := ⟨fuel - 1, by omega⟩
    obtain ⟨hOut, hFrames⟩ := List.nodup_cons.mp hNodup
    obtain ⟨hInner, hOuter, hApart⟩ := List.nodup_append.mp hFrames
    have hNe : root f.other ≠ r := by
      rintro rfl
      exact hOut (List.mem_append_left _ (List.mem_cons_of_mem _ (root_mem_ids f.other)))
    obtain ⟨start, finish, hPaned, hSibling⟩ := panedOf_frame hAround hParent hNe
    have hForkNodup : (f.label.1 :: contextIds c).Nodup :=
      List.nodup_cons.mpr ⟨fun hIn => hApart _ List.mem_cons_self _ hIn rfl, hOuter⟩
    rw [hideSiblings, hPaned]
    dsimp only
    rw [hSibling, ih hAround.2.2.2 hAround.2.2.1 hForkNodup (Nat.lt_of_succ_lt_succ hFuel)]
    refine Prod.ext (funext fun x => ?_) ?_
    · simp only [siblings, List.map_cons, List.mem_cons, Function.update_apply]
      grind
    · simp

end Walking

namespace Desktop

variable {s s' : Desktop} {trees : Nat → PageTree} {page : Nat}

theorem hidesOffPath_of_none {tree : PageTree} (hNone : s.zoomedLeaf page = none)
    (hAll : ∀ x ∈ ids tree, s.visible x = true) : s.HidesOffPath page tree := by
  rw [HidesOffPath, hNone]
  exact hAll

theorem HidesOffPath.visible {tree : PageTree} (h : s.HidesOffPath page tree) (hNone : s.zoomedLeaf page = none) :
    ∀ x ∈ ids tree, s.visible x = true := by
  rw [HidesOffPath, hNone] at h
  exact h

/-- What is hidden of a page depends on its zoomed leaf and the flags of its widgets. -/
theorem HidesOffPath.congr {tree : PageTree} (h : s.HidesOffPath page tree)
    (hZoomed : s'.zoomedLeaf page = s.zoomedLeaf page) (hVisible : ∀ x ∈ ids tree, s'.visible x = s.visible x) :
    s'.HidesOffPath page tree := by
  unfold HidesOffPath at *
  rw [hZoomed]
  split at h
  · intro x hx
    rw [hVisible x hx]
    exact h x hx
  · obtain ⟨c, hBeside, hTree, hHidden⟩ := h
    refine ⟨c, hBeside, hTree, fun x hx => ?_⟩
    rw [hVisible x hx]
    exact hHidden x hx

theorem unzoom_zoomedLeaf (s : Desktop) (page : Nat) :
    (s.unzoom page).zoomedLeaf = Function.update s.zoomedLeaf page none := by
  unfold unzoom
  split
  · rename_i hNone
    exact (Function.update_eq_self_iff.mpr hNone.symm).symm
  · rfl

theorem unzoom_visible (h : s.Shows trees) (hPage : page ∈ s.pages) (x : Nat) :
    (s.unzoom page).visible x = if s.zoomedLeaf page ≠ none ∧ x ∈ ids (trees page) then true else s.visible x := by
  unfold unzoom
  split
  · rename_i hNone
    simp [hNone]
  · rename_i hZoomed
    have hHolds := h.holds page hPage
    have hChild : binChild s.heap page = some (root (trees page)) := by
      rw [binChild, hHolds.child]
    dsimp only
    rw [hChild, showAll_below hHolds.below (h.height_le hPage)]
    simp [hZoomed]

theorem Zooms.unzoom (h : s.Shows trees) (hPage : page ∈ s.pages) (hZooms : s.Zooms trees) :
    (s.unzoom page).Zooms trees ∧ (s.unzoom page).zoomedLeaf page = none := by
  have hOff : (s.unzoom page).zoomedLeaf page = none := by
    rw [unzoom_zoomedLeaf]
    exact Function.update_self ..
  refine ⟨fun other hOther => ?_, hOff⟩
  rw [(s.unzoom_fields page).2.2.1] at hOther
  rcases eq_or_ne other page with rfl | hNe
  · refine hidesOffPath_of_none hOff fun x hx => ?_
    rw [unzoom_visible h hPage]
    split
    · rfl
    · rename_i hShown
      rcases eq_or_ne (s.zoomedLeaf other) none with hNone | hSome
      · exact (hZooms other hOther).visible hNone x hx
      · exact absurd ⟨hSome, hx⟩ hShown
  · refine (hZooms other hOther).congr ?_ fun x hx => ?_
    · rw [unzoom_zoomedLeaf, Function.update_of_ne hNe]
    · rw [unzoom_visible h hPage, if_neg]
      rintro ⟨-, hIn⟩
      exact h.apart other hOther page hPage hNe x (List.mem_cons_of_mem _ hx) (List.mem_cons_of_mem _ hIn)

theorem Zooms.reshape {tree : PageTree} (h : s.Shows trees) (hPage : page ∈ s.pages) (hZooms : s.Zooms trees)
    (hOff : s.zoomedLeaf page = none) (hPages : s'.pages = s.pages)
    (hVisible : ∀ x, x < s.next → s'.visible x = s.visible x) (hNew : ∀ x ∈ ids tree, s.next ≤ x → s'.visible x = true)
    (hZoomed : ∀ x, x < s.next → s'.zoomedLeaf x = s.zoomedLeaf x)
    (hIds : ∀ x ∈ ids tree, x ∈ ids (trees page) ∨ s.next ≤ x) : s'.Zooms (Function.update trees page tree) := by
  have hNamed : ∀ other ∈ s.pages, ∀ x ∈ own trees other, x < s.next := h.named
  intro other hOther
  rw [hPages] at hOther
  have hSame := hZoomed other (hNamed other hOther other List.mem_cons_self)
  rcases eq_or_ne other page with rfl | hNe
  · rw [Function.update_self]
    refine hidesOffPath_of_none (hSame.trans hOff) fun x hx => ?_
    rcases hIds x hx with hOld | hLater
    · rw [hVisible x (hNamed other hOther x (List.mem_cons_of_mem _ hOld))]
      exact (hZooms other hOther).visible hOff x hOld
    · exact hNew x hx hLater
  · rw [Function.update_of_ne hNe]
    exact (hZooms other hOther).congr hSame fun x hx => hVisible x (hNamed other hOther x (List.mem_cons_of_mem _ hx))

theorem Zooms.add {tree : PageTree} {new : Nat} (hZooms : s.Zooms trees) (hPages : s'.pages = s.pages ++ [new])
    (hFresh : new ∉ s.pages) (hOld : ∀ other ∈ s.pages, s'.zoomedLeaf other = s.zoomedLeaf other ∧
      ∀ x ∈ ids (trees other), s'.visible x = s.visible x)
    (hOff : s'.zoomedLeaf new = none) (hAll : ∀ x ∈ ids tree, s'.visible x = true) :
    s'.Zooms (Function.update trees new tree) := by
  intro other hOther
  rw [hPages] at hOther
  rcases List.mem_append.mp hOther with hBefore | hHere
  · have hNe : other ≠ new := by
      rintro rfl
      exact hFresh hBefore
    rw [Function.update_of_ne hNe]
    exact (hZooms other hBefore).congr (hOld other hBefore).1 (hOld other hBefore).2
  · rw [List.mem_singleton.mp hHere, Function.update_self]
    exact hidesOffPath_of_none hOff hAll

theorem split_flags (s : Desktop) {w : Nat} (hFocused : s.focused page = some w) (o : GtkOrientation) (started : Bool) :
    (s.split page o started).visible =
        Function.update (Function.update (s.unzoom page).visible s.next true) (s.next + 1) true ∧
      (s.split page o started).zoomedLeaf =
        Function.update (Function.update (s.unzoom page).zoomedLeaf s.next none) (s.next + 1) none := by
  have hNext := (s.unzoom_fields page).2.1
  rw [Desktop.split, hFocused, ← hNext]
  cases started <;> exact ⟨rfl, rfl⟩

theorem Zooms.split (h : s.Shows trees) (hPage : page ∈ s.pages) (hZooms : s.Zooms trees) {w : Nat}
    (hFocused : s.focused page = some w) (o : GtkOrientation) (started : Bool) {tree : PageTree}
    (hShows : (s.split page o started).Shows (Function.update trees page tree))
    (hIds : ∀ x ∈ ids tree, x ∈ ids (trees page) ∨ s.next ≤ x) :
    (s.split page o started).Zooms (Function.update trees page tree) := by
  obtain ⟨hUnzoomed, hOff⟩ := hZooms.unzoom h hPage
  obtain ⟨hVisible, hZoomed⟩ := s.split_flags hFocused o started
  obtain ⟨-, hNext, hPages, -, -, -⟩ := split_fields page o started hFocused
  have hFields := s.unzoom_fields page
  have hLater : ∀ x, x < (s.unzoom page).next → x ≠ s.next ∧ x ≠ s.next + 1 := by
    intro x hx
    rw [hFields.2.1] at hx
    omega
  refine hUnzoomed.reshape (h.of_fields hFields) (hFields.2.2.1 ▸ hPage) hOff
    (hPages.trans hFields.2.2.1.symm) ?_ ?_ ?_ ?_
  · intro x hx
    rw [hVisible, Function.update_of_ne (hLater x hx).2, Function.update_of_ne (hLater x hx).1]
  · intro x hx hNew
    have hBelow : x < s.next + 2 := by
      have hMem : x ∈ own (Function.update trees page tree) page := by
        rw [own_update_self]
        exact List.mem_cons_of_mem _ hx
      rw [← hNext]
      exact hShows.named page (hPages ▸ hPage) x hMem
    rw [hFields.2.1] at hNew
    rw [hVisible, Function.update_apply, Function.update_apply]
    have hTwo : x = s.next + 1 ∨ x = s.next := by omega
    rcases hTwo with rfl | rfl <;> simp
  · intro x hx
    rw [hZoomed, Function.update_of_ne (hLater x hx).2, Function.update_of_ne (hLater x hx).1]
  · rw [hFields.2.1]
    exact hIds

theorem removeTerminal_flags (s : Desktop) (page w : Nat) :
    (s.removeTerminal page w).visible = (s.unzoom page).visible ∧
      (s.removeTerminal page w).zoomedLeaf = (s.unzoom page).zoomedLeaf := by
  unfold removeTerminal
  dsimp only
  split
  · exact ⟨rfl, rfl⟩
  · rw [apply_ite visible, apply_ite zoomedLeaf]
    exact ⟨ite_self _, ite_self _⟩

theorem Zooms.removeTerminal (h : s.Shows trees) (hPage : page ∈ s.pages) (hZooms : s.Zooms trees) {w : Nat}
    {tree : PageTree} (hPages : (s.removeTerminal page w).pages = s.pages) (hIds : ids tree ⊆ ids (trees page)) :
    (s.removeTerminal page w).Zooms (Function.update trees page tree) := by
  obtain ⟨hUnzoomed, hOff⟩ := hZooms.unzoom h hPage
  obtain ⟨hVisible, hZoomed⟩ := s.removeTerminal_flags page w
  have hFields := s.unzoom_fields page
  have hShows := h.of_fields hFields
  have hHere : page ∈ (s.unzoom page).pages := hFields.2.2.1 ▸ hPage
  refine hUnzoomed.reshape hShows hHere hOff (hPages.trans hFields.2.2.1.symm) ?_ ?_ ?_ ?_
  · intro x _
    rw [hVisible]
  · intro x hx hNew
    exact absurd (hShows.named page hHere x (List.mem_cons_of_mem _ (hIds hx))) (Nat.not_lt_of_le hNew)
  · intro x _
    rw [hZoomed]
  · exact fun x hx => Or.inl (hIds hx)

theorem Zooms.openInNewTab (h : s.Shows trees) (hPage : page ∈ s.pages) (hZooms : s.Zooms trees) {w : Nat}
    (hFocused : s.focused page = some w) {tree : PageTree} (hPages : (s.openInNewTab page).pages = s.pages ++ [s.next])
    (hIds : ids tree ⊆ ids (trees page))
    (hVisible : (s.openInNewTab page).visible = Function.update (s.unzoom page).visible s.next true)
    (hZoomed : (s.openInNewTab page).zoomedLeaf = Function.update (s.unzoom page).zoomedLeaf s.next none) :
    (s.openInNewTab page).Zooms (Function.update (Function.update trees page tree) s.next (.leaf w)) := by
  obtain ⟨hUnzoomed, hOff⟩ := hZooms.unzoom h hPage
  have hFields := s.unzoom_fields page
  have hShows := h.of_fields hFields
  have hHere : page ∈ (s.unzoom page).pages := hFields.2.2.1 ▸ hPage
  have hNamed : ∀ other ∈ s.pages, ∀ x ∈ own trees other, x ≠ s.next := fun other hOther x hx =>
    Nat.ne_of_lt (h.named other hOther x hx)
  have hKept : (s.unzoom page).Zooms (Function.update trees page tree) := by
    refine hUnzoomed.reshape hShows hHere hOff rfl (fun _ _ => rfl) ?_ (fun _ _ => rfl) fun x hx => Or.inl (hIds hx)
    intro x hx hNew
    exact absurd (hShows.named page hHere x (List.mem_cons_of_mem _ (hIds hx))) (Nat.not_lt_of_le hNew)
  refine hKept.add (hPages.trans (congrArg (· ++ [s.next]) hFields.2.2.1.symm)) ?_ ?_ ?_ ?_
  · rw [hFields.2.2.1]
    exact fun hIn => hNamed _ hIn _ List.mem_cons_self rfl
  · intro other hOther
    rw [hFields.2.2.1] at hOther
    refine ⟨?_, fun x hx => ?_⟩
    · rw [hZoomed, Function.update_of_ne (hNamed other hOther other List.mem_cons_self)]
    · rw [hVisible, Function.update_of_ne]
      rcases eq_or_ne other page with rfl | hNe
      · rw [Function.update_self] at hx
        exact hNamed other hOther x (List.mem_cons_of_mem _ (hIds hx))
      · rw [Function.update_of_ne hNe] at hx
        exact hNamed other hOther x (List.mem_cons_of_mem _ hx)
  · rw [hZoomed, Function.update_self]
  · intro x hx
    have hLeaf : w ∈ ids (trees page) := mem_ids_of_mem_leaves (h.focused page hPage w hFocused)
    rw [List.mem_singleton.mp hx, hVisible, Function.update_of_ne (hNamed page hPage w (List.mem_cons_of_mem _ hLeaf))]
    exact (hUnzoomed page hHere).visible hOff w hLeaf

theorem Zooms.newPage (h : s.Shows trees) (hZooms : s.Zooms trees) (started : Bool) :
    (s.newPage started).Zooms (Function.update trees s.next (.leaf (s.next + 1))) := by
  have hFlags :
      (s.newPage started).visible = Function.update (Function.update s.visible s.next true) (s.next + 1) true ∧
      (s.newPage started).zoomedLeaf = Function.update (Function.update s.zoomedLeaf s.next none)
        (s.next + 1) none := by
    cases started <;> exact ⟨rfl, rfl⟩
  have hNamed : ∀ other ∈ s.pages, ∀ x ∈ own trees other, x ≠ s.next ∧ x ≠ s.next + 1 := by
    intro other hOther x hx
    have hLess := h.named other hOther x hx
    omega
  refine hZooms.add (newPage_shows h started).2.1 ?_ ?_ ?_ ?_
  · exact fun hIn => (hNamed _ hIn _ List.mem_cons_self).1 rfl
  · intro other hOther
    have hPage := hNamed other hOther other List.mem_cons_self
    refine ⟨?_, fun x hx => ?_⟩
    · rw [hFlags.2, Function.update_of_ne hPage.2, Function.update_of_ne hPage.1]
    · have hWidget := hNamed other hOther x (List.mem_cons_of_mem _ hx)
      rw [hFlags.1, Function.update_of_ne hWidget.2, Function.update_of_ne hWidget.1]
  · rw [hFlags.2, Function.update_of_ne (Nat.succ_ne_self _).symm, Function.update_self]
  · intro x hx
    rw [List.mem_singleton.mp hx, hFlags.1, Function.update_self]

theorem applyZoom_pages (s : Desktop) (page w : Nat) : (s.applyZoom page w).pages = s.pages := by
  unfold Desktop.applyZoom
  dsimp only
  split <;> rfl

/-- A zoom hides what is beside the path to the leaf, unless the leaf is alone. -/
theorem Zooms.applyZoom (h : s.Shows trees) (hPage : page ∈ s.pages) (hZooms : s.Zooms trees)
    (hOff : s.zoomedLeaf page = none) {w : Nat} (hLeaf : w ∈ (trees page).leaves) :
    (s.applyZoom page w).Zooms trees := by
  obtain ⟨c, hTree⟩ := exists_plug hLeaf
  have hHolds := h.holds page hPage
  have hNodup := h.nodup page hPage
  rw [own, hTree] at hNodup
  rw [hTree] at hHolds
  obtain ⟨hAround, hParent, -⟩ := Heap.holds_plug.mp hHolds
  obtain ⟨hContext, -, hOutside⟩ := Heap.nodup_plug hNodup
  have hPath : (w :: contextIds c).Nodup :=
    List.nodup_cons.mpr ⟨(hOutside w (List.mem_singleton_self w)).2, (List.nodup_cons.mp hContext).2⟩
  have hFuel := h.length_context hPage hTree
  have hHide : hideSiblings s.heap s.next w (s.visible, false) =
      (fun x => if x ∈ siblings c then false else s.visible x, decide (c ≠ [])) :=
    hideSiblings_around hAround hParent hPath (by omega) (s.visible, false)
  have hVisible : (s.applyZoom page w).visible = fun x => if x ∈ siblings c then false else s.visible x := by
    rw [Desktop.applyZoom, hHide]
    dsimp only
    rw [apply_ite visible]
    exact ite_self _
  have hZoomed : (s.applyZoom page w).zoomedLeaf =
      if c ≠ [] then Function.update s.zoomedLeaf page (some w) else s.zoomedLeaf := by
    rw [Desktop.applyZoom, hHide]
    dsimp only
    rw [apply_ite zoomedLeaf]
    exact if_congr decide_eq_true_iff rfl rfl
  have hIn : ∀ x ∈ siblings c, x ∈ ids (trees page) := fun x hx =>
    hTree ▸ Heap.mem_ids_plug.mpr (Or.inl (siblings_subset c hx))
  intro other hOther
  rw [s.applyZoom_pages page w] at hOther
  rcases eq_or_ne other page with rfl | hNe
  · have hShown := (hZooms other hOther).visible hOff
    rcases eq_or_ne c [] with rfl | hBeside
    · refine hidesOffPath_of_none ?_ fun x hx => ?_
      · rw [hZoomed, if_neg (not_not.mpr rfl)]
        exact hOff
      · rw [hVisible]
        exact hShown x hx
    · have hLeafZoomed : (s.applyZoom other w).zoomedLeaf other = some w := by
        rw [hZoomed, if_pos hBeside, Function.update_self]
      rw [HidesOffPath, hLeafZoomed]
      refine ⟨c, hBeside, hTree, fun x hx => ?_⟩
      rw [hVisible]
      simp [hShown x hx]
  · refine (hZooms other hOther).congr ?_ fun x hx => ?_
    · rw [hZoomed]
      split
      · exact Function.update_of_ne hNe _ _
      · rfl
    · rw [hVisible]
      refine if_neg fun hHidden => ?_
      exact h.apart other hOther page hPage hNe x (List.mem_cons_of_mem _ hx) (List.mem_cons_of_mem _ (hIn x hHidden))

theorem Zooms.toggleZoom (h : s.Shows trees) (hPage : page ∈ s.pages) (hZooms : s.Zooms trees) :
    (s.toggleZoom page).Zooms trees := by
  unfold Desktop.toggleZoom
  split
  · exact (hZooms.unzoom h hPage).1
  · rename_i hOff
    split
    · rename_i w hFocused
      exact hZooms.applyZoom h hPage (not_not.mp hOff) (h.focused page hPage w hFocused)
    · exact hZooms

theorem Zooms.focusEnter (hZooms : s.Zooms trees) (leaf : Nat) : (s.focusEnter leaf).Zooms trees := by
  unfold Desktop.focusEnter
  split
  · exact hZooms
  · exact hZooms

theorem Zooms.dropPage (hZooms : s.Zooms trees) (page : Nat) : (s.dropPage page).Zooms trees := fun other hOther =>
  hZooms other (List.mem_of_mem_filter hOther)

/-- epimone_page_focus_direction; the bounds of the widgets tell which of the other terminals is best, if one is. -/
def focusDirection (s : Desktop) (page : Nat) (best : Option Nat) : Desktop :=
  match s.focused page with
  | none => s
  | some current =>
    let s := s.unzoom page
    let candidates := (collectTerminals s.heap s.next (binChild s.heap page)).filter (· ≠ current)
    match best.filter (· ∈ candidates) with
    | none => s
    | some terminal => s.focusEnter terminal

end Desktop

inductive ZoomEvent where
  | pane (e : PaneEvent)
  | focusDirection (page : Nat) (best : Option Nat)

namespace Desktop

variable {s : Desktop} {trees : Nat → PageTree} {page : Nat}

def zoomStep (s : Desktop) : ZoomEvent → Desktop
  | .pane e => s.step e
  | .focusDirection page best => if page ∈ s.pages then s.focusDirection page best else s

/-- The trees, and what is hidden of them. -/
def Zoomed (s : Desktop) (trees : Nat → PageTree) : Prop := s.Shows trees ∧ s.Zooms trees

theorem Zoomed.split (h : s.Zoomed trees) (hPage : page ∈ s.pages) (o : GtkOrientation) (started : Bool) :
    ∃ trees', (s.split page o started).Zoomed trees' := by
  obtain ⟨hShows, hZooms⟩ := h
  cases hFocused : s.focused page with
  | none =>
    rw [Desktop.split, hFocused]
    exact ⟨trees, hShows, hZooms⟩
  | some w =>
    obtain ⟨tree, hSplit, -, -, hIds⟩ := split_shows page o started hShows hPage hFocused
    exact ⟨_, hSplit, hZooms.split hShows hPage hFocused o started hSplit hIds⟩

theorem Zoomed.removeTerminal (h : s.Zoomed trees) (hPage : page ∈ s.pages) {w : Nat}
    (hLeaf : w ∈ (trees page).leaves) :
    ∃ trees', (s.removeTerminal page w).Zoomed trees' := by
  obtain ⟨hShows, hZooms⟩ := h
  obtain ⟨tree, hRemoved, hPages, -, hIds⟩ := removeTerminal_shows hShows hPage hLeaf
  exact ⟨_, hRemoved, hZooms.removeTerminal hShows hPage hPages hIds⟩

theorem Zoomed.openInNewTab (h : s.Zoomed trees) (hPage : page ∈ s.pages) {w : Nat} (hFocused : s.focused page = some w)
    (hPanes : 2 ≤ (trees page).leaves.length) :
    ∃ new trees', (s.openInNewTab page).Zoomed trees' ∧ (s.openInNewTab page).pages = s.pages ++ [new] ∧
      trees' new = .leaf w ∧ (s.openInNewTab page).zoomedLeaf new = none ∧ (s.openInNewTab page).visible w = true := by
  obtain ⟨hShows, hZooms⟩ := h
  obtain ⟨tree, hMoved, -, hPages, -, hIds, hVisible, hZoomed⟩ := openInNewTab_shows hShows hPage hFocused hPanes
  have hAll := hZooms.openInNewTab hShows hPage hFocused hPages hIds hVisible hZoomed
  have hOff : (s.openInNewTab page).zoomedLeaf s.next = none := by
    rw [hZoomed, Function.update_self]
  have hNew : s.next ∈ (s.openInNewTab page).pages := by
    rw [hPages]
    exact List.mem_append_right _ (List.mem_singleton_self _)
  have hShown := (hAll s.next hNew).visible hOff w
  rw [Function.update_self] at hShown
  exact ⟨s.next, _, ⟨hMoved, hAll⟩, hPages, Function.update_self .., hOff, hShown (List.mem_singleton_self w)⟩

theorem Zoomed.toggleZoom (h : s.Zoomed trees) (hPage : page ∈ s.pages) : (s.toggleZoom page).Zoomed trees :=
  ⟨h.1.of_fields (s.toggleZoom_fields page), h.2.toggleZoom h.1 hPage⟩

theorem Zoomed.focusEnter (h : s.Zoomed trees) (hPage : page ∈ s.pages) {w : Nat} (hLeaf : w ∈ (trees page).leaves) :
    (s.focusEnter w).Zoomed trees :=
  ⟨(focusEnter_shows h.1 hPage hLeaf).1, h.2.focusEnter w⟩

theorem Zoomed.focusDirection (h : s.Zoomed trees) (hPage : page ∈ s.pages) (best : Option Nat) :
    (s.focusDirection page best).Zoomed trees := by
  unfold Desktop.focusDirection
  split
  · exact h
  · have hFields := s.unzoom_fields page
    have hUnzoomed : (s.unzoom page).Zoomed trees := ⟨h.1.of_fields hFields, (h.2.unzoom h.1 hPage).1⟩
    have hHere : page ∈ (s.unzoom page).pages := hFields.2.2.1 ▸ hPage
    dsimp only
    split
    · exact hUnzoomed
    · rename_i terminal hBest
      have hCandidate := of_decide_eq_true (Option.filter_eq_some_iff.mp hBest).2
      have hLeaf := List.mem_of_mem_filter hCandidate
      rw [hUnzoomed.1.collect hHere] at hLeaf
      exact hUnzoomed.focusEnter hHere hLeaf

theorem Zoomed.step (h : s.Zoomed trees) (e : PaneEvent) : ∃ trees', (s.step e).Zoomed trees' := by
  cases e with
  | newPage started => exact ⟨_, (newPage_shows h.1 started).1, h.2.newPage h.1 started⟩
  | split page o started =>
    rw [Desktop.step]
    split
    · rename_i hPage
      exact h.split hPage o started
    · exact ⟨trees, h⟩
  | closePane page =>
    rw [Desktop.step, Desktop.closePane]
    split
    · rename_i hPage
      split
      · exact ⟨trees, h⟩
      · rename_i w hFocused
        exact h.removeTerminal hPage (h.1.focused page hPage w hFocused)
    · exact ⟨trees, h⟩
  | exited leaf =>
    rw [Desktop.step, Desktop.deathIdle]
    split
    · exact ⟨trees, h⟩
    · rename_i page hBridge
      obtain ⟨hPage, hLeaf⟩ := h.1.bridged leaf page hBridge
      exact h.removeTerminal hPage hLeaf
  | openInNewTab page =>
    rw [Desktop.step]
    split
    · rename_i hPage
      have hCount : s.paneCount page = (trees page).leaves.length := congrArg List.length (h.1.collect hPage)
      cases hFocused : s.focused page with
      | none =>
        have hSame : s.openInNewTab page = s := by
          rw [Desktop.openInNewTab, takeFocusedLeaf, hFocused]
          exact ite_self s
        rw [hSame]
        exact ⟨trees, h⟩
      | some w =>
        rcases Nat.lt_or_ge (s.paneCount page) 2 with hFew | hPanes
        · have hSame : s.openInNewTab page = s := if_pos hFew
          rw [hSame]
          exact ⟨trees, h⟩
        · obtain ⟨_, trees', hMoved, -⟩ := h.openInNewTab hPage hFocused (hCount ▸ hPanes)
          exact ⟨trees', hMoved⟩
    · exact ⟨trees, h⟩
  | toggleZoom page =>
    rw [Desktop.step]
    split
    · rename_i hPage
      exact ⟨trees, h.toggleZoom hPage⟩
    · exact ⟨trees, h⟩
  | focusEnter leaf =>
    rw [Desktop.step]
    split
    · rename_i hLeaf
      obtain ⟨page, hPage, hIn⟩ := List.mem_flatMap.mp hLeaf
      rw [h.1.collect hPage] at hIn
      exact ⟨trees, h.focusEnter hPage hIn⟩
    · exact ⟨trees, h⟩
  | dropPage page =>
    rw [Desktop.step]
    split
    · rename_i hPage
      exact ⟨trees, dropPage_shows h.1 hPage, h.2.dropPage page⟩
    · exact ⟨trees, h⟩

theorem Zoomed.zoomStep (h : s.Zoomed trees) (e : ZoomEvent) : ∃ trees', (s.zoomStep e).Zoomed trees' := by
  cases e with
  | pane e => exact h.step e
  | focusDirection page best =>
    rw [Desktop.zoomStep]
    split
    · rename_i hPage
      exact ⟨trees, h.focusDirection hPage best⟩
    · exact ⟨trees, h⟩

theorem Zoomed.run (h : s.Zoomed trees) (events : List ZoomEvent) :
    ∃ trees', (events.foldl Desktop.zoomStep s).Zoomed trees' := by
  induction events generalizing s trees with
  | nil => exact ⟨trees, h⟩
  | cons e events ih =>
    obtain ⟨mid, hMid⟩ := h.zoomStep e
    exact ih hMid

end Desktop

/-- In every run a page hides what is beside the path to its zoomed leaf, or nothing; a toggle changes no tree, and
a pane that moves to a page of its own is shown there. -/
theorem zoom_hides_off_path {s : Desktop} {trees : Nat → PageTree} (h : s.Shows trees)
    (hShown : ∀ page ∈ s.pages, s.zoomedLeaf page = none ∧ ∀ x ∈ ids (trees page), s.visible x = true)
    (events : List ZoomEvent) :
    let now := events.foldl Desktop.zoomStep s
    ∃ trees', now.Shows trees' ∧ (∀ page ∈ now.pages, now.HidesOffPath page (trees' page)) ∧
      (∀ page ∈ now.pages, (now.toggleZoom page).Shows trees') ∧
      ∀ page ∈ now.pages, ∀ w, now.focused page = some w → 2 ≤ (trees' page).leaves.length →
        ∃ new trees'', (now.openInNewTab page).Shows trees'' ∧ (now.openInNewTab page).pages = now.pages ++ [new] ∧
          trees'' new = .leaf w ∧ (now.openInNewTab page).zoomedLeaf new = none ∧
            (now.openInNewTab page).visible w = true := by
  have hStart : s.Zoomed trees :=
    ⟨h, fun page hPage => Desktop.hidesOffPath_of_none (hShown page hPage).1 (hShown page hPage).2⟩
  obtain ⟨trees', hNow⟩ := hStart.run events
  refine ⟨trees', hNow.1, hNow.2, fun page hPage => (hNow.toggleZoom hPage).1, ?_⟩
  intro page hPage w hFocused hPanes
  obtain ⟨new, trees'', hMoved, hRest⟩ := hNow.openInNewTab hPage hFocused hPanes
  exact ⟨new, trees'', hMoved.1, hRest⟩

/-- A page of three panes, zoomed to the last. -/
def zoomedIn : List ZoomEvent :=
  [.pane (.newPage true), .pane (.split 0 .horizontal true), .pane (.split 0 .vertical true), .pane (.toggleZoom 0)]

theorem zoom_hides_off_path_zoomedIn :
    let now := zoomedIn.foldl Desktop.zoomStep Desktop.start
    now.zoomedLeaf 0 = some 4 ∧ now.visible 1 = false ∧ now.visible 2 = false ∧
      ∃ trees', now.Shows trees' ∧ now.HidesOffPath 0 (trees' 0) := by
  obtain ⟨trees', hShows, hHides, -⟩ := zoom_hides_off_path Desktop.start_shows
    (fun _ hPage => absurd hPage List.not_mem_nil) zoomedIn
  refine ⟨by decide +kernel, by decide +kernel, by decide +kernel, trees', hShows, hHides 0 ?_⟩
  decide +kernel

end Epimone.Client
