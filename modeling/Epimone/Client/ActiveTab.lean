import Epimone.Client.Relaunch

/-! # The active tab

layout.json has the position of the selected tab among all tabs of its window,
but lists only the tabs that have a group, and of these not all come back. The
position is taken as it stands for a position among the tabs that did.
-/
set_option autoImplicit false

namespace Epimone.Client

/-- A window as layout.json has it. -/
structure SavedWindow where
  width : Int
  height : Int
  maximized : Bool
  active : Int
  gids : List UInt64
  deriving DecidableEq, Repr

def groupIds (pages : List EpimonePage) : List UInt64 := (pages.map EpimonePage.groupId).filter (· ≠ 0)

def windowToVariant (v : TabView) (width height : Int) (maximized : Bool) : SavedWindow :=
  ⟨width, height, maximized, v.selected.getD 0, groupIds v.pages⟩

section Positions

variable {α : Type} (p : α → Bool)

/-- The position that the saved index comes to, of `built` tabs. -/
def landing (active restored built : Nat) : Nat :=
  let index := if active < restored then active else 0
  if built ≤ index then built - 1 else index

/-- Where the index lands on the tab at this position. -/
theorem landing_eq_iff {active restored built pos : Nat} (hPos : pos < built) (hBuilt : built ≤ restored)
    (hLe : pos ≤ active) :
    landing active restored built = pos ↔
      pos = active ∨ pos = 0 ∧ restored ≤ active ∨ pos + 1 = built ∧ active < restored := by
  unfold landing
  dsimp only
  split <;> split <;> omega

theorem countP_take_eq_iff {l : List α} {j n : Nat} (hj : j ≤ n) (hLength : j ≤ l.length) :
    (l.take j).countP p = n ↔ j = n ∧ ∀ a ∈ l.take j, p a = true := by
  have hTake : (l.take j).length = j := List.length_take_of_le hLength
  have hLe := List.countP_le_length (p := p) (l := l.take j)
  constructor
  · intro hCount
    have hAll : (l.take j).countP p = (l.take j).length := by omega
    exact ⟨by omega, List.countP_eq_length.mp hAll⟩
  · rintro ⟨rfl, hAll⟩
    rw [List.countP_eq_length.mpr hAll, hTake]

theorem countP_eq_zero_iff {l : List α} : l.countP p = 0 ↔ ∀ a ∈ l, p a = false := by
  rw [List.countP_eq_zero]
  exact forall₂_congr fun a _ => iff_of_eq (Bool.not_eq_true (p a))

theorem countP_take_succ_iff {l : List α} {j : Nat} {a : α} (ha : l[j]? = some a) (hCounts : p a = true) :
    (l.take j).countP p + 1 = l.countP p ↔ ∀ b ∈ l.drop (j + 1), p b = false := by
  obtain ⟨hj, rfl⟩ := List.getElem?_eq_some_iff.mp ha
  have hSplit : l.countP p = (l.take j).countP p + (l.drop j).countP p := by
    rw [← List.countP_append, List.take_append_drop]
  rw [hSplit, List.drop_eq_getElem_cons hj, List.countP_cons_of_pos hCounts]
  rw [← countP_eq_zero_iff]
  omega

theorem countP_take_lt {l : List α} {j : Nat} {a : α} (ha : l[j]? = some a) (hCounts : p a = true) :
    (l.take j).countP p < l.countP p := by
  obtain ⟨hj, rfl⟩ := List.getElem?_eq_some_iff.mp ha
  have hSplit : l.countP p = (l.take j).countP p + (l.drop j).countP p := by
    rw [← List.countP_append, List.take_append_drop]
  rw [hSplit, List.drop_eq_getElem_cons hj, List.countP_cons_of_pos hCounts]
  omega

theorem getElem?_filter_countP {l : List α} {j : Nat} {a : α} (ha : l[j]? = some a) (hCounts : p a = true) :
    (l.filter p)[(l.take j).countP p]? = some a := by
  obtain ⟨hj, rfl⟩ := List.getElem?_eq_some_iff.mp ha
  have hSplit : l.filter p = (l.take j).filter p ++ l[j] :: (l.drop (j + 1)).filter p := by
    rw [← List.filter_cons_of_pos hCounts, ← List.drop_eq_getElem_cons hj, ← List.filter_append, List.take_append_drop]
  rw [hSplit, List.countP_eq_length_filter, List.getElem?_append_right (Nat.le_refl _), Nat.sub_self]
  rfl

end Positions

namespace Relaunch

variable {app : Relaunch}

def outcomes (app : Relaunch) : List GroupCall → List Outcome
  | [] => []
  | call :: calls => app.outcome call :: (app.restoreTab call).outcomes calls

/-- The groups whose tabs are built by the calls. -/
def builtIds (app : Relaunch) : List GroupCall → List UInt64
  | [] => []
  | call :: calls => (if (app.outcome call).builds then [call.gid] else []) ++ (app.restoreTab call).builtIds calls

theorem length_builtIds (calls : List GroupCall) :
    (app.builtIds calls).length = (app.outcomes calls).countP Outcome.builds := by
  induction calls generalizing app with
  | nil => rfl
  | cons call calls ih =>
    rw [builtIds, outcomes, List.length_append, ih, List.countP_cons, Nat.add_comm]
    congr 1
    split <;> rfl

theorem getElem?_builtIds {calls : List GroupCall} {j : Nat} {call : GroupCall} {out : Outcome}
    (hCall : calls[j]? = some call) (hOut : (app.outcomes calls)[j]? = some out) (hBuilds : out.builds = true) :
    (app.builtIds calls)[((app.outcomes calls).take j).countP Outcome.builds]? = some call.gid := by
  induction calls generalizing app j with
  | nil => cases hCall
  | cons first calls ih =>
    rw [outcomes] at hOut
    cases j with
    | zero =>
      cases hCall
      cases hOut
      rw [builtIds, if_pos hBuilds]
      rfl
    | succ j =>
      have hRest := ih hCall hOut
      rw [builtIds, outcomes, List.take_succ_cons, List.countP_cons]
      cases hFirst : (app.outcome first).builds with
      | false => exact hRest
      | true => exact hRest

/-- The newest window has the tabs of these groups, and this many groups have been restored into it. -/
def Holds (app : Relaunch) (gids : List UInt64) (restored : Nat) : Prop :=
  (∃ v rest, app.windows = v :: rest ∧ v.pages.map EpimonePage.groupId = gids) ∧ app.restored = restored

theorem holds_restoreTab {gids : List UInt64} {restored : Nat} (h : app.Holds gids restored) (call : GroupCall) :
    (app.restoreTab call).Holds (gids ++ if (app.outcome call).builds then [call.gid] else [])
      (restored + if (app.outcome call).succeeds then 1 else 0) := by
  obtain ⟨⟨v, rest, hWindows, hGids⟩, hRestored⟩ := h
  unfold restoreTab restoreGroup
  cases app.outcome call with
  | failed => exact ⟨⟨v, rest, hWindows, hGids.trans (List.append_nil gids).symm⟩, hRestored⟩
  | pruned next => exact ⟨⟨v, rest, hWindows, hGids.trans (List.append_nil gids).symm⟩, hRestored⟩
  | shown w i =>
    refine ⟨?_, congrArg (· + 1) hRestored⟩
    change ∃ v rest, (app.windows.modify w fun v => v.selectPage i) = v :: rest ∧ _
    rw [hWindows]
    cases w with
    | zero => exact ⟨_, _, rfl, hGids.trans (List.append_nil gids).symm⟩
    | succ w => exact ⟨_, _, rfl, hGids.trans (List.append_nil gids).symm⟩
  | built root next =>
    have hWindows' : ∀ f : TabView → TabView, app.windows.modify 0 f = f v :: rest := by
      intro f
      rw [hWindows]
      rfl
    have hPage : (v.adoptAndSelectPage ((EpimonePage.onTree root).adopt call.gid)).pages.map EpimonePage.groupId =
        gids ++ [call.gid] := by
      rw [TabView.adoptAndSelectPage, List.map_append, hGids, List.map_singleton, EpimonePage.groupId_adopt]
    cases app.saver.restoring <;> exact ⟨⟨_, rest, hWindows' _, hPage⟩, congrArg (· + 1) hRestored⟩

theorem holds_restoreTabs {gids : List UInt64} {restored : Nat} (calls : List GroupCall) (h : app.Holds gids restored) :
    (calls.foldl restoreTab app).Holds (gids ++ app.builtIds calls)
      (restored + (app.outcomes calls).countP Outcome.succeeds) := by
  induction calls generalizing app gids restored with
  | nil => rwa [builtIds, List.append_nil]
  | cons call calls ih =>
    have hRest := ih (holds_restoreTab h call)
    rw [builtIds, outcomes, List.countP_cons, Nat.add_comm (List.countP _ _), ← Nat.add_assoc, ← List.append_assoc]
    exact hRest

theorem builds_le_succeeds (calls : List GroupCall) :
    (app.outcomes calls).countP Outcome.builds ≤ (app.outcomes calls).countP Outcome.succeeds := by
  apply List.countP_mono_left
  intro out _ hBuilds
  cases out with
  | built => rfl
  | failed | shown | pruned => cases hBuilds

/-- The loop over the groups of a window, up to its end. -/
def opened (app : Relaunch) (calls : List GroupCall) : Relaunch := calls.foldl restoreTab (app.perform .openWindow)

theorem holds_opened (calls : List GroupCall) :
    (app.opened calls).Holds (app.perform .openWindow |>.builtIds calls)
      ((app.perform .openWindow |>.outcomes calls).countP Outcome.succeeds) := by
  have hEmpty : (app.perform .openWindow).Holds [] 0 := ⟨⟨.empty, app.windows, rfl, rfl⟩, rfl⟩
  have hAll := holds_restoreTabs calls hEmpty
  rwa [List.nil_append, Nat.zero_add] at hAll

theorem restoreWindow_eq (w : WindowCall) :
    app.restoreWindow w = (app.opened w.groups).settle w.active w.presenting := by
  have hGroups : (w.groups.map Turn.group).foldl perform (app.perform .openWindow) = app.opened w.groups :=
    List.foldl_map
  rw [restoreWindow, WindowCall.turns, List.foldl_append, List.foldl_cons, List.foldl_nil, List.foldl_cons, hGroups]
  rfl

end Relaunch

namespace TabView

theorem setActiveTab_landing (v : TabView) (active restored : Nat) (hTabs : v.pages ≠ []) :
    v.setActiveTab (if (active : Int) < restored then active else 0) =
      v.selectPage (landing active restored v.pages.length) := by
  unfold setActiveTab landing
  dsimp only
  rw [if_neg (List.length_pos_of_ne_nil hTabs).ne']
  have hNonneg : ¬ (active : Int) < 0 := by omega
  rcases Nat.lt_or_ge active restored with hIn | hOut
  · rw [if_pos (Int.ofNat_lt.mpr hIn), if_pos hIn, if_neg hNonneg, Int.toNat_natCast]
  · have hInt : ¬ (active : Int) < restored := by omega
    rw [if_neg hInt, if_neg hOut.not_gt]
    rfl

end TabView

namespace Relaunch

variable {app : Relaunch}

theorem selected_settle {gids : List UInt64} {restored active : Nat} {reports : List Report}
    (h : app.Holds gids restored) (hTabs : gids ≠ []) (hRestored : gids.length ≤ restored) :
    ∃ v rest, (app.settle active reports).windows = v :: rest ∧ v.pages.map EpimonePage.groupId = gids ∧
      v.selected = some (landing active restored gids.length) := by
  obtain ⟨⟨v, rest, hWindows, hGids⟩, hCount⟩ := h
  have hLength : v.pages.length = gids.length := by rw [← hGids, List.length_map]
  have hPages : v.pages ≠ [] := by
    rintro hNone
    rw [hNone] at hGids
    exact hTabs hGids.symm
  have hPos := List.length_pos_of_ne_nil hTabs
  have hSelect := v.setActiveTab_landing active restored hPages
  unfold settle
  rw [if_neg (by omega), hCount]
  dsimp only
  refine ⟨v.selectPage (landing active restored gids.length), rest, ?_, hGids, rfl⟩
  change app.windows.modify 0 _ = _
  rw [hWindows, ← hLength, ← hSelect]
  rfl

/-! The windows of a version 1 file. -/

def buildPages (attaches : UInt64 → Bool) (finish : EpimonePage → EpimonePage) : List Node → Nat → List EpimonePage
  | [], _ => []
  | tab :: tabs, next =>
    match tab.build attaches next with
    | (none, next) => buildPages attaches finish tabs next
    | (some root, next) => finish (.onTree root) :: buildPages attaches finish tabs next

def windowFromV1 (attaches : UInt64 → Bool) (sgmap : List (Nat × Nat)) (active : Int) (tabs : List Node) (next : Nat) :
    Option TabView :=
  let pages := buildPages attaches (adoptExistingGroup sgmap) tabs next
  if 0 < pages.length then
    let view := pages.foldl TabView.adoptPage .empty
    some (view.setActiveTab (if active < pages.length then active else 0))
  else none

/-- Some session of the tab can be attached to. -/
def survives (attaches : UInt64 → Bool) (tab : Node) : Bool := tab.sids.any attaches

theorem sids_buildPages (attaches : UInt64 → Bool) {finish : EpimonePage → EpimonePage}
    (hFinish : ∀ page, (finish page).root = page.root) (tabs : List Node) (next : Nat) :
    (buildPages attaches finish tabs next).map EpimonePage.sids =
      (tabs.filter (survives attaches)).map fun tab => tab.sids.filter attaches := by
  induction tabs generalizing next with
  | nil => rfl
  | cons tab tabs ih =>
    have hNone := build_eq_none_iff attaches tab next
    have hSids := Node.sids_build attaches tab next
    rw [buildPages]
    generalize tab.build attaches next = built at hNone hSids ⊢
    obtain ⟨root, next'⟩ := built
    cases root with
    | none =>
      have hDead : ¬ survives attaches tab := by
        rintro hAlive
        obtain ⟨sid, hSid, hAttaches⟩ := List.any_eq_true.mp hAlive
        exact Bool.eq_false_iff.mp (hNone.mp rfl sid hSid) hAttaches
      rw [List.filter_cons_of_neg hDead]
      exact ih next'
    | some root =>
      have hAlive : survives attaches tab := by
        by_contra hDead
        refine absurd (hNone.mpr fun sid hSid => ?_) (Option.some_ne_none root)
        exact Bool.eq_false_iff.mpr fun hAttaches => hDead (List.any_eq_true.mpr ⟨sid, hSid, hAttaches⟩)
      rw [List.filter_cons_of_pos hAlive, List.map_cons, List.map_cons, ih next', ← hSids]
      congr 1
      rw [EpimonePage.sids, hFinish]
      rfl

theorem pages_adopted (pages : List EpimonePage) (v : TabView) :
    (pages.foldl TabView.adoptPage v).pages = v.pages ++ pages := by
  induction pages generalizing v with
  | nil => exact (List.append_nil _).symm
  | cons page pages ih =>
    rw [List.foldl_cons, ih, TabView.adoptPage, List.append_assoc, List.singleton_append]

end Relaunch

/-- The place of the selected tab among those that the file lists. -/
def TabView.placeOf (v : TabView) (sel : Nat) : Nat := (v.pages.take sel).countP (·.groupId ≠ 0)

/-- The saved index finds the tab: all tabs before it come back, or it is the first to come back and the index
is beyond them all, or it is the last and the index is not. -/
def TabView.Finds (v : TabView) (sel : Nat) (outs : List Outcome) : Prop :=
  ((∀ p ∈ v.pages.take sel, p.groupId ≠ 0) ∧ ∀ out ∈ outs.take (v.placeOf sel), out.builds = true) ∨
  ((∀ out ∈ outs.take (v.placeOf sel), out.builds = false) ∧ outs.countP Outcome.succeeds ≤ sel) ∨
  ((∀ out ∈ outs.drop (v.placeOf sel + 1), out.builds = false) ∧ sel < outs.countP Outcome.succeeds)

namespace Relaunch

/-- The window as it was saved, and the calls for its groups, of which the one of the selected tab builds it. -/
structure Reopens (app : Relaunch) (v : TabView) (sel : Nat) (page : EpimonePage) (calls : List GroupCall) : Prop where
  selected : v.selected = some sel
  shows : v.pages[sel]? = some page
  grouped : page.groupId ≠ 0
  listed : calls.map GroupCall.gid = groupIds v.pages
  built : ∃ out, ((app.perform .openWindow).outcomes calls)[v.placeOf sel]? = some out ∧ out.builds = true

variable {app : Relaunch} {v : TabView} {sel : Nat} {page : EpimonePage} {calls : List GroupCall}

theorem Reopens.call (h : app.Reopens v sel page calls) : ∃ call, calls[v.placeOf sel]? = some call ∧
    call.gid = page.groupId := by
  have hGid : (groupIds v.pages)[v.placeOf sel]? = some page.groupId := by
    have hMap : (v.pages.map EpimonePage.groupId)[sel]? = some page.groupId := by
      rw [List.getElem?_map, h.shows]
      rfl
    have hPlace : v.placeOf sel = ((v.pages.map EpimonePage.groupId).take sel).countP (· ≠ 0) := by
      rw [← List.map_take, List.countP_map]
      rfl
    rw [hPlace]
    exact getElem?_filter_countP (· ≠ 0) hMap (decide_eq_true h.grouped)
  rw [← h.listed, List.getElem?_map] at hGid
  exact Option.map_eq_some_iff.mp hGid

theorem finds_iff (h : app.Reopens v sel page calls) :
    let outs := (app.perform .openWindow).outcomes calls
    landing sel (outs.countP Outcome.succeeds) (outs.countP Outcome.builds) =
      (outs.take (v.placeOf sel)).countP Outcome.builds ↔ v.Finds sel outs := by
  intro outs
  obtain ⟨out, hOut, hBuilds⟩ := h.built
  obtain ⟨hIn, _⟩ := List.getElem?_eq_some_iff.mp hOut
  obtain ⟨hSel, _⟩ := List.getElem?_eq_some_iff.mp h.shows
  have hPlaceLe : v.placeOf sel ≤ sel := by
    have hLe := List.countP_le_length (p := fun p : EpimonePage => decide (p.groupId ≠ 0)) (l := v.pages.take sel)
    rwa [List.length_take_of_le hSel.le] at hLe
  have hPosLe : (outs.take (v.placeOf sel)).countP Outcome.builds ≤ v.placeOf sel := by
    have hLe := List.countP_le_length (p := Outcome.builds) (l := outs.take (v.placeOf sel))
    rwa [List.length_take_of_le hIn.le] at hLe
  have hBefore : (outs.take (v.placeOf sel)).countP Outcome.builds = sel ↔
      (∀ p ∈ v.pages.take sel, p.groupId ≠ 0) ∧ ∀ out ∈ outs.take (v.placeOf sel), out.builds = true := by
    rw [countP_take_eq_iff Outcome.builds hPlaceLe hIn.le]
    refine and_congr_left fun _ => ?_
    refine (countP_take_eq_iff (fun p : EpimonePage => decide (p.groupId ≠ 0)) (Nat.le_refl sel) hSel.le).trans ?_
    simp
  have hLast := countP_take_succ_iff Outcome.builds hOut hBuilds
  have hPos := countP_take_lt Outcome.builds hOut hBuilds
  rw [landing_eq_iff hPos (builds_le_succeeds calls) (hPosLe.trans hPlaceLe), hBefore, countP_eq_zero_iff, hLast]
  rfl

theorem windowFromV1_eq (attaches : UInt64 → Bool) (sgmap : List (Nat × Nat)) {tabs : List Node} (next : Nat)
    {active : Nat} {tab : Node} (hTab : tabs[active]? = some tab) (hAlive : survives attaches tab = true) :
    ∃ v, windowFromV1 attaches sgmap active tabs next = some v ∧
      v.pages.map EpimonePage.sids = (tabs.filter (survives attaches)).map (fun tab => tab.sids.filter attaches) ∧
      v.selected = some (landing active (tabs.countP (survives attaches)) (tabs.countP (survives attaches))) := by
  have hRoot : ∀ page, (adoptExistingGroup sgmap page).root = page.root := by
    intro page
    unfold adoptExistingGroup
    dsimp only
    split
    · rfl
    · exact EpimonePage.root_adopt page _
  have hSids := sids_buildPages attaches hRoot tabs next
  have hLength : (buildPages attaches (adoptExistingGroup sgmap) tabs next).length =
      tabs.countP (survives attaches) := by
    rw [List.countP_eq_length_filter, ← List.length_map, hSids, List.length_map]
  have hSome : 0 < tabs.countP (survives attaches) :=
    Nat.zero_lt_of_lt (countP_take_lt (survives attaches) hTab hAlive)
  unfold windowFromV1
  dsimp only
  rw [hLength, if_pos hSome]
  have hPages := pages_adopted (buildPages attaches (adoptExistingGroup sgmap) tabs next) .empty
  have hViewLength := congrArg List.length hPages
  change _ = List.length (buildPages attaches (adoptExistingGroup sgmap) tabs next) at hViewLength
  rw [TabView.setActiveTab_landing _ _ _ (List.ne_nil_of_length_pos (by omega)), hViewLength, hLength]
  refine ⟨_, rfl, ?_, rfl⟩
  rw [TabView.selectPage, hPages, ← hSids]
  rfl

/-- The tab that was selected is the selected one again, as far as its group builds it, if and only if the saved
index finds it among the tabs that come back. -/
theorem active_tab_comes_back (app : Relaunch) :
    (∀ (v : TabView) (sel : Nat) (page : EpimonePage) (calls : List GroupCall) (width height : Int)
        (maximized : Bool) (presenting : List Report), app.Reopens v sel page calls →
      let saved := windowToVariant v width height maximized
      let outs := (app.perform .openWindow).outcomes calls
      let pos := (outs.take (v.placeOf sel)).countP Outcome.builds
      ∃ v' rest, (app.restoreWindow ⟨saved.active, calls, presenting⟩).windows = v' :: rest ∧
        v'.pages[pos]?.map EpimonePage.groupId = some page.groupId ∧
        (v'.selected = some pos ↔ v.Finds sel outs)) ∧
    ∀ (attaches : UInt64 → Bool) (sgmap : List (Nat × Nat)) (tabs : List Node) (next active : Nat) (tab : Node),
      tabs[active]? = some tab → survives attaches tab = true →
      let pos := (tabs.take active).countP (survives attaches)
      ∃ v', windowFromV1 attaches sgmap active tabs next = some v' ∧
        v'.pages[pos]?.map EpimonePage.sids = some (tab.sids.filter attaches) ∧
        (v'.selected = some pos ↔ (∀ t ∈ tabs.take active, survives attaches t = true) ∨
          (∀ t ∈ tabs.take active, survives attaches t = false) ∧ tabs.countP (survives attaches) ≤ active) := by
  constructor
  · intro v sel page calls width height maximized presenting h saved outs pos
    obtain ⟨call, hCall, hGid⟩ := h.call
    obtain ⟨out, hOut, hBuilds⟩ := h.built
    have hPos := getElem?_builtIds hCall hOut hBuilds
    have hIds : (app.perform .openWindow).builtIds calls ≠ [] := by
      rintro hNone
      rw [hNone] at hPos
      cases hPos
    have hLength := @length_builtIds (app.perform .openWindow) calls
    have hLe : ((app.perform .openWindow).builtIds calls).length ≤ outs.countP Outcome.succeeds :=
      hLength.trans_le (builds_le_succeeds calls)
    obtain ⟨v', rest, hWindows, hPages, hSelected⟩ :=
      @selected_settle (app.opened calls) _ _ sel presenting (holds_opened calls) hIds hLe
    have hActive : saved.active = sel := by
      change ((v.selected.getD 0 : Nat) : Int) = sel
      rw [h.selected]
      rfl
    refine ⟨v', rest, ?_, ?_, ?_⟩
    · rw [restoreWindow_eq, hActive]
      exact hWindows
    · rw [← List.getElem?_map, hPages, ← hGid]
      exact hPos
    · rw [hSelected, hLength, Option.some.injEq]
      exact finds_iff h
  · intro attaches sgmap tabs next active tab hTab hAlive pos
    obtain ⟨v', hWindow, hPages, hSelected⟩ := windowFromV1_eq attaches sgmap next hTab hAlive
    obtain ⟨hIn, _⟩ := List.getElem?_eq_some_iff.mp hTab
    have hPosLe : pos ≤ active := by
      have hLe := List.countP_le_length (p := survives attaches) (l := tabs.take active)
      rwa [List.length_take_of_le hIn.le] at hLe
    have hPos := countP_take_lt (survives attaches) hTab hAlive
    have hAll := countP_take_eq_iff (survives attaches) (Nat.le_refl active) hIn.le
    have hNone : pos = 0 ↔ ∀ t ∈ tabs.take active, survives attaches t = false :=
      countP_eq_zero_iff (survives attaches)
    refine ⟨v', hWindow, ?_, ?_⟩
    · rw [← List.getElem?_map, hPages, List.getElem?_map, getElem?_filter_countP (survives attaches) hTab hAlive]
      rfl
    · rw [hSelected, Option.some.injEq, landing_eq_iff hPos (Nat.le_refl _) hPosLe, ← hNone]
      have hBefore : pos = active ↔ ∀ t ∈ tabs.take active, survives attaches t = true := by
        rw [hAll]
        exact and_iff_right rfl
      rw [← hBefore]
      omega

/-! Three tabs, of which the second is selected. -/

def tabOf (gid : UInt64) : EpimonePage := (EpimonePage.onTree (.leaf ⟨0, gid⟩)).adopt gid

def threeTabs : TabView := ⟨[tabOf 1, tabOf 2, tabOf 3], some 1⟩

def callsFor (alive : List Nat) : List GroupCall :=
  [1, 2, 3].map fun gid =>
    { callOf gid with
      groups := some [⟨1, 0, [1], [1]⟩, ⟨2, 0, [2], [2]⟩, ⟨3, 0, [3], [3]⟩]
      alive := some alive }

theorem reopens_threeTabs : starting.Reopens threeTabs 1 (tabOf 2) (callsFor [1, 2, 3]) :=
  ⟨rfl, rfl, by decide, by decide, .built (.leaf ⟨1, 2⟩) 2, by decide +kernel, rfl⟩

theorem active_tab_comes_back_threeTabs :
    (∃ v' rest, (starting.restoreWindow ⟨1, callsFor [1, 2, 3], []⟩).windows = v' :: rest ∧
      v'.pages[1]?.map EpimonePage.groupId = some 2 ∧ v'.selected = some 1) ∧
    ∃ v', windowFromV1 (fun _ => true) [] 1 [.leaf 1, .leaf 2] 0 = some v' ∧
      v'.pages[1]?.map EpimonePage.sids = some [2] ∧ v'.selected = some 1 := by
  constructor
  · obtain ⟨v', rest, hWindows, hGroup, hSelected⟩ :=
      (active_tab_comes_back starting).1 threeTabs 1 (tabOf 2) (callsFor [1, 2, 3]) 800 600 false [] reopens_threeTabs
    have hPos : (((starting.perform .openWindow).outcomes (callsFor [1, 2, 3])).take (threeTabs.placeOf 1)).countP
        Outcome.builds = 1 := by decide +kernel
    have hFinds : threeTabs.Finds 1 ((starting.perform .openWindow).outcomes (callsFor [1, 2, 3])) :=
      Or.inl (by decide +kernel)
    rw [hPos] at hGroup hSelected
    exact ⟨v', rest, hWindows, hGroup, hSelected.mpr hFinds⟩
  · obtain ⟨v', hWindow, hSids, hSelected⟩ :=
      (active_tab_comes_back starting).2 (fun _ => true) [] [.leaf 1, .leaf 2] 0 1 (.leaf 2) rfl rfl
    exact ⟨v', hWindow, hSids, hSelected.mpr (Or.inl (by decide))⟩

/-- The sessions of the first tab are gone, and the third tab is the selected one of the two that come back. -/
theorem third_tab_selected :
    starting.Reopens threeTabs 1 (tabOf 2) (callsFor [2, 3]) ∧
    ∃ v' rest, (starting.restoreWindow ⟨(windowToVariant threeTabs 800 600 false).active,
      callsFor [2, 3], []⟩).windows =
        v' :: rest ∧
      v'.pages.map EpimonePage.groupId = [2, 3] ∧ v'.selected = some 1 :=
  ⟨⟨rfl, rfl, by decide, by decide, .built (.leaf ⟨0, 2⟩) 1, by decide +kernel, rfl⟩, _, _, rfl, by decide +kernel,
    by decide +kernel⟩

end Relaunch

end Epimone.Client
