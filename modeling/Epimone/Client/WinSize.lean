import Epimone.Library.Transition
import Mathlib.Logic.Function.Basic

/-! # The size of the window

The grid of a terminal is pushed to the daemon once it has come to rest: off a
timer of its bridge, or at the end of the drag of a divider of its page. A mark
on the bridge waits for the end of the drag, wherever the pane is by then.
-/
set_option autoImplicit false

namespace Epimone.Client.WinSize

open Transition

structure Grid where
  rows : Int
  cols : Int
  deriving DecidableEq, Repr

def Grid.unknown : Grid := ⟨-1, -1⟩

/-- A size that a terminal can have. -/
def Grid.Real (g : Grid) : Prop := 0 < g.rows ∧ 0 < g.cols

instance (g : Grid) : Decidable g.Real := inferInstanceAs (Decidable (_ ∧ _))

/-- The bridge of a terminal; `resizeId` says that its timer is armed. -/
structure EpiBridge where
  page : Nat
  sessionId : Nat
  dead : Bool
  last : Grid
  resizeId : Bool
  resizePending : Bool
  deriving DecidableEq, Repr

def EpiBridge.none : EpiBridge := ⟨0, 0, true, .unknown, false, false⟩

structure EpimonePage where
  ptrDown : Bool
  dividerDragging : Bool
  terminals : List Nat
  deriving DecidableEq, Repr

def EpimonePage.empty : EpimonePage := ⟨false, false, []⟩

/-- The pages and the terminals by their numbers, and the next number of each. -/
structure Gui where
  pages : Nat → EpimonePage
  bridge : Nat → EpiBridge
  grid : Nat → Grid
  nextPage : Nat
  nextTerminal : Nat

namespace Gui

variable (gui : Gui)

def setPage (a : Nat) (page : EpimonePage) : Gui := { gui with pages := Function.update gui.pages a page }

def setBridge (t : Nat) (b : EpiBridge) : Gui := { gui with bridge := Function.update gui.bridge t b }

/-- The push of the current grid, which succeeds. -/
def resizeFlush (t : Nat) : Gui :=
  let b := { gui.bridge t with resizeId := false }
  if b.dead ∨ b.sessionId = 0 then gui.setBridge t b
  else if (gui.grid t).rows ≤ 0 ∨ (gui.grid t).cols ≤ 0 then gui.setBridge t b
  else if gui.grid t = b.last then gui.setBridge t b
  else gui.setBridge t { b with last := gui.grid t }

def maybeResize (t : Nat) : Gui :=
  let b := gui.bridge t
  if b.dead ∨ b.sessionId = 0 then gui
  else if (gui.pages b.page).dividerDragging then gui.setBridge t { b with resizePending := true }
  else gui.setBridge t { b with resizeId := true }

def flushPending (gui : Gui) (t : Nat) : Gui :=
  if (gui.bridge t).resizePending then
    (gui.setBridge t { gui.bridge t with resizePending := false, resizeId := false }).resizeFlush t
  else gui

def flushPendingResizes (a : Nat) : Gui := (gui.pages a).terminals.foldl flushPending gui

def endDrag (a : Nat) : Gui :=
  if (gui.pages a).dividerDragging then
    (gui.setPage a { gui.pages a with dividerDragging := false }).flushPendingResizes a
  else gui

def buttonPress (a : Nat) : Gui :=
  let gui := gui.endDrag a
  gui.setPage a { gui.pages a with ptrDown := true }

def buttonRelease (a : Nat) : Gui := (gui.setPage a { gui.pages a with ptrDown := false }).endDrag a

def panedPosition (a : Nat) : Gui :=
  if (gui.pages a).ptrDown then gui.setPage a { gui.pages a with dividerDragging := true } else gui

def newTab : Gui := { gui.setPage gui.nextPage .empty with nextPage := gui.nextPage + 1 }

def setGrid (t : Nat) (grid : Grid) : Gui := { gui with grid := Function.update gui.grid t grid }

/-- A change of the grid, of which the terminal tells. -/
def changeGrid (t : Nat) (grid : Grid) : Gui := (gui.setGrid t grid).maybeResize t

/-- A terminal comes into the page with its bridge, and its first grid is a change. -/
def attach (a sessionId : Nat) (grid : Grid) : Gui :=
  let t := gui.nextTerminal
  let gui := gui.setPage a { gui.pages a with terminals := (gui.pages a).terminals ++ [t] }
  let gui := gui.setBridge t ⟨a, sessionId, false, .unknown, false, false⟩
  { gui with nextTerminal := t + 1 }.changeGrid t grid

def takeLeaf (a t : Nat) : Gui :=
  gui.setPage a { gui.pages a with terminals := (gui.pages a).terminals.filter (· ≠ t) }

/-- take_focused_leaf of one page and adopt_leaf of a new one. -/
def moveLeaf (a t : Nat) : Gui :=
  let gui := gui.takeLeaf a t
  let b := gui.nextPage
  let gui := gui.newTab
  let gui := gui.setPage b { gui.pages b with terminals := [t] }
  gui.setBridge t { gui.bridge t with page := b }

def removeTerminal (a t : Nat) : Gui := (gui.takeLeaf a t).setBridge t .none

end Gui

inductive Event where
  | newTab
  | attach (page sessionId : Nat) (grid : Grid)
  | gridChanges (terminal : Nat) (grid : Grid)
  | contentsChange (terminal : Nat)
  | buttonPress (page : Nat)
  | buttonRelease (page : Nat)
  | dividerMoves (page : Nat)
  | timerExpires (terminal : Nat)
  | movePane (page terminal : Nat)
  | dies (terminal : Nat)
  | remove (page terminal : Nat)
  deriving DecidableEq, Repr

namespace Gui

variable (gui : Gui)

/-- A pane is moved out of a page that has another one. -/
def step : Event → Option Gui
  | .newTab => some gui.newTab
  | .attach a sessionId grid => if a < gui.nextPage ∧ grid.Real then some (gui.attach a sessionId grid) else none
  | .gridChanges t grid =>
    if grid.Real then some (gui.changeGrid t grid) else none
  | .contentsChange t => some (gui.maybeResize t)
  | .buttonPress a => some (gui.buttonPress a)
  | .buttonRelease a => some (gui.buttonRelease a)
  | .dividerMoves a => some (gui.panedPosition a)
  | .timerExpires t => if (gui.bridge t).resizeId then some (gui.resizeFlush t) else none
  | .movePane a t =>
    if t ∈ (gui.pages a).terminals ∧ 2 ≤ (gui.pages a).terminals.length then some (gui.moveLeaf a t) else none
  | .dies t => some (gui.setBridge t { gui.bridge t with dead := true })
  | .remove a t => if t ∈ (gui.pages a).terminals then some (gui.removeTerminal a t) else none

def start : Gui := ⟨fun _ => .empty, fun _ => .none, fun _ => .unknown, 0, 0⟩

end Gui

def sizing : Machine Gui Event := ⟨.start, Gui.step⟩

/-- The pane is in the page, and its bridge is live. -/
structure Gui.Live (gui : Gui) (a t : Nat) : Prop where
  shown : t ∈ (gui.pages a).terminals
  alive : (gui.bridge t).dead = false
  session : (gui.bridge t).sessionId ≠ 0

/-- The timer is armed, or the mark is set in a page whose drag is to end. -/
def Gui.PushDue (gui : Gui) (a t : Nat) : Prop :=
  (gui.bridge t).resizeId = true ∨ (gui.bridge t).resizePending = true ∧ (gui.pages a).dividerDragging = true

/-- No size is lost. -/
def Gui.Scheduled (gui : Gui) : Prop := ∀ a t, gui.Live a t → gui.grid t ≠ (gui.bridge t).last → gui.PushDue a t

/-- No pane is moved whose size waits for nothing but the end of a drag. -/
def Gui.Settled (gui : Gui) : Event → Prop
  | .movePane a t => gui.Live a t → gui.grid t = (gui.bridge t).last ∨ (gui.bridge t).resizeId = true
  | _ => True

/-- No size is lost but those of the spared terminals. -/
structure Gui.Sound (gui : Gui) (spared : Nat → EpiBridge → Prop) : Prop where
  scheduled : ∀ a t, gui.Live a t → gui.grid t ≠ (gui.bridge t).last → gui.PushDue a t ∨ spared t (gui.bridge t)
  page : ∀ a, ∀ t ∈ (gui.pages a).terminals, (gui.bridge t).page = a
  real : ∀ a, ∀ t ∈ (gui.pages a).terminals, (gui.grid t).Real
  fresh : ∀ a, ∀ t ∈ (gui.pages a).terminals, t < gui.nextTerminal
  unused : ∀ a, gui.nextPage ≤ a → (gui.pages a).terminals = []

def nobody (_ : Nat) (_ : EpiBridge) : Prop := False

def markedOf (ts : List Nat) (t : Nat) (b : EpiBridge) : Prop := b.resizePending = true ∧ t ∈ ts

namespace Gui.Sound

variable {gui : Gui} {spared spared' : Nat → EpiBridge → Prop} {a t : Nat}

theorem scheduled_of_nobody (h : gui.Sound nobody) : gui.Scheduled := by
  intro a t hLive hDiff
  exact (h.scheduled a t hLive hDiff).resolve_right id

theorem setBridge (h : gui.Sound spared) {b : EpiBridge} (hPage : b.page = (gui.bridge t).page)
    (hDue : b.dead = false → b.sessionId ≠ 0 → (gui.grid t).Real → gui.grid t ≠ b.last →
      (b.resizeId = true ∨ b.resizePending = true ∧ (gui.pages b.page).dividerDragging = true) ∨ spared' t b)
    (hOther : ∀ t', t' ≠ t → ∀ b', spared t' b' → spared' t' b') : (gui.setBridge t b).Sound spared' where
  scheduled a t' hLive hDiff := by
    obtain ⟨hShown, hAlive, hSession⟩ := hLive
    rcases eq_or_ne t' t with rfl | hNe
    · simp only [Gui.setBridge, PushDue, Function.update_self] at *
      rw [← h.page a t' hShown, ← hPage]
      exact hDue hAlive hSession (h.real a t' hShown) hDiff
    · simp only [Gui.setBridge, PushDue, Function.update_of_ne hNe] at *
      exact (h.scheduled a t' ⟨hShown, hAlive, hSession⟩ hDiff).imp_right (hOther t' hNe _)
  page a t' hShown := by
    rcases eq_or_ne t' t with rfl | hNe
    · simp only [Gui.setBridge, Function.update_self]
      exact hPage.trans (h.page a t' hShown)
    · simp only [Gui.setBridge, Function.update_of_ne hNe]
      exact h.page a t' hShown
  real := h.real
  fresh := h.fresh
  unused := h.unused

theorem setPage (h : gui.Sound nobody) {page : EpimonePage} (hSub : page.terminals ⊆ (gui.pages a).terminals)
    (hDrag : (gui.pages a).dividerDragging = true → page.dividerDragging = true ∨ ∀ t ∈ page.terminals,
      (gui.bridge t).resizePending = true → spared t (gui.bridge t)) : (gui.setPage a page).Sound spared := by
  have hKeep : ∀ {a' t}, t ∈ ((gui.setPage a page).pages a').terminals → t ∈ (gui.pages a').terminals := by
    intro a' t hShown
    rcases eq_or_ne a' a with rfl | hNe
    · simp only [Gui.setPage, Function.update_self] at hShown
      exact hSub hShown
    · simp only [Gui.setPage, Function.update_of_ne hNe] at hShown
      exact hShown
  constructor
  case scheduled =>
    intro a' t hLive hDiff
    rcases h.scheduled_of_nobody a' t ⟨hKeep hLive.shown, hLive.alive, hLive.session⟩ hDiff with hArmed | hMarked
    · exact .inl (.inl hArmed)
    · rcases eq_or_ne a' a with rfl | hNe
      · have hShown := hLive.shown
        simp only [Gui.setPage, PushDue, Function.update_self] at hShown ⊢
        rcases hDrag hMarked.2 with hDragging | hSpared
        · exact .inl (.inr ⟨hMarked.1, hDragging⟩)
        · exact .inr (hSpared t hShown hMarked.1)
      · simp only [Gui.setPage, PushDue, Function.update_of_ne hNe]
        exact .inl (.inr hMarked)
  case page => exact fun a' t hShown => h.page a' t (hKeep hShown)
  case real => exact fun a' t hShown => h.real a' t (hKeep hShown)
  case fresh => exact fun a' t hShown => h.fresh a' t (hKeep hShown)
  case unused =>
    intro a' hLe
    exact List.eq_nil_iff_forall_not_mem.mpr fun t hShown => by
      have hOld := hKeep hShown
      rw [h.unused a' hLe] at hOld
      exact List.not_mem_nil hOld

theorem setGrid (h : gui.Sound nobody) {grid : Grid} (hReal : grid.Real) :
    (gui.setGrid t grid).Sound fun t' _ => t' = t := by
  have hOther : ∀ {t'}, t' ≠ t → (gui.setGrid t grid).grid t' = gui.grid t' := fun hNe =>
    Function.update_of_ne hNe _ _
  constructor
  case scheduled =>
    intro a t' hLive hDiff
    rcases eq_or_ne t' t with hEq | hNe
    · exact .inr hEq
    · rw [hOther hNe] at hDiff
      exact .inl (h.scheduled_of_nobody a t' ⟨hLive.shown, hLive.alive, hLive.session⟩ hDiff)
  case page => exact h.page
  case real =>
    intro a t' hShown
    rcases eq_or_ne t' t with rfl | hNe
    · exact (congrArg Grid.Real (Function.update_self t' grid gui.grid)).mpr hReal
    · rw [hOther hNe]
      exact h.real a t' hShown
  case fresh => exact h.fresh
  case unused => exact h.unused

/-- Whatever has become of the size of a terminal, a call for it sets that right. -/
theorem maybeResize (h : gui.Sound fun t' _ => t' = t) : (gui.maybeResize t).Sound nobody := by
  have hNone : ∀ t', t' ≠ t → ∀ b' : EpiBridge, t' = t → nobody t' b' := fun _ hNe _ hEq => absurd hEq hNe
  unfold Gui.maybeResize
  dsimp only
  split
  case isTrue hOff =>
    refine { h with scheduled := fun a t' hLive hDiff => (h.scheduled a t' hLive hDiff).imp_right ?_ }
    rintro rfl
    rcases hOff with hDead | hZero
    · exact absurd hDead (by simp [hLive.alive])
    · exact absurd hZero hLive.session
  case isFalse =>
    split
    case isTrue hDragging => exact h.setBridge rfl (fun _ _ _ _ => .inl (.inr ⟨rfl, hDragging⟩)) hNone
    case isFalse => exact h.setBridge rfl (fun _ _ _ _ => .inl (.inl rfl)) hNone

theorem changeGrid (h : gui.Sound nobody) {grid : Grid} (hReal : grid.Real) :
    (gui.changeGrid t grid).Sound nobody :=
  (h.setGrid hReal).maybeResize

theorem resizeFlush (h : gui.Sound spared) (hOther : ∀ t', t' ≠ t → ∀ b', spared t' b' → spared' t' b') :
    (gui.resizeFlush t).Sound spared' := by
  unfold Gui.resizeFlush
  dsimp only
  split
  case isTrue hOff =>
    refine h.setBridge rfl (fun hAlive hSession _ _ => ?_) hOther
    rcases hOff with hDead | hZero
    · exact absurd (hDead.symm.trans hAlive) (by decide)
    · exact absurd hZero hSession
  case isFalse =>
    split
    case isTrue hUnreal =>
      refine h.setBridge rfl (fun _ _ hReal _ => ?_) hOther
      obtain ⟨hRows, hCols⟩ := hReal
      omega
    case isFalse =>
      split
      case isTrue hSame => exact h.setBridge rfl (fun _ _ _ hDiff => absurd hSame hDiff) hOther
      case isFalse => exact h.setBridge rfl (fun _ _ _ hDiff => absurd rfl hDiff) hOther

theorem flushPending {ts : List Nat} (h : gui.Sound (markedOf (t :: ts))) :
    (gui.flushPending t).Sound (markedOf ts) := by
  have hOther : ∀ t', t' ≠ t → ∀ b', markedOf (t :: ts) t' b' → markedOf ts t' b' := by
    rintro t' hNe b' ⟨hMark, hMem⟩
    exact ⟨hMark, (List.mem_cons.mp hMem).resolve_left hNe⟩
  unfold Gui.flushPending
  split
  case isTrue =>
    have hCleared : (gui.setBridge t { gui.bridge t with resizePending := false, resizeId := false }).Sound
        fun t' b' => t' = t ∨ markedOf ts t' b' :=
      h.setBridge rfl (fun _ _ _ _ => .inr (.inl rfl)) fun t' hNe b' hMarked => .inr (hOther t' hNe b' hMarked)
    exact hCleared.resizeFlush fun t' hNe b' hSpared => hSpared.resolve_left hNe
  case isFalse hUnmarked =>
    refine { h with scheduled := fun a t' hLive hDiff => (h.scheduled a t' hLive hDiff).imp_right fun hMarked => ?_ }
    rcases eq_or_ne t' t with rfl | hNe
    · exact absurd hMarked.1 hUnmarked
    · exact hOther t' hNe _ hMarked

theorem foldl_flushPending (ts : List Nat) (h : gui.Sound (markedOf ts)) :
    (ts.foldl Gui.flushPending gui).Sound nobody := by
  induction ts generalizing gui with
  | nil =>
    refine { h with scheduled := fun a t hLive hDiff => (h.scheduled a t hLive hDiff).imp_right fun hMarked => ?_ }
    exact List.not_mem_nil hMarked.2
  | cons t ts ih => exact ih h.flushPending

/-- The end of a drag spares the marked terminals of the page, and flushes them. -/
theorem endDrag (h : gui.Sound nobody) : (gui.endDrag a).Sound nobody := by
  unfold Gui.endDrag
  split
  case isTrue =>
    refine foldl_flushPending _ (h.setPage ?_ fun _ => .inr fun t hShown hMark => ⟨hMark, ?_⟩)
    · exact List.Subset.refl _
    · simpa only [Gui.setPage, Function.update_self] using hShown
  case isFalse => exact h

theorem buttonPress (h : gui.Sound nobody) : (gui.buttonPress a).Sound nobody :=
  h.endDrag.setPage (List.Subset.refl _) .inl

theorem buttonRelease (h : gui.Sound nobody) : (gui.buttonRelease a).Sound nobody := by
  have hUp : (gui.setPage a { gui.pages a with ptrDown := false }).Sound nobody :=
    h.setPage (List.Subset.refl _) .inl
  exact hUp.endDrag

theorem panedPosition (h : gui.Sound nobody) : (gui.panedPosition a).Sound nobody := by
  unfold Gui.panedPosition
  split
  case isTrue => exact h.setPage (List.Subset.refl _) fun _ => .inl rfl
  case isFalse => exact h

theorem newTab (h : gui.Sound nobody) : gui.newTab.Sound nobody := by
  have hPage : (gui.setPage gui.nextPage .empty).Sound nobody :=
    h.setPage (List.nil_subset _) fun _ => .inr fun _ hNil => absurd hNil List.not_mem_nil
  exact ⟨fun a t hLive => hPage.scheduled a t ⟨hLive.shown, hLive.alive, hLive.session⟩, hPage.page, hPage.real,
    hPage.fresh, fun a hLe => hPage.unused a (Nat.le_of_succ_le hLe)⟩

theorem countTerminal (h : gui.Sound spared) : { gui with nextTerminal := gui.nextTerminal + 1 }.Sound spared :=
  ⟨fun a t hLive => h.scheduled a t ⟨hLive.shown, hLive.alive, hLive.session⟩, h.page, h.real,
    fun a t hShown => Nat.lt_succ_of_lt (h.fresh a t hShown), h.unused⟩

theorem takeLeaf (h : gui.Sound nobody) (a t : Nat) : (gui.takeLeaf a t).Sound nobody :=
  h.setPage (fun _ hMem => List.mem_of_mem_filter hMem) .inl

theorem unshown_takeLeaf (h : gui.Sound nobody) (hShown : t ∈ (gui.pages a).terminals) (a' : Nat) :
    t ∉ ((gui.takeLeaf a t).pages a').terminals := by
  intro hStill
  rcases eq_or_ne a' a with rfl | hNe
  · simp only [Gui.takeLeaf, Gui.setPage, Function.update_self, List.mem_filter] at hStill
    exact absurd rfl (of_decide_eq_true hStill.2)
  · simp only [Gui.takeLeaf, Gui.setPage, Function.update_of_ne hNe] at hStill
    exact hNe ((h.page a' t hStill).symm.trans (h.page a t hShown))

theorem setBridge_of_unshown (h : gui.Sound nobody) (hUnshown : ∀ a, t ∉ (gui.pages a).terminals) (b : EpiBridge) :
    (gui.setBridge t b).Sound nobody := by
  have hSame : ∀ {a t'}, t' ∈ (gui.pages a).terminals → (gui.setBridge t b).bridge t' = gui.bridge t' :=
    fun hShown => Function.update_of_ne (fun hEq => hUnshown _ (hEq ▸ hShown)) _ _
  constructor
  case scheduled =>
    intro a t' ⟨hShown, hAlive, hSession⟩ hDiff
    simp only [PushDue, hSame hShown] at *
    exact h.scheduled a t' ⟨hShown, hAlive, hSession⟩ hDiff
  case page => exact fun a t' hShown => (congrArg EpiBridge.page (hSame hShown)).trans (h.page a t' hShown)
  case real => exact h.real
  case fresh => exact h.fresh
  case unused => exact h.unused

theorem addTerminal (h : gui.Sound spared) {p : EpimonePage}
    (hTerminals : p.terminals = (gui.pages a).terminals ++ [t])
    (hDrag : p.dividerDragging = (gui.pages a).dividerDragging) (hPage : (gui.bridge t).page = a)
    (hReal : (gui.grid t).Real) (hFresh : t < gui.nextTerminal) (hUsed : a < gui.nextPage)
    (hDue : gui.grid t ≠ (gui.bridge t).last → (gui.bridge t).dead = false → (gui.bridge t).sessionId ≠ 0 →
      (gui.bridge t).resizeId = true ∨ spared t (gui.bridge t)) :
    (gui.setPage a p).Sound spared := by
  set next := gui.setPage a p with hNext
  have hKeep : ∀ {a' t'}, t' ∈ (next.pages a').terminals → t' ∈ (gui.pages a').terminals ∨ t' = t ∧ a' = a := by
    intro a' t' hShown
    rcases eq_or_ne a' a with rfl | hNe
    · simp only [hNext, Gui.setPage, Function.update_self, hTerminals, List.mem_append, List.mem_singleton] at hShown
      exact hShown.imp_right fun hEq => ⟨hEq, rfl⟩
    · simp only [hNext, Gui.setPage, Function.update_of_ne hNe] at hShown
      exact .inl hShown
  have hDragging : ∀ a', (next.pages a').dividerDragging = (gui.pages a').dividerDragging := by
    intro a'
    rcases eq_or_ne a' a with rfl | hNe
    · simp only [hNext, Gui.setPage, Function.update_self, hDrag]
    · simp only [hNext, Gui.setPage, Function.update_of_ne hNe]
  constructor
  case scheduled =>
    intro a' t' ⟨hShown, hAlive, hSession⟩ hDiff
    rcases hKeep hShown with hOld | ⟨rfl, rfl⟩
    · refine (h.scheduled a' t' ⟨hOld, hAlive, hSession⟩ hDiff).imp_left (Or.imp_right fun hMarked => ?_)
      exact ⟨hMarked.1, (hDragging a').trans hMarked.2⟩
    · exact (hDue hDiff hAlive hSession).imp_left .inl
  case page =>
    intro a' t' hShown
    rcases hKeep hShown with hOld | ⟨rfl, rfl⟩
    · exact h.page a' t' hOld
    · exact hPage
  case real =>
    intro a' t' hShown
    rcases hKeep hShown with hOld | ⟨rfl, rfl⟩
    · exact h.real a' t' hOld
    · exact hReal
  case fresh =>
    intro a' t' hShown
    rcases hKeep hShown with hOld | ⟨rfl, rfl⟩
    · exact h.fresh a' t' hOld
    · exact hFresh
  case unused =>
    intro a' hLe
    refine List.eq_nil_iff_forall_not_mem.mpr fun t' hShown => ?_
    rcases hKeep hShown with hOld | ⟨rfl, rfl⟩
    · exact List.not_mem_nil (h.unused a' hLe ▸ hOld)
    · exact absurd hUsed (Nat.not_lt_of_le hLe)

theorem attach (h : gui.Sound nobody) (hPage : a < gui.nextPage) (sessionId : Nat) {grid : Grid}
    (hReal : grid.Real) : (gui.attach a sessionId grid).Sound nobody := by
  have hUnshown : ∀ a, gui.nextTerminal ∉ (gui.pages a).terminals := fun a hShown =>
    Nat.lt_irrefl _ (h.fresh a _ hShown)
  have hBridge := h.setBridge_of_unshown hUnshown ⟨a, sessionId, false, .unknown, false, false⟩
  have hSized := (hBridge.setGrid (t := gui.nextTerminal) hReal).countTerminal
  have hNamed := congrArg EpiBridge.page
    (Function.update_self gui.nextTerminal ⟨a, sessionId, false, .unknown, false, false⟩ gui.bridge)
  have hShown := hSized.addTerminal (a := a) (t := gui.nextTerminal)
    (p := { gui.pages a with terminals := (gui.pages a).terminals ++ [gui.nextTerminal] }) rfl rfl hNamed
    ((congrArg Grid.Real (Function.update_self _ _ gui.grid)).mpr hReal) (Nat.lt_succ_self _) hPage
    fun _ _ _ => .inr rfl
  exact hShown.maybeResize

/-- A pane that is moved takes nothing along that waits for the end of a drag. -/
theorem moveLeaf (h : gui.Sound nobody) (hShown : t ∈ (gui.pages a).terminals)
    (hSettled : gui.Settled (.movePane a t)) : (gui.moveLeaf a t).Sound nobody := by
  have hOpened : (gui.takeLeaf a t).newTab.pages gui.nextPage = .empty := Function.update_self _ _ _
  have hUnshown : ∀ a', t ∉ ((gui.takeLeaf a t).newTab.pages a').terminals := by
    intro a' hStill
    rcases eq_or_ne a' gui.nextPage with rfl | hNe
    · rw [hOpened] at hStill
      exact List.not_mem_nil hStill
    · have hSame : (gui.takeLeaf a t).newTab.pages a' = (gui.takeLeaf a t).pages a' := Function.update_of_ne hNe _ _
      exact h.unshown_takeLeaf hShown a' (hSame ▸ hStill)
  have hNamed := (h.takeLeaf a t).newTab.setBridge_of_unshown hUnshown { gui.bridge t with page := gui.nextPage }
  have hBridge := Function.update_self t { gui.bridge t with page := gui.nextPage } gui.bridge
  refine hNamed.addTerminal ?_ rfl (congrArg EpiBridge.page hBridge) (h.real a t hShown) (h.fresh a t hShown)
    (Nat.lt_succ_self _) fun hDiff hAlive hSession => .inl ?_
  · exact (congrArg (·.terminals ++ [t]) hOpened).symm
  · change (Function.update gui.bridge t _ t).resizeId = true
    change gui.grid t ≠ (Function.update gui.bridge t _ t).last at hDiff
    change (Function.update gui.bridge t _ t).dead = false at hAlive
    change (Function.update gui.bridge t _ t).sessionId ≠ 0 at hSession
    rw [hBridge] at hDiff hAlive hSession ⊢
    exact (hSettled ⟨hShown, hAlive, hSession⟩).resolve_left hDiff

theorem removeTerminal (h : gui.Sound nobody) (hShown : t ∈ (gui.pages a).terminals) :
    (gui.removeTerminal a t).Sound nobody :=
  (h.takeLeaf a t).setBridge_of_unshown (h.unshown_takeLeaf hShown) .none

theorem dies (h : gui.Sound nobody) : (gui.setBridge t { gui.bridge t with dead := true }).Sound nobody := by
  refine h.setBridge rfl (fun hAlive _ _ _ => ?_) fun _ _ _ hSpared => hSpared
  cases hAlive

theorem step {gui' : Gui} {event : Event} (h : gui.Sound nobody) (hStep : gui.step event = some gui')
    (hSettled : gui.Settled event) : gui'.Sound nobody := by
  cases event with
  | newTab =>
    cases hStep
    exact h.newTab
  | attach a sessionId grid =>
    obtain ⟨⟨hPage, hReal⟩, ⟨⟩⟩ := Option.ite_none_right_eq_some.mp hStep
    exact h.attach hPage sessionId hReal
  | gridChanges t grid =>
    obtain ⟨hReal, ⟨⟩⟩ := Option.ite_none_right_eq_some.mp hStep
    exact h.changeGrid hReal
  | contentsChange t =>
    cases hStep
    exact maybeResize { h with scheduled := fun a t hLive hDiff => .inl (h.scheduled_of_nobody a t hLive hDiff) }
  | buttonPress a =>
    cases hStep
    exact h.buttonPress
  | buttonRelease a =>
    cases hStep
    exact h.buttonRelease
  | dividerMoves a =>
    cases hStep
    exact h.panedPosition
  | timerExpires t =>
    obtain ⟨-, ⟨⟩⟩ := Option.ite_none_right_eq_some.mp hStep
    exact h.resizeFlush fun _ _ _ hSpared => hSpared
  | movePane a t =>
    obtain ⟨⟨hShown, -⟩, ⟨⟩⟩ := Option.ite_none_right_eq_some.mp hStep
    exact h.moveLeaf hShown hSettled
  | dies t =>
    cases hStep
    exact h.dies
  | remove a t =>
    obtain ⟨hShown, ⟨⟩⟩ := Option.ite_none_right_eq_some.mp hStep
    exact h.removeTerminal hShown

theorem start : Gui.start.Sound nobody :=
  ⟨fun _ _ hLive => absurd hLive.shown List.not_mem_nil, fun _ _ hNil => absurd hNil List.not_mem_nil,
    fun _ _ hNil => absurd hNil List.not_mem_nil, fun _ _ hNil => absurd hNil List.not_mem_nil, fun _ _ => rfl⟩

end Gui.Sound

/-- The page of a pane that has been moved is in no drag. -/
theorem Gui.settled_of_scheduled {gui : Gui} {a t : Nat} (h : (gui.moveLeaf a t).Scheduled) :
    gui.Settled (.movePane a t) := by
  intro hLive
  set moved := gui.moveLeaf a t
  have hOpened : (gui.takeLeaf a t).newTab.pages gui.nextPage = .empty := Function.update_self _ _ _
  have hPage : moved.pages gui.nextPage = { (gui.takeLeaf a t).newTab.pages gui.nextPage with terminals := [t] } :=
    Function.update_self _ _ _
  rw [hOpened] at hPage
  have hBridge : moved.bridge t = { gui.bridge t with page := gui.nextPage } := Function.update_self _ _ _
  refine or_iff_not_imp_left.mpr fun hDiff => ?_
  have hMovedLive : moved.Live gui.nextPage t := by
    constructor
    · rw [hPage]
      exact List.mem_singleton_self t
    · rw [hBridge]
      exact hLive.alive
    · rw [hBridge]
      exact hLive.session
  have hDue : moved.PushDue gui.nextPage t := h gui.nextPage t hMovedLive (by rwa [hBridge])
  rw [PushDue, hPage, hBridge] at hDue
  exact hDue.resolve_right fun hMarked => Bool.false_ne_true hMarked.2

/-- A size of which there is no push to come is lost by nothing but a move of its pane. -/
theorem sizes_scheduled_iff {events : List Event} {gui : Gui} (h : sizing.run events = some gui) :
    (∀ before after gui', events = before ++ after → sizing.run before = some gui' → gui'.Scheduled) ↔
      ∀ before event after gui', events = before ++ event :: after → sizing.run before = some gui' →
        gui'.Settled event := by
  have hProp : ∀ gui : Gui, gui.Sound nobody → gui.Scheduled := fun _ hSound => hSound.scheduled_of_nobody
  have hKeep : ∀ (gui : Gui) (event : Event) (gui' : Gui), gui.Sound nobody → sizing.step gui event = some gui' →
      gui.Settled event → gui'.Sound nobody := fun _ _ _ hSound => hSound.step
  have hExact : ∀ (gui : Gui) (event : Event) (gui' : Gui), gui.Sound nobody → sizing.step gui event = some gui' →
      gui'.Scheduled → gui.Settled event := by
    intro gui event gui' _ hStep hScheduled
    cases event with
    | movePane a t =>
      obtain ⟨-, ⟨⟩⟩ := Option.ite_none_right_eq_some.mp hStep
      exact Gui.settled_of_scheduled hScheduled
    | _ => trivial
  exact sizing.always_iff hProp hKeep hExact Gui.Sound.start h

/-! A page with two panes, of which one is moved to a new tab in the middle of the drag of the divider. -/

def inDrag : List Event :=
  [.newTab, .attach 0 7 ⟨24, 40⟩, .attach 0 8 ⟨24, 40⟩, .timerExpires 0, .timerExpires 1, .buttonPress 0,
    .dividerMoves 0, .gridChanges 1 ⟨24, 30⟩]

/-- The release of the button does not find the pane. -/
theorem movedInDrag_lost : ∃ gui, sizing.run (inDrag ++ [.movePane 0 1, .buttonRelease 0]) = some gui ∧
    gui.Live 1 1 ∧ gui.grid 1 = ⟨24, 30⟩ ∧ (gui.bridge 1).last = ⟨24, 40⟩ ∧ ¬ gui.Scheduled := by
  have hRun : (sizing.run (inDrag ++ [.movePane 0 1, .buttonRelease 0])).any fun gui =>
      (gui.pages 1).terminals = [1] ∧ gui.bridge 1 = ⟨1, 8, false, ⟨24, 40⟩, false, true⟩ ∧ gui.grid 1 = ⟨24, 30⟩ ∧
        (gui.pages 1).dividerDragging = false := by decide +kernel
  obtain ⟨gui, hGui, hState⟩ := sizing.exists_of_run_any hRun
  obtain ⟨hPage, hBridge, hGrid, hDrag⟩ := of_decide_eq_true hState
  have hLive : gui.Live 1 1 := by
    constructor
    · rw [hPage]
      exact List.mem_singleton_self 1
    · rw [hBridge]
    · rw [hBridge]
      decide
  have hLast : (gui.bridge 1).last = ⟨24, 40⟩ := by rw [hBridge]
  refine ⟨gui, hGui, hLive, hGrid, hLast, fun hScheduled => ?_⟩
  rcases hScheduled 1 1 hLive (by rw [hGrid, hLast]; decide) with hArmed | hMarked
  · rw [hBridge] at hArmed
    cases hArmed
  · rw [hDrag] at hMarked
    cases hMarked.2

/-- The pane is moved once the drag has ended, and once more while its timer is armed. -/
def released : List Event :=
  inDrag ++ [.buttonRelease 0, .movePane 0 1, .attach 1 9 ⟨24, 40⟩, .gridChanges 1 ⟨24, 80⟩, .movePane 1 1,
    .timerExpires 1]

theorem settled_released {before after : List Event} {event : Event} {gui : Gui}
    (hSplit : released = before ++ event :: after) (hRun : sizing.run before = some gui) : gui.Settled event := by
  have hMoves : ∀ i < released.length, ∀ t ≤ 2, released[i]? ∈ [some (.movePane 0 t), some (.movePane 1 t)] →
      ((sizing.run (released.take i)).all fun gui =>
        decide (gui.grid t = (gui.bridge t).last ∨ (gui.bridge t).resizeId = true)) = true := by decide +kernel
  cases event with
  | movePane a t =>
    have hLength : before.length < released.length := by
      rw [hSplit, List.length_append, List.length_cons]
      omega
    have hEvent : released[before.length]? = some (.movePane a t) := by simp [hSplit]
    have hMem : Event.movePane a t ∈ released := List.mem_of_getElem? hEvent
    simp only [released, inDrag, List.cons_append, List.nil_append, List.mem_cons, List.not_mem_nil, reduceCtorEq,
      false_or, or_false, Event.movePane.injEq] at hMem
    have hHere : released[before.length]? ∈ [some (Event.movePane 0 t), some (.movePane 1 t)] := by
      rw [hEvent]
      rcases hMem with ⟨rfl, -⟩ | ⟨rfl, -⟩
      · simp
      · simp
    have hThis := hMoves before.length hLength t (by omega) hHere
    rw [hSplit, List.take_left, hRun] at hThis
    exact fun _ => of_decide_eq_true hThis
  | _ => trivial

/-- At the end of the drag the pane is flushed, and the size that it gets in its new page is pushed off the timer. -/
theorem sizes_scheduled_iff_released : ∃ gui, sizing.run released = some gui ∧
    (gui.bridge 1).page = 2 ∧ (gui.bridge 1).last = ⟨24, 80⟩ ∧
    ∀ before after gui', released = before ++ after → sizing.run before = some gui' → gui'.Scheduled := by
  have hRun : (sizing.run released).any fun gui => (gui.bridge 1).page = 2 ∧ (gui.bridge 1).last = ⟨24, 80⟩ := by
    decide +kernel
  obtain ⟨gui, hGui, hState⟩ := sizing.exists_of_run_any hRun
  obtain ⟨hPage, hLast⟩ := of_decide_eq_true hState
  exact ⟨gui, hGui, hPage, hLast, (sizes_scheduled_iff hGui).mpr fun _ _ _ _ hSplit hBefore =>
    settled_released hSplit hBefore⟩

end Epimone.Client.WinSize
