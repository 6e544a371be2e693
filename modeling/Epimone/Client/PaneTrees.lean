import Epimone.Client.SavedTrees
import Epimone.Library.LinkedTree

/-! # The panes of the pages

Pages, paned widgets and the leaves around the terminals are widgets that name
their children and their parent. A split puts a paned in the place of a leaf; a
pane that is closed, exits or moves out leaves its place, and that of its
paned, to its sibling.
-/
set_option autoImplicit false

namespace Epimone.Client

open LinkedTree IdTree

/-- The widgets of all pages, with the fields of a page by its name and the page of the bridge by its leaf, which
stands for its terminal as well; `closing` holds the pages that have emitted close-page. -/
structure Desktop where
  heap : Heap GtkOrientation
  visible : Nat → Bool
  next : Nat
  pages : List Nat
  focused : Nat → Option Nat
  zoomedLeaf : Nat → Option Nat
  bridge : Nat → Option Nat
  closing : List Nat

section Walks

variable (h : Heap GtkOrientation)

def binChild (page : Nat) : Option Nat :=
  match h.cell page with
  | .holder child => child
  | _ => none

/-- The paned that a widget is in, with its children. -/
def panedOf (w : Nat) : Option (Nat × Option Nat × Option Nat) :=
  (h.parent w).bind fun d =>
    match h.cell d with
    | .fork _ start finish => some (d, start, finish)
    | _ => none

def firstTerminal : Nat → Option Nat → Option Nat
  | 0, _ => none
  | _, none => none
  | fuel + 1, some w =>
    match h.cell w with
    | .fork _ start finish => (firstTerminal fuel start).or (firstTerminal fuel finish)
    | .item => some w
    | .holder _ => none

def collectTerminals : Nat → Option Nat → List Nat
  | 0, _ => []
  | _, none => []
  | fuel + 1, some w =>
    match h.cell w with
    | .fork _ start finish => collectTerminals fuel start ++ collectTerminals fuel finish
    | .item => [w]
    | .holder _ => []

def showAll : Nat → Option Nat → (Nat → Bool) → Nat → Bool
  | 0, _, visible => visible
  | _, none, visible => visible
  | fuel + 1, some w, visible =>
    let visible := Function.update visible w true
    match h.cell w with
    | .fork _ start finish => showAll fuel finish (showAll fuel start visible)
    | _ => visible

/-- The sibling at every paned above a widget is hidden; whether there was one. -/
def hideSiblings : Nat → Nat → (Nat → Bool) × Bool → (Nat → Bool) × Bool
  | 0, _, found => found
  | fuel + 1, w, found =>
    match panedOf h w with
    | none => found
    | some (d, start, finish) =>
      let sibling := if start = some w then finish else start
      hideSiblings fuel d (match sibling with
        | some x => (Function.update found.1 x false, true)
        | none => found)

def pageOf : Nat → Nat → Option Nat
  | 0, _ => none
  | fuel + 1, w =>
    match h.cell w with
    | .holder _ => some w
    | _ => (h.parent w).bind (pageOf fuel)

end Walks

namespace Desktop

variable (s : Desktop)

def setFocused (page : Nat) (terminal : Option Nat) : Desktop :=
  { s with focused := Function.update s.focused page terminal }

def unzoom (page : Nat) : Desktop :=
  if s.zoomedLeaf page = none then s
  else
    { s with
      visible := showAll s.heap s.next (binChild s.heap page) s.visible
      zoomedLeaf := Function.update s.zoomedLeaf page none }

def applyZoom (page leaf : Nat) : Desktop :=
  let (visible, hidAny) := hideSiblings s.heap s.next leaf (s.visible, false)
  if hidAny then { s with visible := visible, zoomedLeaf := Function.update s.zoomedLeaf page (some leaf) }
  else { s with visible := visible }

def toggleZoom (page : Nat) : Desktop :=
  if s.zoomedLeaf page ≠ none then s.unzoom page
  else
    match s.focused page with
    | some terminal => s.applyZoom page terminal
    | none => s

def newWidget (cell : Cell GtkOrientation) : Nat × Desktop :=
  (s.next,
    { s with
      heap := s.heap.alloc s.next cell
      visible := Function.update s.visible s.next true
      next := s.next + 1
      focused := Function.update s.focused s.next none
      zoomedLeaf := Function.update s.zoomedLeaf s.next none
      bridge := Function.update s.bridge s.next none })

/-- A leaf with a terminal, which has a bridge if the session was started. -/
def createTerminal (page : Nat) (started : Bool) : Nat × Desktop :=
  let (leaf, s) := s.newWidget .item
  (leaf, if started then { s with bridge := Function.update s.bridge leaf (some page) } else s)

def newPaned (o : GtkOrientation) : Nat × Desktop := s.newWidget (.fork o none none)

def newEmpty : Nat × Desktop :=
  let (page, s) := s.newWidget (.holder none)
  (page, { s with pages := s.pages ++ [page] })

def newPage (started : Bool) : Desktop :=
  let (page, s) := s.newEmpty
  let (leaf, s) := s.createTerminal page started
  { s with heap := s.heap.setChild page (some leaf) }.setFocused page (some leaf)

def split (page : Nat) (o : GtkOrientation) (started : Bool) : Desktop :=
  match s.focused page with
  | none => s
  | some oldLeaf =>
    let s := s.unzoom page
    let parent := s.heap.parent oldLeaf
    let (newLeaf, s) := s.createTerminal page started
    let (paned, s) := s.newPaned o
    { s with heap := s.heap.graft page parent oldLeaf paned newLeaf }.setFocused page (some newLeaf)

/-- A terminal that is taken down has its bridge freed. -/
def destroyLeaf (leaf : Nat) : Desktop := { s with bridge := Function.update s.bridge leaf none }

def removeTerminal (page terminal : Nat) : Desktop :=
  let s := s.unzoom page
  let wasFocused := s.focused page = some terminal
  match panedOf s.heap terminal with
  | none => { s.setFocused page none with closing := page :: s.closing }
  | some (paned, start, finish) =>
    let sibling := if start = some terminal then finish else start
    let nextFocus := if wasFocused then firstTerminal s.heap s.next sibling else none
    let s := { s with heap := s.heap.collapse page paned sibling }.destroyLeaf terminal
    if nextFocus ≠ none then s.setFocused page nextFocus else s

def closePane (page : Nat) : Desktop :=
  match s.focused page with
  | none => s
  | some terminal => s.removeTerminal page terminal

/-- death_idle: the pane of an exited session collapses in the page of its bridge. -/
def deathIdle (leaf : Nat) : Desktop :=
  match s.bridge leaf with
  | none => s
  | some page => s.removeTerminal page leaf

/-- The focused leaf, let go of, unless it is the only one. -/
def takeFocusedLeaf (page : Nat) : Option Nat × Desktop :=
  match s.focused page with
  | none => (none, s)
  | some leaf =>
    let s := s.unzoom page
    match panedOf s.heap leaf with
    | none => (none, s)
    | some (paned, start, finish) =>
      let sibling := if start = some leaf then finish else start
      let nextFocus := firstTerminal s.heap s.next sibling
      (some leaf, { s with heap := s.heap.collapse page paned sibling }.setFocused page nextFocus)

def adoptLeaf (page leaf : Nat) : Desktop :=
  if binChild s.heap page ≠ none then s
  else
    let s := { s with heap := s.heap.setChild page (some leaf) }
    let s := if s.bridge leaf ≠ none then { s with bridge := Function.update s.bridge leaf (some page) } else s
    s.setFocused page (some leaf)

def paneCount (page : Nat) : Nat := (collectTerminals s.heap s.next (binChild s.heap page)).length

def openInNewTab (page : Nat) : Desktop :=
  if s.paneCount page < 2 then s
  else
    match s.takeFocusedLeaf page with
    | (none, s) => s
    | (some leaf, s) =>
      let (newPage, s) := s.newEmpty
      s.adoptLeaf newPage leaf

/-- The keyboard focus enters a terminal; its page is found from the widgets above it. -/
def focusEnter (leaf : Nat) : Desktop :=
  match pageOf s.heap s.next leaf with
  | none => s
  | some page => s.setFocused page (some leaf)

/-- A page whose tab is closed goes with its terminals. -/
def dropPage (page : Nat) : Desktop :=
  let gone := collectTerminals s.heap s.next (binChild s.heap page)
  { s with
    pages := s.pages.filter (· ≠ page)
    bridge := fun leaf => if leaf ∈ gone then none else s.bridge leaf }

end Desktop

/-- What can happen to the panes; `started` tells whether the session of a new one could be started. -/
inductive PaneEvent where
  | newPage (started : Bool)
  | split (page : Nat) (o : GtkOrientation) (started : Bool)
  | closePane (page : Nat)
  | exited (leaf : Nat)
  | openInNewTab (page : Nat)
  | toggleZoom (page : Nat)
  | focusEnter (leaf : Nat)
  | dropPage (page : Nat)

abbrev PageTree := IdTree GtkOrientation

def own (trees : Nat → PageTree) (page : Nat) : List Nat := page :: ids (trees page)

/-- The widgets form these trees, a tree for each page and no widget in two. -/
structure Shaped (h : Heap GtkOrientation) (next : Nat) (pages : List Nat) (trees : Nat → PageTree) : Prop where
  holds : ∀ page ∈ pages, h.Holds page (trees page)
  nodup : ∀ page ∈ pages, (own trees page).Nodup
  apart : ∀ page ∈ pages, ∀ other ∈ pages, page ≠ other → ∀ x ∈ own trees page, x ∉ own trees other
  named : ∀ page ∈ pages, ∀ x ∈ own trees page, x < next

/-- The trees of the pages; each focused terminal is in the tree of its page, and so is each bridge. -/
structure Desktop.Shows (s : Desktop) (trees : Nat → PageTree) : Prop extends Shaped s.heap s.next s.pages trees where
  focused : ∀ page ∈ s.pages, ∀ terminal, s.focused page = some terminal → terminal ∈ (trees page).leaves
  unfocused : ∀ page ∈ s.pages, s.focused page = none → page ∈ s.closing
  bridged : ∀ leaf page, s.bridge leaf = some page → page ∈ s.pages ∧ leaf ∈ (trees page).leaves

section Walking

variable {h : Heap GtkOrientation}

theorem firstTerminal_below {tree : PageTree} (hBelow : h.Below tree) {fuel : Nat} (hFuel : height tree ≤ fuel) :
    ∃ terminal ∈ tree.leaves, firstTerminal h fuel (some (root tree)) = some terminal := by
  induction tree generalizing fuel with
  | leaf a =>
    obtain ⟨fuel, rfl⟩ : ∃ n, fuel = n + 1 := ⟨fuel - 1, by have := hFuel; simp only [height] at this; omega⟩
    refine ⟨a, List.mem_singleton_self a, ?_⟩
    have hCell : h.cell a = .item := hBelow
    rw [root, firstTerminal, hCell]
  | split label start finish ihStart ihFinish =>
    obtain ⟨hCell, ⟨_, hStart⟩, _, _⟩ := hBelow
    simp only [height] at hFuel
    obtain ⟨fuel, rfl⟩ : ∃ n, fuel = n + 1 := ⟨fuel - 1, by omega⟩
    obtain ⟨terminal, hIn, hFirst⟩ := ihStart hStart (by omega : height start ≤ fuel)
    refine ⟨terminal, List.mem_append_left _ hIn, ?_⟩
    rw [root, firstTerminal, hCell]
    dsimp only
    rw [hFirst]
    rfl

theorem collectTerminals_below {tree : PageTree} (hBelow : h.Below tree) {fuel : Nat} (hFuel : height tree ≤ fuel) :
    collectTerminals h fuel (some (root tree)) = tree.leaves := by
  induction tree generalizing fuel with
  | leaf a =>
    obtain ⟨fuel, rfl⟩ : ∃ n, fuel = n + 1 := ⟨fuel - 1, by have := hFuel; simp only [height] at this; omega⟩
    have hCell : h.cell a = .item := hBelow
    rw [root, collectTerminals, hCell]
    rfl
  | split label start finish ihStart ihFinish =>
    obtain ⟨hCell, ⟨_, hStart⟩, _, hFinish⟩ := hBelow
    simp only [height] at hFuel
    obtain ⟨fuel, rfl⟩ : ∃ n, fuel = n + 1 := ⟨fuel - 1, by omega⟩
    rw [root, collectTerminals, hCell]
    dsimp only
    rw [ihStart hStart (by omega), ihFinish hFinish (by omega)]
    rfl

theorem panedOf_frame {page r : Nat} {f : Frame GtkOrientation} {c : Context GtkOrientation}
    (hAround : h.Around page (f :: c) r) (hParent : h.parent r = some f.label.1) (hNe : root f.other ≠ r) :
    ∃ start finish, panedOf h r = some (f.label.1, start, finish) ∧
      (if start = some r then finish else start) = some (root f.other) := by
  have hCell := hAround.1
  obtain ⟨label, side, other⟩ := f
  cases side with
  | start =>
    refine ⟨some r, some (root other), ?_, if_pos rfl⟩
    rw [panedOf, hParent, Option.bind_some, hCell]
    rfl
  | finish =>
    refine ⟨some (root other), some r, ?_, if_neg fun hSame => hNe (Option.some.inj hSame)⟩
    rw [panedOf, hParent, Option.bind_some, hCell]
    rfl

theorem panedOf_page {page r : Nat} (hAround : h.Around page [] r) (hParent : h.parent r = some page) :
    panedOf h r = none := by
  have hCell : h.cell page = .holder (some r) := hAround
  rw [panedOf, hParent, Option.bind_some, hCell]

end Walking

section Shapes

variable {h h' : Heap GtkOrientation} {next next' : Nat} {pages : List Nat} {trees : Nat → PageTree}

theorem own_update_self (page : Nat) (tree : PageTree) :
    own (Function.update trees page tree) page = page :: ids tree := by
  rw [own, Function.update_self]

theorem own_update_of_ne {page other : Nat} (hNe : other ≠ page) (tree : PageTree) :
    own (Function.update trees page tree) other = own trees other := by
  rw [own, Function.update_of_ne hNe, own]

theorem Shaped.alloc (hShaped : Shaped h next pages trees) (cell : Cell GtkOrientation) :
    Shaped (h.alloc next cell) (next + 1) pages trees where
  holds page hPage := by
    have hOld : ∀ x ∈ own trees page, x ≠ next := fun x hx => Nat.ne_of_lt (hShaped.named page hPage x hx)
    refine Heap.holds_congr (Function.update_of_ne (hOld page List.mem_cons_self) _ _) ?_ (hShaped.holds page hPage)
    intro x hx
    have hNe := hOld x (List.mem_cons_of_mem _ hx)
    exact ⟨Function.update_of_ne hNe _ _, Function.update_of_ne hNe _ _⟩
  nodup := hShaped.nodup
  apart := hShaped.apart
  named page hPage x hx := Nat.lt_succ_of_lt (hShaped.named page hPage x hx)

theorem Shaped.reshape {page : Nat} {tree : PageTree} (hShaped : Shaped h next pages trees) (hPage : page ∈ pages)
    (hNext : next ≤ next') (hHolds : h'.Holds page tree) (hNodup : (page :: ids tree).Nodup)
    (hNamed : ∀ x ∈ ids tree, x ∈ own trees page ∨ next ≤ x ∧ x < next')
    (hKeeps : ∀ x, x < next → x ∉ own trees page → h'.parent x = h.parent x ∧ h'.cell x = h.cell x) :
    Shaped h' next' pages (Function.update trees page tree) where
  holds other hOther := by
    by_cases hSame : other = page
    · subst hSame
      rw [Function.update_self]
      exact hHolds
    · rw [Function.update_of_ne hSame]
      have hSameCell : ∀ x ∈ own trees other, h'.parent x = h.parent x ∧ h'.cell x = h.cell x := fun x hx =>
        hKeeps x (hShaped.named other hOther x hx) (hShaped.apart other hOther page hPage hSame x hx)
      exact Heap.holds_congr (hSameCell other List.mem_cons_self).2
        (fun x hx => hSameCell x (List.mem_cons_of_mem _ hx)) (hShaped.holds other hOther)
  nodup other hOther := by
    by_cases hSame : other = page
    · subst hSame
      rw [own_update_self]
      exact hNodup
    · rw [own_update_of_ne hSame]
      exact hShaped.nodup other hOther
  apart := by
    have hFree : ∀ other ∈ pages, other ≠ page → ∀ x ∈ page :: ids tree, x ∉ own trees other := by
      intro other hOther hNe x hx hIn
      have hHere : x ∈ own trees page ∨ next ≤ x ∧ x < next' :=
        (List.mem_cons.mp hx).elim (fun hSame => Or.inl (List.mem_cons.mpr (Or.inl hSame))) (hNamed x)
      rcases hHere with hHere | hNew
      · exact hShaped.apart other hOther page hPage hNe x hIn hHere
      · exact absurd (hShaped.named other hOther x hIn) (Nat.not_lt.mpr hNew.1)
    intro first hFirst second hSecond hNe x hx
    by_cases hSame : first = page
    · subst hSame
      rw [own_update_self] at hx
      rw [own_update_of_ne hNe.symm]
      exact hFree second hSecond hNe.symm x hx
    · rw [own_update_of_ne hSame] at hx
      by_cases hOther : second = page
      · subst hOther
        rw [own_update_self]
        exact fun hIn => hFree first hFirst hNe x hIn hx
      · rw [own_update_of_ne hOther]
        exact hShaped.apart first hFirst second hSecond hNe x hx
  named other hOther x hx := by
    by_cases hSame : other = page
    · subst hSame
      rw [own_update_self] at hx
      rcases List.mem_cons.mp hx with rfl | hx
      · exact Nat.lt_of_lt_of_le (hShaped.named x hPage x List.mem_cons_self) hNext
      · rcases hNamed x hx with hOld | hNew
        · exact Nat.lt_of_lt_of_le (hShaped.named other hPage x hOld) hNext
        · exact hNew.2
    · rw [own_update_of_ne hSame] at hx
      exact Nat.lt_of_lt_of_le (hShaped.named other hOther x hx) hNext

theorem Shaped.add {page : Nat} {tree : PageTree} (hShaped : Shaped h next pages trees)
    (hHolds : h'.Holds page tree) (hNodup : (page :: ids tree).Nodup) (hNamed : ∀ x ∈ page :: ids tree, x < next)
    (hFree : ∀ other ∈ pages, ∀ x ∈ page :: ids tree, x ∉ own trees other)
    (hKeeps : ∀ x, x ∉ page :: ids tree → h'.parent x = h.parent x ∧ h'.cell x = h.cell x) :
    Shaped h' next (pages ++ [page]) (Function.update trees page tree) := by
  have hOld : ∀ other ∈ pages, other ≠ page := by
    rintro other hOther rfl
    exact hFree other hOther other List.mem_cons_self List.mem_cons_self
  have hCases {motive : Nat → Prop} (hThis : motive page) (hRest : ∀ other ∈ pages, motive other) :
      ∀ other ∈ pages ++ [page], motive other := by
    intro other hOther
    rcases List.mem_append.mp hOther with hOther | hOther
    · exact hRest other hOther
    · rw [List.mem_singleton.mp hOther]
      exact hThis
  constructor
  · apply hCases
    · rw [Function.update_self]
      exact hHolds
    · intro other hOther
      rw [Function.update_of_ne (hOld other hOther)]
      have hSame : ∀ x ∈ own trees other, h'.parent x = h.parent x ∧ h'.cell x = h.cell x := fun x hx =>
        hKeeps x fun hIn => hFree other hOther x hIn hx
      exact Heap.holds_congr (hSame other List.mem_cons_self).2 (fun x hx => hSame x (List.mem_cons_of_mem _ hx))
        (hShaped.holds other hOther)
  · apply hCases
    · rw [own_update_self]
      exact hNodup
    · intro other hOther
      rw [own_update_of_ne (hOld other hOther)]
      exact hShaped.nodup other hOther
  · apply hCases
    · apply hCases
      · exact fun hNe => absurd rfl hNe
      · intro other hOther _ x hx
        rw [own_update_self] at hx
        rw [own_update_of_ne (hOld other hOther)]
        exact hFree other hOther x hx
    · intro first hFirst
      apply hCases
      · intro _ x hx hIn
        rw [own_update_of_ne (hOld first hFirst)] at hx
        rw [own_update_self] at hIn
        exact hFree first hFirst x hIn hx
      · intro second hSecond hNe x hx
        rw [own_update_of_ne (hOld first hFirst)] at hx
        rw [own_update_of_ne (hOld second hSecond)]
        exact hShaped.apart first hFirst second hSecond hNe x hx
  · apply hCases
    · rw [own_update_self]
      exact hNamed
    · intro other hOther
      rw [own_update_of_ne (hOld other hOther)]
      exact hShaped.named other hOther

end Shapes

/-- The tree after a split: the new leaf right after the one that was split. -/
def Grown (tree tree' : PageTree) (leaf new : Nat) (o : GtkOrientation) : Prop :=
  ∃ d before above after, tree.paths = before ++ (leaf, above) :: after ∧
    tree'.paths = before ++ (leaf, above ++ [((d, o), .start)]) :: (new, above ++ [((d, o), .finish)]) :: after

/-- The tree without a leaf: the others in their order, without the paned that the leaf was in. -/
def Shrunk (tree tree' : PageTree) (leaf : Nat) : Prop :=
  ∃ d o side before above after, tree.paths = before ++ (leaf, above ++ [((d, o), side)]) :: after ∧
    tree'.paths = (before ++ after).map (without d)

section Trees

variable {tree tree' : PageTree} {leaf new : Nat}

theorem leaves_of_grown {o : GtkOrientation} (h : Grown tree tree' leaf new o) :
    ∃ before after, tree.leaves = before ++ leaf :: after ∧ tree'.leaves = before ++ leaf :: new :: after := by
  obtain ⟨d, before, above, after, hTree, hTree'⟩ := h
  refine ⟨before.map Prod.fst, after.map Prod.fst, ?_, ?_⟩
  · rw [SplitTree.leaves_eq_paths, hTree, List.map_append, List.map_cons]
  · rw [SplitTree.leaves_eq_paths, hTree', List.map_append, List.map_cons, List.map_cons]

theorem leaves_of_shrunk (h : Shrunk tree tree' leaf) :
    ∃ before after, tree.leaves = before ++ leaf :: after ∧ tree'.leaves = before ++ after := by
  obtain ⟨d, o, side, before, above, after, hTree, hTree'⟩ := h
  refine ⟨before.map Prod.fst, after.map Prod.fst, ?_, ?_⟩
  · rw [SplitTree.leaves_eq_paths, hTree, List.map_append, List.map_cons]
  · rw [SplitTree.leaves_eq_paths, hTree', List.map_map, ← List.map_append]
    rfl

end Trees

namespace Desktop

variable {s : Desktop} {trees : Nat → PageTree}

theorem unzoom_fields (s : Desktop) (page : Nat) :
    (s.unzoom page).heap = s.heap ∧ (s.unzoom page).next = s.next ∧ (s.unzoom page).pages = s.pages ∧
      (s.unzoom page).focused = s.focused ∧ (s.unzoom page).bridge = s.bridge ∧
      (s.unzoom page).closing = s.closing := by
  unfold unzoom
  split
  · exact ⟨rfl, rfl, rfl, rfl, rfl, rfl⟩
  · exact ⟨rfl, rfl, rfl, rfl, rfl, rfl⟩

/-- The trees do not depend on what is hidden. -/
theorem Shows.of_fields {s' : Desktop} (h : s.Shows trees) (hFields : s'.heap = s.heap ∧ s'.next = s.next ∧
    s'.pages = s.pages ∧ s'.focused = s.focused ∧ s'.bridge = s.bridge ∧ s'.closing = s.closing) : s'.Shows trees := by
  obtain ⟨hHeap, hNext, hPages, hFocused, hBridge, hClosing⟩ := hFields
  obtain ⟨hShaped, hFocus, hUnfocused, hBridged⟩ := h
  constructor
  · rw [hHeap, hNext, hPages]
    exact hShaped
  · rw [hPages, hFocused]
    exact hFocus
  · rw [hPages, hFocused, hClosing]
    exact hUnfocused
  · rw [hPages, hBridge]
    exact hBridged

/-- A page is higher than its tree, and its name is below all fuel. -/
theorem Shows.height_le {page : Nat} (h : s.Shows trees) (hPage : page ∈ s.pages) : height (trees page) ≤ s.next :=
  height_le_of_named (List.nodup_cons.mp (h.nodup page hPage)).2 fun x hx =>
    h.named page hPage x (List.mem_cons_of_mem _ hx)

theorem Shows.collect {page : Nat} (h : s.Shows trees) (hPage : page ∈ s.pages) :
    collectTerminals s.heap s.next (binChild s.heap page) = (trees page).leaves := by
  have hHolds := h.holds page hPage
  have hChild : binChild s.heap page = some (root (trees page)) := by
    rw [binChild, hHolds.child]
  rw [hChild]
  exact collectTerminals_below hHolds.below (h.height_le hPage)

theorem Shows.reshape {s' : Desktop} {page : Nat} {tree : PageTree} (h : s.Shows trees) (hPage : page ∈ s.pages)
    (hShaped : Shaped s'.heap s'.next s.pages (Function.update trees page tree)) (hPages : s'.pages = s.pages)
    (hFocused : ∀ terminal, s'.focused page = some terminal → terminal ∈ tree.leaves)
    (hUnfocused : s'.focused page = none → page ∈ s'.closing)
    (hOthers : ∀ other ∈ s.pages, other ≠ page → s'.focused other = s.focused other) (hClosing : s.closing ⊆ s'.closing)
    (hBridged : ∀ leaf other, s'.bridge leaf = some other →
      other = page ∧ leaf ∈ tree.leaves ∨ other ≠ page ∧ s.bridge leaf = some other) :
    s'.Shows (Function.update trees page tree) where
  toShaped := hPages ▸ hShaped
  focused other hOther terminal hFocus := by
    rw [hPages] at hOther
    by_cases hSame : other = page
    · subst hSame
      rw [Function.update_self]
      exact hFocused terminal hFocus
    · rw [hOthers other hOther hSame] at hFocus
      rw [Function.update_of_ne hSame]
      exact h.focused other hOther terminal hFocus
  unfocused other hOther hFocus := by
    rw [hPages] at hOther
    by_cases hSame : other = page
    · subst hSame
      exact hUnfocused hFocus
    · rw [hOthers other hOther hSame] at hFocus
      exact hClosing (h.unfocused other hOther hFocus)
  bridged leaf other hBridge := by
    rw [hPages]
    rcases hBridged leaf other hBridge with ⟨rfl, hLeaf⟩ | ⟨hNe, hOld⟩
    · rw [Function.update_self]
      exact ⟨hPage, hLeaf⟩
    · rw [Function.update_of_ne hNe]
      exact h.bridged leaf other hOld

section Split

variable (page : Nat) (o : GtkOrientation) (started : Bool) {w : Nat}

/-- The widgets after a split, the new leaf and the new paned named after all others. -/
def splitHeap (s : Desktop) (page : Nat) (o : GtkOrientation) (w : Nat) : Heap GtkOrientation :=
  ((s.heap.alloc s.next .item).alloc (s.next + 1) (.fork o none none)).graft page (s.heap.parent w) w
    (s.next + 1) s.next

theorem split_fields (hFocused : s.focused page = some w) :
    (s.split page o started).heap = s.splitHeap page o w ∧ (s.split page o started).next = s.next + 2 ∧
      (s.split page o started).pages = s.pages ∧
        (s.split page o started).focused = Function.update (Function.update (Function.update s.focused s.next none)
          (s.next + 1) none) page (some s.next) ∧
          (s.split page o started).bridge = Function.update (Function.update s.bridge s.next
            (if started then some page else none)) (s.next + 1) none ∧
            (s.split page o started).closing = s.closing := by
  obtain ⟨hHeap, hNext, hPages, hFocus, hBridge, hClosing⟩ := s.unzoom_fields page
  unfold split splitHeap
  rw [hFocused]
  cases started with
  | true =>
    simp only [createTerminal, newPaned, newWidget, setFocused, if_true, Function.update_idem, hHeap, hNext,
      hPages, hFocus, hBridge, hClosing, and_self]
  | false =>
    simp only [createTerminal, newPaned, newWidget, setFocused, Bool.false_eq_true, if_false, hHeap, hNext,
      hPages, hFocus, hBridge, hClosing, and_self]

theorem split_shows (h : s.Shows trees) (hPage : page ∈ s.pages) (hFocused : s.focused page = some w) :
    ∃ tree, (s.split page o started).Shows (Function.update trees page tree) ∧
      Grown (trees page) tree w s.next o ∧ (s.split page o started).focused page = some s.next ∧
        ∀ x ∈ ids tree, x ∈ ids (trees page) ∨ s.next ≤ x := by
  obtain ⟨hHeap, hNext, hPages, hFocus, hBridge, hClosing⟩ := split_fields page o started hFocused
  obtain ⟨c, hTree⟩ := exists_plug (h.focused page hPage w hFocused)
  have hNodup := h.nodup page hPage
  have hNamed := h.named page hPage
  have hHolds := ((h.toShaped.alloc .item).alloc (.fork o none none)).holds page hPage
  have hW : w < s.next := hNamed w (List.mem_cons_of_mem _ (mem_ids_of_mem_leaves (h.focused page hPage w hFocused)))
  unfold own at hNodup hNamed
  rw [hTree] at hHolds hNodup hNamed
  have hNew : ∀ x, s.next ≤ x → x ∉ page :: ids (plug c (.leaf w)) := fun x hx hIn =>
    Nat.not_lt.mpr hx (hNamed x hIn)
  have hSame : ∀ x, x < s.next →
      ((s.heap.alloc s.next .item).alloc (s.next + 1) (.fork o none none)).parent x = s.heap.parent x ∧
        ((s.heap.alloc s.next .item).alloc (s.next + 1) (.fork o none none)).cell x = s.heap.cell x := by
    intro x hx
    have hLeaf : x ≠ s.next := Nat.ne_of_lt hx
    have hPaned : x ≠ s.next + 1 := Nat.ne_of_lt (Nat.lt_succ_of_lt hx)
    constructor
    · exact (Function.update_of_ne hPaned _ _).trans (Function.update_of_ne hLeaf _ _)
    · exact (Function.update_of_ne hPaned _ _).trans (Function.update_of_ne hLeaf _ _)
  have hNe : s.next ≠ s.next + 1 := Nat.ne_of_lt (Nat.lt_succ_self _)
  obtain ⟨hGrafted, hKeeps⟩ := Heap.holds_graft hHolds hNodup (hNew (s.next + 1) (Nat.le_succ _))
    (hNew s.next (Nat.le_refl _))
    hNe.symm (Function.update_self ..) ((Function.update_of_ne hNe _ _).trans (Function.update_self ..))
    (Function.update_self ..) ((Function.update_of_ne hNe _ _).trans (Function.update_self ..))
  rw [(hSame w hW).1] at hGrafted hKeeps
  change (s.splitHeap page o w).Holds page (plug c (.split (s.next + 1, o) (.leaf w) (.leaf s.next))) at hGrafted
  have hPerm := ids_graft c (s.next + 1, o) w s.next
  have hGrown : Grown (trees page) (plug c (.split (s.next + 1, o) (.leaf w) (.leaf s.next))) w s.next o := by
    refine ⟨s.next + 1, before c, spine c, after c, ?_, paths_plug_split c (s.next + 1, o) w s.next⟩
    rw [hTree]
    exact paths_plug_leaf c w
  obtain ⟨first, last, hLeaves, hLeaves'⟩ := leaves_of_grown hGrown
  refine ⟨_, h.reshape hPage ?_ hPages ?_ ?_ ?_ ?_ ?_, hGrown, ?_, ?_⟩
  · rw [hHeap, hNext]
    refine h.toShaped.reshape hPage (Nat.le_add_right _ _) hGrafted ?_ ?_ ?_
    · obtain ⟨hPageNew, hIds⟩ := List.nodup_cons.mp hNodup
      have hFresh : ((s.next + 1) :: s.next :: ids (plug c (.leaf w))).Nodup := by
        refine List.nodup_cons.mpr ⟨?_, List.nodup_cons.mpr ⟨?_, hIds⟩⟩
        · intro hIn
          rcases List.mem_cons.mp hIn with hSuc | hIn
          · exact hNe hSuc.symm
          · exact hNew _ (Nat.le_succ _) (List.mem_cons_of_mem _ hIn)
        · exact fun hIn => hNew _ (Nat.le_refl _) (List.mem_cons_of_mem _ hIn)
      refine List.nodup_cons.mpr ⟨?_, hPerm.nodup_iff.mpr hFresh⟩
      intro hIn
      have hPageOld := hNamed page List.mem_cons_self
      rcases List.mem_cons.mp (hPerm.mem_iff.mp hIn) with hSuc | hIn
      · omega
      · rcases List.mem_cons.mp hIn with hSame | hIn
        · omega
        · exact hPageNew hIn
    · intro x hx
      rw [own, hTree]
      rcases List.mem_cons.mp (hPerm.mem_iff.mp hx) with hSuc | hIn
      · exact Or.inr (by omega)
      · rcases List.mem_cons.mp hIn with hSame | hIn
        · exact Or.inr (by omega)
        · exact Or.inl (List.mem_cons_of_mem _ hIn)
    · intro x hx hOut
      rw [own, hTree] at hOut
      have hGrafted := hKeeps x (by
        intro hIn
        rcases List.mem_cons.mp hIn with hSame | hIn
        · exact hOut (List.mem_cons.mpr (Or.inl hSame))
        · rcases List.mem_cons.mp hIn with hSuc | hIn
          · omega
          · rcases List.mem_cons.mp hIn with hSame | hIn
            · omega
            · exact hOut (List.mem_cons_of_mem _ hIn))
      exact ⟨hGrafted.1.trans (hSame x hx).1, hGrafted.2.trans (hSame x hx).2⟩
  · intro terminal hTerminal
    rw [hFocus, Function.update_self] at hTerminal
    rw [hLeaves', ← Option.some.inj hTerminal]
    simp
  · intro hNone
    rw [hFocus, Function.update_self] at hNone
    cases hNone
  · intro other hOther hNePage
    have hLess := h.named other hOther other List.mem_cons_self
    rw [hFocus, Function.update_of_ne hNePage, Function.update_of_ne (by omega), Function.update_of_ne (by omega)]
  · rw [hClosing]
    exact List.Subset.refl _
  · intro leaf other hOther
    rw [hBridge] at hOther
    by_cases hPaned : leaf = s.next + 1
    · rw [hPaned, Function.update_self] at hOther
      cases hOther
    · rw [Function.update_of_ne hPaned] at hOther
      by_cases hLeaf : leaf = s.next
      · rw [hLeaf, Function.update_self] at hOther
        split at hOther
        · refine Or.inl ⟨(Option.some.inj hOther).symm, ?_⟩
          rw [hLeaves', hLeaf]
          simp
        · cases hOther
      · rw [Function.update_of_ne hLeaf] at hOther
        by_cases hSamePage : other = page
        · obtain ⟨_, hIn⟩ := h.bridged leaf other hOther
          rw [hSamePage, hLeaves] at hIn
          refine Or.inl ⟨hSamePage, ?_⟩
          rw [hLeaves']
          simp only [List.mem_append, List.mem_cons] at hIn ⊢
          tauto
        · exact Or.inr ⟨hSamePage, hOther⟩
  · rw [hFocus]
    exact Function.update_self ..
  · intro x hx
    rw [hTree]
    rcases List.mem_cons.mp (hPerm.mem_iff.mp hx) with rfl | hIn
    · exact Or.inr (Nat.le_succ _)
    · rcases List.mem_cons.mp hIn with rfl | hIn
      · exact Or.inr (Nat.le_refl _)
      · exact Or.inl hIn

end Split

section Collapse

variable {page w : Nat}

/-- What is known of the heap once the leaf has left its page. -/
structure Left (s : Desktop) (trees : Nat → PageTree) (page w : Nat) (h' : Heap GtkOrientation)
    (tree : PageTree) : Prop where
  shaped : Shaped h' s.next s.pages (Function.update trees page tree)
  shrunk : Shrunk (trees page) tree w
  parent : h'.parent w = none
  cell : h'.cell w = .item
  gone : ∀ other ∈ s.pages, w ∉ own (Function.update trees page tree) other
  stay : ids tree ⊆ ids (trees page)

/-- A leaf is alone in its page, or in a paned, which its sibling can take the place of. -/
theorem collapse_cases (h : s.Shows trees) (hPage : page ∈ s.pages) (hLeaf : w ∈ (trees page).leaves) :
    panedOf s.heap w = none ∧ trees page = .leaf w ∨
      ∃ paned start finish sibling terminal tree, panedOf s.heap w = some (paned, start, finish) ∧
        (if start = some w then finish else start) = sibling ∧ firstTerminal s.heap s.next sibling = some terminal ∧
          terminal ∈ tree.leaves ∧ s.Left trees page w (s.heap.collapse page paned sibling) tree := by
  obtain ⟨c, hTree⟩ := exists_plug hLeaf
  have hHolds := h.holds page hPage
  have hNodup := h.nodup page hPage
  have hNamed := h.named page hPage
  unfold own at hNodup hNamed
  rw [hTree] at hHolds hNodup hNamed
  obtain ⟨hAround, hParent, _⟩ := Heap.holds_plug.mp hHolds
  cases c with
  | nil => exact Or.inl ⟨panedOf_page hAround hParent, hTree⟩
  | cons f c =>
    obtain ⟨hFrames, _, hOutside⟩ := Heap.nodup_plug hNodup
    obtain ⟨hHolder, hContext⟩ := List.nodup_cons.mp hFrames
    obtain ⟨hInner, _, hApart⟩ := List.nodup_append.mp hContext
    obtain ⟨hForkOther, hOther⟩ := List.nodup_cons.mp hInner
    have hForkOuter : f.label.1 ∉ contextIds c := fun hx => hApart _ List.mem_cons_self _ hx rfl
    have hW := (hOutside w (List.mem_singleton_self w)).2
    have hIn : ∀ x ∈ ids f.other, x ∈ contextIds (f :: c) := fun x hx =>
      List.mem_append_left _ (List.mem_cons_of_mem _ hx)
    have hNe : root f.other ≠ w := by
      rintro rfl
      exact hW (hIn _ (root_mem_ids f.other))
    obtain ⟨start, finish, hPaned, hSibling⟩ := panedOf_frame hAround hParent hNe
    have hHeight : height f.other ≤ s.next := height_le_of_named hOther fun x hx =>
      hNamed x (List.mem_cons_of_mem _ (Heap.mem_ids_plug.mpr (Or.inl (hIn x hx))))
    obtain ⟨terminal, hTerminal, hFirst⟩ := firstTerminal_below hAround.2.1.2 hHeight
    obtain ⟨hHealed, hFree, hItem, hKeeps⟩ := Heap.holds_collapse hHolds hNodup
    have hPerm := ids_collapse f c w
    have hStay : ∀ x ∈ ids (plug c f.other), x ∈ ids (plug (f :: c) (.leaf w)) := fun x hx =>
      hPerm.mem_iff.mpr (List.mem_cons_of_mem _ (List.mem_cons_of_mem _ hx))
    refine Or.inr ⟨_, start, finish, _, terminal, plug c f.other, hPaned, hSibling, hFirst, ?_, ?_, ?_,
      hFree, hItem, ?_, fun x hx => hTree ▸ hStay x hx⟩
    · rw [leaves_plug]
      exact List.mem_append_left _ (List.mem_append_right _ hTerminal)
    · refine h.toShaped.reshape hPage (Nat.le_refl _) hHealed ?_ ?_ ?_
      · obtain ⟨hPageOld, hIds⟩ := List.nodup_cons.mp hNodup
        obtain ⟨_, hRest⟩ := List.nodup_cons.mp (hPerm.nodup_iff.mp hIds)
        refine List.nodup_cons.mpr ⟨fun hx => hPageOld (hStay page hx), (List.nodup_cons.mp hRest).2⟩
      · intro x hx
        rw [own, hTree]
        exact Or.inl (List.mem_cons_of_mem _ (hStay x hx))
      · intro x _ hOut
        rw [own, hTree] at hOut
        exact hKeeps x hOut
    · refine ⟨f.label.1, f.label.2, f.side, before (f :: c), spine c, after (f :: c), ?_,
        paths_plug_other hForkOuter hForkOther⟩
      rw [hTree, paths_plug_leaf, spine_cons]
    · intro other hOtherPage hIn
      by_cases hSame : other = page
      · subst hSame
        rw [own_update_self] at hIn
        rcases List.mem_cons.mp hIn with rfl | hIn
        · exact (hOutside w (List.mem_singleton_self w)).1 rfl
        · obtain ⟨hGone, _⟩ := List.nodup_cons.mp (hPerm.nodup_iff.mp (List.nodup_cons.mp hNodup).2)
          exact hGone (List.mem_cons_of_mem _ hIn)
      · rw [own_update_of_ne hSame] at hIn
        exact h.apart other hOtherPage page hPage hSame w hIn (List.mem_cons_of_mem _ (mem_ids_of_mem_leaves hLeaf))

theorem removeTerminal_alone (page : Nat) (hAlone : panedOf s.heap w = none) :
    (s.removeTerminal page w).heap = s.heap ∧ (s.removeTerminal page w).next = s.next ∧
      (s.removeTerminal page w).pages = s.pages ∧
        (s.removeTerminal page w).focused = Function.update s.focused page none ∧
          (s.removeTerminal page w).bridge = s.bridge ∧ (s.removeTerminal page w).closing = page :: s.closing := by
  obtain ⟨hHeap, hNext, hPages, hFocus, hBridge, hClosing⟩ := s.unzoom_fields page
  unfold removeTerminal
  dsimp only
  rw [hHeap, hAlone]
  simp only [setFocused, hHeap, hNext, hPages, hFocus, hBridge, hClosing, and_self]

theorem removeTerminal_paned (page : Nat) {paned terminal : Nat} {start finish sibling : Option Nat}
    (hPaned : panedOf s.heap w = some (paned, start, finish))
    (hSibling : (if start = some w then finish else start) = sibling)
    (hFirst : firstTerminal s.heap s.next sibling = some terminal) :
    (s.removeTerminal page w).heap = s.heap.collapse page paned sibling ∧ (s.removeTerminal page w).next = s.next ∧
      (s.removeTerminal page w).pages = s.pages ∧
        (s.removeTerminal page w).focused =
          (if s.focused page = some w then Function.update s.focused page (some terminal) else s.focused) ∧
          (s.removeTerminal page w).bridge = Function.update s.bridge w none ∧
            (s.removeTerminal page w).closing = s.closing := by
  obtain ⟨hHeap, hNext, hPages, hFocus, hBridge, hClosing⟩ := s.unzoom_fields page
  unfold removeTerminal
  dsimp only
  rw [hHeap, hPaned, hFocus, hNext]
  dsimp only
  rw [hSibling, hFirst]
  by_cases hFocused : s.focused page = some w
  · simp only [hFocused, if_true, destroyLeaf, setFocused, hPages, hBridge, hClosing, and_self, ne_eq,
      Option.some_ne_none, not_false_eq_true]
  · simp only [hFocused, if_false, destroyLeaf, hPages, hBridge, hClosing, and_self, ne_eq,
      not_true_eq_false]

/-- The last pane stays in its page, which has no focused terminal any more; any other leaves the tree. -/
def Removed (s' : Desktop) (tree tree' : PageTree) (page w : Nat) : Prop :=
  tree = .leaf w ∧ tree' = tree ∧ s'.focused page = none ∨ Shrunk tree tree' w

theorem removeTerminal_shows (h : s.Shows trees) (hPage : page ∈ s.pages) (hLeaf : w ∈ (trees page).leaves) :
    ∃ tree, (s.removeTerminal page w).Shows (Function.update trees page tree) ∧
      (s.removeTerminal page w).pages = s.pages ∧ Removed (s.removeTerminal page w) (trees page) tree page w ∧
        ids tree ⊆ ids (trees page) := by
  rcases collapse_cases h hPage hLeaf with
    ⟨hAlone, hTree⟩ | ⟨paned, start, finish, sibling, terminal, tree, hPaned, hSibling, hFirst, hTerminal, hLeft⟩
  · obtain ⟨hHeap, hNext, hPages, hFocus, hBridge, hClosing⟩ := removeTerminal_alone page hAlone
    refine ⟨trees page, h.reshape hPage ?_ hPages ?_ ?_ ?_ ?_ ?_, hPages, Or.inl ⟨hTree, rfl, ?_⟩,
      List.Subset.refl _⟩
    · rw [hHeap, hNext, Function.update_eq_self]
      exact h.toShaped
    · intro terminal hTerminal
      rw [hFocus, Function.update_self] at hTerminal
      cases hTerminal
    · intro _
      rw [hClosing]
      exact List.mem_cons_self
    · intro other _ hNe
      rw [hFocus, Function.update_of_ne hNe]
    · rw [hClosing]
      exact List.subset_cons_self _ _
    · intro leaf other hOther
      rw [hBridge] at hOther
      by_cases hSame : other = page
      · exact Or.inl ⟨hSame, hSame ▸ (h.bridged leaf other hOther).2⟩
      · exact Or.inr ⟨hSame, hOther⟩
    · rw [hFocus, Function.update_self]
  · obtain ⟨hHeap, hNext, hPages, hFocus, hBridge, hClosing⟩ :=
      removeTerminal_paned page hPaned hSibling hFirst
    obtain ⟨first, last, hLeaves, hLeaves'⟩ := leaves_of_shrunk hLeft.shrunk
    have hStay : ∀ leaf ∈ (trees page).leaves, leaf ≠ w → leaf ∈ tree.leaves := by
      intro leaf hIn hNe
      rw [hLeaves] at hIn
      rw [hLeaves']
      simp only [List.mem_append, List.mem_cons] at hIn ⊢
      tauto
    refine ⟨tree, h.reshape hPage ?_ hPages ?_ ?_ ?_ ?_ ?_, hPages, Or.inr hLeft.shrunk, hLeft.stay⟩
    · rw [hHeap, hNext]
      exact hLeft.shaped
    · intro focus hFocused
      rw [hFocus] at hFocused
      split at hFocused
      · rw [Function.update_self] at hFocused
        exact Option.some.inj hFocused ▸ hTerminal
      · rename_i hOther
        refine hStay focus (h.focused page hPage focus hFocused) ?_
        rintro rfl
        exact hOther hFocused
    · intro hNone
      rw [hClosing]
      rw [hFocus] at hNone
      split at hNone
      · rw [Function.update_self] at hNone
        cases hNone
      · exact h.unfocused page hPage hNone
    · intro other _ hNe
      rw [hFocus]
      split
      · exact Function.update_of_ne hNe _ _
      · rfl
    · rw [hClosing]
      exact List.Subset.refl _
    · intro leaf other hOther
      rw [hBridge] at hOther
      have hNe : leaf ≠ w := by
        rintro rfl
        rw [Function.update_self] at hOther
        cases hOther
      rw [Function.update_of_ne hNe] at hOther
      by_cases hSame : other = page
      · exact Or.inl ⟨hSame, hStay leaf (hSame ▸ (h.bridged leaf other hOther).2) hNe⟩
      · exact Or.inr ⟨hSame, hOther⟩

theorem takeFocusedLeaf_paned {paned terminal : Nat} {start finish sibling : Option Nat}
    (hFocused : s.focused page = some w)
    (hPaned : panedOf s.heap w = some (paned, start, finish))
    (hSibling : (if start = some w then finish else start) = sibling)
    (hFirst : firstTerminal s.heap s.next sibling = some terminal) :
    ∃ s', s.takeFocusedLeaf page = (some w, s') ∧ s'.heap = s.heap.collapse page paned sibling ∧ s'.next = s.next ∧
      s'.pages = s.pages ∧ s'.focused = Function.update s.focused page (some terminal) ∧ s'.bridge = s.bridge ∧
        s'.closing = s.closing ∧ s'.visible = (s.unzoom page).visible ∧ s'.zoomedLeaf = (s.unzoom page).zoomedLeaf := by
  obtain ⟨hHeap, hNext, hPages, hFocus, hBridge, hClosing⟩ := s.unzoom_fields page
  unfold takeFocusedLeaf
  rw [hFocused]
  dsimp only
  rw [hHeap, hPaned, hNext]
  dsimp only
  rw [hSibling, hFirst]
  refine ⟨_, rfl, rfl, rfl, hPages, ?_, hBridge, hClosing, rfl, rfl⟩
  rw [setFocused, hFocus]

theorem adoptLeaf_flags (u : Desktop) (page w : Nat) :
    (u.adoptLeaf page w).visible = u.visible ∧ (u.adoptLeaf page w).zoomedLeaf = u.zoomedLeaf := by
  unfold adoptLeaf
  split
  · exact ⟨rfl, rfl⟩
  · dsimp only
    split <;> exact ⟨rfl, rfl⟩

theorem adoptLeaf_fields (u : Desktop) {page : Nat} (w : Nat) (hEmpty : binChild u.heap page = none) :
    (u.adoptLeaf page w).heap = u.heap.setChild page (some w) ∧ (u.adoptLeaf page w).next = u.next ∧
      (u.adoptLeaf page w).pages = u.pages ∧ (u.adoptLeaf page w).focused = Function.update u.focused page (some w) ∧
        (u.adoptLeaf page w).closing = u.closing ∧
          ∀ leaf other, (u.adoptLeaf page w).bridge leaf = some other →
            leaf = w ∧ other = page ∨ leaf ≠ w ∧ u.bridge leaf = some other := by
  unfold adoptLeaf
  rw [if_neg (not_not.mpr hEmpty)]
  dsimp only
  split
  · refine ⟨rfl, rfl, rfl, rfl, rfl, ?_⟩
    intro leaf other hLeaf
    dsimp only [setFocused] at hLeaf
    by_cases hSame : leaf = w
    · subst hSame
      rw [Function.update_self] at hLeaf
      exact Or.inl ⟨rfl, (Option.some.inj hLeaf).symm⟩
    · rw [Function.update_of_ne hSame] at hLeaf
      exact Or.inr ⟨hSame, hLeaf⟩
  · rename_i hBridge
    refine ⟨rfl, rfl, rfl, rfl, rfl, ?_⟩
    intro leaf other hLeaf
    refine Or.inr ⟨?_, hLeaf⟩
    rintro rfl
    exact hBridge fun hNone => nomatch hNone.symm.trans hLeaf

theorem adoptLeaf_newEmpty (u : Desktop) (w : Nat) :
    (u.newEmpty.2.adoptLeaf u.next w).heap = (u.heap.alloc u.next (.holder none)).setChild u.next (some w) ∧
      (u.newEmpty.2.adoptLeaf u.next w).next = u.next + 1 ∧
        (u.newEmpty.2.adoptLeaf u.next w).pages = u.pages ++ [u.next] ∧
          (u.newEmpty.2.adoptLeaf u.next w).focused = Function.update u.focused u.next (some w) ∧
            (u.newEmpty.2.adoptLeaf u.next w).closing = u.closing ∧
              ∀ leaf other, (u.newEmpty.2.adoptLeaf u.next w).bridge leaf = some other →
                leaf = w ∧ other = u.next ∨ leaf ≠ w ∧ u.bridge leaf = some other := by
  have hEmpty : binChild u.newEmpty.2.heap u.next = none := by
    have hCell : u.newEmpty.2.heap.cell u.next = .holder none := Function.update_self ..
    rw [binChild, hCell]
  obtain ⟨hHeap, hNext, hPages, hFocus, hClosing, hBridge⟩ := adoptLeaf_fields u.newEmpty.2 w hEmpty
  refine ⟨hHeap, hNext, hPages, hFocus.trans (Function.update_idem ..), hClosing, ?_⟩
  intro leaf other hLeaf
  refine (hBridge leaf other hLeaf).imp_right ?_
  rintro ⟨hNe, hOld⟩
  refine ⟨hNe, ?_⟩
  by_cases hNew : leaf = u.next
  · have hNone : u.newEmpty.2.bridge leaf = none := by
      rw [hNew]
      exact Function.update_self ..
    exact nomatch hNone.symm.trans hOld
  · exact (Function.update_of_ne hNew _ _).symm.trans hOld

/-- The moved pane is the only one of its new page, and the page of its bridge. -/
theorem openInNewTab_shows (h : s.Shows trees) (hPage : page ∈ s.pages) (hFocused : s.focused page = some w)
    (hPanes : 2 ≤ (trees page).leaves.length) :
    ∃ tree, (s.openInNewTab page).Shows (Function.update (Function.update trees page tree) s.next (.leaf w)) ∧
      Shrunk (trees page) tree w ∧ (s.openInNewTab page).pages = s.pages ++ [s.next] ∧
        (s.openInNewTab page).focused s.next = some w ∧ ids tree ⊆ ids (trees page) ∧
          (s.openInNewTab page).visible = Function.update (s.unzoom page).visible s.next true ∧
            (s.openInNewTab page).zoomedLeaf = Function.update (s.unzoom page).zoomedLeaf s.next none := by
  have hLeaf := h.focused page hPage w hFocused
  have hCount : s.paneCount page = (trees page).leaves.length := congrArg List.length (h.collect hPage)
  rcases collapse_cases h hPage hLeaf with
    ⟨_, hTree⟩ | ⟨paned, start, finish, sibling, terminal, tree, hPaned, hSibling, hFirst, hTerminal, hLeft⟩
  · rw [hTree] at hPanes
    exact absurd hPanes (Nat.not_succ_le_self 1)
  · obtain ⟨u, hTake, hHeap, hNext, hPages, hFocus, hBridge, hClosing, hVisible, hZoomed⟩ :=
      takeFocusedLeaf_paned hFocused hPaned hSibling hFirst
    have hEq : s.openInNewTab page = u.newEmpty.2.adoptLeaf u.next w := by
      unfold openInNewTab
      rw [hCount, if_neg (Nat.not_lt.mpr hPanes), hTake]
      rfl
    rw [hEq]
    obtain ⟨hHeap', hNext', hPages', hFocus', hClosing', hBridge'⟩ := adoptLeaf_newEmpty u w
    rw [hHeap, hNext] at hHeap'
    rw [hNext] at hNext' hPages' hFocus' hClosing' hBridge'
    rw [hPages] at hPages'
    obtain ⟨first, last, hLeaves, hLeaves'⟩ := leaves_of_shrunk hLeft.shrunk
    have hW : w < s.next := h.named page hPage w (List.mem_cons_of_mem _ (mem_ids_of_mem_leaves hLeaf))
    have hOldPage : ∀ other ∈ s.pages, other ≠ s.next := fun other hOther =>
      Nat.ne_of_lt (h.named other hOther other List.mem_cons_self)
    have hShaped := hLeft.shaped.alloc (.holder none)
    generalize hHeap₀ : s.heap.collapse page paned sibling = h₀ at hLeft hHeap' hShaped
    have hHolder : (h₀.alloc s.next (.holder none)).cell s.next = .holder none := Function.update_self ..
    have hFree : (h₀.alloc s.next (.holder none)).parent w = none :=
      (Function.update_of_ne (Nat.ne_of_lt hW) _ _).trans hLeft.parent
    have hSwapped := Heap.swapped_setChild hHolder (Option.some_ne_none w) fun x hx => Option.some.inj hx ▸ hFree
    have hAdded : Shaped (u.newEmpty.2.adoptLeaf s.next w).heap (s.next + 1) (s.pages ++ [s.next])
        (Function.update (Function.update trees page tree) s.next (.leaf w)) := by
      rw [hHeap']
      have hNe : s.next ≠ w := (Nat.ne_of_lt hW).symm
      refine hShaped.add ?_ ?_ ?_ ?_ ?_
      · refine ⟨hSwapped.cell_target, hSwapped.parent_child w rfl, ?_⟩
        change ((h₀.alloc s.next (.holder none)).setChild s.next (some w)).cell w = .item
        rw [hSwapped.cell_other w hNe.symm]
        exact (Function.update_of_ne hNe.symm _ _).trans hLeft.cell
      · exact List.nodup_cons.mpr ⟨fun hIn => hNe (List.mem_singleton.mp hIn), List.nodup_singleton w⟩
      · intro x hx
        rcases List.mem_cons.mp hx with hNew | hHere
        · omega
        · have := List.mem_singleton.mp hHere
          omega
      · intro other hOther x hx hIn
        rcases List.mem_cons.mp hx with hNew | hHere
        · exact absurd (hLeft.shaped.named other hOther x hIn) (hNew ▸ Nat.lt_irrefl _)
        · rw [List.mem_singleton.mp hHere] at hIn
          exact hLeft.gone other hOther hIn
      · intro x hx
        refine hSwapped.keeps List.mem_cons_self (fun y hy => nomatch hy) ?_ x hx
        rintro y ⟨⟩
        exact List.mem_cons_of_mem _ (List.mem_singleton_self w)
    have hStay : ∀ other ∈ s.pages, ∀ leaf ∈ (trees other).leaves, leaf ≠ w →
        leaf ∈ (Function.update (Function.update trees page tree) s.next (.leaf w) other).leaves := by
      intro other hOther leaf hIn hNe
      rw [Function.update_of_ne (hOldPage other hOther)]
      by_cases hSame : other = page
      · subst hSame
        rw [hLeaves] at hIn
        rw [Function.update_self, hLeaves']
        simp only [List.mem_append, List.mem_cons] at hIn ⊢
        tauto
      · rw [Function.update_of_ne hSame]
        exact hIn
    refine ⟨tree, ⟨?_, ?_, ?_, ?_⟩, hLeft.shrunk, ?_, ?_, hLeft.stay, ?_, ?_⟩
    · rw [hNext, hNext', hPages']
      exact hAdded
    · rw [hNext, hPages', hFocus', hFocus]
      intro other hOther focus hFocused'
      rcases List.mem_append.mp hOther with hOther | hOther
      · rw [Function.update_of_ne (hOldPage other hOther)] at hFocused'
        by_cases hSame : other = page
        · subst hSame
          rw [Function.update_self] at hFocused'
          rw [Function.update_of_ne (hOldPage other hOther), Function.update_self, ← Option.some.inj hFocused']
          exact hTerminal
        · rw [Function.update_of_ne hSame] at hFocused'
          refine hStay other hOther focus (h.focused other hOther focus hFocused') ?_
          rintro rfl
          exact h.apart page hPage other hOther (Ne.symm hSame) _ (List.mem_cons_of_mem _ (mem_ids_of_mem_leaves hLeaf))
            (List.mem_cons_of_mem _ (mem_ids_of_mem_leaves (h.focused other hOther _ hFocused')))
      · rw [List.mem_singleton.mp hOther, Function.update_self] at hFocused' ⊢
        rw [← Option.some.inj hFocused']
        exact List.mem_singleton_self w
    · rw [hNext, hPages', hFocus', hFocus, hClosing', hClosing]
      intro other hOther hNone
      rcases List.mem_append.mp hOther with hOther | hOther
      · rw [Function.update_of_ne (hOldPage other hOther)] at hNone
        by_cases hSame : other = page
        · subst hSame
          rw [Function.update_self] at hNone
          cases hNone
        · rw [Function.update_of_ne hSame] at hNone
          exact h.unfocused other hOther hNone
      · rw [List.mem_singleton.mp hOther, Function.update_self] at hNone
        cases hNone
    · rw [hNext, hPages']
      intro leaf other hLeafOf
      rcases hBridge' leaf other hLeafOf with ⟨rfl, rfl⟩ | ⟨hNe, hOld⟩
      · rw [Function.update_self]
        exact ⟨List.mem_append_right _ (List.mem_singleton_self _), List.mem_singleton_self _⟩
      · rw [hBridge] at hOld
        obtain ⟨hOther, hIn⟩ := h.bridged leaf other hOld
        exact ⟨List.mem_append_left _ hOther, hStay other hOther leaf hIn hNe⟩
    · rw [hNext]
      exact hPages'
    · rw [hNext, hFocus', Function.update_self]
    · rw [(adoptLeaf_flags u.newEmpty.2 u.next w).1, ← hVisible, ← hNext]
      rfl
    · rw [(adoptLeaf_flags u.newEmpty.2 u.next w).2, ← hZoomed, ← hNext]
      rfl

end Collapse

section Others

variable {page : Nat}

theorem toggleZoom_fields (s : Desktop) (page : Nat) :
    (s.toggleZoom page).heap = s.heap ∧ (s.toggleZoom page).next = s.next ∧ (s.toggleZoom page).pages = s.pages ∧
      (s.toggleZoom page).focused = s.focused ∧ (s.toggleZoom page).bridge = s.bridge ∧
        (s.toggleZoom page).closing = s.closing := by
  unfold toggleZoom
  split
  · exact s.unzoom_fields page
  · split
    · unfold applyZoom
      dsimp only
      split
      · exact ⟨rfl, rfl, rfl, rfl, rfl, rfl⟩
      · exact ⟨rfl, rfl, rfl, rfl, rfl, rfl⟩
    · exact ⟨rfl, rfl, rfl, rfl, rfl, rfl⟩

theorem pageOf_around {h : Heap GtkOrientation} {c : Context GtkOrientation} {r fuel : Nat}
    (hAround : h.Around page c r)
    (hParent : h.parent r = some (above page c)) (hCell : ∀ child, h.cell r ≠ .holder child)
    (hFuel : c.length + 2 ≤ fuel) : pageOf h fuel r = some page := by
  induction c generalizing r fuel with
  | nil =>
    obtain ⟨fuel, rfl⟩ : ∃ n, fuel = n + 2 := ⟨fuel - 2, by simp only [List.length_nil] at hFuel; omega⟩
    have hPage : h.cell page = .holder (some r) := hAround
    have hHere : pageOf h (fuel + 1) page = some page := by
      rw [pageOf, hPage]
    unfold pageOf
    split
    · rename_i child hHolder
      exact absurd hHolder (hCell child)
    · rw [hParent]
      exact hHere
  | cons f c ih =>
    obtain ⟨fuel, rfl⟩ : ∃ n, fuel = n + 1 := ⟨fuel - 1, by simp only [List.length_cons] at hFuel; omega⟩
    obtain ⟨hFork, _, hUp, hRest⟩ := hAround
    have hForkCell : ∀ child, h.cell f.label.1 ≠ .holder child := by
      intro child hHolder
      rw [hFork, Frame.cell] at hHolder
      split at hHolder <;> cases hHolder
    have hHere := ih hRest hUp hForkCell (Nat.le_of_succ_le_succ hFuel)
    unfold pageOf
    split
    · rename_i child hHolder
      exact absurd hHolder (hCell child)
    · rw [hParent]
      exact hHere

theorem length_le_contextIds (c : Context GtkOrientation) : c.length ≤ (contextIds c).length := by
  induction c with
  | nil => exact Nat.le_refl 0
  | cons f c ih =>
    rw [contextIds, List.flatMap_cons, List.length_append, List.length_cons]
    have hFrame : 1 ≤ f.ids.length := Nat.succ_le_of_lt (List.length_pos_of_ne_nil (List.cons_ne_nil _ _))
    unfold contextIds at ih
    omega

/-- A leaf is at least two below all fuel: its page is above it, and so are its splits. -/
theorem Shows.length_context {w : Nat} {c : Context GtkOrientation} (h : s.Shows trees) (hPage : page ∈ s.pages)
    (hTree : trees page = plug c (.leaf w)) : c.length + 2 ≤ s.next := by
  have hLength := (ids_plug c (.leaf w)).length_eq
  have hOwn : (own trees page).length ≤ s.next := by
    have hRange : own trees page ⊆ List.range s.next := fun x hx => List.mem_range.mpr (h.named page hPage x hx)
    have hLess := ((h.nodup page hPage).subperm hRange).length_le
    rw [List.length_range] at hLess
    exact hLess
  have hContext := length_le_contextIds c
  rw [own, hTree, List.length_cons, hLength, List.length_append] at hOwn
  change (contextIds c).length + 1 + 1 ≤ s.next at hOwn
  omega

theorem pageOf_leaf {w : Nat} (h : s.Shows trees) (hPage : page ∈ s.pages) (hLeaf : w ∈ (trees page).leaves) :
    pageOf s.heap s.next w = some page := by
  obtain ⟨c, hTree⟩ := exists_plug hLeaf
  have hHolds := h.holds page hPage
  rw [hTree] at hHolds
  obtain ⟨hAround, hParent, hCell⟩ := Heap.holds_plug.mp hHolds
  have hItem : s.heap.cell w = .item := hCell
  refine pageOf_around hAround hParent ?_ (h.length_context hPage hTree)
  intro child hHolder
  exact nomatch hItem.symm.trans hHolder

theorem focusEnter_shows {w : Nat} (h : s.Shows trees) (hPage : page ∈ s.pages) (hLeaf : w ∈ (trees page).leaves) :
    (s.focusEnter w).Shows trees ∧ (s.focusEnter w).pages = s.pages := by
  have hEq : s.focusEnter w = s.setFocused page (some w) := by
    rw [focusEnter, pageOf_leaf h hPage hLeaf]
  rw [hEq]
  have hSame : Function.update trees page (trees page) = trees := Function.update_eq_self page trees
  have hShows : (s.setFocused page (some w)).Shows (Function.update trees page (trees page)) := by
    refine h.reshape hPage ?_ rfl ?_ ?_ ?_ (List.Subset.refl _) ?_
    · rw [hSame]
      exact h.toShaped
    · intro terminal hFocused
      have hHere : (s.setFocused page (some w)).focused page = some w := Function.update_self ..
      exact Option.some.inj (hHere.symm.trans hFocused) ▸ hLeaf
    · intro hNone
      have hHere : (s.setFocused page (some w)).focused page = some w := Function.update_self ..
      exact nomatch hHere.symm.trans hNone
    · intro other _ hNe
      exact Function.update_of_ne hNe _ _
    · intro leaf other hBridge
      by_cases hOther : other = page
      · exact Or.inl ⟨hOther, hOther ▸ (h.bridged leaf other hBridge).2⟩
      · exact Or.inr ⟨hOther, hBridge⟩
  rw [hSame] at hShows
  exact ⟨hShows, rfl⟩

theorem dropPage_shows (h : s.Shows trees) (hPage : page ∈ s.pages) : (s.dropPage page).Shows trees := by
  have hCollect := h.collect hPage
  have hMem : ∀ other ∈ s.pages.filter (· ≠ page), other ∈ s.pages ∧ other ≠ page := by
    intro other hOther
    obtain ⟨hIn, hNe⟩ := List.mem_filter.mp hOther
    exact ⟨hIn, of_decide_eq_true hNe⟩
  refine ⟨⟨?_, ?_, ?_, ?_⟩, ?_, ?_, ?_⟩
  · exact fun other hOther => h.holds other (hMem other hOther).1
  · exact fun other hOther => h.nodup other (hMem other hOther).1
  · exact fun first hFirst second hSecond => h.apart first (hMem first hFirst).1 second (hMem second hSecond).1
  · exact fun other hOther => h.named other (hMem other hOther).1
  · exact fun other hOther => h.focused other (hMem other hOther).1
  · exact fun other hOther => h.unfocused other (hMem other hOther).1
  · intro leaf other hBridge
    dsimp only [dropPage] at hBridge ⊢
    rw [hCollect] at hBridge
    split at hBridge
    · cases hBridge
    · rename_i hKept
      obtain ⟨hOther, hIn⟩ := h.bridged leaf other hBridge
      refine ⟨List.mem_filter.mpr ⟨hOther, decide_eq_true ?_⟩, hIn⟩
      rintro rfl
      exact hKept hIn

theorem newPage_shows (h : s.Shows trees) (started : Bool) :
    (s.newPage started).Shows (Function.update trees s.next (.leaf (s.next + 1))) ∧
      (s.newPage started).pages = s.pages ++ [s.next] ∧ (s.newPage started).focused s.next = some (s.next + 1) := by
  have hNe : s.next + 1 ≠ s.next := Nat.succ_ne_self _
  have hHeap : (s.newPage started).heap =
      ((s.heap.alloc s.next (.holder none)).alloc (s.next + 1) .item).setChild s.next (some (s.next + 1)) := by
    cases started <;> rfl
  have hNext : (s.newPage started).next = s.next + 1 + 1 := by
    cases started <;> rfl
  have hPages : (s.newPage started).pages = s.pages ++ [s.next] := by
    cases started <;> rfl
  have hFocus : (s.newPage started).focused =
      Function.update (Function.update (Function.update s.focused s.next none) (s.next + 1) none) s.next
        (some (s.next + 1)) := by
    cases started <;> rfl
  have hClosing : (s.newPage started).closing = s.closing := by
    cases started <;> rfl
  have hBridge : ∀ leaf page, (s.newPage started).bridge leaf = some page →
      leaf = s.next + 1 ∧ page = s.next ∨ s.bridge leaf = some page := by
    intro leaf page hLeaf
    have hField : (s.newPage started).bridge =
        Function.update (Function.update s.bridge s.next none) (s.next + 1)
          (if started then some s.next else none) := by
      cases started with
      | true => exact Function.update_idem ..
      | false => rfl
    rw [hField] at hLeaf
    by_cases hNew : leaf = s.next + 1
    · rw [hNew, Function.update_self] at hLeaf
      split at hLeaf
      · exact Or.inl ⟨hNew, (Option.some.inj hLeaf).symm⟩
      · cases hLeaf
    · rw [Function.update_of_ne hNew] at hLeaf
      by_cases hPage : leaf = s.next
      · rw [hPage, Function.update_self] at hLeaf
        cases hLeaf
      · rw [Function.update_of_ne hPage] at hLeaf
        exact Or.inr hLeaf
  have hShaped := (h.toShaped.alloc (.holder none)).alloc .item
  have hHolder : ((s.heap.alloc s.next (.holder none)).alloc (s.next + 1) .item).cell s.next = .holder none :=
    (Function.update_of_ne hNe.symm _ _).trans (Function.update_self ..)
  have hFree : ((s.heap.alloc s.next (.holder none)).alloc (s.next + 1) .item).parent (s.next + 1) = none :=
    Function.update_self ..
  have hSwapped := Heap.swapped_setChild hHolder (Option.some_ne_none (s.next + 1)) fun x hx =>
    Option.some.inj hx ▸ hFree
  have hOld : ∀ other ∈ s.pages, ∀ x ∈ own trees other, x < s.next := fun other hOther => h.named other hOther
  have hOldPage : ∀ other ∈ s.pages, other ≠ s.next ∧ other ≠ s.next + 1 := by
    intro other hOther
    have := hOld other hOther other List.mem_cons_self
    omega
  have hHere : (s.newPage started).focused s.next = some (s.next + 1) := by
    rw [hFocus, Function.update_self]
  have hThere : ∀ other ∈ s.pages, (s.newPage started).focused other = s.focused other := by
    intro other hOther
    rw [hFocus, Function.update_of_ne (hOldPage other hOther).1, Function.update_of_ne (hOldPage other hOther).2,
      Function.update_of_ne (hOldPage other hOther).1]
  refine ⟨⟨?_, ?_, ?_, ?_⟩, hPages, hHere⟩
  · rw [hHeap, hNext, hPages]
    refine hShaped.add ?_ ?_ ?_ ?_ ?_
    · refine ⟨hSwapped.cell_target, hSwapped.parent_child _ rfl, ?_⟩
      exact (hSwapped.cell_other _ hNe).trans (Function.update_self ..)
    · exact List.nodup_cons.mpr ⟨fun hIn => hNe (List.mem_singleton.mp hIn).symm, List.nodup_singleton _⟩
    · intro x hx
      rcases List.mem_cons.mp hx with hNew | hLeaf
      · omega
      · have := List.mem_singleton.mp hLeaf
        omega
    · intro other hOther x hx hIn
      have hLess := hOld other hOther x hIn
      rcases List.mem_cons.mp hx with hNew | hLeaf
      · omega
      · have := List.mem_singleton.mp hLeaf
        omega
    · intro x hx
      refine hSwapped.keeps List.mem_cons_self (fun y hy => nomatch hy) ?_ x hx
      rintro y ⟨⟩
      exact List.mem_cons_of_mem _ (List.mem_singleton_self _)
  · intro other hOther terminal hFocused
    rw [hPages] at hOther
    rcases List.mem_append.mp hOther with hOther | hOther
    · rw [hThere other hOther] at hFocused
      rw [Function.update_of_ne (hOldPage other hOther).1]
      exact h.focused other hOther terminal hFocused
    · rw [List.mem_singleton.mp hOther] at hFocused ⊢
      rw [Function.update_self, ← Option.some.inj (hHere.symm.trans hFocused)]
      exact List.mem_singleton_self _
  · intro other hOther hNone
    rw [hPages] at hOther
    rw [hClosing]
    rcases List.mem_append.mp hOther with hOther | hOther
    · rw [hThere other hOther] at hNone
      exact h.unfocused other hOther hNone
    · rw [List.mem_singleton.mp hOther, hHere] at hNone
      cases hNone
  · intro leaf page hLeaf
    rw [hPages]
    rcases hBridge leaf page hLeaf with ⟨rfl, rfl⟩ | hBefore
    · rw [Function.update_self]
      exact ⟨List.mem_append_right _ (List.mem_singleton_self _), List.mem_singleton_self _⟩
    · obtain ⟨hPage, hIn⟩ := h.bridged leaf page hBefore
      rw [Function.update_of_ne (hOldPage page hPage).1]
      exact ⟨List.mem_append_left _ hPage, hIn⟩

end Others

/-- Events on a page that is gone, or on a terminal of none, do nothing. -/
def step (s : Desktop) : PaneEvent → Desktop
  | .newPage started => s.newPage started
  | .split page o started => if page ∈ s.pages then s.split page o started else s
  | .closePane page => if page ∈ s.pages then s.closePane page else s
  | .exited leaf => s.deathIdle leaf
  | .openInNewTab page => if page ∈ s.pages then s.openInNewTab page else s
  | .toggleZoom page => if page ∈ s.pages then s.toggleZoom page else s
  | .focusEnter leaf =>
    if leaf ∈ s.pages.flatMap (fun page => collectTerminals s.heap s.next (binChild s.heap page)) then s.focusEnter leaf
    else s
  | .dropPage page => if page ∈ s.pages then s.dropPage page else s

end Desktop

/-- The page whose tree an event changes. -/
def PaneEvent.subject (s : Desktop) : PaneEvent → Option Nat
  | .split page _ _ => if s.focused page = none then none else some page
  | .closePane page => if s.focused page = none then none else some page
  | .exited leaf => s.bridge leaf
  | .openInNewTab page => if s.focused page = none ∨ s.paneCount page < 2 then none else some page
  | _ => none

/-- What an event does to the tree of its page, and to the list of pages. -/
def Changed (s s' : Desktop) (trees trees' : Nat → PageTree) : PaneEvent → Prop
  | .newPage _ => ∃ page leaf, page ∉ s.pages ∧ s'.pages = s.pages ++ [page] ∧ trees' page = .leaf leaf ∧
      s'.focused page = some leaf
  | .split page o _ => s'.pages = s.pages ∧ ∀ w, page ∈ s.pages → s.focused page = some w →
      ∃ new, s.next ≤ new ∧ Grown (trees page) (trees' page) w new o ∧ s'.focused page = some new
  | .closePane page => s'.pages = s.pages ∧ ∀ w, page ∈ s.pages → s.focused page = some w →
      s'.Removed (trees page) (trees' page) page w
  | .exited leaf => s'.pages = s.pages ∧ ∀ page, s.bridge leaf = some page →
      s'.Removed (trees page) (trees' page) page leaf
  | .openInNewTab page => ∀ w, page ∈ s.pages → s.focused page = some w → 2 ≤ (trees page).leaves.length →
      Shrunk (trees page) (trees' page) w ∧ ∃ new, new ∉ s.pages ∧ s'.pages = s.pages ++ [new] ∧
        trees' new = .leaf w ∧ s'.focused new = some w
  | .toggleZoom _ => s'.pages = s.pages
  | .focusEnter _ => s'.pages = s.pages
  | .dropPage page => s'.pages = s.pages.filter (· ≠ page)

namespace Desktop

variable {s : Desktop} {trees : Nat → PageTree}

/-- What an event leaves: trees of the pages again, of which only that of its page may have changed. -/
def Stepped (s s' : Desktop) (trees : Nat → PageTree) (e : PaneEvent) : Prop :=
  ∃ trees', s'.Shows trees' ∧ Changed s s' trees trees' e ∧
    ∀ page ∈ s.pages, e.subject s ≠ some page → trees' page = trees page

theorem update_kept {page : Nat} {tree : PageTree} {other : Nat} (hNe : some page ≠ some other) :
    Function.update trees page tree other = trees other :=
  Function.update_of_ne (fun hSame => hNe (congrArg some hSame.symm)) _ _

theorem step_split (h : s.Shows trees) (page : Nat) (o : GtkOrientation) (started : Bool) :
    Stepped s (s.step (.split page o started)) trees (.split page o started) := by
  have hIdle (hNone : ∀ w, page ∈ s.pages → s.focused page ≠ some w) : Stepped s s trees (.split page o started) :=
    ⟨trees, h, ⟨rfl, fun w hPage hFocused => absurd hFocused (hNone w hPage)⟩, fun _ _ _ => rfl⟩
  rw [step]
  split
  · rename_i hPage
    cases hFocused : s.focused page with
    | none =>
      have hSame : s.split page o started = s := by
        rw [split, hFocused]
      rw [hSame]
      refine hIdle fun w _ => ?_
      rw [hFocused]
      exact (Option.some_ne_none w).symm
    | some w =>
      obtain ⟨tree, hShows, hGrown, hNew, -⟩ := split_shows page o started h hPage hFocused
      have hPages := (split_fields page o started hFocused).2.2.1
      refine ⟨_, hShows, ⟨hPages, ?_⟩, ?_⟩
      · intro w' _ hFocused'
        obtain rfl := Option.some.inj (hFocused.symm.trans hFocused')
        rw [Function.update_self]
        exact ⟨s.next, Nat.le_refl _, hGrown, hNew⟩
      · intro other _ hNe
        rw [PaneEvent.subject, hFocused, if_neg (Option.some_ne_none w)] at hNe
        exact update_kept hNe
  · rename_i hGone
    exact hIdle fun w hPage => absurd hPage hGone

theorem step_closePane (h : s.Shows trees) (page : Nat) :
    Stepped s (s.step (.closePane page)) trees (.closePane page) := by
  have hIdle (hNone : ∀ w, page ∈ s.pages → s.focused page ≠ some w) : Stepped s s trees (.closePane page) :=
    ⟨trees, h, ⟨rfl, fun w hPage hFocused => absurd hFocused (hNone w hPage)⟩, fun _ _ _ => rfl⟩
  rw [step]
  split
  · rename_i hPage
    cases hFocused : s.focused page with
    | none =>
      have hSame : s.closePane page = s := by
        rw [closePane, hFocused]
      rw [hSame]
      refine hIdle fun w _ => ?_
      rw [hFocused]
      exact (Option.some_ne_none w).symm
    | some w =>
      have hRemove : s.closePane page = s.removeTerminal page w := by
        rw [closePane, hFocused]
      rw [hRemove]
      obtain ⟨tree, hShows, hPages, hRemoved, -⟩ := removeTerminal_shows h hPage (h.focused page hPage w hFocused)
      refine ⟨_, hShows, ⟨hPages, ?_⟩, ?_⟩
      · intro w' _ hFocused'
        obtain rfl := Option.some.inj (hFocused.symm.trans hFocused')
        rw [Function.update_self]
        exact hRemoved
      · intro other _ hNe
        rw [PaneEvent.subject, hFocused, if_neg (Option.some_ne_none w)] at hNe
        exact update_kept hNe
  · rename_i hGone
    exact hIdle fun w hPage => absurd hPage hGone

theorem step_exited (h : s.Shows trees) (leaf : Nat) : Stepped s (s.step (.exited leaf)) trees (.exited leaf) := by
  change Stepped s (s.deathIdle leaf) trees (.exited leaf)
  cases hBridge : s.bridge leaf with
  | none =>
    have hSame : s.deathIdle leaf = s := by
      rw [deathIdle, hBridge]
    rw [hSame]
    exact ⟨trees, h, ⟨rfl, fun page hSome => nomatch hBridge.symm.trans hSome⟩, fun _ _ _ => rfl⟩
  | some page =>
    have hRemove : s.deathIdle leaf = s.removeTerminal page leaf := by
      rw [deathIdle, hBridge]
    rw [hRemove]
    obtain ⟨hPage, hLeaf⟩ := h.bridged leaf page hBridge
    obtain ⟨tree, hShows, hPages, hRemoved, -⟩ := removeTerminal_shows h hPage hLeaf
    refine ⟨_, hShows, ⟨hPages, ?_⟩, ?_⟩
    · intro page' hBridge'
      obtain rfl := Option.some.inj (hBridge.symm.trans hBridge')
      rw [Function.update_self]
      exact hRemoved
    · intro other _ hNe
      rw [PaneEvent.subject, hBridge] at hNe
      exact update_kept hNe

theorem step_openInNewTab (h : s.Shows trees) (page : Nat) :
    Stepped s (s.step (.openInNewTab page)) trees (.openInNewTab page) := by
  have hIdle (hNone : ∀ w, page ∈ s.pages → s.focused page = some w → ¬2 ≤ (trees page).leaves.length) :
      Stepped s s trees (.openInNewTab page) :=
    ⟨trees, h, fun w hPage hFocused hPanes => absurd hPanes (hNone w hPage hFocused), fun _ _ _ => rfl⟩
  rw [step]
  split
  · rename_i hPage
    have hCount : s.paneCount page = (trees page).leaves.length := congrArg List.length (h.collect hPage)
    by_cases hFew : s.paneCount page < 2
    · have hSame : s.openInNewTab page = s := if_pos hFew
      rw [hSame]
      refine hIdle fun w _ _ => ?_
      rw [← hCount]
      exact Nat.not_le.mpr hFew
    · cases hFocused : s.focused page with
      | none =>
        have hTake : s.takeFocusedLeaf page = (none, s) := by
          rw [takeFocusedLeaf, hFocused]
        have hSame : s.openInNewTab page = s := by
          rw [openInNewTab, if_neg hFew, hTake]
        rw [hSame]
        exact hIdle fun w _ hSome => nomatch hFocused.symm.trans hSome
      | some w =>
        obtain ⟨tree, hShows, hShrunk, hPages, hMoved, -⟩ :=
          openInNewTab_shows h hPage hFocused (hCount ▸ Nat.not_lt.mp hFew)
        have hOldPage : ∀ other ∈ s.pages, other ≠ s.next := fun other hOther =>
          Nat.ne_of_lt (h.named other hOther other List.mem_cons_self)
        refine ⟨_, hShows, ?_, ?_⟩
        · intro w' _ hFocused' _
          obtain rfl := Option.some.inj (hFocused.symm.trans hFocused')
          rw [Function.update_of_ne (hOldPage page hPage), Function.update_self]
          refine ⟨hShrunk, s.next, fun hIn => hOldPage _ hIn rfl, hPages, Function.update_self .., hMoved⟩
        · intro other hOther hNe
          rw [PaneEvent.subject, hFocused, if_neg (by simp [hFew])] at hNe
          rw [Function.update_of_ne (hOldPage other hOther)]
          exact update_kept hNe
  · rename_i hGone
    exact hIdle fun w hPage => absurd hPage hGone

theorem step_shows (h : s.Shows trees) (e : PaneEvent) : Stepped s (s.step e) trees e := by
  cases e with
  | newPage started =>
    obtain ⟨hShows, hPages, hFocused⟩ := newPage_shows h started
    have hOldPage : ∀ other ∈ s.pages, other ≠ s.next := fun other hOther =>
      Nat.ne_of_lt (h.named other hOther other List.mem_cons_self)
    refine ⟨_, hShows, ⟨s.next, s.next + 1, fun hIn => hOldPage _ hIn rfl, hPages, Function.update_self .., hFocused⟩,
      ?_⟩
    intro other hOther _
    exact Function.update_of_ne (hOldPage other hOther) _ _
  | split page o started => exact step_split h page o started
  | closePane page => exact step_closePane h page
  | exited leaf => exact step_exited h leaf
  | openInNewTab page => exact step_openInNewTab h page
  | toggleZoom page =>
    rw [step]
    split
    · exact ⟨trees, h.of_fields (s.toggleZoom_fields page), (s.toggleZoom_fields page).2.2.1, fun _ _ _ => rfl⟩
    · exact ⟨trees, h, rfl, fun _ _ _ => rfl⟩
  | focusEnter leaf =>
    rw [step]
    split
    · rename_i hLeaf
      obtain ⟨page, hPage, hIn⟩ := List.mem_flatMap.mp hLeaf
      rw [h.collect hPage] at hIn
      obtain ⟨hShows, hPages⟩ := focusEnter_shows h hPage hIn
      exact ⟨trees, hShows, hPages, fun _ _ _ => rfl⟩
    · exact ⟨trees, h, rfl, fun _ _ _ => rfl⟩
  | dropPage page =>
    rw [step]
    split
    · rename_i hPage
      exact ⟨trees, dropPage_shows h hPage, rfl, fun _ _ _ => rfl⟩
    · rename_i hGone
      refine ⟨trees, h, ?_, fun _ _ _ => rfl⟩
      refine (List.filter_eq_self.mpr ?_).symm
      intro other hOther
      refine decide_eq_true ?_
      rintro rfl
      exact hGone hOther

end Desktop

/-- A run of events, with the trees after each. -/
inductive Evolves : Desktop → (Nat → PageTree) → List PaneEvent → Desktop → (Nat → PageTree) → Prop where
  | nil (s : Desktop) (trees : Nat → PageTree) : Evolves s trees [] s trees
  | cons {s s' : Desktop} {trees mid trees' : Nat → PageTree} {e : PaneEvent} {events : List PaneEvent}
      (changed : Changed s (s.step e) trees mid e)
      (kept : ∀ page ∈ s.pages, e.subject s ≠ some page → mid page = trees page)
      (shows_ : (s.step e).Shows mid) (rest : Evolves (s.step e) mid events s' trees') :
      Evolves s trees (e :: events) s' trees'

theorem Desktop.Shows.leaves_nodup {s : Desktop} {trees : Nat → PageTree} (h : s.Shows trees) {page : Nat}
    (hPage : page ∈ s.pages) : (trees page).leaves.Nodup :=
  (List.nodup_cons.mp (h.nodup page hPage)).2.sublist (leaves_sublist_ids _)

theorem Desktop.Shows.leaves_disjoint {s : Desktop} {trees : Nat → PageTree} (h : s.Shows trees) {page other : Nat}
    (hPage : page ∈ s.pages) (hOther : other ∈ s.pages) (hNe : page ≠ other) :
    (trees page).leaves.Disjoint (trees other).leaves := fun x hx hIn =>
  h.apart page hPage other hOther hNe x (List.mem_cons_of_mem _ (mem_ids_of_mem_leaves hx))
    (List.mem_cons_of_mem _ (mem_ids_of_mem_leaves hIn))

theorem evolves_run {s : Desktop} {trees : Nat → PageTree} (h : s.Shows trees) (events : List PaneEvent) :
    ∃ trees', (events.foldl Desktop.step s).Shows trees' ∧
    Evolves s trees events (events.foldl Desktop.step s) trees' := by
  induction events generalizing s trees with
  | nil => exact ⟨trees, h, .nil s trees⟩
  | cons e events ih =>
    obtain ⟨mid, hShows, hChanged, hKept⟩ := Desktop.step_shows h e
    obtain ⟨trees', hLast, hRest⟩ := ih hShows
    exact ⟨trees', hLast, .cons hChanged hKept hShows hRest⟩

/-- The invariant of the split trees: in every run each page has its full tree of widgets, in which each event
changes just what it says, no leaf is in two pages, and a page's focused terminal is one of its leaves, or none
once its last pane is gone. -/
theorem split_tree_invariant {s : Desktop} {trees : Nat → PageTree} (h : s.Shows trees) (events : List PaneEvent) :
    ∃ trees', (events.foldl Desktop.step s).Shows trees' ∧ Evolves s trees events (events.foldl Desktop.step s) trees' ∧
      ∀ page ∈ (events.foldl Desktop.step s).pages, (trees' page).leaves.Nodup ∧
        ∀ other ∈ (events.foldl Desktop.step s).pages, page ≠ other →
          (trees' page).leaves.Disjoint (trees' other).leaves := by
  obtain ⟨trees', hShows, hEvolves⟩ := evolves_run h events
  refine ⟨trees', hShows, hEvolves, ?_⟩
  intro page hPage
  exact ⟨hShows.leaves_nodup hPage, fun other hOther hNe => hShows.leaves_disjoint hPage hOther hNe⟩

def Desktop.start : Desktop where
  heap := ⟨fun _ => none, fun _ => .item⟩
  visible _ := true
  next := 0
  pages := []
  focused _ := none
  zoomedLeaf _ := none
  bridge _ := none
  closing := []

theorem Desktop.start_shows : Desktop.start.Shows fun page => .leaf page where
  holds _ hPage := absurd hPage List.not_mem_nil
  nodup _ hPage := absurd hPage List.not_mem_nil
  apart _ hPage := absurd hPage List.not_mem_nil
  named _ hPage := absurd hPage List.not_mem_nil
  focused _ hPage := absurd hPage List.not_mem_nil
  unfocused _ hPage := absurd hPage List.not_mem_nil
  bridged _ _ hBridge := nomatch hBridge

/-- A page split twice, once without a session, whose last new pane then moves to a page of its own. -/
def movedOut : List PaneEvent :=
  [.newPage true, .split 0 .horizontal false, .split 0 .vertical true, .openInNewTab 0]

theorem split_tree_invariant_moved : ∃ trees', (movedOut.foldl Desktop.step Desktop.start).Shows trees' ∧
    (movedOut.foldl Desktop.step Desktop.start).pages = [0, 6] ∧ (trees' 0).leaves.Disjoint (trees' 6).leaves := by
  obtain ⟨trees', hShows, _, hApart⟩ := split_tree_invariant Desktop.start_shows movedOut
  have hPages : (movedOut.foldl Desktop.step Desktop.start).pages = [0, 6] := by decide +kernel
  exact ⟨trees', hShows, hPages, (hApart 0 (hPages ▸ by decide)).2 6 (hPages ▸ by decide) (by decide)⟩

end Epimone.Client
