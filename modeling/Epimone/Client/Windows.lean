import Epimone.Client.Listing
import Epimone.Client.Pages

/-! # Windows and what they kill

The tabs of all windows over the daemon, from the splits and moves of panes to
the syncs. "Kill in this window" goes by the groups of the tabs and by the
members that the daemon has for them; a tab shows sessions by its panes.
-/
set_option autoImplicit false

namespace Epimone.Client

open Daemon Transition

structure Tab where
  window : Nat
  page : EpimonePage
  deriving DecidableEq, Repr

/-- The windows of the application by their tabs, and the daemon they talk to. -/
structure Desk where
  tabs : List Tab
  srv : Server
  nextTerminal : Nat

/-- The group ids of the tabs of a window. -/
def dupAttachedGroupIds (tabs : List Tab) (window : Nat) : List UInt64 :=
  ((tabs.filter fun t => t.window = window).map fun t => t.page.groupId).filter (· ≠ 0)

/-- The sessions for which overview_kill_window_execute sends KILL, in this order. -/
def overviewKillWindowExecute (myIds : List UInt64) (groupList : Exchange) : List Nat :=
  let mine := myIds.map fun gid => lowWord gid.toNat
  match epimoneClientListGroups groupList with
  | .error _ => []
  | .ok (_, infos) =>
    infos.flatMap fun info => if mine.contains (lowWord info.id) then info.members else []

def ShownIn (tabs : List Tab) (window : Nat) (sid : UInt64) : Prop :=
  ∃ t ∈ tabs, t.window = window ∧ sid ∈ t.page.sids

/-- Kill in this window kills only what the window shows. -/
def Desk.SparesOthers (d : Desk) (window : Nat) : Prop :=
  ∀ x : Exchange, x.AnsweredBy d.srv →
    ∀ sid ∈ overviewKillWindowExecute (dupAttachedGroupIds d.tabs window) x,
      ∃ shown, ShownIn d.tabs window shown ∧ shown.toNat = sid

/-- What happens to the tabs: the user's actions, the end of a pane's session, the syncs, and the daemon
going on. A tab is given by its place in the list. -/
inductive Move where
  | daemon (a : Act)
  | newTab (window : Nat) (started : Option SessPtr)
  | split (tab : Nat) (started : Option SessPtr)
  | focus (tab terminal : Nat)
  | toggleZoom (tab : Nat)
  | closePane (tab : Nat)
  | death (tab terminal : Nat)
  | openInNewTab (tab : Nat)
  | closeTab (tab : Nat)
  | moveTab (tab window position : Nat)
  | sync (tab : Nat) (ans : SyncAnswers)

namespace Desk

variable (d : Desk)

/-- The application as it starts, with the daemon it finds. -/
def opened (srv : Server) : Desk := ⟨[], srv, 0⟩

def panes : List Pane := d.tabs.flatMap fun t => t.page.root.panes

/-- A leaf for a brand-new session, or for none where it could not be started. -/
def newPane (started : Option SessPtr) : Pane :=
  ⟨d.nextTerminal, (started.map fun s => .ofNat (d.srv.sess s).id).getD 0⟩

def setPage (i : Nat) (t : Tab) (page : EpimonePage) : Desk :=
  { d with tabs := d.tabs.set i { t with page := page } }

def settle (i : Nat) (t : Tab) : Option EpimonePage → Desk
  | some page => d.setPage i t page
  | none => { d with tabs := d.tabs.eraseIdx i }

def openInNewTab (i : Nat) (t : Tab) : Desk :=
  match t.page.takeFocusedLeaf with
  | none => d
  | some (pane, page) =>
    { d with
      tabs := (d.tabs.set i { t with page := page }).insertIdx (i + 1) ⟨t.window, .around pane⟩ }

def withTab (i : Nat) (f : Tab → Desk) : Desk :=
  match d.tabs[i]? with
  | none => d
  | some t => f t

end Desk

def Move.perform (d : Desk) : Move → Desk
  | .daemon a => { d with srv := a.perform d.srv }
  | .newTab window started =>
    { d with
      tabs := d.tabs ++ [⟨window, .around (d.newPane started)⟩]
      nextTerminal := d.nextTerminal + 1 }
  | .split i started => d.withTab i fun t =>
    { d.setPage i t (t.page.split (d.newPane started)) with nextTerminal := d.nextTerminal + 1 }
  | .focus i terminal => d.withTab i fun t => d.setPage i t { t.page with focused := some terminal }
  | .toggleZoom i => d.withTab i fun t => d.setPage i t t.page.toggleZoom
  | .closePane i => d.withTab i fun t => d.settle i t t.page.closePane
  | .death i terminal => d.withTab i fun t => d.settle i t (t.page.removeTerminal terminal)
  | .openInNewTab i => d.withTab i (d.openInNewTab i)
  | .closeTab i => d.withTab i fun _ => { d with tabs := d.tabs.eraseIdx i }
  | .moveTab i window position => d.withTab i fun t =>
    { d with tabs := (d.tabs.eraseIdx i).insertIdx position { t with window := window } }
  | .sync i ans => d.withTab i fun t =>
    let (srv, page) := syncPageGroup ans d.srv t.page
    { d.setPage i t page with srv := srv }

/-- The session is a new one, without a pane. -/
def Desk.Fresh (d : Desk) : Option SessPtr → Prop
  | none => True
  | some s => s ∈ d.srv.sessions ∧ ∀ pane ∈ d.panes, pane.sid ≠ .ofNat (d.srv.sess s).id

instance (d : Desk) : (started : Option SessPtr) → Decidable (d.Fresh started)
  | none => inferInstanceAs (Decidable True)
  | some s => inferInstanceAs (Decidable
    (s ∈ d.srv.sessions ∧ ∀ pane ∈ d.panes, pane.sid ≠ .ofNat (d.srv.sess s).id))

/-- The daemon acts by its own rules and enrolls no session but for a sync. -/
def Move.guard (d : Desk) : Move → Prop
  | .daemon a => a.guard d.srv ∧ ∀ s gid, a ≠ .move s gid
  | .newTab _ started | .split _ started => d.Fresh started
  | .focus i terminal =>
    ∀ t, d.tabs[i]? = some t → ∃ pane ∈ t.page.root.panes, pane.terminal = terminal
  | .moveTab _ _ position => position < d.tabs.length
  | _ => True

def moves : Actions Desk Move := ⟨Move.perform, Move.guard⟩

/-- The key by which "Kill in this window" knows the group of a tab. -/
def Tab.key (t : Tab) : Nat := lowWord t.page.groupId.toNat

/-- The sessions that the daemon has in groups with this key. -/
def enrolledUnder (srv : Server) (key : Nat) : List UInt64 :=
  ((listed srv).filter fun s => (srv.sess s).groupId ≠ 0 ∧ lowWord (srv.sess s).groupId = key).map
    fun s => .ofNat (srv.sess s).id

/-- None of the sessions is in a group that one of the tabs carries. -/
def Apart (srv : Server) (gone : List UInt64) (tabs : List Tab) : Prop :=
  ∀ t ∈ tabs, t.page.groupId ≠ 0 → ∀ sid ∈ enrolledUnder srv t.key, sid ∉ gone

def neighbours (tabs : List Tab) (window : Nat) : List Tab := tabs.filter fun t => t.window = window

/-- Two tabs do not carry the same key. -/
def Tab.Unlike (t u : Tab) : Prop := t.page.groupId ≠ 0 → u.page.groupId ≠ 0 → t.key ≠ u.key

/-- Whom the daemon has in the group of a tab, the window of the tab shows. -/
structure Kept (tabs : List Tab) (srv : Server) : Prop where
  shown : ∀ t ∈ tabs, t.page.groupId ≠ 0 → ∀ sid ∈ enrolledUnder srv t.key, ShownIn tabs t.window sid
  unlike : tabs.Pairwise Tab.Unlike

theorem ShownIn.mono {tabs tabs' : List Tab} {window : Nat} {sid : UInt64} (h : ShownIn tabs window sid)
    (hSub : tabs ⊆ tabs') : ShownIn tabs' window sid := by
  obtain ⟨t, ht, hWindow, hSid⟩ := h
  exact ⟨t, hSub ht, hWindow, hSid⟩

theorem shownIn_cons {t : Tab} {tabs : List Tab} {window : Nat} {sid : UInt64} :
    ShownIn (t :: tabs) window sid ↔ t.window = window ∧ sid ∈ t.page.sids ∨ ShownIn tabs window sid := by
  simp [ShownIn]

theorem mem_neighbours {tabs : List Tab} {window : Nat} {t : Tab} :
    t ∈ neighbours tabs window ↔ t ∈ tabs ∧ t.window = window := by
  simp [neighbours]

namespace Kept

variable {srv : Server} {tabs : List Tab} {t u : Tab}

theorem perm {tabs' : List Tab} (h : Kept tabs srv) (hPerm : tabs.Perm tabs') : Kept tabs' srv := by
  constructor
  · intro t ht hGroup sid hSid
    exact (h.shown t (hPerm.mem_iff.mpr ht) hGroup sid hSid).mono hPerm.subset
  · refine (hPerm.pairwise_iff ?_).mp h.unlike
    intro t u hUnlike hu ht hKey
    exact hUnlike ht hu hKey.symm

theorem tail (h : Kept (t :: tabs) srv)
    (hApart : Apart srv t.page.sids (neighbours tabs t.window)) : Kept tabs srv := by
  refine ⟨?_, (List.pairwise_cons.mp h.unlike).2⟩
  intro u hu hGroup sid hSid
  rcases shownIn_cons.mp (h.shown u (List.mem_cons_of_mem t hu) hGroup sid hSid) with ⟨hWindow, hHere⟩ | hOther
  · exact absurd hHere (hApart u (mem_neighbours.mpr ⟨hu, hWindow.symm⟩) hGroup sid hSid)
  · exact hOther

theorem cons (h : Kept tabs srv) (hNone : t.page.groupId = 0) : Kept (t :: tabs) srv := by
  constructor
  · intro u hu hGroup sid hSid
    rcases List.mem_cons.mp hu with rfl | hu
    · exact absurd hNone hGroup
    · exact (h.shown u hu hGroup sid hSid).mono (List.subset_cons_self t tabs)
  · refine List.pairwise_cons.mpr ⟨?_, h.unlike⟩
    intro u _ hGroup
    exact absurd hNone hGroup

/-- A page may lose a session that another tab of the window shows, or that is in none of its groups. -/
theorem repage {page : EpimonePage} (h : Kept (t :: tabs) srv)
    (hGroup : page.groupId = 0 ∨ page.groupId = t.page.groupId)
    (hLost : ∀ sid ∈ t.page.sids, sid ∈ page.sids ∨ ShownIn tabs t.window sid ∨
      Apart srv [sid] (t :: neighbours tabs t.window)) :
    Kept ({ t with page := page } :: tabs) srv := by
  have hKey : page.groupId ≠ 0 → page.groupId = t.page.groupId := fun hSome => hGroup.resolve_left hSome
  have hKeep : ∀ u ∈ t :: tabs, u.page.groupId ≠ 0 → ∀ sid ∈ enrolledUnder srv u.key,
      ShownIn ({ t with page := page } :: tabs) u.window sid := by
    intro u hu hSome sid hSid
    rcases shownIn_cons.mp (h.shown u hu hSome sid hSid) with ⟨hWindow, hHere⟩ | hOther
    · rw [← hWindow]
      rcases hLost sid hHere with hStays | hElse | hApart
      · exact shownIn_cons.mpr (Or.inl ⟨rfl, hStays⟩)
      · exact shownIn_cons.mpr (Or.inr hElse)
      · refine absurd (List.mem_singleton_self sid) (hApart u ?_ hSome sid hSid)
        rcases List.mem_cons.mp hu with rfl | hu
        · exact List.mem_cons_self
        · exact List.mem_cons_of_mem t (mem_neighbours.mpr ⟨hu, hWindow.symm⟩)
    · exact shownIn_cons.mpr (Or.inr hOther)
  obtain ⟨hHead, hTail⟩ := List.pairwise_cons.mp h.unlike
  constructor
  · intro u hu hSome sid hSid
    rcases List.mem_cons.mp hu with rfl | hu
    · have hSame := hKey hSome
      refine hKeep t List.mem_cons_self (hSame ▸ hSome) sid ?_
      rw [Tab.key, ← hSame]
      exact hSid
    · exact hKeep u (List.mem_cons_of_mem t hu) hSome sid hSid
  · refine List.pairwise_cons.mpr ⟨?_, hTail⟩
    intro u hu hSome hOther
    have hSame := hKey hSome
    have hNe := hHead u hu (hSame ▸ hSome) hOther
    rw [Tab.key, ← hSame] at hNe
    exact hNe

theorem rewindow {window : Nat} (h : Kept (t :: tabs) srv)
    (hStay : Apart srv t.page.sids (neighbours tabs t.window))
    (hGo : Apart srv ((neighbours tabs t.window).flatMap fun u => u.page.sids) [t]) :
    Kept ({ t with window := window } :: tabs) srv := by
  constructor
  · intro u hu hSome sid hSid
    rcases List.mem_cons.mp hu with rfl | hu
    · rcases shownIn_cons.mp (h.shown t List.mem_cons_self hSome sid hSid) with ⟨_, hHere⟩ | hOther
      · exact shownIn_cons.mpr (Or.inl ⟨rfl, hHere⟩)
      · obtain ⟨u, hu, hWindow, hShown⟩ := hOther
        refine absurd ?_ (hGo t (List.mem_singleton_self t) hSome sid hSid)
        exact List.mem_flatMap.mpr ⟨u, mem_neighbours.mpr ⟨hu, hWindow⟩, hShown⟩
    · exact ((h.tail hStay).shown u hu hSome sid hSid).mono (List.subset_cons_self _ tabs)
  · obtain ⟨hHead, hTail⟩ := List.pairwise_cons.mp h.unlike
    refine List.pairwise_cons.mpr ⟨?_, hTail⟩
    intro u hu
    exact hHead u hu

/-- A tab may take a group that nobody is in and no other tab carries. -/
theorem regroup {page : EpimonePage} (h : Kept (t :: tabs) srv)
    (hSids : page.sids = t.page.sids) (hEmpty : enrolledUnder srv (lowWord page.groupId.toNat) = [])
    (hOther : ∀ u ∈ tabs, u.page.groupId ≠ 0 → lowWord page.groupId.toNat ≠ u.key) :
    Kept ({ t with page := page } :: tabs) srv := by
  constructor
  · intro u hu hSome sid hSid
    rcases List.mem_cons.mp hu with rfl | hu
    · have hIn : sid ∈ enrolledUnder srv (lowWord page.groupId.toNat) := hSid
      rw [hEmpty] at hIn
      cases hIn
    · rcases shownIn_cons.mp (h.shown u (List.mem_cons_of_mem t hu) hSome sid hSid) with hHere | hElse
      · rw [← hSids] at hHere
        exact shownIn_cons.mpr (Or.inl hHere)
      · exact shownIn_cons.mpr (Or.inr hElse)
  · refine List.pairwise_cons.mpr ⟨?_, (List.pairwise_cons.mp h.unlike).2⟩
    intro u hu _ hSome
    exact hOther u hu hSome

theorem shrink {srv' : Server} (h : Kept tabs srv) (hSub : ∀ key, enrolledUnder srv' key ⊆ enrolledUnder srv key) :
    Kept tabs srv' :=
  ⟨fun t ht hSome sid hSid => h.shown t ht hSome sid (hSub t.key hSid), h.unlike⟩

theorem join {srv' : Server} {sid : UInt64} (h : Kept (t :: tabs) srv) (hSome : t.page.groupId ≠ 0)
    (hShown : sid ∈ t.page.sids)
    (hSub : ∀ key, ∀ i ∈ enrolledUnder srv' key, i ∈ enrolledUnder srv key ∨ key = t.key ∧ i = sid) :
    Kept (t :: tabs) srv' := by
  refine ⟨?_, h.unlike⟩
  intro u hu hGroup i hi
  rcases hSub u.key i hi with hOld | ⟨hKey, rfl⟩
  · exact h.shown u hu hGroup i hOld
  · rcases List.mem_cons.mp hu with rfl | hu
    · exact shownIn_cons.mpr (Or.inl ⟨rfl, hShown⟩)
    · exact absurd hKey.symm ((List.pairwise_cons.mp h.unlike).1 u hu hSome hGroup)

end Kept

end Epimone.Client
