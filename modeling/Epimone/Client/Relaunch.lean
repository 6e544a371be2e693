import Epimone.Client.Restore
import Epimone.Client.Saver

/-! # The windows of the last session

restore_from_v2 opens a window for each one in the file and restores its groups
into it, tab after tab. g_restoring is set for the whole loop and again by each
call of restore_group; the tabs that are built in between report changes to the
saver, which are not to be heard before the loop is over.
-/
set_option autoImplicit false

namespace Epimone.Client

open Daemon Transition

/-- The tabs of a window and the one that is selected. -/
structure TabView where
  pages : List EpimonePage
  selected : Option Nat
  deriving DecidableEq, Repr

namespace TabView

variable (v : TabView)

def empty : TabView := ⟨[], none⟩

def findPageForSession (sid : UInt64) : Option Nat :=
  if sid = 0 then none else v.pages.findIdx? fun page => page.sids.contains sid

/-- A view that has no page selects its first one by itself. -/
def adoptPage (page : EpimonePage) : TabView := ⟨v.pages ++ [page], v.selected.or (some v.pages.length)⟩

def adoptAndSelectPage (page : EpimonePage) : TabView := ⟨v.pages ++ [page], some v.pages.length⟩

def selectPage (i : Nat) : TabView := { v with selected := some i }

def setActiveTab (index : Int) : TabView :=
  let n := v.pages.length
  if n = 0 then v
  else
    let index := if index < 0 then 0 else index.toNat
    v.selectPage (if n ≤ index then n - 1 else index)

end TabView

/-- The GUI as it starts: the windows, newest first, and the counts of the loops over the file. -/
structure Relaunch where
  saver : Saver
  windows : List TabView
  nextTerminal : Nat
  restored : Nat
  created : Nat

/-- One call of restore_group: the checks and the replies that it meets, what becomes of a blob, the sessions
that can be attached to, and what the widgets report while they are built, placed or selected. -/
structure GroupCall where
  gid : UInt64
  instanceOk : Bool
  groups : Option (List EpiGroupInfo)
  blobTree : Bytes → Option Node
  alive : Option (List Nat)
  attach : UInt64 → Bool
  selecting : List Report
  building : List Report
  pruning : List Report
  placing : List Report

/-- What a call of restore_group comes to. -/
inductive Outcome where
  | failed
  | shown (window page : Nat)
  | pruned (next : Nat)
  | built (root : Split) (next : Nat)
  deriving DecidableEq, Repr

def Outcome.succeeds : Outcome → Bool
  | .shown .. | .built .. => true
  | .failed | .pruned _ => false

def Outcome.builds : Outcome → Bool
  | .built .. => true
  | _ => false

def Saver.reports (g : Saver) (reports : List Report) : Saver := reports.foldl (fun g r => r.schedule g) g

namespace Relaunch

variable (app : Relaunch)

def findPageForMembers (members : List Nat) : Option (Nat × Nat) :=
  app.windows.zipIdx.findSome? fun (v, w) =>
    (members.findSome? fun sid => v.findPageForSession (.ofNat sid)).map fun i => (w, i)

def modWindow (w : Nat) (f : TabView → TabView) : Relaunch := { app with windows := app.windows.modify w f }

def report (reports : List Report) : Relaunch := { app with saver := app.saver.reports reports }

def setRestoring (restoring : Bool) : Relaunch := { app with saver := { app.saver with restoring := restoring } }

/-- The way that restore_group takes, as its checks and the replies decide. -/
def outcome (call : GroupCall) : Outcome :=
  if call.gid = 0 ∨ call.instanceOk = false then .failed
  else
    match call.groups.bind fun groups => groups.find? fun g => g.id = call.gid.toNat with
    | none => .failed
    | some found =>
      match app.findPageForMembers found.members with
      | some (w, i) => .shown w i
      | none =>
        if found.blob = [] then .failed
        else
          match call.blobTree found.blob, call.alive with
          | some tree, some alive =>
            let attaches := fun sid : UInt64 => decide (sid ≠ 0 ∧ lowWord sid.toNat ∈ alive) && call.attach sid
            match tree.build attaches app.nextTerminal with
            | (none, next) => .pruned next
            | (some root, next) => .built root next
          | _, _ => .failed

def restoreGroup (call : GroupCall) : Relaunch × Bool :=
  match app.outcome call with
  | .failed => (app, false)
  | .shown w i => ((app.modWindow w fun v => v.selectPage i).report call.selecting, true)
  | .pruned next =>
    let app := ({ app with nextTerminal := next }.setRestoring true).report call.building
    ((app.setRestoring false).report call.pruning, false)
  | .built root next =>
    let wasRestoring := app.saver.restoring
    let app := ({ app with nextTerminal := next }.setRestoring true).report call.building
    let page := (EpimonePage.onTree root).adopt call.gid
    let app := (app.modWindow 0 fun v => v.adoptAndSelectPage page).report call.placing
    let app := app.setRestoring wasRestoring
    (if wasRestoring then app else app.report [.save], true)

/-- The parts of a turn of the loop over the windows. -/
inductive Turn where
  | openWindow
  | group (call : GroupCall)
  | settle (active : Int) (reports : List Report)

def restoreTab (call : GroupCall) : Relaunch :=
  match app.restoreGroup call with
  | (app, true) => { app with restored := app.restored + 1 }
  | (app, false) => app

def settle (active : Int) (reports : List Report) : Relaunch :=
  if app.restored = 0 then { app with windows := app.windows.tail }.report reports
  else
    let index := if active < app.restored then active else 0
    let app := (app.modWindow 0 fun v => v.setActiveTab index).report reports
    { app with created := app.created + 1 }

def perform : Turn → Relaunch
  | .openWindow => { app with windows := .empty :: app.windows, restored := 0 }
  | .group call => app.restoreTab call
  | .settle active reports => app.settle active reports

end Relaunch

/-- A window of the file, with what its groups meet and what is reported as it is presented. -/
structure WindowCall where
  active : Int
  groups : List GroupCall
  presenting : List Report

def WindowCall.turns (w : WindowCall) : List Relaunch.Turn :=
  .openWindow :: w.groups.map .group ++ [.settle w.active w.presenting]

namespace Relaunch

variable (app : Relaunch)

def restoreWindow (w : WindowCall) : Relaunch := w.turns.foldl perform app

/-- restore_from_v2, up to the end of its loop. -/
def windowLoop (file : List WindowCall) : Relaunch :=
  file.foldl restoreWindow { app.setRestoring true with created := 0 }

def restoreFromV2 (file : List WindowCall) : Relaunch × Bool :=
  let wasRestoring := app.saver.restoring
  let app := (app.windowLoop file).setRestoring wasRestoring
  (if 0 < app.created then app.report [.save] else app, decide (0 < app.created))

/-- The loop as a machine that takes the turns one by one. -/
def looping : Machine Relaunch Turn :=
  ⟨{ app.setRestoring true with created := 0 }, fun app turn => some (app.perform turn)⟩

end Relaunch

/-! The flag of the saver. -/

namespace Saver

variable (g : Saver)

theorem reports_suppressed (h : g.restoring = true) (reports : List Report) : g.reports reports = g := by
  induction reports with
  | nil => rfl
  | cons r reports ih =>
    have hHead : r.schedule g = g := r.schedule_suppressed (Or.inl h)
    rw [Saver.reports, List.foldl_cons, hHead]
    exact ih

theorem restoring_schedule (r : Report) : (r.schedule g).restoring = g.restoring := by
  rcases em (g.Heeds) with hHeeds | hSkips
  · rw [r.schedule_eq hHeeds]
  · have hSuppressed : g.restoring = true ∨ g.frozen = true := by
      unfold Heeds at hSkips
      cases hRestoring : g.restoring <;> cases hFrozen : g.frozen <;> simp_all
    rw [r.schedule_suppressed hSuppressed]

theorem restoring_reports (reports : List Report) : (g.reports reports).restoring = g.restoring := by
  induction reports generalizing g with
  | nil => rfl
  | cons r reports ih =>
    exact (ih (r.schedule g)).trans (restoring_schedule g r)

end Saver

/-- The group is listed, it is not on screen, its layout can be read, and no leaf of it has a live session that
can be attached to. -/
structure GroupCall.Prunes (call : GroupCall) (app : Relaunch) : Prop where
  named : call.gid ≠ 0
  instanceOk : call.instanceOk = true
  dead : ∃ groups found tree alive, call.groups = some groups ∧
    groups.find? (fun g => g.id = call.gid.toNat) = some found ∧ app.findPageForMembers found.members = none ∧
    found.blob ≠ [] ∧ call.blobTree found.blob = some tree ∧ call.alive = some alive ∧
    ∀ sid ∈ tree.sids, sid ≠ 0 → lowWord sid.toNat ∈ alive → call.attach sid = false

namespace Relaunch

variable {app : Relaunch} {call : GroupCall}

theorem build_eq_none_iff (attaches : UInt64 → Bool) (tree : Node) (next : Nat) :
    (tree.build attaches next).1 = none ↔ ∀ sid ∈ tree.sids, attaches sid = false := by
  have hSids := Node.sids_build attaches tree next
  constructor
  · intro hNone
    rw [hNone] at hSids
    have hFilter : tree.sids.filter attaches = [] := hSids.symm
    intro sid hSid
    exact Bool.eq_false_iff.mpr (List.filter_eq_nil_iff.mp hFilter sid hSid)
  · intro hAll
    rw [List.filter_eq_nil_iff.mpr fun sid hSid => Bool.eq_false_iff.mp (hAll sid hSid)] at hSids
    cases hBuilt : (tree.build attaches next).1 with
    | none => rfl
    | some root =>
      rw [hBuilt] at hSids
      exact absurd (List.map_eq_nil_iff.mp hSids) (Split.panes_ne_nil root)

theorem prunes_iff : call.Prunes app ↔ ∃ next, app.outcome call = .pruned next := by
  have hBuilds : ∀ (tree : Node) (alive : List Nat),
      (tree.build (fun sid : UInt64 => decide (sid ≠ 0 ∧ lowWord sid.toNat ∈ alive) && call.attach sid)
        app.nextTerminal).1 = none ↔
      ∀ sid ∈ tree.sids, sid ≠ 0 → lowWord sid.toNat ∈ alive → call.attach sid = false := by
    intro tree alive
    rw [build_eq_none_iff]
    refine forall₂_congr fun sid _ => ?_
    simp
  unfold outcome
  constructor
  · rintro ⟨hNamed, hOk, groups, found, tree, alive, hGroups, hFind, hOff, hBlob, hTree, hAlive, hDead⟩
    have hNone := (hBuilds tree alive).mpr hDead
    rw [if_neg (by simp [hNamed, hOk]), hGroups, Option.bind_some, hFind]
    dsimp only
    rw [hOff]
    dsimp only
    rw [if_neg hBlob, hTree, hAlive]
    dsimp only
    generalize tree.build _ app.nextTerminal = built at hNone ⊢
    obtain ⟨_, next⟩ := built
    cases hNone
    exact ⟨next, rfl⟩
  · rintro ⟨next, hOutcome⟩
    split at hOutcome
    · cases hOutcome
    next hChecks =>
    simp only [not_or, Bool.not_eq_false] at hChecks
    split at hOutcome
    · cases hOutcome
    next found hFound =>
    obtain ⟨groups, hGroups, hFind⟩ := Option.bind_eq_some_iff.mp hFound
    split at hOutcome
    · cases hOutcome
    next hOff =>
    split at hOutcome
    · cases hOutcome
    next hBlob =>
    split at hOutcome
    · next tree alive hTree hAlive =>
      refine ⟨hChecks.1, hChecks.2, groups, found, tree, alive, hGroups, hFind, hOff, hBlob, hTree, hAlive, ?_⟩
      apply (hBuilds tree alive).mp
      dsimp only at hOutcome
      split at hOutcome
      · next hBuilt => rw [hBuilt]
      · cases hOutcome
    · cases hOutcome

theorem restoring_restoreGroup :
    (app.restoreGroup call).1.saver.restoring = true ↔
      app.saver.restoring = true ∧ ¬ call.Prunes app := by
  rw [prunes_iff]
  unfold restoreGroup
  cases hOutcome : app.outcome call with
  | failed => simp
  | shown w i => simp [report, modWindow, Saver.restoring_reports]
  | pruned next => simp [report, setRestoring, Saver.restoring_reports]
  | built root next =>
    cases hWas : app.saver.restoring <;> simp [report, setRestoring, modWindow, Saver.restoring_reports]

/-- A call that leaves g_restoring set leaves the whole saver as it was. -/
theorem saver_restoreGroup (hSet : app.saver.restoring = true) (hKept : ¬ call.Prunes app) :
    (app.restoreGroup call).1.saver = app.saver := by
  rw [prunes_iff, not_exists] at hKept
  unfold restoreGroup
  cases hOutcome : app.outcome call with
  | failed => rfl
  | shown w i => exact app.saver.reports_suppressed hSet call.selecting
  | pruned next => exact absurd hOutcome (hKept next)
  | built root next =>
    dsimp only
    rw [hSet, if_pos rfl]
    have hSame : app.saver = { app.saver with restoring := true } := by
      rw [← hSet]
    have hBuilding := Saver.reports_suppressed { app.saver with restoring := true } rfl call.building
    have hPlacing := Saver.reports_suppressed { app.saver with restoring := true } rfl call.placing
    simp only [report, setRestoring, modWindow, hBuilding, hPlacing]
    exact hSame.symm

/-- The turn is a group that prunes. -/
def Turn.Prunes (app : Relaunch) : Turn → Prop
  | .group call => call.Prunes app
  | _ => False

theorem restoring_perform {turn : Turn} :
    (app.perform turn).saver.restoring = true ↔ app.saver.restoring = true ∧ ¬ turn.Prunes app := by
  cases turn with
  | openWindow => simp [perform, Turn.Prunes]
  | settle active reports =>
    change (app.settle active reports).saver.restoring = true ↔ _
    unfold settle
    split <;> simp [report, modWindow, Saver.restoring_reports, Turn.Prunes]
  | group call =>
    have hCall := @restoring_restoreGroup app call
    change (app.restoreTab call).saver.restoring = true ↔ _ ∧ ¬ call.Prunes app
    unfold restoreTab
    generalize app.restoreGroup call = result at hCall
    obtain ⟨app', done⟩ := result
    cases done <;> exact hCall

theorem saver_perform {turn : Turn} (hSet : app.saver.restoring = true) (hKept : ¬ turn.Prunes app) :
    (app.perform turn).saver = app.saver := by
  cases turn with
  | openWindow => rfl
  | settle active reports =>
    change (app.settle active reports).saver = app.saver
    unfold settle
    split <;> exact app.saver.reports_suppressed hSet reports
  | group call =>
    have hCall := saver_restoreGroup hSet hKept
    change (app.restoreTab call).saver = app.saver
    unfold restoreTab
    generalize app.restoreGroup call = result at hCall
    obtain ⟨app', done⟩ := result
    cases done <;> exact hCall

/-- g_restoring is set, no sink has been marked and the timer has not been armed since. -/
structure Hushed (before app : Relaunch) : Prop where
  restoring : app.saver.restoring = true
  layoutDirty : app.saver.layoutDirty = before.saver.layoutDirty
  groupsDirty : app.saver.groupsDirty = before.saver.groupsDirty
  saveSource : app.saver.saveSource = before.saver.saveSource

theorem run_looping (turns : List Turn) (start : Relaunch) :
    start.looping.runFrom app turns = some (turns.foldl perform app) := by
  induction turns generalizing app with
  | nil => rfl
  | cons turn turns ih => exact ih

theorem windowLoop_eq (file : List WindowCall) :
    app.looping.run (file.flatMap WindowCall.turns) = some (app.windowLoop file) := by
  refine (run_looping _ app).trans (congrArg some ?_)
  rw [windowLoop, List.flatMap_def, List.foldl_flatten, List.foldl_map]
  rfl

/-- restore_group leaves g_restoring as it finds it but where it finds it set and the sessions of the group are
gone, and the loop over the file is not heard by the saver if and only if it meets no such group. -/
theorem restore_keeps_flag (app : Relaunch) :
    (∀ call, (app.restoreGroup call).1.saver.restoring = app.saver.restoring ↔
      ¬ (app.saver.restoring = true ∧ call.Prunes app)) ∧
    ∀ file : List WindowCall,
      (∀ before after t, file.flatMap WindowCall.turns = before ++ after → app.looping.run before = some t →
        Hushed app t) ↔
      ∀ before turn after t, file.flatMap WindowCall.turns = before ++ turn :: after → app.looping.run before = some t →
        ¬ turn.Prunes t := by
  constructor
  · intro call
    have hCall := @restoring_restoreGroup app call
    cases hWas : app.saver.restoring with
    | false =>
      rw [hWas] at hCall
      cases hNow : (app.restoreGroup call).1.saver.restoring with
      | false => simp
      | true => exact absurd (hCall.mp hNow).1 Bool.false_ne_true
    | true =>
      rw [hWas] at hCall
      rw [hCall]
      simp
  · intro file
    have hProp : ∀ t : Relaunch, t.saver = { app.saver with restoring := true } → Hushed app t := by
      intro t hSame
      constructor <;> rw [hSame]
    have hKeep : ∀ (t : Relaunch) (turn : Turn) (t' : Relaunch), t.saver = { app.saver with restoring := true } →
        app.looping.step t turn = some t' → ¬ turn.Prunes t → t'.saver = { app.saver with restoring := true } := by
      rintro t turn t' hSame ⟨⟩ hKept
      have hSet : t.saver.restoring = true := by rw [hSame]
      exact (saver_perform hSet hKept).trans hSame
    have hExact : ∀ (t : Relaunch) (turn : Turn) (t' : Relaunch), t.saver = { app.saver with restoring := true } →
        app.looping.step t turn = some t' → Hushed app t' → ¬ turn.Prunes t := by
      rintro t turn t' _ ⟨⟩ hHushed
      exact (restoring_perform.mp hHushed.restoring).2
    exact app.looping.always_iff hProp hKeep hExact rfl (windowLoop_eq file)

/-! A window with two groups, of which the first has lost its sessions. -/

def starting : Relaunch := ⟨.initial, [], 0, 0, 0⟩

def twoGroups : List EpiGroupInfo := [⟨1, 0, [1], [1]⟩, ⟨2, 0, [2], [2]⟩]

def callOf (gid : UInt64) : GroupCall :=
  { gid := gid
    instanceOk := true
    groups := some twoGroups
    blobTree := fun blob => blob.head?.map fun b => .leaf b.toUInt64
    alive := some [2]
    attach := fun _ => true
    selecting := []
    building := []
    pruning := []
    placing := [.save] }

def halfGone : WindowCall := ⟨0, [callOf 1, callOf 2], []⟩

/-- The first call clears g_restoring, and the tab of the second one is heard in the middle of the loop. -/
theorem restore_heard_halfGone :
    (starting.setRestoring true).saver.restoring = true ∧
    ((starting.setRestoring true).restoreGroup (callOf 1)).1.saver.restoring = false ∧
    ∃ before after t, [halfGone].flatMap WindowCall.turns = before ++ after ∧ after ≠ [] ∧
      starting.looping.run before = some t ∧ starting.saver.layoutDirty = false ∧ t.saver.layoutDirty = true ∧
        starting.saver.saveSource = false ∧ t.saver.saveSource = true := by
  refine ⟨rfl, by decide +kernel, [.openWindow, .group (callOf 1), .group (callOf 2)], [.settle 0 []], _, rfl,
    List.cons_ne_nil _ _, run_looping _ _, rfl, ?_, rfl, ?_⟩ <;> decide +kernel

end Relaunch

end Epimone.Client
