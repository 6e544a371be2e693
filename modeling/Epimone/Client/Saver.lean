import Mathlib
import Epimone.Library.Conservation
import Epimone.Library.History

/-! # The debounced save

One timer and two sinks: layout.json and the group blobs. Reports of changes mark
the sinks and arm the timer, restores suppress them, and the close of a window
saves for the last time and freezes the rest.
-/
set_option autoImplicit false

namespace Epimone.Client

open History Transition

inductive Sink where
  | layout
  | groups
  deriving DecidableEq, Repr

/-- The globals of the saver; `saveSource` says that the timer is armed. -/
structure Saver where
  restoring : Bool
  frozen : Bool
  saveSource : Bool
  layoutDirty : Bool
  groupsDirty : Bool
  deriving DecidableEq, Repr

namespace Saver

variable (g : Saver)

def initial : Saver := ⟨false, false, false, false, false⟩

def dirty : Sink → Bool
  | .layout => g.layoutDirty
  | .groups => g.groupsDirty

def armSave : Saver :=
  if g.restoring || g.frozen then g
  else if g.saveSource then g
  else { g with saveSource := true }

def scheduleSave : Saver :=
  if g.restoring || g.frozen then g
  else { g with layoutDirty := true, groupsDirty := true }.armSave

def scheduleGroupSave : Saver :=
  if g.restoring || g.frozen then g
  else { g with groupsDirty := true }.armSave

end Saver

/-- A report of a change: epimone_layout_schedule_save or epimone_layout_schedule_group_save. -/
inductive Report where
  | save
  | groupSave
  deriving DecidableEq, Repr

def Report.sinks : Report → List Sink
  | .save => [.layout, .groups]
  | .groupSave => [.groups]

def Report.schedule : Report → Saver → Saver
  | .save => Saver.scheduleSave
  | .groupSave => Saver.scheduleGroupSave

/-- A window with the number of panes of each of its tabs; `asking` while its confirmation is open. -/
structure EpimoneWindow where
  id : Nat
  pages : List Nat
  closing : Bool
  asking : Bool
  deriving DecidableEq, Repr

/-- What epimone_window_close_request_cb asks about before it lets the window go. -/
def EpimoneWindow.asks (v : EpimoneWindow) (confirmClose : Bool) : Bool :=
  confirmClose && !v.closing && (decide (1 < v.pages.length) || decide (1 < v.pages.sum))

/-- A restore in progress, with the value of g_restoring that it puts back. -/
inductive Restore where
  | group (wasRestoring : Bool)
  | v2 (wasRestoring : Bool)
  | v1
  deriving DecidableEq, Repr

def Restore.leaves : Restore → Bool
  | .group was => was
  | .v2 was => was
  | .v1 => false

/-- A change reported outside a restore, and a save that reached its sink. -/
inductive SaveEvent where
  | changed (sink : Sink)
  | written (sink : Sink)
  deriving DecidableEq, Repr

/-- Whether a save gets through: the groups to the daemon and groups.json, the windows to layout.json. -/
structure SaveAnswers where
  groups : Bool
  layout : Bool

structure Application where
  saver : Saver
  windows : List EpimoneWindow
  restores : List Restore
  trace : List SaveEvent

/-- A change of the sink was reported outside a restore, and no save of it completed since. -/
def Unsaved (sink : Sink) (trace : List SaveEvent) : Prop :=
  Since (fun e => e = SaveEvent.changed sink) (fun e => e = SaveEvent.written sink) trace

namespace Application

variable (app : Application)

def initial : Application := ⟨.initial, [], [], []⟩

def report (r : Report) : Application :=
  { app with
    saver := r.schedule app.saver
    trace := app.trace ++ if app.restores = [] then r.sinks.map .changed else [] }

def syncGroupsNow (ans : SaveAnswers) : Application :=
  { app with trace := app.trace ++ if ans.groups then [.written .groups] else [] }

/-- Without a window there is nothing to persist. -/
def epimoneLayoutSaveNow (ans : SaveAnswers) : Application :=
  if app.windows = [] then app
  else { app with trace := app.trace ++ if ans.layout then [.written .layout] else [] }

def saveTimeoutCb (ans : SaveAnswers) : Application :=
  let doLayout := app.saver.layoutDirty
  let doGroups := app.saver.groupsDirty
  let app := { app with saver := { app.saver with saveSource := false, layoutDirty := false, groupsDirty := false } }
  let app := if doGroups then app.syncGroupsNow ans else app
  if doLayout then app.epimoneLayoutSaveNow ans else app

def epimoneLayoutBeginShutdown (ans : SaveAnswers) : Application :=
  if app.saver.frozen then app
  else
    let app := { app with saver := { app.saver with saveSource := false } }
    let app := (app.syncGroupsNow ans).epimoneLayoutSaveNow ans
    { app with saver := { app.saver with layoutDirty := false, groupsDirty := false, frozen := true } }

def window (w : Nat) : Option EpimoneWindow := app.windows.find? fun v => v.id == w

def modWindow (w : Nat) (f : EpimoneWindow → EpimoneWindow) : Application :=
  { app with windows := app.windows.map fun v => if v.id = w then f v else v }

def destroyWindow (w : Nat) : Application :=
  { app with windows := app.windows.filter fun v => v.id ≠ w }

def closeRequestCb (v : EpimoneWindow) (confirmClose : Bool) (ans : SaveAnswers) : Application :=
  if v.asks confirmClose then app.modWindow v.id fun v => { v with asking := true }
  else (app.epimoneLayoutBeginShutdown ans).destroyWindow v.id

def notifyNPagesCb (v : EpimoneWindow) (confirmClose : Bool) (ans : SaveAnswers) : Application :=
  if v.pages = [] then app.closeRequestCb v confirmClose ans else app.report .save

def confirmCloseCb (v : EpimoneWindow) (close confirmClose : Bool) (ans : SaveAnswers) : Application :=
  let app := app.modWindow v.id fun v => { v with asking := false, closing := v.closing || close }
  if close then app.closeRequestCb { v with asking := false, closing := true } confirmClose ans else app

def beginRestore (r : Restore) : Application :=
  { app with saver := { app.saver with restoring := true }, restores := r :: app.restores }

/-- A group restore that builds no tab clears g_restoring; every other restore puts back what it has to. -/
def endRestore (r : Restore) (rest : List Restore) (built : Bool) : Application :=
  let restoring := match r, built with
    | .group _, false => false
    | r, _ => r.leaves
  let app := { app with saver := { app.saver with restoring := restoring }, restores := rest }
  match r, built with
  | _, false => app
  | .group true, true => app
  | _, true => app.report .save

end Application

/-- What the main loop and the restores do to the saver, one call after the other. -/
inductive Signal where
  | report (r : Report)
  | expire (ans : SaveAnswers)
  | openWindow (w : Nat)
  | setPages (w : Nat) (pages : List Nat) (confirmClose : Bool) (ans : SaveAnswers)
  | closeRequest (w : Nat) (confirmClose : Bool) (ans : SaveAnswers)
  | response (w : Nat) (close confirmClose : Bool) (ans : SaveAnswers)
  | restoreGroup
  | restoreFromV2
  | restoreFromV1
  | discardWindow (w : Nat)
  | restored (built : Bool)

namespace Application

variable (app : Application)

def step (app : Application) : Signal → Option Application
  | .report r => some (app.report r)
  | .expire ans => if app.saver.saveSource then some (app.saveTimeoutCb ans) else none
  | .openWindow w =>
    if (app.window w).isSome then none
    else some { app with windows := app.windows ++ [⟨w, [], false, false⟩] }
  | .setPages w pages confirmClose ans =>
    (app.window w).map fun v =>
      let v' := { v with pages := pages }
      let app := app.modWindow w fun v => { v with pages := pages }
      if pages.length = v.pages.length then app else app.notifyNPagesCb v' confirmClose ans
  | .closeRequest w confirmClose ans => (app.window w).map fun v => app.closeRequestCb v confirmClose ans
  | .response w close confirmClose ans =>
    (app.window w).bind fun v => if v.asking then some (app.confirmCloseCb v close confirmClose ans) else none
  | .restoreGroup => some (app.beginRestore (.group app.saver.restoring))
  | .restoreFromV2 => some (app.beginRestore (.v2 app.saver.restoring))
  | .restoreFromV1 => some (app.beginRestore .v1)
  | .discardWindow w =>
    match app.restores with
    | .v2 _ :: _ => some (app.destroyWindow w)
    | _ => none
  | .restored built =>
    match app.restores with
    | [] => none
    | r :: rest => some (app.endRestore r rest built)

/-- The window that goes, where the signal is the end of one. -/
def closes : Signal → Option Nat
  | .setPages w pages _ _ => if (app.window w).any fun v => pages.isEmpty && !v.pages.isEmpty then some w else none
  | .closeRequest w confirmClose _ => if (app.window w).any fun v => !v.asks confirmClose then some w else none
  | .response w close _ _ => if close then some w else none
  | _ => none

def Alone (w : Nat) : Prop := ∀ v ∈ app.windows, v.id = w

/-- The save that the timer starts reaches every sink that it is for. -/
def Completes (ans : SaveAnswers) : Prop :=
  (app.saver.groupsDirty = true → ans.groups = true) ∧
    (app.saver.layoutDirty = true → ans.layout = true ∧ app.windows ≠ [])

/-- Only the last window closes, none opens after it, and every save that the timer starts gets through. -/
structure Spared (i : Signal) : Prop where
  last : ∀ w, app.closes i = some w → app.Alone w
  fresh : ∀ w, i = .openWindow w → app.saver.frozen = false
  completes : ∀ ans, i = .expire ans → app.Completes ans

instance (w : Nat) : Decidable (app.Alone w) := inferInstanceAs (Decidable (∀ v ∈ app.windows, v.id = w))

instance (ans : SaveAnswers) : Decidable (app.Completes ans) := inferInstanceAs (Decidable (_ ∧ _))

def spares (i : Signal) : Bool :=
  ((app.closes i).all fun w => decide (app.Alone w)) &&
    match i with
    | .openWindow _ => !app.saver.frozen
    | .expire ans => decide (app.Completes ans)
    | _ => true

end Application

def saving : Machine Application Signal := ⟨.initial, Application.step⟩

/-! What the saver does with a report, a save and a restore. -/

namespace Saver

variable {g : Saver}

/-- Neither suppressed by a restore nor frozen. -/
def Heeds (g : Saver) : Prop := g.restoring = false ∧ g.frozen = false

theorem Heeds.skips (h : g.Heeds) : ¬ (g.restoring || g.frozen) = true := by
  rw [h.1, h.2]
  decide

theorem armSave_eq (h : g.Heeds) : g.armSave = { g with saveSource := true } := by
  unfold armSave
  rw [if_neg h.skips]
  split
  · next hArmed => rw [← hArmed]
  · rfl

theorem scheduleSave_eq (h : g.Heeds) :
    g.scheduleSave = { g with layoutDirty := true, groupsDirty := true, saveSource := true } := by
  have hMarked : ({ g with layoutDirty := true, groupsDirty := true } : Saver).Heeds := h
  unfold scheduleSave
  rw [if_neg h.skips, armSave_eq hMarked]

theorem scheduleGroupSave_eq (h : g.Heeds) :
    g.scheduleGroupSave = { g with groupsDirty := true, saveSource := true } := by
  have hMarked : ({ g with groupsDirty := true } : Saver).Heeds := h
  unfold scheduleGroupSave
  rw [if_neg h.skips, armSave_eq hMarked]

end Saver

/-- Outside a restore and before the freeze, a report marks its sinks and arms the timer. -/
theorem Report.schedule_eq (r : Report) {g : Saver} (h : g.Heeds) :
    r.schedule g = { g with
      layoutDirty := g.layoutDirty || decide (Sink.layout ∈ r.sinks)
      groupsDirty := true
      saveSource := true } := by
  cases r with
  | save => simp [schedule, sinks, Saver.scheduleSave_eq h]
  | groupSave => simp [schedule, sinks, Saver.scheduleGroupSave_eq h]

theorem Report.schedule_suppressed (r : Report) {g : Saver} (h : g.restoring = true ∨ g.frozen = true) :
    r.schedule g = g := by
  have hSkip : (g.restoring || g.frozen) = true := by simpa using h
  cases r with
  | save => exact if_pos hSkip
  | groupSave => exact if_pos hSkip

namespace Application

variable {app : Application} {sink : Sink}

theorem unsaved_report (r : Report) :
    Unsaved sink (app.report r).trace → (app.restores = [] ∧ sink ∈ r.sinks) ∨ Unsaved sink app.trace := by
  have hOne : ∀ (trace : List SaveEvent) (s : Sink), Unsaved sink (trace ++ [.changed s]) →
      sink = s ∨ Unsaved sink trace := by
    intro trace s h
    rcases (since_append_singleton trace _).mp h with hHere | ⟨hBefore, _⟩
    · cases hHere
      exact Or.inl rfl
    · exact Or.inr hBefore
  unfold report
  dsimp only
  split
  · next hNone =>
    cases r with
    | groupSave =>
      intro h
      rcases hOne _ _ h with rfl | hBefore
      · exact Or.inl ⟨hNone, by decide⟩
      · exact Or.inr hBefore
    | save =>
      intro h
      have hSplit : app.trace ++ Report.save.sinks.map SaveEvent.changed =
          (app.trace ++ [.changed .layout]) ++ [.changed .groups] := by
        simp [Report.sinks]
      rw [hSplit] at h
      rcases hOne _ _ h with rfl | hFirst
      · exact Or.inl ⟨hNone, by decide⟩
      · rcases hOne _ _ hFirst with rfl | hBefore
        · exact Or.inl ⟨hNone, by decide⟩
        · exact Or.inr hBefore
  · intro h
    rw [List.append_nil] at h
    exact Or.inr h

theorem unsaved_written {trace : List SaveEvent} {s : Sink} (h : Unsaved sink (trace ++ [.written s])) :
    Unsaved sink trace ∧ sink ≠ s := by
  rcases (since_append_singleton trace _).mp h with hHere | ⟨hBefore, hOther⟩
  · cases hHere
  · exact ⟨hBefore, fun hSame => hOther (by rw [hSame])⟩

/-- What holds while every signal is spared. -/
structure Watchful (app : Application) : Prop where
  rooted : ∀ r, app.restores.getLast? = some r → r.leaves = false
  idle : app.restores = [] → app.saver.restoring = false
  armed : app.saver.frozen = false → ∀ sink, Unsaved sink app.trace →
    app.saver.dirty sink = true ∧ app.saver.saveSource = true
  emptied : app.saver.frozen = true → app.windows = []

theorem watchful_initial : Watchful initial where
  rooted := by
    intro r h
    cases h
  idle := fun _ => rfl
  armed := by
    intro _ sink h
    exact absurd h not_since_nil
  emptied := fun _ => rfl

theorem Watchful.withWindows (h : Watchful app) {windows : List EpimoneWindow}
    (hNone : app.saver.frozen = true → windows = []) : Watchful { app with windows := windows } :=
  ⟨h.rooted, h.idle, h.armed, hNone⟩

theorem Watchful.modWindow (h : Watchful app) (w : Nat) (f : EpimoneWindow → EpimoneWindow) :
    Watchful (app.modWindow w f) :=
  h.withWindows fun hFrozen => by rw [h.emptied hFrozen]; rfl

theorem Watchful.report (h : Watchful app) (r : Report) : Watchful (app.report r) := by
  rcases Bool.eq_false_or_eq_true app.saver.frozen with hFrozen | hFrozen
  · have hSame : r.schedule app.saver = app.saver := r.schedule_suppressed (Or.inr hFrozen)
    constructor
    · exact h.rooted
    · intro hNone
      exact (congrArg Saver.restoring hSame).trans (h.idle hNone)
    · intro hOpen
      have hStill : app.saver.frozen = false := (congrArg Saver.frozen hSame).symm.trans hOpen
      rw [hFrozen] at hStill
      cases hStill
    · intro _
      exact h.emptied hFrozen
  · rcases Bool.eq_false_or_eq_true app.saver.restoring with hRestoring | hRestoring
    · have hSame : r.schedule app.saver = app.saver := r.schedule_suppressed (Or.inl hRestoring)
      have hBusy : app.restores ≠ [] := by
        intro hNone
        rw [h.idle hNone] at hRestoring
        cases hRestoring
      have hAll : app.report r = app := by
        unfold Application.report
        rw [hSame, if_neg hBusy, List.append_nil]
      rw [hAll]
      exact h
    · have hSaver : (app.report r).saver = _ := r.schedule_eq ⟨hRestoring, hFrozen⟩
      constructor
      · exact h.rooted
      · intro _
        rw [hSaver]
        exact hRestoring
      · intro _ sink hUnsaved
        rw [hSaver]
        refine ⟨?_, rfl⟩
        rcases unsaved_report r hUnsaved with ⟨_, hSink⟩ | hBefore
        · cases sink with
          | layout => simp [Saver.dirty, hSink]
          | groups => rfl
        · have hDirty := (h.armed hFrozen sink hBefore).1
          cases sink with
          | layout =>
            change app.saver.layoutDirty = true at hDirty
            simp [Saver.dirty, hDirty]
          | groups => rfl
      · intro hThen
        rw [hSaver, hFrozen] at hThen
        cases hThen

/-- A save that reaches its sinks leaves a sink unsaved only if it did not have to write it. -/
theorem unsaved_saveTimeoutCb {ans : SaveAnswers} (hCompletes : app.Completes ans)
    (h : Unsaved sink (app.saveTimeoutCb ans).trace) : Unsaved sink app.trace ∧ app.saver.dirty sink = false := by
  obtain ⟨hGroups, hLayout⟩ := hCompletes
  have hTrace : (app.saveTimeoutCb ans).trace =
      (app.trace ++ if app.saver.groupsDirty then [.written .groups] else []) ++
        if app.saver.layoutDirty then [.written .layout] else [] := by
    unfold saveTimeoutCb
    cases hG : app.saver.groupsDirty with
    | false =>
      cases hL : app.saver.layoutDirty with
      | false => simp
      | true => simp [epimoneLayoutSaveNow, (hLayout hL).1, (hLayout hL).2]
    | true =>
      cases hL : app.saver.layoutDirty with
      | false => simp [syncGroupsNow, hGroups hG]
      | true => simp [syncGroupsNow, epimoneLayoutSaveNow, hGroups hG, (hLayout hL).1, (hLayout hL).2]
  have hPeel : ∀ {trace : List SaveEvent} {b : Bool} {s : Sink},
      Unsaved sink (trace ++ if b then [.written s] else []) → Unsaved sink trace ∧ (sink = s → b = false) := by
    intro trace b s hThere
    cases b with
    | false =>
      simp only [Bool.false_eq_true, if_false, List.append_nil] at hThere
      exact ⟨hThere, fun _ => rfl⟩
    | true =>
      obtain ⟨hBefore, hOther⟩ := unsaved_written hThere
      exact ⟨hBefore, fun hSame => absurd hSame hOther⟩
  rw [hTrace] at h
  obtain ⟨hFirst, hNotLayout⟩ := hPeel h
  obtain ⟨hBefore, hNotGroups⟩ := hPeel hFirst
  refine ⟨hBefore, ?_⟩
  cases sink with
  | layout => exact hNotLayout rfl
  | groups => exact hNotGroups rfl

theorem epimoneLayoutSaveNow_eq (ans : SaveAnswers) :
    ∃ trace, app.epimoneLayoutSaveNow ans = { app with trace := trace } := by
  unfold epimoneLayoutSaveNow
  split
  · exact ⟨app.trace, rfl⟩
  · exact ⟨_, rfl⟩

theorem saveTimeoutCb_keeps (ans : SaveAnswers) :
    (app.saveTimeoutCb ans).windows = app.windows ∧ (app.saveTimeoutCb ans).restores = app.restores ∧
      (app.saveTimeoutCb ans).saver.restoring = app.saver.restoring ∧
        (app.saveTimeoutCb ans).saver.frozen = app.saver.frozen := by
  unfold saveTimeoutCb
  dsimp only
  generalize hSynced : ite (app.saver.groupsDirty = true) _ _ = synced
  have hSame : synced.windows = app.windows ∧ synced.restores = app.restores ∧
      synced.saver.restoring = app.saver.restoring ∧ synced.saver.frozen = app.saver.frozen := by
    rw [← hSynced]
    split <;> exact ⟨rfl, rfl, rfl, rfl⟩
  split
  · obtain ⟨trace, hSaved⟩ := @epimoneLayoutSaveNow_eq synced ans
    rw [hSaved]
    exact hSame
  · exact hSame

theorem Watchful.saveTimeoutCb (h : Watchful app) {ans : SaveAnswers} (hCompletes : app.Completes ans) :
    Watchful (app.saveTimeoutCb ans) := by
  obtain ⟨hWindows, hRestores, hRestoring, hFrozen⟩ := @saveTimeoutCb_keeps app ans
  constructor
  · rw [hRestores]
    exact h.rooted
  · rw [hRestores, hRestoring]
    exact h.idle
  · intro hOpen sink hUnsaved
    rw [hFrozen] at hOpen
    obtain ⟨hBefore, hClean⟩ := unsaved_saveTimeoutCb hCompletes hUnsaved
    rw [(h.armed hOpen sink hBefore).1] at hClean
    cases hClean
  · rw [hFrozen, hWindows]
    exact h.emptied

theorem beginShutdown_keeps (ans : SaveAnswers) :
    (app.epimoneLayoutBeginShutdown ans).windows = app.windows ∧
      (app.epimoneLayoutBeginShutdown ans).restores = app.restores ∧
        (app.epimoneLayoutBeginShutdown ans).saver.restoring = app.saver.restoring ∧
          (app.epimoneLayoutBeginShutdown ans).saver.frozen = true := by
  unfold epimoneLayoutBeginShutdown
  split
  · next hFrozen => exact ⟨rfl, rfl, rfl, hFrozen⟩
  · dsimp only
    generalize hSynced : syncGroupsNow _ ans = synced
    obtain ⟨trace, hSaved⟩ := @epimoneLayoutSaveNow_eq synced ans
    rw [hSaved, ← hSynced]
    exact ⟨rfl, rfl, rfl, rfl⟩

theorem Watchful.close (h : Watchful app) {w : Nat} (hAlone : app.Alone w) (ans : SaveAnswers) :
    Watchful ((app.epimoneLayoutBeginShutdown ans).destroyWindow w) := by
  obtain ⟨hWindows, hRestores, hRestoring, hFrozen⟩ := @beginShutdown_keeps app ans
  have hNone : ((app.epimoneLayoutBeginShutdown ans).destroyWindow w).windows = [] := by
    change (app.epimoneLayoutBeginShutdown ans).windows.filter _ = []
    rw [hWindows, List.filter_eq_nil_iff]
    intro v hv
    simpa using hAlone v hv
  constructor
  · change ∀ r, (app.epimoneLayoutBeginShutdown ans).restores.getLast? = some r → _
    rw [hRestores]
    exact h.rooted
  · change (app.epimoneLayoutBeginShutdown ans).restores = [] → _
    rw [hRestores]
    intro hIdle
    exact hRestoring.trans (h.idle hIdle)
  · intro hOpen
    have hStill := hFrozen.symm.trans hOpen
    cases hStill
  · intro _
    exact hNone

theorem Watchful.closeRequestCb (h : Watchful app) {v : EpimoneWindow} {confirmClose : Bool} {ans : SaveAnswers}
    (hLast : v.asks confirmClose = false → app.Alone v.id) : Watchful (app.closeRequestCb v confirmClose ans) := by
  unfold Application.closeRequestCb
  split
  · exact h.modWindow _ _
  · next hGoes => exact h.close (hLast (by simpa using hGoes)) ans

theorem Watchful.beginRestore (h : Watchful app) {r : Restore} (hLeaves : app.restores = [] → r.leaves = false) :
    Watchful (app.beginRestore r) := by
  constructor
  · intro last hLast
    cases hRestores : app.restores with
    | nil =>
      change (r :: app.restores).getLast? = some last at hLast
      rw [hRestores] at hLast
      cases hLast
      exact hLeaves hRestores
    | cons r' rest =>
      change (r :: app.restores).getLast? = some last at hLast
      rw [hRestores, List.getLast?_cons_cons, ← hRestores] at hLast
      exact h.rooted last hLast
  · intro hNone
    cases hNone
  · exact h.armed
  · exact h.emptied

theorem Watchful.endRestore (h : Watchful app) {r : Restore} {rest : List Restore}
    (hTop : app.restores = r :: rest) (built : Bool) : Watchful (app.endRestore r rest built) := by
  have hRooted : ∀ last, rest.getLast? = some last → last.leaves = false := by
    intro last hLast
    cases rest with
    | nil => cases hLast
    | cons r' rest =>
      have hOuter := h.rooted last
      rw [hTop, List.getLast?_cons_cons] at hOuter
      exact hOuter hLast
  have hLeft : ∀ restoring, (rest = [] → restoring = false) →
      Watchful { app with saver := { app.saver with restoring := restoring }, restores := rest } := by
    intro restoring hIdle
    refine ⟨hRooted, hIdle, ?_, h.emptied⟩
    intro hOpen sink hUnsaved
    exact h.armed hOpen sink hUnsaved
  have hLeaves : rest = [] → r.leaves = false := by
    rintro rfl
    exact h.rooted r (by rw [hTop]; rfl)
  unfold Application.endRestore
  cases r with
  | group was =>
    cases built with
    | false => exact hLeft false fun _ => rfl
    | true =>
      cases was with
      | true => exact hLeft true hLeaves
      | false => exact (hLeft false fun _ => rfl).report .save
  | v2 was =>
    cases built with
    | false => exact hLeft was hLeaves
    | true => exact (hLeft was hLeaves).report .save
  | v1 =>
    cases built with
    | false => exact hLeft false fun _ => rfl
    | true => exact (hLeft false fun _ => rfl).report .save

theorem window_id {w : Nat} {v : EpimoneWindow} (h : app.window w = some v) : v.id = w := by
  have hFound := List.find?_some h
  simpa using hFound

theorem alone_modWindow {w w' : Nat} {f : EpimoneWindow → EpimoneWindow} (hId : ∀ v, (f v).id = v.id)
    (h : app.Alone w) : (app.modWindow w' f).Alone w := by
  intro v hv
  obtain ⟨u, hu, rfl⟩ := List.mem_map.mp hv
  split
  · rw [hId]
    exact h u hu
  · exact h u hu

theorem watchful_step {i : Signal} {app' : Application} (h : Watchful app) (hSpared : app.Spared i)
    (hStep : app.step i = some app') : Watchful app' := by
  cases i with
  | report r =>
    cases hStep
    exact h.report r
  | expire ans =>
    obtain ⟨_, hNext⟩ := Option.ite_none_right_eq_some.mp hStep
    cases hNext
    exact h.saveTimeoutCb (hSpared.completes ans rfl)
  | openWindow w =>
    obtain ⟨_, hNext⟩ := Option.ite_none_left_eq_some.mp hStep
    cases hNext
    exact h.withWindows fun hFrozen => by rw [hSpared.fresh w rfl] at hFrozen; cases hFrozen
  | setPages w pages confirmClose ans =>
    obtain ⟨v, hWindow, rfl⟩ := Option.map_eq_some_iff.mp hStep
    have hPaged := h.modWindow w fun v => { v with pages := pages }
    dsimp only
    split
    · exact hPaged
    · next hOther =>
      unfold notifyNPagesCb
      split
      · next hEmptied =>
        cases hEmptied
        have hCloses : app.closes (.setPages w [] confirmClose ans) = some w := by
          have hSome : v.pages ≠ [] := fun hNone => hOther (by rw [hNone])
          simp [closes, hWindow, hSome]
        refine hPaged.closeRequestCb fun _ => alone_modWindow (fun _ => rfl) ?_
        rw [window_id hWindow]
        exact hSpared.last w hCloses
      · exact hPaged.report .save
  | closeRequest w confirmClose ans =>
    obtain ⟨v, hWindow, rfl⟩ := Option.map_eq_some_iff.mp hStep
    refine h.closeRequestCb fun hGoes => ?_
    rw [window_id hWindow]
    exact hSpared.last w (by simp [closes, hWindow, hGoes])
  | response w close confirmClose ans =>
    obtain ⟨v, hWindow, hAnswered⟩ := Option.bind_eq_some_iff.mp hStep
    obtain ⟨_, hNext⟩ := Option.ite_none_right_eq_some.mp hAnswered
    cases hNext
    have hPaged := h.modWindow v.id fun v => { v with asking := false, closing := v.closing || close }
    unfold confirmCloseCb
    cases close with
    | false => exact hPaged
    | true =>
      refine hPaged.closeRequestCb fun _ => alone_modWindow (fun _ => rfl) ?_
      change app.Alone v.id
      rw [window_id hWindow]
      exact hSpared.last w rfl
  | restoreGroup =>
    cases hStep
    exact h.beginRestore h.idle
  | restoreFromV2 =>
    cases hStep
    exact h.beginRestore h.idle
  | restoreFromV1 =>
    cases hStep
    exact h.beginRestore fun _ => rfl
  | discardWindow w =>
    change (match app.restores with
      | .v2 _ :: _ => some (app.destroyWindow w)
      | _ => none) = some app' at hStep
    split at hStep
    · cases hStep
      exact h.withWindows fun hFrozen => by rw [h.emptied hFrozen]; rfl
    · cases hStep
  | restored built =>
    change (match app.restores with
      | [] => none
      | r :: rest => some (app.endRestore r rest built)) = some app' at hStep
    cases hRestores : app.restores with
    | nil =>
      rw [hRestores] at hStep
      cases hStep
    | cons r rest =>
      rw [hRestores] at hStep
      cases hStep
      exact h.endRestore hRestores built

/-- Outside a restore, and with a window that stays open, a change that no completed save has written yet
has left its dirty flag set and the timer armed. -/
theorem saves_pending {inputs : List Signal} (hSpared : saving.Meets Spared .initial inputs)
    (hRun : saving.run inputs = some app) :
    app.restores = [] → (∃ v ∈ app.windows, v.closing = false) → ∀ sink, Unsaved sink app.trace →
      app.saver.dirty sink = true ∧ app.saver.saveSource = true := by
  have h : Watchful app := hSpared.invariant (fun _ _ _ hWatchful hCondition hStep =>
    watchful_step hWatchful hCondition hStep) watchful_initial hRun
  rintro _ ⟨v, hv, _⟩ sink hUnsaved
  refine h.armed ?_ sink hUnsaved
  rw [← Bool.not_eq_true]
  intro hFrozen
  rw [h.emptied hFrozen] at hv
  cases hv

theorem spared_iff (app : Application) (i : Signal) : app.Spared i ↔ app.spares i = true := by
  unfold spares
  rw [Bool.and_eq_true]
  constructor
  · rintro ⟨hLast, hFresh, hCompletes⟩
    constructor
    · cases hCloses : app.closes i with
      | none => rfl
      | some w => exact decide_eq_true (hLast w hCloses)
    · cases i with
      | openWindow w => exact Bool.not_eq_true' _ |>.mpr (hFresh w rfl)
      | expire ans => exact decide_eq_true (hCompletes ans rfl)
      | _ => rfl
  · rintro ⟨hLast, hRest⟩
    constructor
    · intro w hCloses
      rw [hCloses] at hLast
      exact of_decide_eq_true hLast
    · rintro w rfl
      exact (Bool.not_eq_true' _).mp hRest
    · rintro ans rfl
      exact of_decide_eq_true hRest

instance (app : Application) (i : Signal) : Decidable (app.Spared i) :=
  decidable_of_iff (app.spares i = true) (app.spared_iff i).symm

/-- A tab is saved off the timer; one more comes out of a group, and is saved; the window is not closed after all,
and then a pane is split. -/
def dismissing : List Signal :=
  [.openWindow 0, .setPages 0 [1] true ⟨true, true⟩, .expire ⟨true, true⟩, .restoreGroup,
    .setPages 0 [1, 2] true ⟨true, true⟩, .restored true, .expire ⟨true, true⟩, .closeRequest 0 true ⟨true, true⟩,
    .response 0 false true ⟨true, true⟩, .report .groupSave]

theorem saves_pending_dismissing :
    ∃ app, saving.run dismissing = some app ∧ app.restores = [] ∧ (∃ v ∈ app.windows, v.closing = false) ∧
      Unsaved .groups app.trace ∧ app.saver.dirty .groups = true ∧ app.saver.saveSource = true := by
  have hSpared : saving.Meets Spared initial dismissing := by decide +kernel
  have hUnsaved : Unsaved .groups ([.changed .layout, .changed .groups, .written .groups, .written .layout,
      .changed .layout, .changed .groups, .written .groups, .written .layout] ++ .changed .groups :: []) :=
    ⟨_, _, [], rfl, rfl, by simp⟩
  have hOpen : ∃ v ∈ [(⟨0, [1, 2], false, false⟩ : EpimoneWindow)], v.closing = false := ⟨_, List.mem_cons_self, rfl⟩
  exact ⟨_, rfl, rfl, hOpen, hUnsaved, saves_pending hSpared rfl rfl hOpen .groups hUnsaved⟩

/-- Two windows: closing one of them freezes the saver, and what then changes in the other is not written. -/
theorem saves_lost_frozen :
    ∃ app, saving.run [.openWindow 0, .setPages 0 [1] true ⟨true, true⟩, .openWindow 1,
        .setPages 1 [1] true ⟨true, true⟩, .expire ⟨true, true⟩, .closeRequest 0 true ⟨true, true⟩,
        .setPages 1 [1, 1] true ⟨true, true⟩] = some app ∧
      app.restores = [] ∧ (∃ v ∈ app.windows, v.closing = false) ∧ Unsaved .layout app.trace ∧
        app.saver.dirty .layout = false ∧ app.saver.saveSource = false := by
  refine ⟨_, rfl, rfl, ⟨_, List.mem_cons_self, rfl⟩, ?_, rfl, rfl⟩
  exact ⟨_, _, [.changed .groups], rfl, rfl, by simp⟩

end Application

end Epimone.Client
