import Epimone.Library.Transition
import Mathlib.Logic.Function.Basic

/-! # The bell during a replay

A terminal that attaches is fed the ring of its session first, and its bell is
mute meanwhile: until nothing has come for a while, and for no longer than a
limit. The clock counts microseconds; a timer that is due is called back at most
`late` after that.
-/
set_option autoImplicit false

namespace Epimone.Client.Bell

open Transition

/-- EPI_BELL_QUIET_MS and EPI_BELL_MAX_MS. -/
def epiBellQuiet : Nat := 200 * 1000

def epiBellMax : Nat := 3000 * 1000

/-- A terminal with its bridge; `quiet` is when the timer of bell_quiet_id is due, and `fedAt` when it was set. -/
structure Terminal where
  suppressed : Bool
  audible : Bool
  attachedAt : Nat
  quiet : Option Nat
  fedAt : Nat
  deriving DecidableEq, Repr

def Terminal.blank : Terminal := ⟨false, false, 0, none, 0⟩

structure Gui where
  audibleBell : Bool
  all : List Nat
  terminal : Nat → Terminal
  now : Nat

inductive Event where
  | register (t : Nat)
  | destroy (t : Nat)
  | setAudibleBell (enabled : Bool)
  | attachBridge (t : Nat)
  | chunk (t : Nat)
  | quietTimer (t : Nat)
  deriving DecidableEq, Repr

namespace Gui

variable (gui : Gui) (t : Nat)

def modTerminal (f : Terminal → Terminal) : Gui :=
  { gui with terminal := Function.update gui.terminal t (f (gui.terminal t)) }

def applyBell : Gui := gui.modTerminal t fun k => { k with audible := gui.audibleBell && !k.suppressed }

def setBellSuppressed (suppressed : Bool) : Gui :=
  (gui.modTerminal t fun k => { k with suppressed := suppressed }).applyBell t

def registerTerminal : Gui := ({ gui with all := t :: gui.all }.modTerminal t fun _ => .blank).applyBell t

/-- The bridge goes with its terminal, and its timer with the bridge. -/
def terminalDestroyed : Gui :=
  { gui with all := gui.all.filter (· ≠ t) }.modTerminal t fun k => { k with quiet := none }

def setAudibleBell (enabled : Bool) : Gui := gui.all.foldl applyBell { gui with audibleBell := enabled }

/-- The bridge that the terminal had is freed. -/
def attachBridge : Gui :=
  (gui.modTerminal t fun k =>
    { k with attachedAt := gui.now, quiet := some (gui.now + epiBellQuiet), fedAt := gui.now }).setBellSuppressed
    t true

def bellWindow : Gui :=
  if !(gui.terminal t).suppressed then gui
  else if epiBellMax ≤ gui.now - (gui.terminal t).attachedAt then
    (gui.modTerminal t fun k => { k with quiet := none }).setBellSuppressed t false
  else gui.modTerminal t fun k => { k with quiet := some (gui.now + epiBellQuiet), fedAt := gui.now }

def bellQuietCb : Gui := (gui.modTerminal t fun k => { k with quiet := none }).setBellSuppressed t false

/-- No timer is overdue by more than the lateness. -/
def Prompt (late now : Nat) : Prop := ∀ t ∈ gui.all, ∀ due ∈ (gui.terminal t).quiet, now ≤ due + late

instance instDecidablePrompt (late now : Nat) : Decidable (gui.Prompt late now) :=
  inferInstanceAs (Decidable (∀ t ∈ gui.all, ∀ due ∈ (gui.terminal t).quiet, now ≤ due + late))

/-- Terminals that are there are fed, and a timer fires when it is due. -/
def can (now : Nat) : Event → Bool
  | .register t => !gui.all.contains t
  | .destroy t | .attachBridge t | .chunk t => gui.all.contains t
  | .setAudibleBell _ => true
  | .quietTimer t => gui.all.contains t && (gui.terminal t).quiet.any fun due => due ≤ now

def handle : Event → Gui
  | .register t => gui.registerTerminal t
  | .destroy t => gui.terminalDestroyed t
  | .setAudibleBell enabled => gui.setAudibleBell enabled
  | .attachBridge t => gui.attachBridge t
  | .chunk t => gui.bellWindow t
  | .quietTimer t => gui.bellQuietCb t

def step (late : Nat) (input : Nat × Event) : Option Gui :=
  if gui.now ≤ input.1 ∧ gui.Prompt late input.1 ∧ gui.can input.1 input.2 = true then
    some ({ gui with now := input.1 }.handle input.2)
  else none

end Gui

def machine (late : Nat) (audibleBell : Bool) : Machine Gui (Nat × Event) :=
  ⟨⟨audibleBell, [], fun _ => .blank, 0⟩, fun gui => gui.step late⟩

/-- The events that feed the terminal: its bridge is attached, or a chunk comes. -/
def Event.feeds (t : Nat) : Event → Bool
  | .attachBridge u | .chunk u => u == t
  | _ => false

/-- When the last of the events came. -/
def lastTime (p : Event → Bool) (inputs : List (Nat × Event)) : Option Nat :=
  (inputs.filter fun input => p input.2).getLast?.map Prod.fst

theorem lastTime_append (p : Event → Bool) (inputs : List (Nat × Event)) (now : Nat) (e : Event) :
    lastTime p (inputs ++ [(now, e)]) = if p e then some now else lastTime p inputs := by
  unfold lastTime
  rw [List.filter_append]
  cases hFeeds : p e with
  | true => simp [hFeeds]
  | false => simp [hFeeds]

/-- A terminal is mute by the setting, or as long as its timer runs, which is set by what it is fed within the limit. -/
structure Terminal.Sound (k : Terminal) (audibleBell : Bool) (late now : Nat) : Prop where
  applied : k.audible = (audibleBell && !k.suppressed)
  armed : k.quiet = if k.suppressed then some (k.fedAt + epiBellQuiet) else none
  fed : k.suppressed = true → k.fedAt < k.attachedAt + epiBellMax
  prompt : k.suppressed = true → now ≤ k.fedAt + epiBellQuiet + late

namespace Gui

def Sound (late : Nat) (gui : Gui) : Prop := ∀ t ∈ gui.all, (gui.terminal t).Sound gui.audibleBell late gui.now

variable {gui : Gui} {late now t : Nat} {e : Event}

theorem modTerminal_self (f : Terminal → Terminal) : (gui.modTerminal t f).terminal t = f (gui.terminal t) :=
  Function.update_self ..

theorem modTerminal_of_ne {u : Nat} (h : u ≠ t) (f : Terminal → Terminal) :
    (gui.modTerminal t f).terminal u = gui.terminal u :=
  Function.update_of_ne h _ _

/-- The setting reaches every terminal and changes nothing else of it. -/
theorem foldl_applyBell (l : List Nat) (gui : Gui) :
    (l.foldl applyBell gui).audibleBell = gui.audibleBell ∧ (l.foldl applyBell gui).all = gui.all ∧
      (l.foldl applyBell gui).now = gui.now ∧ ∀ t, (l.foldl applyBell gui).terminal t =
        if t ∈ l then { gui.terminal t with audible := gui.audibleBell && !(gui.terminal t).suppressed }
          else gui.terminal t := by
  induction l generalizing gui with
  | nil => exact ⟨rfl, rfl, rfl, fun _ => rfl⟩
  | cons first l ih =>
    obtain ⟨hSetting, hAll, hNow, hTerminal⟩ := ih (gui.applyBell first)
    refine ⟨hSetting, hAll, hNow, fun t => ?_⟩
    rw [List.foldl_cons, hTerminal]
    rcases eq_or_ne t first with rfl | hOther
    · have hSelf : (gui.applyBell t).terminal t =
          { gui.terminal t with audible := gui.audibleBell && !(gui.terminal t).suppressed } := modTerminal_self _
      rw [hSelf, if_pos List.mem_cons_self]
      split <;> rfl
    · have hSame : (gui.applyBell first).terminal t = gui.terminal t := modTerminal_of_ne hOther _
      rw [hSame]
      simp only [List.mem_cons, hOther, false_or]
      rfl

/-- What an event does to a terminal that is there before and after it. -/
inductive Affects (gui gui' : Gui) (t : Nat) : Event → Prop where
  | setting (enabled : Bool) (hSetting : gui'.audibleBell = enabled)
      (h : gui'.terminal t = { gui.terminal t with audible := enabled && !(gui.terminal t).suppressed }) :
      Affects gui gui' t (.setAudibleBell enabled)
  | attached (hSetting : gui'.audibleBell = gui.audibleBell)
      (h : gui'.terminal t = ⟨true, gui.audibleBell && !true, gui.now, some (gui.now + epiBellQuiet), gui.now⟩) :
      Affects gui gui' t (.attachBridge t)
  | fed (hSetting : gui'.audibleBell = gui.audibleBell) (hMute : (gui.terminal t).suppressed = true)
      (hEarly : gui.now - (gui.terminal t).attachedAt < epiBellMax)
      (h : gui'.terminal t = { gui.terminal t with quiet := some (gui.now + epiBellQuiet), fedAt := gui.now }) :
      Affects gui gui' t (.chunk t)
  | limit (hSetting : gui'.audibleBell = gui.audibleBell) (hLate : epiBellMax ≤ gui.now - (gui.terminal t).attachedAt)
      (h : gui'.terminal t =
        { gui.terminal t with suppressed := false, audible := gui.audibleBell && !false, quiet := none }) :
      Affects gui gui' t (.chunk t)
  | fired (hSetting : gui'.audibleBell = gui.audibleBell)
      (hDue : ∃ due, (gui.terminal t).quiet = some due ∧ due ≤ gui.now)
      (h : gui'.terminal t =
        { gui.terminal t with suppressed := false, audible := gui.audibleBell && !false, quiet := none }) :
      Affects gui gui' t (.quietTimer t)
  | spared (e : Event) (hSetting : gui'.audibleBell = gui.audibleBell) (h : gui'.terminal t = gui.terminal t)
      (hUnfed : (gui.terminal t).suppressed = true → e.feeds t = false) : Affects gui gui' t e

@[simp] theorem setBellSuppressed_other {u : Nat} (h : u ≠ t) (suppressed : Bool) :
    (gui.setBellSuppressed t suppressed).terminal u = gui.terminal u := by
  rw [setBellSuppressed, applyBell, modTerminal_of_ne h, modTerminal_of_ne h]

theorem setBellSuppressed_self (suppressed : Bool) : (gui.setBellSuppressed t suppressed).terminal t =
    { gui.terminal t with suppressed := suppressed, audible := gui.audibleBell && !suppressed } := by
  rw [setBellSuppressed, applyBell, modTerminal_self, modTerminal_self]
  rfl

theorem affects_attachBridge {u : Nat} : Affects gui (gui.attachBridge u) t (.attachBridge u) := by
  rcases eq_or_ne t u with rfl | hOther
  · refine .attached rfl ?_
    rw [attachBridge, setBellSuppressed_self, modTerminal_self]
    rfl
  · refine .spared _ rfl ?_ fun _ => beq_false_of_ne hOther.symm
    rw [attachBridge, setBellSuppressed_other hOther, modTerminal_of_ne hOther]

theorem affects_bellWindow {u : Nat} : Affects gui (gui.bellWindow u) t (.chunk u) := by
  unfold bellWindow
  split
  · rename_i hOpen
    refine .spared _ rfl rfl fun hMute => ?_
    apply beq_false_of_ne
    rintro rfl
    rw [hMute] at hOpen
    cases hOpen
  rename_i hMute
  rcases eq_or_ne t u with rfl | hOther
  · split
    · rename_i hLate
      refine .limit rfl hLate ?_
      rw [setBellSuppressed_self, modTerminal_self]
      rfl
    · rename_i hEarly
      exact .fed rfl (by simpa using hMute) (Nat.not_le.mp hEarly) (modTerminal_self _)
  · refine .spared _ ?_ ?_ fun _ => beq_false_of_ne hOther.symm
    · split <;> rfl
    · split
      · rw [setBellSuppressed_other hOther, modTerminal_of_ne hOther]
      · exact modTerminal_of_ne hOther _

theorem affects_bellQuietCb {u : Nat} (hDue : (gui.terminal u).quiet.any (fun due => due ≤ gui.now) = true) :
    Affects gui (gui.bellQuietCb u) t (.quietTimer u) := by
  rcases eq_or_ne t u with rfl | hOther
  · have hPast : ∃ due, (gui.terminal t).quiet = some due ∧ due ≤ gui.now := by
      cases hArmed : (gui.terminal t).quiet with
      | none =>
        rw [hArmed] at hDue
        cases hDue
      | some due =>
        rw [hArmed] at hDue
        exact ⟨due, rfl, of_decide_eq_true hDue⟩
    refine .fired rfl hPast ?_
    rw [bellQuietCb, setBellSuppressed_self, modTerminal_self]
    rfl
  · refine .spared _ rfl ?_ fun _ => rfl
    rw [bellQuietCb, setBellSuppressed_other hOther, modTerminal_of_ne hOther]

theorem affects_handle (hCan : gui.can gui.now e = true) (ht : t ∈ gui.all) (ht' : t ∈ (gui.handle e).all) :
    Affects gui (gui.handle e) t e := by
  cases e with
  | register u =>
    have hOther : t ≠ u := by
      rintro rfl
      simp [can, ht] at hCan
    refine .spared _ rfl ?_ fun _ => rfl
    change (gui.registerTerminal u).terminal t = _
    rw [registerTerminal, applyBell, modTerminal_of_ne hOther, modTerminal_of_ne hOther]
  | destroy u =>
    have hOther : t ≠ u := of_decide_eq_true (List.mem_filter.mp ht').2
    refine .spared _ rfl ?_ fun _ => rfl
    change (gui.terminalDestroyed u).terminal t = _
    rw [terminalDestroyed, modTerminal_of_ne hOther]
  | setAudibleBell enabled =>
    obtain ⟨hSetting, -, -, hTerminal⟩ := foldl_applyBell gui.all { gui with audibleBell := enabled }
    exact .setting enabled hSetting ((hTerminal t).trans (if_pos ht))
  | attachBridge u => exact affects_attachBridge
  | chunk u => exact affects_bellWindow
  | quietTimer u => exact affects_bellQuietCb (Bool.and_eq_true_iff.mp hCan).2

theorem handle_now (gui : Gui) (e : Event) : (gui.handle e).now = gui.now := by
  cases e with
  | setAudibleBell enabled => exact (foldl_applyBell gui.all { gui with audibleBell := enabled }).2.2.1
  | chunk u =>
    change (gui.bellWindow u).now = gui.now
    unfold bellWindow
    split
    · rfl
    · split <;> rfl
  | _ => rfl

theorem mem_all_handle (h : t ∈ (gui.handle e).all) : t ∈ gui.all ∨ e = .register t := by
  cases e with
  | register u =>
    rcases List.mem_cons.mp h with rfl | h
    · exact .inr rfl
    · exact .inl h
  | destroy u => exact .inl (List.mem_of_mem_filter h)
  | setAudibleBell enabled =>
    have hAll := (foldl_applyBell gui.all { gui with audibleBell := enabled }).2.1
    exact .inl (hAll ▸ h)
  | chunk u =>
    refine .inl ?_
    change t ∈ (gui.bellWindow u).all at h
    unfold bellWindow at h
    split at h
    · exact h
    · split at h <;> exact h
  | attachBridge | quietTimer => exact .inl h

theorem sound_register (gui : Gui) (t late : Nat) :
    ((gui.registerTerminal t).terminal t).Sound (gui.registerTerminal t).audibleBell late
      (gui.registerTerminal t).now := by
  have hNew : (gui.registerTerminal t).terminal t = { Terminal.blank with audible := gui.audibleBell && !false } := by
    rw [registerTerminal, applyBell, modTerminal_self, modTerminal_self]
    rfl
  rw [hNew]
  exact ⟨rfl, rfl, fun hMute => absurd hMute Bool.false_ne_true, fun hMute => absurd hMute Bool.false_ne_true⟩

theorem Affects.sound {gui' : Gui} (h : Affects gui gui' t e)
    (hSound : (gui.terminal t).Sound gui.audibleBell late gui.now)
    (hNow : gui'.now = gui.now) : (gui'.terminal t).Sound gui'.audibleBell late gui'.now := by
  cases h with
  | setting enabled hSetting h =>
    rw [h, hSetting, hNow]
    exact ⟨rfl, hSound.armed, hSound.fed, hSound.prompt⟩
  | attached hSetting h =>
    rw [h, hSetting, hNow]
    refine ⟨rfl, rfl, fun _ => ?_, fun _ => ?_⟩
    · change gui.now < gui.now + epiBellMax
      simp [epiBellMax]
    · change gui.now ≤ gui.now + epiBellQuiet + late
      omega
  | fed hSetting hMute hEarly h =>
    rw [h, hSetting, hNow]
    refine ⟨hSound.applied, ?_, fun _ => ?_, fun _ => ?_⟩
    · change some (gui.now + epiBellQuiet) = if (gui.terminal t).suppressed then some (gui.now + epiBellQuiet)
        else Option.none
      rw [if_pos hMute]
    · change gui.now < (gui.terminal t).attachedAt + epiBellMax
      omega
    · change gui.now ≤ gui.now + epiBellQuiet + late
      omega
  | limit hSetting _ h | fired hSetting _ h =>
    rw [h, hSetting, hNow]
    exact ⟨rfl, rfl, fun hMute => absurd hMute Bool.false_ne_true, fun hMute => absurd hMute Bool.false_ne_true⟩
  | spared _ hSetting h _ =>
    rw [h, hSetting, hNow]
    exact hSound

theorem Sound.tick (h : gui.Sound late) (hPrompt : gui.Prompt late now) :
    ({ gui with now := now } : Gui).Sound late := by
  intro t ht
  have hSound := h t ht
  refine ⟨hSound.applied, hSound.armed, hSound.fed, fun hMute => ?_⟩
  have hArmed := hSound.armed
  rw [if_pos hMute] at hArmed
  exact hPrompt t ht _ hArmed

theorem step_eq_some {gui' : Gui} (h : gui.step late (now, e) = some gui') :
    gui.now ≤ now ∧ gui.Prompt late now ∧ gui.can now e = true ∧ gui' = { gui with now := now }.handle e := by
  unfold step at h
  split at h
  · rename_i hOk
    cases h
    exact ⟨hOk.1, hOk.2.1, hOk.2.2, rfl⟩
  · cases h

theorem can_now (gui : Gui) (now : Nat) (e : Event) : ({ gui with now := now } : Gui).can now e = gui.can now e := by
  cases e <;> rfl

theorem affects_step {gui' : Gui} (h : gui.step late (now, e) = some gui') (ht : t ∈ gui.all) (ht' : t ∈ gui'.all) :
    Affects { gui with now := now } gui' t e := by
  obtain ⟨-, -, hCan, rfl⟩ := step_eq_some h
  rw [← can_now gui now e] at hCan
  exact affects_handle hCan ht ht'

theorem sound_step {gui' : Gui} (h : gui.Sound late) (hStep : gui.step late (now, e) = some gui') :
    gui'.Sound late := by
  obtain ⟨-, hPrompt, -, hEq⟩ := step_eq_some hStep
  have hTick := h.tick hPrompt
  intro t ht'
  have hNow : gui'.now = now := by
    rw [hEq]
    exact handle_now _ e
  rcases mem_all_handle (hEq ▸ ht') with ht | rfl
  · exact (affects_step hStep ht ht').sound (hTick t ht) hNow
  · rw [hEq]
    exact sound_register _ t late

/-- The times of a mute terminal are those of the events that fed it. -/
def Clocked (inputs : List (Nat × Event)) (gui : Gui) : Prop := ∀ t ∈ gui.all, (gui.terminal t).suppressed = true →
  lastTime (Event.feeds t) inputs = some (gui.terminal t).fedAt ∧
    lastTime (fun e => e == .attachBridge t) inputs = some (gui.terminal t).attachedAt

theorem clocked_step {gui' : Gui} {inputs : List (Nat × Event)} (h : gui.Clocked inputs)
    (hStep : gui.step late (now, e) = some gui') : gui'.Clocked (inputs ++ [(now, e)]) := by
  intro t ht' hMute'
  obtain ⟨-, -, -, hEq⟩ := step_eq_some hStep
  rw [lastTime_append, lastTime_append]
  rcases mem_all_handle (hEq ▸ ht') with ht | rfl
  · have hBefore := h t ht
    cases affects_step hStep ht ht' with
    | setting enabled _ hSame =>
      rw [hSame] at hMute' ⊢
      exact hBefore hMute'
    | attached _ hSame =>
      rw [hSame]
      simp [Event.feeds]
    | fed _ hMute _ hSame =>
      rw [hSame]
      exact ⟨if_pos (beq_self_eq_true t), (hBefore hMute).2⟩
    | limit _ _ hSame | fired _ _ hSame =>
      rw [hSame] at hMute'
      cases hMute'
    | spared _ _ hSame hUnfed =>
      rw [hSame] at hMute' ⊢
      have hOther := hUnfed hMute'
      have hUnattached : (e == Event.attachBridge t) = false := by
        apply beq_false_of_ne
        rintro rfl
        simp [Event.feeds] at hOther
      rw [hOther, hUnattached]
      exact hBefore hMute'
  · have hNew : (gui'.terminal t).suppressed = false := by
      rw [hEq]
      change (({ gui with now := now } : Gui).registerTerminal t |>.terminal t).suppressed = false
      rw [registerTerminal, applyBell, modTerminal_self, modTerminal_self]
      rfl
    rw [hNew] at hMute'
    cases hMute'

end Gui

theorem unmoved_flag {b : Bool} {p q : Prop} : (b = false → b = true → p) ∧ (b = true → b = false → q) := by
  cases b with
  | false => exact ⟨fun _ hOn => absurd hOn Bool.false_ne_true, fun hOn _ => absurd hOn Bool.false_ne_true⟩
  | true => exact ⟨fun hOff _ => absurd hOff.symm Bool.false_ne_true, fun _ hOff => absurd hOff.symm Bool.false_ne_true⟩

/-- In every run a terminal rings by the setting unless it is mute, and it is mute only while its timer runs: no longer
than the quiet time after the last attach or chunk, and than the limit after the attach. Only an attach makes it mute,
and it is opened only after the quiet time or at the limit. -/
theorem bell_window {late : Nat} {audibleBell : Bool} {inputs : List (Nat × Event)} {gui : Gui}
    (h : (machine late audibleBell).run inputs = some gui) {t : Nat} (ht : t ∈ gui.all) :
    (gui.terminal t).audible = (gui.audibleBell && !(gui.terminal t).suppressed) ∧
      ((gui.terminal t).suppressed = true →
        lastTime (Event.feeds t) inputs = some (gui.terminal t).fedAt ∧
          lastTime (fun e => e == .attachBridge t) inputs = some (gui.terminal t).attachedAt ∧
          (gui.terminal t).quiet = some ((gui.terminal t).fedAt + epiBellQuiet) ∧
          gui.now ≤ (gui.terminal t).fedAt + epiBellQuiet + late ∧
          gui.now < (gui.terminal t).attachedAt + epiBellMax + epiBellQuiet + late) ∧
      ∀ now e gui', gui.step late (now, e) = some gui' → t ∈ gui'.all →
        ((gui.terminal t).suppressed = false → (gui'.terminal t).suppressed = true → e = .attachBridge t) ∧
          ((gui.terminal t).suppressed = true → (gui'.terminal t).suppressed = false →
            (gui.terminal t).fedAt + epiBellQuiet ≤ now ∨ (gui.terminal t).attachedAt + epiBellMax ≤ now) := by
  have hAll : gui.Sound late := (machine late audibleBell).run_invariant (P := fun gui => gui.Sound late)
    (fun t ht => absurd ht List.not_mem_nil) (fun _ _ _ hs hStep => Gui.sound_step hs hStep) h
  have hClocked : gui.Clocked inputs := (machine late audibleBell).run_invariant_of_inputs
    (P := fun inputs gui => gui.Clocked inputs) (fun t ht => absurd ht List.not_mem_nil)
    (fun _ _ _ _ hs hStep => Gui.clocked_step hs hStep) h
  have hSound := hAll t ht
  refine ⟨hSound.applied, fun hMute => ?_, fun now e gui' hStep ht' => ?_⟩
  · have hArmed := hSound.armed
    rw [if_pos hMute] at hArmed
    have hPrompt := hSound.prompt hMute
    have hFed := hSound.fed hMute
    obtain ⟨hLast, hAttached⟩ := hClocked t ht hMute
    exact ⟨hLast, hAttached, hArmed, hPrompt, by omega⟩
  · have hAffects := Gui.affects_step hStep ht ht'
    cases hAffects with
    | setting enabled _ h =>
      rw [h]
      exact unmoved_flag
    | attached _ h =>
      rw [h]
      exact ⟨fun _ _ => rfl, fun _ hOff => absurd hOff.symm Bool.false_ne_true⟩
    | fed _ hMute _ h =>
      rw [h]
      exact unmoved_flag
    | limit _ hLate h =>
      rw [h]
      refine ⟨fun _ hOn => absurd hOn Bool.false_ne_true, fun _ _ => .inr ?_⟩
      change epiBellMax ≤ now - (gui.terminal t).attachedAt at hLate
      have hLimit : 0 < epiBellMax := by decide
      omega
    | fired _ hDue h =>
      rw [h]
      refine ⟨fun _ hOn => absurd hOn Bool.false_ne_true, fun hMute _ => .inl ?_⟩
      obtain ⟨due, hArmed, hPast⟩ := hDue
      have hSame := hSound.armed
      rw [if_pos hMute] at hSame
      cases hSame.symm.trans hArmed
      exact hPast
    | spared _ _ h _ =>
      rw [h]
      exact unmoved_flag

/-- A replay in two chunks; the bell is mute when the second comes, and rings again once its timer has fired. -/
def replayed : List (Nat × Event) :=
  [(10, .register 7), (20, .attachBridge 7), (100, .chunk 7), (150000, .setAudibleBell true), (180000, .chunk 7)]

theorem bell_window_replayed : ∃ gui, (machine 5 true).run replayed = some gui ∧
    (gui.terminal 7).audible = false ∧ (gui.terminal 7).quiet = some 380000 ∧
      ∀ gui', gui.step 5 (380002, .quietTimer 7) = some gui' → 7 ∈ gui'.all → (gui'.terminal 7).suppressed = false →
        (gui.terminal 7).fedAt + epiBellQuiet ≤ 380002 ∨ (gui.terminal 7).attachedAt + epiBellMax ≤ 380002 := by
  have hRun : ((machine 5 true).run replayed).any fun gui =>
      gui.all.contains 7 && (gui.terminal 7).suppressed && gui.audibleBell &&
        decide ((gui.terminal 7).fedAt = 180000) := by
    decide +kernel
  obtain ⟨gui, hGui, hState⟩ := (machine 5 true).exists_of_run_any hRun
  simp only [Bool.and_eq_true, List.contains_iff_mem, decide_eq_true_eq] at hState
  obtain ⟨⟨⟨ht, hMute⟩, hSetting⟩, hFed⟩ := hState
  obtain ⟨hApplied, hWindow, hSteps⟩ := bell_window hGui ht
  refine ⟨gui, hGui, ?_, ?_, fun gui' hStep ht' hOpen => (hSteps _ _ gui' hStep ht').2 hMute hOpen⟩
  · rw [hApplied, hMute, hSetting]
    rfl
  · rw [(hWindow hMute).2.2.1, hFed]
    rfl

end Epimone.Client.Bell
