import Epimone.Client.Shortcuts

/-! # One combination, one action

A captured combination is vetted against every other action, and nothing can
change between the vetting and "Set". A reset writes the default back without
looking, so the law holds as long as the default is still free.
-/
set_option autoImplicit false

namespace Epimone.Client

open Transition

namespace Gtk

variable (gtk : Gtk)

/-- What GTK parses the accelerators of the schema to. -/
def factoryCombination : ShortcutKey → Option (Keyval × Modifiers)
  | .newTab => some (0x74, 0x5)
  | .newWindow => some (0x6e, 0x5)
  | .preferences => some (0x2c, 0x4)
  | .overview => some (0x6f, 0x5)
  | .tabMoveLeft => some (0xff55, 0x5)
  | .tabMoveRight => some (0xff56, 0x5)
  | .splitRight => some (0x64, 0x5)
  | .splitDown => some (0x65, 0x5)
  | .closePane => some (0x77, 0x5)
  | .killPane => some (0x78, 0x5)
  | .zoom => some (0x7a, 0x5)
  | .openInNewTab => some (0x62, 0x5)
  | .focusLeft => some (Gdk.keyLeft, 0x8)
  | .focusRight => some (Gdk.keyRight, 0x8)
  | .focusUp => some (Gdk.keyUp, 0x8)
  | .focusDown => some (Gdk.keyDown, 0x8)
  | .copy => some (0x63, 0x5)
  | .paste => some (0x76, 0x5)
  | .selectAll => some (0x61, 0x5)
  | .setTitle | .readOnly | .reset | .resetAndClear | .selectNone => none

theorem factoryCombination_unbound (key : ShortcutKey) (h : key.schemaDefault = "") :
    factoryCombination key = none := by
  have hAll : ∀ key ∈ ShortcutKey.table, key.schemaDefault = "" → factoryCombination key = none := by
    decide +kernel
  exact hAll key key.mem_table h

theorem factoryCombination_distinct {key other : ShortcutKey} (hNe : key ≠ other)
    {combination : Keyval × Modifiers} (h : factoryCombination key = some combination) :
    factoryCombination other ≠ some combination := by
  have hAll : ∀ key ∈ ShortcutKey.table, ∀ other ∈ ShortcutKey.table, key ≠ other →
      factoryCombination key = none ∨ factoryCombination key ≠ factoryCombination other := by
    decide +kernel
  intro hOther
  rcases hAll key key.mem_table other other.mem_table hNe with hNone | hDiffer
  · exact nomatch h.symm.trans hNone
  · exact hDiffer (h.trans hOther.symm)

theorem factoryCombination_shifted {key : ShortcutKey} (hNe : key ≠ .preferences) {keyval : Keyval}
    {mods : Modifiers} (h : factoryCombination key = some (keyval, mods)) :
    (mods &&& (Gdk.controlMask ||| Gdk.shiftMask ||| Gdk.altMask ||| Gdk.superMask ||| Gdk.hyperMask |||
      Gdk.metaMask) == Gdk.controlMask) = false := by
  cases key <;> cases h <;> first | rfl | exact absurd rfl hNe

/-- What the GTK documentation promises of the parameter. -/
structure Documented : Prop where
  modMask : gtk.acceleratorGetDefaultModMask =
    Gdk.controlMask ||| Gdk.shiftMask ||| Gdk.altMask ||| Gdk.superMask ||| Gdk.hyperMask ||| Gdk.metaMask
  lowerComma : gtk.keyvalToLower 0x2c = 0x2c
  parsesDefaults : ∀ key : ShortcutKey, key.schemaDefault ≠ "" →
    gtk.acceleratorParse key.schemaDefault = factoryCombination key

def OneOwner (s : ShortcutSettings) : Prop :=
  ∀ key other, key ≠ other → ∀ combination, gtk.held s key = some combination → gtk.held s other ≠ some combination

/-- No action has a bare Ctrl+letter of the shell. -/
def SparesShell (s : ShortcutSettings) : Prop :=
  ∀ key keyval mods, gtk.held s key = some (keyval, mods) →
    gtk.isShellKey keyval (mods &&& gtk.acceleratorGetDefaultModMask) = false

/-- The default of the key is unbound, or no other action has taken its combination. -/
def DefaultFree (s : ShortcutSettings) (key : ShortcutKey) : Prop :=
  ∀ other, other ≠ key → ∀ combination, gtk.held (s.reset key) key = some combination →
    gtk.held s other ≠ some combination

end Gtk

/-- The key whose default the event writes back by itself. -/
def KeyboardPage.restored (page : KeyboardPage) : KeyboardEvent → Option ShortcutKey
  | .rowResetClicked key => some key
  | .captureResetClicked =>
    match page.dialog with
    | some (.capture cap) => some cap.row
    | _ => none
  | _ => none

section Settings

variable {gtk : Gtk} {s : ShortcutSettings} {key other : ShortcutKey}

@[simp] theorem dupAccel_setAccel_self (accel : String) : (s.setAccel key accel).dupAccel key = accel := by
  simp [ShortcutSettings.setAccel, ShortcutSettings.dupAccel]

theorem dupAccel_setAccel_other (h : other ≠ key) (accel : String) :
    (s.setAccel key accel).dupAccel other = s.dupAccel other := by
  simp [ShortcutSettings.setAccel, ShortcutSettings.dupAccel, Function.update_of_ne h]

theorem dupAccel_reset_self : (s.reset key).dupAccel key = key.schemaDefault := by
  simp [ShortcutSettings.reset, ShortcutSettings.dupAccel]

theorem dupAccel_reset_other (h : other ≠ key) : (s.reset key).dupAccel other = s.dupAccel other := by
  simp [ShortcutSettings.reset, ShortcutSettings.dupAccel, Function.update_of_ne h]

theorem held_setAccel_self (accel : String) :
    gtk.held (s.setAccel key accel) key = if accel = "" then none else gtk.acceleratorParse accel := by
  rw [Gtk.held, dupAccel_setAccel_self]

theorem held_setAccel_other (h : other ≠ key) (accel : String) :
    gtk.held (s.setAccel key accel) other = gtk.held s other := by
  rw [Gtk.held, dupAccel_setAccel_other h, Gtk.held]

theorem held_reset_other (h : other ≠ key) : gtk.held (s.reset key) other = gtk.held s other := by
  rw [Gtk.held, dupAccel_reset_other h, Gtk.held]

theorem held_reset_self : gtk.held (s.reset key) key = gtk.held (fun _ => none) key := by
  rw [Gtk.held, dupAccel_reset_self]
  rfl

theorem reset_foldl_apply (keys : List ShortcutKey) :
    keys.foldl ShortcutSettings.reset s key = if key ∈ keys then none else s key := by
  induction keys generalizing s with
  | nil => simp
  | cons first keys ih =>
    rw [List.foldl_cons, ih]
    by_cases hFirst : key = first
    · simp [hFirst, ShortcutSettings.reset]
    · simp [hFirst, ShortcutSettings.reset]

theorem resetAll_eq (s : ShortcutSettings) : s.resetAll = fun _ => none := by
  funext key
  rw [ShortcutSettings.resetAll, reset_foldl_apply, if_pos key.mem_table]

end Settings

section Vetting

variable {gtk : Gtk} {s : ShortcutSettings} {key : ShortcutKey} {accel : String}

/-- An accepted accelerator is not the shell's and is no other action's. -/
theorem checkAccel_ok (h : (gtk.checkAccel s accel key).verdict = .ok) (hSome : accel ≠ "") :
    ∃ keyval mods, gtk.acceleratorParse accel = some (keyval, mods) ∧
      gtk.isShellKey keyval (mods &&& gtk.acceleratorGetDefaultModMask) = false ∧
      gtk.accelOwner s key keyval (mods &&& gtk.acceleratorGetDefaultModMask) = none := by
  unfold Gtk.checkAccel at h
  rw [if_neg hSome] at h
  cases hParse : gtk.acceleratorParse accel with
  | none => rw [hParse] at h; cases h
  | some combination =>
    obtain ⟨keyval, mods⟩ := combination
    simp only [hParse] at h
    split at h
    · cases h
    · split at h
      · cases h
      · split at h
        · cases h
        · rename_i hShell
          split at h
          · cases h
          · rename_i hOwner
            exact ⟨keyval, mods, rfl, Bool.eq_false_iff.mpr hShell, hOwner⟩

theorem not_held_of_accelOwner {keyval : Keyval} {mods : Modifiers}
    (h : gtk.accelOwner s key keyval (mods &&& gtk.acceleratorGetDefaultModMask) = none) {other : ShortcutKey}
    (hOther : other ≠ key) : gtk.held s other ≠ some (keyval, mods) := by
  intro hHeld
  have hNot := List.find?_eq_none.mp h other other.mem_table
  simp [hOther, hHeld] at hNot

end Vetting

section Changed

variable {gtk : Gtk} {s : ShortcutSettings} {key : ShortcutKey}

theorem oneOwner_of_changed {t : ShortcutSettings} (h : gtk.OneOwner s)
    (hOther : ∀ other, other ≠ key → gtk.held t other = gtk.held s other)
    (hFree : ∀ other, other ≠ key → ∀ combination, gtk.held t key = some combination →
      gtk.held s other ≠ some combination) : gtk.OneOwner t := by
  intro first second hNe combination hFirst hSecond
  by_cases hKey : first = key
  · subst hKey
    exact hFree second hNe.symm combination hFirst ((hOther second hNe.symm).symm.trans hSecond)
  · rw [hOther first hKey] at hFirst
    by_cases hKey' : second = key
    · subst hKey'
      exact hFree first hKey combination hSecond hFirst
    · exact h first second hNe combination hFirst ((hOther second hKey').symm.trans hSecond)

theorem sparesShell_of_changed {t : ShortcutSettings} (h : gtk.SparesShell s)
    (hOther : ∀ other, other ≠ key → gtk.held t other = gtk.held s other)
    (hKey : ∀ keyval mods, gtk.held t key = some (keyval, mods) →
      gtk.isShellKey keyval (mods &&& gtk.acceleratorGetDefaultModMask) = false) : gtk.SparesShell t := by
  intro other keyval mods hHeld
  by_cases hNe : other = key
  · subst hNe
    exact hKey keyval mods hHeld
  · exact h other keyval mods ((hOther other hNe).symm.trans hHeld)

theorem laws_setAccel {accel : String} (hOwner : gtk.OneOwner s) (hShell : gtk.SparesShell s)
    (h : (gtk.checkAccel s accel key).verdict = .ok) :
    gtk.OneOwner (s.setAccel key accel) ∧ gtk.SparesShell (s.setAccel key accel) := by
  have hOther : ∀ other, other ≠ key → gtk.held (s.setAccel key accel) other = gtk.held s other :=
    fun other hNe => held_setAccel_other hNe accel
  by_cases hEmpty : accel = ""
  · have hNone : gtk.held (s.setAccel key accel) key = none := by
      rw [held_setAccel_self, if_pos hEmpty]
    constructor
    · exact oneOwner_of_changed hOwner hOther fun other _ combination hHeld =>
        nomatch hNone.symm.trans hHeld
    · exact sparesShell_of_changed hShell hOther fun keyval mods hHeld => nomatch hNone.symm.trans hHeld
  · obtain ⟨keyval, mods, hParse, hNotShell, hNone⟩ := checkAccel_ok h hEmpty
    have hSelf : gtk.held (s.setAccel key accel) key = some (keyval, mods) := by
      rw [held_setAccel_self, if_neg hEmpty, hParse]
    constructor
    · apply oneOwner_of_changed hOwner hOther
      intro other hNe combination hHeld
      cases hSelf.symm.trans hHeld
      exact not_held_of_accelOwner hNone hNe
    · apply sparesShell_of_changed hShell hOther
      intro keyval' mods' hHeld
      cases hSelf.symm.trans hHeld
      exact hNotShell

end Changed

section Defaults

variable {gtk : Gtk} (hGtk : gtk.Documented)

include hGtk

theorem held_default (key : ShortcutKey) : gtk.held (fun _ => none) key = Gtk.factoryCombination key := by
  rw [Gtk.held]
  change (if key.schemaDefault = "" then none else gtk.acceleratorParse key.schemaDefault) = _
  split
  · rename_i hEmpty
    exact (Gtk.factoryCombination_unbound key hEmpty).symm
  · rename_i hSome
    exact hGtk.parsesDefaults key hSome

/-- The defaults of the schema are pairwise distinct. -/
theorem oneOwner_default : gtk.OneOwner fun _ => none := by
  intro key other hNe combination hKey hOther
  rw [held_default hGtk] at hKey hOther
  exact Gtk.factoryCombination_distinct hNe hKey hOther

theorem sparesShell_default : gtk.SparesShell fun _ => none := by
  intro key keyval mods hHeld
  rw [held_default hGtk] at hHeld
  rw [Gtk.isShellKey, hGtk.modMask]
  by_cases hComma : key = .preferences
  · subst hComma
    cases hHeld
    rw [hGtk.lowerComma]
    decide
  · rw [Gtk.factoryCombination_shifted hComma hHeld, Bool.false_and]

end Defaults

section Steps

variable {gtk : Gtk} {page next : KeyboardPage}

/-- What an open capture is ready to store has been vetted against the settings as they are. -/
def KeyboardPage.Accepted (gtk : Gtk) (page : KeyboardPage) : Prop :=
  ∀ cap, page.dialog = some (.capture cap) → cap.keyval ≠ 0 →
    (gtk.checkAccel page.settings (gtk.acceleratorName cap.keyval cap.modifier) cap.row).verdict = .ok

/-- What one event can do to the settings. -/
inductive KeyboardPage.Changed (gtk : Gtk) (page : KeyboardPage) (restored : Option ShortcutKey) :
    KeyboardPage → Prop where
  | kept {next : KeyboardPage} (hSettings : next.settings = page.settings) (hAccepted : next.Accepted gtk)
      (hRestored : restored = none) : Changed gtk page restored next
  | stored (key : ShortcutKey) (accel : String) (hOk : (gtk.checkAccel page.settings accel key).verdict = .ok)
      (hRestored : restored = none) : Changed gtk page restored ⟨page.settings.setAccel key accel, none⟩
  | reset (key : ShortcutKey) (hRestored : restored = some key) :
      Changed gtk page restored ⟨page.settings.reset key, none⟩
  | resetAll (hRestored : restored = none) : Changed gtk page restored ⟨page.settings.resetAll, none⟩

theorem accepted_of_no_dialog (h : page.dialog = none) : page.Accepted gtk :=
  fun _ hCap _ => nomatch h.symm.trans hCap

theorem changed_keyPressed {cap : EpimoneAccelCapture} (hAccepted : page.Accepted gtk)
    (keyval keycode : UInt32) (state : Modifiers) (isModifier : Bool) :
    page.Changed gtk none (page.captureKeyPressed gtk cap keyval keycode state isModifier) := by
  unfold KeyboardPage.captureKeyPressed
  split
  · exact .kept rfl hAccepted rfl
  · simp only []
    split
    · exact .kept rfl (accepted_of_no_dialog rfl) rfl
    · split
      · exact .stored cap.row "" rfl rfl
      · refine .kept rfl ?_ rfl
        intro cap' hCap hKeyval
        cases hCap
        unfold EpimoneAccelCapture.tried at hKeyval ⊢
        by_cases hVerdict : (gtk.checkAccel page.settings (gtk.acceleratorName
            (gtk.captureModifier (gtk.captureKeyval keyval state).1 keyval state).1
            (gtk.captureModifier (gtk.captureKeyval keyval state).1 keyval state).2) cap.row).verdict = .ok
        · simp [hVerdict]
        · simp [hVerdict, EpimoneAccelCapture.showError] at hKeyval

theorem changed_setClicked {cap : EpimoneAccelCapture} (hAccepted : page.Accepted gtk)
    (hDialog : page.dialog = some (.capture cap)) : page.Changed gtk none (page.captureSetClicked gtk cap) := by
  unfold KeyboardPage.captureSetClicked
  split
  · exact .kept rfl hAccepted rfl
  · rename_i hKeyval
    exact .stored cap.row _ (hAccepted cap hDialog hKeyval) rfl

theorem changed_of_step {event : KeyboardEvent} (hAccepted : page.Accepted gtk)
    (h : page.step gtk event = some next) : page.Changed gtk (page.restored event) next := by
  cases hDialog : page.dialog with
  | none =>
    cases event with
    | rowActivated key =>
      simp only [KeyboardPage.step, hDialog] at h
      cases h
      refine .kept rfl ?_ rfl
      rintro cap ⟨⟩ hKeyval
      exact absurd rfl hKeyval
    | rowResetClicked key =>
      simp only [KeyboardPage.step, hDialog] at h
      split at h
      · cases h
        exact .reset key rfl
      · cases h
    | resetAllClicked =>
      simp only [KeyboardPage.step, hDialog] at h
      cases h
      exact .kept rfl (fun _ hCap => nomatch hCap) rfl
    | _ =>
      simp only [KeyboardPage.step, hDialog] at h
      cases h
  | some dialog =>
    cases dialog with
    | capture cap =>
      cases event with
      | keyPressed keyval keycode state isModifier =>
        simp only [KeyboardPage.step, hDialog] at h
        cases h
        exact changed_keyPressed hAccepted keyval keycode state isModifier
      | setClicked =>
        simp only [KeyboardPage.step, hDialog] at h
        cases h
        exact changed_setClicked hAccepted hDialog
      | cancelClicked =>
        simp only [KeyboardPage.step, hDialog] at h
        cases h
        exact .kept rfl (accepted_of_no_dialog rfl) rfl
      | captureResetClicked =>
        simp only [KeyboardPage.step, hDialog] at h
        split at h
        · cases h
          exact .reset cap.row (by rw [KeyboardPage.restored, hDialog])
        · cases h
      | _ =>
        simp only [KeyboardPage.step, hDialog] at h
        cases h
    | resetAll =>
      cases event with
      | resetAllResponse reset =>
        simp only [KeyboardPage.step, hDialog] at h
        cases reset with
        | true => cases h; exact .resetAll rfl
        | false => cases h; exact .kept rfl (accepted_of_no_dialog rfl) rfl
      | captureResetClicked =>
        simp only [KeyboardPage.step, hDialog] at h
        cases h
      | _ =>
        simp only [KeyboardPage.step, hDialog] at h
        cases h

end Steps

/-- The invariant of the page. -/
structure KeyboardPage.Vetted (gtk : Gtk) (page : KeyboardPage) : Prop where
  oneOwner : gtk.OneOwner page.settings
  sparesShell : gtk.SparesShell page.settings
  accepted : page.Accepted gtk

section Laws

variable {gtk : Gtk} {page next : KeyboardPage} {event : KeyboardEvent}

theorem vetted_init (hGtk : gtk.Documented) : (keyboardPage gtk).init.Vetted gtk where
  oneOwner := oneOwner_default hGtk
  sparesShell := sparesShell_default hGtk
  accepted := accepted_of_no_dialog rfl

theorem vetted_step (hGtk : gtk.Documented) (h : page.Vetted gtk) (hStep : page.step gtk event = some next)
    (hFree : ∀ key, page.restored event = some key → gtk.DefaultFree page.settings key) : next.Vetted gtk := by
  cases changed_of_step h.accepted hStep with
  | kept hSettings hAccepted _ => exact ⟨hSettings ▸ h.oneOwner, hSettings ▸ h.sparesShell, hAccepted⟩
  | stored key accel hOk _ =>
    obtain ⟨hOwner, hShell⟩ := laws_setAccel h.oneOwner h.sparesShell hOk
    exact ⟨hOwner, hShell, accepted_of_no_dialog rfl⟩
  | reset key hRestored =>
    have hOther : ∀ other, other ≠ key → gtk.held (page.settings.reset key) other = gtk.held page.settings other :=
      fun other hNe => held_reset_other hNe
    refine ⟨?_, ?_, accepted_of_no_dialog rfl⟩
    · exact oneOwner_of_changed h.oneOwner hOther (hFree key hRestored)
    · apply sparesShell_of_changed h.sparesShell hOther
      intro keyval mods hHeld
      exact sparesShell_default hGtk key keyval mods (held_reset_self.symm.trans hHeld)
  | resetAll _ =>
    rw [resetAll_eq]
    exact vetted_init hGtk

/-- A default that another action has taken breaks the law at once. -/
theorem defaultFree_of_oneOwner (h : page.Accepted gtk) (hStep : page.step gtk event = some next)
    (hOwner : gtk.OneOwner next.settings) {key : ShortcutKey} (hRestored : page.restored event = some key) :
    gtk.DefaultFree page.settings key := by
  cases changed_of_step h hStep with
  | reset key' hRestored' =>
    cases hRestored.symm.trans hRestored'
    intro other hNe combination hHeld hOther
    exact hOwner key other hNe.symm combination hHeld ((held_reset_other hNe).trans hOther)
  | kept _ _ hNone => exact nomatch hRestored.symm.trans hNone
  | stored _ _ _ hNone => exact nomatch hRestored.symm.trans hNone
  | resetAll hNone => exact nomatch hRestored.symm.trans hNone

end Laws

/-- The two laws hold all along a use of the page just if no default is written back to its key
while another action has its combination. -/
theorem one_owner_iff_defaults_free {gtk : Gtk} (hGtk : gtk.Documented) {events : List KeyboardEvent}
    {final : KeyboardPage} (h : (keyboardPage gtk).run events = some final) :
    (∀ before after page, events = before ++ after → (keyboardPage gtk).run before = some page →
        gtk.OneOwner page.settings ∧ gtk.SparesShell page.settings) ↔
      ∀ before event after page, events = before ++ event :: after → (keyboardPage gtk).run before = some page →
        ∀ key, page.restored event = some key → gtk.DefaultFree page.settings key := by
  have hProp : ∀ page : KeyboardPage, page.Vetted gtk → gtk.OneOwner page.settings ∧ gtk.SparesShell page.settings :=
    fun page hPage => ⟨hPage.oneOwner, hPage.sparesShell⟩
  have hKeep : ∀ page event next, KeyboardPage.Vetted gtk page → (keyboardPage gtk).step page event = some next →
      (∀ key, page.restored event = some key → gtk.DefaultFree page.settings key) → next.Vetted gtk :=
    fun page event next hPage hStep hFree => vetted_step hGtk hPage hStep hFree
  have hExact : ∀ page event next, KeyboardPage.Vetted gtk page → (keyboardPage gtk).step page event = some next →
      gtk.OneOwner next.settings ∧ gtk.SparesShell next.settings →
      ∀ key, page.restored event = some key → gtk.DefaultFree page.settings key :=
    fun page event next hPage hStep hNext key hRestored =>
      defaultFree_of_oneOwner hPage.accepted hStep hNext.1 hRestored
  exact (keyboardPage gtk).always_iff hProp hKeep hExact (vetted_init hGtk) h

/-- The texts of the runs below, in the spelling of gtk_accelerator_name, and those of the schema. -/
def accelTexts : List (String × (Keyval × Modifiers)) :=
  [("<Shift><Control>t", (0x74, 0x5)), ("<Control><Alt>t", (0x74, 0xc))] ++
    ShortcutKey.table.filterMap fun key => (Gtk.factoryCombination key).map fun combination =>
      (key.schemaDefault, combination)

def tableGtk : Gtk where
  acceleratorParse text := (accelTexts.find? fun entry => entry.1 == text).map fun entry => entry.2
  acceleratorValid keyval _ := keyval != 0
  acceleratorName keyval mods :=
    ((accelTexts.find? fun entry => entry.2 == (keyval, mods)).map fun entry => entry.1).getD ""
  acceleratorGetLabel _ mods := if mods = 0x5 then "Shift+Ctrl+T" else "Ctrl+Alt+T"
  acceleratorGetDefaultModMask := 0x1c00000d
  keyvalToLower keyval := if 0x41 ≤ keyval ∧ keyval ≤ 0x5a then keyval + 0x20 else keyval
  keyvalToUnicode keyval := if keyval < 0x80 then keyval.toNat else 0

theorem documented_tableGtk : tableGtk.Documented where
  modMask := by decide
  lowerComma := by decide
  parsesDefaults := by
    have hAll : ∀ key ∈ ShortcutKey.table, key.schemaDefault ≠ "" →
        tableGtk.acceleratorParse key.schemaDefault = Gtk.factoryCombination key := by
      decide +kernel
    exact fun key => hAll key key.mem_table

/-- "New Tab" moves to Ctrl+Alt+T, and "New Window" takes the Ctrl+Shift+T that it left. -/
def rebindings : List KeyboardEvent :=
  [.rowActivated .newTab, .keyPressed 0x74 28 0xc false, .setClicked,
    .rowActivated .newWindow, .keyPressed 0x54 28 0x5 false, .setClicked]

theorem one_owner_rebindings : ∃ page, (keyboardPage tableGtk).run rebindings = some page ∧
    tableGtk.OneOwner page.settings ∧ tableGtk.SparesShell page.settings := by
  obtain ⟨final, hRun, -⟩ := (keyboardPage tableGtk).exists_of_run_any
    (show ((keyboardPage tableGtk).run rebindings).any (fun _ => true) = true by decide +kernel)
  refine ⟨final, hRun, (one_owner_iff_defaults_free documented_tableGtk hRun).mpr ?_ rebindings [] final
    (List.append_nil rebindings).symm hRun⟩
  intro before event after page hSplit _ key hRestored
  have hMem : event ∈ rebindings := by rw [hSplit]; simp
  simp only [rebindings, List.mem_cons, List.not_mem_nil, or_false] at hMem
  rcases hMem with rfl | rfl | rfl | rfl | rfl | rfl <;> cases hRestored

/-- Reset, "New Tab" has Ctrl+Shift+T again, and so has "New Window". -/
theorem reset_takes_combination :
    ∃ page, (keyboardPage tableGtk).run (rebindings ++ [.rowResetClicked .newTab]) = some page ∧
    ¬ tableGtk.OneOwner page.settings := by
  obtain ⟨page, hRun, hHeld⟩ := (keyboardPage tableGtk).exists_of_run_any
    (show ((keyboardPage tableGtk).run (rebindings ++ [.rowResetClicked .newTab])).any (fun page =>
      tableGtk.held page.settings .newTab == some (0x74, 0x5) &&
        tableGtk.held page.settings .newWindow == some (0x74, 0x5)) = true by decide +kernel)
  rw [Bool.and_eq_true, beq_iff_eq, beq_iff_eq] at hHeld
  exact ⟨page, hRun, fun hOwner => hOwner .newTab .newWindow (by decide) _ hHeld.1 hHeld.2⟩

end Epimone.Client
