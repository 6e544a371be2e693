import Mathlib.Logic.Function.Basic
import Epimone.Library.Transition

/-! # Keyboard shortcuts

The accelerator table of epimone-shortcuts.c and the Keyboard page that rebinds
it. GTK's own accelerator functions are a parameter; the texts in the settings
mean what GTK parses them to.
-/
set_option autoImplicit false

namespace Epimone.Client

open Transition

/-- The settings keys of epimone_shortcut_table. -/
inductive ShortcutKey where
  | newTab | newWindow | setTitle | preferences | overview | tabMoveLeft | tabMoveRight
  | splitRight | splitDown | closePane | killPane | zoom | openInNewTab | readOnly
  | reset | resetAndClear | focusLeft | focusRight | focusUp | focusDown
  | copy | paste | selectAll | selectNone
  deriving DecidableEq, Repr

namespace ShortcutKey

/-- epimone_shortcut_table, in page order. -/
def table : List ShortcutKey :=
  [newTab, newWindow, setTitle, preferences, overview, tabMoveLeft, tabMoveRight,
    splitRight, splitDown, closePane, killPane, zoom, openInNewTab, readOnly,
    reset, resetAndClear, focusLeft, focusRight, focusUp, focusDown,
    copy, paste, selectAll, selectNone]

theorem mem_table (key : ShortcutKey) : key ∈ table := by
  cases key <;> decide

def label : ShortcutKey → String
  | newTab => "New Tab"
  | newWindow => "New Window"
  | setTitle => "Set Title"
  | preferences => "Preferences"
  | overview => "All Sessions"
  | tabMoveLeft => "Move Tab Left"
  | tabMoveRight => "Move Tab Right"
  | splitRight => "Split Right"
  | splitDown => "Split Down"
  | closePane => "Detach Pane"
  | killPane => "Kill Pane"
  | zoom => "Zoom Pane"
  | openInNewTab => "Open in New Tab"
  | readOnly => "Read-Only"
  | reset => "Reset"
  | resetAndClear => "Reset and Clear"
  | focusLeft => "Focus Pane Left"
  | focusRight => "Focus Pane Right"
  | focusUp => "Focus Pane Up"
  | focusDown => "Focus Pane Down"
  | copy => "Copy"
  | paste => "Paste"
  | selectAll => "Select All"
  | selectNone => "Select None"

/-- The defaults of the schema org.felix.Epimone.shortcuts. -/
def schemaDefault : ShortcutKey → String
  | newTab => "<Control><Shift>t"
  | newWindow => "<Control><Shift>n"
  | setTitle => ""
  | preferences => "<Control>comma"
  | overview => "<Control><Shift>o"
  | tabMoveLeft => "<Control><Shift>Page_Up"
  | tabMoveRight => "<Control><Shift>Page_Down"
  | splitRight => "<Control><Shift>d"
  | splitDown => "<Control><Shift>e"
  | closePane => "<Control><Shift>w"
  | killPane => "<Control><Shift>x"
  | zoom => "<Control><Shift>z"
  | openInNewTab => "<Control><Shift>b"
  | readOnly => ""
  | reset => ""
  | resetAndClear => ""
  | focusLeft => "<Alt>Left"
  | focusRight => "<Alt>Right"
  | focusUp => "<Alt>Up"
  | focusDown => "<Alt>Down"
  | copy => "<Control><Shift>c"
  | paste => "<Control><Shift>v"
  | selectAll => "<Control><Shift>a"
  | selectNone => ""

end ShortcutKey

/-- A keyval of GDK. -/
abbrev Keyval := UInt32

/-- A set of GdkModifierType flags. -/
abbrev Modifiers := UInt32

namespace Gdk

def keyReturn : Keyval := 0xff0d
def keyKPEnter : Keyval := 0xff8d
def keyISOEnter : Keyval := 0xfe34
def keyTab : Keyval := 0xff09
def keyKPTab : Keyval := 0xff89
def keyISOLeftTab : Keyval := 0xfe20
def keyEscape : Keyval := 0xff1b
def keyBackSpace : Keyval := 0xff08
def keySpace : Keyval := 0x020
def keySysReq : Keyval := 0xff15
def keyPrint : Keyval := 0xff61
def keyLeft : Keyval := 0xff51
def keyUp : Keyval := 0xff52
def keyRight : Keyval := 0xff53
def keyDown : Keyval := 0xff54

def shiftMask : Modifiers := 0x1
def lockMask : Modifiers := 0x2
def controlMask : Modifiers := 0x4
def altMask : Modifiers := 0x8
def superMask : Modifiers := 0x4000000
def hyperMask : Modifiers := 0x8000000
def metaMask : Modifiers := 0x10000000

end Gdk

/-- What the program uses of GDK and GTK. -/
structure Gtk where
  acceleratorParse : String → Option (Keyval × Modifiers)
  acceleratorValid : Keyval → Modifiers → Bool
  acceleratorName : Keyval → Modifiers → String
  acceleratorGetLabel : Keyval → Modifiers → String
  acceleratorGetDefaultModMask : Modifiers
  keyvalToLower : Keyval → Keyval
  keyvalToUnicode : Keyval → Nat

/-- epimone_reserved_ctrl_keys: c, d, z, l, a, e, k, u, w, r. -/
def reservedCtrlKeys : List Keyval := [0x63, 0x64, 0x7a, 0x6c, 0x61, 0x65, 0x6b, 0x75, 0x77, 0x72]

def modifierNames : List (List Char) :=
  ["Ctrl".toList, "Shift".toList, "Alt".toList, "Super".toList, "Meta".toList, "Hyper".toList]

/-- A modifier name with its "+" in front of a non-empty remainder. -/
def stripModifier (rest : List Char) : Option (List Char × List Char) :=
  modifierNames.findSome? fun name =>
    if (name ++ ['+']).isPrefixOf rest && decide (name.length + 1 < rest.length)
    then some (name, rest.drop (name.length + 1)) else none

/-- The loop over the modifiers; every round takes characters, so `fuel` is the length of the label. -/
def stripModifiers : Nat → List (List Char) → List Char → List (List Char) × List Char
  | 0, found, rest => (found, rest)
  | fuel + 1, found, rest =>
    match stripModifier rest with
    | none => (found, rest)
    | some (name, rest) => stripModifiers fuel (name :: found) rest

/-- GTK's label with its modifiers in the order Ctrl, Shift, Alt, Super. -/
def conventionalLabel (gtkLabel : String) : String :=
  let (found, rest) := stripModifiers gtkLabel.toList.length [] gtkLabel.toList
  String.ofList ((modifierNames.filter found.contains).flatMap (· ++ ['+']) ++ rest)

inductive EpimoneAccelVerdict where
  | ok
  | unparsable
  | noModifier
  | shellKey
  | conflict
  deriving DecidableEq, Repr

/-- What epimone_shortcuts_check_accel returns, with its two out-parameters. -/
structure AccelCheck where
  verdict : EpimoneAccelVerdict
  message : Option String
  conflict : Option ShortcutKey
  deriving DecidableEq, Repr

/-- The values of the keys that the user has set. -/
abbrev ShortcutSettings := ShortcutKey → Option String

namespace ShortcutSettings

variable (s : ShortcutSettings)

def dupAccel (key : ShortcutKey) : String := (s key).getD key.schemaDefault

def setAccel (key : ShortcutKey) (accel : String) : ShortcutSettings := Function.update s key (some accel)

def reset (key : ShortcutKey) : ShortcutSettings := Function.update s key none

def resetAll : ShortcutSettings := ShortcutKey.table.foldl reset s

end ShortcutSettings

namespace Gtk

variable (gtk : Gtk)

def formatLabel (keyval : Keyval) (mods : Modifiers) : String :=
  conventionalLabel (gtk.acceleratorGetLabel keyval mods)

def isPlainInput (keyval : Keyval) : Bool :=
  [Gdk.keyReturn, Gdk.keyKPEnter, Gdk.keyISOEnter, Gdk.keyTab, Gdk.keyKPTab, Gdk.keyISOLeftTab, Gdk.keyEscape,
    Gdk.keyBackSpace, Gdk.keySpace].contains keyval || gtk.keyvalToUnicode keyval != 0

def held (s : ShortcutSettings) (key : ShortcutKey) : Option (Keyval × Modifiers) :=
  if s.dupAccel key = "" then none else gtk.acceleratorParse (s.dupAccel key)

/-- A Ctrl+letter of the shell, with no other modifier. -/
def isShellKey (keyval : Keyval) (mods : Modifiers) : Bool :=
  mods == Gdk.controlMask && reservedCtrlKeys.contains (gtk.keyvalToLower keyval)

/-- The first other action of the table that has the combination. -/
def accelOwner (s : ShortcutSettings) (key : ShortcutKey) (keyval : Keyval) (mods : Modifiers) : Option ShortcutKey :=
  ShortcutKey.table.find? fun other =>
    decide (other ≠ key) &&
      match gtk.held s other with
      | none => false
      | some (otherKeyval, otherMods) =>
        otherKeyval == keyval && otherMods &&& gtk.acceleratorGetDefaultModMask == mods

def checkAccel (s : ShortcutSettings) (accel : String) (key : ShortcutKey) : AccelCheck :=
  if accel = "" then ⟨.ok, none, none⟩
  else
    match gtk.acceleratorParse accel with
    | none => ⟨.unparsable, some "That key combination cannot be used as a shortcut.", none⟩
    | some (keyval, parsed) =>
      if !gtk.acceleratorValid keyval parsed then
        ⟨.unparsable, some "That key combination cannot be used as a shortcut.", none⟩
      else
        let label := gtk.formatLabel keyval parsed
        let mods := parsed &&& gtk.acceleratorGetDefaultModMask
        if mods = 0 ∨ (mods = Gdk.shiftMask ∧ gtk.isPlainInput keyval) then
          ⟨.noModifier, some (label ++ " needs a modifier such as Ctrl, Alt or Super. On its own it would " ++
            "stop reaching the shell."), none⟩
        else if gtk.isShellKey keyval mods then
          ⟨.shellKey, some (label ++ " belongs to the shell and cannot be used as a shortcut."), none⟩
        else
          match gtk.accelOwner s key keyval mods with
          | some other =>
            ⟨.conflict, some (label ++ " is already used by “" ++ other.label ++
              "”. Change or unbind that shortcut first."), some other⟩
          | none => ⟨.ok, none, none⟩

end Gtk

/-- EpimoneAccelCapture: one open capture dialog; `editing` while it listens for a key. -/
structure EpimoneAccelCapture where
  row : ShortcutKey
  keyval : Keyval
  modifier : Modifiers
  editing : Bool
  error : Option String
  confirm : Option String
  deriving DecidableEq, Repr

/-- The dialog over the page: a capture, or the question of "Reset All". -/
inductive KeyboardDialog where
  | capture (cap : EpimoneAccelCapture)
  | resetAll
  deriving DecidableEq, Repr

structure KeyboardPage where
  settings : ShortcutSettings
  dialog : Option KeyboardDialog

/-- What the user does on the page and in its dialogs. -/
inductive KeyboardEvent where
  | rowActivated (key : ShortcutKey)
  | keyPressed (keyval keycode : UInt32) (state : Modifiers) (isModifier : Bool)
  | setClicked
  | cancelClicked
  | captureResetClicked
  | rowResetClicked (key : ShortcutKey)
  | resetAllClicked
  | resetAllResponse (reset : Bool)
  deriving DecidableEq, Repr

/-- epimone_settings_capture_should_drop_shift. -/
def captureShouldDropShift (was is : Keyval) : Bool :=
  let arrows := [Gdk.keyLeft, Gdk.keyRight, Gdk.keyUp, Gdk.keyDown]
  if arrows.contains was || arrows.contains is then false else was == is

/-- The key that is shown for a key press, in lower case. -/
def Gtk.captureKeyval (gtk : Gtk) (keyval : Keyval) (state : Modifiers) : Keyval × Modifiers :=
  let realMask := state &&& gtk.acceleratorGetDefaultModMask
  let lower := gtk.keyvalToLower keyval
  let lower := if lower = Gdk.keyISOLeftTab then Gdk.keyTab else lower
  let realMask := if lower ≠ keyval then realMask ||| Gdk.shiftMask else realMask
  let lower := if lower = Gdk.keySysReq ∧ realMask &&& Gdk.altMask ≠ 0 then Gdk.keyPrint else lower
  (lower, realMask)

/-- The combination that a capture stores for a key press. -/
def Gtk.captureModifier (gtk : Gtk) (lower keyval : Keyval) (state : Modifiers) : Keyval × Modifiers :=
  let modifier := state &&& gtk.acceleratorGetDefaultModMask &&& ~~~Gdk.lockMask
  let modifier :=
    if state &&& Gdk.shiftMask ≠ 0 ∧ captureShouldDropShift lower keyval then modifier &&& ~~~Gdk.shiftMask
    else modifier
  let modifier := if state &&& Gdk.lockMask = 0 ∧ lower ≠ keyval then modifier ||| Gdk.shiftMask else modifier
  if lower = Gdk.keyISOLeftTab ∧ modifier = Gdk.controlMask then (Gdk.keyTab, Gdk.controlMask ||| Gdk.shiftMask)
  else (lower, modifier)

namespace EpimoneAccelCapture

def opened (row : ShortcutKey) : EpimoneAccelCapture := ⟨row, 0, 0, true, none, none⟩

variable (cap : EpimoneAccelCapture)

def showError (message : Option String) : EpimoneAccelCapture :=
  { cap with error := message, confirm := none, editing := true, keyval := 0, modifier := 0 }

/-- The last part of epimone_settings_capture_key_pressed_cb, with the combination to try. -/
def tried (gtk : Gtk) (s : ShortcutSettings) (keyval : Keyval) (modifier : Modifiers) : EpimoneAccelCapture :=
  let check := gtk.checkAccel s (gtk.acceleratorName keyval modifier) cap.row
  let cap := { cap with keyval := keyval, modifier := modifier }
  if check.verdict ≠ .ok then cap.showError check.message
  else { cap with confirm := some (gtk.formatLabel keyval modifier), error := none, editing := false }

end EpimoneAccelCapture

namespace KeyboardPage

variable (page : KeyboardPage)

/-- epimone_settings_capture_commit: the accelerator is stored and the dialog closes. -/
def captureCommit (cap : EpimoneAccelCapture) (accel : String) : KeyboardPage :=
  ⟨page.settings.setAccel cap.row accel, none⟩

def captureKeyPressed (gtk : Gtk) (cap : EpimoneAccelCapture) (keyval keycode : UInt32) (state : Modifiers)
    (isModifier : Bool) : KeyboardPage :=
  -- the fn key of a macbook, a key after the capture, a modifier by itself
  if keycode = 0x01D8 ∨ cap.editing = false ∨ isModifier = true then page
  else
    let (lower, realMask) := gtk.captureKeyval keyval state
    if realMask = 0 ∧ lower = Gdk.keyEscape then { page with dialog := none }
    else if realMask = 0 ∧ lower = Gdk.keyBackSpace then page.captureCommit cap ""
    else
      let (capKeyval, modifier) := gtk.captureModifier lower keyval state
      { page with dialog := some (.capture (cap.tried gtk page.settings capKeyval modifier)) }

def captureSetClicked (gtk : Gtk) (cap : EpimoneAccelCapture) : KeyboardPage :=
  if cap.keyval = 0 then page
  else page.captureCommit cap (gtk.acceleratorName cap.keyval cap.modifier)

/-- The reset buttons are shown for a key that differs from its default. -/
def resettable (key : ShortcutKey) : Bool := page.settings.dupAccel key != key.schemaDefault

/-- A dialog covers the page, so that only one of the two can be clicked. -/
def step (gtk : Gtk) : KeyboardEvent → Option KeyboardPage
  | .rowActivated key =>
    match page.dialog with
    | none => some { page with dialog := some (.capture (.opened key)) }
    | some _ => none
  | .keyPressed keyval keycode state isModifier =>
    match page.dialog with
    | some (.capture cap) => some (page.captureKeyPressed gtk cap keyval keycode state isModifier)
    | _ => none
  | .setClicked =>
    match page.dialog with
    | some (.capture cap) => some (page.captureSetClicked gtk cap)
    | _ => none
  | .cancelClicked =>
    match page.dialog with
    | some (.capture _) => some { page with dialog := none }
    | _ => none
  | .captureResetClicked =>
    match page.dialog with
    | some (.capture cap) => if page.resettable cap.row then some ⟨page.settings.reset cap.row, none⟩ else none
    | _ => none
  | .rowResetClicked key =>
    match page.dialog with
    | none => if page.resettable key then some { page with settings := page.settings.reset key } else none
    | some _ => none
  | .resetAllClicked =>
    match page.dialog with
    | none => some { page with dialog := some .resetAll }
    | some _ => none
  | .resetAllResponse reset =>
    match page.dialog with
    | some .resetAll => some ⟨if reset then page.settings.resetAll else page.settings, none⟩
    | _ => none

end KeyboardPage

/-- The page over settings that nobody has changed yet. -/
def keyboardPage (gtk : Gtk) : Machine KeyboardPage KeyboardEvent :=
  ⟨⟨fun _ => none, none⟩, fun page event => page.step gtk event⟩

end Epimone.Client
