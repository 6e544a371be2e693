import Epimone.Client.Overview
import Epimone.Library.Dialogue

/-! # What the GUI asks

The procedures of the GUI that act on stored ids, as dialogues: each request has
its own connection, and other things happen between two of them. Every id is
kept with the daemon instance that handed it out; the GUI itself does not see
the instance, and no decision below depends on it.
-/
set_option autoImplicit false

namespace Epimone.Talks

open Client Dialogues

/-- An id, and the instance that issued it; id 0 is none. -/
structure Stored where
  id : UInt64
  issuer : Nat
  deriving DecidableEq, Repr

namespace Stored

def none : Stored := ⟨0, 0⟩

def key (s : Stored) : Nat := lowWord s.id.toNat

/-- No id, or one that this instance issued. -/
def Of (live : Nat) (s : Stored) : Prop := s.id ≠ 0 → s.issuer = live

end Stored

/-- What the GUI asks of the daemon, and of the file system when it saves. ATTACH and KILL come with the
group on whose behalf they are sent, if any. `text` is the blob, `leaves` the sessions it names. -/
inductive Ask where
  | instanceId
  | listSessions
  | listGroups
  | create
  | attach (sid : Stored) (gid : Option Stored)
  | kill (sid : Stored) (gid : Option Stored)
  | groupNew (text : Bytes) (leaves : List Stored)
  | groupSet (gid : Stored) (text : Bytes) (leaves : List Stored)
  | groupAdd (gid sid : Stored)
  | writeGroups (stamp : Nat) (gids : List Stored)
  | writeLayout (windows : List (List Stored))
  deriving DecidableEq, Repr

/-- The stored ids for which the request is sent. -/
def Ask.named : Ask → List Stored
  | .attach sid gid | .kill sid gid => sid :: gid.toList
  | .groupSet gid _ _ => [gid]
  | .groupAdd gid sid => [gid, sid]
  | _ => []

/-- The stored ids that the request puts down somewhere. -/
def Ask.records : Ask → List Stored
  | .groupNew _ leaves | .groupSet _ _ leaves => leaves
  | .writeGroups _ gids => gids
  | .writeLayout windows => windows.flatten
  | _ => []

/-- A group as GROUP_LIST has it; `leaves` where its blob parses. -/
structure GroupEntry where
  id : Stored
  members : List Stored
  text : Bytes
  leaves : Option (List Stored)
  deriving DecidableEq, Repr

def GroupEntry.ids (g : GroupEntry) : List Stored := g.id :: (g.members ++ g.leaves.getD [])

inductive Reply where
  | failed
  | granted
  | made (id : Stored)
  | instanceId (live : Nat)
  | sessions (entries : List (Stored × Bool))
  | groups (entries : List GroupEntry)
  deriving DecidableEq, Repr

def Reply.ids : Reply → List Stored
  | .made id => [id]
  | .sessions entries => entries.map Prod.fst
  | .groups entries => entries.flatMap GroupEntry.ids
  | _ => []

/-- A page by the sessions of its leaves, in the order of the tree. -/
structure StoredPage where
  leaves : List Stored
  group : Stored
  enrolled : List UInt64
  zoomed : Bool
  deriving DecidableEq, Repr

namespace StoredPage

variable (page : StoredPage)

def ids : List Stored := page.group :: page.leaves

def sessionIds : List Stored := page.leaves.filter fun s => s.id ≠ 0

def setGroupId (gid : Stored) : StoredPage :=
  if page.group.id = gid.id then page else { page with group := gid, enrolled := [] }

def markEnrolled (sid : UInt64) : StoredPage :=
  if sid ∈ page.enrolled then page else { page with enrolled := sid :: page.enrolled }

end StoredPage

/-- The GUI: its windows by their tabs, the ids the overview shows, and the instances it goes by. -/
structure Gui where
  windows : List (List StoredPage)
  shown : List Stored
  sessionInstance : Nat
  recordedInstance : Nat
  instanceChecked : Bool
  deriving DecidableEq, Repr

namespace Gui

variable (gui : Gui)

def initial : Gui := ⟨[], [], 0, 0, false⟩

def pages : List StoredPage := gui.windows.flatten

def pageIds : List Stored := gui.pages.flatMap StoredPage.ids

def ids : List Stored := gui.pageIds ++ gui.shown

def addPage (w : Nat) (page : StoredPage) : Gui := { gui with windows := gui.windows.modify w (· ++ [page]) }

/-- epimone_page_remove_terminal, and the tab and the window go with their last pane. -/
def removeTerminal (sid : Stored) : Gui :=
  let pages (w : List StoredPage) :=
    (w.map fun p => { p with leaves := p.leaves.erase sid }).filter fun p => p.leaves ≠ []
  { gui with windows := (gui.windows.map pages).filter fun w => w ≠ [] }

def findPageForMembers (members : List Stored) : Bool :=
  gui.pages.any fun page => page.leaves.any fun s => decide (s.id ≠ 0) && members.any fun m => m.id == s.id

end Gui

abbrev Talk (α : Type) := Dialogue Ask Reply α

open Dialogue (request)

/-! The requests of the client library, as far as the GUI looks at the replies. -/

def epimoneClientInstanceId : Talk Nat := do
  match ← request .instanceId with
  | .instanceId live => return live
  | _ => return 0

def listSessionEntries : Talk (Option (List (Stored × Bool))) := do
  match ← request .listSessions with
  | .sessions entries => return some entries
  | _ => return none

def listGroupEntries : Talk (Option (List GroupEntry)) := do
  match ← request .listGroups with
  | .groups entries => return some entries
  | _ => return none

def isGranted (q : Ask) : Talk Bool := do
  match ← request q with
  | .granted => return true
  | _ => return false

def madeBy (q : Ask) : Talk Stored := do
  match ← request q with
  | .made id => return id
  | _ => return .none

/-! The sync and the save. -/

/-- What GLib prints for a page. -/
abbrev Print := StoredPage → Bytes

section Saving

variable (print : Print)

def updateGroup (page : StoredPage) : Talk StoredPage := do
  if page.group.id = 0 then return page
  else if ← isGranted (.groupSet page.group (print page) page.leaves) then return page
  else return page.setGroupId .none

def createGroup (page : StoredPage) : Talk StoredPage := do
  if page.group.id ≠ 0 then return page
  else return page.setGroupId (← madeBy (.groupNew (print page) page.leaves))

def enroll (gid : Stored) (page : StoredPage) (sid : Stored) : Talk StoredPage := do
  if sid.id ∈ page.enrolled then return page
  else if ← isGranted (.groupAdd gid sid) then return page.markEnrolled sid.id
  else return page

def syncPageGroup (page : StoredPage) : Talk StoredPage := do
  if page.zoomed ∨ page.sessionIds = [] then return page
  else
    let page ← updateGroup print page
    let page ← createGroup print page
    if page.group.id = 0 then return page
    else Dialogue.fold (enroll page.group) page page.sessionIds

def saveGroupsState (gui : Gui) (gids : List Stored) : Talk Gui := do
  let live ← epimoneClientInstanceId
  let _ ← isGranted (.writeGroups live gids)
  return { gui with recordedInstance := if live ≠ 0 then live else gui.recordedInstance }

def groupIds (pages : List StoredPage) : List Stored := (pages.map StoredPage.group).filter fun g => g.id ≠ 0

def syncGroupsNow (gui : Gui) : Talk Gui := do
  let windows ← Dialogue.forEach (Dialogue.forEach (syncPageGroup print)) gui.windows
  saveGroupsState { gui with windows := windows } (groupIds windows.flatten)

def layoutSaveNow (gui : Gui) : Talk Gui := do
  if gui.windows = [] then return gui
  else
    let _ ← isGranted (.writeLayout (gui.windows.map groupIds))
    return gui

/-- save_timeout_cb and epimone_layout_begin_shutdown, by what they have to write. -/
def save (doGroups doLayout : Bool) (gui : Gui) : Talk Gui := do
  let gui ← (if doGroups then syncGroupsNow print gui else pure gui : Talk Gui)
  if doLayout then layoutSaveNow gui else return gui

end Saving

/-! Restoring and renaming a group. -/

/-- The checks of instance_ok, once the daemon has told its instance. -/
def Gui.Passes (gui : Gui) (live : Nat) : Prop :=
  live ≠ 0 ∧ gui.instanceChecked = true ∧ gui.sessionInstance ≠ 0 ∧ live = gui.sessionInstance ∧
    (gui.recordedInstance = 0 ∨ gui.recordedInstance = live)

instance (gui : Gui) (live : Nat) : Decidable (gui.Passes live) := by
  unfold Gui.Passes
  infer_instance

def instanceOk (gui : Gui) : Talk Bool := do
  let live ← epimoneClientInstanceId
  return decide (gui.Passes live)

def findEntry (gid : Stored) (entries : List GroupEntry) : Option GroupEntry := entries.find? fun g => g.id.id == gid.id

def aliveSet (entries : List (Stored × Bool)) : List Nat := (entries.filter Prod.snd).map fun e => e.1.key

def buildLeaf (gid : Stored) (alive : List Nat) (built : List Stored) (leaf : Stored) : Talk (List Stored) := do
  if leaf.id ≠ 0 ∧ leaf.key ∈ alive then
    if ← isGranted (.attach leaf (some gid)) then return built ++ [leaf] else return built
  else return built

def buildGroup (w : Nat) (gid : Stored) (leaves : List Stored) (gui : Gui) : Talk (Bool × Gui) := do
  match ← listSessionEntries with
  | none => return (false, gui)
  | some entries =>
    let built ← Dialogue.fold (buildLeaf gid (aliveSet entries)) [] leaves
    if built = [] then return (false, gui)
    else return (true, gui.addPage w ⟨built, gid, built.map Stored.id, false⟩)

def restoreGroup (w : Nat) (gid : Stored) (gui : Gui) : Talk (Bool × Gui) := do
  if gid.id = 0 then return (false, gui)
  else if ← instanceOk gui then
    match ← listGroupEntries with
    | none => return (false, gui)
    | some entries =>
      match findEntry gid entries with
      | none => return (false, gui)
      | some found =>
        if gui.findPageForMembers found.members then return (true, gui)
        else
          match found.leaves with
          | none => return (false, gui)
          | some leaves => buildGroup w gid leaves gui
  else return (false, gui)

/-- The title of a shown page is left out; the blob of another group is written again with the name. -/
def renameGroup (rename : Bytes → Bytes) (gid : Stored) (gui : Gui) : Talk Gui := do
  if gid.id = 0 then return gui
  else if ← instanceOk gui then
    match ← listGroupEntries with
    | none => return gui
    | some entries =>
      match findEntry gid entries with
      | none => return gui
      | some found =>
        if gui.findPageForMembers found.members then return gui
        else
          match found.leaves with
          | none => return gui
          | some leaves =>
            let _ ← isGranted (.groupSet gid (rename found.text) leaves)
            return gui
  else return gui

/-! Panes that begin and end, and the kills. -/

/-- A leaf for a brand-new session; without one the pane shows why. -/
def createTerminal : Talk Stored := do
  let sid ← madeBy .create
  if sid.id = 0 then return .none
  else if ← isGranted (.attach sid none) then return sid
  else return .none

def newTab (w : Nat) (gui : Gui) : Talk Gui := do
  return gui.addPage w ⟨[← createTerminal], .none, [], false⟩

def splitPage (w i : Nat) (gui : Gui) : Talk Gui := do
  let leaf ← createTerminal
  return { gui with
    windows := gui.windows.modify w fun pages =>
      pages.modify i fun page => { page with leaves := page.leaves ++ [leaf], zoomed := false } }

def deathIdle (sid : Stored) (gui : Gui) : Talk Gui := do
  if sid.id = 0 then return gui.removeTerminal sid
  else
    let entries ← listSessionEntries
    let alive := ((entries.getD []).find? fun e => e.1.id == sid.id).any Prod.snd
    if alive then return gui.removeTerminal sid
    else
      let _ ← isGranted (.kill sid none)
      return gui.removeTerminal sid

def killSession (gid : Option Stored) (sid : Stored) : Talk PUnit := do
  let _ ← isGranted (.kill sid gid)
  return ⟨⟩

/-- KILL for the members of the groups that are chosen, with the id they were chosen by. -/
def killMembers (choose : GroupEntry → Option Stored) : Talk PUnit := do
  let entries ← listGroupEntries
  let victims := (entries.getD []).flatMap fun g => (choose g).toList.flatMap fun gid => g.members.map (gid, ·)
  let _ ← Dialogue.forEach (fun v : Stored × Stored => killSession (some v.1) v.2) victims
  return ⟨⟩

/-- A card's kill goes by the id of its group, a window's by the keys of the groups of its tabs. -/
def killGroup (gid : Stored) : Talk PUnit := killMembers fun g => if g.id.id = gid.id then some gid else none

def killWindow (gids : List Stored) : Talk PUnit := killMembers fun g => gids.find? fun gid => gid.key == g.id.key

def overviewReload (gui : Gui) : Talk Gui := do
  let groups ← listGroupEntries
  let sessions ← listSessionEntries
  return { gui with shown := ((groups.getD []).flatMap GroupEntry.ids) ++ (sessions.getD []).map Prod.fst }

/-! The start. -/

/-- What the file of the groups says; without one, or with one that does not parse, nothing. -/
def checkInstance (recorded : Option Nat) (gui : Gui) : Talk Gui := do
  let live ← epimoneClientInstanceId
  return { gui with
    instanceChecked := true
    sessionInstance := if gui.sessionInstance = 0 then live else gui.sessionInstance
    recordedInstance := recorded.getD gui.recordedInstance }

def restoreWindow (gui : Gui) (gids : List Stored) : Talk Gui := do
  let w := gui.windows.length
  let (restored, gui) ← Dialogue.fold (fun (state : Nat × Gui) gid => do
    let (ok, gui) ← restoreGroup w gid state.2
    return (if ok then state.1 + 1 else state.1, gui)) (0, { gui with windows := gui.windows ++ [[]] }) gids
  if restored = 0 then return { gui with windows := gui.windows.eraseIdx w } else return gui

def restoreFromV2 (windows : List (List Stored)) (gui : Gui) : Talk Gui := Dialogue.fold restoreWindow gui windows

/-- activate_cb: the check, then the saved layout, or a fresh window with one tab. -/
def activate (recorded : Option Nat) (layout : Option (List (List Stored))) : Talk Gui := do
  let gui ← checkInstance recorded .initial
  let gui ← restoreFromV2 (layout.getD []) gui
  if gui.windows = [] then newTab 0 { gui with windows := [[]] } else return gui

end Epimone.Talks
