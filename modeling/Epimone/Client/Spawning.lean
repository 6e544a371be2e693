import Epimone.Client.Blocking
import Epimone.Daemon.ChildEnvironment
import Epimone.Daemon.Paths
import Epimone.Daemon.RequestCodec
import Mathlib.Data.List.DropRight

/-! # What a new session runs

The Shell & Profiles settings and the environment of the client decide what CREATE
asks for. `Runs` says what they ask for; the daemon's child executes it, whatever
environment it has inherited.
-/
set_option autoImplicit false

namespace Epimone.Client

open Daemon Program

/-- A command line that g_shell_parse_argv has split; it always has a first word. -/
structure CommandLine where
  program : Daemon.CString
  arguments : List Daemon.CString

structure SpawnSettings where
  useCustomCommand : Bool
  customCommand : Daemon.CString
  shellPath : Daemon.CString
  loginShell : Bool

/-- What the client finds around it: its variables, its passwd entry, the scripts, and the shell grammar of GLib. -/
structure SpawnWorld where
  shell : Option Daemon.CString
  pwShell : Option Daemon.CString
  zdotdir : Option Daemon.CString
  homeDir : Daemon.CString
  shellIntegrationDir : Option Daemon.CString
  parseArgv : Daemon.CString → Except GError CommandLine

structure SpawnPlan where
  argv : List Bytes
  env : List Bytes
  exec : Option Bytes
  deriving DecidableEq, Repr

def gPathGetBasename (path : Bytes) : Bytes :=
  let trimmed := path.rdropWhile (· == slash)
  if path = [] then ascii "."
  else if trimmed = [] then ascii "/"
  else trimmed.rtakeWhile (· != slash)

/-- g_build_filename, for a name without slashes. -/
def gBuildFilename (dir name : Bytes) : Bytes :=
  let trimmed := dir.rdropWhile (· == slash)
  if trimmed = [] then dir ++ name else trimmed ++ slash :: name

def epimoneClientDefaultShell (world : SpawnWorld) : Bytes :=
  let isAbsolute := fun path : Daemon.CString => path.bytes.head? == some slash
  (((world.shell.filter isAbsolute).or (world.pwShell.filter isAbsolute)).map Daemon.CString.bytes).getD
    (ascii "/bin/sh")

/-- Whether the scripts have been injected, and the plan with them. -/
def injectShellIntegration (world : SpawnWorld) (plan : SpawnPlan) (shell : Bytes) (login : Bool) : SpawnPlan × Bool :=
  match world.shellIntegrationDir with
  | none => (plan, false)
  | some dir =>
    let common := [assignment (ascii "EPIMONE") (ascii "1"),
      assignment (ascii "EPIMONE_SHELL_INTEGRATION_DIR") dir.bytes]
    if gPathGetBasename shell = ascii "bash" then
      -- a login bash would ignore --rcfile
      if login then (plan, false)
      else
        ({ plan with
            argv := plan.argv ++ [ascii "--rcfile", gBuildFilename dir.bytes (ascii "epimone.bash")]
            env := plan.env ++ assignment (ascii "EPIMONE_BASH_RCFILE") (ascii "1") :: common }, true)
    else if gPathGetBasename shell = ascii "zsh" then
      let real := ((world.zdotdir.map Daemon.CString.bytes).filter (· != [])).getD world.homeDir.bytes
      ({ plan with
          env := plan.env ++ assignment (ascii "ZDOTDIR") (gBuildFilename dir.bytes (ascii "zsh")) ::
            assignment (ascii "EPIMONE_ZDOTDIR_REAL") real :: common }, true)
    else (plan, false)

def chosenShell (settings : SpawnSettings) (world : SpawnWorld) : Bytes :=
  if settings.shellPath.bytes = [] then epimoneClientDefaultShell world else settings.shellPath.bytes

/-- argv[0] of a shell; the dash makes it a login shell. -/
def shellArgument (shell : Bytes) (login : Bool) : Bytes := if login then ascii "-" ++ gPathGetBasename shell else shell

def buildSessionSpawn (settings : SpawnSettings) (world : SpawnWorld) : Except GError SpawnPlan :=
  if settings.useCustomCommand ∧ settings.customCommand.bytes ≠ [] then do
    let parsed ← world.parseArgv settings.customCommand
    return ⟨(parsed.program :: parsed.arguments).map Daemon.CString.bytes, [], none⟩
  else
    let shell := chosenShell settings world
    let login := settings.loginShell
    let plan : SpawnPlan := ⟨[shellArgument shell login], [], if login then some shell else none⟩
    return (injectShellIntegration world plan shell login).1

def createFrame (alloc : Nat → Bool) (cwd : Option Daemon.CString) (plan : SpawnPlan) : EpiBuf :=
  let b := epiBufPutStr alloc (epiMsgStart alloc .create) ((cwd.map Daemon.CString.bytes).getD [])
  let b := plan.argv.foldl (epiBufPutStr alloc) (epiBufPutU32 alloc b plan.argv.length)
  let b := plan.env.foldl (epiBufPutStr alloc) (epiBufPutU32 alloc b plan.env.length)
  epiMsgEnd (epiBufPutStr alloc b (plan.exec.getD []))

def epimoneClientCreateSession (settings : SpawnSettings) (world : SpawnWorld) (x : Exchange) : Except GError Nat := do
  let _ ← buildSessionSpawn settings world
  let body ← replyTo x .id "unexpected reply to CREATE"
  return value Decoder.rdU64 (.start body)

/-- The arguments and the variables by which a shell finds the scripts, if it can. -/
inductive Integrates (world : SpawnWorld) (shell : Bytes) (login : Bool) : List Bytes → List (Bytes × Bytes) → Prop
  | bash {dir : Daemon.CString} (hDir : world.shellIntegrationDir = some dir)
      (hShell : gPathGetBasename shell = ascii "bash") (hLogin : login = false) :
      Integrates world shell login [ascii "--rcfile", gBuildFilename dir.bytes (ascii "epimone.bash")]
        [(ascii "EPIMONE_BASH_RCFILE", ascii "1"), (ascii "EPIMONE", ascii "1"),
          (ascii "EPIMONE_SHELL_INTEGRATION_DIR", dir.bytes)]
  | zsh {dir real : Daemon.CString} (hDir : world.shellIntegrationDir = some dir)
      (hShell : gPathGetBasename shell = ascii "zsh")
      (hReal : real = world.homeDir ∧ (∀ own ∈ world.zdotdir, own.bytes = []) ∨
        real ∈ world.zdotdir ∧ real.bytes ≠ []) :
      Integrates world shell login []
        [(ascii "ZDOTDIR", gBuildFilename dir.bytes (ascii "zsh")), (ascii "EPIMONE_ZDOTDIR_REAL", real.bytes),
          (ascii "EPIMONE", ascii "1"), (ascii "EPIMONE_SHELL_INTEGRATION_DIR", dir.bytes)]
  | without (hShell : world.shellIntegrationDir = none ∨
        (gPathGetBasename shell = ascii "bash" → login = true) ∧ gPathGetBasename shell ≠ ascii "zsh") :
      Integrates world shell login [] []

/-- Only such a path is taken from the account. -/
def Absolute (path : Daemon.CString) : Prop := path.bytes.head? = some slash

/-- The shell of the settings, or else the first that the account names: SHELL, the passwd entry, /bin/sh. -/
inductive Shell (settings : SpawnSettings) (world : SpawnWorld) : Bytes → Prop
  | setting (hSome : settings.shellPath.bytes ≠ []) : Shell settings world settings.shellPath.bytes
  | inherited {path : Daemon.CString} (hUnset : settings.shellPath.bytes = []) (hShell : world.shell = some path)
      (hPath : Absolute path) : Shell settings world path.bytes
  | passwd {path : Daemon.CString} (hUnset : settings.shellPath.bytes = [])
      (hNone : ∀ other ∈ world.shell, ¬ Absolute other) (hShell : world.pwShell = some path) (hPath : Absolute path) :
      Shell settings world path.bytes
  | standard (hUnset : settings.shellPath.bytes = [])
      (hNone : ∀ other, other ∈ world.shell ∨ other ∈ world.pwShell → ¬ Absolute other) :
      Shell settings world (ascii "/bin/sh")

/-- What the settings ask a session to run: the file, the argument vector and the variables it is given. -/
inductive Runs (settings : SpawnSettings) (world : SpawnWorld) : Bytes → List Bytes → List (Bytes × Bytes) → Prop
  | command {line : CommandLine} (hUse : settings.useCustomCommand = true) (hSome : settings.customCommand.bytes ≠ [])
      (hLine : world.parseArgv settings.customCommand = .ok line) :
      Runs settings world line.program.bytes (line.program.bytes :: line.arguments.map Daemon.CString.bytes) []
  | shell {shell first : Bytes} {arguments : List Bytes} {exports : List (Bytes × Bytes)}
      (hNone : settings.useCustomCommand = true → settings.customCommand.bytes = [])
      (hShell : Shell settings world shell)
      (hFirst : settings.loginShell = true ∧ first = ascii "-" ++ gPathGetBasename shell ∨
        settings.loginShell = false ∧ first = shell)
      (hScripts : Integrates world shell settings.loginShell arguments exports) :
      Runs settings world shell (first :: arguments) exports

section Plans

variable {settings : SpawnSettings} {world : SpawnWorld} {program : Bytes} {argv : List Bytes}
  {exports : List (Bytes × Bytes)} {plan : SpawnPlan}

theorem cString_of_noNul {bytes : Bytes} (h : 0 ∉ bytes) : cString bytes = bytes :=
  (Daemon.CString.mk bytes h).cString_eq

theorem map_cString {items : List Bytes} (h : ∀ s ∈ items, 0 ∉ s) : items.map cString = items := by
  have hSame : items.map cString = items.map id := List.map_congr_left fun s hs => cString_of_noNul (h s hs)
  rw [hSame, List.map_id]

theorem mem_rtakeWhile {p : UInt8 → Bool} {bytes : Bytes} {b : UInt8} (h : b ∈ bytes.rtakeWhile p) : b ∈ bytes :=
  (bytes.rtakeWhile_suffix p).subset h

theorem mem_rdropWhile {p : UInt8 → Bool} {bytes : Bytes} {b : UInt8} (h : b ∈ bytes.rdropWhile p) : b ∈ bytes :=
  (bytes.rdropWhile_prefix p).subset h

theorem noNul_gPathGetBasename {path : Bytes} (h : 0 ∉ path) : 0 ∉ gPathGetBasename path := by
  unfold gPathGetBasename
  dsimp only
  split
  · decide
  split
  · decide
  · intro hNul
    exact h (mem_rdropWhile (mem_rtakeWhile hNul))

theorem noNul_gBuildFilename {dir name : Bytes} (hDir : 0 ∉ dir) (hName : 0 ∉ name) : 0 ∉ gBuildFilename dir name := by
  have hTrimmed : 0 ∉ dir.rdropWhile (· == slash) := fun hNul => hDir (mem_rdropWhile hNul)
  have hSlash : (0 : UInt8) ≠ slash := by decide
  unfold gBuildFilename
  dsimp only
  split <;> simp only [List.mem_append, List.mem_cons, not_or]
  · exact ⟨hDir, hName⟩
  · exact ⟨hTrimmed, hSlash, hName⟩

theorem filter_absolute_eq_none {path : Option Daemon.CString}
    (h : (path.filter fun path => path.bytes.head? == some slash) = none) : ∀ other ∈ path, ¬ Absolute other := by
  intro other hOther hAbsolute
  rw [Option.filter_eq_none_iff] at h
  exact h other hOther (beq_iff_eq.mpr hAbsolute)

theorem shell_chosenShell : Shell settings world (chosenShell settings world) := by
  unfold chosenShell
  split
  · rename_i hUnset
    unfold epimoneClientDefaultShell
    dsimp only
    cases hOwn : world.shell.filter fun path => path.bytes.head? == some slash with
    | some path =>
      obtain ⟨hShell, hPath⟩ := Option.filter_eq_some_iff.mp hOwn
      exact .inherited hUnset hShell (beq_iff_eq.mp hPath)
    | none =>
      have hNone := filter_absolute_eq_none hOwn
      cases hEntry : world.pwShell.filter fun path => path.bytes.head? == some slash with
      | some path =>
        obtain ⟨hShell, hPath⟩ := Option.filter_eq_some_iff.mp hEntry
        exact .passwd hUnset hNone hShell (beq_iff_eq.mp hPath)
      | none =>
        have hNoEntry := filter_absolute_eq_none hEntry
        exact .standard hUnset fun other hIn => hIn.elim (hNone other) (hNoEntry other)
  · rename_i hSome
    exact .setting hSome

/-- A shell is a C string, and not an empty one. -/
theorem Shell.spec {shell : Bytes} (h : Shell settings world shell) : 0 ∉ shell ∧ shell ≠ [] := by
  cases h with
  | setting hSome => exact ⟨settings.shellPath.noNul, hSome⟩
  | inherited hUnset hShell hPath | passwd hUnset hNone hShell hPath =>
    rename_i path
    refine ⟨path.noNul, fun hEmpty => ?_⟩
    rw [Absolute, hEmpty] at hPath
    cases hPath
  | standard => exact ⟨by decide, by decide⟩

theorem integrates_injectShellIntegration {shell : Bytes} {login : Bool} {first : Bytes} {exec : Option Bytes} :
    ∃ arguments exports, Integrates world shell login arguments exports ∧
      (injectShellIntegration world ⟨[first], [], exec⟩ shell login).1 =
        ⟨first :: arguments, exports.map fun a => assignment a.1 a.2, exec⟩ := by
  unfold injectShellIntegration
  cases hDir : world.shellIntegrationDir with
  | none => exact ⟨[], [], .without (Or.inl hDir), rfl⟩
  | some dir =>
    dsimp only
    split
    · rename_i hBash
      have hOther : gPathGetBasename shell ≠ ascii "zsh" := by
        rw [hBash]
        decide
      cases login with
      | true => exact ⟨[], [], .without (Or.inr ⟨fun _ => rfl, hOther⟩), rfl⟩
      | false => exact ⟨_, _, .bash hDir hBash rfl, rfl⟩
    split
    · rename_i _ hZsh
      cases hOwn : world.zdotdir with
      | none => exact ⟨_, _, .zsh hDir hZsh (Or.inl ⟨rfl, by simp [hOwn]⟩), rfl⟩
      | some own =>
        by_cases hEmpty : own.bytes = []
        · refine ⟨_, _, .zsh hDir hZsh (Or.inl ⟨rfl, by simp [hOwn, hEmpty]⟩), ?_⟩
          simp [Option.filter, hEmpty]
        · refine ⟨_, _, .zsh hDir hZsh (Or.inr ⟨hOwn, hEmpty⟩), ?_⟩
          simp [Option.filter, hEmpty]
    · rename_i hBash hZsh
      exact ⟨[], [], .without (Or.inr ⟨fun hShell => absurd hShell hBash, hZsh⟩), rfl⟩

theorem buildSessionSpawn_runs (hPlan : buildSessionSpawn settings world = .ok plan) :
    ∃ program exports, Runs settings world program plan.argv exports ∧
      plan.env = exports.map (fun a => assignment a.1 a.2) ∧
      (nonEmpty plan.exec).or plan.argv.head? = some program ∧ ∀ exec ∈ plan.exec, exec = program := by
  unfold buildSessionSpawn at hPlan
  split at hPlan
  · rename_i hCommand
    obtain ⟨hUse, hSome⟩ := hCommand
    cases hLine : world.parseArgv settings.customCommand with
    | error e =>
      rw [hLine] at hPlan
      cases hPlan
    | ok line =>
      rw [hLine] at hPlan
      cases hPlan
      exact ⟨_, _, .command hUse hSome hLine, rfl, rfl, by simp⟩
  · rename_i hShell
    have hNone : settings.useCustomCommand = true → settings.customCommand.bytes = [] := by
      intro hUse
      by_contra hSome
      exact hShell ⟨hUse, hSome⟩
    obtain ⟨hNul, hSome⟩ := (@shell_chosenShell settings world).spec
    obtain ⟨arguments, exports, hScripts, hEq⟩ := @integrates_injectShellIntegration world
      (chosenShell settings world) settings.loginShell (shellArgument (chosenShell settings world) settings.loginShell)
      (if settings.loginShell then some (chosenShell settings world) else none)
    dsimp only at hPlan
    rw [hEq] at hPlan
    cases hPlan
    have hFirst : settings.loginShell = true ∧ shellArgument (chosenShell settings world) settings.loginShell =
          ascii "-" ++ gPathGetBasename (chosenShell settings world) ∨ settings.loginShell = false ∧
        shellArgument (chosenShell settings world) settings.loginShell = chosenShell settings world := by
      unfold shellArgument
      cases settings.loginShell with
      | true => exact .inl ⟨rfl, rfl⟩
      | false => exact .inr ⟨rfl, rfl⟩
    refine ⟨_, _, .shell hNone shell_chosenShell hFirst hScripts, rfl, ?_, by simp⟩
    have hFile : nonEmpty (some (chosenShell settings world)) = some (chosenShell settings world) := by
      simp [nonEmpty, cString_of_noNul hNul, hSome, Option.filter]
    dsimp only
    unfold shellArgument
    cases settings.loginShell with
    | true =>
      rw [if_pos rfl, hFile]
      rfl
    | false => rfl

theorem noNul_assignment {name value : Bytes} (hName : 0 ∉ name) (hValue : 0 ∉ value) : 0 ∉ assignment name value := by
  have hEquals : (0 : UInt8) ≠ equals := by decide
  simp [assignment, hName, hValue, hEquals]

theorem Integrates.arguments_noNul {shell : Bytes} {login : Bool} {arguments : List Bytes}
    (h : Integrates world shell login arguments exports) : ∀ s ∈ arguments, 0 ∉ s := by
  cases h with
  | bash hDir hShell hLogin =>
    rename_i dir
    rw [List.forall_mem_cons, List.forall_mem_singleton]
    exact ⟨by decide, noNul_gBuildFilename dir.noNul (by decide)⟩
  | zsh | without => exact List.forall_mem_nil _

theorem Integrates.exports_noNul {shell : Bytes} {login : Bool} {arguments : List Bytes}
    (h : Integrates world shell login arguments exports) : ∀ a ∈ exports, 0 ∉ assignment a.1 a.2 := by
  cases h with
  | bash hDir hShell hLogin =>
    rename_i dir
    rw [List.forall_mem_cons, List.forall_mem_cons, List.forall_mem_singleton]
    dsimp only
    exact ⟨noNul_assignment (by decide) (by decide), noNul_assignment (by decide) (by decide),
      noNul_assignment (by decide) dir.noNul⟩
  | zsh hDir hShell hReal =>
    rename_i dir real
    rw [List.forall_mem_cons, List.forall_mem_cons, List.forall_mem_cons, List.forall_mem_singleton]
    dsimp only
    exact ⟨noNul_assignment (by decide) (noNul_gBuildFilename dir.noNul (by decide)),
      noNul_assignment (by decide) real.noNul, noNul_assignment (by decide) (by decide),
      noNul_assignment (by decide) dir.noNul⟩
  | without => exact List.forall_mem_nil _

theorem Integrates.names {shell : Bytes} {login : Bool} {arguments : List Bytes}
    (h : Integrates world shell login arguments exports) :
    (exports.map Prod.fst).Nodup ∧ (∀ name ∈ exports.map Prod.fst, equals ∉ name) ∧
      (exports.map Prod.fst).length ≤ 4 := by
  cases h with
  | bash | zsh | without => simp only [List.map_cons, List.map_nil]; decide

/-- The strings of a plan are strings of C, and the names of its exports differ. -/
structure SoundPlan (program : Bytes) (argv : List Bytes) (exports : List (Bytes × Bytes)) : Prop where
  program_noNul : 0 ∉ program
  argv_noNul : ∀ s ∈ argv, 0 ∉ s
  argv_ne_nil : argv ≠ []
  exports_noNul : ∀ a ∈ exports, 0 ∉ assignment a.1 a.2
  names_eq : ∀ a ∈ exports, equals ∉ a.1
  names_nodup : (exports.map Prod.fst).Nodup
  bounded : exports.length ≤ 4

theorem Runs.sound (h : Runs settings world program argv exports) : SoundPlan program argv exports := by
  cases h with
  | command hUse hSome hLine =>
    rename_i line
    refine ⟨line.program.noNul, ?_, List.cons_ne_nil _ _, List.forall_mem_nil _, List.forall_mem_nil _, List.nodup_nil,
      Nat.zero_le 4⟩
    rw [List.forall_mem_cons, List.forall_mem_map]
    exact ⟨line.program.noNul, fun s _ => s.noNul⟩
  | shell hNone hShell hFirst hScripts =>
    obtain ⟨hNul, -⟩ := hShell.spec
    obtain ⟨hNodup, hNames, hFew⟩ := hScripts.names
    rw [List.length_map] at hFew
    refine ⟨hNul, ?_, List.cons_ne_nil _ _, hScripts.exports_noNul, ?_, hNodup, hFew⟩
    · rw [List.forall_mem_cons]
      refine ⟨?_, hScripts.arguments_noNul⟩
      rcases hFirst with ⟨-, rfl⟩ | ⟨-, rfl⟩
      · rw [List.mem_append]
        rintro (hDash | hBase)
        · revert hDash
          decide
        · exact noNul_gPathGetBasename hNul hBase
      · exact hNul
    · intro a ha
      exact hNames a.1 (List.mem_map_of_mem ha)

end Plans

/-- Strings of C, from their bytes. -/
def cStrings (items : List Bytes) (h : ∀ s ∈ items, 0 ∉ s) : List Daemon.CString := items.pmap Daemon.CString.mk h

theorem map_bytes_cStrings (items : List Bytes) (h : ∀ s ∈ items, 0 ∉ s) :
    (cStrings items h).map Daemon.CString.bytes = items := by
  rw [cStrings, List.map_pmap, List.pmap_eq_map, List.map_id']

/-- No directory is an empty one. -/
def sentDirectory (cwd : Option Daemon.CString) : Daemon.CString := cwd.getD ⟨[], List.not_mem_nil⟩

theorem createFrame_eq {alloc : Nat → Bool} {cwd : Option Daemon.CString} {plan : SpawnPlan}
    (argv env : StringArray) (exec : Daemon.CString) (hArgv : argv.items.map Daemon.CString.bytes = plan.argv)
    (hEnv : env.items.map Daemon.CString.bytes = plan.env) (hExec : exec.bytes = plan.exec.getD []) :
    createFrame alloc cwd plan = (Request.create (sentDirectory cwd) argv env (some exec)).frame alloc := by
  unfold createFrame Request.frame Request.put putStrings
  dsimp only
  rw [← hArgv, ← hEnv, ← hExec, List.foldl_map, List.foldl_map, List.length_map, List.length_map]
  cases cwd <;> rfl

section Running

variable {settings : SpawnSettings} {world : SpawnWorld} {plan : SpawnPlan} {srv : Server} {c : ConnPtr}
  {ans : FrameAnswers} {pid : Nat} {cwd : Option Daemon.CString} {bufAlloc : Nat → Bool} {program : Bytes}
  {exports : List (Bytes × Bytes)}

theorem createRequest_of_plan (hSound : SoundPlan program plan.argv exports)
    (hEnv : plan.env = exports.map fun a => assignment a.1 a.2)
    (hArgs : plan.argv.length ≤ 4096) (hExec : ∀ exec ∈ plan.exec, 0 ∉ exec) :
    ∃ argv env exec, createFrame bufAlloc cwd plan =
        (Request.create (sentDirectory cwd) argv env (some exec)).frame bufAlloc ∧
      argv.received = some plan.argv ∧ env.received.getD [] = plan.env ∧ exec.bytes = plan.exec.getD [] := by
  have hEnvNul : ∀ s ∈ plan.env, 0 ∉ s := by
    rw [hEnv, List.forall_mem_map]
    exact hSound.exports_noNul
  have hExecNul : 0 ∉ plan.exec.getD [] := by
    cases hFile : plan.exec with
    | none => exact List.not_mem_nil
    | some exec => exact hExec exec hFile
  have hFew : plan.env.length ≤ 4096 := by
    rw [hEnv, List.length_map]
    exact hSound.bounded.trans (by decide)
  have hArgvItems := map_bytes_cStrings plan.argv hSound.argv_noNul
  have hEnvItems := map_bytes_cStrings plan.env hEnvNul
  have hArgvFew : (cStrings plan.argv hSound.argv_noNul).length ≤ 4096 := by
    rw [cStrings, List.length_pmap]
    exact hArgs
  have hEnvFew : (cStrings plan.env hEnvNul).length ≤ 4096 := by
    rw [cStrings, List.length_pmap]
    exact hFew
  refine ⟨⟨_, hArgvFew⟩, ⟨_, hEnvFew⟩, ⟨_, hExecNul⟩, createFrame_eq _ _ _ hArgvItems hEnvItems rfl, ?_, ?_, rfl⟩
  · rw [StringArray.received, hArgvItems, if_neg]
    intro hEmpty
    dsimp only at hEmpty
    rw [hEmpty] at hArgvItems
    exact hSound.argv_ne_nil hArgvItems.symm
  · rw [StringArray.received, hEnvItems]
    split
    · rename_i hEmpty
      dsimp only at hEmpty
      rw [hEmpty] at hEnvItems
      exact hEnvItems
    · rfl

/-- What the daemon executes for a CREATE of this client is what the settings ask for: the file, its argument
vector, and over what the child inherits exactly the exports; the client gets the id of that session. -/
theorem session_runs_as_configured (hAmple : ans.Ample) (hFork : srv.forkpty ans.spawn.forkpty = some pid)
    (hBlock : ans.spawn.nonblock = true) (hPty : ans.ptyAdded = true)
    (hPlan : buildSessionSpawn settings world = .ok plan) (hArgs : plan.argv.length ≤ 4096)
    (hBuf : ∀ n, bufAlloc n = true) (hFrame : (createFrame bufAlloc cwd plan).data.length ≤ 4 + maxFrame) :
    ∃ program exports env sent srv',
      dispatchFrame srv c ans EpiMsgType.create.code ((createFrame bufAlloc cwd plan).data.drop 8) = srv' ∧
      Runs settings world program plan.argv exports ∧
      .forked srv.nextSess pid (startDirectory (cwd.map Daemon.CString.bytes) ans.spawn) plan.argv env (some program) ∈
        srv'.trace ∧
      (∀ inherited name, childEnvironment inherited env name =
        (exports.lookup name).or (ensureTerm inherited name)) ∧
      srv'.outbound c = srv.outbound c ++ sent ∧
      ∀ x later, x.refusal = none → x.requestAlloc = true → x.writeError = none → x.received = sent ++ later →
        epimoneClientCreateSession settings world x = .ok ((srv.nextId + 1) % 2 ^ 64) := by
  obtain ⟨program, exports, hRuns, hEnv, hProgram, hExec⟩ := buildSessionSpawn_runs hPlan
  have hSound := hRuns.sound
  obtain ⟨argv, env, exec, hRequest, hArgv, hSent, hFile⟩ := @createRequest_of_plan plan cwd bufAlloc program exports
    hSound hEnv hArgs fun exec hMem => hExec exec hMem ▸ hSound.program_noNul
  obtain ⟨-, hData⟩ := frame_eq (.create (sentDirectory cwd) argv env (some exec)) hBuf
  rw [hRequest, hData, length_frameBytes] at hFrame
  have hMax : maxFrame < 2 ^ 24 := by decide
  have hBody : (createFrame bufAlloc cwd plan).data.drop 8 =
      (Request.create (sentDirectory cwd) argv env (some exec)).body := by
    rw [hRequest, hData, frameBytes, ← List.append_assoc]
    exact List.drop_left' (by simp)
  have hSize : (Request.create (sentDirectory cwd) argv env (some exec)).body.length < 2 ^ 32 := by omega
  obtain ⟨hForked, hOutbound⟩ := @dispatchFrame_createRequest srv c ans pid _ _ env exec _ hAmple hFork hBlock hPty
    hSize hArgv
  have hDirectory : startDirectory (some (sentDirectory cwd).bytes) ans.spawn =
      startDirectory (cwd.map Daemon.CString.bytes) ans.spawn := by
    cases cwd <;> rfl
  have hExecuted : (nonEmpty (some exec.bytes)).or (plan.argv.map cString).head? = some program := by
    rw [map_cString hSound.argv_noNul, hFile, ← hProgram]
    cases plan.exec <;> rfl
  rw [hDirectory, hExecuted, map_cString hSound.argv_noNul] at hForked
  have hReceived : (env.received.map (List.map cString)).getD [] = plan.env := by
    have hEnvNul : ∀ s ∈ plan.env, 0 ∉ s := by
      rw [hEnv, List.forall_mem_map]
      exact hSound.exports_noNul
    rw [← map_cString hEnvNul, ← hSent]
    cases env.received <;> rfl
  rw [hBody]
  refine ⟨program, exports, _, _, _, rfl, hRuns, hForked, ?_, hOutbound, ?_⟩
  · intro inherited name
    rw [← childEnvironment_apply hSound.names_eq hSound.names_nodup, childEnvironment, childEnvironment, hReceived,
      Option.getD_some, hEnv]
  · intro x later hReached hAlloc hWritten hReply
    have hFits : 4 + (u64Bytes (srv.nextId + 1)).length < 2 ^ 32 := by simp [u64Bytes]
    have hTxn : controlTxn x = .ok (EpiMsgType.id.code, u64Bytes (srv.nextId + 1)) := by
      rw [controlTxn, hReached]
      change (do sendFrame x; recvFrame x.received) = _
      rw [sendFrame, hAlloc, hWritten, hReply]
      exact recvFrame_append (by decide) hFits
    have hId := (@Decodes.rdU64 [] (srv.nextId + 1)).complete (by simp [u64Bytes])
    rw [epimoneClientCreateSession, hPlan]
    change (do let body ← replyTo x .id "unexpected reply to CREATE"; return value Decoder.rdU64 (.start body)) = _
    rw [(replyTo_eq_ok (by decide)).mpr hTxn]
    exact congrArg Except.ok hId.1

end Running

theorem noNul_zsh : 0 ∉ ascii "/bin/zsh" := by decide

theorem noNul_scripts : 0 ∉ ascii "/scripts" := by decide

def zshSettings : SpawnSettings := ⟨false, ⟨[], List.not_mem_nil⟩, ⟨ascii "/bin/zsh", noNul_zsh⟩, true⟩

def zshWorld : SpawnWorld :=
  ⟨none, none, none, ⟨[], List.not_mem_nil⟩, some ⟨ascii "/scripts", noNul_scripts⟩, fun _ => .error (clientError "")⟩

def zshPlan : SpawnPlan :=
  ⟨[ascii "-zsh"], [ascii "ZDOTDIR=/scripts/zsh", ascii "EPIMONE_ZDOTDIR_REAL=", ascii "EPIMONE=1",
    ascii "EPIMONE_SHELL_INTEGRATION_DIR=/scripts"], some (ascii "/bin/zsh")⟩

/-- A login zsh whose configuration is shadowed by the scripts. -/
theorem session_runs_as_configured_zsh :
    ∃ program exports env srv',
      dispatchFrame (Server.initial 7) 0 (calmFrame 9 ⟨0⟩) EpiMsgType.create.code
        ((createFrame (fun _ => true) none zshPlan).data.drop 8) = srv' ∧
      Runs zshSettings zshWorld program [ascii "-zsh"] exports ∧
      .forked 0 9 none [ascii "-zsh"] env (some program) ∈ srv'.trace ∧
      childEnvironment (fun _ => none) env (ascii "TERM") =
        (exports.lookup (ascii "TERM")).or (some (ascii "xterm-256color")) := by
  obtain ⟨program, exports, env, sent, srv', hEq, hRuns, hForked, hEnv, -⟩ :=
    @session_runs_as_configured zshSettings zshWorld zshPlan (Server.initial 7) 0 (calmFrame 9 ⟨0⟩) 9 none
      (fun _ => true) (calmFrame_ample 9 ⟨0⟩) rfl rfl rfl rfl (by decide) (fun _ => rfl) (by decide +kernel)
  exact ⟨program, exports, env, srv', hEq, hRuns, hForked, hEnv _ _⟩

end Epimone.Client
