import Epimone.Daemon.Replies
import Epimone.Daemon.RequestCodec
import Mathlib.Logic.Function.Basic

/-! # The environment of a shell

What the child of forkpty does to its environment before it executes the shell:
the entries of the client are put over what it inherits, and TERM is made sure of.
-/
set_option autoImplicit false

namespace Epimone.Daemon

open Program

abbrev Environment := Bytes → Option Bytes

def equals : UInt8 := 61

/-- putenv; a name without a value is taken out. -/
def putenv (env : Environment) (entry : Bytes) : Environment :=
  if equals ∈ entry then
    Function.update env (entry.takeWhile (· != equals)) (some ((entry.dropWhile (· != equals)).drop 1))
  else Function.update env entry none

def ensureTerm (env : Environment) : Environment :=
  if env (ascii "TERM") = none then Function.update env (ascii "TERM") (some (ascii "xterm-256color")) else env

def childEnvironment (inherited : Environment) (env : Option (List Bytes)) : Environment :=
  ensureTerm ((env.getD []).foldl putenv inherited)

def assignment (name value : Bytes) : Bytes := name ++ equals :: value

def assign (env : Environment) (a : Bytes × Bytes) : Environment := Function.update env a.1 (some a.2)

section Entries

variable {env inherited : Environment} {name value : Bytes}

theorem putenv_assignment (hName : equals ∉ name) : putenv env (assignment name value) = assign env (name, value) := by
  have hPart : ∀ b ∈ name, (b != equals) = true := by
    intro b hb
    exact bne_iff_ne.mpr fun hSame => hName (hSame ▸ hb)
  have hTake : (assignment name value).takeWhile (· != equals) = name := by
    rw [assignment, List.takeWhile_append_of_pos hPart, List.takeWhile_cons_of_neg (by simp), List.append_nil]
  have hDrop : (assignment name value).dropWhile (· != equals) = equals :: value := by
    rw [assignment, List.dropWhile_append_of_pos hPart, List.dropWhile_cons_of_neg (by simp)]
  have hIn : equals ∈ assignment name value := List.mem_append_right _ List.mem_cons_self
  rw [putenv, if_pos hIn, hTake, hDrop]
  rfl

/-- The last assignment to a name counts; other names are inherited. -/
theorem foldl_putenv (assignments : List (Bytes × Bytes)) (hNames : ∀ a ∈ assignments, equals ∉ a.1)
    (env : Environment) :
    (assignments.map fun a => assignment a.1 a.2).foldl putenv env =
      assignments.foldl assign env := by
  induction assignments generalizing env with
  | nil => rfl
  | cons a assignments ih =>
    rw [List.map_cons, List.foldl_cons, List.foldl_cons, putenv_assignment (hNames a List.mem_cons_self)]
    exact ih (fun a' ha' => hNames a' (List.mem_cons_of_mem _ ha')) _

theorem foldl_assign (assignments : List (Bytes × Bytes)) (env : Environment)
    (hNodup : (assignments.map Prod.fst).Nodup) :
    assignments.foldl assign env name = (assignments.lookup name).or (env name) := by
  induction assignments generalizing env with
  | nil => rfl
  | cons a assignments ih =>
    obtain ⟨first, firstValue⟩ := a
    rw [List.map_cons, List.nodup_cons] at hNodup
    rw [List.foldl_cons, ih _ hNodup.2, List.lookup_cons]
    rcases eq_or_ne name first with rfl | hOther
    · have hOnce : assignments.lookup name = none := by
        apply List.lookup_eq_none_iff.mpr
        intro a ha
        have hSame : name ≠ a.1 := by
          rintro rfl
          exact hNodup.1 (List.mem_map.mpr ⟨a, ha, rfl⟩)
        simpa using hSame
      rw [hOnce, beq_self_eq_true]
      exact Function.update_self ..
    · rw [beq_false_of_ne hOther]
      exact congrArg _ (Function.update_of_ne hOther _ _)

theorem ensureTerm_apply :
    ensureTerm env name = (env name).or (if name = ascii "TERM" then some (ascii "xterm-256color") else none) := by
  unfold ensureTerm
  rcases eq_or_ne name (ascii "TERM") with rfl | hOther
  · cases hSet : env (ascii "TERM") with
    | none => simp
    | some value => simp [hSet]
  · rw [if_neg hOther, Option.or_none]
    split
    · exact Function.update_of_ne hOther _ _
    · rfl

theorem childEnvironment_apply {assignments : List (Bytes × Bytes)} (hNames : ∀ a ∈ assignments, equals ∉ a.1)
    (hNodup : (assignments.map Prod.fst).Nodup) :
    childEnvironment inherited (some (assignments.map fun a => assignment a.1 a.2)) name =
      (assignments.lookup name).or (ensureTerm inherited name) := by
  rw [childEnvironment, Option.getD_some, foldl_putenv _ hNames, ensureTerm_apply, foldl_assign _ _ hNodup,
    ensureTerm_apply, Option.or_assoc]

end Entries

section Creating

variable {srv : Server} {c : ConnPtr} {ans : FrameAnswers} {pid : Nat} {request : CreateRequest}

/-- The directory in which a session starts. -/
def startDirectory (cwd : Option Bytes) (ans : SpawnAnswers) : Option Bytes :=
  (nonEmpty cwd).or (defaultCwd ans.home ans.pwDir)

theorem createSession_forked (hAmple : ans.Ample) (hFork : srv.forkpty ans.spawn.forkpty = some pid)
    (hBlock : ans.spawn.nonblock = true) (cwd exec : Option Bytes) (argv : List Bytes) (env : Option (List Bytes)) :
    ∃ act : Act, act.backstage = true ∧
      createSession srv cwd (some argv) env exec ans.spawn = (act.perform srv, some srv.nextSess) ∧
      ((act.perform srv).sess srv.nextSess).id = srv.nextId + 1 ∧
      .forked srv.nextSess pid (startDirectory cwd ans.spawn) (argv.map cString) (env.map (List.map cString))
        ((nonEmpty exec).or (argv.map cString).head?) ∈ (act.perform srv).trace := by
  obtain ⟨junk, hRing⟩ := hAmple.ringAlloc
  unfold createSession epiSessionSpawn
  rw [hAmple.sessionAlloc, hRing, hFork, hBlock]
  refine ⟨.create pid (startDirectory cwd ans.spawn) (argv.map cString) (env.map (List.map cString))
    ((nonEmpty exec).or (argv.map cString).head?) _, rfl, rfl, ?_, ?_⟩
  · simp [Act.perform, linkSession, Server.modSess, Server.emit, forked]
  · simp [Act.perform, linkSession, Server.modSess, Server.emit, forked]

/-- A whole CREATE leaves a child, and a reply with the id of its session. -/
theorem dispatchFrame_create {body : Object} {p : Probe} {argv : List Bytes} (hAmple : ans.Ample)
    (hFork : srv.forkpty ans.spawn.forkpty = some pid) (hBlock : ans.spawn.nonblock = true)
    (hPty : ans.ptyAdded = true)
    (hGives : Gives (Decoder.createRequest ans.rdAlloc) (.start body.bytes) request p) (hErr : p.rd.err = false)
    (hArgv : request.argv = some argv) :
    .forked srv.nextSess pid (startDirectory request.cwd ans.spawn) (argv.map cString)
        (request.env.map (List.map cString)) ((nonEmpty request.execPath).or (argv.map cString).head?) ∈
        (dispatchFrame srv c ans EpiMsgType.create.code body.bytes).trace ∧
      (dispatchFrame srv c ans EpiMsgType.create.code body.bytes).outbound c =
        srv.outbound c ++ frameBytes EpiMsgType.id.code (u64Bytes (srv.nextId + 1)) := by
  obtain ⟨r₁, r₂, r₃, hCwd, hArgs, hEnv, hExec⟩ := create_reads hGives
  obtain ⟨act, hBack, hCreated, hId, hForked⟩ :=
    createSession_forked hAmple hFork hBlock request.cwd request.execPath argv request.env
  have hEq : dispatchFrame srv c ans EpiMsgType.create.code body.bytes =
      reply (watchPty (act.perform srv) srv.nextSess) c ans
        (epiBufPutU64 ans.bufAlloc (epiMsgStart ans.bufAlloc .id) (srv.nextId + 1)) := by
    change handleCreate srv c ans (epiRdInit body.bytes) = _
    unfold handleCreate
    rw [hCwd]
    dsimp only
    rw [hArgs]
    dsimp only
    rw [hEnv]
    dsimp only
    rw [hExec]
    dsimp only
    rw [hErr, hArgv, hCreated]
    dsimp only
    rw [hPty, hId]
    rfl
  have hSilent : (watchPty (act.perform srv) srv.nextSess).outbound c = srv.outbound c :=
    (outbound_backstage_act (a := .watchPty srv.nextSess) rfl).trans (outbound_backstage_act hBack)
  rw [hEq]
  constructor
  · rw [reply, connQueueFrame_eq]
    exact List.mem_append_left _ hForked
  · obtain ⟨sent, hOutbound, -, hWhole, -⟩ := outbound_reply (watchPty (act.perform srv) srv.nextSess) c ans
      ((opened_epiMsgStart .id).put fun bytes h => h.putU64 (srv.nextId + 1))
    rw [hOutbound, hWhole hAmple, hSilent]
    rfl

theorem dispatchFrame_createRequest {cwd : CString} {argv env : StringArray} {exec : CString} {args : List Bytes}
    (hAmple : ans.Ample) (hFork : srv.forkpty ans.spawn.forkpty = some pid) (hBlock : ans.spawn.nonblock = true)
    (hPty : ans.ptyAdded = true) (hSize : (Request.create cwd argv env (some exec)).body.length < 2 ^ 32)
    (hArgv : argv.received = some args) :
    .forked srv.nextSess pid (startDirectory (some cwd.bytes) ans.spawn) (args.map cString)
        (env.received.map (List.map cString)) ((nonEmpty (some exec.bytes)).or (args.map cString).head?) ∈
        (dispatchFrame srv c ans EpiMsgType.create.code (Request.create cwd argv env (some exec)).body).trace ∧
      (dispatchFrame srv c ans EpiMsgType.create.code (Request.create cwd argv env (some exec)).body).outbound c =
        srv.outbound c ++ frameBytes EpiMsgType.id.code (u64Bytes (srv.nextId + 1)) := by
  have hDecodes : Decodes [] (Decoder.createRequest ans.rdAlloc) (Request.create cwd argv env (some exec)).body _ :=
    decodes_createRequest hAmple.rdAlloc cwd argv env (some exec)
  obtain ⟨hValue, hRead⟩ := hDecodes.complete hSize
  exact @dispatchFrame_create srv c ans pid _ ⟨_, hSize.trans (by decide)⟩ _ _ hAmple hFork hBlock hPty ⟨hValue, rfl⟩
    (congrArg EpiRd.err hRead) hArgv

end Creating

end Epimone.Daemon
