import Epimone.Library.Conservation
import Mathlib.Logic.Function.Basic

/-! # The socket path

Any number of daemon processes on one path, each from the probe in `main` to the
unlink that ends `epi_server_shutdown`, one system call at a time. A socket stays
at the path until somebody unlinks it, whoever bound it.
-/
set_option autoImplicit false

namespace Epimone.Startup

open Transition

/-- Where a process is: what it does next. -/
inductive Stage where
  /-- not started -/
  | idle
  /-- the probe found nobody: unlink -/
  | stale
  /-- daemonize, and epi_server_init up to bind -/
  | starting
  /-- listen -/
  | bound
  /-- the rest of epi_server_init -/
  | listening
  /-- epi_server_run -/
  | serving
  /-- epi_server_shutdown up to the close of listen_fd -/
  | stopping
  /-- the unlink of epi_server_shutdown -/
  | closed
  | gone
  deriving DecidableEq, Repr

/-- The process whose socket is at the path, where each process is, and whose sockets listen. -/
structure Site where
  path : Option Nat
  stage : Nat → Stage
  listens : Nat → Bool

/-- What socket_in_use returns: 1, 0 and -1. -/
inductive InUse where
  | answering
  | stale
  | other
  deriving DecidableEq, Repr

inductive Call where
  | socketInUse (p : Nat) (rc : InUse)
  | unlinkStale (p : Nat)
  | daemonizeFails (p : Nat)
  | initFails (p : Nat)
  | bind (p : Nat) (ok : Bool)
  | listen (p : Nat) (ok : Bool)
  | initDone (p : Nat) (ok : Bool)
  | stop (p : Nat)
  | closeListen (p : Nat)
  | unlink (p : Nat)
  | crash (p : Nat)
  deriving DecidableEq, Repr

namespace Site

variable (s : Site)

def empty : Site := ⟨none, fun _ => .idle, fun _ => false⟩

def goes (p : Nat) (stage : Stage) : Site := { s with stage := Function.update s.stage p stage }

/-- A connect to the path succeeds. -/
def answers : Bool := s.path.any s.listens

def possible : InUse → Bool
  | .answering => s.answers
  | .stale => !s.answers
  | .other => true

def afterProbe : InUse → Stage
  | .answering => .gone
  | .stale => .stale
  | .other => .starting

def running (p : Nat) : Bool := s.stage p != .idle && s.stage p != .gone

def step : Call → Option Site
  | .socketInUse p rc => if s.stage p = .idle ∧ s.possible rc then some (s.goes p (afterProbe rc)) else none
  | .unlinkStale p => if s.stage p = .stale then some { s.goes p .starting with path := none } else none
  | .daemonizeFails p => if s.stage p = .starting then some (s.goes p .gone) else none
  | .initFails p => if s.stage p = .starting then some (s.goes p .stopping) else none
  | .bind p ok =>
    if s.stage p = .starting then
      if s.path.isNone && ok then some { s.goes p .bound with path := some p } else some (s.goes p .stopping)
    else none
  | .listen p ok =>
    if s.stage p = .bound then
      if ok then some { s.goes p .listening with listens := Function.update s.listens p true }
      else some (s.goes p .stopping)
    else none
  | .initDone p ok =>
    if s.stage p = .listening then some (s.goes p (if ok then .serving else .stopping)) else none
  | .stop p => if s.stage p = .serving then some (s.goes p .stopping) else none
  | .closeListen p =>
    if s.stage p = .stopping then some { s.goes p .closed with listens := Function.update s.listens p false }
    else none
  | .unlink p => if s.stage p = .closed then some { s.goes p .gone with path := none } else none
  | .crash p =>
    if s.running p then some { s.goes p .gone with listens := Function.update s.listens p false } else none

/-- A connect to the path reaches the process. -/
def Reachable (p : Nat) : Prop := s.path = some p ∧ s.listens p = true

/-- Between the probe and listen, or between the close of the socket and its unlink. -/
def Exposed (p : Nat) : Prop := s.running p = true ∧ s.listens p = false

/-- No process starts while another one is exposed, and a daemon that serves answers every probe. -/
def Apart : Call → Prop
  | .socketInUse _ rc =>
    (rc ≠ .answering → ∀ q, ¬ s.Exposed q) ∧ (rc = .other → ∀ q, s.listens q = false)
  | _ => True

end Site

def Call.unlinks : Call → Option Nat
  | .unlinkStale p => some p
  | .unlink p => some p
  | _ => none

/-- No process unlinks the socket of another one that listens there. -/
def Spares (step : Step Site Call) : Prop :=
  ∀ p q, step.input.unlinks = some p → q ≠ p → ¬ step.before.Reachable q

def startup : Machine Site Call := ⟨.empty, Site.step⟩

namespace Site

variable {s t : Site} {p q : Nat}

@[simp] theorem stage_goes (p : Nat) (stage : Stage) : (s.goes p stage).stage = Function.update s.stage p stage := rfl

@[simp] theorem listens_goes (p : Nat) (stage : Stage) : (s.goes p stage).listens = s.listens := rfl

@[simp] theorem path_goes (p : Nat) (stage : Stage) : (s.goes p stage).path = s.path := rfl

theorem running_of_stage {stage : Stage} (h : s.stage p = stage) (hIdle : stage ≠ .idle) (hGone : stage ≠ .gone) :
    s.running p = true := by
  simp [running, h, hIdle, hGone]

theorem running_congr (h : t.stage q = s.stage q) : t.running q = s.running q := by
  rw [running, running, h]

/-- The stages in which the socket of a process may listen. -/
def Upright (stage : Stage) : Prop := stage = .listening ∨ stage = .serving ∨ stage = .stopping

/-- One process at a time runs; a socket listens only in the stages from listen to close, and at the path. -/
structure Sole (s : Site) : Prop where
  alone : ∀ p q, s.running p = true → s.running q = true → p = q
  upright : ∀ p, s.listens p = true → Upright (s.stage p)
  kept : ∀ p, s.listens p = true → s.path = some p
  fresh : ∀ p, s.stage p = .bound → s.path = some p

theorem sole_empty : Sole empty where
  alone := by
    intro p q hp
    cases hp
  upright := by
    intro p hp
    cases hp
  kept := by
    intro p hp
    cases hp
  fresh := by
    intro p hp
    cases hp

theorem Sole.running_of_listens (h : Sole s) (hp : s.listens p = true) : s.running p = true := by
  rcases h.upright p hp with hStage | hStage | hStage <;> exact running_of_stage hStage (by decide) (by decide)

theorem Sole.silent (h : Sole s) (hRuns : s.running p = true) (hOther : q ≠ p) : s.listens q = false := by
  rw [← Bool.not_eq_true]
  intro hq
  exact hOther (h.alone q p (h.running_of_listens hq) hRuns)

theorem Sole.answers (h : Sole s) (hp : s.listens p = true) : s.answers = true := by
  rw [Site.answers, h.kept p hp]
  exact hp

theorem Sole.move (h : Sole s) {stage : Stage} (hStage : t.stage = Function.update s.stage p stage)
    (hOnly : ∀ q, q ≠ p → s.running q = false) (hOthers : ∀ q, q ≠ p → t.listens q = s.listens q)
    (hHere : t.listens p = true → Upright stage ∧ t.path = some p) (hFresh : stage = .bound → t.path = some p) :
    Sole t := by
  have hSilent : ∀ q, t.listens q = true → q = p := by
    intro q hq
    rcases eq_or_ne q p with hSame | hOther
    · exact hSame
    · rw [hOthers q hOther] at hq
      have hRuns := h.running_of_listens hq
      rw [hOnly q hOther] at hRuns
      cases hRuns
  have hStill : ∀ q, t.running q = true → q = p := by
    intro q hq
    rcases eq_or_ne q p with hSame | hOther
    · exact hSame
    · have hSame : t.stage q = s.stage q := by rw [hStage, Function.update_of_ne hOther]
      rw [running_congr hSame, hOnly q hOther] at hq
      cases hq
  constructor
  · intro q r hq hr
    rw [hStill q hq, hStill r hr]
  · intro q hq
    cases hSilent q hq
    rw [hStage, Function.update_self]
    exact (hHere hq).1
  · intro q hq
    cases hSilent q hq
    exact (hHere hq).2
  · intro q hq
    cases hStill q (running_of_stage hq (by decide) (by decide))
    rw [hStage, Function.update_self] at hq
    exact hFresh hq

theorem Sole.advance (h : Sole s) {stage : Stage} (hRuns : s.running p = true)
    (hStage : t.stage = Function.update s.stage p stage) (hOthers : ∀ q, q ≠ p → t.listens q = s.listens q)
    (hHere : t.listens p = true → Upright stage ∧ t.path = some p) (hFresh : stage = .bound → t.path = some p) :
    Sole t := by
  refine h.move hStage ?_ hOthers hHere hFresh
  intro q hOther
  rw [← Bool.not_eq_true]
  intro hq
  exact hOther (h.alone q p hq hRuns)

/-- A process that finds the daemon answering leaves again. -/
theorem Sole.leave (h : Sole s) (hIdle : s.stage p = .idle) : Sole (s.goes p .gone) := by
  have hRunning : ∀ q, (s.goes p .gone).running q = s.running q := by
    intro q
    rcases eq_or_ne q p with rfl | hOther
    · simp [running, hIdle]
    · exact running_congr (by simp [hOther])
  constructor
  · intro q r hq hr
    rw [hRunning] at hq hr
    exact h.alone q r hq hr
  · intro q hq
    rcases eq_or_ne q p with rfl | hOther
    · have hUpright := h.upright q hq
      rw [hIdle] at hUpright
      rcases hUpright with hNone | hNone | hNone <;> cases hNone
    · rw [stage_goes, Function.update_of_ne hOther]
      exact h.upright q hq
  · exact h.kept
  · intro q hq
    rcases eq_or_ne q p with rfl | hOther
    · simp at hq
    · rw [stage_goes, Function.update_of_ne hOther] at hq
      exact h.fresh q hq

theorem Sole.probe (h : Sole s) {rc : InUse} (hIdle : s.stage p = .idle) (hPossible : s.possible rc = true)
    (hApart : s.Apart (.socketInUse p rc)) : Sole (s.goes p (afterProbe rc)) := by
  obtain ⟨hAlone, hAnswered⟩ := hApart
  have hNobody : rc ≠ .answering → (∀ q, s.listens q = false) → Sole (s.goes p (afterProbe rc)) := by
    intro hStarts hSilent
    refine h.move rfl ?_ (fun _ _ => rfl) ?_ ?_
    · intro q _
      rw [← Bool.not_eq_true]
      intro hq
      exact hAlone hStarts q ⟨hq, hSilent q⟩
    · intro hp
      have hNone := (hSilent p).symm.trans hp
      cases hNone
    · cases rc <;> exact nofun
  cases rc with
  | answering => exact h.leave hIdle
  | stale =>
    refine hNobody (by decide) ?_
    intro q
    rw [← Bool.not_eq_true]
    intro hq
    change (!s.answers) = true at hPossible
    rw [h.answers hq] at hPossible
    cases hPossible
  | other => exact hNobody (by decide) (hAnswered rfl)

theorem Sole.mute (h : Sole s) {stage : Stage} (hStage : s.stage p = stage) (hNot : ¬ Upright stage) :
    s.listens p = false := by
  rw [← Bool.not_eq_true]
  intro hp
  have hUpright := h.upright p hp
  rw [hStage] at hUpright
  exact hNot hUpright

theorem Sole.advance_mute (h : Sole s) {before after : Stage} (hBefore : s.stage p = before)
    (hIdle : before ≠ .idle) (hGone : before ≠ .gone) (hNot : ¬ Upright before)
    (hStage : t.stage = Function.update s.stage p after) (hSame : t.listens = s.listens)
    (hFresh : after = .bound → t.path = some p) : Sole t := by
  refine h.advance (running_of_stage hBefore hIdle hGone) hStage ?_ ?_ hFresh
  · intro q _
    rw [hSame]
  · intro hp
    rw [hSame, h.mute hBefore hNot] at hp
    cases hp

theorem Sole.advance_upright (h : Sole s) {before after : Stage} (hBefore : s.stage p = before)
    (hIdle : before ≠ .idle) (hGone : before ≠ .gone) (hAfter : Upright after) : Sole (s.goes p after) := by
  refine h.advance (running_of_stage hBefore hIdle hGone) rfl (fun _ _ => rfl) ?_ ?_
  · intro hp
    exact ⟨hAfter, h.kept p hp⟩
  · rintro rfl
    rcases hAfter with hNone | hNone | hNone <;> cases hNone

theorem Sole.shut (h : Sole s) (hRuns : s.running p = true) {stage : Stage} (hOver : stage ≠ .bound) :
    Sole { s.goes p stage with listens := Function.update s.listens p false } := by
  refine h.advance hRuns rfl ?_ ?_ fun hNew => absurd hNew hOver
  · intro q hOther
    exact Function.update_of_ne hOther false s.listens
  · intro hp
    have hNone := (Function.update_self p false s.listens).symm.trans hp
    cases hNone

theorem sole_step {call : Call} (h : Sole s) (hApart : s.Apart call) (hStep : s.step call = some t) : Sole t := by
  cases call with
  | socketInUse p rc =>
    obtain ⟨⟨hIdle, hPossible⟩, hNext⟩ := Option.ite_none_right_eq_some.mp hStep
    cases hNext
    exact h.probe hIdle hPossible hApart
  | unlinkStale p =>
    obtain ⟨hStage, hNext⟩ := Option.ite_none_right_eq_some.mp hStep
    cases hNext
    exact h.advance_mute hStage (by decide) (by decide) (by simp [Upright]) rfl rfl nofun
  | daemonizeFails p =>
    obtain ⟨hStage, hNext⟩ := Option.ite_none_right_eq_some.mp hStep
    cases hNext
    exact h.advance_mute hStage (by decide) (by decide) (by simp [Upright]) rfl rfl nofun
  | initFails p =>
    obtain ⟨hStage, hNext⟩ := Option.ite_none_right_eq_some.mp hStep
    cases hNext
    exact h.advance_mute hStage (by decide) (by decide) (by simp [Upright]) rfl rfl nofun
  | bind p ok =>
    obtain ⟨hStage, hNext⟩ := Option.ite_none_right_eq_some.mp hStep
    split at hNext
    · cases hNext
      exact h.advance_mute hStage (by decide) (by decide) (by simp [Upright]) rfl rfl fun _ => rfl
    · cases hNext
      exact h.advance_mute hStage (by decide) (by decide) (by simp [Upright]) rfl rfl nofun
  | listen p ok =>
    obtain ⟨hStage, hNext⟩ := Option.ite_none_right_eq_some.mp hStep
    cases ok with
    | true =>
      cases hNext
      refine h.advance (running_of_stage hStage (by decide) (by decide)) rfl ?_ ?_ nofun
      · intro q hOther
        exact Function.update_of_ne hOther true s.listens
      · intro _
        exact ⟨Or.inl rfl, h.fresh p hStage⟩
    | false =>
      cases hNext
      exact h.advance_mute hStage (by decide) (by decide) (by simp [Upright]) rfl rfl nofun
  | initDone p ok =>
    obtain ⟨hStage, hNext⟩ := Option.ite_none_right_eq_some.mp hStep
    cases hNext
    refine h.advance_upright hStage (by decide) (by decide) ?_
    cases ok with
    | true => exact Or.inr (Or.inl rfl)
    | false => exact Or.inr (Or.inr rfl)
  | stop p =>
    obtain ⟨hStage, hNext⟩ := Option.ite_none_right_eq_some.mp hStep
    cases hNext
    exact h.advance_upright hStage (by decide) (by decide) (Or.inr (Or.inr rfl))
  | closeListen p =>
    obtain ⟨hStage, hNext⟩ := Option.ite_none_right_eq_some.mp hStep
    cases hNext
    exact h.shut (running_of_stage hStage (by decide) (by decide)) (by decide)
  | unlink p =>
    obtain ⟨hStage, hNext⟩ := Option.ite_none_right_eq_some.mp hStep
    cases hNext
    exact h.advance_mute hStage (by decide) (by decide) (by simp [Upright]) rfl rfl nofun
  | crash p =>
    obtain ⟨hRuns, hNext⟩ := Option.ite_none_right_eq_some.mp hStep
    cases hNext
    exact h.shut hRuns (by decide)

theorem Sole.spares {step : Step Site Call} (h : Sole step.before)
    (hStep : step.before.step step.input = some step.after) : Spares step := by
  rintro p q hUnlinks hOther ⟨_, hListens⟩
  have hRuns : step.before.running p = true := by
    cases hCall : step.input with
    | unlinkStale r =>
      rw [hCall] at hUnlinks hStep
      cases hUnlinks
      obtain ⟨hStage, _⟩ := Option.ite_none_right_eq_some.mp hStep
      exact running_of_stage hStage (by decide) (by decide)
    | unlink r =>
      rw [hCall] at hUnlinks hStep
      cases hUnlinks
      obtain ⟨hStage, _⟩ := Option.ite_none_right_eq_some.mp hStep
      exact running_of_stage hStage (by decide) (by decide)
    | _ => rw [hCall] at hUnlinks; cases hUnlinks
  rw [h.silent hRuns hOther] at hListens
  cases hListens

/-- Where starts stay apart from other starts and from the end of a daemon, a process that listens is the
one reachable at the path, and no unlink takes the path from it. -/
theorem single_owner {inputs : List Call} (hApart : startup.Meets Apart empty inputs)
    (hRun : startup.run inputs = some s) :
    (∀ p, s.listens p = true → s.Reachable p) ∧ (∀ p q, s.Reachable p → s.Reachable q → p = q) ∧
      ∀ step ∈ startup.steps inputs, Spares step := by
  have hKeeps : ∀ (s : Site) (i : Call) (t : Site), Sole s → s.Apart i → s.step i = some t → Sole t :=
    fun _ _ _ h hCondition hStep => sole_step h hCondition hStep
  have hEnd : Sole s := hApart.invariant hKeeps sole_empty hRun
  have hSteps := hApart.steps_spec hKeeps sole_empty
  constructor
  · intro p hp
    exact ⟨hEnd.kept p hp, hp⟩
  constructor
  · rintro p q ⟨hp, _⟩ ⟨hq, _⟩
    exact Option.some.inj (hp.symm.trans hq)
  · intro step hMem
    exact (hSteps step hMem).1.spares (hSteps step hMem).2

/-- A daemon that comes to listen, and another start that finds it answering. -/
theorem single_owner_answered : ∃ s, startup.run
    [.socketInUse 0 .stale, .unlinkStale 0, .bind 0 true, .listen 0 true, .socketInUse 1 .answering] = some s ∧
      s.Reachable 0 := by
  have hEmpty : ∀ q, ¬ empty.Exposed q := by
    rintro q ⟨hNone, _⟩
    cases hNone
  have hApart : startup.Meets Apart empty
      [.socketInUse 0 .stale, .unlinkStale 0, .bind 0 true, .listen 0 true, .socketInUse 1 .answering] :=
    .cons ⟨fun _ => hEmpty, nofun⟩ rfl (.cons trivial rfl (.cons trivial rfl (.cons trivial rfl
      (.cons ⟨fun hOther => absurd rfl hOther, nofun⟩ rfl Machine.meets_nil))))
  exact ⟨_, rfl, (single_owner hApart rfl).1 0 rfl⟩

/-- Two starts at once: the second one fails at bind, and its shutdown unlinks the socket of the first. -/
theorem owner_unlinked : ∃ s, startup.run
    [.socketInUse 0 .stale, .socketInUse 1 .stale, .unlinkStale 0, .unlinkStale 1, .bind 0 true, .listen 0 true,
      .initDone 0 true, .bind 1 true, .closeListen 1, .unlink 1] = some s ∧
        s.stage 0 = .serving ∧ s.listens 0 = true ∧ ¬ s.Reachable 0 ∧
          ∃ step ∈ startup.steps [.socketInUse 0 .stale, .socketInUse 1 .stale, .unlinkStale 0, .unlinkStale 1,
            .bind 0 true, .listen 0 true, .initDone 0 true, .bind 1 true, .closeListen 1, .unlink 1],
              ¬ Spares step := by
  refine ⟨_, rfl, rfl, rfl, ?_, ?_⟩
  · rintro ⟨hPath, _⟩
    cases hPath
  · refine ⟨_, List.mem_of_getLast? rfl, ?_⟩
    intro hSpares
    exact hSpares 1 0 rfl (by decide) ⟨rfl, rfl⟩

end Site

end Epimone.Startup
