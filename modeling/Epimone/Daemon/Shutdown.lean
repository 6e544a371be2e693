import Epimone.Daemon.Children

/-! # Signals and the end of the daemon

epi_server_shutdown hangs up every living session and frees what is left; the
descriptors of the server itself and its socket path are not part of this
state. A signal is sent to a pid, and what it reaches is the child that has the
pid then: it is always the child of the session whose record the pid was taken
from, because that child has not been waited for.
-/
set_option autoImplicit false

namespace Epimone.Daemon

open Transition History

def hangupAll : List SessPtr → Server → Server
  | [], srv => srv
  | s :: rest, srv => hangupAll rest (epiSessionHangup srv s)

def dropConns : List ConnPtr → Server → Server
  | [], srv => srv
  | c :: rest, srv =>
    let srv := { srv with conns := rest }.emit (.closed c)
    dropConns rest ((srv.modConn c fun _ => .blank).modIn c fun _ => ⟨[], 0⟩)

/-- epi_session_free, for a session whose PTY may still be open. -/
def epiSessionFree (srv : Server) (s : SessPtr) : Server :=
  freeSession (if (srv.sess s).ptyOpen then closePty srv s else srv) s

def dropSessions : List SessPtr → Server → Server
  | [], srv => srv
  | s :: rest, srv => dropSessions rest (epiSessionFree { srv with sessions := rest } s)

def epiServerShutdown (srv : Server) : Server :=
  let srv := hangupAll srv.sessions srv
  let srv := dropConns srv.conns srv
  let srv := dropSessions srv.sessions srv
  let srv := reapDeadSessions srv
  { srv with groups := [] }

/-- A signal reaches a child that the daemon forked and has not waited for. -/
def ownChild (history : List Effect) : Effect → Prop
  | .signal child pid _ =>
    ∃ s, child = some s ∧ .reaped s ∉ history ∧
      ∃ cwd argv env exec, .forked s pid cwd argv env exec ∈ history
  | _ => True

def Server.Begotten (srv : Server) : Prop :=
  ∀ e ∈ srv.children, ∃ cwd argv env exec, .forked e.2 e.1 cwd argv env exec ∈ srv.trace

section Perform

variable {srv : Server} {a : Act}

theorem begotten_perform (h : srv.Begotten) (hGuard : a.guard srv) : (a.perform srv).Begotten := by
  intro e he
  rw [trace_perform]
  have hOld : e ∈ srv.children →
      ∃ cwd argv env exec, .forked e.2 e.1 cwd argv env exec ∈ srv.trace ++ a.effects srv := by
    intro heIn
    obtain ⟨cwd, argv, env, exec, hForked⟩ := h e heIn
    exact ⟨cwd, argv, env, exec, List.mem_append_left _ hForked⟩
  cases hBegets : a.begets with
  | false =>
    rw [children_of_barren hBegets] at he
    exact hOld he
  | true =>
    cases a with
    | fork pid cwd argv env exec =>
      rcases List.mem_cons.mp he with rfl | heIn
      · exact ⟨cwd, argv, env, exec, by simp [Act.effects]⟩
      · exact hOld heIn
    | create pid cwd argv env exec k =>
      rcases List.mem_cons.mp he with rfl | heIn
      · exact ⟨cwd, argv, env, exec, by simp [Act.effects]⟩
      · exact hOld heIn
    | reap pid status child =>
      refine hOld ?_
      simp only [Act.perform, markReaped_eq] at he
      exact (List.mem_filter.mp he).1
    | unlink s =>
      simp only [Act.perform, unlinkMember_eq] at he
      exact hOld he
    | free s rest => exact hOld he
    | _ => cases hBegets

theorem ownChild_of_mem (hKin : srv.Kin) (h : srv.Begotten) {pid : Nat} {s : SessPtr}
    (hChild : (pid, s) ∈ srv.children) (sig : Signal) :
    ownChild srv.trace (.signal (srv.childOf pid) pid sig) :=
  ⟨s, hKin.childOf_eq hChild, hKin.unreaped _ hChild, h _ hChild⟩

theorem signal_mem_effects {child : Option SessPtr} {pid : Nat} {sig : Signal}
    (h : .signal child pid sig ∈ a.effects srv) :
    a = .signal pid sig ∧ child = srv.childOf pid ∨
      ∃ s, a = .escalate s ∧ child = srv.childOf pid ∧ pid = (srv.sess s).pid := by
  cases a with
  | signal pid' sig' =>
    obtain ⟨rfl, rfl, rfl⟩ : child = srv.childOf pid' ∧ pid = pid' ∧ sig = sig' := by
      simpa [Act.effects] using h
    exact Or.inl ⟨rfl, rfl⟩
  | escalate s =>
    obtain ⟨_, _, rfl, rfl, _⟩ := by simpa [Act.effects] using h
    exact Or.inr ⟨s, rfl, rfl, rfl⟩
  | attach => simp [Act.effects, attachEffects] at h
  | _ => simp [Act.effects] at h

/-- An action emits at most one signal, and nothing before it. -/
theorem alone_of_signal {child : Option SessPtr} {pid : Nat} {sig : Signal} {before after : List Effect}
    (h : a.effects srv = before ++ .signal child pid sig :: after) : before = [] := by
  have hIn : .signal child pid sig ∈ a.effects srv := by rw [h]; simp
  have hOne : (a.effects srv).length ≤ 1 := by
    rcases signal_mem_effects hIn with ⟨rfl, _⟩ | ⟨s, rfl, _⟩
    · exact Nat.le_refl 1
    · rw [Act.effects, killEffects]
      split
      · exact Nat.le_refl 1
      · exact Nat.zero_le 1
  rw [h, List.length_append, List.length_cons] at hOne
  exact List.length_eq_zero_iff.mp (by omega)

theorem ownChild_perform (hKin : srv.Kin) (h : srv.Begotten) (hGuard : a.guard srv) :
    Lawful (fun history => ownChild (srv.trace ++ history)) (a.effects srv) := by
  intro before e after hSplit
  cases e with
  | signal child pid sig =>
    obtain rfl := alone_of_signal hSplit
    rw [List.append_nil]
    have hIn : .signal child pid sig ∈ a.effects srv := by rw [hSplit]; simp
    rcases signal_mem_effects hIn with ⟨rfl, rfl⟩ | ⟨s, rfl, rfl, rfl⟩
    · rcases hGuard.2 with ⟨s, hs, hAlive, rfl⟩ | hSome
      · exact ownChild_of_mem hKin h (hKin.living s hs hAlive) sig
      · obtain ⟨s, hChild⟩ := Option.ne_none_iff_exists'.mp hSome
        exact ownChild_of_mem hKin h (mem_of_childOf hChild) sig
    · exact ownChild_of_mem hKin h (hKin.living s hGuard.1 hGuard.2.2) sig
  | _ => trivial

theorem Reached.begotten {instanceId : Nat} (h : Reached instanceId srv) : srv.Begotten :=
  Reached.invariant (fun _ he => (nomatch he)) (fun _ _ _ => begotten_perform) h

theorem Reached.ownChild {instanceId : Nat} (h : Reached instanceId srv) :
    Lawful ownChild srv.trace := by
  have hAll : (srv.Kin ∧ srv.Begotten) ∧ Lawful Daemon.ownChild srv.trace := by
    refine Reached.invariant (P := fun t => (t.Kin ∧ t.Begotten) ∧ Lawful Daemon.ownChild t.trace)
      ⟨⟨initial_kin instanceId, fun _ he => (nomatch he)⟩, lawful_nil⟩ ?_ h
    rintro t a hLinks ⟨⟨hKin, hBegotten⟩, hLaw⟩ hGuard
    exact ⟨⟨kin_perform hLinks hKin hGuard, begotten_perform hBegotten hGuard⟩,
      lawful_perform.mpr ⟨hLaw, ownChild_perform hKin hBegotten hGuard⟩⟩
  exact hAll.2

end Perform

section Spec

variable {srv : Server}

theorem Server.Kin.kill (hKin : srv.Kin) {s : SessPtr} (hs : s ∈ srv.sessions)
    (hAlive : (srv.sess s).alive = true) (sig : Signal) :
    srv.kill (srv.sess s).pid sig = srv.emit (.signal (some s) (srv.sess s).pid sig) := by
  rw [Server.kill, hKin.childOf_eq (hKin.living s hs hAlive)]

theorem Server.Kin.epiSessionHangup (hKin : srv.Kin) {s : SessPtr} (hs : s ∈ srv.sessions) :
    Daemon.epiSessionHangup srv s =
      if (srv.sess s).alive then srv.emit (.signal (some s) (srv.sess s).pid .hup) else srv := by
  unfold Daemon.epiSessionHangup
  dsimp only
  cases hAlive : (srv.sess s).alive with
  | false => rfl
  | true =>
    rw [if_pos ⟨rfl, hKin.positive _ (hKin.living s hs hAlive)⟩, hKin.kill hs hAlive]
    rfl

theorem Server.Kin.epiSessionKill (hKin : srv.Kin) {s : SessPtr} (hs : s ∈ srv.sessions) :
    Daemon.epiSessionKill srv s =
      if (srv.sess s).alive then srv.emit (.signal (some s) (srv.sess s).pid .kill) else srv := by
  unfold Daemon.epiSessionKill
  dsimp only
  cases hAlive : (srv.sess s).alive with
  | false => rfl
  | true =>
    rw [if_pos ⟨rfl, hKin.positive _ (hKin.living s hs hAlive)⟩, hKin.kill hs hAlive]
    rfl

def hangups (srv : Server) (sessions : List SessPtr) : List Effect :=
  (sessions.filter fun s => (srv.sess s).alive).map fun s => .signal (some s) (srv.sess s).pid .hup

theorem Server.Kin.emit_signal (hKin : srv.Kin) (child : Option SessPtr) (pid : Nat) (sig : Signal) :
    (srv.emit (.signal child pid sig)).Kin :=
  hKin.congr rfl rfl rfl (fun _ _ => rfl) (fun _ _ => rfl) fun s hs => by
    simpa [Server.emit] using hs

theorem Server.Kin.hangupAll (hKin : srv.Kin) (sessions : List SessPtr)
    (hListed : ∀ s ∈ sessions, s ∈ srv.sessions) :
    Daemon.hangupAll sessions srv = { srv with trace := srv.trace ++ hangups srv sessions } := by
  induction sessions generalizing srv with
  | nil => simp [Daemon.hangupAll, hangups]
  | cons s rest ih =>
    rw [Daemon.hangupAll, hKin.epiSessionHangup (hListed s List.mem_cons_self)]
    have hRest : ∀ t ∈ rest, t ∈ srv.sessions := fun t ht => hListed t (List.mem_cons_of_mem _ ht)
    cases hAlive : (srv.sess s).alive with
    | false =>
      rw [if_neg Bool.false_ne_true, ih hKin hRest]
      simp [hangups, hAlive]
    | true =>
      rw [if_pos rfl, ih (hKin.emit_signal _ _ _) hRest]
      simp [hangups, hAlive, Server.emit]

theorem dropConns_trace (conns : List ConnPtr) :
    (dropConns conns srv).trace = srv.trace ++ conns.map .closed ∧ (dropConns conns srv).sess = srv.sess ∧
      (dropConns conns srv).sessions = srv.sessions ∧ (dropConns conns srv).dead = srv.dead := by
  induction conns generalizing srv with
  | nil => simp [dropConns]
  | cons c rest ih =>
    rw [dropConns]
    obtain ⟨hTrace, hSess, hSessions, hDead⟩ := @ih _
    refine ⟨?_, hSess, hSessions, hDead⟩
    rw [hTrace]
    simp [Server.emit, Server.modConn, Server.modIn]

def freeEffects (srv : Server) (s : SessPtr) : List Effect :=
  if (srv.sess s).ptyOpen then [.ptyClosed s, .freed s] else [.freed s]

theorem epiSessionFree_trace (s : SessPtr) :
    (epiSessionFree srv s).trace = srv.trace ++ freeEffects srv s := by
  unfold epiSessionFree freeEffects
  split <;> simp [freeSession, closePty, Server.emit, Server.modSess]

theorem epiSessionFree_sess {s t : SessPtr} (h : t ≠ s) : (epiSessionFree srv s).sess t = srv.sess t := by
  unfold epiSessionFree
  split <;> simp [freeSession, closePty, Server.emit, Server.modSess, h]

theorem epiSessionFree_dead (s : SessPtr) : (epiSessionFree srv s).dead = srv.dead := by
  unfold epiSessionFree
  split <;> rfl

theorem dropSessions_spec (sessions : List SessPtr) (hNodup : sessions.Nodup) :
    (dropSessions sessions srv).trace = srv.trace ++ sessions.flatMap (freeEffects srv) ∧
      (dropSessions sessions srv).dead = srv.dead ∧
      ∀ t, t ∉ sessions → (dropSessions sessions srv).sess t = srv.sess t := by
  induction sessions generalizing srv with
  | nil => simp [dropSessions]
  | cons s rest ih =>
    obtain ⟨hFresh, hRest⟩ := List.nodup_cons.mp hNodup
    rw [dropSessions]
    obtain ⟨hTrace, hDead, hSess⟩ := @ih (epiSessionFree { srv with sessions := rest } s) hRest
    have hSame : ∀ t ∈ rest, freeEffects (epiSessionFree { srv with sessions := rest } s) t =
        freeEffects srv t := by
      intro t ht
      have hNe : t ≠ s := fun hEq => hFresh (hEq ▸ ht)
      rw [freeEffects, freeEffects, epiSessionFree_sess hNe]
    refine ⟨?_, hDead.trans (epiSessionFree_dead s), ?_⟩
    · rw [hTrace, epiSessionFree_trace, List.flatMap_cons, List.append_assoc, List.flatMap_congr hSame]
      rfl
    · intro t ht
      obtain ⟨hNe, hOther⟩ := not_or.mp fun hOr => ht (List.mem_cons.mpr hOr)
      rw [hSess t hOther, epiSessionFree_sess hNe]

theorem reapDead_trace (dead : List SessPtr) : (reapDead dead srv).trace = srv.trace ++ dead.map .freed := by
  induction dead generalizing srv with
  | nil => simp [reapDead]
  | cons s rest ih =>
    rw [reapDead, ih]
    simp [freeSession, Server.emit, Server.modSess]

def shutdownEffects (srv : Server) : List Effect :=
  hangups srv srv.sessions ++ srv.conns.map .closed ++ srv.sessions.flatMap (freeEffects srv) ++
    srv.dead.map .freed

theorem epiServerShutdown_trace (hKin : srv.Kin) (hNodup : srv.sessions.Nodup) :
    (epiServerShutdown srv).trace = srv.trace ++ shutdownEffects srv := by
  unfold epiServerShutdown
  dsimp only
  rw [hKin.hangupAll srv.sessions fun _ hs => hs]
  generalize hHung : ({ srv with trace := srv.trace ++ hangups srv srv.sessions } : Server) = hung
  obtain ⟨hTrace, hSess, hSessions, hDead⟩ := @dropConns_trace hung hung.conns
  generalize hShut : dropConns hung.conns hung = shut at hTrace hSess hSessions hDead ⊢
  have hListed : shut.sessions = srv.sessions := by rw [hSessions, ← hHung]
  have hSame : freeEffects shut = freeEffects srv := by
    funext s
    rw [freeEffects, freeEffects, hSess, ← hHung]
  obtain ⟨hFreed, hDead', _⟩ := @dropSessions_spec shut shut.sessions (by rw [hListed]; exact hNodup)
  rw [reapDeadSessions, reapDead_trace, hFreed, hDead', hDead, hTrace, hListed, hSame, ← hHung]
  simp [shutdownEffects]

theorem signal_mem_shutdown {child : Option SessPtr} {pid : Nat} {sig : Signal}
    (h : .signal child pid sig ∈ shutdownEffects srv) :
    ∃ s ∈ srv.sessions, (srv.sess s).alive = true ∧ child = some s ∧ pid = (srv.sess s).pid := by
  simp only [shutdownEffects, List.mem_append] at h
  rcases h with ((hHung | hClosed) | hDropped) | hFreed
  · obtain ⟨s, hs, hSignal⟩ := List.mem_map.mp hHung
    cases hSignal
    obtain ⟨hListed, hAlive⟩ := List.mem_filter.mp hs
    exact ⟨s, hListed, hAlive, rfl, rfl⟩
  · simp at hClosed
  · obtain ⟨s, _, hs⟩ := List.mem_flatMap.mp hDropped
    unfold freeEffects at hs
    split at hs <;> simp at hs
  · simp at hFreed

theorem reaped_not_mem_shutdown (s : SessPtr) : .reaped s ∉ shutdownEffects srv := by
  intro h
  simp only [shutdownEffects, hangups, List.mem_append, List.mem_map, List.mem_flatMap] at h
  rcases h with ((⟨t, _, hSignal⟩ | ⟨c, _, hClosed⟩) | ⟨t, _, hDropped⟩) | ⟨t, _, hFreed⟩
  · cases hSignal
  · cases hClosed
  · unfold freeEffects at hDropped
    split at hDropped <;> simp at hDropped
  · cases hFreed

theorem lawful_shutdownEffects (hKin : srv.Kin) (h : srv.Begotten) :
    Lawful (fun history => ownChild (srv.trace ++ history)) (shutdownEffects srv) := by
  intro before e after hSplit
  cases e with
  | signal child pid sig =>
    have hIn : .signal child pid sig ∈ shutdownEffects srv := by rw [hSplit]; simp
    obtain ⟨s, hs, hAlive, rfl, rfl⟩ := signal_mem_shutdown hIn
    have hChild := hKin.living s hs hAlive
    obtain ⟨cwd, argv, env, exec, hForked⟩ := h _ hChild
    refine ⟨s, rfl, fun hReaped => ?_, cwd, argv, env, exec, List.mem_append_left _ hForked⟩
    rcases List.mem_append.mp hReaped with hOld | hNew
    · exact hKin.unreaped _ hChild hOld
    · refine @reaped_not_mem_shutdown srv s ?_
      rw [hSplit]
      exact List.mem_append_left _ hNew
  | _ => trivial

end Spec

theorem dropClient_alive (srv : Server) (s t : SessPtr) :
    ((dropClient srv s).sess t).alive = (srv.sess t).alive := by
  unfold dropClient
  split
  · rfl
  · rcases eq_or_ne t s with rfl | hNe
    · simp [unbindClient, Server.modSess, Server.modConn, Server.emit]
    · simp [unbindClient, Server.modSess, Server.modConn, Server.emit, hNe]

theorem removeSession_alive (srv : Server) (s t : SessPtr) :
    ((removeSession srv s).sess t).alive = (srv.sess t).alive := by
  unfold removeSession
  dsimp only
  split
  · rfl
  rw [gcGroupIfEmpty_eq, noteLeft_eq, ← dropClient_alive srv s t]
  generalize dropClient srv s = dropped
  rcases eq_or_ne t s with rfl | hNe
  · split <;> simp [unlinkSession, closePty, Server.modSess, Server.emit]
  · split <;> simp [unlinkSession, closePty, Server.modSess, Server.emit, hNe]

/-- One turn of the loop of reap_children: the walk stops at the session that is marked. -/
theorem reapChild_eq {srv : Server} {pid : Nat} {child : SessPtr} (status : Nat)
    (hChild : srv.childOf pid = some child) :
    reapChild srv pid status =
      match sessionOfPid srv pid with
      | none => markReaped srv pid status child
      | some s =>
        if ((markReaped srv pid status child).sess s).removed then
          removeSession (markReaped srv pid status child) s
        else markReaped srv pid status child := by
  cases hOwner : sessionOfPid srv pid with
  | none =>
    unfold sessionOfPid at hOwner
    simp only [reapChild, markReaped, hChild, Server.emit, hOwner]
  | some s =>
    unfold sessionOfPid at hOwner
    simp only [reapChild, markReaped, hChild, Server.emit, hOwner]
    rfl

theorem reapChild_alive {srv : Server} (hKin : srv.Kin) {pid : Nat} {s : SessPtr} (status : Nat)
    (hChild : srv.childOf pid = some s) (hs : s ∈ srv.sessions) :
    ((reapChild srv pid status).sess s).alive = false ∧
      ∀ t, t ≠ s → ((reapChild srv pid status).sess t).alive = (srv.sess t).alive := by
  have hOwner : sessionOfPid srv pid = some s := hKin.owner _ (mem_of_childOf hChild) hs
  have hReap : ∀ t, ((reapChild srv pid status).sess t).alive =
      ((markReaped srv pid status s).sess t).alive := by
    intro t
    rw [reapChild_eq status hChild, hOwner]
    dsimp only
    split
    · exact removeSession_alive _ _ _
    · rfl
  refine ⟨?_, fun t hNe => ?_⟩
  · rw [hReap, markReaped_sess, if_pos hOwner]
  · rw [hReap, markReaped_sess, if_neg]
    rw [hOwner]
    exact fun hSame => hNe (Option.some.inj hSame).symm

/-- A living session has a child that has not been waited for, and it is the one that every signal sent
for the session reaches. -/
theorem signals_own_children {instanceId : Nat} {srv : Server} (h : Reached instanceId srv) :
    (∀ s ∈ srv.sessions, (srv.sess s).alive = true →
      srv.childOf (srv.sess s).pid = some s ∧ .reaped s ∉ srv.trace) ∧
    (∀ s ∈ srv.sessions,
      epiSessionHangup srv s =
        (if (srv.sess s).alive then srv.emit (.signal (some s) (srv.sess s).pid .hup) else srv) ∧
      epiSessionKill srv s =
        if (srv.sess s).alive then srv.emit (.signal (some s) (srv.sess s).pid .kill) else srv) ∧
    Lawful ownChild srv.trace ∧ Lawful ownChild (epiServerShutdown srv).trace ∧
    ∀ pid status s, srv.childOf pid = some s → s ∈ srv.sessions → (srv.sess s).alive = true →
      ((reapChild srv pid status).sess s).alive = false ∧
        ∀ t, t ≠ s → ((reapChild srv pid status).sess t).alive = (srv.sess t).alive := by
  have hKin := h.kin
  have hUnreaped : ∀ s ∈ srv.sessions, (srv.sess s).alive = true → .reaped s ∉ srv.trace :=
    fun s hs hAlive => hKin.unreaped _ (hKin.living s hs hAlive)
  refine ⟨?_, ?_, h.ownChild, ?_, ?_⟩
  · intro s hs hAlive
    exact ⟨hKin.childOf_eq (hKin.living s hs hAlive), hUnreaped s hs hAlive⟩
  · intro s hs
    exact ⟨hKin.epiSessionHangup hs, hKin.epiSessionKill hs⟩
  · rw [epiServerShutdown_trace hKin h.consistent.sessions_nodup, lawful_append]
    exact ⟨h.ownChild, lawful_shutdownEffects hKin h.begotten⟩
  · intro pid status s hChild hs _
    exact reapChild_alive hKin status hChild hs

/-- A session that lives, and what its SIGKILL reaches. -/
theorem signals_own_children_attaching :
    ∃ srv, Reached 7 srv ∧ (srv.sess 0).alive = true ∧
      epiSessionKill srv 0 = srv.emit (.signal (some 0) (srv.sess 0).pid .kill) := by
  have hRun : ((machine 7).run attaching).any fun loop =>
      loop.srv.sessions == [0] && (loop.srv.sess 0).alive := by decide +kernel
  obtain ⟨loop, hLoop, hHere⟩ := (machine 7).exists_of_run_any hRun
  obtain ⟨hSessions, hAlive⟩ : loop.srv.sessions = [0] ∧ (loop.srv.sess 0).alive = true := by
    simpa using hHere
  have hReached := reached_of_run hLoop
  refine ⟨loop.srv, hReached, hAlive, ?_⟩
  have hKill := ((signals_own_children hReached).2.1 0 (by rw [hSessions]; simp)).2
  rw [if_pos hAlive] at hKill
  exact hKill

end Epimone.Daemon
