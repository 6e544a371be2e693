import Epimone.Daemon.Changes
import Epimone.Daemon.Runs
import Mathlib.Data.List.Find

/-! # The children of the daemon

waitpid names a child by its pid, and the daemon looks for the first session of
its list with that pid. A pid can be used again once its child has been waited
for, so a dead session may carry the pid of a living one; it stands behind it
in the list, because the later session was put in front. So the child that is
waited for and the session that is marked dead belong together.
-/
set_option autoImplicit false

namespace Epimone.Daemon

open Transition

theorem mem_of_childOf {srv : Server} {pid : Nat} {s : SessPtr} (h : srv.childOf pid = some s) :
    (pid, s) ∈ srv.children := by
  obtain ⟨before, after, hSplit, _⟩ := List.lookup_eq_some_iff.mp h
  rw [hSplit]
  exact List.mem_append_right _ List.mem_cons_self

theorem ne_of_childOf_eq_none {srv : Server} {pid : Nat} (h : srv.childOf pid = none)
    {e : Nat × SessPtr} (he : e ∈ srv.children) : e.1 ≠ pid := by
  have hKey := List.lookup_eq_none_iff.mp h e he
  rintro rfl
  simp at hKey

theorem find?_erase {α : Type} [BEq α] [LawfulBEq α] {p : α → Bool} {l : List α} {x y : α}
    (h : l.find? p = some x) (hNe : x ≠ y) : (l.erase y).find? p = some x := by
  induction l with
  | nil => cases h
  | cons z l ih =>
    rw [List.erase_cons]
    split
    · rename_i hSame
      obtain rfl : z = y := eq_of_beq hSame
      rw [List.find?_cons] at h
      split at h
      · cases h
        exact absurd rfl hNe
      · exact h
    · rw [List.find?_cons] at h ⊢
      split
      · rename_i hFound
        rw [hFound] at h
        exact h
      · rename_i hOther
        rw [hOther] at h
        exact ih h

/-- The children and the sessions of the daemon match. -/
structure Server.Kin (srv : Server) : Prop where
  pids : (srv.children.map Prod.fst).Nodup
  pointers : (srv.children.map Prod.snd).Nodup
  positive : ∀ e ∈ srv.children, 0 < e.1
  below : ∀ e ∈ srv.children, e.2 < srv.nextSess
  reaped_below : ∀ s, .reaped s ∈ srv.trace → s < srv.nextSess
  unreaped : ∀ e ∈ srv.children, .reaped e.2 ∉ srv.trace
  owner : ∀ e ∈ srv.children, e.2 ∈ srv.sessions → sessionOfPid srv e.1 = some e.2
  living : ∀ s ∈ srv.sessions, (srv.sess s).alive = true → ((srv.sess s).pid, s) ∈ srv.children

namespace Server.Kin

variable {srv : Server}

theorem dead (h : srv.Kin) {s : SessPtr} (hs : s ∈ srv.sessions) (hReaped : .reaped s ∈ srv.trace) :
    (srv.sess s).alive = false := by
  cases hAlive : (srv.sess s).alive with
  | false => rfl
  | true => exact absurd hReaped (h.unreaped _ (h.living s hs hAlive))

theorem childOf_eq (h : srv.Kin) {pid : Nat} {s : SessPtr} (hChild : (pid, s) ∈ srv.children) :
    srv.childOf pid = some s := by
  cases hLookup : srv.childOf pid with
  | none => exact absurd rfl (ne_of_childOf_eq_none hLookup hChild)
  | some t =>
    have hSame : (pid, t) = (pid, s) :=
      List.inj_on_of_nodup_map h.pids (mem_of_childOf hLookup) hChild rfl
    rw [(Prod.mk.inj hSame).2]

theorem congr {srv' : Server} (h : srv.Kin) (hChildren : srv'.children = srv.children)
    (hSessions : srv'.sessions = srv.sessions) (hNext : srv'.nextSess = srv.nextSess)
    (hPid : ∀ s ∈ srv.sessions, (srv'.sess s).pid = (srv.sess s).pid)
    (hAlive : ∀ s ∈ srv.sessions, (srv'.sess s).alive = (srv.sess s).alive)
    (hReaped : ∀ s, .reaped s ∈ srv'.trace → .reaped s ∈ srv.trace) : srv'.Kin := by
  constructor
  · rw [hChildren]
    exact h.pids
  · rw [hChildren]
    exact h.pointers
  · rw [hChildren]
    exact h.positive
  · rw [hChildren, hNext]
    exact h.below
  · intro s hs
    rw [hNext]
    exact h.reaped_below s (hReaped s hs)
  · rw [hChildren]
    exact fun e he hIn => h.unreaped e he (hReaped _ hIn)
  · rw [hChildren, hSessions]
    intro e he hs
    have hFind : srv'.sessions.find? (fun s => (srv'.sess s).pid == e.1) =
        srv.sessions.find? fun s => (srv.sess s).pid == e.1 := by
      rw [hSessions]
      exact List.find?_congr fun s hIn => by rw [hPid s hIn]
    exact hFind.trans (h.owner e he hs)
  · rw [hChildren, hSessions]
    intro s hs hLive
    rw [hPid s hs]
    exact h.living s hs ((hAlive s hs).symm.trans hLive)

end Server.Kin

/-- The actions that change the children, the list of the sessions, or a dead session. -/
def Act.begets : Act → Bool
  | .fork .. | .create .. | .reap .. | .unlink _ | .free .. => true
  | _ => false

section Perform

variable {srv : Server} {a : Act}

theorem reaped_mem_effects {s : SessPtr} (h : .reaped s ∈ a.effects srv) :
    ∃ pid status, a = .reap pid status s := by
  cases a <;> simp [Act.effects, attachEffects] at h
  obtain rfl := h
  exact ⟨_, _, rfl⟩

theorem reaped_of_perform (hOther : ∀ pid status child, a ≠ .reap pid status child) (s : SessPtr)
    (h : .reaped s ∈ (a.perform srv).trace) : .reaped s ∈ srv.trace := by
  rw [trace_perform] at h
  refine (List.mem_append.mp h).resolve_right fun hNew => ?_
  obtain ⟨pid, status, rfl⟩ := reaped_mem_effects hNew
  exact hOther pid status s rfl

theorem session_of_barren (hBarren : a.begets = false) {s : SessPtr} {k : Session}
    (h : a.sessionAfter srv = some (s, k)) :
    k.pid = (srv.sess s).pid ∧ k.alive = (srv.sess s).alive := by
  cases a <;> simp [Act.sessionAfter, Act.begets, Option.bind_eq_some_iff] at h hBarren <;> grind

theorem children_of_barren (hBarren : a.begets = false) :
    (a.perform srv).children = srv.children := by
  cases a with
  | queue c data alloc => simp only [Act.perform, enqueue_eq]
  | attach c s ans => simp only [Act.perform, bindClient_eq]
  | relay s c chunk ringAlloc queueAlloc =>
    simp only [Act.perform, enqueue_eq, readOutput, Server.modSess, Server.emit]
  | kill s clock => simp only [Act.perform, markKilled_eq]; rfl
  | move s gid => simp only [Act.perform, moveSession_eq]; rfl
  | close c => simp only [Act.perform, connClose_eq]
  | escalate s => simp only [Act.perform, epiSessionKill_eq, Server.modSess]
  | fork | create | reap | unlink | free => cases hBarren
  | _ => rfl

theorem relink_of_barren (hBarren : a.begets = false) (l : Links) :
    (a.relink l).sessions = l.sessions ∧ (a.relink l).nextSess = l.nextSess := by
  cases a <;> first | exact ⟨rfl, rfl⟩ | cases hBarren

theorem kin_of_barren (hBarren : a.begets = false) (hGuard : a.guard srv) (h : srv.Kin) :
    (a.perform srv).Kin := by
  obtain ⟨hSessions, hNext⟩ := relink_of_barren hBarren srv.links
  have hLinks := links_perform hGuard
  refine h.congr (children_of_barren hBarren) ((congrArg Links.sessions hLinks).trans hSessions)
    ((congrArg Links.nextSess hLinks).trans hNext) ?_ ?_ ?_
  · intro s _
    exact sess_perform_field Session.pid (fun s k hAfter => (session_of_barren hBarren hAfter).1) s
  · intro s _
    exact sess_perform_field Session.alive (fun s k hAfter => (session_of_barren hBarren hAfter).2) s
  · exact reaped_of_perform (by rintro pid status child rfl; cases hBarren)

theorem Server.Kin.born {srv' : Server} (h : srv.Kin) {pid : Nat} (hPid : pid ≠ 0)
    (hFree : srv.childOf pid = none) (hLt : ∀ s ∈ srv.sessions, s < srv.nextSess)
    (hChildren : srv'.children = (pid, srv.nextSess) :: srv.children)
    (hNext : srv'.nextSess = srv.nextSess + 1)
    (hSessions : srv'.sessions = srv.sessions ∨ srv'.sessions = srv.nextSess :: srv.sessions)
    (hOld : ∀ s, s ≠ srv.nextSess → srv'.sess s = srv.sess s)
    (hOwn : srv.nextSess ∈ srv'.sessions → (srv'.sess srv.nextSess).pid = pid)
    (hReaped : ∀ s, .reaped s ∈ srv'.trace → .reaped s ∈ srv.trace) : srv'.Kin := by
  have hNe : ∀ s ∈ srv.sessions, s ≠ srv.nextSess := fun s hs => Nat.ne_of_lt (hLt s hs)
  have hKept : ∀ p, srv.sessions.find? (fun s => (srv'.sess s).pid == p) = sessionOfPid srv p :=
    fun p => List.find?_congr fun s hs => by rw [hOld s (hNe s hs)]
  have hMem : ∀ s ∈ srv'.sessions, s = srv.nextSess ∨ s ∈ srv.sessions := by
    intro s hs
    rcases hSessions with hSame | hGrown
    · exact Or.inr (hSame ▸ hs)
    · exact List.mem_cons.mp (hGrown ▸ hs)
  constructor
  · rw [hChildren, List.map_cons, List.nodup_cons]
    refine ⟨fun hUsed => ?_, h.pids⟩
    obtain ⟨e, he, hSame⟩ := List.mem_map.mp hUsed
    exact ne_of_childOf_eq_none hFree he hSame
  · rw [hChildren, List.map_cons, List.nodup_cons]
    refine ⟨fun hUsed => ?_, h.pointers⟩
    obtain ⟨e, he, hSame⟩ := List.mem_map.mp hUsed
    exact Nat.ne_of_lt (h.below e he) hSame
  · rw [hChildren]
    exact List.forall_mem_cons.mpr ⟨Nat.pos_of_ne_zero hPid, h.positive⟩
  · rw [hChildren, hNext]
    exact List.forall_mem_cons.mpr ⟨Nat.lt_succ_self _, fun e he => Nat.lt_succ_of_lt (h.below e he)⟩
  · intro s hs
    rw [hNext]
    exact Nat.lt_succ_of_lt (h.reaped_below s (hReaped s hs))
  · rw [hChildren]
    refine List.forall_mem_cons.mpr ⟨fun hs => ?_, fun e he hs => h.unreaped e he (hReaped _ hs)⟩
    exact Nat.lt_irrefl _ (h.reaped_below _ (hReaped _ hs))
  · rw [hChildren]
    refine List.forall_mem_cons.mpr ⟨fun hIn => ?_, fun e he hIn => ?_⟩
    · have hGrown : srv'.sessions = srv.nextSess :: srv.sessions :=
        hSessions.resolve_left fun hSame => hNe _ (hSame ▸ hIn) rfl
      unfold sessionOfPid
      rw [hGrown, List.find?_cons, hOwn hIn, beq_self_eq_true]
    · have hListed := (hMem _ hIn).resolve_left (Nat.ne_of_lt (h.below e he))
      have hOwner := h.owner e he hListed
      unfold sessionOfPid
      rcases hSessions with hSame | hGrown
      · rw [hSame, hKept]
        exact hOwner
      · have hPids : (srv'.sess srv.nextSess).pid ≠ e.1 := by
          rw [hOwn (hGrown ▸ List.mem_cons_self)]
          exact (ne_of_childOf_eq_none hFree he).symm
        rw [hGrown, List.find?_cons, beq_eq_false_iff_ne.mpr hPids, hKept]
        exact hOwner
  · intro s hs hAlive
    rw [hChildren]
    rcases hMem s hs with rfl | hListed
    · rw [hOwn hs]
      exact List.mem_cons_self
    · rw [hOld s (hNe s hListed)] at hAlive ⊢
      exact List.mem_cons_of_mem _ (h.living s hListed hAlive)

theorem Server.Kin.bereft {srv' : Server} (h : srv.Kin) {s : SessPtr} (hNodup : srv.sessions.Nodup)
    (hChildren : srv'.children = srv.children) (hNext : srv'.nextSess = srv.nextSess)
    (hSessions : srv'.sessions = srv.sessions.erase s)
    (hOld : ∀ t, t ≠ s → srv'.sess t = srv.sess t) (hPid : (srv'.sess s).pid = (srv.sess s).pid)
    (hReaped : ∀ t, .reaped t ∈ srv'.trace → .reaped t ∈ srv.trace) : srv'.Kin := by
  have hPids : ∀ t, (srv'.sess t).pid = (srv.sess t).pid := by
    intro t
    rcases eq_or_ne t s with rfl | hNe
    · exact hPid
    · rw [hOld t hNe]
  have hMem : ∀ t ∈ srv'.sessions, t ≠ s ∧ t ∈ srv.sessions := by
    intro t ht
    rw [hSessions] at ht
    exact hNodup.mem_erase_iff.mp ht
  constructor
  · rw [hChildren]
    exact h.pids
  · rw [hChildren]
    exact h.pointers
  · rw [hChildren]
    exact h.positive
  · rw [hChildren, hNext]
    exact h.below
  · intro t ht
    rw [hNext]
    exact h.reaped_below t (hReaped t ht)
  · rw [hChildren]
    exact fun e he ht => h.unreaped e he (hReaped _ ht)
  · rw [hChildren]
    intro e he hIn
    obtain ⟨hNe, hListed⟩ := hMem _ hIn
    have hFind := find?_erase (h.owner e he hListed) hNe
    unfold sessionOfPid
    rw [hSessions]
    simp only [hPids]
    exact hFind
  · rw [hChildren]
    intro t ht hAlive
    obtain ⟨hNe, hListed⟩ := hMem t ht
    rw [hOld t hNe] at hAlive ⊢
    exact h.living t hListed hAlive

theorem markReaped_sess (srv : Server) (pid status : Nat) (child t : SessPtr) :
    (markReaped srv pid status child).sess t =
      if sessionOfPid srv pid = some t then { srv.sess t with alive := false, exitStatus := status }
      else srv.sess t := by
  rw [markReaped_eq]

theorem Server.Kin.reap (h : srv.Kin) {pid : Nat} {child : SessPtr} (status : Nat)
    (hChild : srv.childOf pid = some child) : (markReaped srv pid status child).Kin := by
  have hIn := mem_of_childOf hChild
  have hPid : ∀ t, ((markReaped srv pid status child).sess t).pid = (srv.sess t).pid := by
    intro t
    rw [markReaped_sess]
    split <;> rfl
  have hChildren : (markReaped srv pid status child).children =
      srv.children.filter fun e => e.1 != pid := by rw [markReaped_eq]
  have hSessions : (markReaped srv pid status child).sessions = srv.sessions := by rw [markReaped_eq]
  have hNext : (markReaped srv pid status child).nextSess = srv.nextSess := by rw [markReaped_eq]
  have hTrace : ∀ t, .reaped t ∈ (markReaped srv pid status child).trace ↔
      .reaped t ∈ srv.trace ∨ t = child := by
    intro t
    rw [markReaped_eq]
    simp
  have hMem : ∀ e ∈ (markReaped srv pid status child).children, e ∈ srv.children ∧ e.1 ≠ pid := by
    intro e he
    rw [hChildren] at he
    simpa using he
  constructor
  · rw [hChildren]
    exact h.pids.sublist (List.filter_sublist.map _)
  · rw [hChildren]
    exact h.pointers.sublist (List.filter_sublist.map _)
  · exact fun e he => h.positive e (hMem e he).1
  · rw [hNext]
    exact fun e he => h.below e (hMem e he).1
  · intro t ht
    rw [hNext]
    rcases (hTrace t).mp ht with hOld | rfl
    · exact h.reaped_below t hOld
    · exact h.below _ hIn
  · intro e he hs
    obtain ⟨heIn, hOther⟩ := hMem e he
    rcases (hTrace _).mp hs with hOld | hSame
    · exact h.unreaped e heIn hOld
    · exact hOther (congrArg Prod.fst (List.inj_on_of_nodup_map h.pointers heIn hIn hSame))
  · rw [hSessions]
    intro e he hs
    unfold sessionOfPid
    simp only [hSessions, hPid]
    exact h.owner e (hMem e he).1 hs
  · rw [hSessions]
    intro t ht hAlive
    rw [hPid, hChildren]
    rw [markReaped_sess] at hAlive
    split at hAlive
    · cases hAlive
    · rename_i hOther
      have hLiving := h.living t ht hAlive
      refine List.mem_filter.mpr ⟨hLiving, ?_⟩
      rw [bne_iff_ne]
      rintro rfl
      exact hOther (h.owner _ hLiving ht)

theorem kin_perform (hLinks : srv.links.Consistent) (h : srv.Kin) (hGuard : a.guard srv) :
    (a.perform srv).Kin := by
  cases hBegets : a.begets with
  | false => exact kin_of_barren hBegets hGuard h
  | true =>
    cases a with
    | fork pid cwd argv env exec =>
      refine h.born hGuard.1 hGuard.2 hLinks.sessions_lt rfl rfl (Or.inl rfl) (fun _ _ => rfl) ?_
        (reaped_of_perform fun _ _ _ => Act.noConfusion)
      exact fun hs => absurd (hLinks.sessions_lt _ hs) (Nat.lt_irrefl _)
    | create pid cwd argv env exec k =>
      refine h.born hGuard.1 hGuard.2.1 hLinks.sessions_lt rfl rfl (Or.inr rfl) ?_ ?_
        (reaped_of_perform fun _ _ _ => Act.noConfusion)
      · intro s hNe
        refine sess_perform_of_ne fun k' hAfter => hNe ?_
        exact (Prod.mk.inj (Option.some.inj hAfter)).1.symm
      · intro _
        rw [sess_perform_of_eq (a := .create pid cwd argv env exec k) rfl]
        exact hGuard.2.2.pid_eq
    | reap pid status child => exact h.reap status hGuard
    | unlink s =>
      refine h.bereft hLinks.sessions_nodup ?_ ?_ ?_ ?_ ?_ (reaped_of_perform fun _ _ _ => Act.noConfusion)
        (s := s)
      · simp only [Act.perform, unlinkMember_eq]; rfl
      · simp only [Act.perform, unlinkMember_eq]; rfl
      · simp only [Act.perform, unlinkMember_eq]; rfl
      · intro t hNe
        refine sess_perform_of_ne fun k' hAfter => hNe ?_
        exact (Prod.mk.inj (Option.some.inj hAfter)).1.symm
      · rw [sess_perform_of_eq (a := .unlink s) rfl]
    | free s rest =>
      have hNe : ∀ t ∈ srv.sessions, t ≠ s := by
        rintro t ht rfl
        refine hLinks.disjoint t ht ?_
        rw [show srv.links.dead = t :: rest from hGuard]
        exact List.mem_cons_self
      refine h.congr rfl rfl rfl ?_ ?_ (reaped_of_perform fun _ _ _ => Act.noConfusion)
      · intro t ht
        exact congrArg Session.pid (Function.update_of_ne (hNe t ht) _ _)
      · intro t ht
        exact congrArg Session.alive (Function.update_of_ne (hNe t ht) _ _)
    | _ => cases hBegets

/-- A session that was killed is hidden for as long as it is on the list. -/
def Server.Hides (srv : Server) : Prop :=
  ∀ s d, .killed s d ∈ srv.trace →
    s < srv.nextSess ∧ (s ∈ srv.sessions → (srv.sess s).removed = true)

theorem killed_mem_effects {s : SessPtr} {d : Timespec} (h : .killed s d ∈ a.effects srv) :
    ∃ clock, a = .kill s clock ∧ d = graceDeadline clock := by
  cases a <;> simp [Act.effects, attachEffects] at h
  obtain ⟨rfl, rfl⟩ := h
  exact ⟨_, rfl, rfl⟩

theorem hidden_relink {l : Links} (hLinks : l.Consistent) (hFree : ∀ s rest, a = .free s rest → s ∈ l.dead)
    {s : SessPtr} (hLt : s < l.nextSess) (hHidden : s ∈ l.sessions → l.removed s = true) :
    s < (a.relink l).nextSess ∧ (s ∈ (a.relink l).sessions → (a.relink l).removed s = true) := by
  cases a with
  | fork => exact ⟨Nat.lt_succ_of_lt hLt, hHidden⟩
  | create =>
    have hNe : s ≠ l.nextSess := Nat.ne_of_lt hLt
    refine ⟨Nat.lt_succ_of_lt hLt, fun hs => ?_⟩
    simp only [Act.relink, Links.create, Function.update_of_ne hNe]
    exact hHidden ((List.mem_cons.mp hs).resolve_left hNe)
  | kill t clock =>
    refine ⟨hLt, fun hs => ?_⟩
    simp only [Act.relink, Links.hide, Function.update_apply]
    split
    · rfl
    · exact hHidden hs
  | unlink t => exact ⟨hLt, fun hs => hHidden (List.mem_of_mem_erase hs)⟩
  | free t rest =>
    refine ⟨hLt, fun hs => ?_⟩
    have hNe : s ≠ t := by
      rintro rfl
      exact hLinks.disjoint s hs (hFree s rest rfl)
    simp only [Act.relink, Links.free, Function.update_of_ne hNe]
    exact hHidden hs
  | _ => exact ⟨hLt, hHidden⟩

theorem hides_perform (hLinks : srv.links.Consistent) (h : srv.Hides) (hGuard : a.guard srv) :
    (a.perform srv).Hides := by
  intro s d hKilled
  have hRelink := links_perform hGuard
  change s < (a.perform srv).links.nextSess ∧
    (s ∈ (a.perform srv).links.sessions → (a.perform srv).links.removed s = true)
  rw [hRelink]
  rw [trace_perform] at hKilled
  rcases List.mem_append.mp hKilled with hBefore | hNew
  · obtain ⟨hLt, hHidden⟩ := h s d hBefore
    refine hidden_relink hLinks ?_ hLt hHidden
    rintro t rest rfl
    rw [show srv.links.dead = t :: rest from hGuard]
    exact List.mem_cons_self
  · obtain ⟨clock, rfl, _⟩ := killed_mem_effects hNew
    refine ⟨hLinks.sessions_lt s hGuard.1, fun _ => ?_⟩
    simp [Act.relink, Links.hide]

theorem initial_kin (instanceId : Nat) : (Server.initial instanceId).Kin := by
  constructor <;> simp [Server.initial]

theorem Reached.kin {instanceId : Nat} (h : Reached instanceId srv) : srv.Kin :=
  Reached.invariant (initial_kin instanceId) (fun _ _ => kin_perform) h

theorem Reached.hides {instanceId : Nat} (h : Reached instanceId srv) : srv.Hides :=
  Reached.invariant (by simp [Server.Hides, Server.initial]) (fun _ _ => hides_perform) h

end Perform

end Epimone.Daemon
