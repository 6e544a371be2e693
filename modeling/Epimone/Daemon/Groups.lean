import Epimone.Daemon.Changes
import Epimone.Daemon.Membership

/-! # Group lifetime

The actions of the daemon as steps of the roster, and what follows for every
run: who is in which group, when a group ends, and that no id is used twice.
-/
set_option autoImplicit false

namespace Epimone.Daemon

open Transition

section Steps

variable (srv : Server)

theorem findGroup_isSome (gid : Nat) :
    (findGroup srv gid).isSome = (srv.groups.map Group.id).contains gid := by
  rw [Bool.eq_iff_iff, findGroup, List.find?_isSome, List.contains_iff_mem, List.mem_map]
  simp

theorem collectable_eq (gid : Nat) : collectable srv gid = srv.roster.collects gid := by
  rw [collectable, findGroup_isSome]
  rfl

theorem roster_gcGroupIfEmpty (gid : Nat) :
    (gcGroupIfEmpty srv gid).roster = srv.roster.collect gid := by
  rw [gcGroupIfEmpty_eq, survivors, goneEffects, collectable_eq, Roster.collect]
  split
  · apply Roster.ext <;> try rfl
    change (srv.groups.eraseP fun g => g.id == gid).map Group.id = (srv.groups.map Group.id).erase gid
    rw [List.erase_eq_eraseP', List.eraseP_map]
    rfl
  · simp [Server.roster]

theorem roster_leave (after : Server) (s : SessPtr) :
    (gcGroupIfEmpty (noteLeft after s (srv.sess s)) (srv.sess s).groupId).roster =
      srv.roster.leave s after.roster := by
  rw [roster_gcGroupIfEmpty, noteLeft_eq]
  rfl

theorem roster_unlinkMember (s : SessPtr) : (unlinkMember srv s).roster = srv.roster.unlink s := by
  rw [unlinkMember, roster_leave, Roster.unlink]
  congr 1
  apply Roster.ext <;> try rfl
  all_goals
    funext t
    simp only [unlinkSession, Server.roster, Server.modSess, Function.update_apply]
    split <;> simp_all

theorem roster_markKilled (s : SessPtr) (clock : Timespec) :
    (markKilled srv s clock).roster =
      (srv.roster.records [.killed s (graceDeadline clock)]).hide s := by
  unfold markKilled
  dsimp only
  rw [roster_leave]
  change Roster.leave (srv.roster.records [.killed s (graceDeadline clock)]) s _ = _
  rw [Roster.hide]
  congr 1
  apply Roster.ext <;> try rfl
  all_goals
    funext t
    simp only [Server.roster, Server.modSess, Server.emit, Roster.records, Function.update_apply]
    split <;> simp_all

theorem roster_regrouped (s : SessPtr) (gid : Nat) :
    (regrouped srv s gid).roster =
      { srv.roster with groupOf := Function.update srv.roster.groupOf s gid } := by
  apply Roster.ext <;> try rfl
  all_goals
    funext t
    simp only [regrouped, Server.roster, Server.modSess, Function.update_apply]
    split <;> simp_all

theorem roster_moveSession (s : SessPtr) (gid : Nat) :
    (moveSession srv s gid).roster = srv.roster.move s gid := by
  unfold moveSession assignGroup Roster.move
  dsimp only
  by_cases hSame : (srv.sess s).groupId = gid
  · rw [if_neg (not_not.mpr hSame), if_pos hSame, if_pos (show srv.roster.groupOf s = gid from hSame)]
    change (regrouped srv s gid).roster = srv.roster
    rw [roster_regrouped, ← hSame]
    apply Roster.ext <;> try rfl
    exact Function.update_eq_self s srv.roster.groupOf
  · rw [if_pos hSame, if_neg hSame, if_neg (show srv.roster.groupOf s ≠ gid from hSame), roster_leave]
    congr 1
    rw [← roster_regrouped]
    split <;> simp [Roster.records, regrouped, Server.roster, Server.emit]

theorem roster_create (pid : Nat) (cwd : Option Bytes) (argv : List Bytes) (env : Option (List Bytes))
    (exec : Option Bytes) {k : Session} (hFresh : k.Fresh pid) :
    ((Act.create pid cwd argv env exec k).perform srv).roster =
      (srv.roster.records [.forked srv.nextSess pid cwd argv env exec]).create srv.nextSess := by
  have hGroup := hFresh.groupId
  have hRemoved := hFresh.removed
  apply Roster.ext <;> try rfl
  all_goals
    funext t
    simp only [Act.perform, linkSession, forked, Server.roster, Server.modSess, Server.emit,
      Roster.records, Roster.create, Function.update_apply]
    split <;> simp_all

end Steps

/-- The actions that change the roster, or forget a session that it no longer lists. -/
def Act.enrolls : Act → Bool
  | .create .. | .newGroup _ | .unlink _ | .kill .. | .move .. | .free .. => true
  | _ => false

variable {srv : Server}

theorem listings_perform_of_quiet {a : Act} (hQuiet : a.enrolls = false) :
    (a.perform srv).sessions = srv.sessions ∧ (a.perform srv).groups.map Group.id = srv.groups.map Group.id ∧
      (a.perform srv).nextId = srv.nextId ∧ (a.perform srv).nextGroupId = srv.nextGroupId := by
  cases a with
  | create | newGroup | unlink | kill | move | free => cases hQuiet
  | queue c data alloc => simp [Act.perform, enqueue_eq]
  | attach c s ans => simp [Act.perform, bindClient_eq]
  | relay s c chunk ringAlloc queueAlloc => simp [Act.perform, enqueue_eq, readOutput, Server.modSess, Server.emit]
  | reap pid status child => simp [Act.perform, markReaped_eq]
  | close c => simp [Act.perform, connClose_eq]
  | escalate s => simp [Act.perform, epiSessionKill_eq, Server.modSess]
  | setBlob gid blob =>
    refine ⟨rfl, ?_, rfl, rfl⟩
    simp only [Act.perform, setGroupBlob, List.map_map]
    refine List.map_congr_left fun g _ => ?_
    simp only [Function.comp_apply]
    split <;> rfl
  | _ => exact ⟨rfl, rfl, rfl, rfl⟩

theorem session_of_quiet {a : Act} (hQuiet : a.enrolls = false) {s : SessPtr} {k : Session}
    (h : a.sessionAfter srv = some (s, k)) :
    k.groupId = (srv.sess s).groupId ∧ k.removed = (srv.sess s).removed ∧ k.id = (srv.sess s).id := by
  cases a <;> simp [Act.sessionAfter, Act.enrolls, Option.bind_eq_some_iff] at h hQuiet <;> grind

theorem roster_perform_of_quiet {a : Act} (hQuiet : a.enrolls = false) :
    (a.perform srv).roster = srv.roster.records (a.effects srv) := by
  obtain ⟨hSessions, hGroups, hNext, hNextGroup⟩ := @listings_perform_of_quiet srv a hQuiet
  apply Roster.ext
  · exact hSessions
  · exact hGroups
  · funext s
    exact sess_perform_field Session.groupId (fun s k h => (session_of_quiet hQuiet h).1) s
  · funext s
    exact sess_perform_field Session.removed (fun s k h => (session_of_quiet hQuiet h).2.1) s
  · funext s
    exact sess_perform_field Session.id (fun s k h => (session_of_quiet hQuiet h).2.2) s
  · exact hNext
  · exact hNextGroup
  · exact trace_perform srv a

theorem grouping_of_quiet {a : Act} (hQuiet : a.enrolls = false) {e : Effect} (he : e ∈ a.effects srv) :
    e.grouping = false := by
  cases a <;> simp [Act.effects, Act.enrolls, attachEffects] at he hQuiet <;> grind [Effect.grouping]

theorem created_mem_effects {a : Act} {s : SessPtr} {i : Nat} (h : .created s i ∈ a.effects srv) :
    ∃ pid cwd argv env exec k, a = .create pid cwd argv env exec k := by
  cases a <;> simp [Act.effects, attachEffects] at h
  exact ⟨_, _, _, _, _, _, rfl⟩

theorem groupCreated_mem_effects {a : Act} {gid : Nat} (h : .groupCreated gid ∈ a.effects srv) :
    ∃ g, a = .newGroup g := by
  cases a <;> simp [Act.effects, attachEffects] at h
  exact ⟨_, rfl⟩

theorem orderly_perform {a : Act} (hLinks : srv.links.Consistent) (h : srv.roster.Orderly none)
    (hGuard : a.guard srv) : (a.perform srv).roster.Orderly none := by
  by_cases hQuiet : a.enrolls = false
  · rw [roster_perform_of_quiet hQuiet]
    exact h.records_quiet fun e he => grouping_of_quiet hQuiet he
  · have hGroup : ∀ gid, findGroup srv gid ≠ none → gid ∈ srv.roster.groups := fun gid hFind => by
      rw [Ne, ← Option.not_isSome_iff_eq_none, not_not, findGroup_isSome] at hFind
      exact List.contains_iff_mem.mp hFind
    cases a with
    | create pid cwd argv env exec k =>
      rw [roster_create srv pid cwd argv env exec hGuard.2.2]
      refine Roster.Orderly.create (h.record_quiet rfl) fun hIn => ?_
      exact Nat.lt_irrefl _ (hLinks.sessions_lt _ hIn)
    | newGroup g => exact h.newGroup
    | unlink s =>
      simp only [Act.perform, roster_unlinkMember]
      exact h.unlink hGuard.1
    | kill s clock =>
      simp only [Act.perform, roster_markKilled]
      exact Roster.Orderly.hide (h.record_quiet rfl) hGuard.1
    | move s gid =>
      simp only [Act.perform, roster_moveSession]
      exact h.move hGuard.1 hGuard.2.1 (hGuard.2.2.imp_right (hGroup gid))
    | free s rest =>
      have hListed : ∀ t ∈ srv.sessions, t ≠ s := by
        rintro t ht rfl
        refine hLinks.disjoint t ht ?_
        rw [show srv.links.dead = t :: rest from hGuard]
        exact List.mem_cons_self
      have hKept : ∀ t ∈ srv.sessions, ((Act.free s rest).perform srv).sess t = srv.sess t := fun t ht =>
        Function.update_of_ne (hListed t ht) _ _
      refine (h.record_quiet (show (Effect.freed s).grouping = false from rfl)).congr rfl rfl rfl rfl ?_ ?_
      · intro t ht
        exact congrArg Session.groupId (hKept t ht)
      · intro t ht
        exact congrArg Session.removed (hKept t ht)
    | _ => exact absurd rfl hQuiet

theorem accounted_perform {a : Act} (h : srv.roster.Accounted) : (a.perform srv).roster.Accounted := by
  by_cases hQuiet : a.enrolls = false
  · rw [roster_perform_of_quiet hQuiet]
    refine h.extend rfl rfl rfl fun g => ⟨fun hIn => ?_, fun hIn => ?_⟩
    · obtain ⟨_, rfl⟩ := groupCreated_mem_effects hIn
      cases hQuiet
    · cases grouping_of_quiet hQuiet hIn
  · cases a with
    | create pid cwd argv env exec k =>
      exact h.extend rfl rfl (trace_perform srv _) (by simp [Act.effects])
    | newGroup g => exact h.newGroup
    | unlink s =>
      simp only [Act.perform, roster_unlinkMember]
      exact h.unlink s
    | kill s clock =>
      simp only [Act.perform, roster_markKilled]
      exact Roster.Accounted.hide (h.records (by simp)) s
    | move s gid =>
      simp only [Act.perform, roster_moveSession]
      exact h.move s gid
    | free s rest => exact h.extend rfl rfl (trace_perform srv _) (by simp [Act.effects])
    | _ => exact absurd rfl hQuiet

theorem ids_perform {a : Act} (hCreate : ∀ pid cwd argv env exec k, a ≠ .create pid cwd argv env exec k)
    (hGroup : ∀ g, a ≠ .newGroup g) :
    (∀ s ∈ (a.perform srv).sessions, s ∈ srv.sessions) ∧ (a.perform srv).nextId = srv.nextId ∧
      (a.perform srv).nextGroupId = srv.nextGroupId := by
  by_cases hQuiet : a.enrolls = false
  · obtain ⟨hSessions, _, hNext, hNextGroup⟩ := @listings_perform_of_quiet srv a hQuiet
    exact ⟨fun s hs => hSessions ▸ hs, hNext, hNextGroup⟩
  · cases a with
    | create => exact absurd rfl (hCreate _ _ _ _ _ _)
    | newGroup => exact absurd rfl (hGroup _)
    | unlink s =>
      simp only [Act.perform, unlinkMember_eq]
      exact ⟨fun t ht => List.mem_of_mem_erase ht, rfl, rfl⟩
    | kill s clock =>
      simp only [Act.perform, markKilled_eq]
      exact ⟨fun t ht => ht, rfl, rfl⟩
    | move s gid =>
      simp only [Act.perform, moveSession_eq]
      exact ⟨fun t ht => ht, rfl, rfl⟩
    | free s rest => exact ⟨fun t ht => ht, rfl, rfl⟩
    | _ => exact absurd rfl hQuiet

theorem id_perform {a : Act} (hLinks : srv.links.Consistent) (hGuard : a.guard srv) {s : SessPtr}
    (hs : s ∈ srv.sessions) : ((a.perform srv).sess s).id = (srv.sess s).id := by
  cases a with
  | create pid cwd argv env exec k =>
    refine congrArg Session.id (sess_perform_of_ne fun k' hAfter => ?_)
    cases hAfter
    exact Nat.lt_irrefl _ (hLinks.sessions_lt _ hs)
  | free t rest =>
    refine congrArg Session.id (sess_perform_of_ne fun k' hAfter => ?_)
    cases hAfter
    refine hLinks.disjoint s hs ?_
    rw [show srv.links.dead = s :: rest from hGuard]
    exact List.mem_cons_self
  | _ =>
    refine sess_perform_field Session.id (fun t k hAfter => ?_) s
    simp [Act.sessionAfter, Option.bind_eq_some_iff] at hAfter <;> grind

theorem numbered_perform {a : Act} (hLinks : srv.links.Consistent) (h : srv.roster.Numbered)
    (hGuard : a.guard srv) : (a.perform srv).roster.Numbered := by
  by_cases hCreate : ∃ pid cwd argv env exec k, a = .create pid cwd argv env exec k
  · obtain ⟨pid, cwd, argv, env, exec, k, rfl⟩ := hCreate
    rw [roster_create srv pid cwd argv env exec hGuard.2.2]
    refine Roster.Numbered.create (h.records (by simp)) ?_
    exact fun hIn => Nat.lt_irrefl _ (hLinks.sessions_lt _ hIn)
  by_cases hGroup : ∃ g, a = .newGroup g
  · obtain ⟨g, rfl⟩ := hGroup
    exact h.newGroup
  simp only [not_exists] at hCreate hGroup
  obtain ⟨hSessions, hNext, hNextGroup⟩ := @ids_perform srv a hCreate hGroup
  refine h.of_sub hSessions (fun s hs => id_perform hLinks hGuard hs) hNext hNextGroup
    (trace_perform srv a) ?_
  refine fun e he => ⟨?_, ?_⟩
  · rintro s i rfl
    obtain ⟨pid, cwd, argv, env, exec, k, rfl⟩ := created_mem_effects he
    exact hCreate _ _ _ _ _ _ rfl
  · rintro g rfl
    obtain ⟨g', rfl⟩ := groupCreated_mem_effects he
    exact hGroup _ rfl

theorem Reached.rostered {instanceId : Nat} (h : Reached instanceId srv) :
    srv.roster.Orderly none ∧ srv.roster.Accounted ∧ srv.roster.Numbered := by
  refine Reached.invariant (P := fun srv =>
    srv.roster.Orderly none ∧ srv.roster.Accounted ∧ srv.roster.Numbered) ?_ ?_ h
  · refine ⟨?_, ?_, ?_⟩
    · constructor <;> simp [Server.initial, Server.roster, Session.blank, membersOf, Tidy.nil]
    · constructor <;> simp [Server.initial, Server.roster]
    · constructor <;> simp [Server.initial, Server.roster, groupIds, sessionIds]
  · rintro srv a hLinks ⟨hOrderly, hAccounted, hNumbered⟩ hGuard
    exact ⟨orderly_perform hLinks hOrderly hGuard, accounted_perform hAccounted,
      numbered_perform hLinks hNumbered hGuard⟩

theorem run_orderly {instanceId : Nat} {inputs : List Input} {loop : Loop}
    (h : (machine instanceId).run inputs = some loop) :
    loop.srv.roster.Orderly none ∧ loop.srv.roster.Accounted ∧ loop.srv.roster.Numbered :=
  (reached_of_run h).rostered

def listedIds (srv : Server) : List Nat := (listed srv).map fun s => (srv.sess s).id

def memberIds (srv : Server) (gid : Nat) : List Nat :=
  (groupMembers srv gid).map fun s => (srv.sess s).id

theorem mem_groupMembers {gid : Nat} {s : SessPtr} :
    s ∈ groupMembers srv gid ↔
      s ∈ srv.sessions ∧ (srv.sess s).removed = false ∧ (srv.sess s).groupId = gid := by
  simp [groupMembers, sessionInGroup]

theorem mem_listed {s : SessPtr} :
    s ∈ listed srv ↔ s ∈ srv.sessions ∧ (srv.sess s).removed = false := by
  simp [listed]

/-- Only a move changes the group of a session that is there. -/
theorem sessionAfter_group {a : Act} (hCreate : ∀ pid cwd argv env exec k, a ≠ .create pid cwd argv env exec k)
    (hFree : ∀ s rest, a ≠ .free s rest) {s : SessPtr} {k : Session} (h : a.sessionAfter srv = some (s, k)) :
    k.id = (srv.sess s).id ∧ ((srv.sess s).removed = true → k.removed = true) ∧
      (k.groupId = (srv.sess s).groupId ∨ a = .move s k.groupId) := by
  cases a with
  | create => exact absurd rfl (hCreate _ _ _ _ _ _)
  | free => exact absurd rfl (hFree _ _)
  | _ => simp [Act.sessionAfter, Option.bind_eq_some_iff] at h <;> grind

/-- What is known of a session in a group: it was there, in that group unless it has been moved. -/
def Stayed (srv : Server) (a : Act) (s : SessPtr) : Prop :=
  s ∈ listed srv ∧ ((a.perform srv).sess s).id = (srv.sess s).id ∧
    (((a.perform srv).sess s).groupId = (srv.sess s).groupId ∨
      a = .move s ((a.perform srv).sess s).groupId)

theorem stayed_of_same {a : Act} {s : SessPtr} (hIn : s ∈ srv.sessions)
    (hHere : ((a.perform srv).sess s).removed = false) (hSame : (a.perform srv).sess s = srv.sess s) :
    Stayed srv a s := by
  rw [hSame] at hHere
  refine ⟨mem_listed.mpr ⟨hIn, hHere⟩, ?_, Or.inl ?_⟩
  · rw [hSame]
  · rw [hSame]

theorem stayed_of_kept {a : Act} (hCreate : ∀ pid cwd argv env exec k, a ≠ .create pid cwd argv env exec k)
    (hFree : ∀ s rest, a ≠ .free s rest) {s : SessPtr} (hIn : s ∈ srv.sessions)
    (hHere : ((a.perform srv).sess s).removed = false) : Stayed srv a s := by
  cases hAfter : a.sessionAfter srv with
  | none =>
    refine stayed_of_same hIn hHere (sess_perform_of_ne fun k h => ?_)
    rw [hAfter] at h
    cases h
  | some cell =>
    obtain ⟨t, k⟩ := cell
    rcases eq_or_ne s t with rfl | hOther
    · obtain ⟨hId, hRemoved, hGroup⟩ := sessionAfter_group hCreate hFree hAfter
      have hCell := sess_perform_of_eq hAfter
      rw [hCell] at hHere
      have hBefore : (srv.sess s).removed = false := by
        rw [← Bool.not_eq_true]
        intro hGone
        rw [hRemoved hGone] at hHere
        cases hHere
      refine ⟨mem_listed.mpr ⟨hIn, hBefore⟩, ?_, ?_⟩
      · rw [hCell]
        exact hId
      · rw [hCell]
        exact hGroup
    · refine stayed_of_same hIn hHere (sess_perform_of_ne fun k' h => ?_)
      rw [hAfter] at h
      exact hOther (Prod.mk.inj (Option.some.inj h)).1.symm

/-- A session on the list after an action was there before it, but for the one that is created. -/
theorem stayed_or_created {a : Act} (hLinks : srv.links.Consistent) (hGuard : a.guard srv) {s : SessPtr}
    (hListed : s ∈ listed (a.perform srv)) :
    Stayed srv a s ∨ ∃ pid cwd argv env exec k, a = .create pid cwd argv env exec k ∧ s = srv.nextSess := by
  obtain ⟨hIn, hHere⟩ := mem_listed.mp hListed
  cases a with
  | create pid cwd argv env exec k =>
    rcases eq_or_ne s srv.nextSess with rfl | hOther
    · exact Or.inr ⟨_, _, _, _, _, _, rfl, rfl⟩
    · refine Or.inl (stayed_of_same ((List.mem_cons.mp hIn).resolve_left hOther) hHere (sess_perform_of_ne ?_))
      intro k' hAfter
      exact hOther (Prod.mk.inj (Option.some.inj hAfter)).1.symm
  | free t rest =>
    refine Or.inl (stayed_of_same hIn hHere (sess_perform_of_ne ?_))
    intro k' hAfter
    obtain ⟨rfl, _⟩ := Prod.mk.inj (Option.some.inj hAfter)
    refine hLinks.disjoint t hIn ?_
    rw [show srv.links.dead = t :: rest from hGuard]
    exact List.mem_cons_self
  | newGroup g => exact Or.inl (stayed_of_kept (by simp) (by simp) hIn hHere)
  | _ => exact Or.inl (stayed_of_kept (by simp) (by simp) ((ids_perform (by simp) (by simp)).1 s hIn) hHere)

theorem stayed_perform {a : Act} (hLinks : srv.links.Consistent) (hGuard : a.guard srv) {s : SessPtr}
    (hListed : s ∈ listed (a.perform srv)) (hGroup : ((a.perform srv).sess s).groupId ≠ 0) :
    Stayed srv a s := by
  rcases stayed_or_created hLinks hGuard hListed with hStayed | ⟨pid, cwd, argv, env, exec, k, rfl, rfl⟩
  · exact hStayed
  · refine absurd ?_ hGroup
    rw [sess_perform_of_eq (a := .create pid cwd argv env exec k) rfl]
    exact hGuard.2.2.groupId

theorem findGroup_moveSession {s : SessPtr} {gid : Nat} (h : (findGroup srv gid).isSome = true) :
    (findGroup (moveSession srv s gid) gid).isSome = true := by
  rw [findGroup_isSome] at h ⊢
  rw [moveSession_eq]
  dsimp only
  split
  · exact h
  · rename_i hOther
    unfold survivors
    split
    · rw [List.contains_iff_mem, List.mem_map] at h ⊢
      obtain ⟨g, hg, hId⟩ := h
      refine ⟨g, ?_, hId⟩
      refine (List.mem_eraseP_of_neg ?_).mpr hg
      simpa [hId] using Ne.symm hOther
    · exact h

theorem findGroup_connQueueFrame (c : ConnPtr) (b : EpiBuf) (alloc : Bool) (gid : Nat) :
    findGroup (connQueueFrame srv c b alloc) gid = findGroup srv gid := by
  rw [connQueueFrame_eq]
  rfl

theorem findGroup_refuse (c : ConnPtr) (ans : FrameAnswers) (code : EpiErrCode) (msg : String)
    (gid : Nat) : findGroup (refuse srv c ans code msg) gid = findGroup srv gid := by
  unfold refuse sendError
  exact findGroup_connQueueFrame c _ _ gid

theorem handleGroupAdd_cases (srv : Server) (c : ConnPtr) (ans : FrameAnswers) (r : EpiRd) :
    (∃ code msg, handleGroupAdd srv c ans r = refuse srv c ans code msg) ∨
      ∃ s, findGroup srv (epiRdU64 r).1 ≠ none ∧
        findSession srv (epiRdU64 (epiRdU64 r).2).1 false = some s ∧
        handleGroupAdd srv c ans r = acknowledge (moveSession srv s (epiRdU64 r).1) c ans := by
  unfold handleGroupAdd
  split
  rename_i gid rest hGid
  split
  rename_i sid rest' hSid
  rw [hGid, hSid]
  split
  · exact Or.inl ⟨_, _, rfl⟩
  split
  · exact Or.inl ⟨_, _, rfl⟩
  rename_i hGroup
  split
  · exact Or.inl ⟨_, _, rfl⟩
  · rename_i s hFind
    exact Or.inr ⟨s, hGroup, hFind, rfl⟩

theorem handleGroupSet_cases (srv : Server) (c : ConnPtr) (ans : FrameAnswers) (r : EpiRd) :
    (∃ code msg, handleGroupSet srv c ans r = refuse srv c ans code msg) ∨
      findGroup srv (epiRdU64 r).1 ≠ none ∧
        handleGroupSet srv c ans r = acknowledge (setGroupBlob srv (epiRdU64 r).1
          ((epiRdBlob ans.rdAlloc (epiRdU64 r).2).1.getD [])) c ans := by
  unfold handleGroupSet
  split
  rename_i gid rest hGid
  split
  rename_i blob rest' hBlob
  rw [hGid, hBlob]
  dsimp only
  split
  · exact Or.inl ⟨_, _, rfl⟩
  split
  · exact Or.inl ⟨_, _, rfl⟩
  split
  · exact Or.inl ⟨_, _, rfl⟩
  rename_i g hGroup
  split
  · exact Or.inl ⟨_, _, rfl⟩
  · refine Or.inr ⟨?_, rfl⟩
    rw [hGroup]
    exact Option.some_ne_none g

theorem handleGroupNew_cases (srv : Server) (c : ConnPtr) (ans : FrameAnswers) (r : EpiRd) :
    (∃ code msg, handleGroupNew srv c ans r = refuse srv c ans code msg) ∨
      ∃ g, handleGroupNew srv c ans r = reply (linkGroup srv g) c ans
        (epiBufPutU64 ans.bufAlloc (epiMsgStart ans.bufAlloc .groupId) (linkGroup srv g).nextGroupId) := by
  unfold handleGroupNew
  split
  dsimp only
  split
  · exact Or.inl ⟨_, _, rfl⟩
  split
  · exact Or.inl ⟨_, _, rfl⟩
  split
  · exact Or.inl ⟨_, _, rfl⟩
  split
  · exact Or.inl ⟨_, _, rfl⟩
  · rename_i g _
    exact Or.inr ⟨g, rfl⟩

/-- GROUP_ADD never destroys the group it adds to. -/
theorem findGroup_handleGroupAdd (c : ConnPtr) (ans : FrameAnswers) (r : EpiRd)
    (h : (findGroup srv (epiRdU64 r).1).isSome = true) :
    (findGroup (handleGroupAdd srv c ans r) (epiRdU64 r).1).isSome = true := by
  rcases handleGroupAdd_cases srv c ans r with ⟨code, msg, hRefused⟩ | ⟨s, _, _, hMoved⟩
  · rw [hRefused, findGroup_refuse]
    exact h
  · rw [hMoved, acknowledge, sendOk, findGroup_connQueueFrame]
    exact findGroup_moveSession h

theorem memberIds_disjoint (h : srv.roster.Numbered) {g g' : Nat} (hNe : g ≠ g') :
    (memberIds srv g).Disjoint (memberIds srv g') := by
  intro i hi hi'
  obtain ⟨s, hs, rfl⟩ := List.mem_map.mp hi
  obtain ⟨t, ht, hId⟩ := List.mem_map.mp hi'
  obtain ⟨hListed, _, hGroup⟩ := mem_groupMembers.mp hs
  obtain ⟨hListed', _, hGroup'⟩ := mem_groupMembers.mp ht
  have hSame : t = s := h.ids_injective t hListed' s hListed hId
  exact hNe (hGroup.symm.trans ((hSame ▸ hGroup').trans rfl))

theorem memberIds_nodup (h : srv.roster.Orderly none) (hNumbered : srv.roster.Numbered) (gid : Nat) :
    (memberIds srv gid).Nodup := by
  refine List.Nodup.map_on ?_ (h.sessions_nodup.filter _)
  intro s hs t ht hId
  exact hNumbered.ids_injective s (mem_groupMembers.mp hs).1 t (mem_groupMembers.mp ht).1 hId

theorem memberIds_subset (srv : Server) (gid : Nat) : memberIds srv gid ⊆ listedIds srv := by
  refine List.map_subset _ fun s hs => ?_
  obtain ⟨hListed, hRemoved, _⟩ := mem_groupMembers.mp hs
  exact mem_listed.mpr ⟨hListed, hRemoved⟩

theorem membersOf_perm (h : srv.roster.Orderly none) {gid : Nat} (hGid : gid ≠ 0) :
    (membersOf gid srv.trace).Perm (groupMembers srv gid) := by
  refine (List.perm_ext_iff_of_nodup (h.members_nodup gid) (h.sessions_nodup.filter _)).mpr fun s => ?_
  refine (h.members_iff gid s hGid).trans ?_
  rw [or_iff_left (by simp)]
  exact List.mem_filter.symm

/-- Groups live from their GROUP_NEW until their last member leaves, and no id is used twice. -/
theorem group_lifetime {instanceId : Nat} {inputs : List Input} {loop : Loop}
    (h : (machine instanceId).run inputs = some loop) :
    (∀ s ∈ loop.srv.sessions, (loop.srv.sess s).removed = false → (loop.srv.sess s).groupId = 0 ∨
      ∃! g, g ∈ loop.srv.groups ∧ g.id = (loop.srv.sess s).groupId) ∧
    (∀ g ∈ loop.srv.groups, groupMembers loop.srv g.id ≠ [] ∨
      ∀ s, .groupJoined g.id s ∉ loop.srv.trace) ∧
    (loop.srv.groups.map fun g => memberIds loop.srv g.id).Pairwise List.Disjoint ∧
    (∀ g ∈ loop.srv.groups, (memberIds loop.srv g.id).Nodup ∧
      memberIds loop.srv g.id ⊆ listedIds loop.srv) ∧
    (∀ gid, (∃ g ∈ loop.srv.groups, g.id = gid) ↔
      .groupCreated gid ∈ loop.srv.trace ∧ .groupGone gid ∉ loop.srv.trace) ∧
    (∀ gid, gid ≠ 0 → (membersOf gid loop.srv.trace).Perm (groupMembers loop.srv gid)) ∧
    Tidy loop.srv.trace ∧
    (∀ c ans r, (findGroup loop.srv (epiRdU64 r).1).isSome = true →
      (findGroup (handleGroupAdd loop.srv c ans r) (epiRdU64 r).1).isSome = true) ∧
    (sessionIds loop.srv.trace).Nodup ∧ (groupIds loop.srv.trace).Nodup := by
  obtain ⟨hOrderly, hAccounted, hNumbered⟩ := run_orderly h
  have hIds : (loop.srv.groups.map Group.id).Nodup := hOrderly.groups_nodup
  have hPos : ∀ g ∈ loop.srv.groups, g.id ≠ 0 := fun g hg =>
    Nat.ne_of_gt (hOrderly.groups_pos g.id (List.mem_map_of_mem hg))
  refine ⟨?_, ?_, ?_, ?_, ?_, ?_, hOrderly.tidy, ?_, hNumbered.session_ids, hNumbered.group_ids⟩
  · intro s hs hRemoved
    refine (hOrderly.grouped s hs hRemoved).imp_right fun hIn => ?_
    obtain ⟨g, hg, hId⟩ := List.mem_map.mp hIn
    refine ⟨g, ⟨hg, hId⟩, ?_⟩
    rintro g' ⟨hg', hId'⟩
    exact List.inj_on_of_nodup_map hIds hg' hg (hId'.trans hId.symm)
  · intro g hg
    refine (hOrderly.populated g.id (List.mem_map_of_mem hg)).imp_left fun hSome hNone => hSome ?_
    have hPerm := membersOf_perm hOrderly (hPos g hg)
    rw [hNone] at hPerm
    exact hPerm.eq_nil
  · rw [List.pairwise_map]
    refine List.Pairwise.imp ?_ (List.pairwise_map.mp hIds)
    intro g g' hNe
    exact memberIds_disjoint hNumbered hNe
  · intro g hg
    exact ⟨memberIds_nodup hOrderly hNumbered g.id, memberIds_subset loop.srv g.id⟩
  · intro gid
    rw [← List.mem_map]
    exact hAccounted.exists_iff gid
  · intro gid hGid
    exact membersOf_perm hOrderly hGid
  · intro c ans r hFound
    exact findGroup_handleGroupAdd c ans r hFound

def groupNewRequest : Bytes := [4, 0, 0, 0, 8, 0, 0, 0]

def groupAddRequest : Bytes :=
  [20, 0, 0, 0, 10, 0, 0, 0, 1, 0, 0, 0, 0, 0, 0, 0, 1, 0, 0, 0, 0, 0, 0, 0]

/-- A session is created, joins a new group and leaves it again. -/
def grouping : List Input :=
  let request := fun bytes hBounded =>
    batchOf (.conn 0 readable) (.conn (calmConn [] bytes hBounded 100 ⟨0⟩)) ⟨0⟩
  accepting ++ request createRequest createRequest_bounded ++ request groupNewRequest (by decide) ++
    request groupAddRequest (by decide) ++ request (requestFor 11) (by decide)

/-- A run in which a group goes with its last member. -/
theorem group_lifetime_grouping :
    ∃ loop, (machine 7).run grouping = some loop ∧ .groupGone 1 ∈ loop.srv.trace ∧
      loop.srv.groups = [] ∧ Tidy loop.srv.trace := by
  have hRun : ((machine 7).run grouping).any fun loop =>
      loop.srv.trace.contains (.groupGone 1) && loop.srv.groups.isEmpty := by
    decide +kernel
  obtain ⟨loop, hLoop, hGone⟩ := (machine 7).exists_of_run_any hRun
  simp only [Bool.and_eq_true, List.contains_iff_mem, List.isEmpty_iff] at hGone
  obtain ⟨_, _, _, _, _, _, hTidy, _⟩ := group_lifetime hLoop
  exact ⟨loop, hLoop, hGone.1, hGone.2, hTidy⟩

end Epimone.Daemon
