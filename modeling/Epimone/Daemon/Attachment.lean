import Epimone.Daemon.Runs

/-! # Attachment consistency

In every state that a run reaches, between the events of a batch as well as
between batches, the pointers of connections and sessions name each other and
nothing that has been freed.
-/
set_option autoImplicit false

namespace Epimone.Daemon

open Transition

variable {srv : Server}

/-- What has been freed is on no list, and its address lies below the next one. -/
structure Server.Gone (srv : Server) : Prop where
  session : ∀ s, .freed s ∈ srv.trace → s < srv.nextSess ∧ s ∉ srv.sessions ∧ s ∉ srv.dead
  conn : ∀ c, .closed c ∈ srv.trace → c < srv.nextConn ∧ c ∉ srv.conns

theorem freed_mem_effects {a : Act} {s : SessPtr} (h : .freed s ∈ a.effects srv) :
    ∃ rest, a = .free s rest := by
  cases a <;> simp [Act.effects, attachEffects] at h
  subst h
  exact ⟨_, rfl⟩

theorem closed_mem_effects {a : Act} {c : ConnPtr} (h : .closed c ∈ a.effects srv) : a = .close c := by
  cases a <;> simp [Act.effects, attachEffects] at h
  rw [h]

theorem gone_perform {a : Act} (hLinks : srv.links.Consistent) (h : srv.Gone) (hGuard : a.guard srv) :
    (a.perform srv).Gone := by
  have hRelink := links_perform hGuard
  have hNextSess : (a.perform srv).nextSess = (a.relink srv.links).nextSess :=
    congrArg Links.nextSess hRelink
  have hSessions : (a.perform srv).sessions = (a.relink srv.links).sessions :=
    congrArg Links.sessions hRelink
  have hDead : (a.perform srv).dead = (a.relink srv.links).dead := congrArg Links.dead hRelink
  have hNextConn : (a.perform srv).nextConn = (a.relink srv.links).nextConn :=
    congrArg Links.nextConn hRelink
  have hConns : (a.perform srv).conns = (a.relink srv.links).conns := congrArg Links.conns hRelink
  constructor
  · intro s hFreed
    rw [trace_perform, List.mem_append] at hFreed
    rw [hNextSess, hSessions, hDead]
    rcases hFreed with hBefore | hNow
    · obtain ⟨hLt, hList, hNotDead⟩ := h.session s hBefore
      cases a with
      | create =>
        refine ⟨Nat.lt_succ_of_lt hLt, ?_, hNotDead⟩
        rintro hNew
        rcases List.mem_cons.mp hNew with hSame | hOld
        · exact Nat.lt_irrefl s (Nat.lt_of_lt_of_eq hLt hSame.symm)
        · exact hList hOld
      | fork => exact ⟨Nat.lt_succ_of_lt hLt, hList, hNotDead⟩
      | unlink t =>
        refine ⟨hLt, fun hIn => hList (List.mem_of_mem_erase hIn), fun hIn => ?_⟩
        rcases List.mem_cons.mp hIn with hSame | hOld
        · exact hList (hSame ▸ hGuard.1)
        · exact hNotDead hOld
      | free t rest =>
        refine ⟨hLt, hList, fun hIn => hNotDead ?_⟩
        rw [show srv.dead = t :: rest from hGuard]
        exact List.mem_cons_of_mem _ hIn
      | _ => exact ⟨hLt, hList, hNotDead⟩
    · obtain ⟨rest, rfl⟩ := freed_mem_effects hNow
      have hFirst : srv.links.dead = s :: rest := hGuard
      have hs : s ∈ srv.links.dead := hFirst ▸ List.mem_cons_self
      have hNodup := hLinks.dead_nodup
      rw [hFirst, List.nodup_cons] at hNodup
      exact ⟨hLinks.dead_lt s hs, fun hIn => hLinks.disjoint s hIn hs, hNodup.1⟩
  · intro c hClosed
    rw [trace_perform, List.mem_append] at hClosed
    rw [hNextConn, hConns]
    rcases hClosed with hBefore | hNow
    · obtain ⟨hLt, hList⟩ := h.conn c hBefore
      cases a with
      | openConn =>
        refine ⟨Nat.lt_succ_of_lt hLt, fun hIn => ?_⟩
        rcases List.mem_cons.mp hIn with hSame | hOld
        · exact Nat.lt_irrefl c (Nat.lt_of_lt_of_eq hLt hSame.symm)
        · exact hList hOld
      | close d => exact ⟨hLt, fun hIn => hList (List.mem_of_mem_erase hIn)⟩
      | _ => exact ⟨hLt, hList⟩
    · obtain rfl := closed_mem_effects hNow
      exact ⟨hLinks.conns_lt c hGuard.1, fun hIn => (hLinks.conns_nodup.mem_erase_iff.mp hIn).1 rfl⟩

theorem run_gone {instanceId : Nat} {inputs : List Input} {loop : Loop}
    (h : (machine instanceId).run inputs = some loop) : loop.srv.Gone :=
  run_perform ⟨fun _ hFreed => (nomatch hFreed), fun _ hClosed => (nomatch hClosed)⟩
    (fun _ _ hLinks hGone hGuard => gone_perform hLinks hGone hGuard) h

/-- The two pointers of an attachment agree, and no handler reaches a freed object through them. -/
theorem attachment_consistent {instanceId : Nat} {inputs : List Input} {loop : Loop}
    (h : (machine instanceId).run inputs = some loop) :
    (∀ c s, (loop.srv.conn c).session = some s ↔ (loop.srv.sess s).client = some c) ∧
    (∀ c d s, (loop.srv.conn c).session = some s → (loop.srv.conn d).session = some s → c = d) ∧
    (∀ c s t, (loop.srv.sess s).client = some c → (loop.srv.sess t).client = some c → s = t) ∧
    (∀ c s, (loop.srv.conn c).session = some s →
      c ∈ loop.srv.conns ∧ .closed c ∉ loop.srv.trace ∧ (loop.srv.conn c).isData = true ∧
        s ∈ loop.srv.sessions ∧ s ∉ loop.srv.dead ∧ .freed s ∉ loop.srv.trace) ∧
    (∀ s, (loop.srv.sess s).removed = true ∨ (loop.srv.sess s).defunct = true →
      (loop.srv.sess s).client = none) ∧
    (∀ c ev, .conn c ev ∈ loop.pending → c ∈ loop.srv.conns ∧ .closed c ∉ loop.srv.trace) ∧
    (∀ s ev, .pty s ev ∈ loop.pending →
      (s ∈ loop.srv.sessions ∨ s ∈ loop.srv.dead) ∧ .freed s ∉ loop.srv.trace) := by
  have hSound := run_sound h
  have hLinks := hSound.consistent
  have hGone := run_gone h
  refine ⟨hLinks.paired, ?_, fun c s t => hLinks.client_unique, ?_, ?_, ?_, ?_⟩
  · intro c d s hc hd
    have hClient := (hLinks.paired c s).mp hc
    rw [(hLinks.paired d s).mp hd] at hClient
    exact (Option.some.inj hClient).symm
  · intro c s hBound
    obtain ⟨hc, hData⟩ := hLinks.bound_conn c s hBound
    have hs := hLinks.bound_listed c s hBound
    exact ⟨hc, fun hClosed => (hGone.conn c hClosed).2 hc, hData, hs, hLinks.disjoint s hs,
      fun hFreed => (hGone.session s hFreed).2.1 hs⟩
  · rintro s (hRemoved | hDefunct)
    · exact hLinks.removed_free s hRemoved
    · cases hClient : (loop.srv.sess s).client with
      | none => rfl
      | some c =>
        have hLive := hLinks.listed_live s (hLinks.bound_listed c s ((hLinks.paired c s).mpr hClient))
        rw [show loop.srv.links.defunct s = true from hDefunct] at hLive
        cases hLive
  · intro c ev hPending
    have hc : c ∈ loop.srv.conns := hSound.allocated _ hPending
    exact ⟨hc, fun hClosed => (hGone.conn c hClosed).2 hc⟩
  · intro s ev hPending
    have hs : s ∈ loop.srv.sessions ∨ s ∈ loop.srv.dead := hSound.allocated _ hPending
    refine ⟨hs, fun hFreed => ?_⟩
    obtain ⟨_, hUnlisted, hNotDead⟩ := hGone.session s hFreed
    exact hs.elim hUnlisted hNotDead

/-- A run in which a connection is bound to a session. -/
theorem attachment_consistent_attaching :
    ∃ loop, (machine 7).run attaching = some loop ∧ (loop.srv.conn 0).session = some 0 ∧
      (loop.srv.sess 0).client = some 0 := by
  have hRun : ((machine 7).run attaching).any fun loop => (loop.srv.conn 0).session == some 0 := by
    decide +kernel
  obtain ⟨loop, hLoop, hBound⟩ := (machine 7).exists_of_run_any hRun
  have hSession : (loop.srv.conn 0).session = some 0 := by simpa using hBound
  exact ⟨loop, hLoop, hSession, ((attachment_consistent hLoop).1 0 0).mp hSession⟩

end Epimone.Daemon
