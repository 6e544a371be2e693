import Epimone.Daemon.Links
import Epimone.Library.History

/-! # What the actions change

Every action changes at most one session and at most one connection. The
invariants that speak of single sessions and connections are proved from
`sess_perform` and `conn_perform`, and never unfold the functions of the daemon.
-/
set_option autoImplicit false

namespace Epimone.Daemon

open History

variable (srv : Server)

/-- The session that an action changes, and what it becomes. -/
def Act.sessionAfter : Act → Option (SessPtr × Session)
  | .attach c s _ => some (s, { srv.sess s with client := some c })
  | .unbind s _ => some (s, { srv.sess s with client := none })
  | .closePty s => some (s, { srv.sess s with ptyOpen := false, ptyEvents := none })
  | .unlink s => some (s, { srv.sess s with defunct := true })
  | .kill s clock =>
    some (s, { srv.sess s with killing := true, removed := true, killDeadline := graceDeadline clock })
  | .create _ _ _ _ _ k => some (srv.nextSess, { k with id := srv.nextId + 1 })
  | .watchPty s => some (s, { srv.sess s with ptyEvents := some ⟨true, false, false, false, false⟩ })
  | .move s gid => some (s, { srv.sess s with groupId := gid })
  | .setPin s pin cap => some (s, { srv.sess s with pin := pin, pinCap := cap })
  | .writePin s _ left => some (s, { srv.sess s with pin := left })
  | .updatePty s =>
    some (s, { srv.sess s with ptyEvents := some ⟨true, !(srv.sess s).pin.isEmpty, false, false, false⟩ })
  | .read s chunk ringAlloc | .relay s _ chunk ringAlloc _ =>
    some (s, { srv.sess s with out := (srv.sess s).out.write chunk.object ringAlloc })
  | .reap pid status _ =>
    (sessionOfPid srv pid).map fun s => (s, { srv.sess s with alive := false, exitStatus := status })
  | .close c =>
    (srv.conn c).session.bind fun s =>
      if (srv.sess s).client = some c then some (s, { srv.sess s with client := none }) else none
  | .free s _ => some (s, .blank)
  | .escalate s => some (s, { srv.sess s with killing := false })
  | _ => none

/-- The connection that an action changes, and what it becomes. -/
def Act.connAfter : Act → Option (ConnPtr × Connection)
  | .queue c data alloc => some (c, connQueue (srv.conn c) data alloc)
  | .attach c s ans => some (c, replayed (greeted srv c s ans) (srv.sess s).out ans)
  | .unbind _ c => some (c, { srv.conn c with session := none, wantClose := true })
  | .update c =>
    some (c, { srv.conn c with
      events := some ⟨true, decide ((srv.conn c).wpos < (srv.conn c).wlen), true, false, false⟩ })
  | .condemn c | .failWrite c | .eof _ c => some (c, { srv.conn c with wantClose := true })
  | .write c n =>
    some (c, { srv.conn c with wpos := (srv.conn c).wpos + min n (srv.conn c).unsent.length })
  | .reset c =>
    some (c, if (srv.conn c).wpos = (srv.conn c).wlen then { srv.conn c with wpos := 0, wbuf := [] }
      else srv.conn c)
  | .relay _ c chunk _ alloc => some (c, connQueue (srv.conn c) chunk.bytes alloc)
  | .openConn => some (srv.nextConn, .blank)
  | .watchConn c => some (c, { srv.conn c with events := some ⟨true, false, true, false, false⟩ })
  | .close c => some (c, .blank)
  | _ => none

@[simp] theorem unsent_reset (k : Connection) :
    (if k.wpos = k.wlen then { k with wpos := 0, wbuf := [] } else k : Connection).unsent = k.unsent := by
  split
  · rename_i hDrained
    rw [Connection.unsent, Connection.unsent, hDrained, Connection.wlen, List.drop_length]
    rfl
  · rfl

/-- A heap with one cell changed, or none. -/
def written {α : Type} (heap : Nat → α) : Option (Nat × α) → Nat → α
  | none => heap
  | some (p, k) => Function.update heap p k

theorem sess_perform (a : Act) : (a.perform srv).sess = written srv.sess (a.sessionAfter srv) := by
  cases a with
  | queue => simp only [Act.perform, enqueue_eq]; rfl
  | attach => simp only [Act.perform, bindClient_eq]; rfl
  | unlink => simp only [Act.perform, unlinkMember_eq]; rfl
  | kill => simp only [Act.perform, markKilled_eq]; rfl
  | move => simp only [Act.perform, moveSession_eq]; rfl
  | relay => simp only [Act.perform, enqueue_eq]; rfl
  | escalate => simp only [Act.perform, epiSessionKill_eq]; rfl
  | create pid cwd argv env exec k =>
    simp [Act.perform, linkSession, forked, Server.modSess, Server.emit, Act.sessionAfter, written]
  | reap pid status child =>
    simp only [Act.perform, markReaped_eq, Act.sessionAfter]
    cases sessionOfPid srv pid with
    | none => rfl
    | some s =>
      funext t
      simp only [Option.some.injEq, Option.map_some, written, Function.update_apply, @eq_comm _ t s]
      split <;> simp_all
  | close c =>
    simp only [Act.perform, connClose_eq, Act.sessionAfter]
    cases (srv.conn c).session with
    | none => funext t; simp [written]
    | some s =>
      funext t
      by_cases hSame : s = t
      · subst hSame
        by_cases hMutual : (srv.sess s).client = some c <;> simp [hMutual, written]
      · by_cases hMutual : (srv.sess s).client = some c <;>
          simp [hMutual, written, hSame, Function.update_of_ne (Ne.symm hSame)]
  | _ => rfl

theorem conn_perform (a : Act) : (a.perform srv).conn = written srv.conn (a.connAfter srv) := by
  cases a with
  | queue => simp only [Act.perform, enqueue_eq]; rfl
  | attach => simp only [Act.perform, bindClient_eq]; rfl
  | unlink => simp only [Act.perform, unlinkMember_eq]; rfl
  | kill => simp only [Act.perform, markKilled_eq]; rfl
  | move => simp only [Act.perform, moveSession_eq]; rfl
  | relay => simp only [Act.perform, enqueue_eq]; rfl
  | escalate => simp only [Act.perform, epiSessionKill_eq]; rfl
  | reap => simp only [Act.perform, markReaped_eq]; rfl
  | close => simp only [Act.perform, connClose_eq]; rfl
  | _ => rfl

variable {srv} {a : Act}

theorem sess_perform_field {α : Type} (field : Session → α)
    (h : ∀ s k, a.sessionAfter srv = some (s, k) → field k = field (srv.sess s)) (s : SessPtr) :
    field ((a.perform srv).sess s) = field (srv.sess s) := by
  rw [sess_perform]
  cases hAfter : a.sessionAfter srv with
  | none => rfl
  | some cell =>
    obtain ⟨t, k⟩ := cell
    by_cases hSame : s = t
    · subst hSame
      simp [written, h s k hAfter]
    · simp [written, hSame]

theorem conn_perform_field {α : Type} (field : Connection → α)
    (h : ∀ c k, a.connAfter srv = some (c, k) → field k = field (srv.conn c)) (c : ConnPtr) :
    field ((a.perform srv).conn c) = field (srv.conn c) := by
  rw [conn_perform]
  cases hAfter : a.connAfter srv with
  | none => rfl
  | some cell =>
    obtain ⟨d, k⟩ := cell
    by_cases hSame : c = d
    · subst hSame
      simp [written, h c k hAfter]
    · simp [written, hSame]

theorem sess_perform_of_ne {s : SessPtr} (h : ∀ k, a.sessionAfter srv ≠ some (s, k)) :
    (a.perform srv).sess s = srv.sess s := by
  rw [sess_perform]
  cases hAfter : a.sessionAfter srv with
  | none => rfl
  | some cell =>
    refine Function.update_of_ne ?_ _ _
    rintro rfl
    exact h cell.2 hAfter

theorem conn_perform_of_ne {c : ConnPtr} (h : ∀ k, a.connAfter srv ≠ some (c, k)) :
    (a.perform srv).conn c = srv.conn c := by
  rw [conn_perform]
  cases hAfter : a.connAfter srv with
  | none => rfl
  | some cell =>
    refine Function.update_of_ne ?_ _ _
    rintro rfl
    exact h cell.2 hAfter

theorem sess_perform_of_eq {s : SessPtr} {k : Session} (h : a.sessionAfter srv = some (s, k)) :
    (a.perform srv).sess s = k := by
  rw [sess_perform, h]
  exact Function.update_self s k srv.sess

theorem conn_perform_of_eq {c : ConnPtr} {k : Connection} (h : a.connAfter srv = some (c, k)) :
    (a.perform srv).conn c = k := by
  rw [conn_perform, h]
  exact Function.update_self c k srv.conn

/-- want_close is never taken back but with the connection. -/
theorem wantClose_perform {c : ConnPtr} (hClose : a ≠ .close c) (hOpen : a = .openConn → c ≠ srv.nextConn)
    (h : (srv.conn c).wantClose = true) : ((a.perform srv).conn c).wantClose = true := by
  rcases em (∃ k, a.connAfter srv = some (c, k)) with ⟨k, hAfter⟩ | hSame
  · rw [conn_perform_of_eq hAfter]
    cases a with
    | queue d data alloc =>
      cases hAfter
      exact connQueue_wantClose_mono h
    | relay s d chunk ringAlloc alloc =>
      cases hAfter
      exact connQueue_wantClose_mono h
    | attach d s ans =>
      cases hAfter
      apply connQueue_wantClose_mono
      unfold greeted queueFrame
      split
      · exact h
      · exact connQueue_wantClose_mono h
    | reset d =>
      cases hAfter
      split <;> exact h
    | unbind | condemn | failWrite | eof =>
      cases hAfter
      rfl
    | update | write | watchConn =>
      cases hAfter
      exact h
    | openConn =>
      cases hAfter
      exact absurd rfl (hOpen rfl)
    | close d =>
      cases hAfter
      exact absurd rfl hClose
    | _ => cases hAfter
  · rw [conn_perform_of_ne fun k hAfter => hSame ⟨k, hAfter⟩]
    exact h

theorem listed_perform {c : ConnPtr} (hGuard : a.guard srv) (hOpen : a = .openConn → c ≠ srv.nextConn)
    (h : c ∈ (a.perform srv).conns) : c ∈ srv.conns := by
  have hConns : (a.perform srv).conns = (a.relink srv.links).conns :=
    congrArg Links.conns (links_perform hGuard)
  rw [hConns] at h
  cases a with
  | openConn => exact (List.mem_cons.mp h).resolve_left (hOpen rfl)
  | close d => exact List.mem_of_mem_erase h
  | _ => exact h

theorem ne_close_of_listed {c : ConnPtr} (hCons : srv.links.Consistent) (h : c ∈ (a.perform srv).conns) :
    a ≠ .close c := by
  rintro rfl
  simp only [Act.perform, connClose_eq] at h
  exact (hCons.conns_nodup.mem_erase_iff.mp h).1 rfl

theorem control_perform {c : ConnPtr} (hGuard : a.guard srv) (hOpen : a = .openConn → c ≠ srv.nextConn)
    (hClose : a ≠ .close c) (h : ((a.perform srv).conn c).isData = false) :
    (srv.conn c).isData = false := by
  have hData : ((a.perform srv).conn c).isData = (a.relink srv.links).isData c :=
    congrFun (congrArg Links.isData (links_perform hGuard)) c
  rw [hData] at h
  cases a with
  | attach d s ans =>
    simp only [Act.relink, Links.bind, Function.update_apply] at h
    split at h
    · cases h
    · exact h
  | openConn =>
    have hKept : (Act.openConn.relink srv.links).isData c = srv.links.isData c :=
      Function.update_of_ne (hOpen rfl) _ _
    exact hKept.symm.trans h
  | close d =>
    have hNe : c ≠ d := fun hSame => hClose (by rw [hSame])
    simp only [Act.relink, Links.close] at h
    rw [Function.update_of_ne hNe] at h
    exact h
  | _ => exact h

theorem nextConn_perform (hGuard : a.guard srv) : srv.nextConn ≤ (a.perform srv).nextConn := by
  have hNext : (a.perform srv).nextConn = (a.relink srv.links).nextConn :=
    congrArg Links.nextConn (links_perform hGuard)
  rw [hNext]
  cases a with
  | openConn => exact Nat.le_succ _
  | _ => exact Nat.le_refl _

theorem within_perform (hWithin : ∀ c, (srv.conn c).wpos ≤ (srv.conn c).wlen) (c : ConnPtr) :
    ((a.perform srv).conn c).wpos ≤ ((a.perform srv).conn c).wlen := by
  have hHere := hWithin c
  rcases em (∃ k, a.connAfter srv = some (c, k)) with ⟨k, hAfter⟩ | hSame
  · rw [conn_perform_of_eq hAfter]
    cases a with
    | queue | relay =>
      cases hAfter
      exact connQueue_wpos_le hHere
    | attach d s ans =>
      cases hAfter
      apply connQueue_wpos_le
      unfold greeted queueFrame
      split
      · exact hHere
      · exact connQueue_wpos_le hHere
    | write d n =>
      cases hAfter
      have hUnsent := @Connection.unsent_length (srv.conn c)
      change _ + min n _ ≤ (srv.conn c).wlen
      omega
    | reset d =>
      cases hAfter
      split
      · exact Nat.le_refl _
      · exact hHere
    | unbind | update | condemn | failWrite | eof | watchConn =>
      cases hAfter
      exact hHere
    | openConn | close =>
      cases hAfter
      exact Nat.le_refl _
    | _ => cases hAfter
  · rw [conn_perform_of_ne fun k hAfter => hSame ⟨k, hAfter⟩]
    exact hHere

/-! Laws over the trace, for the effects an action adds. -/

section Laws

variable {law : List Effect → Effect → Prop} {c : ConnPtr} {k : Connection} {data : Bytes}
  {relay alloc : Bool} {b : EpiBuf} {out : OutRing} {ans : FrameAnswers}

theorem lawful_perform :
    Lawful law (a.perform srv).trace ↔
      Lawful law srv.trace ∧ Lawful (fun history => law (srv.trace ++ history)) (a.effects srv) := by
  rw [trace_perform, lawful_append]

theorem lawful_of_mem {es : List Effect} (h : ∀ e ∈ es, ∀ history, law history e) : Lawful law es := by
  intro before e after hSplit
  exact h e (by rw [hSplit]; simp) before

/-- The call of conn_queue that a piece of output makes. -/
def Connection.enqueue (k : Connection) (data : Bytes) (relay alloc : Bool) : Enqueue :=
  ⟨k.unsent.length, data.length, k.polled, k.wantClose, relay, k.growthFails data.length alloc⟩

theorem lawful_enqueueEffects (hStarve : ∀ history, law history (.allocFailed c))
    (hQueue : data ≠ [] → law [] (.enqueued c (k.enqueue data relay alloc))) :
    Lawful law (enqueueEffects k c data relay alloc) := by
  unfold enqueueEffects
  split
  · exact lawful_nil
  · rename_i hData
    rw [lawful_cons]
    refine ⟨hQueue hData, lawful_of_mem fun e he history => ?_⟩
    split at he
    · rw [List.mem_singleton.mp he]
      exact hStarve _
    · cases he

theorem lawful_frameEffects (hStarve : ∀ history, law history (.allocFailed c))
    (hQueue : b.oom = false → b.data ≠ [] → law [] (.enqueued c (k.enqueue b.data false alloc))) :
    Lawful law (frameEffects k c b alloc) := by
  unfold frameEffects
  split
  · rw [lawful_cons]
    exact ⟨hStarve _, lawful_nil⟩
  · rename_i hData
    exact lawful_enqueueEffects hStarve (hQueue (by simpa using hData))

theorem lawful_replayEffects (hStarve : ∀ history, law history (.allocFailed c))
    (hQueue : out.ring.contents ≠ [] →
      law [] (.enqueued c (k.enqueue out.ring.contents false ans.replayAlloc))) :
    Lawful law (replayEffects k c out ans) := by
  unfold replayEffects
  split
  · rename_i snap hSnap
    obtain rfl := OutRing.contents_of_snapshot hSnap
    exact lawful_enqueueEffects hStarve hQueue
  · split
    · exact lawful_nil
    · rw [lawful_cons]
      exact ⟨hStarve _, lawful_nil⟩

theorem enqueued_mem_effects {q : Enqueue} (h : .enqueued c q ∈ a.effects srv) :
    (∃ data alloc, a = .queue c data alloc) ∨ (∃ s ans, a = .attach c s ans) ∨
      ∃ s chunk ringAlloc alloc, a = .relay s c chunk ringAlloc alloc := by
  cases a with
  | queue d data alloc =>
    obtain ⟨_, rfl, _⟩ : data ≠ [] ∧ c = d ∧ _ := by simpa [Act.effects] using h
    exact Or.inl ⟨data, alloc, rfl⟩
  | attach d s ans =>
    obtain rfl : c = d := by
      simp [Act.effects, attachEffects] at h
      grind
    exact Or.inr (Or.inl ⟨s, ans, rfl⟩)
  | relay s d chunk ringAlloc alloc =>
    obtain ⟨_, rfl, _⟩ : chunk.bytes ≠ [] ∧ c = d ∧ _ := by simpa [Act.effects] using h
    exact Or.inr (Or.inr ⟨s, chunk, ringAlloc, alloc, rfl⟩)
  | _ => simp [Act.effects] at h

end Laws

end Epimone.Daemon
