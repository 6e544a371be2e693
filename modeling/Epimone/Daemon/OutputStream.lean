import Epimone.Daemon.Attachment
import Epimone.Daemon.Replies

/-! # The output of a data channel

A connection that has attached to a session is handed the ring of the session
and, behind it, what is read from the PTY for as long as it stays attached. What
still waits in its buffer is the rest of that stream, whatever parts of it the
socket has taken; the connection is not let go of before.
-/
set_option autoImplicit false

namespace Epimone.Daemon

open Transition History

/-- The connection is no longer the client of the session. -/
def detaches (c : ConnPtr) (s : SessPtr) : Effect → Bool
  | .detached d t => d == c && t == s
  | .closed d => d == c
  | _ => false

def readFrom (s : SessPtr) : Effect → Bytes
  | .ptyRead t data _ => if t = s then data else []
  | _ => []

/-- What is read from the PTY of the session, in the order of the reads, until the connection is detached from it. -/
def outputUntilDetached (c : ConnPtr) (s : SessPtr) (history : List Effect) : Bytes :=
  (history.takeWhile fun e => !detaches c s e).flatMap (readFrom s)

def relayedBy (c : ConnPtr) : Effect → Bytes
  | .ptyRead _ data (some d) => if d = c then data else []
  | _ => []

/-- The output that has been read for the connection. -/
def relayedTo (c : ConnPtr) (history : List Effect) : Bytes := history.flatMap (relayedBy c)

theorem outputUntilDetached_append (c : ConnPtr) (s : SessPtr) (before after : List Effect) :
    outputUntilDetached c s (before ++ after) = outputUntilDetached c s before ++
      if ∃ e ∈ before, detaches c s e = true then [] else outputUntilDetached c s after := by
  unfold outputUntilDetached
  induction before with
  | nil => simp
  | cons e before ih =>
    cases hDetaches : detaches c s e with
    | true => simp [hDetaches]
    | false =>
      rw [List.cons_append, List.takeWhile_cons_of_pos (by simp [hDetaches]),
        List.takeWhile_cons_of_pos (by simp [hDetaches]), List.flatMap_cons, List.flatMap_cons, ih, List.append_assoc]
      simp [hDetaches]

variable {srv : Server} {a : Act} {c : ConnPtr} {s : SessPtr}

theorem wrote_mem_effects {data : Bytes} (h : .wrote c data ∈ a.effects srv) : ∃ n, a = .write c n := by
  cases a <;> simp [Act.effects, attachEffects] at h
  obtain ⟨rfl, -⟩ := h
  exact ⟨_, rfl⟩

theorem ptyRead_mem_effects {data : Bytes} {client : Option ConnPtr} (h : .ptyRead s data client ∈ a.effects srv) :
    client = (srv.sess s).client ∧
      ((∃ chunk ringAlloc, a = .read s chunk ringAlloc ∧ data = chunk.bytes) ∨
        ∃ d chunk ringAlloc queueAlloc, a = .relay s d chunk ringAlloc queueAlloc ∧ data = chunk.bytes) := by
  cases a <;> simp [Act.effects, attachEffects] at h
  · obtain ⟨rfl, rfl, rfl⟩ := h
    exact ⟨rfl, .inl ⟨_, _, rfl, rfl⟩⟩
  · obtain ⟨rfl, rfl, rfl⟩ := h
    exact ⟨rfl, .inr ⟨_, _, _, _, rfl, rfl⟩⟩

theorem detached_mem_effects (h : .detached c s ∈ a.effects srv) : a = .unbind s c := by
  cases a <;> simp [Act.effects, attachEffects] at h
  obtain ⟨rfl, rfl⟩ := h
  rfl

theorem shutdown_mem_effects (h : .shutdown c ∈ a.effects srv) : (∃ s, a = .unbind s c) ∨ a = .shutdown c := by
  cases a <;> simp [Act.effects, attachEffects] at h
  · obtain rfl := h
    exact .inl ⟨_, rfl⟩
  · obtain rfl := h
    exact .inr rfl

theorem eof_mem_effects (h : .eof c ∈ a.effects srv) : ∃ s, a = .eof s c := by
  cases a <;> simp [Act.effects, attachEffects] at h
  obtain rfl := h
  exact ⟨_, rfl⟩

theorem handedOver_effects (h : ∀ n, a ≠ .write c n) : handedOver c (a.effects srv) = [] := by
  apply List.flatMap_eq_nil_iff.mpr
  intro e he
  cases e with
  | wrote d data =>
    refine if_neg ?_
    rintro rfl
    obtain ⟨n, hWrite⟩ := wrote_mem_effects he
    exact h n hWrite
  | _ => rfl

theorem relayedTo_effects (hGuard : a.guard srv)
    (h : ∀ s chunk ringAlloc queueAlloc, a ≠ .relay s c chunk ringAlloc queueAlloc) :
    relayedTo c (a.effects srv) = [] := by
  apply List.flatMap_eq_nil_iff.mpr
  intro e he
  cases e with
  | ptyRead t data client =>
    cases client with
    | none => rfl
    | some d =>
      refine if_neg ?_
      rintro rfl
      obtain ⟨hClient, ⟨chunk, ringAlloc, rfl, -⟩ | ⟨d', chunk, ringAlloc, queueAlloc, rfl, -⟩⟩ :=
        ptyRead_mem_effects he
      · rw [hGuard.2] at hClient
        cases hClient
      · rw [hGuard.2.1] at hClient
        cases hClient
        exact h t chunk ringAlloc queueAlloc rfl
  | _ => rfl

theorem listed_of_listed (hGuard : a.guard srv) (hc : c ∈ srv.conns) (hKeep : a ≠ .close c) :
    c ∈ (a.perform srv).conns := by
  have hConns : (a.perform srv).conns = (a.relink srv.links).conns := congrArg Links.conns (links_perform hGuard)
  rw [hConns]
  cases a with
  | openConn => exact List.mem_cons_of_mem _ hc
  | close d =>
    refine (List.mem_erase_of_ne ?_).mpr hc
    rintro rfl
    exact hKeep rfl
  | _ => exact hc

/-- What an action does to a data channel: what its socket has been handed and what waits is one stream. -/
structure Carries (srv srv' : Server) (c : ConnPtr) (es : List Effect) : Prop where
  listed : c ∈ srv'.conns
  isData : (srv'.conn c).isData = true
  unbound : ∀ s, .detached c s ∈ es → (srv'.conn c).session = none
  bound : (∀ s, .detached c s ∉ es) → (srv'.conn c).session = (srv.conn c).session
  stream : handedOver c es ++ (srv'.conn c).unsent = (srv.conn c).unsent ++ relayedTo c es

theorem Carries.of_still (hGuard : a.guard srv) (hc : c ∈ srv.conns) (hKeep : a ≠ .close c)
    (hUnbind : ∀ s, a ≠ .unbind s c) (hWrite : ∀ n, a ≠ .write c n)
    (hRelay : ∀ s chunk ringAlloc queueAlloc, a ≠ .relay s c chunk ringAlloc queueAlloc)
    (hData : ((a.perform srv).conn c).isData = true)
    (hSession : ((a.perform srv).conn c).session = (srv.conn c).session)
    (hUnsent : ((a.perform srv).conn c).unsent = (srv.conn c).unsent) :
    Carries srv (a.perform srv) c (a.effects srv) where
  listed := listed_of_listed hGuard hc hKeep
  isData := hData
  unbound s hDetached := absurd (detached_mem_effects hDetached) (hUnbind s)
  bound _ := hSession
  stream := by
    rw [handedOver_effects hWrite, relayedTo_effects hGuard hRelay, hUnsent, List.nil_append, List.append_nil]

theorem unsent_written (k : Connection) (n : Nat) :
    ({ k with wpos := k.wpos + min n k.unsent.length } : Connection).unsent = k.unsent.drop n := by
  change k.wbuf.drop (k.wpos + min n k.unsent.length) = (k.wbuf.drop k.wpos).drop n
  rw [List.drop_drop]
  rcases Nat.le_total n k.unsent.length with hFew | hAll
  · rw [Nat.min_eq_left hFew]
  · have hLength : k.unsent.length = k.wbuf.length - k.wpos := List.length_drop
    rw [Nat.min_eq_right hAll, List.drop_eq_nil_of_le (by omega), List.drop_eq_nil_of_le (by omega)]

theorem growthFails_of_enqueued {k : Connection} {data : Bytes} {relay alloc : Bool}
    (h : .allocFailed c ∉ enqueueEffects k c data relay alloc) :
    k.growthFails data.length alloc = false ∨ data = [] := by
  rw [mem_enqueueEffects] at h
  cases hFails : k.growthFails data.length alloc with
  | false => exact .inl rfl
  | true =>
    refine .inr ?_
    by_contra hData
    exact h ⟨hData, .inr ⟨hFails, rfl⟩⟩

/-- What conn_queue takes, where nothing fails, comes behind what waits. -/
theorem connQueue_unsent_of_enqueued {k : Connection} {data : Bytes} {relay alloc : Bool}
    (h : .allocFailed c ∉ enqueueEffects k c data relay alloc) :
    (connQueue k data alloc).unsent = k.unsent ++ data := by
  rcases growthFails_of_enqueued h with hFits | rfl
  · exact connQueue_unsent hFits
  · rw [connQueue_nil, List.append_nil]

theorem relayedTo_enqueueEffects (k : Connection) (d : ConnPtr) (data : Bytes) (relay alloc : Bool) :
    relayedTo c (enqueueEffects k d data relay alloc) = [] := by
  apply List.flatMap_eq_nil_iff.mpr
  intro e he
  obtain ⟨-, rfl | ⟨-, rfl⟩⟩ := mem_enqueueEffects.mp he <;> rfl

theorem carries_perform (hLinks : srv.links.Consistent) (hGuard : a.guard srv) (hc : c ∈ srv.conns)
    (hData : (srv.conn c).isData = true) (hKeep : a ≠ .close c) (hMemory : ∀ d, .allocFailed d ∉ a.effects srv) :
    Carries srv (a.perform srv) c (a.effects srv) := by
  rcases em (∃ k, a.connAfter srv = some (c, k)) with ⟨k, hAfter⟩ | hSame
  · have hConn := conn_perform_of_eq hAfter
    cases a with
    | queue d data alloc =>
      cases hAfter
      exact absurd (hData.symm.trans hGuard.2.1) (by decide)
    | attach d s ans =>
      cases hAfter
      exact absurd (hData.symm.trans hGuard.2.1) (by decide)
    | openConn =>
      cases hAfter
      exact absurd (hLinks.conns_lt _ hc) (Nat.lt_irrefl _)
    | close d =>
      cases hAfter
      exact absurd rfl hKeep
    | relay s d chunk ringAlloc queueAlloc =>
      cases hAfter
      have hClient := hGuard.2.1
      refine ⟨listed_of_listed hGuard hc hKeep, ?_, ?_, ?_, ?_⟩
      · rw [hConn, connQueue_isData]
        exact hData
      · intro t hDetached
        cases detached_mem_effects hDetached
      · intro _
        rw [hConn, connQueue_session]
      · have hFits : .allocFailed c ∉ enqueueEffects (srv.conn c) c chunk.bytes true queueAlloc := fun hFailed =>
          hMemory c (List.mem_cons_of_mem _ hFailed)
        have hRelayed : relayedTo c ((Act.relay s c chunk ringAlloc queueAlloc).effects srv) = chunk.bytes := by
          rw [Act.effects, hClient]
          change (if c = c then chunk.bytes else []) ++ relayedTo c (enqueueEffects _ c _ true queueAlloc) = _
          rw [if_pos rfl, relayedTo_enqueueEffects, List.append_nil]
        have hHanded : handedOver c ((Act.relay s c chunk ringAlloc queueAlloc).effects srv) = [] :=
          handedOver_effects (by simp)
        rw [hHanded, hRelayed, hConn, connQueue_unsent_of_enqueued hFits]
        rfl
    | write d n =>
      cases hAfter
      refine ⟨listed_of_listed hGuard hc hKeep, ?_, ?_, ?_, ?_⟩
      · rw [hConn]
        exact hData
      · intro t hDetached
        cases detached_mem_effects hDetached
      · intro _
        rw [hConn]
      · have hHanded : handedOver c ((Act.write c n).effects srv) = (srv.conn c).unsent.take n := by
          change (if c = c then (srv.conn c).unsent.take n else []) ++ [] = _
          rw [if_pos rfl, List.append_nil]
        have hRelayed : relayedTo c ((Act.write c n).effects srv) = [] := relayedTo_effects hGuard (by simp)
        rw [hHanded, hRelayed, hConn, unsent_written, List.take_append_drop, List.append_nil]
    | unbind s d =>
      cases hAfter
      refine ⟨listed_of_listed hGuard hc hKeep, ?_, ?_, ?_, ?_⟩
      · rw [hConn]
        exact hData
      · intro _ _
        rw [hConn]
      · intro hNone
        exact absurd List.mem_cons_self (hNone s)
      · have hHanded : handedOver c ((Act.unbind s c).effects srv) = [] := handedOver_effects (by simp)
        have hRelayed : relayedTo c ((Act.unbind s c).effects srv) = [] := relayedTo_effects hGuard (by simp)
        rw [hHanded, hRelayed, hConn]
        exact (List.append_nil _).symm
    | reset d =>
      cases hAfter
      refine .of_still hGuard hc (by simp) (by simp) (by simp) (by simp) ?_ ?_ ?_ <;> rw [hConn]
      · split <;> exact hData
      · split <;> rfl
      · exact unsent_reset _
    | update | condemn | failWrite | eof | watchConn =>
      cases hAfter
      refine .of_still hGuard hc (by simp) (by simp) (by simp) (by simp) ?_ ?_ ?_ <;> rw [hConn]
      · exact hData
      · rfl
    | _ => cases hAfter
  · have hConn := conn_perform_of_ne fun k hAfter => hSame ⟨k, hAfter⟩
    refine .of_still hGuard hc hKeep ?_ ?_ ?_ ?_ ?_ ?_
    · rintro s rfl
      exact hSame ⟨_, rfl⟩
    · rintro n rfl
      exact hSame ⟨_, rfl⟩
    · rintro s chunk ringAlloc queueAlloc rfl
      exact hSame ⟨_, rfl⟩
    · rw [hConn]
      exact hData
    · rw [hConn]
    · rw [hConn]

theorem detaches_iff (post : List Effect) :
    (∃ e ∈ post, detaches c s e = true) ↔ .detached c s ∈ post ∨ .closed c ∈ post := by
  constructor
  · rintro ⟨e, he, hDetaches⟩
    cases e with
    | detached d t =>
      obtain ⟨rfl, rfl⟩ : d = c ∧ t = s := by simpa [detaches] using hDetaches
      exact .inl he
    | closed d =>
      obtain rfl : d = c := by simpa [detaches] using hDetaches
      exact .inr he
    | _ => cases hDetaches
  · rintro (hDetached | hClosed)
    · exact ⟨_, hDetached, by simp [detaches]⟩
    · exact ⟨_, hClosed, by simp [detaches]⟩

theorem outputUntilDetached_of_quiet {es : List Effect} (h : ∀ data client, .ptyRead s data client ∉ es) :
    outputUntilDetached c s es = [] := by
  apply List.flatMap_eq_nil_iff.mpr
  intro e he
  have hMem := (List.takeWhile_sublist _).subset he
  cases e with
  | ptyRead t data client =>
    refine if_neg ?_
    rintro rfl
    exact h data client hMem
  | _ => rfl

theorem output_effects (hLinks : srv.links.Consistent) (hGuard : a.guard srv) (hBound : (srv.conn c).session = some s) :
    outputUntilDetached c s (a.effects srv) = relayedTo c (a.effects srv) := by
  have hClient : (srv.sess s).client = some c := (hLinks.paired c s).mp hBound
  by_cases hRelay : ∃ t chunk ringAlloc queueAlloc, a = .relay t c chunk ringAlloc queueAlloc
  · obtain ⟨t, chunk, ringAlloc, queueAlloc, rfl⟩ := hRelay
    obtain rfl : t = s := hLinks.client_unique hGuard.2.1 hClient
    have hQuiet : outputUntilDetached c t (enqueueEffects (srv.conn c) c chunk.bytes true queueAlloc) = [] := by
      refine outputUntilDetached_of_quiet fun data client hRead => ?_
      obtain ⟨-, hSame | ⟨-, hSame⟩⟩ := mem_enqueueEffects.mp hRead <;> cases hSame
    have hOutput : outputUntilDetached c t ([.ptyRead t chunk.bytes (srv.sess t).client] ++
        enqueueEffects (srv.conn c) c chunk.bytes true queueAlloc) = chunk.bytes := by
      rw [outputUntilDetached_append, hQuiet]
      simp [outputUntilDetached, detaches, readFrom]
    have hRelayed : relayedTo c ([.ptyRead t chunk.bytes (srv.sess t).client] ++
        enqueueEffects (srv.conn c) c chunk.bytes true queueAlloc) = chunk.bytes := by
      rw [relayedTo, List.flatMap_append, ← relayedTo, ← relayedTo, relayedTo_enqueueEffects, hClient]
      simp [relayedTo, relayedBy]
    exact hOutput.trans hRelayed.symm
  · have hNone : relayedTo c (a.effects srv) = [] :=
      relayedTo_effects hGuard fun t chunk ringAlloc queueAlloc hSame => hRelay ⟨t, chunk, ringAlloc, queueAlloc, hSame⟩
    rw [hNone]
    refine outputUntilDetached_of_quiet fun data client hRead => ?_
    obtain ⟨-, ⟨chunk, ringAlloc, rfl, -⟩ | ⟨d, chunk, ringAlloc, queueAlloc, rfl, -⟩⟩ := ptyRead_mem_effects hRead
    · cases hClient.symm.trans hGuard.2
    · obtain rfl : c = d := Option.some.inj (hClient.symm.trans hGuard.2.1)
      exact hRelay ⟨s, chunk, ringAlloc, queueAlloc, rfl⟩

theorem relayed_effects_of_free (hLinks : srv.links.Consistent) (hGuard : a.guard srv)
    (hFree : (srv.conn c).session = none) : relayedTo c (a.effects srv) = [] := by
  apply relayedTo_effects hGuard
  rintro t chunk ringAlloc queueAlloc rfl
  have hBound : (srv.conn c).session = some t := (hLinks.paired c t).mpr hGuard.2.1
  cases hFree.symm.trans hBound

theorem detached_unique (hLinks : srv.links.Consistent) (hGuard : a.guard srv) (hBound : (srv.conn c).session = some s)
    {t : SessPtr} (h : .detached c t ∈ a.effects srv) : t = s := by
  obtain rfl := detached_mem_effects h
  exact Option.some.inj (((hLinks.paired c t).mpr hGuard).symm.trans hBound)

/-- What has been handed over of a channel since it was opened, and what is to come. -/
structure Streaming (srv : Server) (c : ConnPtr) (s : SessPtr) (ahead ring : Bytes) (post : List Effect) : Prop where
  known : c < srv.nextConn
  gone : .closed c ∈ post → c ∉ srv.conns
  listed : .closed c ∉ post → c ∈ srv.conns ∧ (srv.conn c).isData = true
  session : .closed c ∉ post → (srv.conn c).session = if .detached c s ∈ post then none else some s
  sent : ∃ rest, handedOver c post ++ rest = ahead ++ (ring ++ outputUntilDetached c s post) ∧
    (.closed c ∉ post → rest = (srv.conn c).unsent)

section Step

variable {ahead ring : Bytes} {post : List Effect}

theorem Streaming.step_closed (h : Streaming srv c s ahead ring post) (hGuard : a.guard srv)
    (hClosed : .closed c ∈ post) :
    Streaming (a.perform srv) c s ahead ring (post ++ a.effects srv) := by
  have hGone := h.gone hClosed
  have hStill : .closed c ∈ post ++ a.effects srv := List.mem_append_left _ hClosed
  have hHanded : handedOver c (a.effects srv) = [] := by
    apply handedOver_effects
    rintro n rfl
    exact hGone hGuard.1
  obtain ⟨rest, hSent, -⟩ := h.sent
  refine ⟨Nat.lt_of_lt_of_le h.known (nextConn_perform hGuard), fun _ hIn => hGone ?_, fun hNot => absurd hStill hNot,
    fun hNot => absurd hStill hNot, rest, ?_, fun hNot => absurd hStill hNot⟩
  · exact listed_perform hGuard (fun _ => Nat.ne_of_lt h.known) hIn
  · rw [handedOver_append, hHanded, List.append_nil, outputUntilDetached_append,
      if_pos ((detaches_iff post).mpr (.inr hClosed)), List.append_nil]
    exact hSent

theorem Streaming.step_close (h : Streaming srv c s ahead ring post) (hLinks : srv.links.Consistent) :
    Streaming ((Act.close c).perform srv) c s ahead ring (post ++ (Act.close c).effects srv) := by
  have hNow : .closed c ∈ post ++ (Act.close c).effects srv := List.mem_append_right _ (List.mem_singleton_self _)
  obtain ⟨rest, hSent, -⟩ := h.sent
  have hQuiet : outputUntilDetached c s ((Act.close c).effects srv) = [] :=
    outputUntilDetached_of_quiet fun data client hRead => by simp [Act.effects] at hRead
  have hHanded : handedOver c ((Act.close c).effects srv) = [] := handedOver_effects (by simp)
  refine ⟨?_, fun _ => ?_, fun hNot => absurd hNow hNot, fun hNot => absurd hNow hNot, rest, ?_,
    fun hNot => absurd hNow hNot⟩
  · simp only [Act.perform, connClose_eq]
    exact h.known
  · simp only [Act.perform, connClose_eq]
    exact fun hIn => (hLinks.conns_nodup.mem_erase_iff.mp hIn).1 rfl
  · rw [handedOver_append, hHanded, List.append_nil, outputUntilDetached_append, hQuiet, ite_self, List.append_nil]
    exact hSent

theorem Streaming.step (h : Streaming srv c s ahead ring post) (hLinks : srv.links.Consistent) (hGuard : a.guard srv)
    (hMemory : ∀ d, .allocFailed d ∉ a.effects srv) :
    Streaming (a.perform srv) c s ahead ring (post ++ a.effects srv) := by
  rcases em (.closed c ∈ post) with hClosed | hOpen
  · exact h.step_closed hGuard hClosed
  rcases eq_or_ne a (.close c) with rfl | hKeep
  · exact h.step_close hLinks
  obtain ⟨hc, hData⟩ := h.listed hOpen
  have hCarries := carries_perform hLinks hGuard hc hData hKeep hMemory
  have hStill : .closed c ∉ post ++ a.effects srv := by
    rw [List.mem_append]
    exact fun hIn => hIn.elim hOpen fun hNow => hKeep (closed_mem_effects hNow)
  have hSession := h.session hOpen
  obtain ⟨rest, hSent, hRest⟩ := h.sent
  have hRest := hRest hOpen
  constructor
  case known => exact Nat.lt_of_lt_of_le h.known (nextConn_perform hGuard)
  case gone => exact fun hIn => absurd hIn hStill
  case listed => exact fun _ => ⟨hCarries.listed, hCarries.isData⟩
  case session =>
    intro _
    rcases em (.detached c s ∈ post) with hDetached | hAttached
    · rw [if_pos hDetached] at hSession
      rw [if_pos (List.mem_append_left _ hDetached)]
      rcases em (∃ t, .detached c t ∈ a.effects srv) with ⟨t, hNow⟩ | hNone
      · exact hCarries.unbound t hNow
      · rw [hCarries.bound fun t hNow => hNone ⟨t, hNow⟩]
        exact hSession
    · rw [if_neg hAttached] at hSession
      rcases em (∃ t, .detached c t ∈ a.effects srv) with ⟨t, hNow⟩ | hNone
      · obtain rfl := detached_unique hLinks hGuard hSession hNow
        rw [if_pos (List.mem_append_right _ hNow)]
        exact hCarries.unbound t hNow
      · rw [if_neg fun hIn => (List.mem_append.mp hIn).elim hAttached fun hNow => hNone ⟨s, hNow⟩,
          hCarries.bound fun t hNow => hNone ⟨t, hNow⟩]
        exact hSession
  case sent =>
    refine ⟨((a.perform srv).conn c).unsent, ?_, fun _ => rfl⟩
    have hOutput : outputUntilDetached c s (post ++ a.effects srv) =
        outputUntilDetached c s post ++ relayedTo c (a.effects srv) := by
      rw [outputUntilDetached_append]
      congr 1
      rcases em (.detached c s ∈ post) with hDetached | hAttached
      · rw [if_pos hDetached] at hSession
        rw [if_pos ((detaches_iff post).mpr (.inl hDetached)), relayed_effects_of_free hLinks hGuard hSession]
      · rw [if_neg hAttached] at hSession
        rw [if_neg fun hIn => ((detaches_iff post).mp hIn).elim hAttached hOpen, output_effects hLinks hGuard hSession]
    calc handedOver c (post ++ a.effects srv) ++ ((a.perform srv).conn c).unsent
      _ = handedOver c post ++ (handedOver c (a.effects srv) ++ ((a.perform srv).conn c).unsent) := by
        rw [handedOver_append, List.append_assoc]
      _ = handedOver c post ++ (rest ++ relayedTo c (a.effects srv)) := by rw [hCarries.stream, hRest]
      _ = ahead ++ (ring ++ outputUntilDetached c s (post ++ a.effects srv)) := by
        rw [← List.append_assoc, hSent, hOutput]
        simp only [List.append_assoc]

/-- A channel whose PTY has hung up is let go of when all of its stream has been handed over. -/
structure Drains (srv : Server) (c : ConnPtr) (s : SessPtr) (ahead ring : Bytes) (post : List Effect) : Prop where
  shut : .eof c ∈ post → (srv.conn c).session = some s → (srv.sess s).ptyOpen = false
  drained : ∀ mid e later, post = mid ++ e :: later → e = .shutdown c ∨ e = .closed c → .eof c ∈ mid →
    .detached c s ∉ mid → handedOver c mid = ahead ++ (ring ++ outputUntilDetached c s post)

/-- A PTY that has been closed is not opened again. -/
theorem ptyOpen_perform (hGuard : a.guard srv) (hOld : s ≠ srv.nextSess) (h : (srv.sess s).ptyOpen = false) :
    ((a.perform srv).sess s).ptyOpen = false := by
  have hOpen : ((a.perform srv).sess s).ptyOpen = (a.relink srv.links).ptyOpen s :=
    congrFun (congrArg Links.ptyOpen (links_perform hGuard)) s
  rw [hOpen]
  cases a with
  | create =>
    have hKept : (srv.links.create).ptyOpen s = srv.links.ptyOpen s := Function.update_of_ne hOld _ _
    exact hKept.trans h
  | closePty t =>
    simp only [Act.relink, Links.closePty, Function.update_apply]
    split
    · rfl
    · exact h
  | free t rest =>
    simp only [Act.relink, Links.free, Function.update_apply]
    split
    · rfl
    · exact h
  | _ => exact h

theorem Streaming.bound_of_perform (h : Streaming srv c s ahead ring post) (hGuard : a.guard srv) {t : SessPtr}
    (hBound : ((a.perform srv).conn c).session = some t) : (srv.conn c).session = some t := by
  have hLinked : ((a.perform srv).conn c).session = (a.relink srv.links).bound c :=
    congrFun (congrArg Links.bound (links_perform hGuard)) c
  rw [hLinked] at hBound
  cases a with
  | attach d t' ans =>
    have hNe : c ≠ d := by
      rintro rfl
      rcases em (.closed c ∈ post) with hClosed | hOpen
      · exact h.gone hClosed hGuard.1
      · exact absurd ((h.listed hOpen).2.symm.trans hGuard.2.1) (by decide)
    have hKept : (srv.links.bind d t').bound c = srv.links.bound c := Function.update_of_ne hNe _ _
    exact hKept.symm.trans hBound
  | unbind t' d =>
    simp only [Act.relink, Links.unbind, Function.update_apply] at hBound
    split at hBound
    · cases hBound
    · exact hBound
  | openConn =>
    have hKept : srv.links.openConn.bound c = srv.links.bound c := Function.update_of_ne (Nat.ne_of_lt h.known) _ _
    exact hKept.symm.trans hBound
  | close d =>
    simp only [Act.relink, Links.close, Function.update_apply] at hBound
    split at hBound
    · cases hBound
    · exact hBound
  | _ => exact hBound

theorem Drains.step_shut (h : Drains srv c s ahead ring post) (hStream : Streaming srv c s ahead ring post)
    (hLinks : srv.links.Consistent) (hGuard : a.guard srv) (hEof : .eof c ∈ post ++ a.effects srv)
    (hBound : ((a.perform srv).conn c).session = some s) : ((a.perform srv).sess s).ptyOpen = false := by
  have hBefore := hStream.bound_of_perform hGuard hBound
  have hOld : s ≠ srv.nextSess := Nat.ne_of_lt (hLinks.sessions_lt s (hLinks.bound_listed c s hBefore))
  rcases List.mem_append.mp hEof with hPast | hNow
  · exact ptyOpen_perform hGuard hOld (h.shut hPast hBefore)
  · obtain ⟨t, rfl⟩ := eof_mem_effects hNow
    obtain rfl : t = s := hLinks.client_unique hGuard.1 ((hLinks.paired c s).mp hBefore)
    exact ptyOpen_perform hGuard hOld hGuard.2

theorem Drains.still (h : Drains srv c s ahead ring post) (hStream : Streaming srv c s ahead ring post)
    (hGuard : a.guard srv) (hEof : .eof c ∈ post) :
    outputUntilDetached c s (post ++ a.effects srv) = outputUntilDetached c s post := by
  rw [outputUntilDetached_append]
  rcases em (.detached c s ∈ post ∨ .closed c ∈ post) with hCut | hAttached
  · rw [if_pos ((detaches_iff post).mpr hCut), List.append_nil]
  · obtain ⟨hNot, hOpen⟩ := not_or.mp hAttached
    have hBound := hStream.session hOpen
    rw [if_neg hNot] at hBound
    have hShut := h.shut hEof hBound
    have hQuiet : ∀ data client, .ptyRead s data client ∉ a.effects srv := by
      intro data client hRead
      obtain ⟨-, ⟨chunk, ringAlloc, rfl, -⟩ | ⟨d, chunk, ringAlloc, queueAlloc, rfl, -⟩⟩ := ptyRead_mem_effects hRead
      · exact absurd (hShut.symm.trans hGuard.1) (by decide)
      · exact absurd (hShut.symm.trans hGuard.1) (by decide)
    rw [outputUntilDetached_of_quiet hQuiet, ite_self, List.append_nil]

/-- A connection that is let go of without being detached has nothing left to send. -/
theorem drained_effects (hStream : Streaming srv c s ahead ring post) (hLinks : srv.links.Consistent)
    (hGuard : a.guard srv) {head later : List Effect} {e : Effect} (hSplit : a.effects srv = head ++ e :: later)
    (hLets : e = .shutdown c ∨ e = .closed c) (hAttached : .detached c s ∉ post ++ head) :
    head = [] ∧ c ∈ srv.conns ∧ (srv.conn c).unsent = [] := by
  have hNow : e ∈ a.effects srv := by
    rw [hSplit]
    exact List.mem_append_right _ List.mem_cons_self
  have hEmpty : (srv.conn c).wpos = (srv.conn c).wlen → (srv.conn c).unsent = [] := by
    intro hDrained
    by_contra hLeft
    exact absurd (Connection.unsent_ne_nil_iff.mp hLeft) (by omega)
  have hOnly : ∀ e' : Effect, a.effects srv = [e'] → head = [] := by
    intro e' hOne
    rw [hOne] at hSplit
    cases head with
    | nil => rfl
    | cons first rest =>
      have hLength := congrArg List.length hSplit
      simp at hLength
  rcases hLets with rfl | rfl
  · rcases shutdown_mem_effects hNow with ⟨t, rfl⟩ | rfl
    · have hBound : (srv.conn c).session = some t := (hLinks.paired c t).mpr hGuard
      have hOpen : .closed c ∉ post := fun hClosed => hStream.gone hClosed (hLinks.bound_conn c t hBound).1
      have hNot : .detached c s ∉ post := fun hIn => hAttached (List.mem_append_left _ hIn)
      have hSession := hStream.session hOpen
      rw [if_neg hNot, hBound] at hSession
      cases hSession
      cases head with
      | nil => cases hSplit
      | cons first rest =>
        obtain rfl : .detached c s = first := (List.cons.inj hSplit).1
        exact absurd (List.mem_append_right _ List.mem_cons_self) hAttached
    · exact ⟨hOnly _ rfl, hGuard.1, hEmpty hGuard.2.1⟩
  · obtain rfl := closed_mem_effects hNow
    exact ⟨hOnly _ rfl, hGuard.1, hEmpty hGuard.2⟩

theorem Drains.step (h : Drains srv c s ahead ring post) (hStream : Streaming srv c s ahead ring post)
    (hLinks : srv.links.Consistent) (hGuard : a.guard srv) :
    Drains (a.perform srv) c s ahead ring (post ++ a.effects srv) := by
  refine ⟨h.step_shut hStream hLinks hGuard, ?_⟩
  intro mid e later hSplit hLets hEof hAttached
  rcases split_append hSplit with ⟨tail, hPast, -⟩ | ⟨head, rfl, hNow⟩
  · have hIn : .eof c ∈ post := by
      rw [hPast]
      exact List.mem_append_left _ hEof
    rw [h.still hStream hGuard hIn]
    exact h.drained mid e tail hPast hLets hEof hAttached
  · obtain ⟨rfl, hc, hEmpty⟩ := drained_effects hStream hLinks hGuard hNow hLets hAttached
    rw [List.append_nil] at hEof ⊢
    obtain ⟨rest, hSent, hRest⟩ := hStream.sent
    have hOpen : .closed c ∉ post := fun hClosed => hStream.gone hClosed hc
    rw [hRest hOpen, hEmpty, List.append_nil] at hSent
    rw [h.still hStream hGuard hEof]
    exact hSent

end Step

/-- A channel as it was opened, by the ATTACHED frame that was queued for it. -/
def Channel (srv : Server) (c : ConnPtr) (s : SessPtr) (n : Nat) (ring : Bytes) (post : List Effect) : Prop :=
  ∃ waiting info, (waiting ++ frameBytes EpiMsgType.attached.code info).length = n ∧
    Streaming srv c s (waiting ++ frameBytes EpiMsgType.attached.code info) ring post ∧
      Drains srv c s (waiting ++ frameBytes EpiMsgType.attached.code info) ring post

def Server.Channels (srv : Server) : Prop :=
  ∀ pre c s n ring post, srv.trace = pre ++ .attached c s n ring :: post → Channel srv c s n ring post

theorem greeted_unsent {ans : FrameAnswers} (h : ∀ d, .allocFailed d ∉ attachEffects srv c s ans) :
    (greeted srv c s ans).unsent = (srv.conn c).unsent ++
      frameBytes EpiMsgType.attached.code (infoBytes { srv.sess s with client := some c }) := by
  have hFrame : ∀ d, .allocFailed d ∉ frameEffects { srv.conn c with isData := true, session := some s } c
      (greeting srv c s ans) ans.queueAlloc := fun d hIn => h d (List.mem_append_left _ hIn)
  have hOom : (greeting srv c s ans).oom = false := by
    cases hFails : (greeting srv c s ans).oom with
    | false => rfl
    | true => exact absurd (mem_frameEffects.mpr (.inl ⟨hFails, rfl⟩)) (hFrame c)
  have hQueue := hFrame c
  rw [frameEffects, if_neg (by rw [hOom]; decide)] at hQueue
  rw [greeted, queueFrame, if_neg (by rw [hOom]; decide), connQueue_unsent_of_enqueued hQueue,
    (opened_greeting srv c s ans).data_eq hOom]
  rfl

theorem replayed_unsent {ans : FrameAnswers} (h : ∀ d, .allocFailed d ∉ attachEffects srv c s ans) :
    (replayed (greeted srv c s ans) (srv.sess s).out ans).unsent =
      (greeted srv c s ans).unsent ++ (srv.sess s).out.ring.contents := by
  have hReplay : .allocFailed c ∉ replayEffects (greeted srv c s ans) c (srv.sess s).out ans := fun hIn =>
    h c (List.mem_append_right _ (List.mem_cons_of_mem _ hIn))
  rw [replayed]
  cases hSnap : (srv.sess s).out.snapshot ans.snapAlloc with
  | some snap =>
    rw [replayEffects, hSnap] at hReplay
    rw [Option.getD_some, connQueue_unsent_of_enqueued hReplay, OutRing.contents_of_snapshot hSnap]
  | none =>
    have hEmpty : (srv.sess s).out.ring.size = 0 := by
      by_contra hSize
      exact hReplay (mem_replayEffects.mpr (.inr ⟨hSnap, hSize, rfl⟩))
    have hLength := (srv.sess s).out.valid.length_contents
    rw [hEmpty] at hLength
    rw [Option.getD_none, connQueue_nil, List.eq_nil_of_length_eq_zero hLength, List.append_nil]

theorem not_mem_replayEffects (srv : Server) (c : ConnPtr) (s : SessPtr) (ans : FrameAnswers) {e : Effect}
    (hFirst : ∀ q, e ≠ .enqueued c q) (hSecond : e ≠ .allocFailed c) :
    e ∉ replayEffects (greeted srv c s ans) c (srv.sess s).out ans := by
  intro he
  rcases mem_replayEffects.mp he with ⟨snap, -, hIn⟩ | ⟨-, -, hSame⟩
  · obtain ⟨-, hSame | ⟨-, hSame⟩⟩ := mem_enqueueEffects.mp hIn
    · exact hFirst _ hSame
    · exact hSecond hSame
  · exact hSecond hSame

theorem streaming_attach {ans : FrameAnswers} (hLinks : srv.links.Consistent) (hGuard : (Act.attach c s ans).guard srv)
    (hMemory : ∀ d, .allocFailed d ∉ attachEffects srv c s ans) :
    Streaming (bindClient srv c ans s) c s ((srv.conn c).unsent ++
        frameBytes EpiMsgType.attached.code (infoBytes { srv.sess s with client := some c }))
      (srv.sess s).out.ring.contents (replayEffects (greeted srv c s ans) c (srv.sess s).out ans) := by
  have hGreeted := greeted_unsent hMemory
  have hConn : (bindClient srv c ans s).conn c = replayed (greeted srv c s ans) (srv.sess s).out ans := by
    rw [bindClient_eq]
    exact Function.update_self ..
  have hClosed : .closed c ∉ replayEffects (greeted srv c s ans) c (srv.sess s).out ans :=
    not_mem_replayEffects srv c s ans (by simp) (by simp)
  have hDetached : .detached c s ∉ replayEffects (greeted srv c s ans) c (srv.sess s).out ans :=
    not_mem_replayEffects srv c s ans (by simp) (by simp)
  constructor
  case known =>
    rw [bindClient_eq]
    exact hLinks.conns_lt c hGuard.1
  case gone => exact fun hIn => absurd hIn hClosed
  case listed =>
    intro _
    rw [hConn, replayed_isData, greeted, queueFrame_isData]
    rw [bindClient_eq]
    exact ⟨hGuard.1, rfl⟩
  case session =>
    intro _
    rw [if_neg hDetached, hConn, replayed_session, greeted, queueFrame_session]
  case sent =>
    refine ⟨_, ?_, fun _ => rfl⟩
    rw [hConn, replayed_unsent hMemory, hGreeted, handedOver_eq_nil, outputUntilDetached_of_quiet, List.append_nil,
      List.nil_append]
    · exact fun data client => not_mem_replayEffects srv c s ans (by simp) (by simp)
    · rintro e he d data rfl
      exact not_mem_replayEffects srv c s ans (by simp) (by simp) he

theorem drains_attach {ans : FrameAnswers} {ahead : Bytes} :
    Drains (bindClient srv c ans s) c s ahead (srv.sess s).out.ring.contents
      (replayEffects (greeted srv c s ans) c (srv.sess s).out ans) := by
  have hEof : .eof c ∉ replayEffects (greeted srv c s ans) c (srv.sess s).out ans :=
    not_mem_replayEffects srv c s ans (by simp) (by simp)
  constructor
  case shut => exact fun hIn => absurd hIn hEof
  case drained =>
    intro mid e later hSplit _ hIn
    refine absurd ?_ hEof
    rw [hSplit]
    exact List.mem_append_left _ hIn

theorem channel_attach {ans : FrameAnswers} (hLinks : srv.links.Consistent) (hGuard : (Act.attach c s ans).guard srv)
    (hMemory : ∀ d, .allocFailed d ∉ attachEffects srv c s ans) :
    Channel (bindClient srv c ans s) c s (greeted srv c s ans).unsent.length (srv.sess s).out.ring.contents
      (replayEffects (greeted srv c s ans) c (srv.sess s).out ans) :=
  ⟨(srv.conn c).unsent, infoBytes { srv.sess s with client := some c }, by rw [greeted_unsent hMemory],
    streaming_attach hLinks hGuard hMemory, drains_attach⟩

theorem attached_mem_effects {n : Nat} {ring : Bytes} (h : .attached c s n ring ∈ a.effects srv) :
    ∃ ans, a = .attach c s ans := by
  cases a <;> simp [Act.effects, attachEffects] at h
  obtain ⟨rfl, rfl, -⟩ := h
  exact ⟨_, rfl⟩

theorem attached_split {ans : FrameAnswers} {pre post : List Effect} {n : Nat} {ring : Bytes}
    (h : attachEffects srv c s ans = pre ++ .attached c s n ring :: post) :
    n = (greeted srv c s ans).unsent.length ∧ ring = (srv.sess s).out.ring.contents ∧
      post = replayEffects (greeted srv c s ans) c (srv.sess s).out ans := by
  have hReplay : .attached c s n ring ∉ replayEffects (greeted srv c s ans) c (srv.sess s).out ans := by
    simp
  have hFrame : .attached c s n ring ∉ frameEffects { srv.conn c with isData := true, session := some s } c
      (greeting srv c s ans) ans.queueAlloc := by
    simp
  rcases split_append h with ⟨tail, hIn, -⟩ | ⟨head, -, hHere⟩
  · refine absurd ?_ hFrame
    rw [hIn]
    exact List.mem_append_right _ List.mem_cons_self
  · cases head with
    | nil =>
      obtain ⟨hSame, hPost⟩ := List.cons.inj hHere
      cases hSame
      exact ⟨rfl, rfl, hPost.symm⟩
    | cons first head =>
      refine absurd ?_ hReplay
      rw [(List.cons.inj hHere).2]
      exact List.mem_append_right _ List.mem_cons_self

theorem channels_perform (hLinks : srv.links.Consistent) (hGuard : a.guard srv)
    (hMemory : ∀ d, .allocFailed d ∉ (a.perform srv).trace) (h : srv.Channels) : (a.perform srv).Channels := by
  have hNow : ∀ d, .allocFailed d ∉ a.effects srv := fun d hIn => hMemory d (by
    rw [trace_perform]
    exact List.mem_append_right _ hIn)
  intro pre c s n ring post hSplit
  rw [trace_perform] at hSplit
  rcases split_append hSplit with ⟨tail, hPast, rfl⟩ | ⟨head, -, hEffects⟩
  · obtain ⟨waiting, info, hLength, hStream, hDrains⟩ := h pre c s n ring tail hPast
    exact ⟨waiting, info, hLength, hStream.step hLinks hGuard hNow, hDrains.step hStream hLinks hGuard⟩
  · have hIn : .attached c s n ring ∈ a.effects srv := by
      rw [hEffects]
      exact List.mem_append_right _ List.mem_cons_self
    obtain ⟨ans, rfl⟩ := attached_mem_effects hIn
    obtain ⟨rfl, rfl, rfl⟩ := attached_split hEffects
    exact channel_attach hLinks hGuard hNow

theorem channels_of_run {instanceId : Nat} {inputs : List Input} {loop : Loop}
    (h : (machine instanceId).run inputs = some loop) (hMemory : ∀ d, .allocFailed d ∉ loop.srv.trace) :
    loop.srv.Channels := by
  refine run_perform (P := fun srv => (∀ d, .allocFailed d ∉ srv.trace) → srv.Channels) ?_ ?_ h hMemory
  · intro _ pre c s n ring post hSplit
    simp [Server.initial] at hSplit
  · intro srv a hLinks hChannels hGuard hMemory
    refine channels_perform hLinks hGuard hMemory (hChannels fun d hIn => hMemory d ?_)
    rw [trace_perform]
    exact List.mem_append_left _ hIn

/-- A client that has attached is handed, behind the ATTACHED frame, the ring and then the output of the PTY for as long
as it stays attached, without a gap. After a hangup of the PTY it is let go of only when it has all of it. -/
theorem output_contiguous {instanceId : Nat} {inputs : List Input} {loop : Loop}
    (h : (machine instanceId).run inputs = some loop) (hMemory : ∀ d, .allocFailed d ∉ loop.srv.trace)
    {pre post : List Effect} {c : ConnPtr} {s : SessPtr} {n : Nat} {ring : Bytes}
    (hAttached : loop.srv.trace = pre ++ .attached c s n ring :: post) :
    ∃ waiting info, (waiting ++ frameBytes EpiMsgType.attached.code info).length = n ∧
      handedOver c post <+:
        waiting ++ frameBytes EpiMsgType.attached.code info ++ (ring ++ outputUntilDetached c s post) ∧
      ∀ mid e later, post = mid ++ e :: later → e = .shutdown c ∨ e = .closed c → .eof c ∈ mid → .detached c s ∉ mid →
        handedOver c mid = waiting ++ frameBytes EpiMsgType.attached.code info ++
          (ring ++ outputUntilDetached c s post) := by
  obtain ⟨waiting, info, hLength, hStream, hDrains⟩ := channels_of_run h hMemory pre c s n ring post hAttached
  obtain ⟨rest, hSent, -⟩ := hStream.sent
  exact ⟨waiting, info, hLength, ⟨rest, hSent⟩, hDrains.drained⟩

/-- The shell prints two bytes and exits, under its client, whose socket takes everything. -/
def printing : List Input :=
  attaching ++ batchOf (.pty 0 readable) (.pty { hangsUp with
    reads := [⟨.bytes ⟨[111, 107], by decide⟩, .block fun _ => 0, true, []⟩,
      ⟨.failed, .block fun _ => 0, true, []⟩] }) ⟨0⟩

def failsAlloc : Effect → Bool
  | .allocFailed _ => true
  | _ => false

def printedAndShut (loop : Loop) : Bool :=
  let post := loop.srv.trace.drop 9
  decide (loop.srv.trace = loop.srv.trace.take 8 ++ .attached 0 0 50 [] :: post) &&
    decide (post = post.take 7 ++ [.shutdown 0]) && (post.take 7).contains (.eof 0) &&
    !(post.take 7).contains (.detached 0 0) && decide (outputUntilDetached 0 0 post = [111, 107]) &&
    loop.srv.trace.all fun e => !failsAlloc e

theorem output_contiguous_printing :
    ∃ loop, (machine 7).run printing = some loop ∧ ∃ waiting info,
      (waiting ++ frameBytes EpiMsgType.attached.code info).length = 50 ∧
      handedOver 0 ((loop.srv.trace.drop 9).take 7) = waiting ++ frameBytes EpiMsgType.attached.code info ++
        [111, 107] := by
  have hRun : ((machine 7).run printing).any printedAndShut := by decide +kernel
  obtain ⟨loop, hLoop, hPrinted⟩ := (machine 7).exists_of_run_any hRun
  simp only [printedAndShut, Bool.and_eq_true, decide_eq_true_eq, List.contains_iff_mem, Bool.not_eq_true',
    List.all_eq_true] at hPrinted
  obtain ⟨⟨⟨⟨⟨hAttached, hShut⟩, hEof⟩, hStays⟩, hOutput⟩, hAlloc⟩ := hPrinted
  have hMemory : ∀ d, .allocFailed d ∉ loop.srv.trace := fun d hIn => by
    cases hAlloc _ hIn
  have hBound : .detached 0 0 ∉ (loop.srv.trace.drop 9).take 7 := by
    rw [← List.contains_iff_mem, hStays]
    decide
  obtain ⟨waiting, info, hLength, -, hAll⟩ := output_contiguous hLoop hMemory hAttached
  refine ⟨loop, hLoop, waiting, info, hLength, ?_⟩
  rw [hAll _ _ [] hShut (.inl rfl) hEof hBound, hOutput]
  rfl

/-- Behind the ATTACHED frame and what had been waiting there is only the ring and the output, and after a hangup all of
it before the client is let go of. -/
theorem stream_behind_attached {instanceId : Nat} {inputs : List Input} {loop : Loop}
    (h : (machine instanceId).run inputs = some loop) (hMemory : ∀ d, .allocFailed d ∉ loop.srv.trace)
    {pre post : List Effect} {c : ConnPtr} {s : SessPtr} {n : Nat} {ring : Bytes}
    (hAttached : loop.srv.trace = pre ++ .attached c s n ring :: post) :
    (∃ waiting info, (waiting ++ frameBytes EpiMsgType.attached.code info).length = n ∧
      (handedOver c post).take n <+: waiting ++ frameBytes EpiMsgType.attached.code info) ∧
      (handedOver c post).drop n <+: ring ++ outputUntilDetached c s post ∧
      ∀ mid e later, post = mid ++ e :: later → e = .shutdown c ∨ e = .closed c → .eof c ∈ mid → .detached c s ∉ mid →
        (handedOver c mid).drop n = ring ++ outputUntilDetached c s post := by
  obtain ⟨waiting, info, hLength, hStream, hDrains⟩ := channels_of_run h hMemory pre c s n ring post hAttached
  obtain ⟨rest, hSent, -⟩ := hStream.sent
  have hWhole : handedOver c post <+:
      waiting ++ frameBytes EpiMsgType.attached.code info ++ (ring ++ outputUntilDetached c s post) := ⟨rest, hSent⟩
  refine ⟨⟨waiting, info, hLength, ?_⟩, ?_, ?_⟩
  · have hTaken := hWhole.take n
    rwa [List.take_left' hLength] at hTaken
  · have hDropped := hWhole.drop n
    rwa [List.drop_left' hLength] at hDropped
  · intro mid e later hSplit hLets hEof hBound
    rw [hDrains.drained mid e later hSplit hLets hEof hBound, List.drop_left' hLength]

def prints (byte : UInt8) (writes : List WriteOutcome) : PtyAnswers :=
  { hangsUp with reads := [⟨.bytes ⟨[byte], by simp [ptyReadChunk]⟩, .block fun _ => 0, true, writes⟩,
      ⟨.again, .block fun _ => 0, true, []⟩] }

/-- One byte is printed before the attach and one behind it, of which the socket takes nothing until the hangup is over. -/
def lagging : List Input :=
  accepting ++ batchOf (.conn 0 readable) (.conn (calmConn [] createRequest createRequest_bounded 100 ⟨0⟩)) ⟨0⟩ ++
    batchOf (.pty 0 readable) (.pty (prints 104 [])) ⟨0⟩ ++
    batchOf (.conn 0 readable) (.conn (calmConn [] (requestFor 3) attachRequest_bounded 0 ⟨0⟩)) ⟨0⟩ ++
    batchOf (.pty 0 readable) (.pty (prints 105 [.wrote 3])) ⟨0⟩ ++
    batchOf (.pty 0 hungUp) (.pty { hangsUp with eofWrites := [] }) ⟨0⟩ ++
    batchOf (.conn 0 writable) (.conn { calmConn [.wrote 4096] [] (Nat.zero_le _) 0 ⟨0⟩ with read := .again }) ⟨0⟩

def laggedAndClosed (loop : Loop) : Bool :=
  let post := loop.srv.trace.drop 10
  decide (loop.srv.trace = loop.srv.trace.take 9 ++ .attached 0 0 50 [104] :: post) &&
    decide (post = post.take 9 ++ [.closed 0]) && (post.take 9).contains (.eof 0) &&
    !(post.take 9).contains (.detached 0 0) && decide (outputUntilDetached 0 0 post = [105]) &&
    loop.srv.trace.all fun e => !failsAlloc e

theorem stream_behind_attached_lagging :
    ∃ loop, (machine 7).run lagging = some loop ∧ .closed 0 ∈ loop.srv.trace ∧
      (handedOver 0 ((loop.srv.trace.drop 10).take 9)).drop 50 = [104, 105] := by
  have hRun : ((machine 7).run lagging).any laggedAndClosed := by decide +kernel
  obtain ⟨loop, hLoop, hLagged⟩ := (machine 7).exists_of_run_any hRun
  simp only [laggedAndClosed, Bool.and_eq_true, decide_eq_true_eq, List.contains_iff_mem, Bool.not_eq_true',
    List.all_eq_true] at hLagged
  obtain ⟨⟨⟨⟨⟨hAttached, hClosed⟩, hEof⟩, hStays⟩, hOutput⟩, hAlloc⟩ := hLagged
  have hMemory : ∀ d, .allocFailed d ∉ loop.srv.trace := fun d hIn => by
    cases hAlloc _ hIn
  have hBound : .detached 0 0 ∉ (loop.srv.trace.drop 10).take 9 := by
    rw [← List.contains_iff_mem, hStays]
    decide
  obtain ⟨-, -, hAll⟩ := stream_behind_attached hLoop hMemory hAttached
  refine ⟨loop, hLoop, ?_, ?_⟩
  · rw [hAttached, hClosed]
    simp
  · rw [hAll _ _ [] hClosed (.inr rfl) hEof hBound, hOutput]
    rfl

end Epimone.Daemon
