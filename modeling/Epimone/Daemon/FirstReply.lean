import Epimone.Daemon.OutputStream

/-! # The channel of a client that only attaches

A connection is handed nothing until it has asked for something. One that sends
ATTACH and no other frame is handed the ATTACHED frame first, and then the stream
of its session.
-/
set_option autoImplicit false

namespace Epimone.Daemon

open Transition History

/-- The connection has sent a frame. -/
def Asked (c : ConnPtr) (history : List Effect) : Prop := ∃ e ∈ history, e.asks c = true

theorem Asked.append {c : ConnPtr} {history : List Effect} (h : Asked c history) (es : List Effect) :
    Asked c (history ++ es) := by
  obtain ⟨e, he, hAsks⟩ := h
  exact ⟨e, List.mem_append_left _ he, hAsks⟩

variable {srv : Server} {a : Act} {c : ConnPtr} {s : SessPtr}

theorem Server.Awaiting.asked (h : srv.Awaiting c) : Asked c srv.trace := by
  obtain ⟨before, e, after, hSplit, hAsks, -⟩ := h
  exact ⟨e, by rw [hSplit]; simp, hAsks⟩

/-- Who has a session or is sent anything has asked, and for the others nothing waits. -/
structure Server.Prompted (srv : Server) : Prop where
  bound : ∀ c s, (srv.conn c).session = some s → Asked c srv.trace
  queued : Lawful (fun before e => ∀ c q, e = .enqueued c q → Asked c before) srv.trace
  silent : ∀ c, (∀ q, .enqueued c q ∉ srv.trace) → srv.outbound c = []

/-- A session is bound by an attach only. -/
theorem session_of_perform (hGuard : a.guard srv)
    (h : ((a.perform srv).conn c).session = some s) :
    (srv.conn c).session = some s ∨ ∃ ans, a = .attach c s ans := by
  have hLinked : ((a.perform srv).conn c).session = (a.relink srv.links).bound c :=
    congrFun (congrArg Links.bound (links_perform hGuard)) c
  rw [hLinked] at h
  cases a with
  | attach d t ans =>
    simp only [Act.relink, Links.bind, Function.update_apply] at h
    split at h
    · rename_i hSame
      cases h
      exact .inr ⟨ans, by rw [hSame]⟩
    · exact .inl h
  | unbind t d =>
    simp only [Act.relink, Links.unbind, Function.update_apply] at h
    split at h
    · cases h
    · exact .inl h
  | openConn =>
    simp only [Act.relink, Links.openConn, Function.update_apply] at h
    split at h
    · cases h
    · exact .inl h
  | close d =>
    simp only [Act.relink, Links.close, Function.update_apply] at h
    split at h
    · cases h
    · exact .inl h
  | _ => exact .inl h

theorem asked_of_enqueued (hLinks : srv.links.Consistent) (h : srv.Prompted) (hGuard : a.guard srv) {q : Enqueue}
    (hIn : .enqueued c q ∈ a.effects srv) : Asked c srv.trace := by
  rcases enqueued_mem_effects hIn with ⟨data, alloc, rfl⟩ | ⟨s, ans, rfl⟩ | ⟨s, chunk, ringAlloc, alloc, rfl⟩
  · exact hGuard.2.2.asked
  · exact hGuard.2.2.2.2.2.asked
  · exact h.bound c s ((hLinks.paired c s).mpr hGuard.2.1)

theorem enqueued_attachEffects {ans : FrameAnswers} (hMemory : ∀ d, .allocFailed d ∉ attachEffects srv c s ans) :
    ∃ q, .enqueued c q ∈ attachEffects srv c s ans := by
  have hFrame : ∀ d, .allocFailed d ∉ frameEffects { srv.conn c with isData := true, session := some s } c
      (greeting srv c s ans) ans.queueAlloc := fun d hIn => hMemory d (List.mem_append_left _ hIn)
  have hOom : (greeting srv c s ans).oom = false := by
    cases hFails : (greeting srv c s ans).oom with
    | false => rfl
    | true => exact absurd (mem_frameEffects.mpr (.inl ⟨hFails, rfl⟩)) (hFrame c)
  have hData : (greeting srv c s ans).data ≠ [] := by
    rw [(opened_greeting srv c s ans).data_eq hOom]
    exact List.ne_nil_of_length_pos (by rw [length_frameBytes]; omega)
  exact ⟨_, List.mem_append_left _ (mem_frameEffects.mpr (.inr ⟨hOom, mem_enqueueEffects.mpr ⟨hData, .inl rfl⟩⟩))⟩

theorem unsent_of_quiet (hGuard : a.guard srv) (hUnsent : (srv.conn c).unsent = [])
    (hMemory : ∀ d, .allocFailed d ∉ a.effects srv) (hQuiet : ∀ q, .enqueued c q ∉ a.effects srv) :
    ((a.perform srv).conn c).unsent = [] := by
  rw [conn_perform]
  cases hAfter : a.connAfter srv with
  | none => exact hUnsent
  | some cell =>
    obtain ⟨d, k⟩ := cell
    rcases eq_or_ne c d with rfl | hOther
    · have hSelf : written srv.conn (some (c, k)) c = k := Function.update_self ..
      rw [hSelf]
      cases a with
      | queue d data alloc =>
        cases hAfter
        have hData : data = [] := by
          by_contra hData
          exact hQuiet _ (mem_enqueueEffects.mpr ⟨hData, .inl rfl⟩)
        rw [hData, connQueue_nil]
        exact hUnsent
      | attach d t ans =>
        cases hAfter
        obtain ⟨q, hIn⟩ := enqueued_attachEffects hMemory
        exact absurd hIn (hQuiet q)
      | relay t d chunk ringAlloc alloc =>
        cases hAfter
        exact absurd (List.mem_cons_of_mem _ (mem_enqueueEffects.mpr ⟨hGuard.2.2, .inl rfl⟩)) (hQuiet _)
      | write d n =>
        cases hAfter
        exact absurd hUnsent (Connection.unsent_ne_nil_iff.mpr hGuard.2.1)
      | reset d =>
        cases hAfter
        rw [unsent_reset]
        exact hUnsent
      | openConn | close =>
        cases hAfter
        rfl
      | unbind | update | condemn | failWrite | eof | watchConn =>
        cases hAfter
        exact hUnsent
      | _ => cases hAfter
    · have hKept : written srv.conn (some (d, k)) c = srv.conn c := Function.update_of_ne hOther _ _
      rw [hKept]
      exact hUnsent

theorem prompted_perform (hLinks : srv.links.Consistent) (hGuard : a.guard srv)
    (hMemory : ∀ d, .allocFailed d ∉ a.effects srv) (h : srv.Prompted) : (a.perform srv).Prompted := by
  have hTrace : (a.perform srv).trace = srv.trace ++ a.effects srv := trace_perform ..
  constructor
  case bound =>
    intro c s hBound
    rw [hTrace]
    rcases session_of_perform hGuard hBound with hOld | ⟨ans, rfl⟩
    · exact (h.bound c s hOld).append _
    · exact hGuard.2.2.2.2.2.asked.append _
  case queued =>
    refine lawful_perform.mpr ⟨h.queued, lawful_of_mem ?_⟩
    rintro e he history c q rfl
    exact (asked_of_enqueued hLinks h hGuard he).append history
  case silent =>
    intro c hNone
    rw [hTrace] at hNone
    have hOutbound := h.silent c fun q hIn => hNone q (List.mem_append_left _ hIn)
    obtain ⟨hHanded, hUnsent⟩ := List.append_eq_nil_iff.mp hOutbound
    have hNow : handedOver c (a.effects srv) = [] := by
      apply handedOver_effects
      rintro n rfl
      exact Connection.unsent_ne_nil_iff.mpr hGuard.2.1 hUnsent
    rw [Server.outbound, hTrace, handedOver_append, hHanded, hNow,
      unsent_of_quiet hGuard hUnsent hMemory fun q hIn => hNone q (List.mem_append_right _ hIn)]
    rfl

/-- A connection that has asked once, and not been answered yet, has been handed nothing. -/
theorem Server.Prompted.unanswered (h : srv.Prompted) (hAwaiting : srv.Awaiting c)
    (hOnce : srv.trace.countP (Effect.asks c) ≤ 1) : srv.outbound c = [] := by
  obtain ⟨before, e, after, hSplit, hAsks, hAfter⟩ := hAwaiting
  have hBefore : ¬ Asked c before := by
    rintro ⟨first, hFirst, hFirstAsks⟩
    have hCount : 0 < before.countP (Effect.asks c) := List.countP_pos_iff.mpr ⟨first, hFirst, hFirstAsks⟩
    rw [hSplit, List.countP_append, List.countP_cons_of_pos hAsks] at hOnce
    omega
  refine h.silent c fun q hIn => ?_
  rw [hSplit] at hIn
  rcases List.mem_append.mp hIn with hIn | hIn
  · obtain ⟨first, rest, rfl⟩ := List.append_of_mem hIn
    obtain ⟨e', he', hAsked⟩ := h.queued first _ (rest ++ e :: after) (by rw [hSplit]; simp) c q rfl
    exact hBefore ⟨e', List.mem_append_left _ he', hAsked⟩
  · rcases List.mem_cons.mp hIn with rfl | hIn
    · cases hAsks
    · exact hAfter q hIn

/-- The channels of the connections that have only attached. -/
def Server.SoleChannels (srv : Server) : Prop :=
  ∀ pre c s n ring post, srv.trace = pre ++ .attached c s n ring :: post → pre.countP (Effect.asks c) ≤ 1 →
    handedOver c pre = [] ∧ ∃ info, n = (frameBytes EpiMsgType.attached.code info).length ∧
      Streaming srv c s (frameBytes EpiMsgType.attached.code info) ring post ∧
        Drains srv c s (frameBytes EpiMsgType.attached.code info) ring post

theorem soleChannels_perform (hLinks : srv.links.Consistent) (hPrompted : srv.Prompted) (hGuard : a.guard srv)
    (hMemory : ∀ d, .allocFailed d ∉ a.effects srv) (h : srv.SoleChannels) : (a.perform srv).SoleChannels := by
  intro pre c s n ring post hSplit hOnce
  rw [trace_perform] at hSplit
  rcases split_append hSplit with ⟨tail, hPast, rfl⟩ | ⟨head, rfl, hEffects⟩
  · obtain ⟨hHanded, info, hLength, hStream, hDrains⟩ := h pre c s n ring tail hPast hOnce
    exact ⟨hHanded, info, hLength, hStream.step hLinks hGuard hMemory, hDrains.step hStream hLinks hGuard⟩
  · have hIn : .attached c s n ring ∈ a.effects srv := by
      rw [hEffects]
      exact List.mem_append_right _ List.mem_cons_self
    obtain ⟨ans, rfl⟩ := attached_mem_effects hIn
    have hHead : handedOver c head = [] := by
      have hAll : handedOver c (head ++ .attached c s n ring :: post) = [] := by
        rw [← hEffects]
        exact handedOver_effects (by simp)
      rw [handedOver_append] at hAll
      exact (List.append_eq_nil_iff.mp hAll).1
    obtain ⟨rfl, rfl, rfl⟩ := attached_split hEffects
    rw [List.countP_append] at hOnce
    have hOutbound := hPrompted.unanswered hGuard.2.2.2.2.2 (by omega)
    obtain ⟨hHanded, hUnsent⟩ := List.append_eq_nil_iff.mp hOutbound
    have hStream := streaming_attach hLinks hGuard hMemory
    have hGreeted := greeted_unsent hMemory
    rw [hUnsent, List.nil_append] at hStream hGreeted
    refine ⟨?_, infoBytes { srv.sess s with client := some c }, congrArg List.length hGreeted, hStream, drains_attach⟩
    rw [handedOver_append, hHanded, hHead]
    rfl

theorem soleChannels_of_run {instanceId : Nat} {inputs : List Input} {loop : Loop}
    (h : (machine instanceId).run inputs = some loop) (hMemory : ∀ d, .allocFailed d ∉ loop.srv.trace) :
    loop.srv.SoleChannels := by
  refine (run_perform (P := fun srv => (∀ d, .allocFailed d ∉ srv.trace) → srv.Prompted ∧ srv.SoleChannels)
    ?_ ?_ h hMemory).2
  · intro _
    refine ⟨⟨fun c s hBound => ?_, lawful_nil, fun c _ => rfl⟩, fun pre c s n ring post hSplit => ?_⟩
    · cases hBound
    · simp [Server.initial] at hSplit
  · intro srv a hLinks hBefore hGuard hMemory
    have hTrace : (a.perform srv).trace = srv.trace ++ a.effects srv := trace_perform ..
    rw [hTrace] at hMemory
    obtain ⟨hPrompted, hSole⟩ := hBefore fun d hIn => hMemory d (List.mem_append_left _ hIn)
    have hNow : ∀ d, .allocFailed d ∉ a.effects srv := fun d hIn => hMemory d (List.mem_append_right _ hIn)
    exact ⟨prompted_perform hLinks hGuard hNow hPrompted, soleChannels_perform hLinks hPrompted hGuard hNow hSole⟩

end Epimone.Daemon
