import Epimone.Client.Blocking
import Epimone.Daemon.FirstReply

/-! # What a pane is shown

The daemon, the socket and the bridge end to end. The socket delivers a prefix of
what the daemon has handed it, the attach takes the ATTACHED frame off, and the
bridge writes the rest to the terminal of the pane.
-/
set_option autoImplicit false

namespace Epimone.Client

open Daemon Transition

section Attached

variable {id : Nat} {x : AttachExchange} {fd : Incoming} {info stream : Bytes}

theorem recvFrameFrom_of_attachSession (h : epimoneClientAttachSession id x = .ok fd) :
    ∃ body, recvFrameFrom x.fd = .ok ((EpiMsgType.attached.code, body), fd) := by
  unfold epimoneClientAttachSession at h
  dsimp only at h
  split at h
  · cases h
  split at h
  · cases h
  split at h
  · cases h
  split at h
  · cases h
  · rename_i type body left hRead
    split at h
    · rename_i hType
      cases h
      exact ⟨body, by rw [hRead, hType]⟩
    · cases h

/-- What is left to be read of a prefix of the stream is a prefix of what follows its first frame. -/
theorem attachSession_leaves (hInfo : 4 + info.length < 2 ^ 32)
    (hDelivered : x.fd.bytes <+: frameBytes EpiMsgType.attached.code info ++ stream)
    (h : epimoneClientAttachSession id x = .ok fd) :
    x.fd.bytes = frameBytes EpiMsgType.attached.code info ++ fd.bytes := by
  obtain ⟨body, hRead⟩ := recvFrameFrom_of_attachSession h
  obtain ⟨hFrame, hBytes⟩ := recvFrameFrom_exact hRead
  have hLength := length_frameBytes EpiMsgType.attached.code info
  have hFour : 4 ≤ x.fd.bytes.length := by
    unfold recvFrame at hFrame
    split at hFrame
    · cases hFrame
    · omega
  obtain ⟨rest, hRest⟩ := hDelivered
  have hWord : ofLittleEndian (x.fd.bytes.take 4) = 4 + info.length := by
    calc ofLittleEndian (x.fd.bytes.take 4)
        = ofLittleEndian ((x.fd.bytes ++ rest).take 4) := by rw [List.take_append_of_le_length hFour]
      _ = ofLittleEndian ((frameBytes EpiMsgType.attached.code info).take 4) := by
        rw [hRest, List.take_append_of_le_length (by omega)]
      _ = 4 + info.length := by
        rw [take_frameBytes]
        exact ofLittleEndian_littleEndian_of_lt hInfo
  have hWhole : 4 + (4 + info.length) ≤ x.fd.bytes.length := by
    unfold recvFrame at hFrame
    rw [if_neg (by omega), hWord] at hFrame
    dsimp only at hFrame
    rw [if_neg (by omega)] at hFrame
    split at hFrame
    · cases hFrame
    · omega
  rw [hWord] at hBytes
  have hFront : x.fd.bytes.take (4 + (4 + info.length)) = frameBytes EpiMsgType.attached.code info := by
    calc x.fd.bytes.take (4 + (4 + info.length))
        = (x.fd.bytes ++ rest).take (4 + (4 + info.length)) := by rw [List.take_append_of_le_length hWhole]
      _ = frameBytes EpiMsgType.attached.code info := by rw [hRest, List.take_left' (by omega)]
  rw [hFront] at hBytes
  exact hBytes

end Attached

/-- A pane is shown the ring of its session and then the output of the shell, in order and without a gap, and all
of it when the daemon has let go of the channel after a hangup, everything has arrived and been read, and nothing waits
for the terminal. The bridge reads what the attach has left on the descriptor. -/
theorem pane_shows_output {instanceId : Nat} {inputs : List Input} {loop : Loop}
    (h : (machine instanceId).run inputs = some loop) (hMemory : ∀ d, .allocFailed d ∉ loop.srv.trace)
    {pre post : List Effect} {c : ConnPtr} {s : SessPtr} {n : Nat} {ring : Bytes}
    (hAttached : loop.srv.trace = pre ++ .attached c s n ring :: post) (hOnce : pre.countP (Effect.asks c) ≤ 1)
    (hSmall : n < 2 ^ 32) {id : Nat} {x : AttachExchange} {fd : Incoming}
    (hDelivered : x.fd.bytes <+: handedOver c loop.srv.trace) (hAttach : epimoneClientAttachSession id x = .ok fd)
    {readers : Readers} {wakes : List Wake} {b : EpiBridge} (hPump : (pump readers).run wakes = some b)
    (hRead : readers.readBy .sockReadable wakes <+: fd.bytes) :
    b.toSlave.written <+: ring ++ outputUntilDetached c s post ∧
      ∀ mid e later, post = mid ++ e :: later → e = .shutdown c ∨ e = .closed c → .eof c ∈ mid → .detached c s ∉ mid →
        x.fd.bytes = handedOver c loop.srv.trace → fd.bytes = ring ++ outputUntilDetached c s post ∧
          (readers.readBy .sockReadable wakes = fd.bytes → b.toSlave.buf = [] →
            b.toSlave.written = ring ++ outputUntilDetached c s post) := by
  obtain ⟨hBefore, info, rfl, hStream, hDrains⟩ := soleChannels_of_run h hMemory pre c s n ring post hAttached hOnce
  have hInfo : 4 + info.length < 2 ^ 32 := by
    rw [length_frameBytes] at hSmall
    omega
  have hHanded : handedOver c loop.srv.trace = handedOver c post := by
    rw [hAttached, handedOver_append, hBefore]
    rfl
  obtain ⟨rest, hSent, -⟩ := hStream.sent
  have hPrefix : x.fd.bytes <+: frameBytes EpiMsgType.attached.code info ++ (ring ++ outputUntilDetached c s post) := by
    rw [hHanded] at hDelivered
    exact hDelivered.trans ⟨rest, hSent⟩
  have hLeft := attachSession_leaves hInfo hPrefix hAttach
  have hCarried : b.toSlave.written ++ b.toSlave.buf = readers.readBy .sockReadable wakes :=
    (readers.carried_of_run hPump).1
  constructor
  · have hWritten : b.toSlave.written <+: readers.readBy .sockReadable wakes := ⟨b.toSlave.buf, hCarried⟩
    rw [hLeft] at hPrefix
    exact (hWritten.trans hRead).trans ((List.prefix_append_right_inj _).mp hPrefix)
  · intro mid e later hSplit hGone hEof hBound hAll
    have hMid := hDrains.drained mid e later hSplit hGone hEof hBound
    have hLong : handedOver c mid <+: handedOver c post := by
      rw [hSplit, handedOver_append]
      exact List.prefix_append _ _
    have hWhole : handedOver c post = frameBytes EpiMsgType.attached.code info ++
        (ring ++ outputUntilDetached c s post) := by
      have hShort : handedOver c post <+:
          frameBytes EpiMsgType.attached.code info ++ (ring ++ outputUntilDetached c s post) := ⟨rest, hSent⟩
      exact hShort.eq_of_length_le (by rw [← hMid]; exact hLong.length_le)
    rw [hAll, hHanded, hWhole] at hLeft
    have hRest := (List.append_cancel_left hLeft).symm
    refine ⟨hRest, fun hEverything hNothing => ?_⟩
    rw [hNothing, List.append_nil] at hCarried
    exact hCarried.trans (hEverything.trans hRest)

theorem greeting_bounded : ([104, 105] : Bytes).length ≤ ptyReadChunk := by decide

/-- One client makes a session and another watches it; its shell prints two bytes and exits. -/
def chatting : List Input :=
  accepting ++ batchOf (.conn 0 readable) (.conn (calmConn [] createRequest createRequest_bounded 100 ⟨0⟩)) ⟨0⟩ ++
    accepting ++ batchOf (.conn 1 readable) (.conn (calmConn [] (requestFor 3) attachRequest_bounded 0 ⟨0⟩)) ⟨0⟩ ++
    batchOf (.pty 0 readable) (.pty { hangsUp with
      reads := [⟨.bytes ⟨[104, 105], greeting_bounded⟩, .block fun _ => 0, true, []⟩,
        ⟨.failed, .block fun _ => 0, true, []⟩] }) ⟨0⟩

/-- All that the daemon sends arrives, two bytes at a time. -/
def watching (loop : Loop) : AttachExchange :=
  { refusal := none
    bufAlloc := fun _ => true
    writes := [.wrote 100]
    writeError := []
    fd := ⟨handedOver 1 loop.srv.trace, List.replicate 40 (.got 1)⟩
    rdAlloc := fun _ => true }

/-- The terminal takes one of the two bytes at once, and the other when it is ready for it. -/
def shown : List Wake :=
  [⟨1, true, false, .got [104, 105], [.wrote 1, .again], 3⟩, ⟨3, false, false, .again, [.wrote 1], 4⟩]

def watchedToTheEnd (loop : Loop) : Bool :=
  let post := loop.srv.trace.drop 9
  decide (loop.srv.trace = loop.srv.trace.take 8 ++ .attached 1 0 34 [] :: post) &&
    decide ((loop.srv.trace.take 8).countP (Effect.asks 1) ≤ 1) && decide (post = post.take 7 ++ [.shutdown 1]) &&
    (post.take 7).contains (.eof 1) && !(post.take 7).contains (.detached 1 0) &&
    decide (outputUntilDetached 1 0 post = [104, 105]) && (loop.srv.trace.all fun e => !failsAlloc e) &&
    (epimoneClientAttachSession 1 (watching loop)).toOption.any fun fd => decide (fd.bytes = [104, 105])

theorem pane_shows_output_chatting :
    ∃ loop fd b, (machine 7).run chatting = some loop ∧ epimoneClientAttachSession 1 (watching loop) = .ok fd ∧
      (pump twoReaders).run shown = some b ∧ b.toSlave.written = [] ++ [104, 105] := by
  have hRun : ((machine 7).run chatting).any watchedToTheEnd := by decide +kernel
  obtain ⟨loop, hLoop, hWatched⟩ := (machine 7).exists_of_run_any hRun
  simp only [watchedToTheEnd, Bool.and_eq_true, decide_eq_true_eq, List.contains_iff_mem, Bool.not_eq_true',
    List.all_eq_true] at hWatched
  obtain ⟨⟨⟨⟨⟨⟨⟨hAttached, hOnce⟩, hShut⟩, hEof⟩, hStays⟩, hOutput⟩, hAlloc⟩, hTaken⟩ := hWatched
  have hMemory : ∀ d, .allocFailed d ∉ loop.srv.trace := fun d hIn => by
    cases hAlloc _ hIn
  have hBound : .detached 1 0 ∉ (loop.srv.trace.drop 9).take 7 := by
    rw [← List.contains_iff_mem, hStays]
    decide
  obtain ⟨fd, hAttach, hLeft⟩ : ∃ fd, epimoneClientAttachSession 1 (watching loop) = .ok fd ∧
      fd.bytes = [104, 105] := by
    cases hResult : epimoneClientAttachSession 1 (watching loop) with
    | error e =>
      rw [hResult] at hTaken
      cases hTaken
    | ok fd =>
      rw [hResult] at hTaken
      exact ⟨fd, rfl, of_decide_eq_true hTaken⟩
  have hPump : ((pump twoReaders).run shown).any fun b => b.toSlave.buf = [] := by decide +kernel
  obtain ⟨b, hb, hNothing⟩ := (pump twoReaders).exists_of_run_any hPump
  have hRead : twoReaders.readBy .sockReadable shown = fd.bytes := by
    rw [hLeft]
    decide +kernel
  obtain ⟨-, hAll⟩ := pane_shows_output hLoop hMemory hAttached hOnce (by decide) (List.prefix_refl _) hAttach hb
    (hRead ▸ List.prefix_refl _)
  rw [hOutput] at hAll
  obtain ⟨-, hShown⟩ := hAll _ _ [] hShut (.inl rfl) hEof hBound rfl
  exact ⟨loop, fd, b, hLoop, hAttach, hb, hShown hRead (of_decide_eq_true hNothing)⟩

end Epimone.Client
