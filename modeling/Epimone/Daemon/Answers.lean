import Epimone.Daemon.BlobStore
import Epimone.Daemon.Bystanders
import Epimone.Daemon.OutputStream

/-! # What is sent for a frame, and what behind it

The reply to a frame does not depend on what the connections are doing. Behind
an ATTACH a data channel is sent the output that is read for it, and nothing
else.
-/
set_option autoImplicit false

namespace Epimone.Daemon

open Transition

variable {watchers : ConnPtr → Bool} {srv srv' mid : Server} {c : ConnPtr} {s : SessPtr} {a : Act}

/-- What is queued for a client that attaches to the session. -/
def Session.welcome (k : Session) (c : ConnPtr) : Bytes :=
  frameBytes EpiMsgType.attached.code (infoBytes { k with client := some c }) ++ k.out.ring.contents

theorem Echoed.sent {ans : FrameAnswers} {waiting waiting' : Bytes}
    (h : Echoed watchers c ans waiting waiting' srv srv') (hMemory : ∀ d, .allocFailed d ∉ srv.trace)
    (hMemory' : ∀ d, .allocFailed d ∉ srv'.trace) :
    ∃ sent, (srv.conn c).unsent = waiting ++ sent ∧ (srv'.conn c).unsent = waiting' ++ sent := by
  cases h with
  | reply h b =>
    have hQueued : ∀ t : Server, (∀ d, .allocFailed d ∉ (connQueueFrame t c b ans.queueAlloc).trace) →
        ((connQueueFrame t c b ans.queueAlloc).conn c).unsent = (t.conn c).unsent ++ b.data := by
      intro t hMemory
      rw [connQueueFrame_eq] at hMemory ⊢
      have hFits : .allocFailed c ∉ frameEffects (t.conn c) c b ans.queueAlloc := fun hIn =>
        hMemory c (List.mem_append_right _ hIn)
      have hMade : b.oom = false := by
        by_contra hFails
        exact hFits (mem_frameEffects.mpr (.inl ⟨by simpa using hFails, rfl⟩))
      rw [frameEffects, if_neg (by rw [hMade]; decide)] at hFits
      dsimp only
      rw [Function.update_self, queueFrame, if_neg (by rw [hMade]; decide), connQueue_unsent_of_enqueued hFits]
    refine ⟨b.data, ?_, ?_⟩
    · rw [hQueued _ hMemory, h.left]
    · rw [hQueued _ hMemory', h.right]
  | attach h s =>
    have hBound : ∀ t : Server, (∀ d, .allocFailed d ∉ (bindClient t c ans s).trace) →
        ((bindClient t c ans s).conn c).unsent = (t.conn c).unsent ++ (t.sess s).welcome c := by
      intro t hMemory
      rw [bindClient_eq] at hMemory ⊢
      have hFits : ∀ d, .allocFailed d ∉ attachEffects t c s ans := fun d hIn =>
        hMemory d (List.mem_append_right _ hIn)
      dsimp only
      rw [Function.update_self, replayed_unsent hFits, greeted_unsent hFits, List.append_assoc, Session.welcome]
    refine ⟨_, by rw [hBound _ hMemory, h.left], ?_⟩
    rw [hBound _ hMemory', h.right, h.beyond.sess]

def Dispatch.handled (d : Dispatch) : Server := handleFrame d.srv d.c d.ans d.type d.body

/-- Two frames that say the same, on connections of the same name, with the same answers of the outside. -/
structure Dispatch.Same (d d' : Dispatch) : Prop where
  c : d.c = d'.c
  ans : d.ans = d'.ans
  type : d.type = d'.type
  body : d.body = d'.body

theorem Beyond.handledFrame {d d' : Dispatch} (h : Beyond watchers d.srv d'.srv) (hSame : d.Same d') :
    Beyond watchers d.handled d'.handled := by
  obtain ⟨srv, c, ans, type, body⟩ := d
  obtain ⟨srv', c', ans', type', body'⟩ := d'
  obtain ⟨rfl, rfl, rfl, rfl⟩ := hSame
  have hNoted := h.note (c := c) (fun k => .frame c type body k.unsent.length) fun _ => rfl
  exact hNoted.dispatchFrame ans type body

section Channels

/-- A data channel, or a connection that is closed. -/
structure Server.Streaming (srv : Server) (c : ConnPtr) : Prop where
  known : c < srv.nextConn
  isData : c ∈ srv.conns → (srv.conn c).isData = true

/-- What the connection has been sent in between is what has been read for it. -/
def Relays (c : ConnPtr) (srv srv' : Server) : Prop :=
  ∃ sent, srv'.outbound c = srv.outbound c ++ sent ∧ relayedTo c srv'.trace = relayedTo c srv.trace ++ sent

theorem Relays.refl (c : ConnPtr) (srv : Server) : Relays c srv srv :=
  ⟨[], (List.append_nil _).symm, (List.append_nil _).symm⟩

theorem Relays.trans (h : Relays c srv mid) (h' : Relays c mid srv') : Relays c srv srv' := by
  obtain ⟨sent, hOut, hRead⟩ := h
  obtain ⟨sent', hOut', hRead'⟩ := h'
  refine ⟨sent ++ sent', ?_, ?_⟩
  · rw [hOut', hOut, List.append_assoc]
  · rw [hRead', hRead, List.append_assoc]

theorem Relays.of_effects {es : List Effect} (hTrace : srv'.trace = srv.trace ++ es)
    (hSent : handedOver c es ++ (srv'.conn c).unsent = (srv.conn c).unsent ++ relayedTo c es) : Relays c srv srv' := by
  refine ⟨relayedTo c es, ?_, ?_⟩
  · rw [Server.outbound, hTrace, handedOver_append, List.append_assoc, hSent, ← List.append_assoc]
    rfl
  · rw [hTrace]
    exact List.flatMap_append

/-- The frame has bound its connection to a session. -/
def Dispatch.attaches (d : Dispatch) : Bool := (d.handled.conn d.c).session.isSome

end Channels

end Epimone.Daemon
