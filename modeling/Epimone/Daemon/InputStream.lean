import Epimone.Daemon.PtyInput
import Epimone.Library.Conservation

/-! # The stream from the clients to a PTY

A read of a data channel goes to the queue of the session it is bound to. A
read of a control connection goes there only from behind a successful ATTACH:
the frames in front of it are counted out of the trace. What a step types into
a session and what the PTY takes balance over a whole run.
-/
set_option autoImplicit false

namespace Epimone.Daemon

open Transition History

section Queue

variable {srv srv' : Server} {s : SessPtr} {c : ConnPtr} {outcomes : List WriteOutcome} {typed : Bytes}

/-- A stretch in which only the queue of one session moves. -/
structure Poured (s : SessPtr) (outcomes : List WriteOutcome) (typed : Bytes) (srv srv' : Server) :
    Prop where
  queue : ∃ taken lost, Balanced s srv srv' typed taken lost ∧
    (lost ≠ [] → (srv.sess s).ptyOpen = false ∨ endsHard outcomes = true)
  others : ∀ t, t ≠ s → Undisturbed t srv srv' ∧ srv'.sess t = srv.sess t
  next : srv'.nextSess = srv.nextSess

theorem poured_epiSessionFlushInput (srv : Server) (s : SessPtr) (outcomes : List WriteOutcome) :
    Poured s outcomes [] srv (epiSessionFlushInput srv s outcomes) := by
  unfold epiSessionFlushInput
  split
  · rename_i hShut
    refine ⟨⟨[], (srv.sess s).pin, ⟨⟨[], (List.append_nil _).symm, rfl, rfl⟩, ?_⟩, fun _ => Or.inl ?_⟩, ?_, rfl⟩
    · simp [Server.modSess]
    · simpa using hShut
    · intro t hNe
      have hSame : (srv.modSess s fun k => { k with pin := [] }).sess t = srv.sess t :=
        Function.update_of_ne hNe _ _
      exact ⟨⟨⟨[], (List.append_nil _).symm, rfl, rfl⟩, by rw [hSame]; simp⟩, hSame⟩
  · obtain ⟨lost, hSplit, hHard⟩ := flushPin_spec (srv.sess s).pin outcomes
    dsimp only
    refine ⟨⟨(flushPin (srv.sess s).pin outcomes).1, lost, ⟨⟨[.ptyWrote s _], rfl, rfl, ?_⟩, ?_⟩,
      fun hLost => Or.inr (hHard hLost)⟩, ?_, rfl⟩
    · simp [takenBy, Effect.taken]
    · simp only [Server.modSess, Server.emit, Function.update_self]
      rw [List.append_nil]
      exact hSplit
    · intro t hNe
      have hSame : ((srv.emit (.ptyWrote s (flushPin (srv.sess s).pin outcomes).1)).modSess s fun k =>
          { k with pin := (flushPin (srv.sess s).pin outcomes).2 }).sess t = srv.sess t :=
        Function.update_of_ne hNe _ _
      refine ⟨⟨⟨[.ptyWrote s _], rfl, rfl, ?_⟩, by rw [hSame]; simp⟩, hSame⟩
      simp [takenBy, Effect.taken, Ne.symm hNe]

theorem poured_store {data : Bytes} {cap : Nat} (outcomes : List WriteOutcome) :
    Poured s outcomes data srv (epiSessionFlushInput ((srv.emit (.input s c data)).modSess s fun k =>
      { k with pin := k.pin ++ data, pinCap := cap }) s outcomes) := by
  generalize hStored : ((srv.emit (.input s c data)).modSess s fun k =>
    { k with pin := k.pin ++ data, pinCap := cap }) = stored
  have hTrace : stored.trace = srv.trace ++ [.input s c data] := by rw [← hStored]; rfl
  have hPin : (stored.sess s).pin = (srv.sess s).pin ++ data ∧
      (stored.sess s).ptyOpen = (srv.sess s).ptyOpen := by
    rw [← hStored]
    simp [Server.modSess, Server.emit]
  have hOthers : ∀ t, t ≠ s → stored.sess t = srv.sess t := by
    rw [← hStored]
    exact fun t hNe => Function.update_of_ne hNe _ _
  have hNext : stored.nextSess = srv.nextSess := by rw [← hStored]; rfl
  obtain ⟨⟨taken, lost, hBalance, hLost⟩, hRest, hKept⟩ := poured_epiSessionFlushInput stored s outcomes
  have hJoin : Balanced s srv stored data [] [] :=
    ⟨⟨[.input s c data], hTrace, by simp [typedTo, Effect.typed], rfl⟩, by rw [hPin.1]; rfl⟩
  refine ⟨⟨taken, lost, ?_, ?_⟩, ?_, hKept.trans hNext⟩
  · simpa using hJoin.trans hBalance
  · rw [← hPin.2]
    exact hLost
  · intro t hNe
    obtain ⟨hSame, hCell⟩ := hRest t hNe
    have hApart : Undisturbed t srv stored :=
      ⟨⟨[.input s c data], hTrace, by simp [typedTo, Effect.typed, Ne.symm hNe], rfl⟩,
        by rw [hOthers t hNe]; simp⟩
    exact ⟨hApart.trans hSame, hCell.trans (hOthers t hNe)⟩

theorem Poured.update (h : Poured s outcomes typed srv srv') : Poured s outcomes typed srv (ptyUpdate srv' s) := by
  obtain ⟨⟨taken, lost, hBalance, hLost⟩, hOthers, hNext⟩ := h
  unfold ptyUpdate
  split
  · exact ⟨⟨taken, lost, hBalance, hLost⟩, hOthers, hNext⟩
  · generalize hUpdated : (srv'.modSess s fun k =>
      { k with ptyEvents := some ⟨true, !k.pin.isEmpty, false, false, false⟩ }) = updated
    have hTrace : updated.trace = srv'.trace ++ [] := by rw [← hUpdated]; exact (List.append_nil _).symm
    have hPin : (updated.sess s).pin = (srv'.sess s).pin := by rw [← hUpdated]; simp [Server.modSess]
    have hSame : ∀ t, t ≠ s → updated.sess t = srv'.sess t := by
      rw [← hUpdated]
      exact fun t hNe => Function.update_of_ne hNe _ _
    refine ⟨⟨taken, lost, hBalance.then (.of_dry hTrace (by simp) hPin), hLost⟩, fun t hNe => ?_, ?_⟩
    · obtain ⟨hStill, hCell⟩ := hOthers t hNe
      exact ⟨hStill.then (.of_dry hTrace (by simp) (by rw [hSame t hNe])), (hSame t hNe).trans hCell⟩
    · rw [← hUpdated]
      exact hNext

theorem poured_dataToPty {data : Bytes} {ans : ConnAnswers} (hBound : (srv.conn c).session = some s)
    (hData : data ≠ []) (hAlloc : ans.pinAlloc = true) :
    ∃ mid, dataToPty srv c data ans = ptyUpdate mid s ∧ Poured s ans.ptyWrites data srv mid := by
  unfold dataToPty
  rw [hBound]
  refine ⟨_, rfl, ?_⟩
  unfold epiSessionQueueInput
  dsimp only
  rw [if_neg hData, hAlloc]
  split
  · exact poured_store _
  · exact poured_store _

theorem Poured.wired (h : Poured s outcomes typed srv srv') (hLt : s < srv.nextSess) (hWired : srv.Wired) :
    (ptyUpdate srv' s).Wired := by
  have hSame : ∀ t, t ≠ s → (ptyUpdate srv' s).sess t = srv.sess t := fun t hNe => (h.update.others t hNe).2
  constructor
  · intro t hOpen
    rcases eq_or_ne t s with rfl | hNe
    · revert hOpen
      unfold ptyUpdate
      split
      · rename_i hShut
        intro hOpen
        simp [hOpen] at hShut
      · intro _
        simp [Server.modSess]
    · rw [hSame t hNe] at hOpen ⊢
      exact hWired.watched t hOpen
  · intro t ht
    rw [h.update.next] at ht
    rw [hSame t (Nat.ne_of_gt (Nat.lt_of_lt_of_le hLt ht))]
    exact hWired.fresh t ht

end Queue

section Turns

def Effect.attaches (c : ConnPtr) (s : SessPtr) : Effect → Bool
  | .attached d t _ _ => d == c && t == s
  | _ => false

/-- How many bytes of the connection the frame took, its header included. -/
def Effect.frameLength (c : ConnPtr) : Effect → Nat
  | .frame d _ body _ => if d = c then 8 + body.length else 0
  | _ => 0

def attachedTo (c : ConnPtr) (s : SessPtr) (history : List Effect) : Bool := history.any (Effect.attaches c s)

def framesLength (c : ConnPtr) (history : List Effect) : Nat := (history.map (Effect.frameLength c)).sum

variable {c : ConnPtr}

theorem attachedTo_append (s : SessPtr) (es es' : List Effect) :
    attachedTo c s (es ++ es') = (attachedTo c s es || attachedTo c s es') := List.any_append

theorem framesLength_append (es es' : List Effect) :
    framesLength c (es ++ es') = framesLength c es + framesLength c es' := by
  rw [framesLength, List.map_append, List.sum_append]
  rfl

/-- Neither a frame of the connection nor its attach. -/
def Effect.aside (c : ConnPtr) : Effect → Bool
  | .frame d _ _ _ | .attached d _ _ _ => d != c
  | _ => true

theorem aside_turns {es : List Effect} (h : ∀ e ∈ es, e.aside c = true) :
    framesLength c es = 0 ∧ ∀ s, attachedTo c s es = false := by
  constructor
  · induction es with
    | nil => rfl
    | cons e es ih =>
      have hHead : e.frameLength c = 0 := by
        have hAside := h e List.mem_cons_self
        cases e <;> first | rfl | exact if_neg (bne_iff_ne.mp hAside)
      have hRest := ih fun e' he => h e' (List.mem_cons_of_mem e he)
      change e.frameLength c + framesLength c es = 0
      rw [hHead, hRest]
  · intro s
    refine List.any_eq_false.mpr fun e he => ?_
    have hAside := h e he
    cases e <;> simp_all [Effect.aside, Effect.attaches]

variable {srv srv' : Server}

theorem aside_effects {a : Act} (hFrame : ∀ type body, a ≠ .frame c type body)
    (hAttach : ∀ s ans, a ≠ .attach c s ans) : ∀ e ∈ a.effects srv, e.aside c = true := by
  intro e he
  cases e with
  | frame d type body unsent =>
    cases a <;> simp [Act.effects, attachEffects] at he
    obtain ⟨rfl, rfl, rfl, rfl⟩ := he
    exact bne_iff_ne.mpr fun hSame => hFrame type body (by rw [hSame])
  | attached d s unsent ring =>
    cases a <;> simp [Act.effects, attachEffects] at he
    obtain ⟨rfl, rfl, rfl, rfl⟩ := he
    exact bne_iff_ne.mpr fun hSame => hAttach _ _ (by rw [hSame])
  | _ => rfl

theorem aside_path {allowed : Act → Prop} (hSpares : ∀ a, allowed a → (∀ type body, a ≠ .frame c type body) ∧
    ∀ s ans, a ≠ .attach c s ans) (h : actions.Path allowed srv srv') :
    ∃ es, srv'.trace = srv.trace ++ es ∧ ∀ e ∈ es, e.aside c = true :=
  trace_path (fun _ a _ ha => aside_effects (hSpares a ha).1 (hSpares a ha).2) h

theorem aside_backstage (h : Backstage srv srv') :
    ∃ es, srv'.trace = srv.trace ++ es ∧ ∀ e ∈ es, e.aside c = true := by
  refine aside_path (fun a ha => ⟨?_, ?_⟩) h
  · rintro type body rfl
    cases ha
  · rintro s ans rfl
    cases ha

theorem aside_frameEffects (k : Connection) (b : EpiBuf) (alloc : Bool) :
    ∀ e ∈ frameEffects k c b alloc, e.aside c = true := by
  intro e he
  simp only [mem_frameEffects, mem_enqueueEffects] at he
  rcases he with ⟨_, rfl⟩ | ⟨_, _, rfl | ⟨_, rfl⟩⟩ <;> rfl

theorem aside_replayEffects (k : Connection) (out : OutRing) (ans : FrameAnswers) :
    ∀ e ∈ replayEffects k c out ans, e.aside c = true := by
  intro e he
  simp only [mem_replayEffects, mem_enqueueEffects] at he
  rcases he with ⟨_, _, _, rfl | ⟨_, rfl⟩⟩ | ⟨_, _, rfl⟩ <;> rfl

theorem dispatchFrame_attaches (hLinks : srv.links.Consistent) (hData : (srv.conn c).isData = false)
    (ans : FrameAnswers) (type : Nat) (body : Bytes) :
    ∃ es, (dispatchFrame srv c ans type body).trace = srv.trace ++ es ∧ framesLength c es = 0 ∧
      (((dispatchFrame srv c ans type body).conn c).isData = false ∧ (∀ s, attachedTo c s es = false) ∨
        ((dispatchFrame srv c ans type body).conn c).isData = true ∧
          ∃ s, ((dispatchFrame srv c ans type body).conn c).session = some s ∧
            ∀ t, attachedTo c t es = decide (t = s)) := by
  have hAnswered := @answered_dispatchFrame srv c hLinks ans type body
  generalize dispatchFrame srv c ans type body = handled at hAnswered
  cases hAnswered with
  | reply before b =>
    rename_i mid
    obtain ⟨es, hTrace, hAside⟩ := aside_backstage (c := c) before
    have hAll : ∀ e ∈ es ++ frameEffects (mid.conn c) c b ans.queueAlloc, e.aside c = true := by
      intro e he
      exact (List.mem_append.mp he).elim (hAside e) (aside_frameEffects _ _ _ e)
    refine ⟨es ++ frameEffects (mid.conn c) c b ans.queueAlloc, ?_, (aside_turns hAll).1,
      Or.inl ⟨?_, (aside_turns hAll).2⟩⟩
    · rw [connQueueFrame_eq, ← List.append_assoc, ← hTrace]
    · rw [connQueueFrame_eq]
      simp [before.control.2, hData]
  | attach before s hs hRemoved hClient =>
    rename_i mid
    obtain ⟨es, hTrace, hAside⟩ := aside_backstage (c := c) before
    obtain ⟨hNone, hApart⟩ := aside_turns hAside
    obtain ⟨hReply, hReplied⟩ := aside_turns (aside_frameEffects (c := c)
      { mid.conn c with isData := true, session := some s } (greeting mid c s ans) ans.queueAlloc)
    obtain ⟨hReplay, hReplayed⟩ := aside_turns (aside_replayEffects (c := c) (greeted mid c s ans)
      (mid.sess s).out ans)
    refine ⟨es ++ attachEffects mid c s ans, ?_, ?_, Or.inr ⟨?_, s, ?_, fun t => ?_⟩⟩
    · rw [bindClient_eq, ← List.append_assoc, ← hTrace]
    · rw [framesLength_append, hNone, attachEffects, framesLength_append, hReply]
      change 0 + (0 + (0 + framesLength c (replayEffects _ c _ ans))) = 0
      rw [hReplay]
    · rw [bindClient_eq]
      simp [greeted]
    · rw [bindClient_eq]
      simp [greeted]
    · rw [attachedTo_append, hApart, attachEffects, attachedTo_append, hReplied]
      change (_ || (_ || (Effect.attaches c t (.attached c s _ _) || attachedTo c t _))) = _
      rw [hReplayed]
      simp [Effect.attaches, beq_eq_decide, eq_comm (a := t)]

theorem handleFrame_attaches (hLinks : srv.links.Consistent) (hData : (srv.conn c).isData = false)
    (ans : FrameAnswers) (type : Nat) (body : Bytes) :
    ∃ es, (handleFrame srv c ans type body).trace = srv.trace ++ es ∧ framesLength c es = 8 + body.length ∧
      (((handleFrame srv c ans type body).conn c).isData = false ∧ (∀ s, attachedTo c s es = false) ∨
        ((handleFrame srv c ans type body).conn c).isData = true ∧
          ∃ s, ((handleFrame srv c ans type body).conn c).session = some s ∧
            ∀ t, attachedTo c t es = decide (t = s)) := by
  obtain ⟨es, hTrace, hNone, hAttach⟩ :=
    @dispatchFrame_attaches c (srv.emit (.frame c type body (srv.conn c).unsent.length)) hLinks hData ans type body
  refine ⟨.frame c type body (srv.conn c).unsent.length :: es, ?_, ?_, hAttach⟩
  · exact hTrace.trans (by simp [Server.emit])
  · change Effect.frameLength c _ + framesLength c es = _
    rw [hNone]
    exact if_pos rfl

theorem readFrame_size {p : Bytes} {type n : Nat} {body : Bytes} (h : readFrame p = .item (type, body) n) :
    n = 8 + body.length := by
  obtain ⟨_, hSize, hLeast, _, hFits, hFrame⟩ := readFrame_item h
  cases hFrame
  rw [List.length_take, List.length_drop]
  omega

end Turns

section Read

variable {srv srv' : Server} {c : ConnPtr} {ans : ConnAnswers}

theorem rejectFrame_steady (code : EpiErrCode) (msg : String) :
    Steady srv (rejectFrame srv c code msg ans) ∧
      ∃ es, (rejectFrame srv c code msg ans).trace = srv.trace ++ es ∧ ∀ e ∈ es, e.aside c = true := by
  have hQuiet : ∀ k b, ∀ e ∈ (Effect.framingError c (srv.conn c).unsent.length (srv.conn c).polled ::
      frameEffects k c b ans.queueAlloc), e.aside c = true ∧ e.dry = true := by
    intro k b e he
    rcases List.mem_cons.mp he with rfl | hReply
    · exact ⟨rfl, rfl⟩
    · simp only [mem_frameEffects, mem_enqueueEffects] at hReply
      rcases hReply with ⟨_, rfl⟩ | ⟨_, _, rfl | ⟨_, rfl⟩⟩ <;> exact ⟨rfl, rfl⟩
  have hSame : ∃ k b, (rejectFrame srv c code msg ans).trace = srv.trace ++
      (.framingError c (srv.conn c).unsent.length (srv.conn c).polled :: frameEffects k c b ans.queueAlloc) ∧
        (rejectFrame srv c code msg ans).sess = srv.sess ∧
          (rejectFrame srv c code msg ans).nextSess = srv.nextSess := by
    unfold rejectFrame sendError
    dsimp only
    rw [connQueueFrame_eq]
    exact ⟨_, _, List.append_assoc _ _ _, rfl, rfl⟩
  obtain ⟨k, b, hTrace, hSess, hNext⟩ := hSame
  exact ⟨steady_of_tended (.of_sess hSess) (Nat.le_of_eq hNext.symm) hTrace fun e he => (hQuiet k b e he).2,
    _, hTrace, fun e he => (hQuiet k b e he).1⟩

/-- The connection has become the data channel of the session, and the buffer is as it was. -/
structure Switches (c : ConnPtr) (s : SessPtr) (srv mid : Server) : Prop where
  steady : Steady srv mid
  shut : ShutBefore srv mid
  consistent : mid.links.Consistent
  listed : c ∈ mid.conns
  bound : (mid.conn c).session = some s
  inbuf : mid.inbuf = srv.inbuf

theorem aside_fed (h : Fed c srv srv') : ∃ es, srv'.trace = srv.trace ++ es ∧ ∀ e ∈ es, e.aside c = true := by
  refine aside_path (fun a ha => ⟨?_, ?_⟩) h
  · rintro type body rfl
    cases ha
  · rintro s ans rfl
    cases ha

/-- The parse loop either leaves the input alone, or ends with the bytes behind an ATTACH. -/
theorem FrameRun.turns {turn used : Nat} {left : Option Nat} (hRun : FrameRun c ans turn srv used srv' left)
    (hLinks : srv.links.Consistent) (hc : c ∈ srv.conns) (hData : (srv.conn c).isData = false) :
    ∃ es, srv'.trace = srv.trace ++ es ∧
      (Steady srv srv' ∧ (∀ s, attachedTo c s es = false) ∨
        ∃ mid s, Switches c s srv mid ∧ srv' = switchConn mid c ans (used + framesLength c es) ∧
          ∀ t, attachedTo c t es = decide (t = s)) := by
  induction hRun with
  | more => exact ⟨[], (List.append_nil _).symm, Or.inl ⟨.refl _, fun _ => rfl⟩⟩
  | refused =>
    rename_i turn srv used code msg _
    obtain ⟨hSteady, es, hTrace, hAside⟩ := @rejectFrame_steady srv c ans code msg
    exact ⟨es, hTrace, Or.inl ⟨hSteady, (aside_turns hAside).2⟩⟩
  | switched hRead hSwitched =>
    rename_i turn srv used type n body
    obtain ⟨es, hTrace, hLength, hAttach⟩ := handleFrame_attaches hLinks hData (ans.frames turn) type body
    have hPath := path_handleFrame hLinks hc hData (ans.frames turn) type body
    have hListed : c ∈ (handleFrame srv c (ans.frames turn) type body).conns := by
      rw [Inbound.conns (hPath.mono fun _ => inbound_of_handles)]
      exact hc
    obtain ⟨fed, hFed, hSwitch⟩ := switchConn_fed hListed ans (used + n)
    obtain ⟨es', hTrace', hAside⟩ := aside_fed hFed
    have hRest : framesLength c (es ++ es') = n := by
      rw [framesLength_append, (aside_turns hAside).1, hLength, readFrame_size hRead, Nat.add_zero]
    rcases hAttach with ⟨hControl, _⟩ | ⟨_, s, hBound, hTo⟩
    · rw [hControl] at hSwitched
      cases hSwitched
    refine ⟨es ++ es', ?_, Or.inr ⟨_, s, ⟨steady_handleFrame hLinks hc hData _ _ _,
      shutBefore_handleFrame hLinks _ _ _, Actions.consistent hPath hLinks, hListed, hBound,
      inbuf_handleFrame hLinks hc hData _ _ _⟩, by rw [hRest], fun t => ?_⟩⟩
    · rw [hSwitch]
      change fed.trace = _
      rw [hTrace', hTrace, List.append_assoc]
    · rw [attachedTo_append, (aside_turns hAside).2, hTo, Bool.or_false]
  | condemned hRead hControl hClose =>
    rename_i turn srv used type n body
    obtain ⟨es, hTrace, _, hAttach⟩ := handleFrame_attaches hLinks hData (ans.frames turn) type body
    refine ⟨es, hTrace, Or.inl ⟨steady_handleFrame hLinks hc hData _ _ _, ?_⟩⟩
    rcases hAttach with ⟨_, hNone⟩ | ⟨hSwitched, _⟩
    · exact hNone
    · rw [hControl] at hSwitched
      cases hSwitched
  | next hRead hControl hOpen rest ih =>
    rename_i turn srv srv' used type n body left
    obtain ⟨es, hTrace, hLength, hAttach⟩ := handleFrame_attaches hLinks hData (ans.frames turn) type body
    have hPath := path_handleFrame hLinks hc hData (ans.frames turn) type body
    have hConns := Inbound.conns (hPath.mono fun _ => inbound_of_handles)
    have hInbuf := inbuf_handleFrame hLinks hc hData (ans.frames turn) type body
    have hSteady := steady_handleFrame hLinks hc hData (ans.frames turn) type body
    have hShut := shutBefore_handleFrame (c := c) hLinks (ans.frames turn) type body
    have hNone : ∀ s, attachedTo c s es = false := by
      rcases hAttach with ⟨_, hNone⟩ | ⟨hSwitched, _⟩
      · exact hNone
      · rw [hControl] at hSwitched
        cases hSwitched
    obtain ⟨es', hTrace', hEnd⟩ := ih (Actions.consistent hPath hLinks) (by rw [hConns]; exact hc) hControl
    refine ⟨es ++ es', by rw [hTrace', hTrace, List.append_assoc], ?_⟩
    rcases hEnd with ⟨hLater, hNever⟩ | ⟨mid, s, hMid, hSame, hTo⟩
    · refine Or.inl ⟨hSteady.trans hLater, fun s => ?_⟩
      rw [attachedTo_append, hNone, hNever]
      rfl
    · refine Or.inr ⟨mid, s, ⟨hSteady.trans hMid.steady, hShut.trans hMid.shut, hMid.consistent, hMid.listed,
        hMid.bound, hMid.inbuf.trans hInbuf⟩, ?_, fun t => ?_⟩
      · rw [hSame, framesLength_append, hLength, readFrame_size hRead, Nat.add_assoc]
      · rw [attachedTo_append, hNone, hTo, Bool.false_or]

/-- A stretch in which the sessions are typed into, each as the function says. What is dropped meets a PTY
that was closed already, or has another excuse. -/
def Types (typed : SessPtr → Bytes) (excuse : SessPtr → Prop) (srv srv' : Server) : Prop :=
  srv.Wired → srv'.Wired ∧ ∀ s, ∃ taken lost, Balanced s srv srv' (typed s) taken lost ∧
    (lost ≠ [] → s ∈ srv.sessions ∧ (srv.sess s).ptyOpen = false ∨ excuse s)

variable {mid : Server} {typed : SessPtr → Bytes} {excuse excuse' : SessPtr → Prop}

theorem Types.of_steady (h : Steady srv srv') (hNone : ∀ s, typed s = []) : Types typed excuse srv srv' := by
  intro hWired
  obtain ⟨hAfter, hSame⟩ := h hWired
  refine ⟨hAfter, fun s => ⟨[], [], ?_, fun hLost => absurd rfl hLost⟩⟩
  rw [hNone]
  exact hSame s

theorem Types.before (h : Types typed excuse mid srv') (hSteady : Steady srv mid) (hShut : ShutBefore srv mid) :
    Types typed excuse srv srv' := by
  intro hWired
  obtain ⟨hMid, hFirst⟩ := hSteady hWired
  obtain ⟨hAfter, hAll⟩ := h hMid
  refine ⟨hAfter, fun s => ?_⟩
  obtain ⟨taken, lost, hBalance, hLost⟩ := hAll s
  exact ⟨taken, lost, (hFirst s).trans hBalance, fun hDrop => (hLost hDrop).imp_left fun hGone =>
    hShut s hGone.1 hGone.2⟩

theorem Types.after (h : Types typed excuse srv mid) (hSteady : Steady mid srv') :
    Types typed excuse srv srv' := by
  intro hWired
  obtain ⟨hMid, hAll⟩ := h hWired
  obtain ⟨hAfter, hLast⟩ := hSteady hMid
  refine ⟨hAfter, fun s => ?_⟩
  obtain ⟨taken, lost, hBalance, hLost⟩ := hAll s
  exact ⟨taken, lost, hBalance.then (hLast s), hLost⟩

theorem Types.mono (h : Types typed excuse srv srv') (hImp : ∀ s, excuse s → excuse' s) :
    Types typed excuse' srv srv' := by
  intro hWired
  obtain ⟨hAfter, hAll⟩ := h hWired
  refine ⟨hAfter, fun s => ?_⟩
  obtain ⟨taken, lost, hBalance, hLost⟩ := hAll s
  exact ⟨taken, lost, hBalance, fun hDrop => (hLost hDrop).imp_right (hImp s)⟩

/-- Only the queue of the session moves, and its registration follows. -/
theorem Types.of_poured {s : SessPtr} {data : Bytes} {outcomes : List WriteOutcome}
    (hPoured : Poured s outcomes data srv mid) (hs : s ∈ srv.sessions) (hLt : s < srv.nextSess)
    (hHere : typed s = data) (hElse : ∀ t, t ≠ s → typed t = [])
    (hExcuse : endsHard outcomes = true → excuse s) : Types typed excuse srv (ptyUpdate mid s) := by
  intro hWired
  refine ⟨hPoured.wired hLt hWired, fun t => ?_⟩
  rcases eq_or_ne t s with rfl | hNe
  · obtain ⟨taken, lost, hBalance, hLost⟩ := hPoured.update.queue
    refine ⟨taken, lost, by rw [hHere]; exact hBalance, fun hDrop => ?_⟩
    exact (hLost hDrop).imp (fun hShut => ⟨hs, hShut⟩) hExcuse
  · rw [hElse t hNe]
    exact ⟨[], [], (hPoured.update.others t hNe).1, fun hDrop => absurd rfl hDrop⟩

theorem types_dataToPty {s : SessPtr} {data : Bytes} (hLinks : srv.links.Consistent)
    (hBound : (srv.conn c).session = some s) (hData : data ≠ []) (hAlloc : ans.pinAlloc = true)
    (hHere : typed s = data) (hElse : ∀ t, t ≠ s → typed t = []) :
    Types typed (fun t => typed t ≠ [] ∧ endsHard ans.ptyWrites = true) srv (dataToPty srv c data ans) := by
  obtain ⟨mid, hSame, hPoured⟩ := poured_dataToPty hBound hData hAlloc
  have hs : s ∈ srv.sessions := hLinks.bound_listed c s hBound
  rw [hSame]
  exact .of_poured hPoured hs (hLinks.sessions_lt s hs) hHere hElse fun hHard => ⟨by rw [hHere]; exact hData, hHard⟩

/-- What the read of the event delivers. -/
def ConnAnswers.data (ans : ConnAnswers) : Bytes :=
  match ans.read with
  | .bytes chunk => chunk.bytes
  | _ => []

/-- What bytes read from a connection type into a session: all of them on the data channel bound to it,
and on a control connection what lies behind the frames if they end with its ATTACH. -/
def typedBy (srv : Server) (c : ConnPtr) (data : Bytes) (es : List Effect) (s : SessPtr) : Bytes :=
  if (srv.conn c).isData then if (srv.conn c).session = some s then data else []
  else if attachedTo c s es then ((srv.inbuf c).rbuf ++ data).drop (framesLength c es) else []

theorem typedBy_nil (es : List Effect) (hNone : ∀ s, attachedTo c s es = false) (s : SessPtr) :
    typedBy srv c [] es s = [] := by
  unfold typedBy
  rw [hNone]
  split
  · split <;> rfl
  · rfl

theorem steady_same (hSess : srv'.sess = srv.sess) (hNext : srv'.nextSess = srv.nextSess)
    (hTrace : srv'.trace = srv.trace) : Steady srv srv' :=
  steady_of_tended (.of_sess hSess) (Nat.le_of_eq hNext.symm) (hTrace.trans (List.append_nil _).symm) (by simp)

theorem steady_keepRest (left : Option Nat) : Steady srv (keepRest srv c left) := by
  refine steady_same ?_ ?_ (keepRest_same srv c left).2.2.2
  · cases left with
    | none => rfl
    | some used => rw [keepRest, dropConsumed]; split <;> rfl
  · cases left with
    | none => rfl
    | some used => rw [keepRest, dropConsumed]; split <;> rfl

theorem types_switchConn {s : SessPtr} {used : Nat} (hLinks : srv.links.Consistent)
    (hBound : (srv.conn c).session = some s) (hAlloc : ans.pinAlloc = true)
    (hHere : typed s = (srv.inbuf c).rbuf.drop used) (hElse : ∀ t, t ≠ s → typed t = []) :
    Types typed (fun t => typed t ≠ [] ∧ endsHard ans.ptyWrites = true) srv (switchConn srv c ans used) := by
  have hFree : ∀ t : Server, Steady t (freeInbound t c) := fun t => steady_same rfl rfl rfl
  unfold switchConn
  dsimp only
  split
  · rename_i hRest
    refine Types.of_steady (hFree srv) fun t => ?_
    rcases eq_or_ne t s with rfl | hNe
    · exact hHere.trans hRest
    · exact hElse t hNe
  · rename_i hRest
    exact (types_dataToPty hLinks hBound hRest hAlloc hHere hElse).after (hFree _)

theorem connRead_types (hLinks : srv.links.Consistent) (hc : c ∈ srv.conns) (hAlloc : ans.pinAlloc = true) :
    ∃ es, (connRead srv c ans).trace = srv.trace ++ es ∧ Types (typedBy srv c ans.data es)
      (fun s => typedBy srv c ans.data es s ≠ [] ∧ endsHard ans.ptyWrites = true) srv (connRead srv c ans) := by
  have hIdle : ∀ t : Server, t.trace = srv.trace → Steady srv t → ans.data = [] →
      ∃ es, t.trace = srv.trace ++ es ∧ Types (typedBy srv c ans.data es)
        (fun s => typedBy srv c ans.data es s ≠ [] ∧ endsHard ans.ptyWrites = true) srv t := by
    intro t hTrace hSteady hData
    refine ⟨[], hTrace.trans (List.append_nil _).symm, .of_steady hSteady fun s => ?_⟩
    rw [hData]
    exact typedBy_nil [] (fun _ => rfl) s
  have hCondemn : Steady srv (condemn srv c) := steady_same rfl rfl rfl
  unfold connRead
  cases hRead : ans.read with
  | again => exact hIdle srv rfl (.refl srv) (by rw [ConnAnswers.data, hRead])
  | intr => exact hIdle srv rfl (.refl srv) (by rw [ConnAnswers.data, hRead])
  | failed => exact hIdle _ rfl hCondemn (by rw [ConnAnswers.data, hRead])
  | bytes chunk =>
    have hBytes : ans.data = chunk.bytes := by rw [ConnAnswers.data, hRead]
    dsimp only
    split
    · rename_i hEnd
      exact hIdle _ rfl hCondemn (hBytes.trans hEnd)
    rename_i hSome
    rw [hBytes]
    clear hIdle
    rcases handleInbound_cases hLinks hc chunk.bytes ans with
      ⟨hData, hFed⟩ | ⟨hData, hFull⟩ | ⟨fin, left, hData, hRun, hParsed⟩
    · rw [hFed]
      cases hBound : (srv.conn c).session with
      | none =>
        have hSame : dataToPty srv c chunk.bytes ans = srv := by unfold dataToPty; rw [hBound]
        rw [hSame]
        refine ⟨[], (List.append_nil _).symm, .of_steady (.refl srv) fun s => ?_⟩
        rw [typedBy, if_pos hData, hBound]
        rfl
      | some s =>
        obtain ⟨es, hTrace, _⟩ := aside_fed (fed_dataToPty hc chunk.bytes ans)
        refine ⟨es, hTrace, types_dataToPty hLinks hBound hSome hAlloc ?_ fun t hNe => ?_⟩
        · rw [typedBy, if_pos hData, if_pos hBound]
        · rw [typedBy, if_pos hData, hBound, if_neg]
          exact fun hSame => hNe (Option.some.inj hSame).symm
    · rw [hFull]
      refine ⟨[], (List.append_nil _).symm, .of_steady hCondemn fun s => ?_⟩
      rw [typedBy, hData]
      rfl
    have hReceived : ∀ e ∈ [Effect.received c chunk.bytes (srv.conn c).wantClose], e.dry = true := by
      simp [Effect.dry]
    have hStored : Steady srv (storeInbound srv c chunk.bytes) :=
      steady_of_tended (.of_sess rfl) (Nat.le_refl _) rfl hReceived
    have hShut : ShutBefore srv (storeInbound srv c chunk.bytes) := .of_same rfl fun _ _ => rfl
    have hBuffer : ((storeInbound srv c chunk.bytes).inbuf c).rbuf = (srv.inbuf c).rbuf ++ chunk.bytes := by
      simp [storeInbound, Server.modIn, Server.emit]
    obtain ⟨es, hTrace, hTurns⟩ := hRun.turns hLinks hc hData
    rw [hParsed]
    refine ⟨.received c chunk.bytes (srv.conn c).wantClose :: es, ?_, ?_⟩
    · rw [(keepRest_same fin c left).2.2.2, hTrace]
      simp [storeInbound, Server.modIn, Server.emit]
    refine Types.after ?_ (steady_keepRest left)
    have hTyped : ∀ s, typedBy srv c chunk.bytes (.received c chunk.bytes (srv.conn c).wantClose :: es) s =
        if attachedTo c s es then ((srv.inbuf c).rbuf ++ chunk.bytes).drop (framesLength c es) else [] := by
      intro s
      rw [typedBy, hData]
      change (if (false || attachedTo c s es) = true then List.drop (0 + framesLength c es) _ else _) = _
      rw [Bool.false_or, Nat.zero_add]
    rcases hTurns with ⟨hSteady, hNever⟩ | ⟨mid, s, hMid, hSwitch, hTo⟩
    · refine .of_steady (hStored.trans hSteady) fun s => ?_
      rw [hTyped, hNever]
      rfl
    · rw [hSwitch]
      refine Types.before ?_ (hStored.trans hMid.steady) (hShut.trans hMid.shut)
      refine types_switchConn hMid.consistent hMid.bound hAlloc ?_ fun t hNe => ?_
      · rw [hTyped, hTo, hMid.inbuf, hBuffer, Nat.zero_add]
        simp
      · rw [hTyped, hTo]
        simp [hNe]

end Read

end Epimone.Daemon
