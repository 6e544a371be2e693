import Epimone.Daemon.Refinement
import Epimone.Library.Framing

/-! # Frames

The frames of the control protocol as a format of the framing library, and the
parse loop of conn_read as what it does turn by turn: it waits for more, refuses
a frame, or handles one and goes on, stops or becomes a data channel.
-/
set_option autoImplicit false

namespace Epimone.Daemon

open Transition Framing

/-- What the front of the inbound buffer is. -/
def readFrame (p : Bytes) : Verdict (Nat × Bytes) (EpiErrCode × String) :=
  if p.length < 4 then .more
  else
    let flen := ofLittleEndian (p.take 4)
    if flen < 4 then .refused (.protocol, "short frame")
    else if maxFrame < flen then .refused (.tooLarge, "frame too large")
    else if p.length - 4 < flen then .more
    else .item (ofLittleEndian ((p.drop 4).take 4), (p.drop 8).take (flen - 4)) (4 + flen)

theorem readFrame_item {p : Bytes} {frame : Nat × Bytes} {n : Nat} (h : readFrame p = .item frame n) :
    4 ≤ p.length ∧ n = 4 + ofLittleEndian (p.take 4) ∧ 4 ≤ ofLittleEndian (p.take 4) ∧
      ofLittleEndian (p.take 4) ≤ maxFrame ∧ n ≤ p.length ∧
      frame = (ofLittleEndian ((p.drop 4).take 4), (p.drop 8).take (ofLittleEndian (p.take 4) - 4)) := by
  unfold readFrame at h
  dsimp only at h
  split at h
  · cases h
  split at h
  · cases h
  split at h
  · cases h
  split at h
  · cases h
  · cases h
    exact ⟨by omega, rfl, by omega, by omega, by omega, rfl⟩

theorem readFrame_append {p : Bytes} (q : Bytes) (h : readFrame p ≠ .more) :
    readFrame (p ++ q) = readFrame p := by
  unfold readFrame at h ⊢
  dsimp only at h ⊢
  split at h
  · exact absurd rfl h
  rename_i hLong
  have hTake : (p ++ q).take 4 = p.take 4 := List.take_append_of_le_length (by omega)
  have hLonger : ¬ (p ++ q).length < 4 := by rw [List.length_append]; omega
  rw [if_neg hLong, if_neg hLonger, hTake]
  by_cases hShort : ofLittleEndian (p.take 4) < 4
  · rw [if_pos hShort, if_pos hShort]
  rw [if_neg hShort, if_neg hShort]
  by_cases hLarge : maxFrame < ofLittleEndian (p.take 4)
  · rw [if_pos hLarge, if_pos hLarge]
  rw [if_neg hLarge, if_neg hLarge]
  rw [if_neg hShort, if_neg hLarge] at h
  by_cases hPart : p.length - 4 < ofLittleEndian (p.take 4)
  · rw [if_pos hPart] at h
    exact absurd rfl h
  have hWhole : ¬ (p ++ q).length - 4 < ofLittleEndian (p.take 4) := by
    rw [List.length_append]
    omega
  rw [if_neg hPart, if_neg hWhole, List.drop_append_of_le_length (by omega),
    List.drop_append_of_le_length (by omega), List.take_append_of_le_length,
    List.take_append_of_le_length]
  · rw [List.length_drop]; omega
  · rw [List.length_drop]; omega

def frameFormat : Format UInt8 (Nat × Bytes) (EpiErrCode × String) where
  read := readFrame
  item_pos h := by
    obtain ⟨_, rfl, _⟩ := readFrame_item h
    omega
  item_le h := by
    obtain ⟨_, _, _, _, hLe, _⟩ := readFrame_item h
    exact hLe
  item_stable q h := by rw [readFrame_append q (by simp [h]), h]
  refused_stable q h := by rw [readFrame_append q (by simp [h]), h]

theorem length_of_more {p : Bytes} (h : readFrame p = .more) : p.length < 4 + maxFrame := by
  unfold readFrame at h
  dsimp only at h
  split at h
  · omega
  split at h
  · cases h
  split at h
  · cases h
  split at h
  · omega
  · cases h

section Loop

variable {c : ConnPtr} {ans : ConnAnswers} {srv : Server}

def handleFrame (srv : Server) (c : ConnPtr) (ans : FrameAnswers) (type : Nat) (body : Bytes) : Server :=
  dispatchFrame (srv.emit (.frame c type body (srv.conn c).unsent.length)) c ans type body

/-- The bytes behind the ATTACH are the first input of the session. -/
def switchConn (srv : Server) (c : ConnPtr) (ans : ConnAnswers) (used : Nat) : Server :=
  let rest := (srv.inbuf c).rbuf.drop used
  freeInbound (if rest = [] then srv else dataToPty srv c rest ans) c

/-- The parse loop from an offset of the buffer to the state it leaves and the offset it ends with. -/
inductive FrameRun (c : ConnPtr) (ans : ConnAnswers) : Nat → Server → Nat → Server → Option Nat → Prop where
  | more {turn : Nat} {srv : Server} {used : Nat}
    (hRead : readFrame ((srv.inbuf c).rbuf.drop used) = .more) : FrameRun c ans turn srv used srv (some used)
  | refused {turn : Nat} {srv : Server} {used : Nat} {code : EpiErrCode} {msg : String}
    (hRead : readFrame ((srv.inbuf c).rbuf.drop used) = .refused (code, msg)) :
    FrameRun c ans turn srv used (rejectFrame srv c code msg ans) (some used)
  | switched {turn : Nat} {srv : Server} {used type n : Nat} {body : Bytes}
    (hRead : readFrame ((srv.inbuf c).rbuf.drop used) = .item (type, body) n)
    (hData : ((handleFrame srv c (ans.frames turn) type body).conn c).isData = true) :
    FrameRun c ans turn srv used
      (switchConn (handleFrame srv c (ans.frames turn) type body) c ans (used + n)) none
  | condemned {turn : Nat} {srv : Server} {used type n : Nat} {body : Bytes}
    (hRead : readFrame ((srv.inbuf c).rbuf.drop used) = .item (type, body) n)
    (hControl : ((handleFrame srv c (ans.frames turn) type body).conn c).isData = false)
    (hClose : ((handleFrame srv c (ans.frames turn) type body).conn c).wantClose = true) :
    FrameRun c ans turn srv used (handleFrame srv c (ans.frames turn) type body) (some (used + n))
  | next {turn : Nat} {srv srv' : Server} {used type n : Nat} {body : Bytes} {left : Option Nat}
    (hRead : readFrame ((srv.inbuf c).rbuf.drop used) = .item (type, body) n)
    (hControl : ((handleFrame srv c (ans.frames turn) type body).conn c).isData = false)
    (hOpen : ((handleFrame srv c (ans.frames turn) type body).conn c).wantClose = false)
    (rest : FrameRun c ans (turn + 1) (handleFrame srv c (ans.frames turn) type body) (used + n) srv' left) :
    FrameRun c ans turn srv used srv' left

/-- The actions by which one frame is handled. -/
def Act.handles (c : ConnPtr) (a : Act) : Bool :=
  a.backstage || a.answers c || match a with
    | .frame d _ _ => d == c
    | _ => false

theorem inbound_of_handles {a : Act} (h : a.handles c = true) : a.inbound c = true := by
  cases a <;> simp_all [Act.handles, Act.inbound, Act.backstage, Act.answers]

theorem path_handleFrame (h : srv.links.Consistent) (hc : c ∈ srv.conns)
    (hData : (srv.conn c).isData = false) (ans : FrameAnswers) (type : Nat) (body : Bytes) :
    actions.Path (fun a => a.handles c = true) srv (handleFrame srv c ans type body) := by
  unfold handleFrame
  generalize hEmit : srv.emit (.frame c type body (srv.conn c).unsent.length) = noted
  have hFrame : actions.Path (fun a => a.handles c = true) srv noted := by
    rw [← hEmit]
    exact perform_path (.frame c type body) ⟨hc, hData⟩ (by simp [Act.handles])
  have hNoted : c ∈ noted.conns ∧ (noted.conn c).isData = false ∧ noted.Awaiting c := by
    rw [← hEmit]
    exact ⟨hc, hData, srv.trace, _, [], rfl, beq_self_eq_true c, by simp⟩
  refine hFrame.trans ((answered_dispatchFrame (Actions.consistent hFrame h) ans type body).path hNoted.1
    hNoted.2.1 hNoted.2.2 ?_ ?_)
  · intro a ha
    simp [Act.handles, ha]
  · intro a ha
    simp [Act.handles, ha]

theorem inbuf_of_handles {a : Act} (h : a.handles c = true) : (a.perform srv).inbuf = srv.inbuf := by
  cases a with
  | queue => simp only [Act.perform, enqueue_eq]
  | attach => simp only [Act.perform, bindClient_eq]
  | unlink => simp only [Act.perform, unlinkMember_eq]; rfl
  | kill => simp only [Act.perform, markKilled_eq]; rfl
  | move => simp only [Act.perform, moveSession_eq]; rfl
  | store | consume | freeInbound | openConn | close | relay | reap | escalate =>
    simp [Act.handles, Act.backstage, Act.answers] at h
  | _ => rfl

theorem inbuf_handleFrame (h : srv.links.Consistent) (hc : c ∈ srv.conns)
    (hData : (srv.conn c).isData = false) (ans : FrameAnswers) (type : Nat) (body : Bytes) :
    (handleFrame srv c ans type body).inbuf = srv.inbuf := by
  refine Actions.Path.related (R := fun s t => t.inbuf = s.inbuf) (fun _ => rfl) ?_ ?_
    (path_handleFrame h hc hData ans type body)
  · intro s t u hFirst hSecond
    exact hSecond.trans hFirst
  · intro s a _ ha
    exact inbuf_of_handles ha

theorem frameLoop_succ (fuel turn used : Nat) :
    frameLoop c ans (fuel + 1) turn srv used =
      match readFrame ((srv.inbuf c).rbuf.drop used) with
      | .more => (srv, some used)
      | .refused (code, msg) => (rejectFrame srv c code msg ans, some used)
      | .item (type, body) n =>
        let handled := handleFrame srv c (ans.frames turn) type body
        if (handled.conn c).isData then (switchConn handled c ans (used + n), none)
        else if (handled.conn c).wantClose then (handled, some (used + n))
        else frameLoop c ans fuel (turn + 1) handled (used + n) := by
  rw [frameLoop, readFrame]
  dsimp only
  generalize (srv.inbuf c).rbuf.drop used = p
  split
  · rfl
  split
  · rfl
  split
  · rfl
  split <;> rfl

theorem frameLoop_run (h : srv.links.Consistent) (hc : c ∈ srv.conns)
    (hData : (srv.conn c).isData = false) (fuel turn used : Nat)
    (hFuel : (srv.inbuf c).rbuf.length ≤ used + fuel) :
    FrameRun c ans turn srv used (frameLoop c ans fuel turn srv used).1
      (frameLoop c ans fuel turn srv used).2 := by
  induction fuel generalizing srv turn used with
  | zero =>
    refine .more ?_
    rw [List.drop_of_length_le (show _ ≤ used from hFuel)]
    rfl
  | succ fuel ih =>
    rw [frameLoop_succ]
    cases hRead : readFrame ((srv.inbuf c).rbuf.drop used) with
    | more => exact .more hRead
    | refused e => exact .refused hRead
    | item frame n =>
      obtain ⟨type, body⟩ := frame
      have hPath := path_handleFrame h hc hData (ans.frames turn) type body
      have hInbuf := inbuf_handleFrame h hc hData (ans.frames turn) type body
      have hConns := Inbound.conns (hPath.mono fun _ => inbound_of_handles)
      obtain ⟨_, rfl, _⟩ := readFrame_item hRead
      dsimp only
      split
      · rename_i hSwitched
        exact .switched hRead hSwitched
      rename_i hControl
      rw [Bool.not_eq_true] at hControl
      split
      · rename_i hClose
        exact .condemned hRead hControl hClose
      · rename_i hOpen
        rw [Bool.not_eq_true] at hOpen
        refine .next hRead hControl hOpen (ih (Actions.consistent hPath h) ?_ hControl _ _ ?_)
        · rw [hConns]
          exact hc
        · rw [hInbuf]
          omega

theorem switchConn_fed (hc : c ∈ srv.conns) (ans : ConnAnswers) (used : Nat) :
    ∃ fed, Fed c srv fed ∧ switchConn srv c ans used = freeInbound fed c := by
  refine ⟨_, ?_, rfl⟩
  split
  · exact .refl _
  · exact fed_dataToPty hc _ ans

theorem FrameRun.path {turn used : Nat} {srv' : Server} {left : Option Nat}
    (hRun : FrameRun c ans turn srv used srv' left) (h : srv.links.Consistent) (hc : c ∈ srv.conns)
    (hData : (srv.conn c).isData = false) : Inbound c srv srv' := by
  induction hRun with
  | more => exact .refl _
  | refused => exact inbound_rejectFrame hc hData _ _ _
  | switched =>
    rename_i turn srv used type n body _ _
    have hPath : Inbound c srv _ :=
      (path_handleFrame h hc hData (ans.frames turn) type body).mono fun _ => inbound_of_handles
    exact hPath.trans (inbound_switch (by rw [hPath.conns]; exact hc) _ ans)
  | condemned =>
    exact (path_handleFrame h hc hData _ _ _).mono fun _ => inbound_of_handles
  | next _ hControl _ _ ih =>
    rename_i turn srv srv' used type n body left _ _ _
    have hPath : Inbound c srv _ :=
      (path_handleFrame h hc hData (ans.frames turn) type body).mono fun _ => inbound_of_handles
    exact hPath.trans (ih (Actions.consistent hPath h) (by rw [hPath.conns]; exact hc) hControl)

/-- A relation that composes holds over the parse loop if it holds over its turns. -/
theorem FrameRun.related {R : Server → Server → Prop} (hRefl : ∀ t, R t t)
    (hTrans : ∀ t u v, R t u → R u v → R t v)
    (hReject : ∀ t code msg, R t (rejectFrame t c code msg ans))
    (hHandle : ∀ t ans type body, t.links.Consistent → R t (handleFrame t c ans type body))
    (hSwitch : ∀ t used, t.links.Consistent → R t (switchConn t c ans used))
    {turn used : Nat} {srv' : Server} {left : Option Nat} (hRun : FrameRun c ans turn srv used srv' left)
    (h : srv.links.Consistent) (hc : c ∈ srv.conns) (hData : (srv.conn c).isData = false) :
    R srv srv' := by
  induction hRun with
  | more => exact hRefl _
  | refused => exact hReject _ _ _
  | switched =>
    rename_i turn srv used type n body hRead hSwitched
    have hPath := path_handleFrame h hc hData (ans.frames turn) type body
    exact hTrans _ _ _ (hHandle _ _ _ _ h) (hSwitch _ _ (Actions.consistent hPath h))
  | condemned => exact hHandle _ _ _ _ h
  | next hRead hControl hOpen rest ih =>
    rename_i turn srv srv' used type n body left
    have hPath := path_handleFrame h hc hData (ans.frames turn) type body
    have hConns := Inbound.conns (hPath.mono fun _ => inbound_of_handles)
    have hRest := ih (Actions.consistent hPath h) (by rw [hConns]; exact hc) hControl
    exact hTrans _ _ _ (hHandle _ _ _ _ h) hRest

/-- The compaction with which conn_read ends, for the offset of the parse loop. -/
def keepRest (srv : Server) (c : ConnPtr) : Option Nat → Server
  | none => srv
  | some used => dropConsumed srv c used

/-- What becomes of the bytes of a read: input of the session, too many for the buffer, or frames. -/
theorem handleInbound_cases (h : srv.links.Consistent) (hc : c ∈ srv.conns) (data : Bytes) (ans : ConnAnswers) :
    (srv.conn c).isData = true ∧ handleInbound srv c data ans = dataToPty srv c data ans ∨
      (srv.conn c).isData = false ∧ handleInbound srv c data ans = condemn srv c ∨
      ∃ srv' left, (srv.conn c).isData = false ∧ FrameRun c ans 0 (storeInbound srv c data) 0 srv' left ∧
        handleInbound srv c data ans = keepRest srv' c left := by
  unfold handleInbound
  split
  · rename_i hData
    exact Or.inl ⟨hData, rfl⟩
  rename_i hControl
  have hData : (srv.conn c).isData = false := by simpa using hControl
  split
  · exact Or.inr (Or.inl ⟨hData, rfl⟩)
  have hCons : (storeInbound srv c data).links.Consistent := h
  have hRun := @frameLoop_run c ans (storeInbound srv c data) hCons hc hData
    ((storeInbound srv c data).inbuf c).rbuf.length 0 0 (by omega)
  refine Or.inr (Or.inr ⟨_, _, hData, hRun, ?_⟩)
  dsimp only
  split <;> rename_i hEnd <;> rw [hEnd] <;> rfl

/-- What conn_read does: nothing, it gives the connection up, it feeds the session, or it stores the bytes
and parses. -/
theorem connRead_cases (h : srv.links.Consistent) (hc : c ∈ srv.conns) (ans : ConnAnswers) :
    connRead srv c ans = srv ∨ connRead srv c ans = condemn srv c ∨
      (∃ data, (srv.conn c).isData = true ∧ connRead srv c ans = dataToPty srv c data ans) ∨
      ∃ data srv' left, (srv.conn c).isData = false ∧ data.length ≤ ptyReadChunk ∧
        FrameRun c ans 0 (storeInbound srv c data) 0 srv' left ∧
        connRead srv c ans = keepRest srv' c left := by
  unfold connRead
  cases ans.read with
  | again => exact Or.inl rfl
  | intr => exact Or.inl rfl
  | failed => exact Or.inr (Or.inl rfl)
  | bytes chunk =>
    dsimp only
    split
    · exact Or.inr (Or.inl rfl)
    rcases handleInbound_cases h hc chunk.bytes ans with
      ⟨hData, hFed⟩ | ⟨_, hCondemn⟩ | ⟨srv', left, hData, hRun, hRead⟩
    · exact Or.inr (Or.inr (Or.inl ⟨chunk.bytes, hData, hFed⟩))
    · exact Or.inr (Or.inl hCondemn)
    · exact Or.inr (Or.inr (Or.inr ⟨chunk.bytes, srv', left, hData, chunk.bounded, hRun, hRead⟩))

theorem keepRest_same (srv : Server) (c : ConnPtr) (left : Option Nat) :
    (keepRest srv c left).conn = srv.conn ∧ (keepRest srv c left).conns = srv.conns ∧
      (keepRest srv c left).nextConn = srv.nextConn ∧ (keepRest srv c left).trace = srv.trace := by
  cases left with
  | none => exact ⟨rfl, rfl, rfl, rfl⟩
  | some used =>
    rw [keepRest, dropConsumed]
    split <;> exact ⟨rfl, rfl, rfl, rfl⟩

theorem keepRest_rbuf (srv : Server) (c : ConnPtr) (used : Nat) :
    ((keepRest srv c (some used)).inbuf c).rbuf = (srv.inbuf c).rbuf.drop used := by
  rw [keepRest, dropConsumed]
  split
  · simp [Server.modIn]
  · rename_i hNone
    rw [Nat.eq_zero_of_not_pos hNone]
    rfl

theorem inbound_keepRest (hc : c ∈ srv.conns) (left : Option Nat) : Inbound c srv (keepRest srv c left) := by
  cases left with
  | none => exact .refl _
  | some used => exact inbound_dropConsumed hc used

theorem inbound_connRead (h : srv.links.Consistent) (hc : c ∈ srv.conns) (ans : ConnAnswers) :
    Inbound c srv (connRead srv c ans) := by
  rcases connRead_cases h hc ans with
    hSame | hCondemn | ⟨data, _, hFed⟩ | ⟨data, srv', left, hData, hSize, hRun, hRead⟩
  · rw [hSame]
    exact .refl _
  · rw [hCondemn]
    exact inbound_condemn hc
  · rw [hFed]
    exact inbound_dataToPty hc data ans
  · have hStore : Inbound c srv (storeInbound srv c data) :=
      perform_path (.store c data) ⟨hc, hData, hSize⟩ (by simp [Act.inbound])
    have hPath : Inbound c srv srv' := hStore.trans (hRun.path h hc hData)
    rw [hRead]
    exact hPath.trans (inbound_keepRest (by rw [hPath.conns]; exact hc) left)

end Loop

end Epimone.Daemon
