import Epimone.Client.Listing
import Epimone.Client.Bridge

/-! # Blocking reads and writes

A blocking read hands over some of what has arrived, and the loops around read and
write go on until they have everything. The two clients have the same loops. What
a reader of frames gets does not depend on the sizes in which the bytes come.
-/
set_option autoImplicit false

namespace Epimone.Client

open Daemon

/-- What one call of read comes to: up to n + 1 bytes of what there is, EINTR, or another error. -/
inductive ReadCall where
  | got (n : Nat)
  | intr
  | failed
  deriving DecidableEq, Repr

/-- What a descriptor has still to deliver, and how the calls of read on it will end. -/
structure Incoming where
  bytes : Bytes
  calls : List ReadCall
  deriving DecidableEq, Repr

/-- The loop of read_all and read_full: none if the stream ends or fails before there are enough bytes. -/
def readExactly : List ReadCall → Nat → Bytes → Option (Bytes × Incoming)
  | calls, 0, bytes => some ([], ⟨bytes, calls⟩)
  | [], _ + 1, _ => none
  | .got n :: calls, need + 1, bytes =>
    let data := bytes.take (min (n + 1) (need + 1))
    if data = [] then none
    else (readExactly calls (need + 1 - data.length) (bytes.drop data.length)).map fun more => (data ++ more.1, more.2)
  | .intr :: calls, need + 1, bytes => readExactly calls (need + 1) bytes
  | .failed :: _, _ + 1, _ => none

/-- The loop of write_all and write_full: what it has written, and whether that is everything. -/
def writeEverything : List WriteOutcome → Bytes → Bytes × Bool
  | _, [] => ([], true)
  | [], _ :: _ => ([], false)
  | .wrote (n + 1) :: outcomes, byte :: data =>
    let more := writeEverything outcomes ((byte :: data).drop (n + 1))
    ((byte :: data).take (n + 1) ++ more.1, more.2)
  | .intr :: outcomes, byte :: data => writeEverything outcomes (byte :: data)
  | .wrote 0 :: _, _ :: _ | .again :: _, _ :: _ | .failed :: _, _ :: _ => ([], false)

def readAll (need : Nat) (fd : Incoming) : Option (Bytes × Incoming) := readExactly fd.calls need fd.bytes

def writeAll (outcomes : List WriteOutcome) (data : Bytes) : Bytes × Bool := writeEverything outcomes data

/-- recv_frame, with what it leaves on the descriptor. -/
def recvFrameFrom (fd : Incoming) : Except GError ((Nat × Bytes) × Incoming) :=
  match readAll 4 fd with
  | none => .error (clientError "no reply from daemon")
  | some (hdr, fd) =>
    let flen := ofLittleEndian hdr
    if flen < 4 then .error (clientError "short frame")
    else
      match readAll flen fd with
      | none => .error (clientError "truncated reply")
      | some (raw, fd) => .ok ((ofLittleEndian (raw.take 4), raw.drop 4), fd)

section Reading

variable {calls : List ReadCall} {need : Nat} {bytes data : Bytes} {left : Incoming}

theorem take_length_append_drop (n : Nat) (l : Bytes) : l.take n ++ l.drop (l.take n).length = l :=
  List.prefix_iff_eq_append.mp (List.take_prefix n l)

@[simp] theorem readExactly_zero : readExactly calls 0 bytes = some ([], ⟨bytes, calls⟩) := by
  cases calls <;> rfl

theorem readExactly_spec (h : readExactly calls need bytes = some (data, left)) :
    bytes = data ++ left.bytes ∧ data.length = need := by
  induction calls generalizing need bytes data with
  | nil =>
    cases need with
    | zero =>
      cases h
      exact ⟨rfl, rfl⟩
    | succ need => cases h
  | cons call calls ih =>
    cases need with
    | zero =>
      cases h
      exact ⟨rfl, rfl⟩
    | succ need =>
      cases call with
      | intr => exact ih h
      | failed => cases h
      | got n =>
        dsimp only [readExactly] at h
        split at h
        · cases h
        obtain ⟨⟨more, fd⟩, hMore, hAll⟩ := Option.map_eq_some_iff.mp h
        cases hAll
        obtain ⟨hRest, hLength⟩ := ih hMore
        have hTaken : (bytes.take (min (n + 1) (need + 1))).length ≤ need + 1 := by
          rw [List.length_take]
          omega
        constructor
        · rw [List.append_assoc, ← hRest, take_length_append_drop]
        · rw [List.length_append, hLength]
          omega

/-- The calls that bring something, unless the stream has ended. -/
def deliveries (calls : List ReadCall) : Nat := calls.countP (· != .intr)

theorem readExactly_short (hShort : bytes.length < need) : readExactly calls need bytes = none := by
  cases hRead : readExactly calls need bytes with
  | none => rfl
  | some read =>
    obtain ⟨hBytes, hLength⟩ := readExactly_spec hRead
    rw [hBytes, List.length_append] at hShort
    omega

/-- Calls that do not fail read everything that is wanted, whatever their sizes. -/
theorem readExactly_patient (more : Nat) (hSound : .failed ∉ calls) (hMany : need + more ≤ deliveries calls)
    (hArrives : need ≤ bytes.length) :
    ∃ calls', readExactly calls need bytes = some (bytes.take need, ⟨bytes.drop need, calls'⟩) ∧
      .failed ∉ calls' ∧ more ≤ deliveries calls' := by
  induction calls generalizing need bytes with
  | nil =>
    obtain ⟨rfl, rfl⟩ : need = 0 ∧ more = 0 := by
      simp only [deliveries, List.countP_nil] at hMany
      omega
    exact ⟨[], rfl, hSound, Nat.le_refl 0⟩
  | cons call calls ih =>
    cases need with
    | zero => exact ⟨call :: calls, rfl, hSound, by omega⟩
    | succ need =>
      have hRest : .failed ∉ calls := fun hIn => hSound (List.mem_cons_of_mem _ hIn)
      cases call with
      | failed => exact absurd List.mem_cons_self hSound
      | intr => exact ih hRest (by simpa [deliveries] using hMany) hArrives
      | got n =>
        have hCount : need + more ≤ deliveries calls := by
          have hHead : deliveries (.got n :: calls) = deliveries calls + 1 := by simp [deliveries]
          omega
        dsimp only [readExactly]
        generalize hTaken : bytes.take (min (n + 1) (need + 1)) = taken
        have hLength : taken.length = min (min (n + 1) (need + 1)) bytes.length := by rw [← hTaken, List.length_take]
        have hFront : taken = bytes.take taken.length := by
          rw [hLength, ← List.take_eq_take_min, hTaken]
        have hFits : 0 < taken.length ∧ taken.length ≤ need + 1 := by omega
        clear hLength
        rw [if_neg (List.ne_nil_of_length_pos hFits.1)]
        obtain ⟨calls', hRead, hSound', hMany'⟩ := @ih (need + 1 - taken.length) (bytes.drop taken.length) hRest
          (by omega) (by rw [List.length_drop]; omega)
        have hAll : taken.length + (need + 1 - taken.length) = need + 1 := by omega
        refine ⟨calls', ?_, hSound', hMany'⟩
        rw [hRead, Option.map_some, List.drop_drop, hAll]
        congr 2
        calc taken ++ (bytes.drop taken.length).take (need + 1 - taken.length)
            = bytes.take taken.length ++ (bytes.drop taken.length).take (need + 1 - taken.length) := by rw [← hFront]
          _ = bytes.take (need + 1) := by rw [← List.take_add, hAll]

/-- recv_frame takes one frame and nothing of what follows it. -/
theorem recvFrameFrom_exact {fd : Incoming} {type : Nat} {body : Bytes}
    (h : recvFrameFrom fd = .ok ((type, body), left)) :
    recvFrame fd.bytes = .ok (type, body) ∧
      fd.bytes = (fd.bytes.take (4 + ofLittleEndian (fd.bytes.take 4))) ++ left.bytes := by
  unfold recvFrameFrom readAll at h
  cases hHeader : readExactly fd.calls 4 fd.bytes with
  | none =>
    rw [hHeader] at h
    cases h
  | some read =>
    obtain ⟨hdr, fd'⟩ := read
    rw [hHeader] at h
    obtain ⟨hBytes, hFour⟩ := readExactly_spec hHeader
    have hHdr : fd.bytes.take 4 = hdr := by
      rw [hBytes, ← hFour, List.take_left]
    dsimp only at h
    split at h
    · cases h
    rename_i hLong
    cases hRaw : readExactly fd'.calls (ofLittleEndian hdr) fd'.bytes with
    | none =>
      rw [hRaw] at h
      cases h
    | some read =>
      obtain ⟨raw, fd''⟩ := read
      rw [hRaw] at h
      cases h
      obtain ⟨hRest, hSize⟩ := readExactly_spec hRaw
      have hTotal : fd.bytes.length = 4 + (ofLittleEndian hdr + left.bytes.length) := by
        rw [hBytes, hRest, List.length_append, List.length_append, hFour, hSize]
      have hBody : fd.bytes.drop 4 = raw ++ left.bytes := by
        rw [hBytes, ← hFour, List.drop_left, hRest]
      constructor
      · unfold recvFrame
        rw [if_neg (by omega), hHdr]
        dsimp only
        rw [if_neg hLong, if_neg (by omega), hBody, List.take_append_of_le_length (by omega)]
        have hEight : fd.bytes.drop 8 = raw.drop 4 ++ left.bytes := by
          rw [show 8 = 4 + 4 from rfl, ← List.drop_drop, hBody, List.drop_append_of_le_length (by omega)]
        rw [hEight, List.take_left' (by rw [List.length_drop, hSize])]
      · rw [hHdr, hBytes, ← hFour, List.take_length_add_append, hRest, ← hSize, List.take_left, List.append_assoc]

/-- However the reply comes in pieces, the transaction sees what it would see of all of it at once. -/
theorem recvFrameFrom_patient {fd : Incoming} (hSound : .failed ∉ fd.calls)
    (hMany : fd.bytes.length < deliveries fd.calls) :
    (recvFrameFrom fd).map Prod.fst = recvFrame fd.bytes := by
  unfold recvFrameFrom readAll recvFrame
  by_cases hHeader : fd.bytes.length < 4
  · rw [if_pos hHeader, readExactly_short hHeader]
    rfl
  rw [if_neg hHeader]
  have hFour : 4 ≤ fd.bytes.length := Nat.not_lt.mp hHeader
  obtain ⟨calls, hRead, hSound', hMany'⟩ :=
    readExactly_patient (fd.bytes.length - 3) hSound (show 4 + (fd.bytes.length - 3) ≤ _ by omega) hFour
  rw [hRead]
  dsimp only
  split
  · rfl
  by_cases hBody : fd.bytes.length - 4 < ofLittleEndian (fd.bytes.take 4)
  · rw [if_pos hBody, readExactly_short (by rw [List.length_drop]; exact hBody)]
    rfl
  rw [if_neg hBody]
  obtain ⟨calls', hRaw, -, -⟩ := readExactly_patient 0 hSound' (show ofLittleEndian (fd.bytes.take 4) + 0 ≤ _ by omega)
    (show _ ≤ (fd.bytes.drop 4).length by rw [List.length_drop]; omega)
  rw [hRaw]
  change Except.ok _ = Except.ok _
  rw [List.take_take, List.drop_take, List.drop_drop, Nat.min_eq_left (by omega)]

end Reading

section Writing

variable {data : Bytes}

theorem writeEverything_spec (outcomes : List WriteOutcome) (data : Bytes) :
    ∃ rest, data = (writeEverything outcomes data).1 ++ rest ∧
      ((writeEverything outcomes data).2 = true ↔ rest = []) := by
  induction outcomes generalizing data with
  | nil =>
    cases data with
    | nil => exact ⟨[], rfl, by simp [writeEverything]⟩
    | cons byte data => exact ⟨byte :: data, rfl, by simp [writeEverything]⟩
  | cons outcome outcomes ih =>
    cases data with
    | nil => exact ⟨[], by simp [writeEverything], by simp [writeEverything]⟩
    | cons byte data =>
      cases outcome with
      | wrote n =>
        cases n with
        | zero => exact ⟨byte :: data, rfl, by simp [writeEverything]⟩
        | succ n =>
          obtain ⟨rest, hRest, hAll⟩ := ih ((byte :: data).drop (n + 1))
          refine ⟨rest, ?_, hAll⟩
          calc byte :: data = (byte :: data).take (n + 1) ++ (byte :: data).drop (n + 1) :=
                (List.take_append_drop _ _).symm
            _ = (byte :: data).take (n + 1) ++
                ((writeEverything outcomes ((byte :: data).drop (n + 1))).1 ++ rest) := by
              rw [← hRest]
            _ = _ := (List.append_assoc _ _ _).symm
      | intr => exact ih (byte :: data)
      | again => exact ⟨byte :: data, rfl, by simp [writeEverything]⟩
      | failed => exact ⟨byte :: data, rfl, by simp [writeEverything]⟩

end Writing

/-- What the attach of the client library meets. -/
structure AttachExchange where
  refusal : Option Bytes
  bufAlloc : Nat → Bool
  writes : List WriteOutcome
  writeError : Bytes
  fd : Incoming
  rdAlloc : Nat → Bool

def attachRequest (alloc : Nat → Bool) (id : Nat) : EpiBuf :=
  epiMsgEnd (epiBufPutU64 alloc (epiMsgStart alloc .attach) id)

/-- The descriptor of the data channel, with what is still to be read from it. -/
def epimoneClientAttachSession (id : Nat) (x : AttachExchange) : Except GError Incoming :=
  match x.refusal with
  | some reason => .error ⟨1, reason⟩
  | none =>
    let req := attachRequest x.bufAlloc id
    if req.oom then .error (clientError "out of memory")
    else if !(writeAll x.writes req.data).2 then .error ⟨1, ascii "write: " ++ x.writeError⟩
    else
      match recvFrameFrom x.fd with
      | .error e => .error e
      | .ok ((type, body), fd) =>
        if type = EpiMsgType.attached.code then .ok fd
        else .error ((replyIsError x.rdAlloc type body).getD (clientError "unexpected reply to ATTACH"))

section Attaching

variable {id type : Nat} {body raw : Bytes} {x : AttachExchange} {fd : Incoming}

theorem recvFrame_append (hType : type < 2 ^ 32) (hBody : 4 + body.length < 2 ^ 32) :
    recvFrame (frameBytes type body ++ raw) = .ok (type, body) := by
  have hWhole := recvFrame_frameBytes hType hBody
  have hLength := length_frameBytes type body
  unfold recvFrame at hWhole ⊢
  dsimp only at hWhole ⊢
  have hWord : ofLittleEndian ((frameBytes type body).take 4) = 4 + body.length := by
    rw [take_frameBytes]
    exact ofLittleEndian_littleEndian_of_lt hBody
  rw [if_neg (by omega), hWord, if_neg (by omega), if_neg (by omega)] at hWhole
  rw [List.take_append_of_le_length (by omega), hWord, if_neg (by rw [List.length_append]; omega), if_neg (by omega),
    if_neg (by rw [List.length_append]; omega), List.drop_append_of_le_length (by omega),
    List.drop_append_of_le_length (by omega), List.take_append_of_le_length (by rw [List.length_drop]; omega),
    List.take_append_of_le_length (by rw [List.length_drop]; omega)]
  exact hWhole

/-- A descriptor on which a frame and more have arrived is left with just that more. -/
theorem recvFrameFrom_frameBytes (hType : type < 2 ^ 32) (hBody : 4 + body.length < 2 ^ 32)
    (hBytes : fd.bytes = frameBytes type body ++ raw) {type' : Nat} {body' : Bytes} {left : Incoming}
    (h : recvFrameFrom fd = .ok ((type', body'), left)) : type' = type ∧ body' = body ∧ left.bytes = raw := by
  obtain ⟨hFrame, hLeft⟩ := recvFrameFrom_exact h
  rw [hBytes, recvFrame_append hType hBody] at hFrame
  cases hFrame
  refine ⟨rfl, rfl, ?_⟩
  have hLength := length_frameBytes type body
  have hWord : ofLittleEndian ((frameBytes type body ++ raw).take 4) = 4 + body.length := by
    rw [List.take_append_of_le_length (by omega), take_frameBytes]
    exact ofLittleEndian_littleEndian_of_lt hBody
  rw [hBytes, hWord, List.take_left' (by omega)] at hLeft
  exact (List.append_cancel_left hLeft).symm

/-- An attach that gets through takes the reply of the daemon, however it comes in pieces, and leaves on the data
channel every byte behind it. -/
theorem attachSession_takes_reply (hType : type < 2 ^ 32) (hBody : 4 + body.length < 2 ^ 32)
    (hBytes : x.fd.bytes = frameBytes type body ++ raw) (hReached : x.refusal = none)
    (hSent : (attachRequest x.bufAlloc id).oom = false ∧
      (writeAll x.writes (attachRequest x.bufAlloc id).data).2 = true)
    (hSound : .failed ∉ x.fd.calls) (hMany : x.fd.bytes.length < deliveries x.fd.calls) :
    if type = EpiMsgType.attached.code then ∃ fd, epimoneClientAttachSession id x = .ok fd ∧ fd.bytes = raw
    else epimoneClientAttachSession id x =
      .error ((replyIsError x.rdAlloc type body).getD (clientError "unexpected reply to ATTACH")) := by
  have hFrame : (recvFrameFrom x.fd).map Prod.fst = .ok (type, body) := by
    rw [recvFrameFrom_patient hSound hMany, hBytes, recvFrame_append hType hBody]
  unfold epimoneClientAttachSession
  rw [hReached]
  dsimp only
  rw [hSent.1, hSent.2]
  cases hRead : recvFrameFrom x.fd with
  | error e =>
    rw [hRead] at hFrame
    cases hFrame
  | ok read =>
    obtain ⟨⟨type', body'⟩, fd⟩ := read
    obtain ⟨rfl, rfl, hRaw⟩ := recvFrameFrom_frameBytes hType hBody hBytes hRead
    split
    · rename_i hAttached
      exact ⟨fd, if_pos hAttached, hRaw⟩
    · rename_i hOther
      exact if_neg hOther

end Attaching

/-- The reply and two bytes of output come a byte at a time, with a signal in between. -/
def droppingIn : AttachExchange :=
  { refusal := none
    bufAlloc := fun _ => true
    writes := [.wrote 3, .intr, .wrote 100]
    writeError := []
    fd := ⟨frameBytes EpiMsgType.attached.code [7] ++ [111, 107], .got 0 :: .intr :: List.replicate 11 (.got 0)⟩
    rdAlloc := fun _ => true }

theorem attachSession_takes_reply_droppingIn :
    ∃ fd, epimoneClientAttachSession 1 droppingIn = .ok fd ∧ fd.bytes = [111, 107] :=
  attachSession_takes_reply (x := droppingIn) (by decide) (by decide) rfl rfl (by decide) (by decide) (by decide)

end Epimone.Client
