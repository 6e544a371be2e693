import Epimone.Wire

/-! # What the buffers hold

`Filled` follows an output buffer through the calls that build a message: the
bytes it holds unless an allocation failed, and that without a failure it never
reports one. A message ends as one frame, length and type in front of the body.
-/
set_option autoImplicit false

namespace Epimone

@[simp] theorem length_littleEndian (width v : Nat) : (littleEndian width v).length = width := by
  induction width generalizing v with
  | zero => rfl
  | succ width ih => rw [littleEndian, List.length_cons, ih]

theorem ofLittleEndian_littleEndian (width v : Nat) :
    ofLittleEndian (littleEndian width v) = v % 256 ^ width := by
  induction width generalizing v with
  | zero => rw [littleEndian, ofLittleEndian, Nat.pow_zero, Nat.mod_one]
  | succ width ih =>
    have hDigit : v % 2 ^ 8 = v % 256 := rfl
    rw [littleEndian, ofLittleEndian, ih, UInt8.toNat_ofNat', hDigit, Nat.pow_succ', Nat.mod_mul]

theorem ofLittleEndian_littleEndian_of_lt {width v : Nat} (h : v < 256 ^ width) :
    ofLittleEndian (littleEndian width v) = v := by
  rw [ofLittleEndian_littleEndian, Nat.mod_eq_of_lt h]

theorem ofLittleEndian_lt (bytes : Bytes) : ofLittleEndian bytes < 256 ^ bytes.length := by
  induction bytes with
  | nil => exact Nat.one_pos
  | cons b bytes ih =>
    have hByte : b.toNat < 256 := b.toNat_lt
    rw [ofLittleEndian, List.length_cons, Nat.pow_succ]
    omega

theorem ofLittleEndian_append (a b : Bytes) :
    ofLittleEndian (a ++ b) = ofLittleEndian a + 256 ^ a.length * ofLittleEndian b := by
  induction a with
  | nil => simp [ofLittleEndian]
  | cons x a ih =>
    rw [List.cons_append, ofLittleEndian, ih, ofLittleEndian, List.length_cons, Nat.pow_succ', Nat.mul_add,
      Nat.mul_assoc, Nat.add_assoc]

theorem ofLittleEndian_take_eight (p : Bytes) (h : 4 ≤ p.length) :
    ofLittleEndian (p.take 8) = ofLittleEndian (p.take 4) + ofLittleEndian ((p.drop 4).take 4) * 2 ^ 32 := by
  have hSplit : p.take 8 = p.take 4 ++ (p.drop 4).take 4 := by
    rw [← List.take_append_drop 4 (p.take 8), List.take_take, List.drop_take]
    rfl
  have hHalf : 256 ^ 4 = 2 ^ 32 := by decide
  rw [hSplit, ofLittleEndian_append, List.length_take_of_le h, hHalf, Nat.mul_comm]

def u64Bytes (v : Nat) : Bytes := littleEndian 4 (v % 2 ^ 32) ++ littleEndian 4 (v / 2 ^ 32 % 2 ^ 32)

def blobBytes (p : Bytes) : Bytes := littleEndian 4 p.length ++ p

def strBytes (s : Bytes) : Bytes := blobBytes (cString s)

@[simp] theorem length_u64Bytes (v : Nat) : (u64Bytes v).length = 8 := by simp [u64Bytes]

@[simp] theorem length_blobBytes (p : Bytes) : (blobBytes p).length = 4 + p.length := by
  simp [blobBytes]

/-- A control message as it stands on the wire. -/
def frameBytes (type : Nat) (body : Bytes) : Bytes :=
  littleEndian 4 (4 + body.length) ++ (littleEndian 4 type ++ body)

/-- The length word counts the bytes that follow it, and the type word comes next. -/
structure WellFormed (frame : Bytes) (type : Nat) : Prop where
  complete : 8 ≤ frame.length
  length_eq : ofLittleEndian (frame.take 4) = (frame.drop 4).length
  type_eq : ofLittleEndian ((frame.drop 4).take 4) = type

theorem length_frameBytes (type : Nat) (body : Bytes) : (frameBytes type body).length = 8 + body.length := by
  simp only [frameBytes, List.length_append, length_littleEndian]
  omega

theorem take_frameBytes (type : Nat) (body : Bytes) :
    (frameBytes type body).take 4 = littleEndian 4 (4 + body.length) :=
  List.take_left' (length_littleEndian _ _)

theorem drop_frameBytes (type : Nat) (body : Bytes) :
    (frameBytes type body).drop 4 = littleEndian 4 type ++ body :=
  List.drop_left' (length_littleEndian _ _)

theorem wellFormed_frameBytes {type : Nat} {body : Bytes} (hType : type < 2 ^ 32)
    (hBody : 4 + body.length < 2 ^ 32) : WellFormed (frameBytes type body) type := by
  constructor
  · rw [length_frameBytes]
    exact Nat.le_add_right _ _
  · rw [take_frameBytes, drop_frameBytes, ofLittleEndian_littleEndian_of_lt hBody]
    simp
  · rw [drop_frameBytes, List.take_left' (length_littleEndian _ _)]
    exact ofLittleEndian_littleEndian_of_lt hType

theorem type_of_frameBytes_prefix {type type' : Nat} {body body' rest : Bytes} (hType : type < 2 ^ 32)
    (hType' : type' < 2 ^ 32) (h : frameBytes type body = frameBytes type' body' ++ rest) :
    type = type' := by
  have hDrop : littleEndian 4 type ++ body = littleEndian 4 type' ++ (body' ++ rest) := by
    have hTail := congrArg (List.drop 4) h
    rw [List.drop_append_of_le_length (by rw [length_frameBytes]; omega)] at hTail
    rwa [drop_frameBytes, drop_frameBytes, List.append_assoc] at hTail
  have hWord : littleEndian 4 type = littleEndian 4 type' := (List.append_inj hDrop (by simp)).1
  rw [← @ofLittleEndian_littleEndian_of_lt 4 type hType, hWord, ofLittleEndian_littleEndian_of_lt hType']

theorem EpiMsgType.code_lt (kind : EpiMsgType) : kind.code < 2 ^ 32 := by cases kind <;> decide

theorem EpiMsgType.code_injective {kind kind' : EpiMsgType} (h : kind.code = kind'.code) :
    kind = kind' := by
  cases kind <;> cases kind' <;> first | rfl | cases h

theorem EpiMsgType.code_ofRequest {type : Nat} {request : EpiMsgType}
    (h : EpiMsgType.ofRequest type = some request) : request.code = type := by
  unfold EpiMsgType.ofRequest at h
  split at h <;> cases h <;> rfl

/-- The answer that the protocol has for each request. -/
def EpiMsgType.reply : EpiMsgType → EpiMsgType
  | .create => .id
  | .list => .listReply
  | .attach => .attached
  | .kill | .resize | .detach | .groupSet | .groupAdd | .groupRemove => .ok
  | .peek => .peekReply
  | .groupNew => .groupId
  | .groupList => .groupListReply
  | _ => .error

/-- The buffer holds these bytes unless it has reported a failure, and without a failing allocation
it reports none. -/
structure EpiBuf.Filled (alloc : Nat → Bool) (b : EpiBuf) (bytes : Bytes) : Prop where
  data_eq : b.oom = false → b.data = bytes
  sound : (∀ n, alloc n = true) → b.oom = false

namespace EpiBuf.Filled

variable {alloc : Nat → Bool} {b : EpiBuf} {bytes : Bytes}

theorem putBytes (h : b.Filled alloc bytes) (p : Bytes) :
    (epiBufPutBytes alloc b p).Filled alloc (bytes ++ p) := by
  unfold epiBufPutBytes epiBufReserve
  dsimp only
  split
  · rename_i b' hReserve
    split at hReserve
    · obtain ⟨rfl, -⟩ := Prod.mk.inj hReserve
      exact ⟨fun hOom => by rw [← h.data_eq hOom], h.sound⟩
    · split at hReserve
      · obtain ⟨rfl, -⟩ := Prod.mk.inj hReserve
        exact ⟨fun hOom => by rw [← h.data_eq hOom], h.sound⟩
      · cases (Prod.mk.inj hReserve).2
  · rename_i b' hReserve
    split at hReserve
    · cases (Prod.mk.inj hReserve).2
    · split at hReserve
      · cases (Prod.mk.inj hReserve).2
      · rename_i hFails
        obtain ⟨rfl, -⟩ := Prod.mk.inj hReserve
        exact ⟨fun hOom => by simp at hOom, fun hAlloc => absurd (hAlloc _) hFails⟩

theorem putU8 (h : b.Filled alloc bytes) (v : Nat) :
    (epiBufPutU8 alloc b v).Filled alloc (bytes ++ littleEndian 1 v) := h.putBytes _

theorem putU16 (h : b.Filled alloc bytes) (v : Nat) :
    (epiBufPutU16 alloc b v).Filled alloc (bytes ++ littleEndian 2 v) := h.putBytes _

theorem putU32 (h : b.Filled alloc bytes) (v : Nat) :
    (epiBufPutU32 alloc b v).Filled alloc (bytes ++ littleEndian 4 v) := h.putBytes _

theorem putU64 (h : b.Filled alloc bytes) (v : Nat) :
    (epiBufPutU64 alloc b v).Filled alloc (bytes ++ u64Bytes v) := by
  rw [u64Bytes, ← List.append_assoc]
  exact (h.putU32 _).putU32 _

theorem putBlob (h : b.Filled alloc bytes) (p : Bytes) :
    (epiBufPutBlob alloc b p).Filled alloc (bytes ++ blobBytes p) := by
  unfold epiBufPutBlob
  have hLength := h.putU32 p.length
  split
  · rename_i hNone
    obtain rfl := List.eq_nil_of_length_eq_zero hNone
    rw [blobBytes, List.append_nil]
    exact hLength
  · rw [blobBytes, ← List.append_assoc]
    exact hLength.putBytes p

theorem putStr (h : b.Filled alloc bytes) (s : Bytes) :
    (epiBufPutStr alloc b s).Filled alloc (bytes ++ strBytes s) := h.putBlob _

theorem foldl {α : Type} {P : EpiBuf → α → EpiBuf} {E : α → Bytes} (items : List α)
    (hPut : ∀ (b : EpiBuf) (bytes : Bytes), ∀ x ∈ items, b.Filled alloc bytes →
      (P b x).Filled alloc (bytes ++ E x))
    (h : b.Filled alloc bytes) : (items.foldl P b).Filled alloc (bytes ++ items.flatMap E) := by
  induction items generalizing b bytes with
  | nil => simpa using h
  | cons x items ih =>
    rw [List.foldl_cons, List.flatMap_cons, ← List.append_assoc]
    exact ih (fun b bytes y hy => hPut b bytes y (List.mem_cons_of_mem _ hy))
      (hPut b bytes x List.mem_cons_self h)

theorem init : epiBufInit.Filled alloc [] := ⟨fun _ => rfl, fun _ => rfl⟩

end EpiBuf.Filled

/-- A message under construction: the room for the length, the type, and the body so far. -/
def EpiBuf.Opened (alloc : Nat → Bool) (b : EpiBuf) (kind : EpiMsgType) (body : Bytes) : Prop :=
  b.Filled alloc (littleEndian 4 0 ++ (littleEndian 4 kind.code ++ body))

section Message

variable {alloc : Nat → Bool} {b : EpiBuf} {kind : EpiMsgType} {body : Bytes}

theorem opened_epiMsgStart (kind : EpiMsgType) : (epiMsgStart alloc kind).Opened alloc kind [] := by
  have hStart := ((@EpiBuf.Filled.init alloc).putU32 0).putU32 kind.code
  rw [List.nil_append] at hStart
  unfold EpiBuf.Opened
  rw [List.append_nil]
  exact hStart

theorem EpiBuf.Opened.put {b' : EpiBuf} {more : Bytes} (h : b.Opened alloc kind body)
    (hPut : ∀ bytes, b.Filled alloc bytes → b'.Filled alloc (bytes ++ more)) :
    b'.Opened alloc kind (body ++ more) := by
  have hMore := hPut _ h
  simpa only [EpiBuf.Opened, List.append_assoc] using hMore

theorem EpiBuf.Opened.sealed (h : b.Opened alloc kind body) :
    (epiMsgEnd b).Filled alloc (frameBytes kind.code body) := by
  unfold epiMsgEnd
  constructor
  · intro hOom
    split
    · rename_i hSkip
      rw [if_pos hSkip] at hOom
      have hData := h.data_eq hOom
      have hShort : b.data.length < 4 := hSkip.resolve_left (by rw [hOom]; decide)
      rw [hData, List.length_append, length_littleEndian] at hShort
      omega
    · rename_i hSkip
      rw [if_neg hSkip] at hOom
      rw [h.data_eq hOom, List.drop_left' (length_littleEndian _ _), frameBytes]
      simp
  · intro hAlloc
    split
    · exact h.sound hAlloc
    · exact h.sound hAlloc

end Message

section Readers

variable {alloc : Nat → Bool} {r : EpiRd}

theorem epiRdU32_ok (h : (epiRdU32 r).2.err = false) :
    r.err = false ∧ r.pos + 4 ≤ r.data.length ∧
      epiRdU32 r = (ofLittleEndian ((r.data.drop r.pos).take 4), { r with pos := r.pos + 4 }) := by
  unfold epiRdU32 epiRdUint at h ⊢
  split at h
  · cases h
  · rename_i hMore
    rw [if_neg hMore]
    exact ⟨h, by omega, rfl⟩

theorem epiRdU64_ok (h : (epiRdU64 r).2.err = false) :
    r.err = false ∧
      epiRdU64 r = (ofLittleEndian ((r.data.drop r.pos).take 8), { r with pos := r.pos + 8 }) := by
  have hEq : epiRdU64 r = ((epiRdU32 r).1 + (epiRdU32 (epiRdU32 r).2).1 * 2 ^ 32, (epiRdU32 (epiRdU32 r).2).2) := rfl
  rw [hEq] at h
  obtain ⟨hErr, _, hHigh⟩ := epiRdU32_ok h
  obtain ⟨hErr', hMore, hLow⟩ := epiRdU32_ok hErr
  have hLong : 4 ≤ (r.data.drop r.pos).length := by
    rw [List.length_drop]
    omega
  rw [hEq, hHigh, hLow, ofLittleEndian_take_eight _ hLong, List.drop_drop]
  exact ⟨hErr', rfl⟩

/-- A blob that is read without an error is the one on the wire, an empty one included. -/
theorem epiRdBlob_ok (h : (epiRdBlob alloc r).2.err = false) :
    r.err = false ∧ (epiRdBlob alloc r).1.getD [] =
      (r.data.drop (r.pos + 4)).take (ofLittleEndian ((r.data.drop r.pos).take 4)) := by
  unfold epiRdBlob at h ⊢
  dsimp only at h ⊢
  split at h
  · cases h
  rename_i hGo
  rw [if_neg hGo]
  simp only [not_or, Bool.not_eq_true] at hGo
  obtain ⟨hErr, _, hWord⟩ := epiRdU32_ok hGo.1
  refine ⟨hErr, ?_⟩
  rw [hWord] at h ⊢
  dsimp only at h ⊢
  split
  · rename_i hNone
    rw [hNone, List.take_zero]
    rfl
  · rename_i hSome
    rw [if_neg hSome] at h
    split
    · rfl
    · rename_i hAlloc
      rw [if_neg hAlloc] at h
      cases h

end Readers

end Epimone
