import Epimone.DecoderSafety

/-! # What is written is read

`Decodes` says that a decoder, standing before these bytes in any body of less
than 2^32 bytes, takes exactly them and returns this value. It composes as the
decoders do; what follows the bytes matters only to an optional trailing field.
-/
set_option autoImplicit false

namespace Epimone

open Program Probe

/-- Followed by `rest`, the bytes are taken and stand for the value. -/
def Decodes {α : Type} (rest : Bytes) (d : Decoder α) (bytes : Bytes) (v : α) : Prop :=
  ∀ (p : Probe) (taken : Bytes), p.rd = ⟨taken ++ (bytes ++ rest), taken.length, false⟩ →
    p.rd.data.length < 2 ^ 32 →
      value d p = v ∧ (after d p).rd = ⟨taken ++ (bytes ++ rest), taken.length + bytes.length, false⟩

/-- The value that a decoder finds in a body, without an error. -/
def Yields {α : Type} (d : Decoder α) (body : Bytes) (v : α) : Prop :=
  value d (.start body) = v ∧ (after d (.start body)).rd.err = false

/-- Decoding from the start of a body; what follows the bytes stays unread. -/
theorem Decodes.yields {α : Type} {rest : Bytes} {d : Decoder α} {bytes : Bytes} {v : α}
    (h : Decodes rest d bytes v) (hSize : (bytes ++ rest).length < 2 ^ 32) : Yields d (bytes ++ rest) v := by
  obtain ⟨hValue, hRd⟩ := h (.start (bytes ++ rest)) [] rfl hSize
  exact ⟨hValue, congrArg EpiRd.err hRd⟩

theorem Decodes.complete {α : Type} {d : Decoder α} {bytes : Bytes} {v : α} (h : Decodes [] d bytes v)
    (hSize : bytes.length < 2 ^ 32) :
    value d (.start bytes) = v ∧ (after d (.start bytes)).rd = ⟨bytes, bytes.length, false⟩ := by
  have hStart : (start bytes).rd = ⟨[] ++ (bytes ++ []), ([] : Bytes).length, false⟩ := by
    rw [List.append_nil]
    rfl
  obtain ⟨hValue, hRd⟩ := h (.start bytes) [] hStart hSize
  refine ⟨hValue, hRd.trans ?_⟩
  simp

variable {α β : Type} {rest bytes more : Bytes} {d : Decoder α} {v : α}

theorem Decodes.pure (v : α) : Decodes rest (pure v) [] v :=
  fun _ _ hRd _ => ⟨rfl, hRd⟩

theorem Decodes.bind {f : α → Decoder β} {w : β} (h : Decodes (more ++ rest) d bytes v)
    (hRest : Decodes rest (f v) more w) : Decodes rest (d >>= f) (bytes ++ more) w := by
  intro p taken hRd hSize
  have hBody : taken ++ (bytes ++ more ++ rest) = taken ++ (bytes ++ (more ++ rest)) := by
    rw [List.append_assoc]
  rw [hBody] at hRd ⊢
  obtain ⟨hValue, hNext⟩ := h p taken hRd hSize
  have hBody' : taken ++ (bytes ++ (more ++ rest)) = (taken ++ bytes) ++ (more ++ rest) := by
    rw [List.append_assoc]
  rw [hRd] at hSize
  rw [hBody', ← List.length_append] at hNext
  obtain ⟨hLast, hEnd⟩ := hRest (after d p) (taken ++ bytes) hNext (by rw [hNext, ← hBody']; exact hSize)
  rw [value_bind, after_bind, hValue]
  refine ⟨hLast, hEnd.trans ?_⟩
  rw [hBody', List.length_append, List.length_append, Nat.add_assoc]

theorem Decodes.map (f : α → β) (h : Decodes rest d bytes v) :
    Decodes rest (d >>= fun x => Pure.pure (f x)) bytes (f v) := by
  have hBoth : Decodes rest (d >>= fun x => Pure.pure (f x)) (bytes ++ []) (f v) := .bind h (.pure _)
  rwa [List.append_nil] at hBoth

theorem Decodes.note (a : Access) : Decodes rest (Decoder.note a) [] () :=
  fun _ _ hRd _ => ⟨rfl, hRd⟩

/-- The cursor stands before the bytes. -/
structure Before (p : Probe) (taken bytes rest : Bytes) : Prop where
  rd_eq : p.rd = ⟨taken ++ (bytes ++ rest), taken.length, false⟩
  size : p.rd.data.length < 2 ^ 32

variable {p : Probe} {taken : Bytes}

theorem Before.length (h : Before p taken bytes rest) :
    taken.length + bytes.length + rest.length < 2 ^ 32 := by
  have hSize := h.size
  rw [h.rd_eq] at hSize
  simp only [List.length_append] at hSize
  omega

theorem Before.short_eq (h : Before p taken bytes rest) : p.short bytes.length = false := by
  have hLength := h.length
  have hSum : sizeAdd taken.length bytes.length = taken.length + bytes.length := sizeAdd_of_lt (by omega)
  rw [short, h.rd_eq, hSum]
  simp

theorem Before.bytesAt_eq (h : Before p taken bytes rest) : p.bytesAt bytes.length = bytes := by
  rw [bytesAt, h.rd_eq]
  apply List.ext_getElem
  · simp
  · intro i hi hi'
    simp [List.getD_eq_getElem?_getD, List.getElem?_append_right, List.getElem?_append_left hi',
      List.getElem?_eq_getElem hi']

theorem Before.advance_rd (h : Before p taken bytes rest) :
    (p.advance bytes.length).rd = ⟨taken ++ (bytes ++ rest), taken.length + bytes.length, false⟩ := by
  have hLength := h.length
  have hSum : sizeAdd taken.length bytes.length = taken.length + bytes.length := sizeAdd_of_lt (by omega)
  change { p.rd with pos := sizeAdd p.rd.pos bytes.length } = _
  rw [h.rd_eq, hSum]

theorem Decodes.rdUint (bytes : Bytes) :
    Decodes rest (Decoder.rdUint bytes.length) bytes (ofLittleEndian bytes) := by
  intro p taken hRd hSize
  have hBefore : Before p taken bytes rest := ⟨hRd, hSize⟩
  obtain ⟨hValue, hAfter⟩ := Decoder.rdUint_fits hBefore.short_eq
  rw [hValue, hAfter, hBefore.bytesAt_eq]
  exact ⟨rfl, hBefore.advance_rd⟩

theorem Decodes.littleEndian (width v : Nat) :
    Decodes rest (Decoder.rdUint width) (Epimone.littleEndian width v) (v % 256 ^ width) := by
  have hWord := @Decodes.rdUint rest (Epimone.littleEndian width v)
  rwa [length_littleEndian, ofLittleEndian_littleEndian] at hWord

theorem Decodes.rdU8 (v : Nat) : Decodes rest Decoder.rdU8 (Epimone.littleEndian 1 v) (v % 2 ^ 8) :=
  .littleEndian 1 v

theorem Decodes.rdU16 (v : Nat) : Decodes rest Decoder.rdU16 (Epimone.littleEndian 2 v) (v % 2 ^ 16) :=
  .littleEndian 2 v

theorem Decodes.rdU32 (v : Nat) : Decodes rest Decoder.rdU32 (Epimone.littleEndian 4 v) (v % 2 ^ 32) :=
  .littleEndian 4 v

theorem Decodes.rdU64 (v : Nat) : Decodes rest Decoder.rdU64 (u64Bytes v) (v % 2 ^ 64) := by
  have hWords : v % 2 ^ 32 % 2 ^ 32 + v / 2 ^ 32 % 2 ^ 32 % 2 ^ 32 * 2 ^ 32 = v % 2 ^ 64 := by omega
  rw [u64Bytes, ← hWords, ← List.append_nil (Epimone.littleEndian 4 (v / 2 ^ 32 % 2 ^ 32))]
  exact .bind (.rdU32 _) (.bind (.rdU32 _) (.pure _))

section Allocating

variable {alloc : Nat → Bool} (hAlloc : ∀ n, alloc n = true)

include hAlloc

theorem Decodes.takeStr (s : Bytes) : Decodes rest (Decoder.takeStr alloc s.length) s (some s) := by
  intro p taken hRd hSize
  have hBefore : Before p taken s rest := ⟨hRd, hSize⟩
  have hFits : (p.rd.err || p.short s.length) = false := by
    rw [hBefore.short_eq, hRd]
    rfl
  obtain ⟨hValue, hAfter⟩ := Decoder.takeStr_fits alloc hFits
  rw [hValue, hAfter, if_pos (hAlloc _), if_pos (hAlloc _), hBefore.bytesAt_eq]
  exact ⟨rfl, hBefore.advance_rd⟩

theorem Decodes.rdStr (s : Bytes) : Decodes rest (Decoder.rdStr alloc) (blobBytes s) (some s) := by
  intro p taken hRd hSize
  have hLength := (Before.mk hRd hSize).length
  rw [length_blobBytes] at hLength
  have hWord : s.length % 2 ^ 32 = s.length := Nat.mod_eq_of_lt (by omega)
  have hCount : Decodes (s ++ rest) Decoder.rdU32 (Epimone.littleEndian 4 s.length) s.length := by
    have hRead := @Decodes.rdU32 (s ++ rest) s.length
    rwa [hWord] at hRead
  exact Decodes.bind hCount (Decodes.takeStr hAlloc s) p taken hRd hSize

theorem Decodes.takeBlob (s : Bytes) :
    Decodes rest (Decoder.takeBlob alloc s.length) s (if s = [] then none else some s) := by
  intro p taken hRd hSize
  have hBefore : Before p taken s rest := ⟨hRd, hSize⟩
  have hFits : (p.rd.err || p.short s.length) = false := by
    rw [hBefore.short_eq, hRd]
    rfl
  cases s with
  | nil =>
    obtain ⟨hValue, hAfter⟩ := Decoder.takeBlob_empty alloc hFits
    exact ⟨hValue, (congrArg Probe.rd hAfter).trans hRd⟩
  | cons b s =>
    obtain ⟨hValue, hAfter⟩ := Decoder.takeBlob_fits alloc hFits (by simp)
    rw [hValue, hAfter, if_pos (hAlloc _), if_pos (hAlloc _), hBefore.bytesAt_eq, if_neg (by simp)]
    exact ⟨rfl, hBefore.advance_rd⟩

theorem Decodes.rdBlob (s : Bytes) :
    Decodes rest (Decoder.rdBlob alloc) (blobBytes s) (if s = [] then none else some s) := by
  intro p taken hRd hSize
  have hLength := (Before.mk hRd hSize).length
  rw [length_blobBytes] at hLength
  have hWord : s.length % 2 ^ 32 = s.length := Nat.mod_eq_of_lt (by omega)
  have hCount : Decodes (s ++ rest) Decoder.rdU32 (Epimone.littleEndian 4 s.length) s.length := by
    have hRead := @Decodes.rdU32 (s ++ rest) s.length
    rwa [hWord] at hRead
  exact Decodes.bind hCount (Decodes.takeBlob hAlloc s) p taken hRd hSize

theorem Decodes.strings (items : List Bytes) :
    Decodes rest (Decoder.strings alloc items.length) (items.flatMap blobBytes) (some items) := by
  induction items with
  | nil => exact .pure _
  | cons s items ih =>
    rw [List.length_cons, Decoder.strings_succ, List.flatMap_cons]
    have hTurn : Decodes (items.flatMap blobBytes ++ rest)
        (do Decoder.note (.turn .strings); Decoder.rdStr alloc) ([] ++ blobBytes s) (some s) :=
      .bind (.note _) (.rdStr hAlloc s)
    exact .bind hTurn (.map (Option.map (s :: ·)) ih)

/-- An array that is read back as the pointer NULL if it has no elements. -/
theorem Decodes.strArray {items : List Bytes} (hBound : items.length ≤ 4096) :
    Decodes rest (Decoder.strArray alloc)
      (Epimone.littleEndian 4 items.length ++ items.flatMap blobBytes)
      (if items = [] then none else some items) := by
  have hWord : items.length % 2 ^ 32 = items.length := Nat.mod_eq_of_lt (by omega)
  have hCount := @Decodes.rdU32 (items.flatMap blobBytes ++ rest) items.length
  rw [hWord] at hCount
  refine hCount.bind ?_
  intro p taken hRd hSize
  have hErr : p.rd.err = false := by rw [hRd]
  change value (if p.rd.err = true then _ else _) p = _ ∧ (after (if p.rd.err = true then _ else _) p).rd = _
  rw [if_neg (by rw [hErr]; decide)]
  cases items with
  | nil => exact ⟨rfl, hRd⟩
  | cons s items =>
    rw [if_neg (by simp), if_neg (by omega)]
    change value (Decoder.note _ >>= fun _ => if alloc p.rd.pos = true then _ else _) p = _ ∧
      (after (Decoder.note _ >>= fun _ => if alloc p.rd.pos = true then _ else _) p).rd = _
    rw [if_pos (hAlloc _)]
    have hArray := @Decodes.strings rest alloc hAlloc (s :: items)
    exact Decodes.bind (.note _) hArray p taken hRd hSize

end Allocating

theorem Decodes.each {items : List β} {enc : β → Bytes} {val : β → α} (loop : DecodingLoop)
    (hItem : ∀ x ∈ items, ∀ rest, Decodes rest d (enc x) (val x)) :
    Decodes rest (Decoder.each loop d items.length) (items.flatMap enc) (items.map val) := by
  induction items with
  | nil => exact .pure _
  | cons x items ih =>
    have hTurn : Decodes (items.flatMap enc ++ rest) (do Decoder.note (.turn loop); d) ([] ++ enc x) (val x) :=
      .bind (.note _) (hItem x List.mem_cons_self _)
    have hItems := ih fun y hy => hItem y (List.mem_cons_of_mem _ hy)
    have hWhole : Decodes rest (do
        let head ← (do Decoder.note (.turn loop); d)
        let tail ← Decoder.each loop d items.length
        return head :: tail) ([] ++ enc x ++ items.flatMap enc) (val x :: items.map val) :=
      .bind hTurn (.map (val x :: ·) hItems)
    rw [List.length_cons, List.flatMap_cons, List.map_cons]
    intro p taken hRd hSize
    have hErr : p.rd.err = false := by rw [hRd]
    change value (if (!p.rd.err) = true then _ else _) p = _ ∧
      (after (if (!p.rd.err) = true then _ else _) p).rd = _
    rw [if_pos (by rw [hErr]; rfl)]
    exact hWhole p taken hRd hSize

theorem Decodes.absent {item : Decoder α} (absent : α) :
    Decodes [] (Decoder.optional item absent) [] absent := by
  intro p taken hRd _
  have hMore : p.rd.more = false := by
    rw [hRd]
    simp [EpiRd.more]
  change value (if p.rd.more = true then _ else _) p = _ ∧ (after (if p.rd.more = true then _ else _) p).rd = _
  rw [hMore]
  exact ⟨rfl, hRd⟩

theorem Decodes.present (absent : α) (hSome : bytes ≠ []) (h : Decodes rest d bytes v) :
    Decodes rest (Decoder.optional d absent) bytes v := by
  intro p taken hRd hSize
  have hLength : 0 < bytes.length := List.length_pos_of_ne_nil hSome
  have hMore : p.rd.more = true := by
    rw [hRd, EpiRd.more]
    simp
    omega
  change value (if p.rd.more = true then _ else _) p = _ ∧ (after (if p.rd.more = true then _ else _) p).rd = _
  rw [hMore]
  exact h p taken hRd hSize

end Epimone
