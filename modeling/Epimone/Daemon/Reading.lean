import Epimone.Daemon.Requests
import Epimone.DecoderSafety

/-! # What the handlers read

The readers that the handlers of requests call are the decoders without their
log. Below 2^63 no sum of sizes wraps, so on the cursor of a safe probe the two
give the same value and leave the same cursor, and each handler starts with its
decoder.
-/
set_option autoImplicit false

namespace Epimone.Daemon

open Program

def Reads {α : Type} (d : Decoder α) (f : EpiRd → α × EpiRd) : Prop :=
  ∀ p : Probe, p.Safe → f p.rd = (value d p, (after d p).rd)

theorem Reads.of_gives {α : Type} {d : Decoder α} {f : EpiRd → α × EpiRd} {p q : Probe} {v : α}
    (hReads : Reads d f) (hSafe : p.Safe) (h : Gives d p v q) : f p.rd = (v, q.rd) := by
  obtain ⟨rfl, rfl⟩ := h
  exact hReads p hSafe

section Readers

variable {p : Probe} {alloc : Nat → Bool}

theorem short_eq (h : p.Safe) {count : Nat} (hCount : count < 2 ^ 32) :
    p.short count = decide (p.rd.data.length < p.rd.pos + count) := by
  rw [Probe.short, h.sizeAdd_eq hCount]

theorem bytesAt_eq {count : Nat} (h : p.rd.pos + count ≤ p.rd.data.length) :
    p.bytesAt count = (p.rd.data.drop p.rd.pos).take count := by
  apply List.ext_getElem
  · simp [Probe.bytesAt]
    omega
  · intro i hi hi'
    have hIndex : p.rd.pos + i < p.rd.data.length := by
      simp [Probe.bytesAt] at hi
      omega
    simp [Probe.bytesAt, List.getD_eq_getElem?_getD, List.getElem?_eq_getElem hIndex]

theorem advance_rd (h : p.Safe) {count : Nat} (hCount : count < 2 ^ 32) :
    (p.advance count).rd = { p.rd with pos := p.rd.pos + count } := by
  change { p.rd with pos := sizeAdd p.rd.pos count } = _
  rw [h.sizeAdd_eq hCount]

theorem reads_rdUint {width : Nat} (hWidth : width < 2 ^ 32) :
    Reads (Decoder.rdUint width) (epiRdUint width) := by
  intro p h
  have hShort := short_eq h hWidth
  unfold epiRdUint
  split
  · rename_i hLess
    obtain ⟨hValue, hAfter⟩ := Decoder.rdUint_short (hShort.trans (decide_eq_true hLess))
    rw [hValue, hAfter]
    rfl
  · rename_i hMore
    obtain ⟨hValue, hAfter⟩ := Decoder.rdUint_fits (hShort.trans (decide_eq_false hMore))
    rw [hValue, hAfter, bytesAt_eq (Nat.not_lt.mp hMore)]
    exact congrArg (Prod.mk _) (advance_rd h hWidth).symm

theorem reads_rdU16 : Reads Decoder.rdU16 epiRdU16 := reads_rdUint (by decide)

theorem reads_rdU32 : Reads Decoder.rdU32 epiRdU32 := reads_rdUint (by decide)

theorem reads_rdU64 : Reads Decoder.rdU64 epiRdU64 := by
  intro p h
  obtain ⟨hSafe, _⟩ := @Decoder.obeys_rdU32 .strings p h
  unfold epiRdU64
  rw [reads_rdU32 p h]
  dsimp only
  rw [reads_rdU32 _ hSafe]
  rfl

theorem reads_rdStr : Reads (Decoder.rdStr alloc) (epiRdStr alloc) := by
  intro p h
  obtain ⟨hSafe, _⟩ := @Decoder.obeys_rdU32 .strings p h
  have hLt := Decoder.value_rdU32_lt p
  unfold epiRdStr
  rw [reads_rdU32 p h, Decoder.rdStr, value_bind, after_bind]
  dsimp only
  generalize value Decoder.rdU32 p = n at *
  generalize after Decoder.rdU32 p = q at *
  have hShort := short_eq hSafe hLt
  split
  · rename_i hStop
    have hFails : (q.rd.err || q.short n) = true := by
      rw [hShort]
      simpa using hStop
    obtain ⟨hValue, hAfter⟩ := Decoder.takeStr_short alloc hFails
    rw [hValue, hAfter]
    rfl
  · rename_i hGo
    have hFits : (q.rd.err || q.short n) = false := by
      rw [hShort]
      simpa using hGo
    obtain ⟨hValue, hAfter⟩ := Decoder.takeStr_fits alloc hFits
    rw [hValue, hAfter, bytesAt_eq (Nat.not_lt.mp fun hLess => hGo (Or.inr hLess))]
    split
    · exact congrArg (Prod.mk _) (advance_rd hSafe hLt).symm
    · rfl

theorem reads_rdBlob : Reads (Decoder.rdBlob alloc) (epiRdBlob alloc) := by
  intro p h
  obtain ⟨hSafe, _⟩ := @Decoder.obeys_rdU32 .strings p h
  have hLt := Decoder.value_rdU32_lt p
  unfold epiRdBlob
  rw [reads_rdU32 p h, Decoder.rdBlob, value_bind, after_bind]
  dsimp only
  generalize value Decoder.rdU32 p = n at *
  generalize after Decoder.rdU32 p = q at *
  have hShort := short_eq hSafe hLt
  split
  · rename_i hStop
    have hFails : (q.rd.err || q.short n) = true := by
      rw [hShort]
      simpa using hStop
    obtain ⟨hValue, hAfter⟩ := Decoder.takeBlob_short alloc hFails
    rw [hValue, hAfter]
    rfl
  · rename_i hGo
    have hFits : (q.rd.err || q.short n) = false := by
      rw [hShort]
      simpa using hGo
    split
    · rename_i hNone
      subst hNone
      obtain ⟨hValue, hAfter⟩ := Decoder.takeBlob_empty alloc hFits
      rw [hValue, hAfter]
      rfl
    · rename_i hSome
      obtain ⟨hValue, hAfter⟩ := Decoder.takeBlob_fits alloc hFits hSome
      rw [hValue, hAfter, bytesAt_eq (Nat.not_lt.mp fun hLess => hGo (Or.inr hLess))]
      split
      · exact congrArg (Prod.mk _) (advance_rd hSafe hLt).symm
      · rfl

theorem reads_strings (count : Nat) (h : p.Safe) (hErr : p.rd.err = false) :
    readStrings alloc count p.rd =
      (value (Decoder.strings alloc count) p, (after (Decoder.strings alloc count) p).rd) := by
  induction count generalizing p with
  | zero => rfl
  | succ count ih =>
    have hTurn : (p.note (.turn .strings)).Safe := h.note trivial nofun
    obtain ⟨hSafe, _⟩ := @Decoder.obeys_rdStr .strings alloc _ hTurn
    have hRead : epiRdStr alloc p.rd =
        (value (do Decoder.note (.turn .strings); Decoder.rdStr alloc) p,
          (after (do Decoder.note (.turn .strings); Decoder.rdStr alloc) p).rd) :=
      reads_rdStr (p.note (.turn .strings)) hTurn
    have hErr : ∀ s, value (do Decoder.note (.turn .strings); Decoder.rdStr alloc) p = some s →
        (after (do Decoder.note (.turn .strings); Decoder.rdStr alloc) p).rd.err = false :=
      fun s hs => Decoder.err_of_rdStr hs
    change (after (do Decoder.note (.turn .strings); Decoder.rdStr alloc) p).Safe at hSafe
    have hSucc : (value (Decoder.strings alloc (count + 1)) p,
        (after (Decoder.strings alloc (count + 1)) p).rd) =
          (value (do Decoder.note (.turn .strings); Decoder.rdStr alloc) p).elim
            (none, (after (do Decoder.note (.turn .strings); Decoder.rdStr alloc) p).fail.rd) fun s =>
            ((value (Decoder.strings alloc count)
                (after (do Decoder.note (.turn .strings); Decoder.rdStr alloc) p)).map (s :: ·),
              (after (Decoder.strings alloc count)
                (after (do Decoder.note (.turn .strings); Decoder.rdStr alloc) p)).rd) := by
      rw [Decoder.strings_succ]
      simp only [value_bind, after_bind]
      cases value (Decoder.rdStr alloc) (after (Decoder.note (.turn .strings)) p) <;> rfl
    rw [readStrings, hRead, hSucc]
    generalize value (do Decoder.note (.turn .strings); Decoder.rdStr alloc) p = read at *
    generalize after (do Decoder.note (.turn .strings); Decoder.rdStr alloc) p = q at *
    cases read with
    | none => rfl
    | some s =>
      have hRest := ih hSafe (hErr s rfl)
      dsimp only
      rw [hRest]
      generalize value (Decoder.strings alloc count) q = strings
      cases strings <;> rfl

theorem reads_strArray : Reads (Decoder.strArray alloc) (readStrArray alloc) := by
  intro p h
  obtain ⟨hSafe, _⟩ := @Decoder.obeys_rdU32 .strings p h
  unfold readStrArray
  rw [reads_rdU32 p h, Decoder.strArray, value_bind, after_bind]
  dsimp only
  generalize value Decoder.rdU32 p = count at *
  generalize after Decoder.rdU32 p = q at *
  change _ = (value (if q.rd.err = true then _ else _) q, (after (if q.rd.err = true then _ else _) q).rd)
  split
  · rfl
  rename_i hErr
  split
  · rfl
  split
  · rfl
  rename_i hBound
  have hArray : (q.note (.array ((count + 1) * 8))).Safe :=
    hSafe.note (Nat.mul_le_mul_right 8 (by omega)) nofun
  have hStrings := @reads_strings _ alloc count hArray (Bool.not_eq_true _ ▸ hErr)
  cases hCalloc : alloc q.rd.pos with
  | true =>
    rw [if_neg (by decide), if_pos rfl]
    exact hStrings
  | false => rfl

theorem reads_optional {α : Type} {d : Decoder α} {f : EpiRd → α × EpiRd} (absent : α) (hReads : Reads d f) :
    Reads (Decoder.optional d absent) fun r => if r.more then f r else (absent, r) := by
  intro p h
  change (if p.rd.more = true then f p.rd else (absent, p.rd)) =
    (value (if p.rd.more = true then _ else _) p, (after (if p.rd.more = true then _ else _) p).rd)
  split
  · exact hReads p h
  · rfl

end Readers

/-! The calls with which each handler begins return the fields of the decoded request, and the last of
them leaves the cursor on which the handler decides whether the request was malformed. -/

section Handlers

variable {alloc : Nat → Bool} {body : Object} {p : Probe}

theorem session_reads {id : Nat} (h : Gives Decoder.rdU64 (.start body.bytes) id p) :
    epiRdU64 (epiRdInit body.bytes) = (id, p.rd) :=
  reads_rdU64.of_gives (Probe.safe_start body.bounded) h

theorem create_reads {request : CreateRequest}
    (h : Gives (Decoder.createRequest alloc) (.start body.bytes) request p) :
    ∃ r₁ r₂ r₃, epiRdStr alloc (epiRdInit body.bytes) = (request.cwd, r₁) ∧
      readStrArray alloc r₁ = (request.argv, r₂) ∧ readStrArray alloc r₂ = (request.env, r₃) ∧
        (if r₃.more then epiRdStr alloc r₃ else (none, r₃)) = (request.execPath, p.rd) := by
  have hStart := Probe.safe_start body.bounded
  obtain ⟨cwd, q, hCwd, h⟩ := h.of_bind
  obtain ⟨argv, q', hArgv, h⟩ := h.of_bind
  obtain ⟨env, q'', hEnv, h⟩ := h.of_bind
  obtain ⟨execPath, _, hExec, h⟩ := h.of_bind
  obtain ⟨rfl, rfl⟩ := h.of_pure
  have hq := (@Decoder.obeys_rdStr .strings alloc).inv_of_gives hStart hCwd
  have hq' := (@Decoder.obeys_strArray .strings alloc).inv_of_gives hq hArgv
  have hq'' := (@Decoder.obeys_strArray .strings alloc).inv_of_gives hq' hEnv
  exact ⟨_, _, _, reads_rdStr.of_gives hStart hCwd, reads_strArray.of_gives hq hArgv,
    reads_strArray.of_gives hq' hEnv, (reads_optional none reads_rdStr).of_gives hq'' hExec⟩

theorem resize_reads {request : Nat × Nat × Nat}
    (h : Gives Decoder.resizeRequest (.start body.bytes) request p) :
    ∃ r₁ r₂, epiRdU64 (epiRdInit body.bytes) = (request.1, r₁) ∧ epiRdU16 r₁ = (request.2.1, r₂) ∧
      epiRdU16 r₂ = (request.2.2, p.rd) := by
  have hStart := Probe.safe_start body.bounded
  obtain ⟨id, q, hId, h⟩ := h.of_bind
  obtain ⟨rows, q', hRows, h⟩ := h.of_bind
  obtain ⟨cols, _, hCols, h⟩ := h.of_bind
  obtain ⟨rfl, rfl⟩ := h.of_pure
  have hq := (@Decoder.obeys_rdU64 .strings).inv_of_gives hStart hId
  have hq' := (@Decoder.obeys_rdU16 .strings).inv_of_gives hq hRows
  exact ⟨_, _, reads_rdU64.of_gives hStart hId, reads_rdU16.of_gives hq hRows,
    reads_rdU16.of_gives hq' hCols⟩

theorem peek_reads {request : Nat × Nat} (h : Gives Decoder.peekRequest (.start body.bytes) request p) :
    ∃ r, epiRdU64 (epiRdInit body.bytes) = (request.1, r) ∧
      (if r.more then epiRdU32 r else (epiPeekDefaultBytes, r)) = (request.2, p.rd) := by
  have hStart := Probe.safe_start body.bounded
  obtain ⟨id, q, hId, h⟩ := h.of_bind
  obtain ⟨maxBytes, _, hMax, h⟩ := h.of_bind
  obtain ⟨rfl, rfl⟩ := h.of_pure
  have hq := (@Decoder.obeys_rdU64 .strings).inv_of_gives hStart hId
  exact ⟨_, reads_rdU64.of_gives hStart hId,
    (reads_optional epiPeekDefaultBytes reads_rdU32).of_gives hq hMax⟩

theorem groupNew_reads {blob : Option Bytes}
    (h : Gives (Decoder.groupNewRequest alloc) (.start body.bytes) blob p) :
    (if (epiRdInit body.bytes).more then epiRdBlob alloc (epiRdInit body.bytes)
      else (none, epiRdInit body.bytes)) = (blob, p.rd) :=
  (reads_optional none reads_rdBlob).of_gives (Probe.safe_start body.bounded) h

theorem groupSet_reads {request : Nat × Option Bytes}
    (h : Gives (Decoder.groupSetRequest alloc) (.start body.bytes) request p) :
    ∃ r, epiRdU64 (epiRdInit body.bytes) = (request.1, r) ∧ epiRdBlob alloc r = (request.2, p.rd) := by
  have hStart := Probe.safe_start body.bounded
  obtain ⟨gid, q, hId, h⟩ := h.of_bind
  obtain ⟨blob, _, hBlob, h⟩ := h.of_bind
  obtain ⟨rfl, rfl⟩ := h.of_pure
  have hq := (@Decoder.obeys_rdU64 .strings).inv_of_gives hStart hId
  exact ⟨_, reads_rdU64.of_gives hStart hId, reads_rdBlob.of_gives hq hBlob⟩

theorem groupAdd_reads {request : Nat × Nat}
    (h : Gives Decoder.groupAddRequest (.start body.bytes) request p) :
    ∃ r, epiRdU64 (epiRdInit body.bytes) = (request.1, r) ∧ epiRdU64 r = (request.2, p.rd) := by
  have hStart := Probe.safe_start body.bounded
  obtain ⟨gid, q, hId, h⟩ := h.of_bind
  obtain ⟨sid, _, hSid, h⟩ := h.of_bind
  obtain ⟨rfl, rfl⟩ := h.of_pure
  have hq := (@Decoder.obeys_rdU64 .strings).inv_of_gives hStart hId
  exact ⟨_, reads_rdU64.of_gives hStart hId, reads_rdU64.of_gives hq hSid⟩

end Handlers

end Epimone.Daemon
