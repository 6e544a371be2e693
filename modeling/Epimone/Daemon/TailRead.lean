import Epimone.Daemon.ReplyCodec

/-! # Reading the end of a ring

The tail of a ring that PEEK sends against the snapshot that ATTACH replays. A
ceiling above 2^63 bytes is more than any write of the ring can reach, and below
that the ring does what it would do under a ceiling of 2^63.
-/
set_option autoImplicit false

namespace Epimone

open CircularWindow

/-- The rings that epi_ring_init and epi_ring_write come to. The doubling of a growth past 2^63 bytes
wraps to 0 and does not end. -/
inductive Ring.Reached : Ring → Prop where
  | init (cap : Nat) (a : Alloc) : cap < 2 ^ 64 → Reached (epiRingInit cap a).1
  | write {r r' : Ring} (data : Object) (a : Alloc) : Reached r →
    r.maxCap ≤ 2 ^ 63 ∨ r.size + data.bytes.length ≤ 2 ^ 63 →
    epiRingWrite r data.bytes a = some r' → Reached r'

/-- The ring under a ceiling of 2^63 bytes at most. -/
def Ring.capped (r : Ring) : Ring := { r with maxCap := min r.maxCap (2 ^ 63) }

section Doubling

variable {need limit limit' : Nat}

/-- Of two ceilings that the need stays below, neither ends the doubling. -/
theorem doubleCapacity_of_need_le (hLimit : need ≤ limit) (hLimit' : need ≤ limit') (rounds nc : Nat) :
    doubleCapacity need limit rounds nc = doubleCapacity need limit' rounds nc := by
  induction rounds generalizing nc with
  | zero => rfl
  | succ rounds ih =>
    have hSame : (nc < need ∧ nc < limit) ↔ nc < need ∧ nc < limit' := by omega
    rw [doubleCapacity, doubleCapacity, ih]
    simp only [hSame]

theorem doubleCapacity_pow (hNeed : need ≤ 2 ^ 63) (rounds : Nat) {k : Nat} (hPow : k ≤ 63) :
    ∃ k' ≤ 63, doubleCapacity need limit rounds (2 ^ k) = 2 ^ k' := by
  induction rounds generalizing k with
  | zero => exact ⟨k, hPow, rfl⟩
  | succ rounds ih =>
    rw [doubleCapacity]
    split
    · rename_i hLoop
      have hLess : k < 63 := by
        rw [← Nat.pow_lt_pow_iff_right (a := 2) (by decide)]
        omega
      have hNext : sizeMul (2 ^ k) 2 = 2 ^ (k + 1) := by
        rw [Nat.pow_succ]
        apply sizeMul_of_lt
        rw [← Nat.pow_succ]
        exact Nat.pow_lt_pow_of_lt (by decide) (by omega)
      rw [hNext]
      exact ih hLess
    · exact ⟨k, hPow, rfl⟩

end Doubling

section Capped

variable {r : Ring}

/-- What is true of a ring that has been reached: no allocation succeeded, or the capped ring is valid, and a
ring with room above 2^63 has a power of two for its capacity. -/
structure Ring.Kept (r : Ring) : Prop where
  valid : r.cap = 0 ∧ r.size = 0 ∨ r.capped.Valid
  pow : r.cap ≠ 0 → 2 ^ 63 < r.maxCap → ∃ k ≤ 63, r.cap = 2 ^ k

theorem Ring.capped_of_le (h : r.maxCap ≤ 2 ^ 63) : r.capped = r := by
  rw [capped, Nat.min_eq_left h]

theorem ringGrow_capped {k : Nat} (hMax : 2 ^ 63 < r.maxCap) (hPow : k ≤ 63) (hCap : r.cap = 2 ^ k) {need : Nat}
    (hNeed : need ≤ 2 ^ 63) (a : Alloc) :
    ringGrow r.capped need a = (ringGrow r need a).map (fun g => (g.1.capped, g.2)) ∧
      ∀ g status, ringGrow r need a = some (g, status) →
        g.maxCap = r.maxCap ∧ ∃ k' ≤ 63, g.cap = 2 ^ k' := by
  have hCeiling : r.capped.maxCap = 2 ^ 63 := Nat.min_eq_right hMax.le
  have hBound : r.cap ≤ 2 ^ 63 := by
    rw [hCap]
    exact Nat.pow_le_pow_right (by decide) hPow
  have hPos : r.cap ≠ 0 := by
    rw [hCap]
    exact (Nat.two_pow_pos k).ne'
  unfold ringGrow
  rw [hCeiling, show r.capped.cap = r.cap from rfl, show r.capped.head = r.head from rfl]
  split
  · refine ⟨rfl, ?_⟩
    rintro g status ⟨⟩
    exact ⟨rfl, k, hPow, hCap⟩
  rename_i hShort
  have hBelow : ¬ 2 ^ 63 ≤ r.cap := by omega
  have hAbove : ¬ r.maxCap ≤ r.cap := by omega
  obtain ⟨k', hPow', hDoubled⟩ := @doubleCapacity_pow need r.maxCap hNeed 64 k hPow
  have hSame : doubleCapacity need (2 ^ 63) 64 r.cap = 2 ^ k' := by
    rw [@doubleCapacity_of_need_le need (2 ^ 63) r.maxCap hNeed (by omega), hCap, hDoubled]
  have hRoom : 2 ^ k' ≤ 2 ^ 63 := Nat.pow_le_pow_right (by decide) hPow'
  have hBuilt : ∀ buf cap head, (⟨buf, cap, 2 ^ 63, head, r.size⟩ : Ring) =
      (⟨buf, cap, r.maxCap, head, r.size⟩ : Ring).capped := by
    intro buf cap head
    rw [Ring.capped, Nat.min_eq_right hMax.le]
  rw [← hCap] at hDoubled
  dsimp only
  rw [if_neg hBelow, if_neg hAbove, hSame, hDoubled, if_neg (Nat.not_lt.mpr hRoom),
    if_neg (Nat.not_lt.mpr (hRoom.trans hMax.le))]
  split
  · cases hBlock : realloc r.buf a (2 ^ k') with
    | none =>
      have hSame : realloc r.capped.buf a (2 ^ k') = none := hBlock
      rw [hSame]
      refine ⟨rfl, ?_⟩
      rintro g status ⟨⟩
      exact ⟨rfl, k, hPow, hCap⟩
    | some nb =>
      have hSame : realloc r.capped.buf a (2 ^ k') = some nb := hBlock
      rw [hSame]
      refine ⟨congrArg (fun g => some (g, _)) (hBuilt nb (2 ^ k') r.head), ?_⟩
      rintro g status ⟨⟩
      exact ⟨rfl, k', hPow', rfl⟩
  · cases malloc a (2 ^ k') with
    | none =>
      refine ⟨rfl, ?_⟩
      rintro g status ⟨⟩
      exact ⟨rfl, k, hPow, hCap⟩
    | some nb =>
      have hSame : copyOut r.capped nb r.head r.size = copyOut r nb r.head r.size := rfl
      dsimp only
      change (copyOut r.capped nb r.head r.size).bind _ = _ ∧ _
      rw [hSame]
      cases copyOut r nb r.head r.size with
      | none => exact ⟨rfl, fun g status h => by cases h⟩
      | some nb =>
        refine ⟨congrArg (fun g => some (g, _)) (hBuilt nb (2 ^ k') 0), ?_⟩
        rintro g status ⟨⟩
        exact ⟨rfl, k', hPow', rfl⟩

/-- A write under the ceiling of 2^63 does what it does under the higher one. -/
theorem epiRingWrite_capped {k : Nat} (hMax : 2 ^ 63 < r.maxCap) (hPow : k ≤ 63) (hCap : r.cap = 2 ^ k) {data : Bytes}
    (hNeed : r.size + data.length ≤ 2 ^ 63) (a : Alloc) {r' : Ring} (hWrite : epiRingWrite r data a = some r') :
    epiRingWrite r.capped data a = some r'.capped ∧ r'.maxCap = r.maxCap ∧ ∃ k' ≤ 63, r'.cap = 2 ^ k' := by
  have hSum : sizeAdd r.size data.length = r.size + data.length := sizeAdd_of_lt (by omega)
  obtain ⟨hGrow, hKept⟩ := ringGrow_capped hMax hPow hCap hNeed a
  unfold epiRingWrite at hWrite ⊢
  dsimp only at hWrite ⊢
  rw [show r.capped.cap = r.cap from rfl, show r.capped.size = r.size from rfl]
  split at hWrite
  · next hNothing =>
    cases hWrite
    rw [if_pos hNothing]
    exact ⟨rfl, rfl, k, hPow, hCap⟩
  · next hSome =>
    rw [if_neg hSome, hSum, hGrow]
    rw [hSum] at hWrite
    cases hGrown : ringGrow r (r.size + data.length) a with
    | none =>
      rw [hGrown] at hWrite
      cases hWrite
    | some grown =>
      obtain ⟨g, status⟩ := grown
      obtain ⟨hSame, hCapacity⟩ := hKept g status hGrown
      rw [hGrown] at hWrite
      simp only [Option.bind_eq_bind, Option.bind_some, Option.map_some, Ring.capped] at hWrite ⊢
      split at hWrite
      · next hLong =>
        rw [if_pos hLong]
        obtain ⟨buf, hBuf, hBuilt⟩ := Option.bind_eq_some_iff.mp hWrite
        cases hBuilt
        rw [hBuf]
        exact ⟨rfl, hSame, hCapacity⟩
      · next hShort =>
        rw [if_neg hShort]
        obtain ⟨buf, hBuf, hBuilt⟩ := Option.bind_eq_some_iff.mp hWrite
        have hPlaced : copyIn g.capped data = some buf := hBuf
        rw [Ring.capped] at hPlaced
        rw [hPlaced, Option.bind_some]
        split at hBuilt
        · next hFits =>
          cases hBuilt
          rw [if_pos hFits]
          exact ⟨rfl, hSame, hCapacity⟩
        · next hOver =>
          cases hBuilt
          rw [if_neg hOver]
          exact ⟨rfl, hSame, hCapacity⟩

theorem kept_init (cap : Nat) (a : Alloc) : (epiRingInit cap a).1.Kept := by
  by_cases hZero : cap = 0
  · subst hZero
    exact ⟨Or.inl ⟨rfl, rfl⟩, fun hSome => absurd rfl hSome⟩
  unfold epiRingInit
  rw [if_neg hZero]
  cases a with
  | null => exact ⟨Or.inl ⟨rfl, rfl⟩, fun hSome => absurd rfl hSome⟩
  | block junk =>
    have hStart : epiRingInitCap = 2 ^ 12 := rfl
    generalize hFirst : (if cap < epiRingInitCap then cap else epiRingInitCap) = start
    have hBounds : 0 < start ∧ start ≤ cap ∧ start ≤ 2 ^ 12 := by
      rw [← hFirst, hStart]
      split <;> omega
    refine ⟨Or.inr ⟨?_, hBounds.1, Nat.zero_le _, ?_, Nat.min_le_right _ _⟩, ?_⟩
    · exact length_malloc (a := .block junk) rfl
    · exact le_min hBounds.2.1 (hBounds.2.2.trans (by decide))
    · intro _ hMax
      have hLarge : 2 ^ 63 < cap := hMax
      refine ⟨12, by decide, ?_⟩
      change start = 2 ^ 12
      rw [← hFirst, hStart, if_neg (by omega)]

theorem Ring.Kept.write (h : r.Kept) {data : Object} {a : Alloc} {r' : Ring}
    (hReturns : r.maxCap ≤ 2 ^ 63 ∨ r.size + data.bytes.length ≤ 2 ^ 63)
    (hWrite : epiRingWrite r data.bytes a = some r') : r'.Kept := by
  rcases h.valid with ⟨hCap, hSize⟩ | hValid
  · rw [epiRingWrite, if_pos (Or.inl hCap)] at hWrite
    cases hWrite
    exact h
  obtain ⟨last, hLast, hWritten⟩ := epiRingWrite_spec hValid data.bytes data.bounded a
  rcases Nat.lt_or_ge (2 ^ 63) r.maxCap with hHigh | hLow
  · have hSome : r.cap ≠ 0 := Nat.ne_zero_of_lt hValid.head_lt
    obtain ⟨k, hPow, hCap⟩ := h.pow hSome hHigh
    have hNeed := hReturns.resolve_left (Nat.not_le.mpr hHigh)
    obtain ⟨hSame, _, hPower⟩ := epiRingWrite_capped hHigh hPow hCap hNeed a hWrite
    rw [hLast] at hSame
    cases hSame
    exact ⟨Or.inr hWritten.valid, fun _ _ => hPower⟩
  · rw [Ring.capped_of_le hLow] at hLast hWritten
    rw [hWrite] at hLast
    cases hLast
    have hMax : r'.maxCap ≤ 2 ^ 63 := hWritten.valid.max_le
    refine ⟨Or.inr ?_, fun _ hOver => absurd hMax (Nat.not_le.mpr hOver)⟩
    rw [Ring.capped_of_le hMax]
    exact hWritten.valid

theorem Ring.Reached.kept (h : r.Reached) : r.Kept := by
  induction h with
  | init cap a _ => exact kept_init cap a
  | write data a _ hReturns hWrite ih => exact ih.write hReturns hWrite

end Capped

/-- The last bytes of what a snapshot returned, NULL where there are none. -/
def tailOf (snapshot : Option Bytes) (maxBytes : Nat) : Option Bytes :=
  let held := snapshot.getD []
  let tail := lastN (min maxBytes held.length) held
  if tail = [] then none else some tail

theorem tailOf_none (maxBytes : Nat) : tailOf none maxBytes = none := by
  simp [tailOf, lastN]

theorem tailOf_some {held : Bytes} (hHeld : held ≠ []) (maxBytes : Nat) :
    tailOf (some held) maxBytes = if maxBytes = 0 then none else some (lastN (min maxBytes held.length) held) := by
  have hPos := List.length_pos_iff.mpr hHeld
  have hLength := length_lastN (min maxBytes held.length) held
  unfold tailOf
  dsimp only [Option.getD_some]
  by_cases hZero : maxBytes = 0
  · rw [if_pos hZero, if_pos (List.eq_nil_of_length_eq_zero (by omega))]
  · rw [if_neg hZero, if_neg (List.ne_nil_of_length_pos (by omega))]

theorem snapshotTail_reached {r : Ring} (h : r.Reached) (maxBytes : Nat) :
    ∃ whole, (∀ junk, epiRingSnapshot r (.block junk) = some whole) ∧ (whole.getD []).length = r.size ∧
      (∀ junk, epiRingSnapshotTail r maxBytes (.block junk) = some (tailOf whole maxBytes)) ∧
      epiRingSnapshotTail r maxBytes .null = some none := by
  have hNull : epiRingSnapshotTail r maxBytes .null = some none := by
    unfold epiRingSnapshotTail
    split <;> rfl
  rcases h.kept.valid with ⟨hCap, hSize⟩ | hValid
  · refine ⟨none, fun junk => if_pos hSize, hSize.symm, fun junk => ?_, hNull⟩
    rw [tailOf_none]
    exact if_pos (Or.inl hCap)
  · have hHeld : r.capped.contents.length = r.size := hValid.length_contents
    refine ⟨if r.size = 0 then none else some r.capped.contents, fun junk => epiRingSnapshot_eq hValid junk, ?_,
      fun junk => (epiRingSnapshotTail_eq hValid maxBytes junk).trans ?_, hNull⟩
    · split
      · next hZero => exact hZero.symm
      · exact hHeld
    · change some (if r.size = 0 ∨ maxBytes = 0 then none
        else some (lastN (min maxBytes r.size) r.capped.contents)) = _
      by_cases hZero : r.size = 0
      · rw [if_pos (Or.inl hZero), if_pos hZero, tailOf_none]
      · have hSome : r.capped.contents ≠ [] := List.ne_nil_of_length_pos (by omega)
        rw [if_neg hZero, tailOf_some hSome, hHeld]
        simp only [hZero, false_or]

namespace Daemon

theorem requestedTail_eq (out : OutRing) (maxBytes : Nat) (junk : Nat → UInt8) :
    requestedTail out maxBytes = (tailOf (out.snapshot (.block junk)) maxBytes).getD [] := by
  have hHeld := out.valid.length_contents
  rw [OutRing.snapshot_block, requestedTail]
  by_cases hZero : out.ring.size = 0
  · have hNone : out.ring.contents = [] := List.eq_nil_of_length_eq_zero (hHeld.trans hZero)
    rw [if_pos hZero, tailOf_none, hNone]
    exact List.drop_nil
  · have hSome : out.ring.contents ≠ [] := List.ne_nil_of_length_pos (by omega)
    rw [if_neg hZero, tailOf_some hSome, hHeld]
    split
    · next hNothing =>
      rw [hNothing, Nat.zero_min, lastN, Nat.sub_zero, List.drop_length]
      rfl
    · rfl

/-- The end of a ring is read as the end of its snapshot, and PEEK sends just this with the size of the ring,
for a session that lives as for a dead one. -/
theorem tail_read_agrees {r : Ring} (h : r.Reached) (maxBytes : Nat) :
    (∃ whole, (∀ junk, epiRingSnapshot r (.block junk) = some whole) ∧ (whole.getD []).length = r.size ∧
      (∀ junk, epiRingSnapshotTail r maxBytes (.block junk) = some (tailOf whole maxBytes)) ∧
      epiRingSnapshotTail r maxBytes .null = some none) ∧
    ∀ (srv : Server) (c : ConnPtr) (ans : FrameAnswers) (request : Object) (p : Probe) (id : Nat) (s : SessPtr)
      (junk : Nat → UInt8), ans.Ample →
      Program.Gives Decoder.peekRequest (.start request.bytes) (id, maxBytes) p → p.rd.err = false →
      findSession srv id false = some s →
        (dispatchFrame srv c ans EpiMsgType.peek.code request.bytes).outbound c =
          srv.outbound c ++ frameBytes EpiMsgType.peekReply.code
            (u64Bytes (srv.sess s).id ++
              blobBytes ((tailOf ((srv.sess s).out.snapshot (.block junk)) maxBytes).getD []) ++
              u64Bytes (srv.sess s).out.ring.size) := by
  refine ⟨snapshotTail_reached h maxBytes, ?_⟩
  intro srv c ans request p id s junk hAmple hRequest hErr hFind
  rw [← requestedTail_eq]
  exact outbound_handlePeek srv c hAmple hRequest hErr hFind

deriving instance DecidableEq for Ring

/-- A ring of four bytes that has wrapped, and its last three. -/
theorem tail_read_agrees_wrapped : ∃ r, r.Reached ∧ r.head = 1 ∧
    (∀ junk, epiRingSnapshot r (.block junk) = some (some [2, 3, 4, 5])) ∧
      ∀ junk, epiRingSnapshotTail r 3 (.block junk) = some (some [3, 4, 5]) := by
  have hOnce := Ring.Reached.init 4 (.block fun _ => 0) (by decide)
  have hTwice : Ring.Reached ⟨[1, 2, 0, 0], 4, 4, 0, 2⟩ :=
    .write ⟨[1, 2], by decide⟩ .null hOnce (Or.inl (by decide)) (by decide +kernel)
  have hLast : Ring.Reached ⟨[5, 2, 3, 4], 4, 4, 1, 4⟩ :=
    .write ⟨[3, 4, 5], by decide⟩ .null hTwice (Or.inl (by decide)) (by decide +kernel)
  obtain ⟨⟨whole, hWhole, _, hTail, _⟩, _⟩ := tail_read_agrees hLast 3
  have hHeld : whole = some [2, 3, 4, 5] := (Option.some.inj (hWhole fun _ => 0)).symm
  rw [hHeld] at hWhole hTail
  exact ⟨_, hLast, rfl, hWhole, hTail⟩

end Daemon

end Epimone
