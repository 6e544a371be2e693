import Epimone.Ring

/-! # The growing ring refines a fixed ring

Every operation of a valid ring stays inside its buffers and keeps the ring
valid, whether or not its allocation succeeds, and the contents after a write
are the last bytes of the old contents followed by the new data. `Grown` and
`Written` state this for ring_grow and for epi_ring_write; a sequence of writes
is followed from the bytes the ring has taken so far.
-/
set_option autoImplicit false

namespace Epimone

open CircularWindow

structure Ring.Valid (r : Ring) : Prop where
  buf_length : r.buf.length = r.cap
  head_lt : r.head < r.cap
  size_le : r.size ≤ r.cap
  cap_le : r.cap ≤ r.maxCap
  max_le : r.maxCap ≤ 2 ^ 63

theorem Ring.Valid.length_contents {r : Ring} (h : r.Valid) : r.contents.length = r.size :=
  length_window (by rw [h.buf_length]; exact h.size_le)

theorem epiRingInit_valid (maxCap : Nat) (junk : Nat → UInt8) (hPos : 1 ≤ maxCap)
    (hMax : maxCap ≤ 2 ^ 63) :
    ∃ r, epiRingInit maxCap (.block junk) = (r, 0) ∧ r.Valid ∧ r.maxCap = maxCap ∧ r.size = 0 := by
  have hInit : 1 ≤ epiRingInitCap := by decide
  refine ⟨_, by rw [epiRingInit, if_neg (by omega)]; rfl, ?_, rfl, rfl⟩
  constructor
  · simp
  · dsimp only; split <;> omega
  · exact Nat.zero_le _
  · dsimp only; split <;> omega
  · exact hMax

theorem copyOut_eq {r : Ring} (h : r.Valid) (dst : Bytes) {start n : Nat} (hStart : start < r.cap)
    (hSize : n ≤ r.cap) (hDst : n ≤ dst.length) :
    copyOut r dst start n = some (window r.buf start n ++ dst.drop n) := by
  have hBuf := h.buf_length
  have hMax := h.max_le
  have hCap := h.cap_le
  have hFirst : sizeSub r.cap start = r.cap - start := sizeSub_of_le (by omega) (by omega)
  rw [copyOut, hFirst]
  split
  · rename_i hOne
    rw [memcpy_of_le (by omega) (by omega), window_of_le (by omega) (by omega)]
    simp
  · rename_i hTwo
    have hRest : sizeSub n (r.cap - start) = n - (r.cap - start) := sizeSub_of_le (by omega) (by omega)
    have hDrop : (r.buf.drop start).length = r.cap - start := by rw [List.length_drop, hBuf]
    have hAll : (r.buf.drop start).take (r.cap - start) = r.buf.drop start :=
      List.take_of_length_le (by omega)
    have hPiece : memcpy dst 0 r.buf start (r.cap - start) = _ := memcpy_of_le (by omega) (by omega)
    rw [hAll, List.take_zero, List.nil_append, Nat.zero_add] at hPiece
    rw [hPiece, hRest, window_of_ge (by omega) (by omega) (by omega), hBuf]
    simp only [Option.bind_eq_bind, Option.bind_some]
    have hRemain : r.cap - start + (n - (r.cap - start)) = n := by omega
    have hTail : (r.buf.drop start ++ dst.drop (r.cap - start)).drop n = dst.drop n := by
      rw [List.drop_append, List.drop_drop, hDrop, List.drop_eq_nil_of_le (by omega), List.nil_append,
        List.drop_drop, hRemain]
    rw [memcpy_of_le (by simp only [List.length_append, List.length_drop]; omega) (by omega),
      List.take_left' hDrop, hRemain, hTail, List.drop_zero]

structure Grown (r : Ring) (need : Nat) (a : Alloc) (r' : Ring) : Prop where
  valid : r'.Valid
  contents : r'.contents = r.contents
  size : r'.size = r.size
  maxCap : r'.maxCap = r.maxCap
  cap_le : r.cap ≤ r'.cap
  room : a ≠ .null → min need r.maxCap ≤ r'.cap

theorem Grown.refl {r : Ring} (h : r.Valid) {need : Nat} {a : Alloc}
    (hRoom : a ≠ .null → min need r.maxCap ≤ r.cap) : Grown r need a r :=
  ⟨h, rfl, rfl, rfl, Nat.le_refl _, hRoom⟩

theorem ringGrow_spec {r : Ring} (h : r.Valid) (need : Nat) (a : Alloc) :
    ∃ r' status, ringGrow r need a = some (r', status) ∧ Grown r need a r' := by
  obtain ⟨hBuf, hHead, hSize, hCap, hMax⟩ := h
  rw [ringGrow]
  split
  · exact ⟨r, 0, rfl, .refl ⟨hBuf, hHead, hSize, hCap, hMax⟩ (fun _ => by omega)⟩
  split
  · exact ⟨r, -1, rfl, .refl ⟨hBuf, hHead, hSize, hCap, hMax⟩ (fun _ => by omega)⟩
  rw [if_neg (by omega : ¬ r.cap = 0)]
  have hExit := doubleCapacity_exits need hMax 64 r.cap (by
    calc
      2 ^ 63 ≤ 1 * 2 ^ 64 := by decide
      _ ≤ r.cap * 2 ^ 64 := Nat.mul_le_mul_right _ (by omega))
  generalize doubleCapacity need r.maxCap 64 r.cap = doubled at hExit
  dsimp only
  generalize hNc : (if r.maxCap < doubled then r.maxCap else doubled) = nc
  have hBounds : r.cap ≤ nc ∧ nc ≤ r.maxCap ∧ min need r.maxCap ≤ nc := by
    rw [← hNc]; split <;> omega
  split
  · rename_i hZero
    cases a with
    | null => exact ⟨r, -1, rfl, .refl ⟨hBuf, hHead, hSize, hCap, hMax⟩ (fun hOk => absurd rfl hOk)⟩
    | block junk =>
      refine ⟨_, _, rfl, ⟨⟨?_, ?_, ?_, hBounds.2.1, hMax⟩, ?_, rfl, rfl, hBounds.1, fun _ => hBounds.2.2⟩⟩
      · simp only [List.length_append, List.length_take, List.length_map, List.length_range]
        omega
      · exact Nat.lt_of_lt_of_le hHead hBounds.1
      · exact Nat.le_trans hSize hBounds.1
      · have hTake : r.buf.take nc = r.buf := List.take_of_length_le (by omega)
        simp only [Ring.contents, hZero, window_zero]
        rw [hTake, List.take_append_of_le_length (by omega)]
  · cases a with
    | null => exact ⟨r, -1, rfl, .refl ⟨hBuf, hHead, hSize, hCap, hMax⟩ (fun hOk => absurd rfl hOk)⟩
    | block junk =>
      have hWindow : (window r.buf r.head r.size).length = r.size := length_window (by omega)
      have hBlock : ((List.range nc).map junk).length = nc := by simp
      have hCopy := copyOut_eq ⟨hBuf, hHead, hSize, hCap, hMax⟩ ((List.range nc).map junk) hHead
        hSize (by omega)
      simp only [malloc, Option.bind_eq_bind, hCopy, Option.bind_some]
      refine ⟨_, _, rfl, ⟨⟨?_, ?_, ?_, hBounds.2.1, hMax⟩, ?_, rfl, rfl, hBounds.1, fun _ => hBounds.2.2⟩⟩
      · simp only [List.length_append, List.length_drop, hWindow, hBlock]
        omega
      · exact Nat.lt_of_lt_of_le (Nat.zero_lt_of_lt hHead) hBounds.1
      · exact Nat.le_trans hSize hBounds.1
      · simp only [Ring.contents, window_zero]
        exact List.take_left' hWindow

structure Written (r : Ring) (data : Bytes) (a : Alloc) (r' : Ring) : Prop where
  valid : r'.Valid
  contents : r'.contents = lastN r'.size (r.contents ++ data)
  size : r'.size = min (r.size + data.length) r'.cap
  maxCap : r'.maxCap = r.maxCap
  room : a ≠ .null → min (r.size + data.length) r.maxCap ≤ r'.cap

theorem copyIn_spec {r : Ring} (h : r.Valid) (data : Bytes) (hData : data.length < r.cap) :
    ∃ buf, copyIn r data = some buf ∧ Overlaid r.buf buf ((r.head + r.size) % r.cap) data := by
  obtain ⟨hBuf, hHead, hSize, hCap, hMax⟩ := h
  have hTail : (r.head + r.size) % r.cap < r.cap := Nat.mod_lt _ (by omega)
  rw [copyIn, sizeAdd_of_lt (by omega)]
  generalize (r.head + r.size) % r.cap = tail at hTail
  rw [sizeSub_of_le (by omega) (by omega)]
  by_cases hOne : data.length ≤ r.cap - tail
  · have hFirst : (if data.length < r.cap - tail then data.length else r.cap - tail) = data.length := by
      split <;> omega
    rw [hFirst, memcpy_of_le (by omega) (by omega)]
    refine ⟨_, by rw [Option.bind_some, if_neg (Nat.lt_irrefl _)], ?_⟩
    rw [List.drop_zero, List.take_of_length_le (Nat.le_refl _)]
    exact .of_block (by omega)
  · have hFirst : (if data.length < r.cap - tail then data.length else r.cap - tail) = r.cap - tail := by
      split <;> omega
    have hFront : (r.buf.take tail).length = tail := by rw [List.length_take]; omega
    have hBack : r.buf.drop (tail + (r.cap - tail)) = [] := List.drop_eq_nil_of_le (by omega)
    have hPiece : (data.take (r.cap - tail)).length = r.cap - tail := by rw [List.length_take]; omega
    rw [hFirst, memcpy_of_le (by omega) (by omega), sizeSub_of_le (by omega) (by omega), hBack,
      List.append_nil, List.drop_zero, Option.bind_some, if_pos (by omega),
      memcpy_of_le (by rw [List.length_append, hFront, hPiece]; omega) (by omega)]
    refine ⟨_, rfl, ?_⟩
    have hRest : data.length - (r.cap - tail) = data.length - (r.buf.length - tail) := by rw [hBuf]
    rw [List.take_zero, List.nil_append, Nat.zero_add,
      List.take_of_length_le (by rw [List.length_drop]),
      List.drop_append_of_le_length (by omega), hRest, ← hBuf]
    exact .of_two_blocks (by omega) (by omega) (by omega)

theorem epiRingWrite_spec {r : Ring} (h : r.Valid) (data : Bytes) (hData : data.length < 2 ^ 63)
    (a : Alloc) : ∃ r', epiRingWrite r data a = some r' ∧ Written r data a r' := by
  rw [epiRingWrite]
  split
  · rename_i hNothing
    have hEmpty : data = [] := by
      rcases hNothing with hCap | hLen
      · exact absurd hCap (by have := h.head_lt; omega)
      · exact List.eq_nil_of_length_eq_zero hLen
    subst hEmpty
    have hSize := h.size_le
    have hCap := h.cap_le
    refine ⟨r, rfl, h, ?_, by simp; omega, rfl, fun _ => by simp; omega⟩
    rw [List.append_nil, lastN_of_length_le (by rw [h.length_contents])]
  · have hNeed : sizeAdd r.size data.length = r.size + data.length :=
      sizeAdd_of_lt (by have := h.size_le; have := h.cap_le; have := h.max_le; omega)
    obtain ⟨g, status, hGrow, hGrown⟩ := ringGrow_spec h (r.size + data.length) a
    obtain ⟨⟨hBuf, hHead, hSize, hCap, hMax⟩, hContents, hSame, hSameMax, _, hRoom⟩ := hGrown
    have hHeld : g.contents.length = g.size := length_window (by omega)
    rw [hNeed, hGrow]
    simp only [Option.bind_eq_bind, Option.bind_some]
    split
    · rename_i hLong
      have hLast : (data.drop (data.length - g.cap)).take g.cap = lastN g.cap data := by
        rw [lastN, List.take_of_length_le (by rw [List.length_drop]; omega)]
      have hLength : (lastN g.cap data).length = g.cap := by rw [length_lastN]; omega
      have hNone : g.buf.drop (0 + g.cap) = [] := List.drop_eq_nil_of_le (by omega)
      rw [sizeSub_of_le hLong (by omega), memcpy_of_le (by omega) (by omega), List.take_zero,
        List.nil_append, hLast, hNone, List.append_nil]
      refine ⟨_, rfl, ⟨?_, ?_, ?_, hCap, hMax⟩, ?_, ?_, hSameMax, hRoom⟩
      · exact hLength
      · exact Nat.zero_lt_of_lt hHead
      · exact Nat.le_refl _
      · simp only [Ring.contents, window_zero]
        rw [List.take_of_length_le (by omega), lastN_append_of_le _ _ hLong]
      · dsimp only; omega
    · rename_i hShort
      obtain ⟨buf, hPlace, hOver⟩ := copyIn_spec ⟨hBuf, hHead, hSize, hCap, hMax⟩ data (by omega)
      have hLength := hOver.1
      rw [← hBuf] at hOver
      rw [hPlace, Option.bind_some, sizeAdd_of_lt (by omega)]
      split
      · rename_i hFits
        refine ⟨_, rfl, ⟨?_, hHead, hFits, hCap, hMax⟩, ?_, ?_, hSameMax, hRoom⟩
        · exact hLength.trans hBuf
        · have hWindow := window_overlaid_fits hOver (by omega)
          simp only [Ring.contents] at hContents ⊢
          rw [hWindow, lastN_of_length_le (by
            have := h.length_contents; simp only [Ring.contents] at this
            rw [List.length_append, this]; omega), hContents]
        · dsimp only; omega
      · rename_i hOverflow
        have hDrop : sizeSub (g.size + data.length) g.cap = g.size + data.length - g.cap :=
          sizeSub_of_le (by omega) (by omega)
        rw [hDrop, sizeAdd_of_lt (by omega)]
        refine ⟨_, rfl, ⟨?_, Nat.mod_lt _ (by omega), Nat.le_refl _, hCap, hMax⟩, ?_, ?_, hSameMax, hRoom⟩
        · exact hLength.trans hBuf
        · have hWindow := window_overlaid_overflows hOver (by omega) (by omega) (by omega)
          simp only [Ring.contents] at hContents ⊢
          rw [hBuf] at hWindow
          rw [hWindow, hContents]
        · dsimp only; omega

theorem epiRingSnapshot_eq {r : Ring} (h : r.Valid) (junk : Nat → UInt8) :
    epiRingSnapshot r (.block junk) = some (if r.size = 0 then none else some r.contents) := by
  rw [epiRingSnapshot]
  split
  · rfl
  · have hBlock : ((List.range r.size).map junk).length = r.size := by simp
    have hCopy := copyOut_eq h ((List.range r.size).map junk) h.head_lt h.size_le (by omega)
    rw [List.drop_eq_nil_of_le (by omega), List.append_nil] at hCopy
    simp only [malloc, hCopy, Option.map_some]
    rfl

theorem epiRingSnapshotTail_eq {r : Ring} (h : r.Valid) (maxBytes : Nat) (junk : Nat → UInt8) :
    epiRingSnapshotTail r maxBytes (.block junk) =
      some (if r.size = 0 ∨ maxBytes = 0 then none else some (lastN (min maxBytes r.size) r.contents)) := by
  obtain ⟨hBuf, hHead, hSize, hCap, hMax⟩ := h
  rw [epiRingSnapshotTail]
  by_cases hNone : r.size = 0 ∨ maxBytes = 0
  · rw [if_pos (Or.inr hNone), if_pos hNone]
  · rw [if_neg (by omega), if_neg hNone]
    have hCount : (if r.size < maxBytes then r.size else maxBytes) = min maxBytes r.size := by
      split <;> omega
    rw [hCount]
    generalize hn : min maxBytes r.size = n
    have hLess : n ≤ r.size := by omega
    have hBlock : ((List.range n).map junk).length = n := by simp
    have hSkip : sizeSub r.size n = r.size - n := sizeSub_of_le hLess (by omega)
    have hCopy := copyOut_eq ⟨hBuf, hHead, hSize, hCap, hMax⟩ ((List.range n).map junk)
      (Nat.mod_lt (r.head + (r.size - n)) (by omega : r.cap > 0)) (by omega) hBlock.ge
    have hWindow := window_add_mod r.buf r.head (k := r.size - n) (n := n) (by omega)
    rw [hBuf] at hWindow
    rw [List.drop_eq_nil_of_le (by omega), List.append_nil, hWindow] at hCopy
    have hHeld : (window r.buf r.head r.size).length = r.size := length_window (by omega)
    have hSum : r.size - n + n = r.size := by omega
    simp only [malloc, hSkip, sizeAdd_of_lt (by omega : r.head + (r.size - n) < 2 ^ 64), hCopy,
      Option.map_some, Ring.contents, lastN, hHeld, hSum]

theorem epiRingSnapshot_isSome {r : Ring} (h : r.Valid) (a : Alloc) :
    (epiRingSnapshot r a).isSome := by
  cases a with
  | null => rw [epiRingSnapshot]; split <;> rfl
  | block junk => rw [epiRingSnapshot_eq h]; rfl

theorem epiRingSnapshotTail_isSome {r : Ring} (h : r.Valid) (maxBytes : Nat) (a : Alloc) :
    (epiRingSnapshotTail r maxBytes a).isSome := by
  cases a with
  | null => rw [epiRingSnapshotTail]; split <;> rfl
  | block junk => rw [epiRingSnapshotTail_eq h]; rfl

/-- The ring of a session: valid, and growing to the ceiling of one mebibyte. -/
structure OutRing where
  ring : Ring
  valid : ring.Valid
  ceiling : ring.maxCap = epiRingCap

namespace OutRing

theorem of_init {a : Alloc} (h : (epiRingInit epiRingCap a).2 = 0) :
    (epiRingInit epiRingCap a).1.Valid ∧ (epiRingInit epiRingCap a).1.maxCap = epiRingCap := by
  cases a with
  | null => cases h
  | block junk =>
    obtain ⟨r, hInit, hValid, hMax, _⟩ := epiRingInit_valid epiRingCap junk (by decide) (by decide)
    rw [hInit]
    exact ⟨hValid, hMax⟩

def init (a : Alloc) : Option OutRing :=
  if h : (epiRingInit epiRingCap a).2 = 0 then
    some ⟨(epiRingInit epiRingCap a).1, (of_init h).1, (of_init h).2⟩
  else none

theorem of_write (r : OutRing) (data : Object) (a : Alloc) :
    ∃ h : (epiRingWrite r.ring data.bytes a).isSome,
      ((epiRingWrite r.ring data.bytes a).get h).Valid ∧
      ((epiRingWrite r.ring data.bytes a).get h).maxCap = epiRingCap := by
  obtain ⟨r', hWrite, hWritten⟩ := epiRingWrite_spec r.valid data.bytes data.bounded a
  refine ⟨by rw [hWrite]; rfl, ?_⟩
  simp only [hWrite, Option.get_some]
  exact ⟨hWritten.valid, hWritten.maxCap.trans r.ceiling⟩

def write (r : OutRing) (data : Object) (a : Alloc) : OutRing :=
  ⟨(epiRingWrite r.ring data.bytes a).get (r.of_write data a).1, (r.of_write data a).2.1,
    (r.of_write data a).2.2⟩

def snapshot (r : OutRing) (a : Alloc) : Option Bytes :=
  (epiRingSnapshot r.ring a).get (epiRingSnapshot_isSome r.valid a)

def snapshotTail (r : OutRing) (maxBytes : Nat) (a : Alloc) : Option Bytes :=
  (epiRingSnapshotTail r.ring maxBytes a).get (epiRingSnapshotTail_isSome r.valid maxBytes a)

/-- A ring of one byte, for the sessions that are not there. -/
def blank : OutRing :=
  ⟨⟨[0], 1, epiRingCap, 0, 0⟩, ⟨rfl, by decide, by decide, by decide, by decide⟩, rfl⟩

theorem snapshot_block (r : OutRing) (junk : Nat → UInt8) :
    r.snapshot (.block junk) = if r.ring.size = 0 then none else some r.ring.contents := by
  simp only [snapshot, epiRingSnapshot_eq r.valid, Option.get_some]

theorem snapshot_null (r : OutRing) : r.snapshot .null = none := by
  unfold snapshot epiRingSnapshot
  by_cases hSize : r.ring.size = 0 <;> simp [hSize, malloc]

theorem contents_of_snapshot {r : OutRing} {a : Alloc} {snap : Bytes} (h : r.snapshot a = some snap) :
    snap = r.ring.contents := by
  cases a with
  | null => rw [snapshot_null] at h; cases h
  | block junk =>
    rw [snapshot_block] at h
    split at h
    · cases h
    · exact (Option.some.inj h).symm

end OutRing

def ringWrites (r : Ring) : List (Object × Alloc) → Option Ring
  | [] => some r
  | (data, a) :: writes => (epiRingWrite r data.bytes a).bind fun r => ringWrites r writes

def writtenBytes (writes : List (Object × Alloc)) : Bytes := (writes.map fun w => w.1.bytes).flatten

theorem ringWrites_spec (writes : List (Object × Alloc)) {r : Ring} (h : r.Valid) (before : Bytes)
    (hContents : r.contents = lastN r.size before) (hSize : r.size ≤ before.length) :
    ∃ r', ringWrites r writes = some r' ∧ r'.Valid ∧ r'.maxCap = r.maxCap ∧
      r'.contents = lastN r'.size (before ++ writtenBytes writes) ∧
      r'.size ≤ (before ++ writtenBytes writes).length ∧
      (r.size = min before.length r.maxCap → (∀ w ∈ writes, w.2 ≠ .null) →
        r'.size = min (before ++ writtenBytes writes).length r.maxCap) := by
  induction writes generalizing r before with
  | nil =>
    simp only [writtenBytes, List.map_nil, List.flatten_nil, List.append_nil]
    exact ⟨r, rfl, h, rfl, hContents, hSize, fun hFull _ => hFull⟩
  | cons w writes ih =>
    obtain ⟨data, a⟩ := w
    obtain ⟨r₁, hWrite, hValid, hHeld, hLevel, hMax, hRoom⟩ :=
      epiRingWrite_spec h data.bytes data.bounded a
    have hBefore : r₁.contents = lastN r₁.size (before ++ data.bytes) := by
      rw [hHeld, hContents, lastN_lastN_append _ _ (by omega)]
    obtain ⟨r', hWrites, hValid', hMax', hContents', hSize', hFull'⟩ :=
      ih hValid (before ++ data.bytes) hBefore (by rw [List.length_append]; omega)
    have hAppend : before ++ data.bytes ++ writtenBytes writes =
        before ++ writtenBytes ((data, a) :: writes) := by
      rw [writtenBytes, writtenBytes, List.map_cons, List.flatten_cons, List.append_assoc]
    rw [hAppend] at hContents' hSize' hFull'
    refine ⟨r', by rw [ringWrites, hWrite, Option.bind_some, hWrites], hValid', hMax'.trans hMax,
      hContents', hSize', ?_⟩
    intro hFull hAllocs
    rw [hMax] at hFull'
    refine hFull' ?_ (fun w hw => hAllocs w (List.mem_cons_of_mem _ hw))
    have hTop := hValid.cap_le
    have hRoom := hRoom (hAllocs _ List.mem_cons_self)
    rw [List.length_append]
    omega

/-- A ring that grows on demand, over any writes and any answers of its allocations. -/
theorem growing_ring_refines_fixed_ring (maxCap : Nat) (hPos : 1 ≤ maxCap) (hMax : maxCap ≤ 2 ^ 63)
    (junk : Nat → UInt8) (writes : List (Object × Alloc)) :
    ∃ r₀ r, epiRingInit maxCap (.block junk) = (r₀, 0) ∧ ringWrites r₀ writes = some r ∧
      r.head < r.cap ∧ r.size ≤ r.cap ∧ r.cap ≤ maxCap ∧
      r.size ≤ (writtenBytes writes).length ∧
      (∀ junk', epiRingSnapshot r (.block junk') =
        some (if r.size = 0 then none else some (lastN r.size (writtenBytes writes)))) ∧
      ((∀ w ∈ writes, w.2 ≠ .null) →
        r.size = min (writtenBytes writes).length maxCap ∧
        lastN r.size (writtenBytes writes) =
          ((writes.map fun w => w.1.bytes).foldl FixedRing.write (FixedRing.empty maxCap)).contents) := by
  obtain ⟨r₀, hInit, hValid₀, hMax₀, hSize₀⟩ := epiRingInit_valid maxCap junk hPos hMax
  obtain ⟨r, hWrites, hValid, hMaxCap, hContents, hSize, hFull⟩ :=
    ringWrites_spec writes hValid₀ [] (by simp [Ring.contents, window, lastN, hSize₀]) (by simp [hSize₀])
  rw [List.nil_append] at hContents hSize hFull
  have hCap := hValid.cap_le
  refine ⟨r₀, r, hInit, hWrites, hValid.head_lt, hValid.size_le, by omega, hSize, ?_, ?_⟩
  · intro junk'
    rw [epiRingSnapshot_eq hValid, hContents]
  · intro hAllocs
    have hLevel := hFull (by simp [hSize₀]) hAllocs
    rw [hMax₀] at hLevel
    refine ⟨hLevel, ?_⟩
    rw [FixedRing.contents_foldl, hLevel]
    by_cases hLess : (writtenBytes writes).length ≤ maxCap
    · rw [Nat.min_eq_left hLess, lastN_of_length_le (Nat.le_refl _)]
      exact (lastN_of_length_le hLess).symm
    · rw [Nat.min_eq_right (by omega)]
      rfl

def filled (n : Nat) (b : UInt8) (h : n < 2 ^ 63) : Object :=
  ⟨List.replicate n b, by rw [List.length_replicate]; exact h⟩

/-- A ring that wraps because a growth failed and is laid out again by a later growth. -/
theorem growing_ring_refines_fixed_ring_regrown :
    ∃ r₀ r, epiRingInit 5000 (.block fun _ => 0) = (r₀, 0) ∧
      ringWrites r₀ [(filled 4090 1 (by decide), .block fun _ => 7), (filled 10 2 (by decide), .null),
        (filled 4 3 (by decide), .block fun _ => 9)] = some r ∧ r.size ≤ r.cap ∧ r.cap ≤ 5000 := by
  obtain ⟨r₀, r, hInit, hWrites, _, hSize, hCap, _⟩ :=
    growing_ring_refines_fixed_ring 5000 (by decide) (by decide) (fun _ => 0)
      [(filled 4090 1 (by decide), .block fun _ => 7), (filled 10 2 (by decide), .null),
        (filled 4 3 (by decide), .block fun _ => 9)]
  exact ⟨r₀, r, hInit, hWrites, hSize, hCap⟩

end Epimone
