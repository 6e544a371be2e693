import Epimone.Codec
import Epimone.Decoders

/-! # No decoder leaves its body

What a decoder may do to memory is one invariant of the probe; how it may move
is a relation in which every turn of a loop is paid for by a byte consumed or
by the error that ends all loops. The primitive readers obey both, and so does
everything that is made of them.
-/
set_option autoImplicit false

namespace Epimone

open Program

/-- The access stays inside a body of this length, and allocates no more than what is left of it and a
constant. -/
def Access.Within (len : Nat) : Access → Prop
  | .read start count => start + count ≤ len
  | .block size pos => pos ≤ len ∧ size ≤ len - pos + 1
  | .array size => size ≤ 4097 * 8
  | .call pos _ => pos ≤ len
  | .turn _ => True

namespace Probe

def errors (log : List Access) : List Bool :=
  log.filterMap fun
    | .call _ err => some err
    | _ => none

def turns (loop : DecodingLoop) (log : List Access) : Nat := log.count (.turn loop)

/-- An error once set is there at every later call. -/
def Sticky (log : List Access) : Prop :=
  (errors log).Pairwise fun before after => before = true → after = true

structure Safe (p : Probe) : Prop where
  size : p.rd.data.length < 2 ^ 63
  inside : p.rd.pos ≤ p.rd.data.length
  within : ∀ a ∈ p.log, a.Within p.rd.data.length
  sticky : Sticky p.log
  latest : true ∈ errors p.log → p.rd.err = true

/-- The body stays, the cursor moves on, an error stays, and the turns are paid for. -/
structure Moved (loop : DecodingLoop) (p q : Probe) : Prop where
  data_eq : q.rd.data = p.rd.data
  pos_le : p.rd.pos ≤ q.rd.pos
  err_of : p.rd.err = true → q.rd.err = true
  paid : turns loop q.log + (p.rd.pos + p.rd.err.toNat) ≤ turns loop p.log + (q.rd.pos + q.rd.err.toNat)

theorem safe_start {body : Bytes} (h : body.length < 2 ^ 63) : (start body).Safe :=
  ⟨h, Nat.zero_le _, nofun, .nil, nofun⟩

theorem errors_append (log log' : List Access) : errors (log ++ log') = errors log ++ errors log' :=
  List.filterMap_append

variable {loop : DecodingLoop} {p q r : Probe}

theorem Moved.refl (p : Probe) : Moved loop p p := ⟨rfl, Nat.le_refl _, id, Nat.le_refl _⟩

theorem Moved.trans (h : Moved loop p q) (h' : Moved loop q r) : Moved loop p r := by
  refine ⟨h'.data_eq.trans h.data_eq, Nat.le_trans h.pos_le h'.pos_le, h'.err_of ∘ h.err_of, ?_⟩
  have hFirst := h.paid
  have hSecond := h'.paid
  omega

/-- Below 2^63 the sum of the cursor and a 32-bit length does not wrap. -/
theorem Safe.sizeAdd_eq (h : p.Safe) {count : Nat} (hCount : count < 2 ^ 32) :
    sizeAdd p.rd.pos count = p.rd.pos + count := by
  have hSize := h.size
  have hInside := h.inside
  exact sizeAdd_of_lt (by omega)

theorem Safe.fits (h : p.Safe) {count : Nat} (hCount : count < 2 ^ 32) (hShort : p.short count = false) :
    p.rd.pos + count ≤ p.rd.data.length := by
  rw [short, h.sizeAdd_eq hCount] at hShort
  simpa using hShort

theorem turns_note {a : Access} (h : a ≠ .turn loop) : turns loop (p.note a).log = turns loop p.log := by
  simp [turns, Probe.note, List.count_append, h]

theorem turns_returned (p : Probe) : turns loop p.returned.log = turns loop p.log := turns_note nofun

theorem turns_advance (p : Probe) (count : Nat) :
    turns loop (p.advance count).log = turns loop p.log := turns_note nofun

theorem Moved.note {a : Access} (h : a ≠ .turn loop) : Moved loop p (p.note a) :=
  ⟨rfl, Nat.le_refl _, id, Nat.le_of_eq (congrArg (· + _) (turns_note h))⟩

theorem Moved.fail : Moved loop p p.fail := by
  refine ⟨rfl, Nat.le_refl _, fun _ => rfl, ?_⟩
  have hErr : p.rd.err.toNat ≤ 1 := Bool.toNat_le _
  simp only [Probe.fail, Bool.toNat_true]
  omega

theorem Safe.fail (h : p.Safe) : p.fail.Safe := ⟨h.size, h.inside, h.within, h.sticky, fun _ => rfl⟩

theorem Safe.note (h : p.Safe) {a : Access} (hWithin : a.Within p.rd.data.length)
    (hCall : ∀ pos err, a = .call pos err → err = p.rd.err) : (p.note a).Safe := by
  have hErrors : errors (p.note a).log = errors p.log ∨
      errors (p.note a).log = errors p.log ++ [p.rd.err] := by
    rw [Probe.note, errors_append]
    cases a with
    | call pos err => exact Or.inr (by rw [hCall pos err rfl]; rfl)
    | _ => exact Or.inl (List.append_nil _)
  refine ⟨h.size, h.inside, ?_, ?_, ?_⟩
  · intro b hb
    rcases List.mem_append.mp hb with hOld | hNew
    · exact h.within b hOld
    · rw [List.mem_singleton.mp hNew]
      exact hWithin
  · unfold Sticky
    rcases hErrors with hSame | hMore
    · rw [hSame]
      exact h.sticky
    · rw [hMore, List.pairwise_append]
      refine ⟨h.sticky, List.pairwise_singleton _ _, ?_⟩
      rintro before hBefore after hAfter rfl
      rw [List.mem_singleton.mp hAfter]
      exact h.latest hBefore
  · intro hTrue
    rcases hErrors with hSame | hMore
    · exact h.latest (by rwa [hSame] at hTrue)
    · rw [hMore] at hTrue
      rcases List.mem_append.mp hTrue with hOld | hNew
      · exact h.latest hOld
      · exact (List.mem_singleton.mp hNew).symm

theorem Safe.returned (h : p.Safe) : p.returned.Safe :=
  h.note h.inside fun _ _ hCall => (Access.call.inj hCall).2.symm

theorem Moved.returned : Moved loop p p.returned := .note nofun

theorem Safe.advance (h : p.Safe) {count : Nat} (hCount : count < 2 ^ 32)
    (hFits : p.rd.pos + count ≤ p.rd.data.length) : (p.advance count).Safe := by
  have hMoved : ({ p with rd := { p.rd with pos := sizeAdd p.rd.pos count } } : Probe).Safe := by
    rw [h.sizeAdd_eq hCount]
    exact { h with inside := hFits }
  exact hMoved.note hFits nofun

theorem Safe.moved_advance (h : p.Safe) {count : Nat} (hCount : count < 2 ^ 32) :
    Moved loop p (p.advance count) ∧ (p.advance count).rd.pos = p.rd.pos + count := by
  have hPos : (p.advance count).rd.pos = p.rd.pos + count := h.sizeAdd_eq hCount
  refine ⟨⟨rfl, ?_, id, ?_⟩, hPos⟩
  · rw [hPos]
    exact Nat.le_add_right _ _
  · have hErr : (p.advance count).rd.err = p.rd.err := rfl
    rw [turns_advance, hPos, hErr]
    omega

end Probe

open Probe

/-- What every decoder keeps and respects, for the turns of one loop. -/
def discipline (loop : DecodingLoop) : Discipline Probe where
  inv := Probe.Safe
  rel := Probe.Moved loop
  refl p _ := .refl p
  trans _ _ _ _ := .trans

namespace Decoder

variable {loop : DecodingLoop} {α β : Type}

theorem obeys_fail : Obeys (discipline loop) fail := fun _ h => ⟨h.fail, .fail⟩

theorem obeys_failed {p : Probe} (h : p.Safe) : p.fail.returned.Safe ∧ Moved loop p p.fail.returned :=
  ⟨h.fail.returned, Moved.fail.trans .returned⟩

theorem obeys_advanced {p : Probe} (h : p.Safe) {count : Nat} (hCount : count < 2 ^ 32)
    (hShort : p.short count = false) :
    (p.advance count).returned.Safe ∧ Moved loop p (p.advance count).returned :=
  ⟨(h.advance hCount (h.fits hCount hShort)).returned, (h.moved_advance hCount).1.trans .returned⟩

theorem obeys_rdUint {width : Nat} (hWidth : width < 2 ^ 32) : Obeys (discipline loop) (rdUint width) := by
  intro p h
  cases hShort : p.short width with
  | true =>
    rw [ObeysFrom, (rdUint_short hShort).2]
    exact obeys_failed h
  | false =>
    rw [ObeysFrom, (rdUint_fits hShort).2]
    exact obeys_advanced h hWidth hShort

theorem obeys_rdU8 : Obeys (discipline loop) rdU8 := obeys_rdUint (by decide)

theorem obeys_rdU16 : Obeys (discipline loop) rdU16 := obeys_rdUint (by decide)

theorem obeys_rdU32 : Obeys (discipline loop) rdU32 := obeys_rdUint (by decide)

theorem obeys_rdU64 : Obeys (discipline loop) rdU64 :=
  obeys_rdU32.bind fun _ => obeys_rdU32.bind fun _ => .pure _

theorem length_bytesAt (p : Probe) (count : Nat) : (p.bytesAt count).length = count := by
  simp [Probe.bytesAt]

theorem value_rdU32_lt (p : Probe) : value rdU32 p < 2 ^ 32 := by
  cases hShort : p.short 4 with
  | true =>
    have hZero : value rdU32 p = 0 := (rdUint_short hShort).1
    rw [hZero]
    exact Nat.two_pow_pos 32
  | false =>
    have hWord : value rdU32 p = ofLittleEndian (p.bytesAt 4) := (rdUint_fits hShort).1
    have hLt := ofLittleEndian_lt (p.bytesAt 4)
    rw [length_bytesAt] at hLt
    rw [hWord]
    exact hLt

theorem obeys_allocated {p : Probe} (h : p.Safe) {n size : Nat} (hCount : n < 2 ^ 32)
    (hShort : p.short n = false) (hSize : size ≤ n + 1) (ok : Bool) :
    (if ok then ((p.note (.block size p.rd.pos)).advance n).returned
        else (p.note (.block size p.rd.pos)).fail.returned).Safe ∧
      Moved loop p (if ok then ((p.note (.block size p.rd.pos)).advance n).returned
        else (p.note (.block size p.rd.pos)).fail.returned) := by
  have hFits := h.fits hCount hShort
  have hBlock : (p.note (.block size p.rd.pos)).Safe := h.note ⟨h.inside, by omega⟩ nofun
  have hNote : Moved loop p (p.note (.block size p.rd.pos)) := .note nofun
  split
  · obtain ⟨hSafe, hMoved⟩ := @obeys_advanced loop _ hBlock n hCount hShort
    exact ⟨hSafe, hNote.trans hMoved⟩
  · obtain ⟨hSafe, hMoved⟩ := @obeys_failed loop _ hBlock
    exact ⟨hSafe, hNote.trans hMoved⟩

section Allocating

variable {alloc : Nat → Bool}

theorem obeys_takeStr {n : Nat} (hCount : n < 2 ^ 32) {p : Probe} (h : p.Safe) :
    ObeysFrom (discipline loop) (takeStr alloc n) p := by
  cases hShort : p.rd.err || p.short n with
  | true =>
    rw [ObeysFrom, (takeStr_short alloc hShort).2]
    exact obeys_failed h
  | false =>
    rw [ObeysFrom, (takeStr_fits alloc hShort).2]
    exact obeys_allocated h hCount (Bool.or_eq_false_iff.mp hShort).2 (Nat.le_refl _) _

theorem obeys_takeBlob {n : Nat} (hCount : n < 2 ^ 32) {p : Probe} (h : p.Safe) :
    ObeysFrom (discipline loop) (takeBlob alloc n) p := by
  cases hShort : p.rd.err || p.short n with
  | true =>
    rw [ObeysFrom, (takeBlob_short alloc hShort).2]
    exact obeys_failed h
  | false =>
    rcases Nat.eq_zero_or_pos n with rfl | hSome
    · rw [ObeysFrom, (takeBlob_empty alloc hShort).2]
      exact ⟨h.returned, .returned⟩
    · rw [ObeysFrom, (takeBlob_fits alloc hShort (Nat.ne_of_gt hSome)).2]
      exact obeys_allocated h hCount (Bool.or_eq_false_iff.mp hShort).2 (Nat.le_succ n) _

theorem obeys_rdStr : Obeys (discipline loop) (rdStr alloc) := by
  intro p h
  have hWord := @obeys_rdU32 loop p h
  exact .bind h hWord (obeys_takeStr (value_rdU32_lt p) hWord.1)

theorem obeys_rdBlob : Obeys (discipline loop) (rdBlob alloc) := by
  intro p h
  have hWord := @obeys_rdU32 loop p h
  exact .bind h hWord (obeys_takeBlob (value_rdU32_lt p) hWord.1)

end Allocating

/-- Begun without an error, the item consumes a byte or leaves an error. -/
def Eager (loop : DecodingLoop) (item : Decoder α) : Prop :=
  ∀ p : Probe, p.Safe → p.rd.err = false →
    turns loop (after item p).log + p.rd.pos + 1 ≤
      turns loop p.log + (after item p).rd.pos + (after item p).rd.err.toNat

theorem Eager.bind {item : Decoder α} {rest : α → Decoder β} (h : Eager loop item)
    (hItem : Obeys (discipline loop) item) (hRest : ∀ v, Obeys (discipline loop) (rest v)) :
    Eager loop (item >>= rest) := by
  intro p hSafe hErr
  have hPaid := h p hSafe hErr
  have hMoved := (hRest (value item p) _ (hItem p hSafe).1).2.paid
  rw [after_bind]
  omega

theorem eager_rdUint {width : Nat} (hWidth : width < 2 ^ 32) (hSome : 0 < width) :
    Eager loop (rdUint width) := by
  intro p hSafe hErr
  cases hShort : p.short width with
  | true =>
    rw [(rdUint_short hShort).2, turns_returned]
    exact Nat.le_refl _
  | false =>
    have hPos : (p.advance width).returned.rd.pos = p.rd.pos + width :=
      (@Safe.moved_advance loop p hSafe width hWidth).2
    rw [(rdUint_fits hShort).2, turns_returned, turns_advance, hPos]
    omega

theorem eager_rdU32 : Eager loop rdU32 := eager_rdUint (by decide) (by decide)

theorem eager_rdU64 : Eager loop rdU64 :=
  eager_rdU32.bind obeys_rdU32 fun _ => obeys_rdU32.bind fun _ => .pure _

/-- The byte consumed by the item pays for its turn. -/
theorem obeys_turn {item : Decoder α} (turning : DecodingLoop) (hItem : Obeys (discipline loop) item)
    (hEager : Eager loop item) {p : Probe} (h : p.Safe) (hErr : p.rd.err = false) :
    ObeysFrom (discipline loop) (do note (.turn turning); item) p := by
  have hNote : (p.note (.turn turning)).Safe := h.note trivial nofun
  obtain ⟨hSafe, hMoved⟩ := hItem _ hNote
  rcases eq_or_ne turning loop with rfl | hOther
  · have hPaid := hEager _ hNote hErr
    have hTurns : turns turning (p.note (.turn turning)).log = turns turning p.log + 1 := by
      simp [turns, Probe.note, List.count_append]
    refine ⟨hSafe, hMoved.data_eq, hMoved.pos_le, hMoved.err_of, ?_⟩
    rw [hTurns] at hPaid
    have hPos : (p.note (.turn turning)).rd.pos = p.rd.pos := rfl
    rw [hPos] at hPaid
    change turns turning (after item (p.note (.turn turning))).log + _ ≤
      _ + ((after item (p.note (.turn turning))).rd.pos + (after item (p.note (.turn turning))).rd.err.toNat)
    rw [hErr, Bool.toNat_false]
    omega
  · have hTurn : Moved loop p (p.note (.turn turning)) := .note fun hSame => hOther (Access.turn.inj hSame)
    exact ⟨hSafe, hTurn.trans hMoved⟩

theorem obeys_each {item : Decoder α} (turning : DecodingLoop) (hItem : Obeys (discipline loop) item)
    (hEager : Eager loop item) (count : Nat) : Obeys (discipline loop) (each turning item count) :=
  .repeatWhile (fun _ h hGo => obeys_turn turning hItem hEager h (by simpa using hGo)) count

section Allocating

variable {alloc : Nat → Bool}

theorem err_of_rdStr {p : Probe} {s : Bytes} (h : value (rdStr alloc) p = some s) :
    (after (rdStr alloc) p).rd.err = false := by
  rw [rdStr, value_bind] at h
  rw [rdStr, after_bind]
  generalize value rdU32 p = n at *
  generalize after rdU32 p = q at *
  cases hShort : q.rd.err || q.short n with
  | true =>
    rw [(takeStr_short alloc hShort).1] at h
    cases h
  | false =>
    rw [(takeStr_fits alloc hShort).1] at h
    rw [(takeStr_fits alloc hShort).2]
    split
    · exact (Bool.or_eq_false_iff.mp hShort).1
    · rename_i hFails
      rw [if_neg hFails] at h
      cases h

theorem eager_rdStr : Eager loop (rdStr alloc) := by
  intro p h hErr
  have hWord := @obeys_rdU32 loop p h
  have hPaid := @eager_rdU32 loop p h hErr
  have hMoved := (@obeys_takeStr loop alloc _ (value_rdU32_lt p) _ hWord.1).2.paid
  rw [rdStr, after_bind]
  omega

theorem strings_succ (count : Nat) :
    strings alloc (count + 1) = (do note (.turn .strings); rdStr alloc) >>= fun
      | none => do
        fail
        return none
      | some s => do
        let rest ← strings alloc count
        return rest.map (s :: ·) := by
  rw [strings, bind_assoc]
  refine bind_congr fun _ => bind_congr fun read => ?_
  cases read with
  | none => rfl
  | some s => exact bind_congr fun rest => by cases rest <;> rfl

theorem obeys_strings (count : Nat) {p : Probe} (h : p.Safe) (hErr : p.rd.err = false) :
    ObeysFrom (discipline loop) (strings alloc count) p := by
  induction count generalizing p with
  | zero => exact Obeys.pure _ p h
  | succ count ih =>
    have hTurn := obeys_turn .strings (@obeys_rdStr loop alloc) eager_rdStr h hErr
    rw [strings_succ]
    refine .bind h hTurn ?_
    rw [value_bind, after_bind]
    cases hRead : value (rdStr alloc) (after (note (.turn .strings)) p) with
    | none => exact obeys_fail.bind (fun _ => .pure _) _ hTurn.1
    | some s =>
      have hNext := ih hTurn.1 (err_of_rdStr hRead)
      exact .bind hTurn.1 hNext (Obeys.pure _ _ hNext.1)

theorem obeys_strArray : Obeys (discipline loop) (strArray alloc) := by
  refine obeys_rdU32.bind fun count p h => ?_
  change ObeysFrom (discipline loop) (if p.rd.err = true then _ else _) p
  split
  · exact Obeys.pure _ p h
  rename_i hErr
  split
  · exact Obeys.pure _ p h
  split
  · exact obeys_fail.bind (fun _ => .pure _) p h
  rename_i hBound
  have hArray : (p.note (.array ((count + 1) * 8))).Safe :=
    h.note (Nat.mul_le_mul_right 8 (by omega)) nofun
  have hNote : ObeysFrom (discipline loop) (note (.array ((count + 1) * 8))) p := ⟨hArray, .note nofun⟩
  refine .bind h hNote ?_
  split
  · exact obeys_strings count hArray (Bool.not_eq_true _ ▸ hErr)
  · exact obeys_fail.bind (fun _ => .pure _) _ hArray

theorem obeys_optional {item : Decoder α} {absent : α} (h : Obeys (discipline loop) item) :
    Obeys (discipline loop) (optional item absent) :=
  Obeys.get.bind fun _ => .ite h (.pure _)

theorem obeys_createRequest : Obeys (discipline loop) (createRequest alloc) :=
  obeys_rdStr.bind fun _ => obeys_strArray.bind fun _ => obeys_strArray.bind fun _ =>
    (obeys_optional obeys_rdStr).bind fun _ => .pure _

theorem obeys_resizeRequest : Obeys (discipline loop) resizeRequest :=
  obeys_rdU64.bind fun _ => obeys_rdU16.bind fun _ => obeys_rdU16.bind fun _ => .pure _

theorem obeys_peekRequest : Obeys (discipline loop) peekRequest :=
  obeys_rdU64.bind fun _ => (obeys_optional obeys_rdU32).bind fun _ => .pure _

theorem obeys_groupSetRequest : Obeys (discipline loop) (groupSetRequest alloc) :=
  obeys_rdU64.bind fun _ => obeys_rdBlob.bind fun _ => .pure _

theorem obeys_groupAddRequest : Obeys (discipline loop) groupAddRequest :=
  obeys_rdU64.bind fun _ => obeys_rdU64.bind fun _ => .pure _

theorem obeys_errorReply : Obeys (discipline loop) (errorReply alloc) :=
  obeys_rdU32.bind fun _ => obeys_rdStr.bind fun _ => .pure _

theorem obeys_sessionTail (id : Nat) : Obeys (discipline loop) (do
    let pid ← rdU32
    let alive ← rdU8
    let attached ← rdU8
    let createdAt ← rdU64
    let cwd ← rdStr alloc
    return (⟨id, pid, alive != 0, attached != 0, toInt64 createdAt, (cwd.map cString).getD []⟩ :
      EpiSessionInfo)) :=
  obeys_rdU32.bind fun _ => obeys_rdU8.bind fun _ => obeys_rdU8.bind fun _ => obeys_rdU64.bind fun _ =>
    obeys_rdStr.bind fun _ => .pure _

theorem obeys_sessions (count : Nat) :
    Obeys (discipline loop) (each .sessions (sessionInfo alloc) count) :=
  obeys_each .sessions (obeys_rdU64.bind obeys_sessionTail)
    (eager_rdU64.bind obeys_rdU64 obeys_sessionTail) count

theorem obeys_sessionsReply : Obeys (discipline loop) (sessionsReply alloc) :=
  obeys_rdU32.bind obeys_sessions

theorem obeys_instanceIdReply : Obeys (discipline loop) (instanceIdReply alloc) :=
  obeys_rdU32.bind fun count => (obeys_sessions count).bind fun _ => obeys_optional obeys_rdU64

theorem obeys_groupTail (id : Nat) : Obeys (discipline loop) (do
    let createdAt ← rdU64
    let blob ← rdBlob alloc
    let count ← rdU32
    let members ← each .members rdU64 count
    return (⟨id, toInt64 createdAt, blob.getD [], members⟩ : EpiGroupInfo)) :=
  obeys_rdU64.bind fun _ => obeys_rdBlob.bind fun _ => obeys_rdU32.bind fun count =>
    (obeys_each .members obeys_rdU64 eager_rdU64 count).bind fun _ => .pure _

theorem obeys_groupInfo : Obeys (discipline loop) (groupInfo alloc) := obeys_rdU64.bind obeys_groupTail

theorem eager_groupInfo : Eager loop (groupInfo alloc) := eager_rdU64.bind obeys_rdU64 obeys_groupTail

theorem obeys_groupsReply : Obeys (discipline loop) (groupsReply alloc) :=
  obeys_rdU64.bind fun _ => obeys_rdU32.bind fun count =>
    (obeys_each .groups obeys_groupInfo eager_groupInfo count).bind fun _ => .pure _

theorem obeys_peekReply (wanted : Bool) : Obeys (discipline loop) (peekReply alloc wanted) :=
  obeys_rdU64.bind fun _ => obeys_rdBlob.bind fun _ =>
    .ite ((obeys_optional obeys_rdU64).bind fun _ => .pure _) (.bind (.pure _) fun _ => .pure _)

theorem groupBlob_succ (gid count : Nat) :
    groupBlob alloc gid (count + 1) = get >>= fun p : Probe =>
      if p.rd.err then pure none
      else (do note (.turn .groups); groupInfo alloc) >>= fun info => get >>= fun q : Probe =>
        if info.id = gid ∧ q.rd.err = false then pure (some info.blob)
        else groupBlob alloc gid count := by
  rw [groupBlob]
  refine bind_congr fun p => ?_
  rw [bind_assoc]

theorem obeys_groupBlob (gid count : Nat) : Obeys (discipline loop) (groupBlob alloc gid count) := by
  induction count with
  | zero => exact .pure _
  | succ count ih =>
    intro p h
    rw [groupBlob_succ]
    change ObeysFrom (discipline loop) (if p.rd.err = true then _ else _) p
    split
    · exact Obeys.pure _ p h
    · rename_i hErr
      have hTurn := obeys_turn .groups (@obeys_groupInfo loop alloc) eager_groupInfo h
        (Bool.not_eq_true _ ▸ hErr)
      refine .bind h hTurn (Obeys.get.bind (fun q => ?_) _ hTurn.1)
      exact .ite (.pure _) ih

theorem obeys_groupBlobReply (gid : Nat) : Obeys (discipline loop) (groupBlobReply alloc gid) :=
  obeys_rdU64.bind fun _ => obeys_rdU32.bind fun count => obeys_groupBlob gid count

end Allocating

end Decoder

theorem obeys_probe (loop : DecodingLoop) (decoding : Decoding) (alloc : Nat → Bool) {body : Bytes}
    (h : body.length < 2 ^ 63) :
    (decoding.probe alloc body).Safe ∧ Moved loop (.start body) (decoding.probe alloc body) := by
  have hStart := safe_start h
  cases decoding with
  | sessionRequest => exact Decoder.obeys_rdU64 _ hStart
  | createRequest => exact Decoder.obeys_createRequest _ hStart
  | resizeRequest => exact Decoder.obeys_resizeRequest _ hStart
  | peekRequest => exact Decoder.obeys_peekRequest _ hStart
  | groupNewRequest => exact Decoder.obeys_optional Decoder.obeys_rdBlob _ hStart
  | groupSetRequest => exact Decoder.obeys_groupSetRequest _ hStart
  | groupAddRequest => exact Decoder.obeys_groupAddRequest _ hStart
  | errorReply => exact Decoder.obeys_errorReply _ hStart
  | idReply => exact Decoder.obeys_rdU64 _ hStart
  | sessionsReply => exact Decoder.obeys_sessionsReply _ hStart
  | instanceIdReply => exact Decoder.obeys_instanceIdReply _ hStart
  | groupsReply => exact Decoder.obeys_groupsReply _ hStart
  | peekReply wanted => exact Decoder.obeys_peekReply wanted _ hStart
  | groupBlobReply gid => exact Decoder.obeys_groupBlobReply gid _ hStart

/-- Whatever the bytes of a body declare, a decoder stays inside the body, never forgets an error,
allocates no more than is left of the body, and turns its loops no more often than the body is long. -/
theorem decoder_stays_inside (decoding : Decoding) (alloc : Nat → Bool) (body : Object) :
    (∀ a ∈ (decoding.probe alloc body.bytes).log, a.Within body.bytes.length) ∧
      (decoding.probe alloc body.bytes).rd.pos ≤ body.bytes.length ∧
      Sticky (decoding.probe alloc body.bytes).log ∧
      ∀ loop, turns loop (decoding.probe alloc body.bytes).log ≤ body.bytes.length + 1 := by
  have hAll := fun loop => obeys_probe loop decoding alloc body.bounded
  obtain ⟨hSafe, hMoved⟩ := hAll .strings
  have hData : (decoding.probe alloc body.bytes).rd.data = body.bytes := hMoved.data_eq
  have hWithin := hSafe.within
  have hInside := hSafe.inside
  rw [hData] at hWithin hInside
  refine ⟨hWithin, hInside, hSafe.sticky, fun loop => ?_⟩
  have hPaid := (hAll loop).2.paid
  have hError : (decoding.probe alloc body.bytes).rd.err.toNat ≤ 1 := Bool.toNat_le _
  have hNone : turns loop (start body.bytes).log = 0 := rfl
  omega

end Epimone
