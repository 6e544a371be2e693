import Epimone.Library.Program
import Epimone.Wire

/-! # Decoders

The readers of a received body, call by call: `Probe` is the cursor together
with everything the decoder has done to memory so far. First the `epi_rd_*`
functions with `size_t` arithmetic and explicit indices, then what the request
handlers of the daemon and the clients read with them. epimone-ctl reads ID,
LIST_REPLY, PEEK_REPLY and GROUP_LIST_REPLY by the same calls as the client
library; its `group-blob` stops at the group it looks for.
-/
set_option autoImplicit false

namespace Epimone

open Program

inductive DecodingLoop where
  | strings | sessions | groups | members
  deriving DecidableEq, Repr

/-- What a decoder does besides moving the cursor: it reads bytes of the body, it allocates, a call of
a reader returns, and a turn of a loop begins. -/
inductive Access where
  | read (start count : Nat)
  | block (size pos : Nat)
  | array (size : Nat)
  | call (pos : Nat) (err : Bool)
  | turn (loop : DecodingLoop)
  deriving DecidableEq, Repr

structure Probe where
  rd : EpiRd
  log : List Access

namespace Probe

def start (body : Bytes) : Probe := ⟨epiRdInit body, []⟩

def note (p : Probe) (a : Access) : Probe := { p with log := p.log ++ [a] }

def fail (p : Probe) : Probe := { p with rd := { p.rd with err := true } }

/-- The bytes data[pos], data[pos + 1], ... of the body are read, and the cursor moves past them. -/
def advance (p : Probe) (count : Nat) : Probe :=
  { p with rd := { p.rd with pos := sizeAdd p.rd.pos count } }.note (.read p.rd.pos count)

def returned (p : Probe) : Probe := p.note (.call p.rd.pos p.rd.err)

/-- r->pos + count > r->len -/
def short (p : Probe) (count : Nat) : Bool := decide (p.rd.data.length < sizeAdd p.rd.pos count)

def bytesAt (p : Probe) (count : Nat) : Bytes :=
  (List.range count).map fun i => p.rd.data.getD (p.rd.pos + i) 0

end Probe

abbrev Decoder := StateM Probe

namespace Decoder

def note (a : Access) : Decoder Unit := fun p => ((), p.note a)

def fail : Decoder Unit := fun p => ((), p.fail)

def rdUint (width : Nat) : Decoder Nat := fun p =>
  if p.short width then (0, p.fail.returned)
  else (ofLittleEndian (p.bytesAt width), (p.advance width).returned)

theorem rdUint_short {width : Nat} {p : Probe} (h : p.short width = true) :
    Gives (rdUint width) p 0 p.fail.returned := by
  simp [Gives, value, after, rdUint, StateT.run, h]

theorem rdUint_fits {width : Nat} {p : Probe} (h : p.short width = false) :
    Gives (rdUint width) p (ofLittleEndian (p.bytesAt width)) (p.advance width).returned := by
  simp [Gives, value, after, rdUint, StateT.run, h]

def rdU8 : Decoder Nat := rdUint 1

def rdU16 : Decoder Nat := rdUint 2

def rdU32 : Decoder Nat := rdUint 4

def rdU64 : Decoder Nat := do
  let lo ← rdU32
  let hi ← rdU32
  return lo + hi * 2 ^ 32

section Allocating

variable (alloc : Nat → Bool)

def takeStr (n : Nat) : Decoder (Option Bytes) := fun p =>
  if p.rd.err || p.short n then (none, p.fail.returned)
  else
    let q := p.note (.block (n + 1) p.rd.pos)
    if alloc p.rd.pos then (some (p.bytesAt n), (q.advance n).returned) else (none, q.fail.returned)

def rdStr : Decoder (Option Bytes) := do
  let n ← rdU32
  takeStr alloc n

theorem takeStr_short {n : Nat} {p : Probe} (h : (p.rd.err || p.short n) = true) :
    Gives (takeStr alloc n) p none p.fail.returned := by
  simp [Gives, value, after, takeStr, StateT.run, h]

theorem takeStr_fits {n : Nat} {p : Probe} (h : (p.rd.err || p.short n) = false) :
    Gives (takeStr alloc n) p (if alloc p.rd.pos then some (p.bytesAt n) else none)
      (if alloc p.rd.pos then ((p.note (.block (n + 1) p.rd.pos)).advance n).returned
        else (p.note (.block (n + 1) p.rd.pos)).fail.returned) := by
  simp only [Gives, value, after, takeStr, StateT.run, h]
  cases alloc p.rd.pos <;> exact ⟨rfl, rfl⟩

def takeBlob (n : Nat) : Decoder (Option Bytes) := fun p =>
  if p.rd.err || p.short n then (none, p.fail.returned)
  else if n = 0 then (none, p.returned)
  else
    let q := p.note (.block n p.rd.pos)
    if alloc p.rd.pos then (some (p.bytesAt n), (q.advance n).returned) else (none, q.fail.returned)

def rdBlob : Decoder (Option Bytes) := do
  let n ← rdU32
  takeBlob alloc n

theorem takeBlob_short {n : Nat} {p : Probe} (h : (p.rd.err || p.short n) = true) :
    Gives (takeBlob alloc n) p none p.fail.returned := by
  simp [Gives, value, after, takeBlob, StateT.run, h]

theorem takeBlob_empty {p : Probe} (h : (p.rd.err || p.short 0) = false) :
    Gives (takeBlob alloc 0) p none p.returned := by
  simp [Gives, value, after, takeBlob, StateT.run, h]

theorem takeBlob_fits {n : Nat} {p : Probe} (h : (p.rd.err || p.short n) = false) (hSome : n ≠ 0) :
    Gives (takeBlob alloc n) p (if alloc p.rd.pos then some (p.bytesAt n) else none)
      (if alloc p.rd.pos then ((p.note (.block n p.rd.pos)).advance n).returned
        else (p.note (.block n p.rd.pos)).fail.returned) := by
  simp only [Gives, value, after, takeBlob, StateT.run, h, if_neg hSome]
  cases alloc p.rd.pos <;> exact ⟨rfl, rfl⟩

def strings : Nat → Decoder (Option (List Bytes))
  | 0 => return some []
  | count + 1 => do
    note (.turn .strings)
    match ← rdStr alloc with
    | none => do
      fail
      return none
    | some s =>
      match ← strings count with
      | none => return none
      | some rest => return some (s :: rest)

/-- read_str_array -/
def strArray : Decoder (Option (List Bytes)) := do
  let count ← rdU32
  let p ← get
  if p.rd.err then return none
  else if count = 0 then return none
  else if 4096 < count then do
    fail
    return none
  else do
    note (.array ((count + 1) * 8))
    if alloc p.rd.pos then strings alloc count
    else do
      fail
      return none

/-- for (i = 0; i < count && !r.err; i++) -/
def each {α : Type} (loop : DecodingLoop) (item : Decoder α) (count : Nat) : Decoder (List α) :=
  repeatWhile (fun p => !p.rd.err) (do note (.turn loop); item) count

end Allocating

end Decoder

/-! What the daemon reads of each request. -/

structure CreateRequest where
  cwd : Option Bytes
  argv : Option (List Bytes)
  env : Option (List Bytes)
  execPath : Option Bytes
  deriving DecidableEq, Repr

namespace Decoder

variable (alloc : Nat → Bool)

/-- An optional trailing field: it is read if bytes remain. -/
def optional {α : Type} (item : Decoder α) (absent : α) : Decoder α := do
  let p ← get
  if p.rd.more then item else return absent

def createRequest : Decoder CreateRequest := do
  let cwd ← rdStr alloc
  let argv ← strArray alloc
  let env ← strArray alloc
  let execPath ← optional (rdStr alloc) none
  return ⟨cwd, argv, env, execPath⟩

def resizeRequest : Decoder (Nat × Nat × Nat) := do
  let id ← rdU64
  let rows ← rdU16
  let cols ← rdU16
  return (id, rows, cols)

def peekRequest : Decoder (Nat × Nat) := do
  let id ← rdU64
  let maxBytes ← optional rdU32 epiPeekDefaultBytes
  return (id, maxBytes)

def groupNewRequest : Decoder (Option Bytes) := optional (rdBlob alloc) none

def groupSetRequest : Decoder (Nat × Option Bytes) := do
  let gid ← rdU64
  let blob ← rdBlob alloc
  return (gid, blob)

def groupAddRequest : Decoder (Nat × Nat) := do
  let gid ← rdU64
  let sid ← rdU64
  return (gid, sid)

end Decoder

/-! What the clients read of each reply. -/

structure EpiSessionInfo where
  id : Nat
  pid : Nat
  alive : Bool
  attached : Bool
  createdAt : Int
  cwd : Bytes
  deriving DecidableEq, Repr

structure EpiGroupInfo where
  id : Nat
  createdAt : Int
  blob : Bytes
  members : List Nat
  deriving DecidableEq, Repr

/-- A 64-bit word read as a signed one. -/
def toInt64 (v : Nat) : Int := if v < 2 ^ 63 then v else (v : Int) - 2 ^ 64

namespace Decoder

variable (alloc : Nat → Bool)

/-- The message of an ERROR reply; NULL is shown as a question mark. -/
def errorReply : Decoder (Nat × Bytes) := do
  let code ← rdU32
  let msg ← rdStr alloc
  return (code, (msg.map cString).getD (ascii "?"))

def idReply : Decoder Nat := rdU64

def sessionInfo : Decoder EpiSessionInfo := do
  let id ← rdU64
  let pid ← rdU32
  let alive ← rdU8
  let attached ← rdU8
  let createdAt ← rdU64
  let cwd ← rdStr alloc
  return ⟨id, pid, alive != 0, attached != 0, toInt64 createdAt, (cwd.map cString).getD []⟩

def sessionsReply : Decoder (List EpiSessionInfo) := do
  let count ← rdU32
  each .sessions (sessionInfo alloc) count

/-- The array is read only to be skipped. -/
def instanceIdReply : Decoder Nat := do
  let count ← rdU32
  let _ ← each .sessions (sessionInfo alloc) count
  optional rdU64 0

def groupInfo : Decoder EpiGroupInfo := do
  let id ← rdU64
  let createdAt ← rdU64
  let blob ← rdBlob alloc
  let count ← rdU32
  let members ← each .members rdU64 count
  return ⟨id, toInt64 createdAt, blob.getD [], members⟩

def groupsReply : Decoder (Nat × List EpiGroupInfo) := do
  let instanceId ← rdU64
  let count ← rdU32
  let groups ← each .groups (groupInfo alloc) count
  return (instanceId, groups)

/-- The tail, and the total if the caller wants it. -/
def peekReply (wanted : Bool) : Decoder (Bytes × Nat) := do
  let _ ← rdU64
  let tail ← rdBlob alloc
  let total ← if wanted then optional rdU64 0 else pure 0
  return (tail.getD [], total)

/-- The loop of group-blob. -/
def groupBlob (gid : Nat) : Nat → Decoder (Option Bytes)
  | 0 => return none
  | count + 1 => do
    let p ← get
    if p.rd.err then return none
    else do
      note (.turn .groups)
      let info ← groupInfo alloc
      let p ← get
      if info.id = gid ∧ p.rd.err = false then return some info.blob else groupBlob gid count

def groupBlobReply (gid : Nat) : Decoder (Option Bytes) := do
  let _ ← rdU64
  let count ← rdU32
  groupBlob alloc gid count

end Decoder

/-- The decoders: those of the request handlers of the daemon, then those of the clients. ATTACH, KILL,
DETACH and GROUP_REMOVE read the one id of `sessionRequest`. -/
inductive Decoding where
  | sessionRequest | createRequest | resizeRequest | peekRequest
  | groupNewRequest | groupSetRequest | groupAddRequest
  | errorReply | idReply | sessionsReply | instanceIdReply | groupsReply
  | peekReply (wanted : Bool)
  | groupBlobReply (gid : Nat)
  deriving DecidableEq, Repr

/-- The cursor and the log with which the decoder leaves a body. -/
def Decoding.probe (alloc : Nat → Bool) (body : Bytes) : Decoding → Probe
  | .sessionRequest => after Decoder.rdU64 (.start body)
  | .createRequest => after (Decoder.createRequest alloc) (.start body)
  | .resizeRequest => after Decoder.resizeRequest (.start body)
  | .peekRequest => after Decoder.peekRequest (.start body)
  | .groupNewRequest => after (Decoder.groupNewRequest alloc) (.start body)
  | .groupSetRequest => after (Decoder.groupSetRequest alloc) (.start body)
  | .groupAddRequest => after Decoder.groupAddRequest (.start body)
  | .errorReply => after (Decoder.errorReply alloc) (.start body)
  | .idReply => after Decoder.idReply (.start body)
  | .sessionsReply => after (Decoder.sessionsReply alloc) (.start body)
  | .instanceIdReply => after (Decoder.instanceIdReply alloc) (.start body)
  | .groupsReply => after (Decoder.groupsReply alloc) (.start body)
  | .peekReply wanted => after (Decoder.peekReply alloc wanted) (.start body)
  | .groupBlobReply gid => after (Decoder.groupBlobReply alloc gid) (.start body)

end Epimone
