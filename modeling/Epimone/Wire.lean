import Epimone.Memory

/-! # The wire format

Messages, the growable output buffer and the reader cursor of
epimone-protocol.h. The reader works on one frame body; the answers of the
allocations it makes are indexed by the cursor position at which they happen,
those of the output buffer by the size asked for.
-/
set_option autoImplicit false

namespace Epimone

def epiPeekDefaultBytes : Nat := 64 * 1024

def epiGroupBlobMax : Nat := 64 * 1024

def epiGroupMax : Nat := 4096

inductive EpiMsgType where
  | create | list | attach | kill | resize | detach | peek
  | groupNew | groupSet | groupAdd | groupRemove | groupList
  | id | listReply | attached | ok | error | peekReply | groupId | groupListReply
  deriving DecidableEq, Repr

def EpiMsgType.code : EpiMsgType → Nat
  | .create => 1
  | .list => 2
  | .attach => 3
  | .kill => 4
  | .resize => 5
  | .detach => 6
  | .peek => 7
  | .groupNew => 8
  | .groupSet => 9
  | .groupAdd => 10
  | .groupRemove => 11
  | .groupList => 12
  | .id => 100
  | .listReply => 101
  | .attached => 102
  | .ok => 103
  | .error => 104
  | .peekReply => 105
  | .groupId => 106
  | .groupListReply => 107

/-- The requests dispatch_frame knows, by their code. -/
def EpiMsgType.ofRequest : Nat → Option EpiMsgType
  | 1 => some .create
  | 2 => some .list
  | 3 => some .attach
  | 4 => some .kill
  | 5 => some .resize
  | 6 => some .detach
  | 7 => some .peek
  | 8 => some .groupNew
  | 9 => some .groupSet
  | 10 => some .groupAdd
  | 11 => some .groupRemove
  | 12 => some .groupList
  | _ => none

inductive EpiErrCode where
  | none | protocol | notFound | spawn | internal | tooLarge
  deriving DecidableEq, Repr

def EpiErrCode.code : EpiErrCode → Nat
  | .none => 0
  | .protocol => 1
  | .notFound => 2
  | .spawn => 3
  | .internal => 4
  | .tooLarge => 5

def littleEndian : Nat → Nat → Bytes
  | 0, _ => []
  | width + 1, v => UInt8.ofNat v :: littleEndian width (v / 256)

def ofLittleEndian : Bytes → Nat
  | [] => 0
  | b :: bytes => b.toNat + 256 * ofLittleEndian bytes

def ascii (s : String) : Bytes := s.toList.map fun ch => UInt8.ofNat ch.toNat

/-- A char pointer is read up to its first NUL. -/
def cString (bytes : Bytes) : Bytes := bytes.takeWhile (· != 0)

structure EpiBuf where
  data : Bytes
  cap : Nat
  oom : Bool

def epiBufInit : EpiBuf := ⟨[], 0, false⟩

section Buffer

variable (alloc : Nat → Bool)

def epiBufReserve (b : EpiBuf) (extra : Nat) : EpiBuf × Bool :=
  let need := b.data.length + extra
  if need ≤ b.cap then (b, true)
  else if alloc need then
    ({ b with cap := doubleCapacity need need 64 (if b.cap = 0 then 64 else b.cap) }, true)
  else ({ b with oom := true }, false)

def epiBufPutBytes (b : EpiBuf) (p : Bytes) : EpiBuf :=
  match epiBufReserve alloc b p.length with
  | (b, true) => { b with data := b.data ++ p }
  | (b, false) => b

def epiBufPutU8 (b : EpiBuf) (v : Nat) : EpiBuf := epiBufPutBytes alloc b (littleEndian 1 v)

def epiBufPutU16 (b : EpiBuf) (v : Nat) : EpiBuf := epiBufPutBytes alloc b (littleEndian 2 v)

def epiBufPutU32 (b : EpiBuf) (v : Nat) : EpiBuf := epiBufPutBytes alloc b (littleEndian 4 v)

def epiBufPutU64 (b : EpiBuf) (v : Nat) : EpiBuf :=
  epiBufPutU32 alloc (epiBufPutU32 alloc b (v % 2 ^ 32)) (v / 2 ^ 32 % 2 ^ 32)

def epiBufPutBlob (b : EpiBuf) (p : Bytes) : EpiBuf :=
  let b := epiBufPutU32 alloc b p.length
  if p.length = 0 then b else epiBufPutBytes alloc b p

def epiBufPutStr (b : EpiBuf) (s : Bytes) : EpiBuf := epiBufPutBlob alloc b (cString s)

def epiMsgStart (type : EpiMsgType) : EpiBuf :=
  epiBufPutU32 alloc (epiBufPutU32 alloc epiBufInit 0) type.code

def epiMsgEnd (b : EpiBuf) : EpiBuf :=
  if b.oom ∨ b.data.length < 4 then b
  else { b with data := littleEndian 4 (b.data.length - 4) ++ b.data.drop 4 }

end Buffer

structure EpiRd where
  data : Bytes
  pos : Nat
  err : Bool

/-- A trailing field is read only if bytes remain. -/
def EpiRd.more (r : EpiRd) : Bool := !r.err && decide (r.pos < r.data.length)

def epiRdInit (data : Bytes) : EpiRd := ⟨data, 0, false⟩

def epiRdUint (width : Nat) (r : EpiRd) : Nat × EpiRd :=
  if r.data.length < r.pos + width then (0, { r with err := true })
  else (ofLittleEndian ((r.data.drop r.pos).take width), { r with pos := r.pos + width })

def epiRdU8 (r : EpiRd) : Nat × EpiRd := epiRdUint 1 r

def epiRdU16 (r : EpiRd) : Nat × EpiRd := epiRdUint 2 r

def epiRdU32 (r : EpiRd) : Nat × EpiRd := epiRdUint 4 r

def epiRdU64 (r : EpiRd) : Nat × EpiRd :=
  let (lo, r) := epiRdU32 r
  let (hi, r) := epiRdU32 r
  (lo + hi * 2 ^ 32, r)

def epiRdStr (alloc : Nat → Bool) (r : EpiRd) : Option Bytes × EpiRd :=
  let (n, r) := epiRdU32 r
  if r.err ∨ r.data.length < r.pos + n then (none, { r with err := true })
  else if alloc r.pos then
    (some ((r.data.drop r.pos).take n), { r with pos := r.pos + n })
  else (none, { r with err := true })

/-- The block, none for the NULL of an error, of a failed malloc or of an empty block. -/
def epiRdBlob (alloc : Nat → Bool) (r : EpiRd) : Option Bytes × EpiRd :=
  let (n, r) := epiRdU32 r
  if r.err ∨ r.data.length < r.pos + n then (none, { r with err := true })
  else if n = 0 then (none, r)
  else if alloc r.pos then
    (some ((r.data.drop r.pos).take n), { r with pos := r.pos + n })
  else (none, { r with err := true })

end Epimone
