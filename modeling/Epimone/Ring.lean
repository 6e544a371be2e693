import Epimone.Memory
import Epimone.Library.CircularWindow

/-! # The output ring of a session

The functions of ring.c over checked memory. A result of none stands for a
memcpy outside its buffers; the answer of each allocation is an argument, and
the status the C function returns is the second component. `copyOut` and
`copyIn` are the copies in one or two pieces that the C functions write out;
the inner none of a snapshot is NULL.
-/
set_option autoImplicit false

namespace Epimone

def epiRingCap : Nat := 1024 * 1024

def epiRingInitCap : Nat := 4096

structure Ring where
  buf : Bytes
  cap : Nat
  maxCap : Nat
  head : Nat
  size : Nat

def epiRingInit (cap : Nat) (a : Alloc) : Ring × Int :=
  let start := if cap < epiRingInitCap then cap else epiRingInitCap
  if cap = 0 then (⟨[], 0, cap, 0, 0⟩, 0)
  else
    match malloc a start with
    | none => (⟨[], 0, 0, 0, 0⟩, -1)
    | some buf => (⟨buf, start, cap, 0, 0⟩, 0)

def copyOut (r : Ring) (dst : Bytes) (start n : Nat) : Option Bytes :=
  let first := sizeSub r.cap start
  if n ≤ first then memcpy dst 0 r.buf start n
  else do
    let dst ← memcpy dst 0 r.buf start first
    memcpy dst first r.buf 0 (sizeSub n first)

def ringGrow (r : Ring) (need : Nat) (a : Alloc) : Option (Ring × Int) :=
  if need ≤ r.cap then some (r, 0)
  else if r.maxCap ≤ r.cap then some (r, -1)
  else
    let nc := doubleCapacity need r.maxCap 64 (if r.cap = 0 then epiRingInitCap else r.cap)
    let nc := if r.maxCap < nc then r.maxCap else nc
    let status : Int := if need ≤ nc then 0 else -1
    if r.head = 0 then
      match realloc r.buf a nc with
      | none => some (r, -1)
      | some nb => some ({ r with buf := nb, cap := nc }, status)
    else
      match malloc a nc with
      | none => some (r, -1)
      | some nb => do
        let nb ← copyOut r nb r.head r.size
        some ({ r with buf := nb, cap := nc, head := 0 }, status)

def copyIn (r : Ring) (data : Bytes) : Option Bytes :=
  let len := data.length
  let tail := sizeAdd r.head r.size % r.cap
  let first := if len < sizeSub r.cap tail then len else sizeSub r.cap tail
  (memcpy r.buf tail data 0 first).bind fun buf =>
    if first < len then memcpy buf 0 data first (sizeSub len first) else some buf

def epiRingWrite (r : Ring) (data : Bytes) (a : Alloc) : Option Ring :=
  let len := data.length
  if r.cap = 0 ∨ len = 0 then some r
  else do
    let (r, _) ← ringGrow r (sizeAdd r.size len) a
    if r.cap ≤ len then
      let buf ← memcpy r.buf 0 data (sizeSub len r.cap) r.cap
      some { r with buf := buf, head := 0, size := r.cap }
    else
      let buf ← copyIn r data
      if sizeAdd r.size len ≤ r.cap then
        some { r with buf := buf, size := sizeAdd r.size len }
      else
        let overflow := sizeSub (sizeAdd r.size len) r.cap
        some { r with buf := buf, head := sizeAdd r.head overflow % r.cap, size := r.cap }

def epiRingSnapshot (r : Ring) (a : Alloc) : Option (Option Bytes) :=
  if r.size = 0 then some none
  else
    match malloc a r.size with
    | none => some none
    | some out => (copyOut r out r.head r.size).map some

def epiRingSnapshotTail (r : Ring) (maxBytes : Nat) (a : Alloc) : Option (Option Bytes) :=
  if r.cap = 0 ∨ r.size = 0 ∨ maxBytes = 0 then some none
  else
    let n := if r.size < maxBytes then r.size else maxBytes
    let start := sizeAdd r.head (sizeSub r.size n) % r.cap
    match malloc a n with
    | none => some none
    | some out => (copyOut r out start n).map some

/-- The bytes the ring holds, oldest first. -/
def Ring.contents (r : Ring) : Bytes := CircularWindow.window r.buf r.head r.size

end Epimone
