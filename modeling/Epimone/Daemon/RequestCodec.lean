import Epimone.Daemon.Reading
import Epimone.RoundTrip
import Mathlib.Data.List.TakeWhile

/-! # Requests over the wire

A client builds a request with epi_msg_start, the epi_buf_put_* calls and
epi_msg_end; the daemon reads it with the decoder of its type. Both sides are
written down here as they are in the code, and a request is recovered whole.
-/
set_option autoImplicit false

namespace Epimone.Daemon

open Program

/-- A string of C without its terminator. -/
structure CString where
  bytes : Bytes
  noNul : 0 ∉ bytes

/-- As many strings as the daemon accepts in one array. -/
structure StringArray where
  items : List CString
  bounded : items.length ≤ 4096

/-- The requests of the clients; an optional trailing field may be left out. -/
inductive Request where
  | create (cwd : CString) (argv env : StringArray) (execPath : Option CString)
  | list
  | attach (id : UInt64)
  | kill (id : UInt64)
  | resize (id : UInt64) (rows cols : UInt16)
  | detach (id : UInt64)
  | peek (id : UInt64) (maxBytes : Option UInt32)
  | groupNew (blob : Option Bytes)
  | groupSet (gid : UInt64) (blob : Bytes)
  | groupAdd (gid sid : UInt64)
  | groupRemove (sid : UInt64)
  | groupList

def Request.kind : Request → EpiMsgType
  | .create .. => .create
  | .list => .list
  | .attach _ => .attach
  | .kill _ => .kill
  | .resize .. => .resize
  | .detach _ => .detach
  | .peek .. => .peek
  | .groupNew _ => .groupNew
  | .groupSet .. => .groupSet
  | .groupAdd .. => .groupAdd
  | .groupRemove _ => .groupRemove
  | .groupList => .groupList

section Building

variable (alloc : Nat → Bool)

def putStrings (b : EpiBuf) (array : StringArray) : EpiBuf :=
  array.items.foldl (fun b s => epiBufPutStr alloc b s.bytes) (epiBufPutU32 alloc b array.items.length)

def Request.put (b : EpiBuf) : Request → EpiBuf
  | .create cwd argv env execPath =>
    let b := epiBufPutStr alloc b cwd.bytes
    let b := putStrings alloc b argv
    let b := putStrings alloc b env
    match execPath with
    | none => b
    | some path => epiBufPutStr alloc b path.bytes
  | .list | .groupList => b
  | .attach id | .kill id | .detach id | .groupRemove id => epiBufPutU64 alloc b id.toNat
  | .resize id rows cols =>
    let b := epiBufPutU64 alloc b id.toNat
    let b := epiBufPutU16 alloc b rows.toNat
    epiBufPutU16 alloc b cols.toNat
  | .peek id maxBytes =>
    let b := epiBufPutU64 alloc b id.toNat
    match maxBytes with
    | none => b
    | some n => epiBufPutU32 alloc b n.toNat
  | .groupNew blob =>
    match blob with
    | none => b
    | some blob => epiBufPutBlob alloc b blob
  | .groupSet gid blob => epiBufPutBlob alloc (epiBufPutU64 alloc b gid.toNat) blob
  | .groupAdd gid sid => epiBufPutU64 alloc (epiBufPutU64 alloc b gid.toNat) sid.toNat

def Request.frame (request : Request) : EpiBuf :=
  epiMsgEnd (request.put alloc (epiMsgStart alloc request.kind))

end Building

/-- What the handlers take from a request. -/
inductive Fields where
  | nothing
  | create (request : CreateRequest)
  | session (id : Nat)
  | resize (id rows cols : Nat)
  | peek (id maxBytes : Nat)
  | groupNew (blob : Bytes)
  | groupSet (gid : Nat) (blob : Bytes)
  | groupAdd (gid sid : Nat)
  deriving DecidableEq, Repr

/-- The decoder of each type of request; a blob is a pointer and a length, and no block has length 0. -/
def readFields (alloc : Nat → Bool) : EpiMsgType → Decoder Fields
  | .create => do
    let request ← Decoder.createRequest alloc
    return .create request
  | .attach | .kill | .detach | .groupRemove => do
    let id ← Decoder.rdU64
    return .session id
  | .resize => do
    let request ← Decoder.resizeRequest
    return .resize request.1 request.2.1 request.2.2
  | .peek => do
    let request ← Decoder.peekRequest
    return .peek request.1 request.2
  | .groupNew => do
    let blob ← Decoder.groupNewRequest alloc
    return .groupNew (blob.getD [])
  | .groupSet => do
    let request ← Decoder.groupSetRequest alloc
    return .groupSet request.1 (request.2.getD [])
  | .groupAdd => do
    let request ← Decoder.groupAddRequest
    return .groupAdd request.1 request.2
  | _ => return .nothing

/-- An array without elements arrives as the pointer NULL. -/
def StringArray.received (array : StringArray) : Option (List Bytes) :=
  if array.items = [] then none else some (array.items.map CString.bytes)

/-- The fields a request stands for, with the defaults of those left out. -/
def Request.fields : Request → Fields
  | .create cwd argv env execPath =>
    .create ⟨some cwd.bytes, argv.received, env.received, execPath.map CString.bytes⟩
  | .list | .groupList => .nothing
  | .attach id | .kill id | .detach id | .groupRemove id => .session id.toNat
  | .resize id rows cols => .resize id.toNat rows.toNat cols.toNat
  | .peek id maxBytes => .peek id.toNat ((maxBytes.map UInt32.toNat).getD epiPeekDefaultBytes)
  | .groupNew blob => .groupNew (blob.getD [])
  | .groupSet gid blob => .groupSet gid.toNat blob
  | .groupAdd gid sid => .groupAdd gid.toNat sid.toNat

def StringArray.encoded (array : StringArray) : Bytes :=
  littleEndian 4 array.items.length ++ (array.items.map CString.bytes).flatMap blobBytes

def Request.body : Request → Bytes
  | .create cwd argv env execPath =>
    blobBytes cwd.bytes ++ (argv.encoded ++ (env.encoded ++ (execPath.map (blobBytes ·.bytes)).getD []))
  | .list | .groupList => []
  | .attach id | .kill id | .detach id | .groupRemove id => u64Bytes id.toNat
  | .resize id rows cols => u64Bytes id.toNat ++ (littleEndian 2 rows.toNat ++ littleEndian 2 cols.toNat)
  | .peek id maxBytes => u64Bytes id.toNat ++ (maxBytes.map (littleEndian 4 ·.toNat)).getD []
  | .groupNew blob => (blob.map blobBytes).getD []
  | .groupSet gid blob => u64Bytes gid.toNat ++ blobBytes blob
  | .groupAdd gid sid => u64Bytes gid.toNat ++ u64Bytes sid.toNat

theorem CString.cString_eq (s : CString) : cString s.bytes = s.bytes := by
  apply List.takeWhile_eq_self_iff.mpr
  intro b hb
  have hNul : b ≠ 0 := fun hZero => s.noNul (hZero ▸ hb)
  exact bne_iff_ne.mpr hNul

section Encoding

variable {alloc : Nat → Bool} {b : EpiBuf} {bytes : Bytes}

theorem filled_putCString (h : b.Filled alloc bytes) (s : CString) :
    (epiBufPutStr alloc b s.bytes).Filled alloc (bytes ++ blobBytes s.bytes) := by
  have hString := h.putStr s.bytes
  rwa [strBytes, s.cString_eq] at hString

theorem filled_putStrings (h : b.Filled alloc bytes) (array : StringArray) :
    (putStrings alloc b array).Filled alloc (bytes ++ array.encoded) := by
  have hItems := (h.putU32 array.items.length).foldl (P := fun b s => epiBufPutStr alloc b s.bytes)
    (E := fun s => blobBytes s.bytes) array.items fun b bytes s _ hb => filled_putCString hb s
  rw [List.append_assoc] at hItems
  rw [StringArray.encoded, List.flatMap_map]
  exact hItems

theorem filled_put (h : b.Filled alloc bytes) (request : Request) :
    (request.put alloc b).Filled alloc (bytes ++ request.body) := by
  cases request with
  | create cwd argv env execPath =>
    have hFixed := filled_putStrings (filled_putStrings (filled_putCString h cwd) argv) env
    cases execPath with
    | none => simpa [Request.put, Request.body] using hFixed
    | some path => simpa [Request.put, Request.body] using filled_putCString hFixed path
  | list | groupList => simpa [Request.put, Request.body] using h
  | attach id | kill id | detach id | groupRemove id => exact h.putU64 _
  | resize id rows cols =>
    simpa [Request.put, Request.body] using ((h.putU64 id.toNat).putU16 rows.toNat).putU16 cols.toNat
  | peek id maxBytes =>
    cases maxBytes with
    | none => simpa [Request.put, Request.body] using h.putU64 id.toNat
    | some n => simpa [Request.put, Request.body] using (h.putU64 id.toNat).putU32 n.toNat
  | groupNew blob =>
    cases blob with
    | none => simpa [Request.put, Request.body] using h
    | some blob => exact h.putBlob blob
  | groupSet gid blob => simpa [Request.put, Request.body] using (h.putU64 gid.toNat).putBlob blob
  | groupAdd gid sid => simpa [Request.put, Request.body] using (h.putU64 gid.toNat).putU64 sid.toNat

end Encoding

section Decoding

variable {alloc : Nat → Bool} (hAlloc : ∀ n, alloc n = true) {rest bytes : Bytes}

theorem decodes_id (id : UInt64) : Decodes rest Decoder.rdU64 (u64Bytes id.toNat) id.toNat := by
  have hRead := @Decodes.rdU64 rest id.toNat
  rwa [Nat.mod_eq_of_lt id.toNat_lt] at hRead

theorem decodes_word (n : UInt32) : Decodes rest Decoder.rdU32 (littleEndian 4 n.toNat) n.toNat := by
  have hRead := @Decodes.rdU32 rest n.toNat
  rwa [Nat.mod_eq_of_lt n.toNat_lt] at hRead

theorem decodes_half (n : UInt16) : Decodes rest Decoder.rdU16 (littleEndian 2 n.toNat) n.toNat := by
  have hRead := @Decodes.rdU16 rest n.toNat
  rwa [Nat.mod_eq_of_lt n.toNat_lt] at hRead

include hAlloc

theorem decodes_strArray (array : StringArray) :
    Decodes rest (Decoder.strArray alloc) array.encoded array.received := by
  have hArray := @Decodes.strArray rest alloc hAlloc (array.items.map CString.bytes)
    (by rw [List.length_map]; exact array.bounded)
  rw [List.length_map] at hArray
  cases hItems : array.items with
  | nil => simpa [StringArray.encoded, StringArray.received, hItems] using hArray
  | cons s items => simpa [StringArray.encoded, StringArray.received, hItems] using hArray

theorem decodes_createRequest (cwd : CString) (argv env : StringArray) (execPath : Option CString) :
    Decodes [] (Decoder.createRequest alloc)
      (blobBytes cwd.bytes ++ (argv.encoded ++ (env.encoded ++ (execPath.map (blobBytes ·.bytes)).getD [])))
      ⟨some cwd.bytes, argv.received, env.received, execPath.map CString.bytes⟩ := by
  have hExec : Decodes [] (Decoder.optional (Decoder.rdStr alloc) none)
      ((execPath.map (blobBytes ·.bytes)).getD []) (execPath.map CString.bytes) := by
    cases execPath with
    | none => exact .absent none
    | some path => exact .present none (by simp [blobBytes, littleEndian]) (.rdStr hAlloc path.bytes)
  exact .bind (.rdStr hAlloc cwd.bytes) (.bind (decodes_strArray hAlloc argv)
    (.bind (decodes_strArray hAlloc env) (.map (CreateRequest.mk _ _ _) hExec)))

theorem decodes_blob (blob : Bytes) :
    ∃ received, Decodes rest (Decoder.rdBlob alloc) (blobBytes blob) received ∧ received.getD [] = blob := by
  refine ⟨_, .rdBlob hAlloc blob, ?_⟩
  cases blob <;> rfl

theorem decodes_request (request : Request) :
    Decodes [] (readFields alloc request.kind) request.body request.fields := by
  cases request with
  | create cwd argv env execPath => exact .map Fields.create (decodes_createRequest hAlloc cwd argv env execPath)
  | list | groupList => exact .pure _
  | attach id | kill id | detach id | groupRemove id => exact .map Fields.session (decodes_id id)
  | resize id rows cols =>
    have hCols := (@decodes_half [] cols).map fun cols => (id.toNat, rows.toNat, cols)
    have hRows : Decodes [] (do let rows ← Decoder.rdU16; let cols ← Decoder.rdU16; return (id.toNat, rows, cols))
        _ _ := .bind (decodes_half rows) hCols
    have hAll : Decodes [] Decoder.resizeRequest
        (u64Bytes id.toNat ++ (littleEndian 2 rows.toNat ++ littleEndian 2 cols.toNat))
        (id.toNat, rows.toNat, cols.toNat) := .bind (decodes_id id) hRows
    have hFields := hAll.map fun request => Fields.resize request.1 request.2.1 request.2.2
    exact hFields
  | peek id maxBytes =>
    have hMax : Decodes [] (Decoder.optional Decoder.rdU32 epiPeekDefaultBytes)
        ((maxBytes.map (littleEndian 4 ·.toNat)).getD [])
        ((maxBytes.map UInt32.toNat).getD epiPeekDefaultBytes) := by
      cases maxBytes with
      | none => exact .absent _
      | some n => exact .present _ (by simp [littleEndian]) (decodes_word n)
    have hAll : Decodes [] Decoder.peekRequest _ _ :=
      .bind (decodes_id id) (.map (Prod.mk id.toNat) hMax)
    have hFields := hAll.map fun request => Fields.peek request.1 request.2
    exact hFields
  | groupNew blob =>
    have hBlob : ∃ received, Decodes [] (Decoder.groupNewRequest alloc) ((blob.map blobBytes).getD [])
        received ∧ received.getD [] = blob.getD [] := by
      cases blob with
      | none => exact ⟨none, .absent _, rfl⟩
      | some blob =>
        obtain ⟨received, hRead, hSame⟩ := @decodes_blob alloc hAlloc [] blob
        exact ⟨received, .present _ (by simp [blobBytes, littleEndian]) hRead, hSame⟩
    obtain ⟨received, hRead, hSame⟩ := hBlob
    have hFields := hRead.map fun blob => Fields.groupNew (blob.getD [])
    rw [hSame] at hFields
    exact hFields
  | groupSet gid blob =>
    obtain ⟨received, hRead, hSame⟩ := @decodes_blob alloc hAlloc [] blob
    have hPair : Decodes [] (Decoder.groupSetRequest alloc) _ _ :=
      .bind (decodes_id gid) (.map (Prod.mk gid.toNat) hRead)
    have hFields := hPair.map fun request => Fields.groupSet request.1 (request.2.getD [])
    rw [hSame] at hFields
    exact hFields
  | groupAdd gid sid =>
    have hAll : Decodes [] Decoder.groupAddRequest _ _ :=
      .bind (decodes_id gid) (.map (Prod.mk gid.toNat) (decodes_id sid))
    have hFields := hAll.map fun request => Fields.groupAdd request.1 request.2
    exact hFields

end Decoding

theorem frame_eq (request : Request) {alloc : Nat → Bool} (hAlloc : ∀ n, alloc n = true) :
    (request.frame alloc).oom = false ∧
      (request.frame alloc).data = frameBytes request.kind.code request.body := by
  have hOpened : (request.put alloc (epiMsgStart alloc request.kind)).Opened alloc request.kind request.body :=
    (opened_epiMsgStart request.kind).put fun bytes h => filled_put h request
  have hOom := hOpened.sealed.sound hAlloc
  exact ⟨hOom, hOpened.sealed.data_eq hOom⟩

/-- The daemon treats an exec_path that was left out as an empty one. -/
theorem epiSessionSpawn_execPath (srv : Server) (cwd : Option Bytes) (argv env : Option (List Bytes))
    (ans : SpawnAnswers) :
    epiSessionSpawn srv cwd argv env none ans = epiSessionSpawn srv cwd argv env (some []) ans := rfl

/-- Every request that a client builds arrives whole: the frame carries its type and its length, and
the decoder of that type recovers the fields, those left out as their defaults, at the end of the body
and without an error. -/
theorem request_round_trip (request : Request) {bufAlloc rdAlloc : Nat → Bool}
    (hBuf : ∀ n, bufAlloc n = true) (hRd : ∀ n, rdAlloc n = true)
    (hFrame : (request.frame bufAlloc).data.length ≤ 4 + maxFrame) :
    (request.frame bufAlloc).oom = false ∧
      WellFormed (request.frame bufAlloc).data request.kind.code ∧
      EpiMsgType.ofRequest request.kind.code = some request.kind ∧
      (∃ p, Gives (readFields rdAlloc request.kind) (.start ((request.frame bufAlloc).data.drop 8))
          request.fields p ∧
        p.rd.err = false ∧ p.rd.pos = ((request.frame bufAlloc).data.drop 8).length) ∧
      ∀ srv cwd argv env ans,
        epiSessionSpawn srv cwd argv env none ans = epiSessionSpawn srv cwd argv env (some []) ans := by
  obtain ⟨hOom, hData⟩ := frame_eq request hBuf
  rw [hData, length_frameBytes] at hFrame
  have hMax : maxFrame < 2 ^ 24 := by decide
  have hDrop : (frameBytes request.kind.code request.body).drop 8 = request.body := by
    rw [frameBytes, ← List.append_assoc]
    exact List.drop_left' (by simp)
  obtain ⟨hValue, hRead⟩ := (decodes_request hRd request).complete (by omega)
  refine ⟨hOom, ?_, ?_, ⟨_, ⟨?_, rfl⟩, ?_, ?_⟩, epiSessionSpawn_execPath⟩
  · rw [hData]
    exact wellFormed_frameBytes request.kind.code_lt (by omega)
  · cases request <;> rfl
  · rw [hData, hDrop, hValue]
  · rw [hData, hDrop, hRead]
  · rw [hData, hDrop, hRead]

/-- PEEK without max_bytes. -/
theorem request_round_trip_peek :
    ∃ p, Gives (readFields (fun _ => true) .peek)
        (.start (((Request.peek 7 none).frame fun _ => true).data.drop 8)) (.peek 7 epiPeekDefaultBytes) p ∧
      p.rd.err = false := by
  have hAll := @request_round_trip (.peek 7 none) (fun _ => true) (fun _ => true) (fun _ => rfl)
    (fun _ => rfl) (by decide)
  obtain ⟨_, _, _, ⟨p, hGives, hErr, _⟩, _⟩ := hAll
  exact ⟨p, hGives, hErr⟩

end Epimone.Daemon
