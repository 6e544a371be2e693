import Epimone.Client.Blocking

/-! # The relay of epimone-ctl

`attach` copies keystrokes to the data channel and output to the terminal, until
the terminal or the channel ends or Ctrl+] is typed. Each turn of its loop meets
what poll reports and what the calls come to. What a failed write leaves behind
is kept in the state, so that both directions can be accounted for.
-/
set_option autoImplicit false

namespace Epimone.Ctl

open Client Daemon

def ctrlRBracket : UInt8 := 0x1d

def readFull (need : Nat) (fd : Incoming) : Option (Bytes × Incoming) := readExactly fd.calls need fd.bytes

def writeFull (outcomes : List WriteOutcome) (data : Bytes) : Bytes × Bool := writeEverything outcomes data

/-- recv_frame with its two allocations; none is its -1. -/
def recvFrame (rawAlloc bodyAlloc : Bool) (fd : Incoming) : Option ((Nat × Bytes) × Incoming) := do
  let (hdr, fd) ← readFull 4 fd
  let flen := ofLittleEndian hdr
  if flen < 4 then none
  else if !rawAlloc then none
  else do
    let (raw, fd) ← readFull flen fd
    if !bodyAlloc then none
    else some ((ofLittleEndian (raw.take 4), raw.drop 4), fd)

/-- One read of at most `limit` bytes of a stream that may end. -/
def readSome (limit : Nat) (stream : Bytes) : ReadCall → Option Bytes
  | .got n =>
    let data := stream.take (min (n + 1) limit)
    if data = [] then none else some data
  | .intr | .failed => none

inductive PollOutcome where
  | ready (winch stdin sock : Bool)
  | intr
  | failed
  deriving DecidableEq, Repr

structure Turn where
  poll : PollOutcome
  keys : ReadCall
  sends : List WriteOutcome
  output : ReadCall
  prints : List WriteOutcome

/-- Why the loop was left. -/
inductive Ending where
  | pollFailed
  | stdinEnded
  | detached
  | sendFailed
  | closed
  | printFailed
  deriving DecidableEq, Repr

/-- The streams that are still to come, what has been passed on of them, and what was read and then lost in a
failed write. `resizes` counts the sizes pushed to the daemon. -/
structure Relay where
  stdin : Bytes
  sock : Bytes
  sent : Bytes
  unsent : Bytes
  printed : Bytes
  unprinted : Bytes
  resizes : Nat
  ended : Option Ending
  deriving DecidableEq, Repr

namespace Relay

variable (r : Relay) (t : Turn)

def start (stdin sock : Bytes) : Relay := ⟨stdin, sock, [], [], [], [], 0, none⟩

def stop (why : Ending) : Relay := { r with ended := some why }

/-- write_full to the channel, of which only the detach ignores the failure. -/
def send (outcomes : List WriteOutcome) (data : Bytes) : Relay :=
  let done := (writeFull outcomes data).1
  { r with sent := r.sent ++ done, unsent := data.drop done.length }

def print (outcomes : List WriteOutcome) (data : Bytes) : Relay :=
  let done := (writeFull outcomes data).1
  { r with printed := r.printed ++ done, unprinted := data.drop done.length }

/-- The keystrokes of one read, up to the one that detaches. -/
def forwardKeys : Relay :=
  match readSome 4096 r.stdin t.keys with
  | none => r.stop .stdinEnded
  | some data =>
    let r := { r with stdin := r.stdin.drop data.length }
    let before := data.takeWhile (· != ctrlRBracket)
    if before.length < data.length then (r.send t.sends before).stop .detached
    else if !(writeFull t.sends data).2 then (r.send t.sends data).stop .sendFailed
    else r.send t.sends data

def forwardOutput : Relay :=
  match readSome 65536 r.sock t.output with
  | none => r.stop .closed
  | some data =>
    let r := { r with sock := r.sock.drop data.length }
    if !(writeFull t.prints data).2 then (r.print t.prints data).stop .printFailed
    else r.print t.prints data

def turn : Relay :=
  match t.poll with
  | .intr => r
  | .failed => r.stop .pollFailed
  | .ready winch stdin sock =>
    let r := if winch then { r with resizes := r.resizes + 1 } else r
    let r := if stdin then r.forwardKeys t else r
    if r.ended.isNone && sock then r.forwardOutput t else r

def run (r : Relay) : List Turn → Relay
  | [] => r
  | t :: turns => if r.ended.isSome then r else (r.turn t).run turns

end Relay

/-- What attach meets before its loop. -/
structure AttachWorld where
  connects : Bool
  bufAlloc : Nat → Bool
  writes : List WriteOutcome
  fd : Incoming
  rawAlloc : Bool
  bodyAlloc : Bool
  rdAlloc : Nat → Bool
  stdin : Bytes
  turns : List Turn

inductive AttachResult where
  | unconnected
  | unsent
  | noReply
  | refused (message : Option Bytes)
  | relayed (r : Relay)
  deriving DecidableEq, Repr

def errorMessage (alloc : Nat → Bool) (body : Bytes) : Bytes :=
  (Program.value (Decoder.errorReply alloc) (.start body)).2

def cmdAttach (id : Nat) (w : AttachWorld) : AttachResult :=
  if !w.connects then .unconnected
  else
    let req := attachRequest w.bufAlloc id
    if req.oom || !(writeFull w.writes req.data).2 then .unsent
    else
      match recvFrame w.rawAlloc w.bodyAlloc w.fd with
      | none => .noReply
      | some ((type, body), fd) =>
        if type = EpiMsgType.attached.code then .relayed ((Relay.start w.stdin fd.bytes).run w.turns)
        else .refused (if type = EpiMsgType.error.code then some (errorMessage w.rdAlloc body) else none)

section Frames

variable {rawAlloc bodyAlloc : Bool} {fd left : Incoming} {type : Nat} {body : Bytes}

/-- Where memory does not run out, the tool reads frames as the client library does. -/
theorem recvFrame_eq_some (h : recvFrame rawAlloc bodyAlloc fd = some ((type, body), left)) :
    recvFrameFrom fd = .ok ((type, body), left) := by
  obtain ⟨⟨hdr, fd'⟩, hHeader, h⟩ := Option.bind_eq_some_iff.mp h
  dsimp only at h
  split at h
  · cases h
  rename_i hLong
  split at h
  · cases h
  obtain ⟨⟨raw, fd''⟩, hRaw, h⟩ := Option.bind_eq_some_iff.mp h
  dsimp only at h
  split at h
  · cases h
  cases h
  have hHeader' : readAll 4 fd = some (hdr, fd') := hHeader
  have hRaw' : readAll (ofLittleEndian hdr) fd' = some (raw, left) := hRaw
  unfold recvFrameFrom
  rw [hHeader']
  dsimp only
  rw [if_neg hLong, hRaw']

end Frames

namespace Relay

/-- Where the keystrokes and the output have gone. Of the keystrokes nothing from the first Ctrl+] on is sent. -/
structure Accounts (keys output : Bytes) (r : Relay) : Prop where
  plain : ctrlRBracket ∉ r.sent ++ r.unsent
  typed : r.ended ≠ some .detached → keys = r.sent ++ r.unsent ++ r.stdin
  detached : r.ended = some .detached → ∃ after, keys = r.sent ++ r.unsent ++ ctrlRBracket :: after
  unsent : r.unsent ≠ [] → r.ended = some .sendFailed ∨ r.ended = some .detached
  shown : output = r.printed ++ r.unprinted ++ r.sock
  unprinted : r.unprinted ≠ [] → r.ended = some .printFailed

variable {keys output : Bytes} {r : Relay} {t : Turn}

theorem accounts_start (keys output : Bytes) : (start keys output).Accounts keys output where
  plain := by simp [start]
  typed _ := rfl
  detached h := by cases h
  unsent h := absurd rfl h
  shown := rfl
  unprinted h := absurd rfl h

theorem readSome_spec {limit : Nat} {stream data : Bytes} {call : ReadCall}
    (h : readSome limit stream call = some data) :
    stream = data ++ stream.drop data.length := by
  cases call with
  | got n =>
    dsimp only [readSome] at h
    split at h
    · cases h
    · cases h
      exact (take_length_append_drop _ _).symm
  | intr => cases h
  | failed => cases h

theorem writeFull_split (outcomes : List WriteOutcome) (data : Bytes) :
    data = (writeFull outcomes data).1 ++ data.drop (writeFull outcomes data).1.length ∧
      ((writeFull outcomes data).2 = true → data.drop (writeFull outcomes data).1.length = []) := by
  obtain ⟨rest, hAll, hDone⟩ := writeEverything_spec outcomes data
  have hRest : data.drop (writeFull outcomes data).1.length = rest := by
    calc data.drop (writeFull outcomes data).1.length
        = ((writeEverything outcomes data).1 ++ rest).drop (writeEverything outcomes data).1.length := by
          rw [← hAll]; rfl
      _ = rest := List.drop_left
  rw [hRest]
  exact ⟨hAll, hDone.mp⟩

theorem Accounts.running (h : r.Accounts keys output) (hOn : r.ended = none) :
    keys = r.sent ++ r.stdin ∧ ctrlRBracket ∉ r.sent ∧ r.unsent = [] ∧ r.unprinted = [] ∧
    output = r.printed ++ r.sock := by
  have hUnsent : r.unsent = [] := by
    by_contra hLost
    rcases h.unsent hLost with hEnd | hEnd <;> cases hOn.symm.trans hEnd
  have hUnprinted : r.unprinted = [] := by
    by_contra hLost
    cases hOn.symm.trans (h.unprinted hLost)
  have hTyped := h.typed (by simp [hOn])
  have hPlain := h.plain
  have hShown := h.shown
  rw [hUnsent, List.append_nil] at hTyped hPlain
  rw [hUnprinted, List.append_nil] at hShown
  exact ⟨hTyped, hPlain, hUnsent, hUnprinted, hShown⟩

theorem Accounts.forwardKeys (h : r.Accounts keys output) (hOn : r.ended = none) :
    (r.forwardKeys t).Accounts keys output := by
  obtain ⟨hTyped, hPlain, hUnsent, hUnprinted, hShown⟩ := h.running hOn
  have hOutput : output = r.printed ++ r.unprinted ++ r.sock := h.shown
  unfold Relay.forwardKeys
  cases hRead : readSome 4096 r.stdin t.keys with
  | none =>
    exact ⟨h.plain, fun _ => h.typed (by simp [hOn]), fun hEnd => (by cases hEnd),
      fun hLost => absurd hUnsent hLost, h.shown, fun hLost => absurd hUnprinted hLost⟩
  | some data =>
    have hStream := readSome_spec hRead
    dsimp only
    generalize hBefore : data.takeWhile (· != ctrlRBracket) = before
    have hClean : ctrlRBracket ∉ before := by
      intro hIn
      rw [← hBefore] at hIn
      simpa using List.mem_takeWhile_imp hIn
    split
    · rename_i hShort
      -- the rest of the buffer begins with the key that detaches
      obtain ⟨after, hAfter⟩ : ∃ after, data = before ++ ctrlRBracket :: after := by
        have hSplit : before ++ data.dropWhile (· != ctrlRBracket) = data := by
          rw [← hBefore]
          exact List.takeWhile_append_dropWhile
        cases hRest : data.dropWhile (· != ctrlRBracket) with
        | nil =>
          rw [hRest, List.append_nil] at hSplit
          rw [hSplit] at hShort
          exact absurd hShort (Nat.lt_irrefl _)
        | cons key after =>
          have hKey : key = ctrlRBracket := by
            have hHead := List.head?_dropWhile_not (· != ctrlRBracket) data
            rw [hRest] at hHead
            simpa using hHead
          exact ⟨after, by rw [← hSplit, hRest, hKey]⟩
      obtain ⟨hAll, -⟩ := writeFull_split t.sends before
      refine ⟨?_, fun hNot => absurd rfl hNot, fun _ => ⟨after ++ r.stdin.drop data.length, ?_⟩,
        fun _ => Or.inr rfl, hOutput, fun hLost => absurd hUnprinted hLost⟩
      · change ctrlRBracket ∉ r.sent ++ (writeFull t.sends before).1 ++ before.drop (writeFull t.sends before).1.length
        rw [List.append_assoc, ← hAll, List.mem_append]
        exact fun hIn => hIn.elim hPlain hClean
      · change keys = r.sent ++ (writeFull t.sends before).1 ++ before.drop (writeFull t.sends before).1.length ++ _
        rw [List.append_assoc r.sent, ← hAll, hTyped, hStream, hAfter]
        simp
    · rename_i hWhole
      have hSame : before = data := by
        have hPrefix : before <+: data := hBefore ▸ List.takeWhile_prefix _
        exact hPrefix.eq_of_length_le (Nat.not_lt.mp hWhole)
      obtain ⟨hAll, hDone⟩ := writeFull_split t.sends data
      have hPlain' : ctrlRBracket ∉ r.sent ++ (writeFull t.sends data).1 ++
          data.drop (writeFull t.sends data).1.length := by
        rw [List.append_assoc, ← hAll, List.mem_append]
        exact fun hIn => hIn.elim hPlain (hSame ▸ hClean)
      have hTyped' : keys = r.sent ++ (writeFull t.sends data).1 ++ data.drop (writeFull t.sends data).1.length ++
          r.stdin.drop data.length := by
        rw [List.append_assoc r.sent, ← hAll, List.append_assoc, ← hStream, hTyped]
      split
      · exact ⟨hPlain', fun _ => hTyped', fun hEnd => (by cases hEnd), fun _ => Or.inl rfl, hOutput,
          fun hLost => absurd hUnprinted hLost⟩
      · rename_i hSent
        exact ⟨hPlain', fun _ => hTyped', fun hEnd => (by cases hOn.symm.trans hEnd),
          fun hLost => absurd (hDone (by simpa using hSent)) hLost, hOutput, fun hLost => absurd hUnprinted hLost⟩

theorem Accounts.forwardOutput (h : r.Accounts keys output) (hOn : r.ended = none) :
    (r.forwardOutput t).Accounts keys output := by
  obtain ⟨-, -, hUnsent, hUnprinted, hShown⟩ := h.running hOn
  have hTyped := h.typed (by simp [hOn])
  unfold Relay.forwardOutput
  cases hRead : readSome 65536 r.sock t.output with
  | none =>
    exact ⟨h.plain, fun _ => hTyped, fun hEnd => (by cases hEnd), fun hLost => absurd hUnsent hLost, h.shown,
      fun hLost => absurd hUnprinted hLost⟩
  | some data =>
    have hStream := readSome_spec hRead
    obtain ⟨hAll, hDone⟩ := writeFull_split t.prints data
    have hShown' : output = r.printed ++ (writeFull t.prints data).1 ++ data.drop (writeFull t.prints data).1.length ++
        r.sock.drop data.length := by
      rw [List.append_assoc r.printed, ← hAll, List.append_assoc, ← hStream, hShown]
    dsimp only
    split
    · exact ⟨h.plain, fun _ => hTyped, fun hEnd => (by cases hEnd), fun hLost => absurd hUnsent hLost,
        hShown', fun _ => rfl⟩
    · rename_i hPrinted
      exact ⟨h.plain, fun _ => hTyped, fun hEnd => (by cases hOn.symm.trans hEnd),
        fun hLost => absurd hUnsent hLost, hShown', fun hLost => absurd (hDone (by simpa using hPrinted)) hLost⟩

theorem Accounts.turn (h : r.Accounts keys output) (hOn : r.ended = none) : (r.turn t).Accounts keys output := by
  unfold Relay.turn
  split
  · exact h
  · obtain ⟨-, -, hUnsent, hUnprinted, -⟩ := h.running hOn
    exact ⟨h.plain, fun _ => h.typed (by simp [hOn]), fun hEnd => (by cases hEnd),
      fun hLost => absurd hUnsent hLost, h.shown, fun hLost => absurd hUnprinted hLost⟩
  · rename_i winch stdin sock _
    dsimp only
    generalize hSized : (if winch = true then { r with resizes := r.resizes + 1 } else r) = sized
    have hStart : sized.Accounts keys output ∧ sized.ended = none := by
      rw [← hSized]
      split
      · exact ⟨⟨h.plain, h.typed, h.detached, h.unsent, h.shown, h.unprinted⟩, hOn⟩
      · exact ⟨h, hOn⟩
    generalize hKeyed : (if stdin = true then sized.forwardKeys t else sized) = keyed
    have hNext : keyed.Accounts keys output := by
      rw [← hKeyed]
      split
      · exact hStart.1.forwardKeys hStart.2
      · exact hStart.1
    split
    · rename_i hGoes
      simp only [Bool.and_eq_true, Option.isNone_iff_eq_none] at hGoes
      exact hNext.forwardOutput hGoes.1
    · exact hNext

theorem Accounts.run (h : r.Accounts keys output) (turns : List Turn) : (r.run turns).Accounts keys output := by
  induction turns generalizing r with
  | nil => exact h
  | cons t turns ih =>
    rw [Relay.run]
    split
    · exact h
    · rename_i hGoes
      exact ih (h.turn (by simpa using hGoes))

end Relay

/-- The tool prints what follows the reply and sends what was typed before Ctrl+], in order and without a gap; what is
missing is what a failed write lost. -/
theorem cmdAttach_accounts {id type : Nat} {body raw : Bytes} {w : AttachWorld} {r : Relay} (hType : type < 2 ^ 32)
    (hBody : 4 + body.length < 2 ^ 32) (hBytes : w.fd.bytes = frameBytes type body ++ raw)
    (h : cmdAttach id w = .relayed r) : type = EpiMsgType.attached.code ∧ r.Accounts w.stdin raw := by
  unfold cmdAttach at h
  dsimp only at h
  split at h
  · cases h
  split at h
  · cases h
  cases hRead : recvFrame w.rawAlloc w.bodyAlloc w.fd with
  | none =>
    rw [hRead] at h
    cases h
  | some read =>
    obtain ⟨⟨type', body'⟩, fd⟩ := read
    obtain ⟨rfl, rfl, hRaw⟩ := recvFrameFrom_frameBytes hType hBody hBytes (recvFrame_eq_some hRead)
    rw [hRead] at h
    dsimp only at h
    split at h
    · rename_i hAttached
      cases h
      rw [hRaw]
      exact ⟨hAttached, (Relay.accounts_start w.stdin raw).run w.turns⟩
    · cases h

/-- Output comes before a key is typed, and of `hi`, Ctrl+] and more only the `hi` is sent, a byte at a time. -/
def detaching : AttachWorld :=
  { connects := true
    bufAlloc := fun _ => true
    writes := [.wrote 100]
    fd := ⟨frameBytes EpiMsgType.attached.code [7] ++ [111, 107], List.replicate 3 (.got 10)⟩
    rawAlloc := true
    bodyAlloc := true
    rdAlloc := fun _ => true
    stdin := [104, 105, ctrlRBracket, 33]
    turns := [⟨.ready true false true, .intr, [], .got 0, [.wrote 1]⟩, ⟨.intr, .intr, [], .intr, []⟩,
      ⟨.ready false true true, .got 9, [.wrote 1, .intr, .wrote 1], .got 0, []⟩] }

theorem cmdAttach_accounts_detaching :
    (Relay.mk [] [107] [104, 105] [] [111] [] 1 (some .detached)).Accounts detaching.stdin [111, 107] :=
  (@cmdAttach_accounts 1 EpiMsgType.attached.code [7] [111, 107] detaching _ (by decide) (by decide) rfl (by decide)).2

end Epimone.Ctl
