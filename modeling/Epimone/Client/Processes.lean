import Epimone.Client.Spawning
import Epimone.Library.Decimal
import Mathlib.Data.List.DropRight

/-! # What runs in the panes

The overview names a pane by the process in the foreground of its terminal. The
group of that process is the eighth field of /proc/PID/stat, behind the name of the
command, which holds any bytes, spaces and parentheses among them. The caption of a
card counts the commands that are no shells.
-/
set_option autoImplicit false

namespace Epimone.Client.Processes

open Daemon Decimal

def space : UInt8 := 32

def newline : UInt8 := 10

def backslash : UInt8 := 92

def openingParen : UInt8 := 40

def closingParen : UInt8 := 41

def plusSign : UInt8 := 43

def minusSign : UInt8 := 45

def gAsciiIsspace (b : UInt8) : Bool := [32, 9, 10, 12, 13].contains b

/-- The spaces that g_ascii_strtoll skips, the vertical tab among them. -/
def strtollSpace (b : UInt8) : Bool := [32, 12, 10, 13, 9, 11].contains b

def gStrchomp (text : Bytes) : Bytes := text.rdropWhile gAsciiIsspace

/-- What follows the last of these bytes. -/
def strrchr (b : UInt8) (text : Bytes) : Option Bytes :=
  if b ∈ text then some (text.rtakeWhile (· != b)) else none

def gAsciiStrtoll (text : Bytes) : Int :=
  let body := text.dropWhile strtollSpace
  let signed := body.head? = some minusSign ∨ body.head? = some plusSign
  let n : Int := readDigits (if signed then body.tail else body)
  if body.head? = some minusSign then max (-n) (-2 ^ 63) else min n (2 ^ 63 - 1)

/-- The cast of a gint64 to int. -/
def toInt (n : Int) : Int := n.bmod (2 ^ 32)

def readComm (text : Option Bytes) : Option Bytes :=
  (text.map fun text => gStrchomp (cString text)).filter (· ≠ [])

def skipField (p : Bytes) : Bytes := (p.dropWhile (· == space)).dropWhile (· != space)

def readTpgid (text : Option Bytes) : Int :=
  match text with
  | none => -1
  | some text =>
    match strrchr closingParen (cString text) with
    | none => -1
    | some p =>
      let p := (skipField^[5] p).dropWhile (· == space)
      if p = [] then -1 else toInt (gAsciiStrtoll p)

/-- What the reads of /proc return: the stat file of the process, the comm file of the leader, the comm file of
the process. -/
structure ProcReads where
  stat : Option Bytes
  leaderComm : Nat → Option Bytes
  comm : Option Bytes

def epimoneClientForegroundCommand (pid : Nat) (x : ProcReads) : Option Bytes :=
  if pid = 0 then none
  else
    let tpgid := readTpgid x.stat
    let name := if 0 < tpgid ∧ tpgid.toNat ≠ pid then readComm (x.leaderComm tpgid.toNat) else none
    name.or (readComm x.comm)

/-- A process as the kernel shows it: the name of its command, a letter for its state, and numbers. -/
structure Process where
  name : Daemon.CString
  state : UInt8
  lettered : 65 ≤ state
  ppid : Int
  pgrp : Int
  session : Int
  ttyNr : Int
  tpgid : Int
  isPid : -2 ^ 31 ≤ tpgid ∧ tpgid < 2 ^ 31
  rest : List Int

namespace Process

def commText (k : Process) : Bytes := k.name.bytes ++ [newline]

/-- Fields, each behind a space. -/
def fieldsText (fields : List Bytes) : Bytes := fields.flatMap (space :: ·)

def statFields (k : Process) : List Bytes :=
  [k.state] :: ([k.ppid, k.pgrp, k.session, k.ttyNr, k.tpgid] ++ k.rest).map integer

/-- The kernel escapes newlines and backslashes of the name here, but not in comm. -/
def escaped (name : Bytes) : Bytes :=
  name.flatMap fun b =>
    if b = newline then backslash :: ascii "n" else if b = backslash then [backslash, backslash] else [b]

def statText (pid : Nat) (k : Process) : Bytes :=
  numeral pid ++ [space, openingParen] ++ escaped k.name.bytes ++ closingParen :: (fieldsText k.statFields ++ [newline])

/-- The name without the white space at its end, if anything is left. -/
def title (k : Process) : Option Bytes := some (gStrchomp k.name.bytes) |>.filter (· ≠ [])

/-- Another process leads the group that has the terminal. -/
def leader (pid : Nat) (k : Process) : Option Nat :=
  if 0 < k.tpgid ∧ k.tpgid.toNat ≠ pid then some k.tpgid.toNat else none

end Process

/-- The table of processes changes while it is read. -/
def procReads (pid : Nat) (atStat atLeader atComm : Nat → Option Process) : ProcReads where
  stat := (atStat pid).map (Process.statText pid)
  leaderComm g := (atLeader g).map Process.commText
  comm := (atComm pid).map Process.commText

/-- What a pane should be called: by the leader of the group that has its terminal, if that is another process and
still has a name when it is asked for; else by its own process. -/
def named (pid : Nat) (atStat atLeader atComm : Nat → Option Process) : Option Bytes :=
  if pid = 0 then none
  else (((atStat pid).bind (Process.leader pid)).bind fun g => (atLeader g).bind Process.title).or
    ((atComm pid).bind Process.title)

section Parsing

theorem strrchr_append {b : UInt8} {text : Bytes} (h : b ∉ text) (before : Bytes) :
    strrchr b (before ++ b :: text) = some text := by
  have hMem : b ∈ before ++ b :: text := List.mem_append_right _ List.mem_cons_self
  have hAll : ∀ x ∈ text.reverse, (x != b) = true := by
    intro x hx
    rw [bne_iff_ne]
    rintro rfl
    exact h (List.mem_reverse.mp hx)
  rw [strrchr, if_pos hMem, List.rtakeWhile, List.reverse_append, List.reverse_cons, List.append_assoc,
    List.takeWhile_append_of_pos hAll]
  simp

theorem skipField_append {word text : Bytes} (hWord : space ∉ word) (hSome : word ≠ []) :
    skipField (space :: (word ++ space :: text)) = space :: text := by
  obtain ⟨b, word, rfl⟩ := List.exists_cons_of_ne_nil hSome
  have hFirst : b ≠ space := fun hb => hWord (hb ▸ List.mem_cons_self)
  have hAll : ∀ x ∈ b :: word, (x != space) = true := by
    intro x hx
    rw [bne_iff_ne]
    rintro rfl
    exact hWord hx
  have hStart : (space :: (b :: word ++ space :: text)).dropWhile (· == space) = b :: word ++ space :: text := by
    simp [hFirst]
  rw [skipField, hStart, List.dropWhile_append_of_pos hAll]
  simp

theorem skipField_fieldsText {word next : Bytes} (hWord : space ∉ word) (hSome : word ≠ []) (fields : List Bytes)
    (tail : Bytes) :
    skipField (Process.fieldsText (word :: next :: fields) ++ tail) = Process.fieldsText (next :: fields) ++ tail := by
  have hFields : Process.fieldsText (word :: next :: fields) ++ tail =
      space :: (word ++ space :: (next ++ Process.fieldsText fields ++ tail)) := by
    simp [Process.fieldsText]
  rw [hFields, skipField_append hWord hSome]
  simp [Process.fieldsText]

theorem isDigit_bounds {b : UInt8} (h : isDigit b = true) : 48 ≤ b ∧ b ≤ 57 := by
  simpa [isDigit] using h

theorem strtollSpace_of_isDigit {b : UInt8} (h : isDigit b = true) : strtollSpace b = false := by
  rw [Bool.eq_false_iff]
  intro hSpace
  have hMem : b ∈ [32, 12, 10, 13, 9, 11] := List.contains_iff_mem.mp hSpace
  have hNone : ∀ x ∈ ([32, 12, 10, 13, 9, 11] : List UInt8), isDigit x = false := by decide +kernel
  rw [hNone b hMem] at h
  cases h

theorem not_mem_integer {b : UInt8} (h : b < 45) (z : Int) : b ∉ integer z := by
  intro hb
  rcases mem_integer hb with rfl | hDigit
  · exact absurd h (by decide)
  · have hLow := (isDigit_bounds hDigit).1
    rw [UInt8.le_iff_toNat_le] at hLow
    rw [UInt8.lt_iff_toNat_lt] at h
    change 48 ≤ b.toNat at hLow
    change b.toNat < 45 at h
    omega

theorem not_mem_fieldsText {b : UInt8} (hSpace : b ≠ space) {fields : List Bytes} (h : ∀ word ∈ fields, b ∉ word) :
    b ∉ Process.fieldsText fields := by
  intro hb
  obtain ⟨word, hWord, hIn⟩ := List.mem_flatMap.mp hb
  exact (List.mem_cons.mp hIn).elim hSpace (h word hWord)

theorem gAsciiStrtoll_integer {z : Int} (hRange : -2 ^ 31 ≤ z ∧ z < 2 ^ 31) {rest : Bytes}
    (hStop : ∀ b ∈ rest.head?, isDigit b = false) : gAsciiStrtoll (integer z ++ rest) = z := by
  obtain ⟨b, text, hNumeral, hDigit⟩ := exists_numeral z.natAbs
  have hRead : readDigits (numeral z.natAbs ++ rest) = z.natAbs := readDigits_numeral z.natAbs hStop
  by_cases hNeg : z < 0
  · have hText : integer z ++ rest = minusSign :: (numeral z.natAbs ++ rest) := by
      rw [integer, if_pos hNeg]
      rfl
    have hBody : (minusSign :: (numeral z.natAbs ++ rest)).dropWhile strtollSpace =
        minusSign :: (numeral z.natAbs ++ rest) := List.dropWhile_cons_of_neg (by decide)
    simp only [gAsciiStrtoll, hText, hBody, List.head?_cons, true_or, ↓reduceIte, List.tail_cons, hRead]
    omega
  · have hText : integer z ++ rest = numeral z.natAbs ++ rest := by rw [integer, if_neg hNeg]
    obtain ⟨hLow, hHigh⟩ := isDigit_bounds hDigit
    have hBody : (numeral z.natAbs ++ rest).dropWhile strtollSpace = numeral z.natAbs ++ rest := by
      rw [hNumeral]
      refine List.dropWhile_cons_of_neg ?_
      rw [strtollSpace_of_isDigit hDigit]
      exact Bool.false_ne_true
    have hHead : (numeral z.natAbs ++ rest).head? = some b := by
      rw [hNumeral]
      rfl
    have hPlus : b ≠ plusSign := by
      rintro rfl
      exact absurd hLow (by decide)
    have hMinus : b ≠ minusSign := by
      rintro rfl
      exact absurd hLow (by decide)
    simp only [gAsciiStrtoll, hText, hBody, hHead, Option.some.injEq, hPlus, hMinus, or_self, ↓reduceIte, hRead]
    omega

theorem toInt_eq {z : Int} (hRange : -2 ^ 31 ≤ z ∧ z < 2 ^ 31) : toInt z = z := by
  rw [toInt, Int.bmod_def]
  split <;> omega

end Parsing

namespace Process

variable (k : Process)

theorem not_mem_statFields {b : UInt8} (h : b < 45) : ∀ word ∈ k.statFields, b ∉ word := by
  intro word hWord
  rcases List.mem_cons.mp hWord with rfl | hNumber
  · intro hState
    have hLetter := k.lettered
    rw [← List.mem_singleton.mp hState, UInt8.le_iff_toNat_le] at hLetter
    rw [UInt8.lt_iff_toNat_lt] at h
    change 65 ≤ b.toNat at hLetter
    change b.toNat < 45 at h
    omega
  · obtain ⟨z, -, rfl⟩ := List.mem_map.mp hNumber
    exact not_mem_integer h z

theorem noNul_escaped {name : Bytes} (h : 0 ∉ name) : 0 ∉ escaped name := by
  intro hNul
  obtain ⟨b, hb, hNul⟩ := List.mem_flatMap.mp hNul
  split at hNul
  · exact absurd hNul (by decide)
  split at hNul
  · exact absurd hNul (by decide)
  · exact h (List.mem_singleton.mp hNul ▸ hb)

theorem noNul_statText (pid : Nat) : 0 ∉ k.statText pid := by
  have hPid : (0 : UInt8) ∉ numeral pid := by
    intro hZero
    exact absurd (isDigit_of_mem_numeral hZero) (by decide)
  have hText := not_mem_fieldsText (b := 0) (by decide) (k.not_mem_statFields (by decide))
  have hName := noNul_escaped k.name.noNul
  simp [statText, hPid, hText, hName, space, openingParen, closingParen, newline]

theorem closingParen_not_mem : closingParen ∉ fieldsText k.statFields ++ [newline] := by
  have hText := not_mem_fieldsText (by decide) (k.not_mem_statFields (by decide : closingParen < 45))
  simpa [hText] using (by decide : closingParen ≠ newline)

theorem skipField_statFields : skipField^[5] (fieldsText k.statFields ++ [newline]) =
    fieldsText (integer k.tpgid :: k.rest.map integer) ++ [newline] := by
  have hState : space ∉ [k.state] := k.not_mem_statFields (by decide) _ List.mem_cons_self
  have hNumber : ∀ z, space ∉ integer z := not_mem_integer (by decide)
  simp only [statFields, List.cons_append, List.nil_append, List.map_cons, Function.iterate_succ_apply,
    Function.iterate_zero_apply]
  rw [skipField_fieldsText hState (List.cons_ne_nil _ _), skipField_fieldsText (hNumber _) (integer_ne_nil _),
    skipField_fieldsText (hNumber _) (integer_ne_nil _), skipField_fieldsText (hNumber _) (integer_ne_nil _),
    skipField_fieldsText (hNumber _) (integer_ne_nil _)]

theorem stops (fields : List Bytes) : ∀ b ∈ (fieldsText fields ++ [newline]).head?, isDigit b = false := by
  intro b hb
  cases fields with
  | nil =>
    cases hb
    rfl
  | cons word fields =>
    cases hb
    rfl

/-- Whatever the command is called, the right number is read. -/
theorem readTpgid_statText (pid : Nat) : readTpgid (some (k.statText pid)) = k.tpgid := by
  have hText : cString (k.statText pid) = k.statText pid := (Daemon.CString.mk _ (k.noNul_statText pid)).cString_eq
  have hBehind : strrchr closingParen (k.statText pid) = some (fieldsText k.statFields ++ [newline]) :=
    strrchr_append k.closingParen_not_mem _
  have hFirst : fieldsText (integer k.tpgid :: k.rest.map integer) ++ [newline] =
      space :: (integer k.tpgid ++ (fieldsText (k.rest.map integer) ++ [newline])) := by
    simp [fieldsText]
  obtain ⟨b, text, hNumber⟩ := List.exists_cons_of_ne_nil (integer_ne_nil k.tpgid)
  have hNotSpace : b ≠ space := by
    rintro rfl
    exact not_mem_integer (by decide) k.tpgid (hNumber ▸ List.mem_cons_self)
  have hField : (space :: (integer k.tpgid ++ (fieldsText (k.rest.map integer) ++ [newline]))).dropWhile (· == space) =
      integer k.tpgid ++ (fieldsText (k.rest.map integer) ++ [newline]) := by
    rw [hNumber]
    simp [hNotSpace]
  have hSome : integer k.tpgid ++ (fieldsText (k.rest.map integer) ++ [newline]) ≠ [] := by
    rw [hNumber]
    exact List.cons_ne_nil _ _
  unfold readTpgid
  dsimp only
  rw [hText, hBehind]
  dsimp only
  rw [k.skipField_statFields, hFirst, hField, if_neg hSome, gAsciiStrtoll_integer k.isPid (stops _), toInt_eq k.isPid]

theorem readComm_commText : readComm (some k.commText) = k.title := by
  have hNul : 0 ∉ k.commText := by
    simpa [commText, k.name.noNul] using (by decide : (0 : UInt8) ≠ newline)
  have hText : cString k.commText = k.commText := (Daemon.CString.mk _ hNul).cString_eq
  have hTrimmed : gStrchomp k.commText = gStrchomp k.name.bytes :=
    List.rdropWhile_concat_pos gAsciiIsspace k.name.bytes newline (by decide)
  rw [readComm, Option.map_some, hText, hTrimmed]
  rfl

end Process

theorem readTpgid_procReads (table : Nat → Option Process) (pid : Nat) :
    readTpgid ((table pid).map (Process.statText pid)) = ((table pid).map Process.tpgid).getD (-1) := by
  cases table pid with
  | none => rfl
  | some k => exact k.readTpgid_statText pid

theorem readComm_procReads (table : Nat → Option Process) (pid : Nat) :
    readComm ((table pid).map Process.commText) = (table pid).bind Process.title := by
  cases table pid with
  | none => rfl
  | some k => exact k.readComm_commText

/-- No name of a command misleads the reader of /proc. -/
theorem foreground_command_of_table (pid : Nat) (atStat atLeader atComm : Nat → Option Process) :
    epimoneClientForegroundCommand pid (procReads pid atStat atLeader atComm) =
      named pid atStat atLeader atComm := by
  unfold epimoneClientForegroundCommand procReads named
  dsimp only
  rw [readTpgid_procReads, readComm_procReads, readComm_procReads]
  split
  · rfl
  cases atStat pid with
  | none => rfl
  | some k =>
    simp only [Option.map_some, Option.getD_some, Option.bind_some, Process.leader]
    split <;> rfl

theorem title_ne_nil {k : Process} {name : Bytes} (h : k.title = some name) : name ≠ [] := by
  simpa using (Option.filter_eq_some_iff.mp h).2

theorem named_ne_nil {pid : Nat} {atStat atLeader atComm : Nat → Option Process} {name : Bytes}
    (h : named pid atStat atLeader atComm = some name) : name ≠ [] := by
  unfold named at h
  split at h
  · cases h
  rcases Option.or_eq_some_iff.mp h with hLeader | ⟨-, hOwn⟩
  · obtain ⟨g, -, hName⟩ := Option.bind_eq_some_iff.mp hLeader
    obtain ⟨k, -, hTitle⟩ := Option.bind_eq_some_iff.mp hName
    exact title_ne_nil hTitle
  · obtain ⟨k, -, hTitle⟩ := Option.bind_eq_some_iff.mp hOwn
    exact title_ne_nil hTitle

section Captions

def comma : UInt8 := 44

def separator : Bytes := [comma, space]

/-- g_strsplit by ", ", the part at hand first. -/
def gStrsplit (part : Bytes) : Bytes → List Bytes
  | [] => [part]
  | b :: text =>
    if b = space ∧ part.getLast? = some comma then part.dropLast :: gStrsplit [] text else gStrsplit (part ++ [b]) text

/-- The distinct parts with their counts, in two arrays in the source. -/
def addPart (part : Bytes) : List (Bytes × Nat) → List (Bytes × Nat)
  | [] => [(part, 1)]
  | entry :: seen => if entry.1 = part then (part, entry.2 + 1) :: seen else entry :: addPart part seen

def appendEntry (out : Bytes) (entry : Bytes × Nat) : Bytes :=
  (if out = [] then [] else out ++ separator) ++ entry.1 ++
    if 1 < entry.2 then [32, 0xc3, 0x97] ++ numeral entry.2 else []

/-- Three commands at most, and an ellipsis for the others. -/
def summary (entries : List (Bytes × Nat)) : Bytes :=
  (entries.take 3).foldl appendEntry [] ++ if 3 < entries.length then separator ++ [0xe2, 0x80, 0xa6] else []

def summariseProcesses (joined : Bytes) : Bytes :=
  if joined = [] then ascii "no panes"
  else summary ((gStrsplit [] joined).foldl (fun seen part => addPart part seen) [])

def fallbackShells : List Bytes :=
  ["sh", "bash", "zsh", "fish", "dash", "ksh", "mksh", "tcsh", "csh"].map ascii

/-- The names of shells, with what /etc/shells says if it can be read. -/
def shells (etcShells : Option Bytes) : List Bytes :=
  let lines := ((cString (etcShells.getD [])).splitOn newline).map fun line => gStrchomp (line.dropWhile gAsciiIsspace)
  fallbackShells ++ (lines.filter fun line => line.head? == some slash).map gPathGetBasename

def commandIsShell (etcShells cmd : Option Bytes) : Bool :=
  match cmd with
  | none => true
  | some name => (shells etcShells).contains (if name.head? = some minusSign then name.tail else name)

/-- One member of the group in overview_reload: its command joins the active ones unless it is a shell. -/
def appendActive (etcShells : Option Bytes) (active : Bytes) (cmd : Option Bytes) : Bytes :=
  if commandIsShell etcShells cmd then active
  else (if active = [] then [] else active ++ separator) ++ cmd.getD []

def activeText (etcShells : Option Bytes) (cmds : List (Option Bytes)) : Bytes :=
  cmds.foldl (appendActive etcShells) []

/-- What build_card says of the commands, if it says anything. -/
def captionProcesses (active : Bytes) : Option Bytes :=
  if active = [] then none else some (summariseProcesses active)

theorem gStrsplit_inside {part word : Bytes} {b : UInt8} (h : ¬ separator <:+: part ++ b :: word) (text : Bytes) :
    gStrsplit part (b :: text) = gStrsplit (part ++ [b]) text := by
  have hInside : ¬ (b = space ∧ part.getLast? = some comma) := by
    rintro ⟨rfl, hLast⟩
    obtain ⟨before, rfl⟩ := List.getLast?_eq_some_iff.mp hLast
    exact h ⟨before, word, by simp [separator]⟩
  rw [gStrsplit, if_neg hInside]

theorem gStrsplit_separated {part word : Bytes} (h : ¬ separator <:+: part ++ word) (text : Bytes) :
    gStrsplit part (word ++ (separator ++ text)) = (part ++ word) :: gStrsplit [] text := by
  induction word generalizing part with
  | nil =>
    have hComma : comma ≠ space := by decide
    simp [gStrsplit, separator, hComma]
  | cons b word ih =>
    have hRest : ¬ separator <:+: (part ++ [b]) ++ word := by
      rwa [List.append_assoc, List.singleton_append]
    rw [List.cons_append, gStrsplit_inside h, ih hRest, List.append_assoc, List.singleton_append]

theorem gStrsplit_last {part word : Bytes} (h : ¬ separator <:+: part ++ word) :
    gStrsplit part word = [part ++ word] := by
  induction word generalizing part with
  | nil => rw [gStrsplit, List.append_nil]
  | cons b word ih =>
    have hRest : ¬ separator <:+: (part ++ [b]) ++ word := by
      rwa [List.append_assoc, List.singleton_append]
    rw [gStrsplit_inside h, ih hRest, List.append_assoc, List.singleton_append]

theorem gStrsplit_joined (name : Bytes) (names : List Bytes) (h : ∀ n ∈ name :: names, ¬ separator <:+: n) :
    gStrsplit [] (name ++ names.flatMap (separator ++ ·)) = name :: names := by
  induction names generalizing name with
  | nil =>
    rw [List.flatMap_nil, List.append_nil]
    exact gStrsplit_last (h name List.mem_cons_self)
  | cons next names ih =>
    have hNext := ih next fun n hn => h n (List.mem_cons_of_mem _ hn)
    have hName : ¬ separator <:+: [] ++ name := h name List.mem_cons_self
    rw [List.flatMap_cons, List.append_assoc, gStrsplit_separated hName, hNext, List.nil_append]

theorem addPart_map (x : Bytes) {l : List Bytes} (hDistinct : l.Nodup) (f : Bytes → Nat) (hNew : x ∉ l → f x = 0) :
    addPart x (l.map fun n => (n, f n)) =
      (l ++ if x ∈ l then [] else [x]).map fun n => (n, f n + if n = x then 1 else 0) := by
  induction l with
  | nil => simp [addPart, hNew]
  | cons n l ih =>
    obtain ⟨hFirst, hRest⟩ := List.nodup_cons.mp hDistinct
    by_cases hSame : n = x
    · subst hSame
      have hOthers : l.map (fun m => (m, f m)) = l.map fun m => (m, f m + if m = n then 1 else 0) := by
        refine List.map_congr_left fun m hm => ?_
        have hOther : m ≠ n := by
          rintro rfl
          exact hFirst hm
        rw [if_neg hOther, Nat.add_zero]
      simp [addPart, hOthers]
    · have hTail := ih hRest fun hx => hNew (by simp [hx, Ne.symm hSame])
      have hMem : x ∈ n :: l ↔ x ∈ l := by simp [Ne.symm hSame]
      rw [List.map_cons, addPart, if_neg hSame, hTail]
      simp [hMem, hSame]

/-- The parts in the order in which they first come, each with its number. -/
theorem foldl_addPart (parts : List Bytes) :
    parts.eraseDups.Nodup ∧ parts.foldl (fun seen part => addPart part seen) [] =
      parts.eraseDups.map fun n => (n, parts.count n) := by
  induction parts using List.reverseRecOn with
  | nil => exact ⟨List.nodup_nil, rfl⟩
  | append_singleton parts x ih =>
    obtain ⟨hDistinct, hCounts⟩ := ih
    have hLast : ([x].removeAll parts).eraseDups = if x ∈ parts then [] else [x] := by
      by_cases hx : x ∈ parts <;> simp [List.removeAll, hx, List.eraseDups_cons]
    have hDups : (parts ++ [x]).eraseDups = parts.eraseDups ++ if x ∈ parts.eraseDups then [] else [x] := by
      rw [List.eraseDups_append, hLast]
      simp only [List.mem_eraseDups]
    constructor
    · rw [hDups]
      split
      · rwa [List.append_nil]
      · rename_i hx
        refine List.nodup_append.mpr ⟨hDistinct, List.nodup_singleton x, ?_⟩
        rintro n hn m hm rfl
        exact hx (List.mem_singleton.mp hm ▸ hn)
    · have hNew : x ∉ parts.eraseDups → parts.count x = 0 := fun hx =>
        List.count_eq_zero.mpr fun hIn => hx (List.mem_eraseDups.mpr hIn)
      rw [List.foldl_append, hCounts, List.foldl_cons, List.foldl_nil, addPart_map x hDistinct _ hNew, ← hDups]
      refine List.map_congr_left fun n _ => ?_
      rw [List.count_append, List.count_singleton]
      rcases eq_or_ne n x with rfl | hOther
      · simp
      · rw [if_neg hOther, if_neg (by simpa using Ne.symm hOther)]

/-- The names, each behind the separator but for the first. -/
def joined : List Bytes → Bytes
  | [] => []
  | name :: names => name ++ names.flatMap (separator ++ ·)

theorem joined_append_singleton (names : List Bytes) (name : Bytes) :
    joined (names ++ [name]) = (if names = [] then [] else joined names ++ separator) ++ name := by
  cases names with
  | nil => simp [joined]
  | cons first names => simp [joined]

theorem joined_eq_nil {names : List Bytes} (h : [] ∉ names) : joined names = [] ↔ names = [] := by
  cases names with
  | nil => simp [joined]
  | cons first names =>
    have hFirst : first ≠ [] := by
      rintro rfl
      exact h List.mem_cons_self
    simp [joined, hFirst]

/-- The commands that are no shells. -/
def running (etcShells : Option Bytes) (cmds : List (Option Bytes)) : List Bytes :=
  cmds.filterMap fun cmd => if commandIsShell etcShells cmd then none else cmd

theorem activeText_eq {etcShells : Option Bytes} {cmds : List (Option Bytes)} (h : [] ∉ running etcShells cmds) :
    activeText etcShells cmds = joined (running etcShells cmds) := by
  induction cmds using List.reverseRecOn with
  | nil => rfl
  | append_singleton cmds cmd ih =>
    have hSplit : running etcShells (cmds ++ [cmd]) = running etcShells cmds ++ running etcShells [cmd] :=
      List.filterMap_append
    rw [hSplit] at h ⊢
    have hBefore : [] ∉ running etcShells cmds := fun hIn => h (List.mem_append_left _ hIn)
    rw [activeText, List.foldl_append, List.foldl_cons, List.foldl_nil, ← activeText, ih hBefore]
    cases hShell : commandIsShell etcShells cmd with
    | true => simp [appendActive, running, hShell]
    | false =>
      cases cmd with
      | none => cases hShell
      | some name =>
        have hOne : running etcShells [some name] = [name] := by simp [running, hShell]
        rw [hOne, joined_append_singleton, appendActive, hShell]
        simp only [joined_eq_nil hBefore, Bool.false_eq_true, ↓reduceIte, Option.getD_some]

/-- The caption of a card counts what runs in its panes: the commands that are no shells in the order in which they
first come, each with the number of panes that it runs in. -/
theorem caption_counts_panes (etcShells : Option Bytes) (pids : List Nat)
    (atStat atLeader atComm : Nat → Option Process) {commands : List Bytes}
    (hCommands : commands = running etcShells (pids.map fun pid => named pid atStat atLeader atComm))
    (hApart : ∀ name ∈ commands, ¬ separator <:+: name) :
    captionProcesses (activeText etcShells (pids.map fun pid =>
        epimoneClientForegroundCommand pid (procReads pid atStat atLeader atComm))) =
      if commands = [] then none
      else some (summary (commands.eraseDups.map fun name => (name, commands.count name))) := by
  have hReads : (pids.map fun pid => epimoneClientForegroundCommand pid (procReads pid atStat atLeader atComm)) =
      pids.map fun pid => named pid atStat atLeader atComm :=
    List.map_congr_left fun pid _ => foreground_command_of_table pid atStat atLeader atComm
  have hSome : [] ∉ commands := by
    rw [hCommands]
    intro hIn
    obtain ⟨cmd, hCmd, hNil⟩ := List.mem_filterMap.mp hIn
    obtain ⟨pid, -, rfl⟩ := List.mem_map.mp hCmd
    split at hNil
    · cases hNil
    · exact named_ne_nil hNil rfl
  have hActive := activeText_eq (hCommands ▸ hSome)
  rw [← hCommands] at hActive
  rw [hReads, hActive]
  unfold captionProcesses summariseProcesses
  simp only [joined_eq_nil hSome]
  split
  · rfl
  cases commands with
  | nil => contradiction
  | cons name names => rw [joined, gStrsplit_joined name names hApart, (foldl_addPart (name :: names)).2]

theorem noNul_bash : 0 ∉ ascii "bash" := by decide

theorem noNul_vim : 0 ∉ ascii "vim" := by decide

/-- The name of a command that looks like the rest of a line of /proc/PID/stat. -/
def misleading : Bytes := ascii "a) R 1 2 3 4 99 (b"

theorem noNul_misleading : 0 ∉ misleading := by decide

theorem sleeping : (65 : UInt8) ≤ 83 := by decide

theorem isPid_small (g : Fin 100) : -2 ^ 31 ≤ (g.val : Int) ∧ (g.val : Int) < 2 ^ 31 := by omega

def inGroup (name : Daemon.CString) (g : Fin 100) : Process where
  name := name
  state := 83
  lettered := sleeping
  ppid := 1
  pgrp := g.val
  session := g.val
  ttyNr := 34816
  tpgid := g.val
  isPid := isPid_small g
  rest := [4194304, 0]

/-- Four panes: two with vim, one with a command of a misleading name, and one at its prompt. -/
def fourPanes : Nat → Option Process
  | 10 => some (inGroup ⟨ascii "bash", noNul_bash⟩ 11)
  | 11 => some (inGroup ⟨ascii "vim", noNul_vim⟩ 11)
  | 20 => some (inGroup ⟨ascii "bash", noNul_bash⟩ 21)
  | 21 => some (inGroup ⟨misleading, noNul_misleading⟩ 21)
  | 30 => some (inGroup ⟨ascii "bash", noNul_bash⟩ 30)
  | 40 => some (inGroup ⟨ascii "bash", noNul_bash⟩ 41)
  | 41 => some (inGroup ⟨ascii "vim", noNul_vim⟩ 41)
  | _ => none

theorem caption_counts_panes_fourPanes :
    captionProcesses (activeText none ([10, 20, 30, 40].map fun pid =>
        epimoneClientForegroundCommand pid (procReads pid fourPanes fourPanes fourPanes))) =
      some (summary [(ascii "vim", 2), (misleading, 1)]) := by
  have hApart : ∀ name ∈ running none ([10, 20, 30, 40].map fun pid => named pid fourPanes fourPanes fourPanes),
      ¬ separator <:+: name := by decide +kernel
  rw [caption_counts_panes none [10, 20, 30, 40] fourPanes fourPanes fourPanes rfl hApart]
  decide +kernel

end Captions

end Epimone.Client.Processes
