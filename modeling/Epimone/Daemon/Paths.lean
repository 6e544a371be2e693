import Epimone.Daemon.RequestCodec
import Epimone.Library.FileTree

/-! # The directory of the control socket

`epi_runtime_dir` takes the directory from the environment or falls back to a
name under /tmp, and creates what is missing of its path. Whatever is there
already is taken as it is.
-/
set_option autoImplicit false

namespace Epimone.Daemon

open FileTree

def slash : UInt8 := 47

def dot : Bytes := [46]

def dotDot : Bytes := [46, 46]

def nameOf (word : Bytes) : List Bytes := if word = [] then [] else [word]

/-- The names of a path; `word` is the part of a name that has been read. -/
def splitPath (word : Bytes) : Bytes → List Bytes
  | [] => nameOf word
  | c :: rest => if c = slash then nameOf word ++ splitPath [] rest else splitPath (word ++ [c]) rest

def components (path : Bytes) : List Bytes := splitPath [] path

/-- The process: its user, its environment and umask, how far a path is followed, and where mkdir fails but for
EEXIST, by the length of the path. -/
structure Caller where
  uid : Nat
  xdg : Option CString
  umask : Nat
  steps : Nat
  refuses : Nat → Bool

namespace Caller

variable (x : Caller)

/-- The mode 0700 of mkdir, less the bits of the umask. -/
def newMode : Nat := 0o700 &&& (0o777 ^^^ x.umask)

/-- A call of mkdir for which EEXIST is no failure. -/
def makeDir (fs : Files Bytes) (path : Bytes) : Option (Files Bytes) :=
  if x.refuses path.length then none
  else
    match fs.mkdir dot dotDot x.steps x.uid x.newMode (components path) with
    | .ok fs => some fs
    | .error .exist => some fs
    | .error .other => none

/-- The loop of ensure_dir, with the part of the path before it, and the call after the loop. -/
def makeDirs (fs : Files Bytes) (path : Bytes) : Bytes → Option (Files Bytes)
  | [] => x.makeDir fs path
  | c :: rest =>
    if c = slash ∧ path ≠ [] then (x.makeDir fs path).bind fun fs => makeDirs fs (path ++ [c]) rest
    else makeDirs fs (path ++ [c]) rest

def ensureDir (fs : Files Bytes) (path : Bytes) : Option (Files Bytes) :=
  if path.length = 0 ∨ 512 ≤ path.length then none else x.makeDirs fs [] path

def absolute : Option Bytes :=
  match x.xdg with
  | some s => if s.bytes.head? = some slash then some s.bytes else none
  | none => none

def runtimePath : Bytes :=
  match x.absolute with
  | some dir => dir ++ ascii "/epimone"
  | none => ascii "/tmp/epimone-" ++ ascii (toString x.uid)

def epiRuntimeDir (fs : Files Bytes) (buflen : Nat) : Option (Bytes × Files Bytes) :=
  if buflen ≤ x.runtimePath.length then none else (x.ensureDir fs x.runtimePath).map fun fs => (x.runtimePath, fs)

/-- A directory of the user into which nobody else can write. -/
def Owns (inode : Inode Bytes) : Prop :=
  inode.owner = x.uid ∧ inode.mode &&& 0o022 = 0 ∧ ∃ entries, inode.node = .dir entries

/-- The path is a real directory of that kind. -/
def Private (fs : Files Bytes) (path : Bytes) : Prop :=
  ∃ i inode, fs.lstat x.steps (components path) = some i ∧ fs.inodes[i]? = some inode ∧ x.Owns inode

/-- XDG_RUNTIME_DIR, when absolute, is such a directory. -/
def Provided (fs : Files Bytes) : Prop :=
  ∀ dir, x.absolute = some dir →
    ∃ i inode, fs.walk x.steps 0 (components dir) = some i ∧ fs.inodes[i]? = some inode ∧ x.Owns inode

end Caller

/-! The names of a path. -/

theorem splitPath_append (word before after : Bytes) :
    splitPath word (before ++ slash :: after) = splitPath word before ++ components after := by
  induction before generalizing word with
  | nil => rfl
  | cons c before ih =>
    rw [List.cons_append, splitPath, splitPath]
    split
    · rw [ih, List.append_assoc]
    · exact ih (word ++ [c])

theorem splitPath_of_not_mem {rest : Bytes} (h : slash ∉ rest) (word : Bytes) :
    splitPath word rest = nameOf (word ++ rest) := by
  induction rest generalizing word with
  | nil => rw [splitPath, List.append_nil]
  | cons c rest ih =>
    have hOther : c ≠ slash := (List.ne_of_not_mem_cons h).symm
    rw [splitPath, if_neg hOther, ih (List.not_mem_of_not_mem_cons h), List.append_assoc, List.singleton_append]

theorem components_append (before after : Bytes) :
    components (before ++ slash :: after) = components before ++ components after :=
  splitPath_append [] before after

theorem components_name {name : Bytes} (hSome : name ≠ []) (h : slash ∉ name) : components name = [name] := by
  rw [components, splitPath_of_not_mem h, List.nil_append, nameOf, if_neg hSome]

namespace Caller

variable {x : Caller} {fs fs' : Files Bytes}

theorem makeDir_eq_some {path : Bytes} (h : x.makeDir fs path = some fs') :
    fs.mkdir dot dotDot x.steps x.uid x.newMode (components path) = .ok fs' ∨
      fs.mkdir dot dotDot x.steps x.uid x.newMode (components path) = .error .exist ∧ fs' = fs := by
  unfold makeDir at h
  split at h
  · cases h
  split at h
  · next hMade =>
    cases h
    exact Or.inl hMade
  · next hExists =>
    cases h
    exact Or.inr ⟨hExists, rfl⟩
  · cases h

/-- Where none of the calls in the loop makes anything, the last one is all there is. -/
theorem makeDirs_of_made {path rest : Bytes}
    (hNone : ∀ before after made, path ++ rest = before ++ slash :: after → path.length ≤ before.length →
      fs.mkdir dot dotDot x.steps x.uid x.newMode (components before) ≠ .ok made)
    (h : x.makeDirs fs path rest = some fs') : x.makeDir fs (path ++ rest) = some fs' := by
  induction rest generalizing path with
  | nil => rwa [List.append_nil]
  | cons c rest ih =>
    have hLater : ∀ before after made, path ++ [c] ++ rest = before ++ slash :: after →
        (path ++ [c]).length ≤ before.length →
        fs.mkdir dot dotDot x.steps x.uid x.newMode (components before) ≠ .ok made := by
      intro before after made hSplit hLength
      rw [List.append_assoc, List.singleton_append] at hSplit
      rw [List.length_append] at hLength
      exact hNone before after made hSplit (by omega)
    rw [makeDirs] at h
    rw [← List.singleton_append, ← List.append_assoc]
    split at h
    · next hSlash =>
      obtain ⟨made, hMade, hRest⟩ := Option.bind_eq_some_iff.mp h
      rcases makeDir_eq_some hMade with hOk | ⟨-, rfl⟩
      · exact absurd hOk (hNone path rest made (by rw [hSlash.1]) (Nat.le_refl _))
      · exact ih hLater hRest
    · exact ih hLater h

theorem makeDirs_of_not_mem {rest : Bytes} (hRest : slash ∉ rest) (path : Bytes) :
    x.makeDirs fs path rest = x.makeDir fs (path ++ rest) := by
  induction rest generalizing path with
  | nil => rw [makeDirs, List.append_nil]
  | cons c rest ih =>
    have hOther : ¬ (c = slash ∧ path ≠ []) := fun hSlash => List.ne_of_not_mem_cons hRest hSlash.1.symm
    rw [makeDirs, if_neg hOther, ih (List.not_mem_of_not_mem_cons hRest), List.append_assoc, List.singleton_append]

theorem components_before {dir name before after : Bytes} (hName : slash ∉ name)
    (h : dir ++ slash :: name = before ++ slash :: after) : ∃ rest, components dir = components before ++ rest := by
  rcases List.append_eq_append_iff.mp h with ⟨more, hBefore, hAfter⟩ | ⟨more, hDir, hMore⟩
  · cases more with
    | nil =>
      rw [List.append_nil] at hBefore
      exact ⟨[], by rw [hBefore, List.append_nil]⟩
    | cons c more =>
      cases hAfter
      exact absurd (List.mem_append_right more List.mem_cons_self) hName
  · cases more with
    | nil =>
      rw [List.append_nil] at hDir
      exact ⟨[], by rw [hDir, List.append_nil]⟩
    | cons c more =>
      cases hMore
      exact ⟨components more, by rw [hDir, components_append]⟩

theorem makeDir_cases {path name : Bytes} {front : List Bytes} (hPath : components path = front ++ [name])
    (h : x.makeDir fs path = some fs') :
    fs.lstat x.steps (components path) = none ∧ x.Private fs' path ∨
      fs.lstat x.steps (components path) ≠ none ∧ fs' = fs := by
  have hMode : x.newMode &&& 0o022 = 0 := by
    rw [newMode, Nat.and_assoc, Nat.and_comm _ 0o022, ← Nat.and_assoc]
    exact Nat.zero_and _
  rcases makeDir_eq_some h with hMade | ⟨hExists, hSame⟩
  · rw [hPath] at hMade
    obtain ⟨i, hWalk, hEntry, -, hLstat, hInode⟩ := Files.mkdir_eq_ok hMade
    refine Or.inl ⟨?_, fs.inodes.length, _, by rwa [hPath], hInode, rfl, hMode, _, rfl⟩
    rw [hPath, Files.lstat_snoc, hWalk]
    exact hEntry
  · rw [hPath] at hExists ⊢
    exact Or.inr ⟨Option.isSome_iff_ne_none.mp (Files.lstat_of_mkdir_exist hExists), hSame⟩

/-- Where the directory above can be reached, only the last call can make anything. -/
theorem makeDirs_of_walk {dir name : Bytes} {i : Nat} (hName : slash ∉ name)
    (hWalk : fs.walk x.steps 0 (components dir) = some i) (h : x.makeDirs fs [] (dir ++ slash :: name) = some fs') :
    x.makeDir fs (dir ++ slash :: name) = some fs' := by
  have hNone : ∀ before after made, [] ++ (dir ++ slash :: name) = before ++ slash :: after →
      ([] : Bytes).length ≤ before.length →
      fs.mkdir dot dotDot x.steps x.uid x.newMode (components before) ≠ .ok made := by
    intro before after made hSplit _
    obtain ⟨rest, hRest⟩ := components_before hName hSplit
    rw [hRest] at hWalk
    exact Files.mkdir_of_walk hWalk made
  exact @makeDirs_of_made x fs fs' [] (dir ++ slash :: name) hNone h

def tmp : Bytes := ascii "/tmp"

theorem makeDirs_of_no_tmp {name : Bytes} (hName : slash ∉ name) (hSome : name ≠ []) (hDot : name ≠ dot)
    (hDotDot : name ≠ dotDot) (hWalk : fs.walk x.steps 0 (components tmp) = none)
    (h : x.makeDirs fs [] (tmp ++ slash :: name) = some fs') :
    fs.lstat x.steps (components (tmp ++ slash :: name)) = none ∧ x.Private fs' (tmp ++ slash :: name) := by
  have hComponents : components (tmp ++ slash :: name) = components tmp ++ [name] := by
    rw [components_append, components_name hSome hName]
  have hAbsent : fs.lstat x.steps (components (tmp ++ slash :: name)) = none := by
    rw [hComponents, Files.lstat_snoc, hWalk]
    rfl
  have hLoop : x.makeDirs fs [] (tmp ++ slash :: name) =
      (x.makeDir fs tmp).bind fun fs => x.makeDirs fs (tmp ++ [slash]) name := rfl
  rw [hLoop] at h
  obtain ⟨made, hMade, hLast⟩ := Option.bind_eq_some_iff.mp h
  rw [makeDirs_of_not_mem hName, List.append_assoc, List.singleton_append] at hLast
  refine ⟨hAbsent, ?_⟩
  rcases makeDir_cases hComponents hLast with ⟨-, hPrivate⟩ | ⟨hFound, -⟩
  · exact hPrivate
  exfalso
  apply hFound
  rcases makeDir_eq_some hMade with hOk | ⟨-, rfl⟩
  · rw [hComponents]
    exact Files.lstat_new hDot hDotDot hOk
  · exact hAbsent

/-- The name of the fallback. -/
def fallback (x : Caller) : Bytes := ascii "epimone-" ++ ascii (toString x.uid)

theorem slash_not_mem_fallback (x : Caller) : slash ∉ x.fallback := by
  rw [fallback, List.mem_append, not_or]
  refine ⟨by decide, ?_⟩
  rintro hIn
  obtain ⟨ch, hCh, hSlash⟩ := List.mem_map.mp hIn
  rw [Nat.toString_eq_repr, Nat.toList_repr] at hCh
  have hDigit : ch.isDigit = true := Nat.isDigit_of_mem_toDigits (by decide) (by decide) hCh
  have hRange : 48 ≤ ch.toNat ∧ ch.toNat ≤ 57 := by
    simpa [Char.isDigit, UInt32.le_iff_toNat_le] using hDigit
  have hCode : ch.toNat % 256 = 47 := congrArg UInt8.toNat hSlash
  omega

theorem epiRuntimeDir_eq_some {buflen : Nat} {path : Bytes} (h : x.epiRuntimeDir fs buflen = some (path, fs')) :
    path = x.runtimePath ∧ x.makeDirs fs [] x.runtimePath = some fs' := by
  unfold epiRuntimeDir at h
  split at h
  · cases h
  obtain ⟨made, hMade, hPair⟩ := Option.map_eq_some_iff.mp h
  cases hPair
  unfold ensureDir at hMade
  split at hMade
  · cases hMade
  · exact ⟨rfl, hMade⟩

/-- The path that is used is made private, or something is found at it. -/
theorem made_cases (hProvided : x.Provided fs) (h : x.makeDirs fs [] x.runtimePath = some fs') :
    fs.lstat x.steps (components x.runtimePath) = none ∧ x.Private fs' x.runtimePath ∨
      fs.lstat x.steps (components x.runtimePath) ≠ none ∧ fs' = fs := by
  have hReached : ∀ {dir name : Bytes} {i : Nat}, slash ∉ name → name ≠ [] →
      fs.walk x.steps 0 (components dir) = some i → x.makeDirs fs [] (dir ++ slash :: name) = some fs' →
      fs.lstat x.steps (components (dir ++ slash :: name)) = none ∧ x.Private fs' (dir ++ slash :: name) ∨
        fs.lstat x.steps (components (dir ++ slash :: name)) ≠ none ∧ fs' = fs := by
    intro dir name i hName hSome hWalk hMade
    have hComponents : components (dir ++ slash :: name) = components dir ++ [name] := by
      rw [components_append, components_name hSome hName]
    exact makeDir_cases hComponents (makeDirs_of_walk hName hWalk hMade)
  unfold runtimePath at h ⊢
  cases hAbsolute : x.absolute with
  | some dir =>
    rw [hAbsolute] at h
    obtain ⟨i, inode, hWalk, -⟩ := hProvided dir hAbsolute
    exact @hReached dir (ascii "epimone") i (by decide) (by decide) hWalk h
  | none =>
    rw [hAbsolute] at h
    have hSome : x.fallback ≠ [] := List.append_ne_nil_of_left_ne_nil (by decide) _
    have hLong : ∀ word : Bytes, word.length < 8 → x.fallback ≠ word := by
      rintro word hShort rfl
      rw [fallback, List.length_append] at hShort
      have hFront : (ascii "epimone-").length = 8 := by decide
      omega
    cases hWalk : fs.walk x.steps 0 (components tmp) with
    | some i => exact hReached (slash_not_mem_fallback x) hSome hWalk h
    | none =>
      exact Or.inl (makeDirs_of_no_tmp (slash_not_mem_fallback x) hSome (hLong dot (by decide))
        (hLong dotDot (by decide)) hWalk h)

/-- The directory that is used is private if and only if it was so before or nothing was there. -/
theorem runtime_dir_private_iff {buflen : Nat} {path : Bytes} (hProvided : x.Provided fs)
    (h : x.epiRuntimeDir fs buflen = some (path, fs')) :
    x.Private fs' path ↔ fs.lstat x.steps (components path) = none ∨ x.Private fs path := by
  obtain ⟨hPath, hMade⟩ := epiRuntimeDir_eq_some h
  rw [hPath]
  have hCases : fs.lstat x.steps (components x.runtimePath) = none ∧ x.Private fs' x.runtimePath ∨
      fs.lstat x.steps (components x.runtimePath) ≠ none ∧ fs' = fs := made_cases hProvided hMade
  rcases hCases with ⟨hAbsent, hPrivate⟩ | ⟨hFound, rfl⟩
  · exact ⟨fun _ => Or.inl hAbsent, fun _ => hPrivate⟩
  · exact (or_iff_right hFound).symm

/-! A user without XDG_RUNTIME_DIR, and a /tmp in which somebody else has been first. -/

def root : Inode Bytes := ⟨0, 0o755, .dir [(dot, 0), (dotDot, 0), (ascii "tmp", 1)]⟩

def freshTmp : Files Bytes := ⟨[root, ⟨0, 0o1777, .dir [(dot, 1), (dotDot, 0)]⟩]⟩

def squattedTmp : Files Bytes :=
  ⟨[root, ⟨0, 0o1777, .dir [(dot, 1), (dotDot, 0), (ascii "epimone-1000", 2)]⟩,
    ⟨1001, 0o777, .dir [(dot, 2), (dotDot, 1)]⟩]⟩

def unprovided : Caller := ⟨1000, none, 0o022, 40, fun _ => false⟩

theorem provided_unprovided (fs : Files Bytes) : unprovided.Provided fs := by
  rintro dir ⟨⟩

theorem runtime_dir_private_freshTmp :
    ∃ fs, unprovided.epiRuntimeDir freshTmp 512 = some (ascii "/tmp/epimone-1000", fs) ∧
      unprovided.Private fs (ascii "/tmp/epimone-1000") := by
  have hRun : (unprovided.epiRuntimeDir freshTmp 512).any fun made => made.1 = ascii "/tmp/epimone-1000" := by
    decide +kernel
  cases hMade : unprovided.epiRuntimeDir freshTmp 512 with
  | none =>
    rw [hMade] at hRun
    cases hRun
  | some made =>
    obtain ⟨path, fs⟩ := made
    rw [hMade] at hRun
    cases of_decide_eq_true hRun
    have hAbsent : freshTmp.lstat unprovided.steps (components (ascii "/tmp/epimone-1000")) = none := by decide +kernel
    exact ⟨fs, rfl, (runtime_dir_private_iff (provided_unprovided freshTmp) hMade).mpr (Or.inl hAbsent)⟩

/-- The directory of the other user is taken for the own one. -/
theorem squattedTmp_taken :
    unprovided.Provided squattedTmp ∧
    unprovided.epiRuntimeDir squattedTmp 512 = some (ascii "/tmp/epimone-1000", squattedTmp) ∧
    ¬ unprovided.Private squattedTmp (ascii "/tmp/epimone-1000") := by
  have hFound : squattedTmp.lstat unprovided.steps (components (ascii "/tmp/epimone-1000")) = some 2 := by
    decide +kernel
  refine ⟨provided_unprovided squattedTmp, by decide +kernel, ?_⟩
  rintro ⟨i, inode, hLstat, hInode, hOwner, -⟩
  cases hFound.symm.trans hLstat
  cases hInode
  cases hOwner

end Caller

end Epimone.Daemon
