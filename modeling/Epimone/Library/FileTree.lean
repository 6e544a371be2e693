import Mathlib.Data.List.Basic

/-! # Trees of files

Directories, symbolic links and everything else, by their inode numbers; the
root has number 0. A path is walked component by component through the links in
it, and a directory is made at a path whose last component is not there yet.
-/
set_option autoImplicit false

namespace Epimone.FileTree

universe u

inductive Node (Name : Type u) where
  | dir (entries : List (Name × Nat))
  | link (absolute : Bool) (target : List Name)
  | other
  deriving DecidableEq, Repr

structure Inode (Name : Type u) where
  owner : Nat
  mode : Nat
  node : Node Name
  deriving DecidableEq, Repr

structure Files (Name : Type u) where
  inodes : List (Inode Name)
  deriving DecidableEq, Repr

/-- How mkdir fails: with EEXIST, or otherwise. -/
inductive Errno where
  | exist
  | other
  deriving DecidableEq, Repr

namespace Files

variable {Name : Type u} [DecidableEq Name] (fs : Files Name)

def node (i : Nat) : Option (Node Name) := fs.inodes[i]?.map Inode.node

def entry (i : Nat) (name : Name) : Option Nat :=
  match fs.node i with
  | some (.dir entries) => entries.lookup name
  | _ => none

def target (i : Nat) : Option (Bool × List Name) :=
  match fs.node i with
  | some (.link absolute target) => some (absolute, target)
  | _ => none

/-- The inode that a path leads to. The walk is given up after so many steps. -/
def walk : Nat → Nat → List Name → Option Nat
  | _, i, [] => some i
  | 0, _, _ :: _ => none
  | steps + 1, i, name :: rest =>
    match fs.entry i name with
    | none => none
    | some j =>
      match fs.target j with
      | some (absolute, target) => walk steps (if absolute then 0 else i) (target ++ rest)
      | none => walk steps j rest

/-- A link in the last place is not followed. -/
def lstat (steps : Nat) (path : List Name) : Option Nat :=
  match path.getLast? with
  | none => some 0
  | some name => (fs.walk steps 0 path.dropLast).bind fun i => fs.entry i name

def Node.add (name : Name) (i : Nat) : Node Name → Node Name
  | .dir entries => .dir (entries ++ [(name, i)])
  | node => node

/-- The inode gets the next number and an entry in the directory. -/
def add (i : Nat) (name : Name) (inode : Inode Name) : Files Name :=
  ⟨fs.inodes.modify i (fun d => { d with node := Node.add name fs.inodes.length d.node }) ++ [inode]⟩

/-- What a new directory has in it: itself and the one above, by their names. -/
def mkdir (self parent : Name) (steps owner mode : Nat) (path : List Name) : Except Errno (Files Name) :=
  match path.getLast? with
  | none => .error .exist
  | some name =>
    match fs.walk steps 0 path.dropLast with
    | none => .error .other
    | some i =>
      match fs.node i with
      | some (.dir entries) =>
        if (entries.lookup name).isSome then .error .exist
        else .ok (fs.add i name ⟨owner, mode, .dir [(self, fs.inodes.length), (parent, i)]⟩)
      | _ => .error .other

variable {fs} {steps i j : Nat} {name : Name}

theorem walk_append {before after : List Name} (h : fs.walk steps i (before ++ after) = some j) :
    ∃ k steps', fs.walk steps i before = some k ∧ fs.walk steps' k after = some j := by
  induction steps generalizing i before with
  | zero =>
    cases before with
    | nil => exact ⟨i, 0, rfl, h⟩
    | cons name before => cases h
  | succ steps ih =>
    cases before with
    | nil => exact ⟨i, steps + 1, rfl, h⟩
    | cons name before =>
      rw [List.cons_append, walk] at h
      rw [walk]
      cases hEntry : fs.entry i name with
      | none =>
        rw [hEntry] at h
        cases h
      | some k =>
        rw [hEntry] at h
        dsimp only at h ⊢
        cases hTarget : fs.target k with
        | none =>
          rw [hTarget] at h
          exact ih h
        | some link =>
          obtain ⟨absolute, target⟩ := link
          rw [hTarget] at h
          dsimp only at h
          rw [← List.append_assoc] at h
          exact ih h

theorem lstat_snoc (path : List Name) (name : Name) :
    fs.lstat steps (path ++ [name]) = (fs.walk steps 0 path).bind fun i => fs.entry i name := by
  rw [lstat, List.getLast?_concat, List.dropLast_concat]

variable {self parent : Name} {owner mode : Nat}

theorem mkdir_snoc (path : List Name) (name : Name) :
    fs.mkdir self parent steps owner mode (path ++ [name]) =
      match fs.walk steps 0 path with
      | none => .error .other
      | some i =>
        match fs.node i with
        | some (.dir entries) =>
          if (entries.lookup name).isSome then .error .exist
          else .ok (fs.add i name ⟨owner, mode, .dir [(self, fs.inodes.length), (parent, i)]⟩)
        | _ => .error .other := by
  rw [mkdir, List.getLast?_concat, List.dropLast_concat]

theorem lstat_of_mkdir_exist {path : List Name}
    (h : fs.mkdir self parent steps owner mode (path ++ [name]) = .error .exist) :
    (fs.lstat steps (path ++ [name])).isSome := by
  rw [mkdir_snoc] at h
  rw [lstat_snoc]
  cases hWalk : fs.walk steps 0 path with
  | none =>
    rw [hWalk] at h
    cases h
  | some i =>
    rw [hWalk] at h
    dsimp only at h
    rw [Option.bind_some, entry]
    split at h
    · next entries hNode =>
      by_contra hNone
      rw [if_neg hNone] at h
      cases h
    · cases h

theorem mkdir_of_walk {path rest : List Name} (h : fs.walk steps 0 (path ++ rest) = some j) (fs' : Files Name) :
    fs.mkdir self parent steps owner mode path ≠ .ok fs' := by
  rintro hMade
  rcases path.eq_nil_or_concat with rfl | ⟨front, name, rfl⟩
  · cases hMade
  rw [List.concat_eq_append, List.append_assoc] at h
  obtain ⟨k, steps', hFront, hRest⟩ := walk_append h
  rw [List.concat_eq_append, mkdir_snoc, hFront] at hMade
  dsimp only at hMade
  split at hMade
  · next entries hNode =>
    cases steps' with
    | zero => cases hRest
    | succ steps' =>
      rw [List.singleton_append, walk, entry, hNode] at hRest
      dsimp only at hRest
      cases hLookup : entries.lookup name with
      | none =>
        rw [hLookup] at hRest
        cases hRest
      | some m =>
        rw [hLookup, if_pos Option.isSome_some] at hMade
        cases hMade
  · cases hMade

/-! A new entry changes nothing of what could be reached before. -/

section Adding

variable {inode : Inode Name}

omit [DecidableEq Name] in
theorem node_add (i j : Nat) (name : Name) (inode : Inode Name) :
    (fs.add i name inode).node j =
      if j = fs.inodes.length then some inode.node
      else if j = i then (fs.node j).map (Node.add name fs.inodes.length) else fs.node j := by
  unfold add node
  rcases Nat.lt_trichotomy j fs.inodes.length with hIn | rfl | hOut
  · rw [if_neg (Nat.ne_of_lt hIn), List.getElem?_append_left (by rwa [List.length_modify]), List.getElem?_modify]
    split
    · next hSame =>
      rw [if_pos hSame.symm]
      cases fs.inodes[j]? <;> rfl
    · next hOther =>
      rw [if_neg (Ne.symm hOther)]
      cases fs.inodes[j]? <;> rfl
  · rw [if_pos rfl, List.getElem?_append_right (Nat.le_of_eq (by rw [List.length_modify])),
      List.length_modify, Nat.sub_self]
    rfl
  · have hNone : fs.inodes[j]? = none := List.getElem?_eq_none (Nat.le_of_lt hOut)
    have hAll : (fs.inodes.modify i (fun d =>
        { d with node := Node.add name fs.inodes.length d.node }) ++ [inode])[j]? = none := by
      apply List.getElem?_eq_none
      rw [List.length_append, List.length_modify, List.length_singleton]
      exact hOut
    rw [hAll, hNone, if_neg (Nat.ne_of_gt hOut)]
    split <;> rfl

omit [DecidableEq Name] in
theorem target_add {entries : List (Name × Nat)} (hDir : inode.node = .dir entries) (i j : Nat) (name : Name) :
    (fs.add i name inode).target j = fs.target j := by
  unfold target
  rw [node_add]
  rcases eq_or_ne j fs.inodes.length with rfl | hOld
  · have hNone : fs.node fs.inodes.length = none := by
      rw [node, List.getElem?_eq_none (Nat.le_refl _)]
      rfl
    rw [if_pos rfl, hNone, hDir]
  rw [if_neg hOld]
  rcases eq_or_ne j i with rfl | hOther
  · rw [if_pos rfl]
    cases fs.node j with
    | none => rfl
    | some node => cases node <;> rfl
  · rw [if_neg hOther]

theorem entry_add {k m : Nat} {name' : Name} (h : fs.entry k name' = some m) (i : Nat) (name : Name) :
    (fs.add i name inode).entry k name' = some m := by
  unfold entry at h ⊢
  rw [node_add]
  cases hNode : fs.node k with
  | none =>
    rw [hNode] at h
    cases h
  | some node =>
    rw [hNode] at h
    have hOld : k ≠ fs.inodes.length := by
      rintro rfl
      rw [Files.node, List.getElem?_eq_none (Nat.le_refl _)] at hNode
      cases hNode
    rw [if_neg hOld]
    cases node with
    | dir entries =>
      change entries.lookup name' = some m at h
      rcases eq_or_ne k i with rfl | hOther
      · rw [if_pos rfl]
        change (entries ++ [(name, fs.inodes.length)]).lookup name' = some m
        rw [List.lookup_append, h]
        rfl
      · rw [if_neg hOther]
        exact h
    | link absolute target => cases h
    | other => cases h

theorem walk_add {entries : List (Name × Nat)} (hDir : inode.node = .dir entries) {path : List Name} {k : Nat}
    (h : fs.walk steps k path = some j) (i : Nat) (name : Name) : (fs.add i name inode).walk steps k path = some j := by
  induction steps generalizing k path with
  | zero =>
    cases path with
    | nil => exact h
    | cons first rest => cases h
  | succ steps ih =>
    cases path with
    | nil => exact h
    | cons first rest =>
      rw [walk] at h ⊢
      cases hEntry : fs.entry k first with
      | none =>
        rw [hEntry] at h
        cases h
      | some m =>
        rw [hEntry] at h
        rw [entry_add hEntry]
        dsimp only at h ⊢
        rw [target_add hDir]
        cases hTarget : fs.target m with
        | none =>
          rw [hTarget] at h
          exact ih h
        | some link =>
          rw [hTarget] at h
          exact ih h

end Adding

theorem mkdir_eq_ok {path : List Name} {fs' : Files Name}
    (h : fs.mkdir self parent steps owner mode (path ++ [name]) = .ok fs') :
    ∃ i, fs.walk steps 0 path = some i ∧ fs.entry i name = none ∧
      fs' = fs.add i name ⟨owner, mode, .dir [(self, fs.inodes.length), (parent, i)]⟩ ∧
      fs'.lstat steps (path ++ [name]) = some fs.inodes.length ∧
      fs'.inodes[fs.inodes.length]? = some ⟨owner, mode, .dir [(self, fs.inodes.length), (parent, i)]⟩ := by
  rw [mkdir_snoc] at h
  cases hWalk : fs.walk steps 0 path with
  | none =>
    rw [hWalk] at h
    cases h
  | some i =>
    rw [hWalk] at h
    dsimp only at h
    split at h
    · next entries hNode =>
      split at h
      · cases h
      next hNew =>
      cases h
      have hEntry : fs.entry i name = none := by
        rw [entry, hNode]
        exact Option.not_isSome_iff_eq_none.mp hNew
      have hIn : i < fs.inodes.length := by
        by_contra hOut
        rw [node, List.getElem?_eq_none (Nat.le_of_not_lt hOut)] at hNode
        cases hNode
      refine ⟨i, rfl, hEntry, rfl, ?_, ?_⟩
      · rw [lstat_snoc, walk_add rfl hWalk i name, Option.bind_some, entry, node_add, if_neg (Nat.ne_of_lt hIn),
          if_pos rfl, hNode]
        change (entries ++ [(name, fs.inodes.length)]).lookup name = _
        rw [List.lookup_append, Option.not_isSome_iff_eq_none.mp hNew, List.lookup_cons_self]
        rfl
      · rw [add, List.getElem?_append_right (Nat.le_of_eq (by rw [List.length_modify])), List.length_modify,
          Nat.sub_self]
        rfl
    · cases h

theorem lstat_new {top : Name} {made : Files Name} (hSelf : name ≠ self) (hParent : name ≠ parent)
    (h : fs.mkdir self parent steps owner mode [top] = .ok made) : made.lstat steps [top, name] = none := by
  obtain ⟨i, -, -, -, hTop, hInode⟩ := mkdir_eq_ok (List.nil_append [top] ▸ h)
  have hNode : made.node fs.inodes.length = some (.dir [(self, fs.inodes.length), (parent, i)]) := by
    rw [node, hInode]
    rfl
  have hEntry : made.entry 0 top = some fs.inodes.length := by
    rwa [lstat_snoc, walk, Option.bind_some] at hTop
  have hTarget : made.target fs.inodes.length = none := by
    rw [target, hNode]
  change (made.walk steps 0 [top]).bind (fun j => made.entry j name) = none
  cases steps with
  | zero => rfl
  | succ steps =>
    rw [walk, hEntry]
    dsimp only
    rw [hTarget]
    dsimp only
    rw [walk, Option.bind_some, entry, hNode]
    dsimp only
    rw [List.lookup_cons, List.lookup_cons, beq_eq_false_iff_ne.mpr hSelf, beq_eq_false_iff_ne.mpr hParent]
    rfl

end Files

end Epimone.FileTree
