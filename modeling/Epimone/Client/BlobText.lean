import Epimone.Client.SavedTrees
import Mathlib.Tactic.DeriveEncodable
import Mathlib.Data.Rat.Encodable
import Mathlib.Logic.Equiv.List

/-! # The text of a blob

A blob is the text of a variant in one of three versions, each with a type of
its own. The tab is written in the last of them; a rename of a group that no
page shows reads any version and writes the last.
-/
set_option autoImplicit false

namespace Epimone.Client

open Daemon

/-- "(utsv)". -/
structure PayloadV1 where
  version : UInt32
  focused : UInt64
  title : CString
  tree : NodeVariant
  deriving DecidableEq

/-- "(utsvqq)". -/
structure PayloadV2 extends PayloadV1 where
  cols : UInt16
  rows : UInt16
  deriving DecidableEq

/-- "(utsvqqs)". -/
structure PayloadV3 extends PayloadV2 where
  custom : CString
  deriving DecidableEq

inductive Payload where
  | v1 (top : PayloadV1)
  | v2 (top : PayloadV2)
  | v3 (top : PayloadV3)
  deriving DecidableEq

def blobVersion : UInt32 := 3

/-- g_variant_print with annotations, and g_variant_parse for each of the types. -/
structure VariantText where
  print : Payload → Bytes
  parseV1 : Bytes → Option PayloadV1
  parseV2 : Bytes → Option PayloadV2
  parseV3 : Bytes → Option PayloadV3

/-- The out parameters of blob_parse. -/
structure BlobOuts where
  focused : UInt64
  title : Option CString
  custom : Option CString
  tree : Option NodeVariant
  cols : Nat
  rows : Nat
  deriving DecidableEq

namespace BlobOuts

def unset : BlobOuts := ⟨0, none, none, none, 0, 0⟩

/-- After g_variant_get has filled in the fields of every version. -/
def got (top : PayloadV1) : BlobOuts := ⟨top.focused, some top.title, none, some top.tree, 0, 0⟩

end BlobOuts

/-- No name is spelled in one way. -/
def orNone (name : CString) : Option CString := if name.chars = [] then none else some name

namespace Payload

def asV1 : Payload → Option PayloadV1
  | v1 top => some top
  | v2 _ | v3 _ => none

def asV2 : Payload → Option PayloadV2
  | v2 top => some top
  | v1 _ | v3 _ => none

def asV3 : Payload → Option PayloadV3
  | v3 top => some top
  | v1 _ | v2 _ => none

def outs : Payload → BlobOuts
  | v1 top => .got top
  | v2 top => { BlobOuts.got top.toPayloadV1 with cols := top.cols.toNat, rows := top.rows.toNat }
  | v3 top => { BlobOuts.got top.toPayloadV1 with
      cols := top.cols.toNat, rows := top.rows.toNat, custom := orNone top.custom }

/-- The version number is the one of the type. -/
def Numbered : Payload → Prop
  | v1 top => top.version = 1
  | v2 top => top.version = 2
  | v3 top => top.version = 3

theorem tree_outs (x : Payload) : ∃ tree, x.outs.tree = some tree := by
  cases x <;> exact ⟨_, rfl⟩

end Payload

/-- A text is parsed to what it was printed from, and for no other type; there is always some text. -/
structure VariantText.Lawful (g : VariantText) : Prop where
  parseV1_print : ∀ x, g.parseV1 (g.print x) = x.asV1
  parseV2_print : ∀ x, g.parseV2 (g.print x) = x.asV2
  parseV3_print : ∀ x, g.parseV3 (g.print x) = x.asV3
  print_ne_nil : ∀ x, g.print x ≠ []

section Parse

variable (g : VariantText)

/-- The variant, if the blob is one of a known version, and the out parameters. -/
def blobParse (blob : Bytes) : Option Payload × BlobOuts :=
  if blob = [] then (none, .unset)
  else
    match g.parseV3 blob with
    | some top =>
      let outs := BlobOuts.got top.toPayloadV1
      if top.version ≠ 3 then (none, { outs with tree := none })
      else (some (.v3 top), { outs with cols := top.cols.toNat, rows := top.rows.toNat, custom := orNone top.custom })
    | none =>
      match g.parseV2 blob with
      | some top =>
        let outs := BlobOuts.got top.toPayloadV1
        if top.version ≠ 2 then (none, { outs with tree := none })
        else (some (.v2 top), { outs with cols := top.cols.toNat, rows := top.rows.toNat })
      | none =>
        match g.parseV1 blob with
        | some top =>
          let outs := BlobOuts.got top
          if top.version ≠ 1 then (none, { outs with tree := none }) else (some (.v1 top), outs)
        | none => (none, .unset)

/-- The variant of a page with this tree, focused session, shell title, name and grid. -/
def pagePayload (root : Widget) (focused : UInt64) (shellTitle customTitle : Option CString) (cols rows : Nat) :
    PayloadV3 where
  version := blobVersion
  focused := focused
  title := shellTitle.getD .empty
  tree := nodeToVariant root
  cols := .ofNat cols
  rows := .ofNat rows
  custom := customTitle.getD .empty

def pageBlobText (root : Widget) (focused : UInt64) (shellTitle customTitle : Option CString) (cols rows : Nat) :
    Option Bytes :=
  if root = .null then none
  else some (g.print (.v3 (pagePayload root focused shellTitle customTitle cols rows)))

/-- The tree that restore_group takes from a blob. -/
def blobTree (blob : Bytes) : Option Node :=
  match blobParse g blob with
  | (none, _) => none
  | (some _, outs) => outs.tree.map NodeVariant.node

end Parse

/-- What a rename meets: the checks that fail, each with its error, and what becomes of GROUP_SET. -/
structure RenameAnswers where
  instanceError : Option String
  groupsError : Option String
  set : Delivery

/-- What a rename comes to: an error, a new name for the page of the group, or a GROUP_SET with this text. -/
inductive Renaming where
  | failed (message : String)
  | retitled (name : Option CString)
  | sent (text : Bytes)
  deriving DecidableEq

section Rename

variable (g : VariantText)

def rewritten (outs : BlobOuts) (tree : NodeVariant) (name : Option CString) : PayloadV3 where
  version := blobVersion
  focused := outs.focused
  title := outs.title.getD .empty
  tree := tree
  cols := .ofNat outs.cols
  rows := .ofNat outs.rows
  custom := name.getD .empty

def Desk.renaming (d : Desk) (x : RenameAnswers) (gid : UInt64) (name : Option CString) : Renaming :=
  let name := name.bind orNone
  if gid = 0 then .failed "group id 0 is not a group"
  else
    match x.instanceError, x.groupsError with
    | some message, _ => .failed message
    | none, some message => .failed message
    | none, none =>
      match findGroup d.srv gid.toNat with
      | none => .failed s!"no group {gid}"
      | some found =>
        if d.findPageForMembers found.id then .retitled name
        else
          let (top, outs) := blobParse g found.blob
          match top, outs.tree with
          | some _, some tree => .sent (g.print (.v3 (rewritten outs tree name)))
          | _, _ => .failed s!"group {gid} layout does not parse; cannot rename it"

def Desk.renameGroup (d : Desk) (x : RenameAnswers) (gid : UInt64) (name : Option CString) : Desk :=
  match d.renaming g x gid name with
  | .sent text => { d with srv := (x.set.carry d.srv (groupSet d.srv gid text)).1 }
  | _ => d

end Rename

section Parsed

variable {g : VariantText}

theorem blobParse_some {blob : Bytes} {top : Payload} {outs : BlobOuts} (h : blobParse g blob = (some top, outs)) :
    outs = top.outs := by
  unfold blobParse at h
  split at h
  · cases h
  split at h
  · dsimp only at h
    split at h <;> cases h
    rfl
  split at h
  · dsimp only at h
    split at h <;> cases h
    rfl
  split at h
  · dsimp only at h
    split at h <;> cases h
    rfl
  · cases h

theorem blobParse_none {blob : Bytes} {outs : BlobOuts} (h : blobParse g blob = (none, outs)) : outs.tree = none := by
  unfold blobParse at h
  split at h
  · cases h
    rfl
  split at h
  · dsimp only at h
    split at h <;> cases h
    rfl
  split at h
  · dsimp only at h
    split at h <;> cases h
    rfl
  split at h
  · dsimp only at h
    split at h <;> cases h
    rfl
  · cases h
    rfl

/-- The version number of the text disagrees with the type that it parses as. -/
inductive Mismatched (g : VariantText) (blob : Bytes) : Prop where
  | v3 {top : PayloadV3} (hType : g.parseV3 blob = some top) (hVersion : top.version ≠ 3)
  | v2 {top : PayloadV2} (hOther : g.parseV3 blob = none) (hType : g.parseV2 blob = some top)
    (hVersion : top.version ≠ 2)
  | v1 {top : PayloadV1} (hOthers : g.parseV3 blob = none ∧ g.parseV2 blob = none) (hType : g.parseV1 blob = some top)
    (hVersion : top.version ≠ 1)

theorem blobParse_mismatched {blob : Bytes} (h : Mismatched g blob) : (blobParse g blob).1 = none := by
  unfold blobParse
  split
  · rfl
  cases h with
  | v3 hType hVersion =>
    rw [hType]
    dsimp only
    rw [if_pos hVersion]
  | v2 hOther hType hVersion =>
    rw [hOther, hType]
    dsimp only
    rw [if_pos hVersion]
  | v1 hOthers hType hVersion =>
    rw [hOthers.1, hOthers.2, hType]
    dsimp only
    rw [if_pos hVersion]

variable (h : g.Lawful)

include h

theorem blobParse_print {x : Payload} (hNumbered : x.Numbered) : blobParse g (g.print x) = (some x, x.outs) := by
  unfold blobParse
  rw [if_neg (h.print_ne_nil x), h.parseV3_print, h.parseV2_print, h.parseV1_print]
  cases x with
  | v1 top => exact if_neg (not_not.mpr hNumbered)
  | v2 top => exact if_neg (not_not.mpr hNumbered)
  | v3 top => exact if_neg (not_not.mpr hNumbered)

theorem mismatched_print {x : Payload} (hNumbered : ¬ x.Numbered) : Mismatched g (g.print x) := by
  cases x with
  | v1 top => exact .v1 ⟨h.parseV3_print _, h.parseV2_print _⟩ (h.parseV1_print _) hNumbered
  | v2 top => exact .v2 (h.parseV3_print _) (h.parseV2_print _) hNumbered
  | v3 top => exact .v3 (h.parseV3_print _) hNumbered

theorem pageBlobText_parses {root : Widget} (hRoot : root ≠ .null) (focused : UInt64)
    (shellTitle customTitle : Option CString) {cols rows : Nat} (hCols : cols < 2 ^ 16) (hRows : rows < 2 ^ 16) :
    ∃ text, pageBlobText g root focused shellTitle customTitle cols rows = some text ∧
      blobParse g text = (some (.v3 (pagePayload root focused shellTitle customTitle cols rows)),
        ⟨focused, some (shellTitle.getD .empty), customTitle.bind orNone, some (nodeToVariant root), cols, rows⟩) := by
  have hNumbered : (Payload.v3 (pagePayload root focused shellTitle customTitle cols rows)).Numbered := rfl
  have hCustom : orNone (customTitle.getD .empty) = customTitle.bind orNone := by cases customTitle <;> rfl
  refine ⟨_, if_neg hRoot, (blobParse_print h hNumbered).trans ?_⟩
  rw [Payload.outs, BlobOuts.got, pagePayload, hCustom, UInt16.toNat_ofNat_of_lt' hCols,
    UInt16.toNat_ofNat_of_lt' hRows]

/-- A rewritten text is read as before, but for the name. -/
theorem rewritten_parses {blob : Bytes} {top : Payload} {outs : BlobOuts} {tree : NodeVariant}
    (hParsed : blobParse g blob = (some top, outs)) (hTree : outs.tree = some tree) (name : Option CString) :
    blobParse g (g.print (.v3 (rewritten outs tree (name.bind orNone)))) =
      (some (.v3 (rewritten outs tree (name.bind orNone))), { outs with custom := name.bind orNone }) := by
  have hNumbered : (Payload.v3 (rewritten outs tree (name.bind orNone))).Numbered := rfl
  rw [blobParse_print h hNumbered]
  have hName : orNone ((name.bind orNone).getD .empty) = name.bind orNone := by
    cases name with
    | none => rfl
    | some name =>
      change orNone ((orNone name).getD .empty) = orNone name
      unfold orNone
      split
      · rfl
      · rename_i hSome
        exact if_neg hSome
  have hFields : outs.cols < 2 ^ 16 ∧ outs.rows < 2 ^ 16 ∧ outs.title = some (outs.title.getD .empty) := by
    rw [blobParse_some hParsed]
    cases top with
    | v1 top => exact ⟨Nat.two_pow_pos 16, Nat.two_pow_pos 16, rfl⟩
    | v2 top => exact ⟨top.cols.toNat_lt, top.rows.toNat_lt, rfl⟩
    | v3 top => exact ⟨top.cols.toNat_lt, top.rows.toNat_lt, rfl⟩
  obtain ⟨hCols, hRows, hTitle⟩ := hFields
  rw [Payload.outs, BlobOuts.got, rewritten, hName, UInt16.toNat_ofNat_of_lt' hCols, UInt16.toNat_ofNat_of_lt' hRows,
    ← hTitle, ← hTree]

end Parsed

section Renames

variable {g : VariantText} {d : Desk} {x : RenameAnswers} {gid : UInt64} {name : Option CString}

/-- A group that a rename can reach: the checks pass, and no page shows a member of it. -/
structure Detached (d : Desk) (x : RenameAnswers) (gid : UInt64) (found : Group) : Prop where
  gid_ne : gid ≠ 0
  instance_ok : x.instanceError = none
  groups_ok : x.groupsError = none
  present : findGroup d.srv gid.toNat = some found
  unshown : d.findPageForMembers found.id = false

/-- A rename writes a text where the group is detached and its blob is read, and only there. -/
theorem renaming_sent {text : Bytes} : d.renaming g x gid name = .sent text ↔
    ∃ found top outs tree, Detached d x gid found ∧ blobParse g found.blob = (some top, outs) ∧ outs.tree = some tree ∧
      text = g.print (.v3 (rewritten outs tree (name.bind orNone))) := by
  unfold Desk.renaming
  constructor
  · intro hSent
    dsimp only at hSent
    split at hSent
    · cases hSent
    rename_i hGid
    split at hSent
    · cases hSent
    · cases hSent
    rename_i hInstance hGroups
    split at hSent
    · cases hSent
    rename_i found hFound
    split at hSent
    · cases hSent
    rename_i hShown
    split at hSent
    · rename_i top tree hTop hTree
      cases hSent
      exact ⟨found, top, (blobParse g found.blob).2, tree,
        ⟨hGid, hInstance, hGroups, hFound, Bool.eq_false_iff.mpr hShown⟩, Prod.ext hTop rfl, hTree, rfl⟩
    · cases hSent
  · rintro ⟨found, top, outs, tree, hDetached, hParsed, hTree, rfl⟩
    dsimp only
    rw [if_neg hDetached.gid_ne, hDetached.instance_ok, hDetached.groups_ok, hDetached.present]
    dsimp only
    rw [hDetached.unshown, if_neg (by decide), hParsed, hTree]

theorem findGroup_setGroupBlob {srv : Server} {id : Nat} {found : Group} (hFound : findGroup srv id = some found)
    (gid : Nat) (blob : Bytes) : findGroup (setGroupBlob srv gid blob) id =
      some (if id = gid then { found with blob := blob } else found) := by
  have hSome : (found.id == id) = true := List.find?_some (p := fun grp : Group => grp.id == id) hFound
  have hId : found.id = id := beq_iff_eq.mp hSome
  have hPass : ((fun grp : Group => grp.id == id) ∘
      fun grp => if grp.id = gid then { grp with blob := blob } else grp) = fun grp => grp.id == id := by
    funext grp
    dsimp only [Function.comp]
    split <;> rfl
  unfold findGroup at hFound ⊢
  rw [setGroupBlob]
  dsimp only
  rw [List.find?_map, hPass, hFound, Option.map_some, hId]

/-- One rename after another. -/
structure Rename where
  gid : UInt64
  name : Option CString
  ans : RenameAnswers

def Rename.takenBy (r : Rename) (g : VariantText) (d : Desk) : Bool :=
  match d.renaming g r.ans r.gid r.name with
  | .sent _ => r.ans.set ≠ .refused
  | _ => false

def Rename.perform (g : VariantText) (d : Desk) (r : Rename) : Desk := d.renameGroup g r.ans r.gid r.name

def Desk.renames (g : VariantText) (d : Desk) (rs : List Rename) : Desk := rs.foldl (Rename.perform g) d

def lastName (g : VariantText) (gid : UInt64) : Desk → Option CString → List Rename → Option CString
  | _, custom, [] => custom
  | d, custom, r :: rs =>
    lastName g gid (r.perform g d) (if r.gid = gid ∧ r.takenBy g d then r.name.bind orNone else custom) rs

theorem perform_cases (g : VariantText) (d : Desk) (r : Rename) :
    (r.takenBy g d = false ∧ r.perform g d = d) ∨ ∃ text, r.takenBy g d = true ∧
      d.renaming g r.ans r.gid r.name = .sent text ∧
      r.perform g d = { d with srv := setGroupBlob d.srv r.gid.toNat text } := by
  unfold Rename.perform Rename.takenBy Desk.renameGroup
  cases hRenaming : d.renaming g r.ans r.gid r.name with
  | failed message => exact Or.inl ⟨rfl, rfl⟩
  | retitled name => exact Or.inl ⟨rfl, rfl⟩
  | sent text =>
    obtain ⟨found, _, _, _, hDetached, _⟩ := renaming_sent.mp hRenaming
    have hGranted : groupSet d.srv r.gid text = some (setGroupBlob d.srv r.gid.toNat text) := by
      rw [groupSet, hDetached.present]
      rfl
    dsimp only
    rw [hGranted]
    cases r.ans.set with
    | refused => exact Or.inl ⟨rfl, rfl⟩
    | lost => exact Or.inr ⟨text, rfl, rfl, rfl⟩
    | replied => exact Or.inr ⟨text, rfl, rfl, rfl⟩

/-- Of several renames the last one taken wins, and no other field changes. -/
theorem renames_last_wins (h : g.Lawful) (rs : List Rename) {found : Group} {top : Payload} {outs : BlobOuts}
    (hFound : findGroup d.srv gid.toNat = some found) (hParsed : blobParse g found.blob = (some top, outs)) :
    ∃ blob top', findGroup (d.renames g rs).srv gid.toNat = some { found with blob := blob } ∧
      blobParse g blob = (some top', { outs with custom := lastName g gid d outs.custom rs }) := by
  induction rs generalizing d found top outs with
  | nil => exact ⟨found.blob, top, hFound, hParsed⟩
  | cons r rs ih =>
    rw [Desk.renames, List.foldl_cons, lastName]
    rcases perform_cases g d r with ⟨hRefused, hSame⟩ | ⟨text, hTaken, hSent, hSet⟩
    · rw [hSame, hRefused, if_neg (fun hBoth => Bool.false_ne_true hBoth.2)]
      exact ih hFound hParsed
    rw [hSet, hTaken]
    have hNext := findGroup_setGroupBlob hFound r.gid.toNat text
    by_cases hGid : r.gid = gid
    · obtain ⟨found', _, outs', tree, hDetached, hParsed', hTree, rfl⟩ := renaming_sent.mp hSent
      rw [hGid] at hNext
      have hThis : found' = found := Option.some.inj (hDetached.present.symm.trans (hGid ▸ hFound))
      rw [hThis, hParsed] at hParsed'
      cases hParsed'
      rw [if_pos rfl] at hNext
      rw [if_pos ⟨hGid, rfl⟩, hGid]
      exact @ih _ { found with blob := g.print (.v3 (rewritten outs tree (r.name.bind orNone))) } _ _ hNext
        (rewritten_parses h hParsed hTree r.name)
    · rw [if_neg fun hSame => hGid (UInt64.toNat_inj.mp hSame.symm)] at hNext
      rw [if_neg fun hBoth => hGid hBoth.1]
      exact ih hNext hParsed

theorem renames_frame (g : VariantText) (d : Desk) (rs : List Rename) :
    ∃ blob : Group → Bytes, d.renames g rs =
        { d with srv := { d.srv with groups := d.srv.groups.map fun grp => { grp with blob := blob grp } } } ∧
      ∀ grp, (∀ r ∈ rs, r.gid.toNat ≠ grp.id) → blob grp = grp.blob := by
  induction rs generalizing d with
  | nil => exact ⟨Group.blob, by simp [Desk.renames], fun _ _ => rfl⟩
  | cons r rs ih =>
    rw [Desk.renames, List.foldl_cons]
    rcases perform_cases g d r with ⟨_, hSame⟩ | ⟨text, _, _, hSet⟩
    · obtain ⟨blob, hRest, hOther⟩ := ih d
      rw [hSame]
      exact ⟨blob, hRest, fun grp hIds => hOther grp fun r' hr' => hIds r' (List.mem_cons_of_mem r hr')⟩
    · obtain ⟨blob, hRest, hOther⟩ := ih { d with srv := setGroupBlob d.srv r.gid.toNat text }
      rw [hSet]
      refine ⟨fun grp => blob (if grp.id = r.gid.toNat then { grp with blob := text } else grp), ?_, ?_⟩
      · rw [Desk.renames] at hRest
        rw [hRest]
        simp only [setGroupBlob, List.map_map]
        congr 3
        funext grp
        dsimp only [Function.comp]
        split <;> rfl
      · intro grp hIds
        dsimp only
        rw [if_neg fun hSame => hIds r List.mem_cons_self hSame.symm]
        exact hOther grp fun r' hr' => hIds r' (List.mem_cons_of_mem r hr')

theorem mismatched_inert {found : Group} (hFound : findGroup d.srv gid.toNat = some found)
    (hBlob : Mismatched g found.blob) (window : Nat) (y : RestoreAnswers) :
    d.restoreGroup y (blobTree g) window gid = d ∧ ∀ text, d.renaming g x gid name ≠ .sent text := by
  have hNone := blobParse_mismatched hBlob
  constructor
  · have hTree : blobTree g found.blob = none := by
      unfold blobTree
      split
      · rfl
      · rename_i hSome
        rw [hSome] at hNone
        cases hNone
    have hLayout : d.storedLayout y (blobTree g) gid = none := by
      unfold Desk.storedLayout
      split
      · rfl
      rw [hFound]
      dsimp only
      split
      · rfl
      · rw [hTree]
    rw [Desk.restoreGroup, hLayout]
  · intro text hSent
    obtain ⟨found', top, outs, tree, hDetached, hParsed, _⟩ := renaming_sent.mp hSent
    have hThis : found' = found := Option.some.inj (hDetached.present.symm.trans hFound)
    rw [hThis] at hParsed
    rw [hParsed] at hNone
    cases hNone

end Renames

/-- The texts of all versions are read as they were written, and a rename changes the name in them and nothing else. -/
theorem blob_versions_interoperate {g : VariantText} (h : g.Lawful) :
    (∀ root focused shellTitle customTitle cols rows, root ≠ .null → cols < 2 ^ 16 → rows < 2 ^ 16 →
      ∃ text, pageBlobText g root focused shellTitle customTitle cols rows = some text ∧
        blobParse g text = (some (.v3 (pagePayload root focused shellTitle customTitle cols rows)),
          ⟨focused, some (shellTitle.getD .empty), customTitle.bind orNone, some (nodeToVariant root), cols, rows⟩)) ∧
    (∀ x : Payload, x.Numbered → blobParse g (g.print x) = (some x, x.outs)) ∧
    (∀ d x gid name found top outs, Detached d x gid found → blobParse g found.blob = (some top, outs) →
      ∃ text top', d.renaming g x gid name = .sent text ∧
        blobParse g text = (some top', { outs with custom := name.bind orNone })) ∧
    (∀ (d : Desk) gid rs found top outs, findGroup d.srv (UInt64.toNat gid) = some found →
      blobParse g found.blob = (some top, outs) →
      ∃ blob top', findGroup (d.renames g rs).srv (UInt64.toNat gid) = some { found with blob := blob } ∧
        blobParse g blob = (some top', { outs with custom := lastName g gid d outs.custom rs })) ∧
    (∀ (d : Desk) rs, ∃ blob : Group → Bytes, d.renames g rs =
        { d with srv := { d.srv with groups := d.srv.groups.map fun grp => { grp with blob := blob grp } } } ∧
      ∀ grp, (∀ r ∈ rs, r.gid.toNat ≠ grp.id) → blob grp = grp.blob) ∧
    (∀ blob, Mismatched g blob → (blobParse g blob).1 = none ∧ (blobParse g blob).2.tree = none ∧
      ∀ (d : Desk) x gid name found window y, findGroup d.srv (UInt64.toNat gid) = some found → found.blob = blob →
        d.restoreGroup y (blobTree g) window gid = d ∧ ∀ text, d.renaming g x gid name ≠ .sent text) ∧
    ∀ x : Payload, ¬ x.Numbered → Mismatched g (g.print x) := by
  refine ⟨?_, fun x => blobParse_print h, ?_, ?_, renames_frame g, ?_, fun x => mismatched_print h⟩
  · intro root focused shellTitle customTitle cols rows hRoot hCols hRows
    exact pageBlobText_parses h hRoot focused shellTitle customTitle hCols hRows
  · intro d x gid name found top outs hDetached hParsed
    obtain ⟨tree, hTree⟩ := top.tree_outs
    rw [← blobParse_some hParsed] at hTree
    exact ⟨_, _, renaming_sent.mpr ⟨found, top, outs, tree, hDetached, hParsed, hTree, rfl⟩,
      rewritten_parses h hParsed hTree name⟩
  · intro d gid rs found top outs hFound hParsed
    exact renames_last_wins h rs hFound hParsed
  · intro blob hBlob
    refine ⟨blobParse_mismatched hBlob, blobParse_none (Prod.ext (blobParse_mismatched hBlob) rfl), ?_⟩
    rintro d x gid name found window y hFound rfl
    exact mismatched_inert hFound hBlob window y

/-! A printer that writes a few blobs as GLib does, and everything else as a number. -/

section Sample

instance encodableUInt8 : Encodable UInt8 := .ofLeftInverse UInt8.toNat UInt8.ofNat fun _ => UInt8.ofNat_toNat

instance encodableUInt16 : Encodable UInt16 := .ofLeftInverse UInt16.toNat UInt16.ofNat fun _ => UInt16.ofNat_toNat

instance encodableUInt32 : Encodable UInt32 := .ofLeftInverse UInt32.toNat UInt32.ofNat fun _ => UInt32.ofNat_toNat

instance encodableUInt64 : Encodable UInt64 := .ofLeftInverse UInt64.toNat UInt64.ofNat fun _ => UInt64.ofNat_toNat

instance encodableChar : Encodable Char := .ofLeftInverse Char.toNat Char.ofNat Char.ofNat_toNat

instance encodableCString : Encodable CString :=
  .ofLeftInjection CString.chars (fun chars => if h : Char.ofNat 0 ∉ chars then some ⟨chars, h⟩ else none)
    fun s => dif_pos s.terminated

deriving instance Encodable for Double

deriving instance Encodable for NodeVariant

deriving instance Encodable for PayloadV1

deriving instance Encodable for PayloadV2

deriving instance Encodable for PayloadV3

deriving instance Encodable for Payload

def samplePayload : PayloadV3 := pagePayload (.leaf 7) 7 (some ⟨['s', 'h'], by decide⟩) none 80 24

def sampleLine : Bytes := ascii "(uint32 3, uint64 7, 'sh', <('leaf', uint64 7)>, uint16 80, uint16 24, '')"

/-- A tab of two panes, side by side, with a name. -/
def pairPage : Widget := .paned .horizontal 800 600 400 none (.leaf 7) (.leaf 9)

def shellName : CString := ⟨['s', 'h'], by decide⟩

def workName : CString := ⟨['w', 'o', 'r', 'k'], by decide⟩

def draftName : CString := ⟨['d', 'r', 'a', 'f', 't'], by decide⟩

/-- The same tab as version 2 wrote it, which knows no names. -/
def agedPayload : PayloadV2 := { pagePayload pairPage 9 (some shellName) none 80 24 with version := 2 }

def pairNode : String :=
  "uint64 9, 'sh', <('split', 'h', 0.5, <('leaf', uint64 7)>, <('leaf', uint64 9)>)>, uint16 80, uint16 24"

def samples : List (Payload × Bytes) :=
  [(.v3 samplePayload, sampleLine), (.v2 agedPayload, ascii ("(uint32 2, " ++ pairNode ++ ")")),
    (.v3 (pagePayload pairPage 9 (some shellName) (some draftName) 80 24),
      ascii ("(uint32 3, " ++ pairNode ++ ", 'draft')")),
    (.v3 (pagePayload pairPage 9 (some shellName) (some workName) 80 24),
      ascii ("(uint32 3, " ++ pairNode ++ ", 'work')"))]

def sampleRead (text : Bytes) : Option Payload :=
  match samples.find? fun sample => sample.2 = text with
  | some sample => some sample.1
  | none => Encodable.decode (text.length - 1)

def samplePrint (x : Payload) : Bytes :=
  match samples.find? fun sample => sample.1 = x with
  | some sample => sample.2
  | none => .replicate (Encodable.encode x + 1) 48

def sampleText : VariantText where
  print := samplePrint
  parseV1 text := (sampleRead text).bind Payload.asV1
  parseV2 text := (sampleRead text).bind Payload.asV2
  parseV3 text := (sampleRead text).bind Payload.asV3

theorem sampleRead_sample : ∀ sample ∈ samples, sampleRead sample.2 = some sample.1 := by decide +kernel

theorem sampleRead_print (x : Payload) : sampleRead (samplePrint x) = some x := by
  unfold samplePrint
  cases hSample : samples.find? fun sample => sample.1 = x with
  | some sample =>
    have hRead := sampleRead_sample sample (List.mem_of_find?_eq_some hSample)
    have hThis : sample.1 = x :=
      of_decide_eq_true (List.find?_some (p := fun s : Payload × Bytes => decide (s.1 = x)) hSample)
    exact hRead.trans (congrArg some hThis)
  | none =>
    have hHeads : ∀ sample ∈ samples, sample.2.head? ≠ some 48 := by decide +kernel
    have hOther : (samples.find? fun sample => sample.2 = List.replicate (Encodable.encode x + 1) 48) = none := by
      rw [List.find?_eq_none]
      intro sample hSample hSame
      apply hHeads sample hSample
      rw [of_decide_eq_true hSame, List.replicate_succ, List.head?_cons]
    dsimp only
    rw [sampleRead, hOther]
    dsimp only
    rw [List.length_replicate, Nat.add_sub_cancel, Encodable.encodek]

theorem sampleText_lawful : sampleText.Lawful where
  parseV1_print x := congrArg (Option.bind · Payload.asV1) (sampleRead_print x)
  parseV2_print x := congrArg (Option.bind · Payload.asV2) (sampleRead_print x)
  parseV3_print x := congrArg (Option.bind · Payload.asV3) (sampleRead_print x)
  print_ne_nil x := by
    change samplePrint x ≠ []
    intro hNone
    unfold samplePrint at hNone
    split at hNone
    · rename_i sample hSample
      have hFull : ∀ sample ∈ samples, sample.2 ≠ [] := by decide +kernel
      exact hFull sample (List.mem_of_find?_eq_some hSample) hNone
    · cases hNone

/-- No page shows the group whose blob is of version 2. -/
def agedDesk : Desk :=
  ⟨[], { Server.initial 7 with groups := [⟨1, samplePrint (.v2 agedPayload), 100⟩], nextGroupId := 2 }, 0⟩

/-- Two renames, of which the first gets no answer. -/
def newNames : List Rename :=
  [⟨1, some draftName, ⟨none, none, .lost⟩⟩, ⟨1, some workName, ⟨none, none, .replied⟩⟩]

theorem blob_versions_interoperate_sample :
    (∃ text, pageBlobText sampleText pairPage 9 (some shellName) (some workName) 80 24 = some text ∧
      (blobParse sampleText text).2 =
        ⟨9, some shellName, some workName, some (nodeToVariant pairPage), 80, 24⟩) ∧
    ∃ blob, findGroup (agedDesk.renames sampleText newNames).srv 1 = some ⟨1, blob, 100⟩ ∧
      (blobParse sampleText blob).2 = ⟨9, some shellName, some workName, some (nodeToVariant pairPage), 80, 24⟩ := by
  obtain ⟨hWritten, hVersions, _, hRenames, _⟩ := blob_versions_interoperate sampleText_lawful
  obtain ⟨text, hText, hParsed⟩ := hWritten pairPage 9 (some shellName) (some workName) 80 24 (by decide) (by decide)
    (by decide)
  have hAged : blobParse sampleText (samplePrint (.v2 agedPayload)) = (some (.v2 agedPayload), _) :=
    hVersions (.v2 agedPayload) rfl
  obtain ⟨blob, top, hBlob, hRenamed⟩ := hRenames agedDesk 1 newNames _ _ _ rfl hAged
  have hLast : lastName sampleText 1 agedDesk none newNames = some workName := by decide +kernel
  refine ⟨⟨text, hText, congrArg Prod.snd hParsed⟩, blob, hBlob, (congrArg Prod.snd hRenamed).trans ?_⟩
  exact congrArg (fun custom => (⟨9, some shellName, custom, some (nodeToVariant pairPage), 80, 24⟩ : BlobOuts)) hLast

end Sample

end Epimone.Client
