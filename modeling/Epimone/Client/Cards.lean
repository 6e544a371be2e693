import Epimone.Client.Geometry
import Epimone.Client.Overview
import Mathlib.Data.List.Pairwise

/-! # The cards of the overview

A group that this window shows, or that nobody shows, gets a card with the live
members that its blob has a place for. A live session on no card gets one of
its own; the sessions of a group that another window shows count as shown.
-/
set_option autoImplicit false

namespace Epimone.Client

open Tiling SplitTree

/-- What a card is of and what it shows; `killSession` is 0 unless the card is of a single session. -/
structure CardInfo where
  groupId : Nat
  cacheKey : Nat
  killSession : Nat
  leaves : List EpimoneLayoutLeaf
  seams : List EpimoneLayoutSeam
  deriving DecidableEq

def orphanCacheBit : Nat := 2 ^ 63

def EpimoneLayoutLeaf.key (pane : EpimoneLayoutLeaf) : Nat := lowWord pane.session.toNat

section Build

variable (guint : GuintCast) (g : VariantText)

/-- The keys of the live members; NULL stands for all sessions. -/
def groupAlive (info : EpiGroupInfo) (aliveBySid : Option (List Nat)) : List Nat :=
  (info.members.filter fun m => aliveBySid.all fun alive => alive.contains (lowWord m)).map lowWord

/-- The session that a card without leaves falls back to, or 0. -/
def fallbackSession (info : EpiGroupInfo) (focused : UInt64) (keys : List Nat) : UInt64 :=
  if focused ≠ 0 ∧ keys.contains (lowWord focused.toNat) then focused
  else ((info.members.find? fun m => keys.contains (lowWord m)).map UInt64.ofNat).getD 0

/-- The leaves of the blob that are live members, or one live member alone. -/
def reconcile (info : EpiGroupInfo) (focused : UInt64) (cols rows : Nat) (keys : List Nat)
    (leaves : List EpimoneLayoutLeaf) : List EpimoneLayoutLeaf :=
  let left := leaves.filter fun pane => keys.contains pane.key
  let sid := fallbackSession info focused keys
  if left = [] then if sid ≠ 0 then [⟨unitSquare, sid, cols, rows⟩] else [] else left

/-- A leaf without a grid gets the measured one, or the usual one. -/
def settleGrid (cols rows : Nat) (pane : EpimoneLayoutLeaf) : EpimoneLayoutLeaf :=
  if pane.cols = 0 ∨ pane.rows = 0 then
    { pane with cols := if 0 < cols then cols else 80, rows := if 0 < rows then rows else 24 }
  else pane

def buildCard (info : EpiGroupInfo) (focused : UInt64) (cols rows : Nat) (aliveBySid : Option (List Nat))
    (orphanSession : Nat) : CardInfo :=
  let picture := (blobGeometry guint g info.blob).getD ([], [])
  let keys := groupAlive info aliveBySid
  { groupId := info.id
    cacheKey := if orphanSession ≠ 0 then orphanCacheBit ||| orphanSession else info.id
    killSession := orphanSession
    leaves := (reconcile info focused cols rows keys picture.1).map (settleGrid cols rows)
    seams := picture.2 }

end Build

/-- What the kill control of a card asks to kill. -/
inductive KillTarget where
  | session (sid : Nat)
  | group (gid : Nat)
  deriving DecidableEq

def cardKill (card : CardInfo) : KillTarget :=
  if card.killSession ≠ 0 then .session card.killSession else .group card.groupId

def groupIdOfSession (groups : List EpiGroupInfo) (sid : Nat) : Nat :=
  ((groups.find? fun info => info.members.contains sid).map EpiGroupInfo.id).getD 0

/-- The attached flag of a key; what was put in last is found. -/
def attachedBySid (sessions : List EpiSessionInfo) (key : Nat) : Bool :=
  (sessions.reverse.find? fun si => lowWord si.id = key).any EpiSessionInfo.attached

def groupIsAttached (sessions : List EpiSessionInfo) (info : EpiGroupInfo) : Bool :=
  info.members.any fun m => attachedBySid sessions (lowWord m)

/-- What a reload works from: both replies, and the window with its tabs' group ids and the grids of its pages. -/
structure ReloadInput where
  groups : List EpiGroupInfo
  sessions : List EpiSessionInfo
  tabGroups : List UInt64
  pageGrid : UInt64 → Option (Nat × Nat)

/-- The cards in the grid, those that wait for their place behind them, and the keys that some card shows. -/
structure Sweep where
  flow : List CardInfo
  pending : List CardInfo
  shown : List Nat

section Reload

variable (guint : GuintCast) (g : VariantText) (x : ReloadInput)

namespace ReloadInput

def alive : List Nat := (x.sessions.filter EpiSessionInfo.alive).map fun si => lowWord si.id

def mine (info : EpiGroupInfo) : Bool := (x.tabGroups.map fun gid => lowWord gid.toNat).contains (lowWord info.id)

def groupCard (info : EpiGroupInfo) : CardInfo :=
  let outs := (blobParse g info.blob).2
  let measured := if groupIsAttached x.sessions info ∧ outs.focused ≠ 0 then x.pageGrid outs.focused else none
  let (cols, rows) := measured.getD (outs.cols, outs.rows)
  buildCard guint g info outs.focused cols rows (some x.alive) 0

def orphanCard (si : EpiSessionInfo) : CardInfo :=
  buildCard guint g ⟨groupIdOfSession x.groups si.id, si.createdAt, [], [si.id]⟩ (.ofNat si.id) 0 0 (some x.alive) si.id

def sweepGroup (s : Sweep) (info : EpiGroupInfo) : Sweep :=
  let attached := groupIsAttached x.sessions info
  if !x.mine info && attached then { s with shown := s.shown ++ info.members.map lowWord }
  else
    let card := x.groupCard guint g info
    let shown := s.shown ++ card.leaves.map EpimoneLayoutLeaf.key
    if x.mine info then { s with flow := s.flow ++ [card], shown := shown }
    else { s with pending := s.pending ++ [card], shown := shown }

def sweepSession (s : Sweep) (si : EpiSessionInfo) : Sweep :=
  if !si.alive || s.shown.contains (lowWord si.id) then s
  else { s with pending := s.pending ++ [x.orphanCard guint g si], shown := s.shown ++ [lowWord si.id] }

end ReloadInput

/-- The cards that overview_reload leaves in the grid, in their order. -/
def overviewReload : List CardInfo :=
  let s := x.groups.foldl (x.sweepGroup guint g) ⟨[], [], []⟩
  let s := x.sessions.foldl (x.sweepSession guint g) s
  s.flow ++ s.pending

end Reload

section Swept

variable {guint : GuintCast} {g : VariantText} {x : ReloadInput}

def ReloadInput.elsewhere (x : ReloadInput) (info : EpiGroupInfo) : Bool :=
  !x.mine info && groupIsAttached x.sessions info

def ReloadInput.shownKeys (guint : GuintCast) (g : VariantText) (x : ReloadInput) (info : EpiGroupInfo) : List Nat :=
  if x.elsewhere info then info.members.map lowWord else (x.groupCard guint g info).leaves.map EpimoneLayoutLeaf.key

theorem sweep_groups (groups : List EpiGroupInfo) (s : Sweep) :
    groups.foldl (x.sweepGroup guint g) s =
      ⟨s.flow ++ (groups.filter x.mine).map (x.groupCard guint g),
        s.pending ++ (groups.filter fun info => !x.mine info && !groupIsAttached x.sessions info).map
          (x.groupCard guint g),
        s.shown ++ groups.flatMap (x.shownKeys guint g)⟩ := by
  induction groups generalizing s with
  | nil => simp
  | cons info groups ih =>
    rw [List.foldl_cons, ih]
    unfold ReloadInput.sweepGroup ReloadInput.shownKeys ReloadInput.elsewhere
    cases hMine : x.mine info <;> cases hAttached : groupIsAttached x.sessions info <;>
      simp [hMine, hAttached]

theorem sweep_sessions (sessions : List EpiSessionInfo) (s : Sweep)
    (hDistinct : (sessions.map fun si => lowWord si.id).Nodup) :
    (sessions.foldl (x.sweepSession guint g) s).flow = s.flow ∧
      (sessions.foldl (x.sweepSession guint g) s).pending = s.pending ++
        (sessions.filter fun si => si.alive && !s.shown.contains (lowWord si.id)).map (x.orphanCard guint g) := by
  induction sessions generalizing s with
  | nil => simp
  | cons si sessions ih =>
    obtain ⟨hFresh, hRest⟩ := List.nodup_cons.mp hDistinct
    rw [List.foldl_cons]
    obtain ⟨hFlow, hPending⟩ := ih (x.sweepSession guint g s si) hRest
    rw [hFlow, hPending]
    unfold ReloadInput.sweepSession
    cases hSkip : !si.alive || s.shown.contains (lowWord si.id) with
    | true =>
      have hOut : (si.alive && !s.shown.contains (lowWord si.id)) = false := by
        simpa [Bool.and_eq_false_imp, or_iff_not_imp_left] using hSkip
      rw [List.filter_cons, hOut]
      exact ⟨rfl, rfl⟩
    | false =>
      have hIn : (si.alive && !s.shown.contains (lowWord si.id)) = true := by
        simpa using hSkip
      have hSame : (sessions.filter fun other =>
            other.alive && !(s.shown ++ [lowWord si.id]).contains (lowWord other.id)) =
          sessions.filter fun other => other.alive && !s.shown.contains (lowWord other.id) := by
        apply List.filter_congr
        intro other hOther
        have hNe : lowWord other.id ≠ lowWord si.id := by
          intro hKey
          exact hFresh (List.mem_map.mpr ⟨other, hOther, hKey⟩)
        simp [hNe]
      rw [List.filter_cons, hIn, if_neg (by decide), if_pos rfl, List.map_cons]
      dsimp only
      rw [hSame, List.append_assoc]
      exact ⟨rfl, rfl⟩

end Swept

section Leaves

variable {guint : GuintCast} {g : VariantText}

theorem key_settleGrid (cols rows : Nat) (pane : EpimoneLayoutLeaf) :
    (settleGrid cols rows pane).session = pane.session := by
  unfold settleGrid
  split <;> rfl

theorem key_mem_of_reconcile {info : EpiGroupInfo} {focused : UInt64} {cols rows : Nat} {keys : List Nat}
    {leaves : List EpimoneLayoutLeaf} {pane : EpimoneLayoutLeaf}
    (h : pane ∈ reconcile info focused cols rows keys leaves) :
    pane.key ∈ keys ∧ (pane ∈ leaves ∨ pane.session = focused ∨ ∃ m ∈ info.members, pane.session = .ofNat m) := by
  unfold reconcile at h
  dsimp only at h
  split at h
  · split at h
    · rename_i hSid
      rw [List.mem_singleton.mp h]
      unfold fallbackSession at hSid ⊢
      split
      · rename_i hFocused
        exact ⟨List.contains_iff_mem.mp hFocused.2, Or.inr (Or.inl rfl)⟩
      · rename_i hOther
        rw [if_neg hOther] at hSid
        cases hFind : info.members.find? fun m => keys.contains (lowWord m) with
        | none =>
          rw [hFind] at hSid
          exact absurd rfl hSid
        | some m =>
          have hKey := List.find?_some hFind
          have hWord : lowWord (UInt64.ofNat m).toNat = lowWord m := lowWord_ofNat m
          refine ⟨?_, Or.inr (Or.inr ⟨m, List.mem_of_find?_eq_some hFind, rfl⟩)⟩
          change lowWord (UInt64.ofNat m).toNat ∈ keys
          rw [hWord]
          exact List.contains_iff_mem.mp hKey
    · exact absurd h List.not_mem_nil
  · obtain ⟨hPane, hKey⟩ := List.mem_filter.mp h
    exact ⟨List.contains_iff_mem.mp hKey, Or.inl hPane⟩

theorem reconcile_nil (info : EpiGroupInfo) (focused : UInt64) (cols rows : Nat) (keys : List Nat) :
    reconcile info focused cols rows keys [] =
      if fallbackSession info focused keys ≠ 0 then
        [⟨unitSquare, fallbackSession info focused keys, cols, rows⟩]
      else [] := by
  simp [reconcile]

theorem blobGeometry_nil : blobGeometry guint g [] = none := rfl

theorem session_mem_of_blobGeometry {blob : Bytes} {picture : Emission} (h : blobGeometry guint g blob = some picture)
    {pane : EpimoneLayoutLeaf} (hPane : pane ∈ picture.1) :
    ∃ tree, (blobParse g blob).2.tree = some tree ∧ pane.session ∈ tree.leafIds := by
  unfold blobGeometry at h
  dsimp only at h
  split at h
  · rename_i top tree _ hTree
    refine ⟨tree, hTree, ?_⟩
    have hWalked : ∀ other ∈ (walkNodeGeometry tree unitSquare ([], [])).1.1, other.session ∈ tree.leafIds := by
      intro other hOther
      rw [walkNodeGeometry_eq] at hOther
      cases hLeft : tree.arrangement with
      | none =>
        rw [hLeft] at hOther
        exact absurd hOther List.not_mem_nil
      | some left =>
        rw [hLeft] at hOther
        have hOrder := (pictured_pictureOf hLeft).order
        have hIn : other.session ∈ (pictureOf left unitSquare).1.map EpimoneLayoutLeaf.session :=
          List.mem_map_of_mem hOther
        rw [hOrder] at hIn
        exact (List.mem_filter.mp hIn).1
    split at h
    · cases h
      obtain ⟨other, hOther, rfl⟩ := List.mem_map.mp hPane
      exact hWalked other hOther
    · cases h
      exact hWalked pane hPane
  · cases h

theorem mem_groupAlive {info : EpiGroupInfo} {alive : List Nat} {key : Nat} :
    key ∈ groupAlive info (some alive) ↔ ∃ m ∈ info.members, lowWord m ∈ alive ∧ lowWord m = key := by
  simp [groupAlive, and_assoc]

end Leaves

/-- Two replies of a daemon, whose ids are all below 2 ^ 32. -/
structure ReloadInput.Consistent (g : VariantText) (x : ReloadInput) : Prop where
  sessions_nodup : (x.sessions.map EpiSessionInfo.id).Nodup
  session_ids : ∀ si ∈ x.sessions, si.id ≠ 0 ∧ si.id < 2 ^ 32
  member_ids : ∀ info ∈ x.groups, ∀ m ∈ info.members, m < 2 ^ 32
  disjoint : x.groups.Pairwise fun info other => info.members.Disjoint other.members
  blob_ids : ∀ info ∈ x.groups, (blobParse g info.blob).2.focused.toNat < 2 ^ 32 ∧
    ∀ tree, (blobParse g info.blob).2.tree = some tree → ∀ id ∈ tree.leafIds, id.toNat < 2 ^ 32

def ReloadInput.Live (x : ReloadInput) (sid : Nat) : Prop := ∃ si ∈ x.sessions, si.id = sid ∧ si.alive = true

def ReloadInput.Attached (x : ReloadInput) (info : EpiGroupInfo) : Prop :=
  ∃ m ∈ info.members, ∃ si ∈ x.sessions, si.id = m ∧ si.attached = true

def ReloadInput.Tabbed (x : ReloadInput) (info : EpiGroupInfo) : Prop := ∃ gid ∈ x.tabGroups, gid.toNat = info.id

def CardInfo.renders (sid : Nat) (card : CardInfo) : Bool := card.leaves.any fun pane => pane.session.toNat == sid

section Coverage

variable {guint : GuintCast} {g : VariantText} {x : ReloadInput} (h : x.Consistent g)

theorem renders_iff {sid : Nat} {card : CardInfo} :
    card.renders sid = true ↔ ∃ pane ∈ card.leaves, pane.session.toNat = sid := by
  rw [CardInfo.renders, List.any_eq_true]
  simp

theorem lowWord_of_lt {n : Nat} (h : n < 2 ^ 32) : lowWord n = n := Nat.mod_eq_of_lt h

include h

theorem mem_alive {sid : Nat} (hSid : sid < 2 ^ 32) : lowWord sid ∈ x.alive ↔ x.Live sid := by
  rw [lowWord_of_lt hSid]
  constructor
  · intro hAlive
    obtain ⟨si, hsi, hKey⟩ := List.mem_map.mp hAlive
    obtain ⟨hListed, hLive⟩ := List.mem_filter.mp hsi
    exact ⟨si, hListed, (lowWord_of_lt (h.session_ids si hListed).2).symm.trans hKey, hLive⟩
  · rintro ⟨si, hListed, rfl, hLive⟩
    exact List.mem_map.mpr ⟨si, List.mem_filter.mpr ⟨hListed, hLive⟩, lowWord_of_lt hSid⟩

theorem keys_nodup : (x.sessions.map fun si => lowWord si.id).Nodup := by
  have hKeys : (x.sessions.map fun si => lowWord si.id) = x.sessions.map EpiSessionInfo.id :=
    List.map_congr_left fun si hsi => lowWord_of_lt (h.session_ids si hsi).2
  rw [hKeys]
  exact h.sessions_nodup

theorem attached_of_groupIsAttached {info : EpiGroupInfo} (hInfo : info ∈ x.groups)
    (hAttached : groupIsAttached x.sessions info = true) : x.Attached info := by
  obtain ⟨m, hm, hKey⟩ := List.any_eq_true.mp hAttached
  unfold attachedBySid at hKey
  cases hFind : x.sessions.reverse.find? fun si => decide (lowWord si.id = lowWord m) with
  | none =>
    rw [hFind] at hKey
    cases hKey
  | some si =>
    rw [hFind] at hKey
    have hListed := List.mem_reverse.mp (List.mem_of_find?_eq_some hFind)
    have hSame := List.find?_some hFind
    rw [decide_eq_true_iff, lowWord_of_lt (h.session_ids si hListed).2, lowWord_of_lt (h.member_ids info hInfo m hm)]
      at hSame
    exact ⟨m, hm, si, hListed, hSame, hKey⟩

theorem member_of_groupCard {info : EpiGroupInfo} (hInfo : info ∈ x.groups) {pane : EpimoneLayoutLeaf}
    (hPane : pane ∈ (x.groupCard guint g info).leaves) :
    pane.session.toNat < 2 ^ 32 ∧ pane.session.toNat ∈ info.members ∧ x.Live pane.session.toNat := by
  obtain ⟨pane', hOld, rfl⟩ := List.mem_map.mp hPane
  obtain ⟨hKey, hFrom⟩ := key_mem_of_reconcile hOld
  obtain ⟨m, hm, hAlive, hSame⟩ := mem_groupAlive.mp hKey
  have hLess := h.member_ids info hInfo m hm
  have hBelow : pane'.session.toNat < 2 ^ 32 := by
    rcases hFrom with hBlob | hFocused | ⟨m', hm', hMember⟩
    · cases hPicture : blobGeometry guint g info.blob with
      | none =>
        rw [hPicture] at hBlob
        exact absurd hBlob List.not_mem_nil
      | some picture =>
        rw [hPicture] at hBlob
        obtain ⟨tree, hTree, hLeaf⟩ := session_mem_of_blobGeometry hPicture hBlob
        exact (h.blob_ids info hInfo).2 tree hTree _ hLeaf
    · rw [hFocused]
      exact (h.blob_ids info hInfo).1
    · rw [hMember, UInt64.toNat_ofNat']
      exact (Nat.mod_le _ _).trans_lt (h.member_ids info hInfo m' hm')
  have hSid : m = pane'.session.toNat := by
    rw [← lowWord_of_lt hLess, hSame]
    exact lowWord_of_lt hBelow
  rw [key_settleGrid, ← hSid]
  exact ⟨hLess, hm, (mem_alive h hLess).mp hAlive⟩

variable (guint) in
theorem leaves_orphanCard {si : EpiSessionInfo} (hListed : si ∈ x.sessions) (hLive : si.alive = true) :
    (x.orphanCard guint g si).leaves.map EpimoneLayoutLeaf.session = [UInt64.ofNat si.id] := by
  obtain ⟨hPos, hLess⟩ := h.session_ids si hListed
  have hWord : (UInt64.ofNat si.id).toNat = si.id := by
    rw [UInt64.toNat_ofNat']
    exact Nat.mod_eq_of_lt (hLess.trans (by decide))
  have hNe : UInt64.ofNat si.id ≠ 0 := by
    intro hZero
    rw [hZero] at hWord
    exact hPos hWord.symm
  have hAlive : lowWord si.id ∈ x.alive := (mem_alive h hLess).mpr ⟨si, hListed, rfl, hLive⟩
  have hKey : (groupAlive ⟨groupIdOfSession x.groups si.id, si.createdAt, [], [si.id]⟩ (some x.alive)).contains
      (lowWord (UInt64.ofNat si.id).toNat) = true := by
    rw [List.contains_iff_mem, hWord, mem_groupAlive]
    exact ⟨si.id, List.mem_cons_self, hAlive, rfl⟩
  have hFallback : fallbackSession ⟨groupIdOfSession x.groups si.id, si.createdAt, [], [si.id]⟩ (.ofNat si.id)
      (groupAlive ⟨groupIdOfSession x.groups si.id, si.createdAt, [], [si.id]⟩ (some x.alive)) = .ofNat si.id :=
    if_pos ⟨hNe, hKey⟩
  rw [ReloadInput.orphanCard, buildCard]
  dsimp only
  rw [blobGeometry_nil, Option.getD_none, reconcile_nil, hFallback, if_pos hNe]
  exact congrArg (fun sid => [sid]) (key_settleGrid _ _ _)

theorem session_ofNat {si : EpiSessionInfo} (hListed : si ∈ x.sessions) : (UInt64.ofNat si.id).toNat = si.id := by
  rw [UInt64.toNat_ofNat']
  exact Nat.mod_eq_of_lt ((h.session_ids si hListed).2.trans (by decide))

/-- The reload's cards: of the groups with a tab, of those that nobody shows, and of the sessions left over. -/
theorem overviewReload_eq :
    overviewReload guint g x =
      (x.groups.filter x.mine).map (x.groupCard guint g) ++
        ((x.groups.filter fun info => !x.mine info && !groupIsAttached x.sessions info).map (x.groupCard guint g) ++
          (x.sessions.filter fun si =>
            si.alive && !(x.groups.flatMap (x.shownKeys guint g)).contains (lowWord si.id)).map
            (x.orphanCard guint g)) := by
  unfold overviewReload
  dsimp only
  obtain ⟨hFlow, hPending⟩ := sweep_sessions x.sessions
    (x.groups.foldl (x.sweepGroup guint g) ⟨[], [], []⟩) (keys_nodup h)
  rw [hFlow, hPending, sweep_groups]
  rfl

theorem groupCard_mem {info : EpiGroupInfo} (hInfo : info ∈ x.groups) (hHere : x.elsewhere info = false) :
    x.groupCard guint g info ∈ overviewReload guint g x := by
  rw [overviewReload_eq h]
  cases hMine : x.mine info with
  | true => exact List.mem_append_left _ (List.mem_map_of_mem (List.mem_filter.mpr ⟨hInfo, hMine⟩))
  | false =>
    have hFree : groupIsAttached x.sessions info = false := by
      simpa [ReloadInput.elsewhere, hMine] using hHere
    refine List.mem_append_right _ (List.mem_append_left _ (List.mem_map_of_mem (List.mem_filter.mpr ⟨hInfo, ?_⟩)))
    simp [hMine, hFree]

/-- Where a card comes from. -/
theorem card_cases {card : CardInfo} (hCard : card ∈ overviewReload guint g x) :
    (∃ info ∈ x.groups, x.elsewhere info = false ∧ card = x.groupCard guint g info) ∨
      ∃ si ∈ x.sessions, si.alive = true ∧ lowWord si.id ∉ x.groups.flatMap (x.shownKeys guint g) ∧
        card = x.orphanCard guint g si := by
  rw [overviewReload_eq h] at hCard
  rcases List.mem_append.mp hCard with hFlow | hPending
  · obtain ⟨info, hInfo, rfl⟩ := List.mem_map.mp hFlow
    obtain ⟨hIn, hMine⟩ := List.mem_filter.mp hInfo
    exact Or.inl ⟨info, hIn, by simp [ReloadInput.elsewhere, hMine], rfl⟩
  · rcases List.mem_append.mp hPending with hGroup | hOrphan
    · obtain ⟨info, hInfo, rfl⟩ := List.mem_map.mp hGroup
      obtain ⟨hIn, hFree⟩ := List.mem_filter.mp hInfo
      rw [Bool.and_eq_true, Bool.not_eq_true', Bool.not_eq_true'] at hFree
      exact Or.inl ⟨info, hIn, by simp [ReloadInput.elsewhere, hFree.2], rfl⟩
    · obtain ⟨si, hsi, rfl⟩ := List.mem_map.mp hOrphan
      obtain ⟨hIn, hLeft⟩ := List.mem_filter.mp hsi
      rw [Bool.and_eq_true, Bool.not_eq_true', ← Bool.not_eq_true, List.contains_iff_mem] at hLeft
      exact Or.inr ⟨si, hIn, hLeft.1, hLeft.2, rfl⟩

theorem key_mem_of_groupCard {info : EpiGroupInfo} (hInfo : info ∈ x.groups) (hHere : x.elsewhere info = false)
    {sid : Nat} (hRenders : (x.groupCard guint g info).renders sid = true) :
    lowWord sid ∈ x.groups.flatMap (x.shownKeys guint g) ∧ sid ∈ info.members := by
  obtain ⟨pane, hPane, rfl⟩ := renders_iff.mp hRenders
  refine ⟨List.mem_flatMap.mpr ⟨info, hInfo, ?_⟩, (member_of_groupCard h hInfo hPane).2.1⟩
  rw [ReloadInput.shownKeys, hHere]
  exact List.mem_map_of_mem (f := EpimoneLayoutLeaf.key) hPane

theorem renders_orphanCard {si : EpiSessionInfo} (hListed : si ∈ x.sessions) (hLive : si.alive = true) {sid : Nat} :
    (x.orphanCard guint g si).renders sid = true ↔ si.id = sid := by
  have hLeaves := leaves_orphanCard guint h hListed hLive
  rw [renders_iff]
  constructor
  · rintro ⟨pane, hPane, rfl⟩
    have hSame : pane.session ∈ [UInt64.ofNat si.id] := hLeaves ▸ List.mem_map_of_mem hPane
    rw [List.mem_singleton.mp hSame]
    exact (session_ofNat h hListed).symm
  · rintro rfl
    have hOnly : UInt64.ofNat si.id ∈ (x.orphanCard guint g si).leaves.map EpimoneLayoutLeaf.session := by
      rw [hLeaves]
      exact List.mem_singleton_self _
    obtain ⟨pane, hPane, hSame⟩ := List.mem_map.mp hOnly
    exact ⟨pane, hPane, hSame ▸ session_ofNat h hListed⟩

theorem members_disjoint {info other : EpiGroupInfo} (hInfo : info ∈ x.groups) (hOther : other ∈ x.groups)
    (hNe : info ≠ other) : info.members.Disjoint other.members := by
  have hSymm : Std.Symm fun info other : EpiGroupInfo => info.members.Disjoint other.members :=
    ⟨fun _ _ hDisjoint => hDisjoint.symm⟩
  exact h.disjoint.forall hInfo hOther hNe

variable (guint) in
theorem cards_exclusive (sid : Nat) :
    (overviewReload guint g x).Pairwise fun card other => ¬(card.renders sid = true ∧ other.renders sid = true) := by
  have hMember {info : EpiGroupInfo} (hInfo : info ∈ x.groups)
      (hRenders : (x.groupCard guint g info).renders sid = true) : sid ∈ info.members := by
    obtain ⟨pane, hPane, rfl⟩ := renders_iff.mp hRenders
    exact (member_of_groupCard h hInfo hPane).2.1
  have hGroups (keep : EpiGroupInfo → Bool) : ((x.groups.filter keep).map (x.groupCard guint g)).Pairwise
      fun card other => ¬(card.renders sid = true ∧ other.renders sid = true) := by
    refine List.pairwise_map.mpr ((h.disjoint.sublist List.filter_sublist).imp_of_mem ?_)
    intro info other hInfo hOther hDisjoint hBoth
    exact hDisjoint (hMember (List.mem_of_mem_filter hInfo) hBoth.1) (hMember (List.mem_of_mem_filter hOther) hBoth.2)
  have hApart {info : EpiGroupInfo} (hInfo : info ∈ x.groups) (hHere : x.elsewhere info = false)
      {card : CardInfo} (hOrphan : card ∈ (x.sessions.filter fun si =>
        si.alive && !(x.groups.flatMap (x.shownKeys guint g)).contains (lowWord si.id)).map (x.orphanCard guint g)) :
      ¬((x.groupCard guint g info).renders sid = true ∧ card.renders sid = true) := by
    obtain ⟨si, hsi, rfl⟩ := List.mem_map.mp hOrphan
    obtain ⟨hIn, hLeft⟩ := List.mem_filter.mp hsi
    rw [Bool.and_eq_true, Bool.not_eq_true', ← Bool.not_eq_true, List.contains_iff_mem] at hLeft
    rintro ⟨hGroup, hSelf⟩
    obtain rfl := (renders_orphanCard h hIn hLeft.1).mp hSelf
    exact hLeft.2 (key_mem_of_groupCard h hInfo hHere hGroup).1
  rw [overviewReload_eq h]
  refine List.pairwise_append.mpr ⟨hGroups _, List.pairwise_append.mpr ⟨hGroups _, ?_, ?_⟩, ?_⟩
  · have hIds : x.sessions.Pairwise fun si other => si.id ≠ other.id := List.pairwise_map.mp h.sessions_nodup
    refine List.pairwise_map.mpr ((hIds.sublist List.filter_sublist).imp_of_mem ?_)
    intro si other hsi hOther hNe hBoth
    obtain ⟨hIn, hLive⟩ := List.mem_filter.mp hsi
    obtain ⟨hIn', hLive'⟩ := List.mem_filter.mp hOther
    have hFirst := (renders_orphanCard h hIn (Bool.and_eq_true _ _ ▸ hLive).1).mp hBoth.1
    have hSecond := (renders_orphanCard h hIn' (Bool.and_eq_true _ _ ▸ hLive').1).mp hBoth.2
    exact hNe (hFirst.trans hSecond.symm)
  · intro card hGroup other hOrphan
    obtain ⟨info, hInfo, rfl⟩ := List.mem_map.mp hGroup
    obtain ⟨hIn, hFree⟩ := List.mem_filter.mp hInfo
    rw [Bool.and_eq_true, Bool.not_eq_true', Bool.not_eq_true'] at hFree
    exact hApart hIn (by simp [ReloadInput.elsewhere, hFree.2]) hOrphan
  · intro card hGroup other hOther
    obtain ⟨info, hInfo, rfl⟩ := List.mem_map.mp hGroup
    obtain ⟨hIn, hMine⟩ := List.mem_filter.mp hInfo
    rcases List.mem_append.mp hOther with hFree | hOrphan
    · obtain ⟨info', hInfo', rfl⟩ := List.mem_map.mp hFree
      obtain ⟨hIn', hNot⟩ := List.mem_filter.mp hInfo'
      have hNe : info ≠ info' := by
        rintro rfl
        rw [hMine] at hNot
        cases hNot
      exact fun hBoth => members_disjoint h hIn hIn' hNe (hMember hIn hBoth.1) (hMember hIn' hBoth.2)
    · exact hApart hIn (by simp [ReloadInput.elsewhere, hMine]) hOrphan

variable (guint) in
theorem card_of_live {si : EpiSessionInfo} (hListed : si ∈ x.sessions) (hLive : si.alive = true)
    (hShown : ∀ info ∈ x.groups, si.id ∈ info.members → x.Attached info → x.Tabbed info) :
    ∃ card ∈ overviewReload guint g x, card.renders si.id = true := by
  have hKeyOf := lowWord_of_lt (h.session_ids si hListed).2
  by_cases hKey : lowWord si.id ∈ x.groups.flatMap (x.shownKeys guint g)
  · obtain ⟨info, hInfo, hKeys⟩ := List.mem_flatMap.mp hKey
    rw [ReloadInput.shownKeys] at hKeys
    cases hHere : x.elsewhere info with
    | true =>
      rw [hHere, if_pos rfl, hKeyOf] at hKeys
      obtain ⟨m, hm, hSame⟩ := List.mem_map.mp hKeys
      rw [lowWord_of_lt (h.member_ids info hInfo m hm)] at hSame
      rw [ReloadInput.elsewhere, Bool.and_eq_true, Bool.not_eq_true'] at hHere
      obtain ⟨gid, hTab, hId⟩ := hShown info hInfo (hSame ▸ hm) (attached_of_groupIsAttached h hInfo hHere.2)
      have hMine : x.mine info = true :=
        List.contains_iff_mem.mpr (List.mem_map.mpr ⟨gid, hTab, congrArg lowWord hId⟩)
      rw [hMine] at hHere
      cases hHere.1
    | false =>
      rw [hHere, if_neg (by decide)] at hKeys
      obtain ⟨pane, hPane, hSame⟩ := List.mem_map.mp hKeys
      refine ⟨_, groupCard_mem h hInfo hHere, renders_iff.mpr ⟨pane, hPane, ?_⟩⟩
      rw [hKeyOf, EpimoneLayoutLeaf.key, lowWord_of_lt (member_of_groupCard h hInfo hPane).1] at hSame
      exact hSame
  · refine ⟨x.orphanCard guint g si, ?_, (renders_orphanCard h hListed hLive).mpr rfl⟩
    rw [overviewReload_eq h]
    refine List.mem_append_right _ (List.mem_append_right _ (List.mem_map_of_mem (List.mem_filter.mpr ⟨hListed, ?_⟩)))
    rw [hLive, Bool.true_and, Bool.not_eq_true', ← Bool.not_eq_true, List.contains_iff_mem]
    exact hKey

end Coverage

theorem countP_le_one {α : Type} {p : α → Bool} {l : List α}
    (h : l.Pairwise fun a b => ¬(p a = true ∧ p b = true)) : l.countP p ≤ 1 := by
  induction h with
  | nil => exact Nat.zero_le _
  | @cons a l hHead _ ih =>
    cases hA : p a with
    | false =>
      rw [List.countP_cons_of_neg (by simp [hA])]
      exact ih
    | true =>
      have hNone : l.countP p = 0 := List.countP_eq_zero.mpr fun b hb hB => hHead b hb ⟨hA, hB⟩
      rw [List.countP_cons_of_pos hA, hNone]

/-- Every live session is on one card, unless another window shows its group; a group's card shows live
members only, and an orphan's card its session, which is also what it kills. -/
theorem one_card_each (guint : GuintCast) {g : VariantText} {x : ReloadInput} (h : x.Consistent g) :
    (∀ si ∈ x.sessions, si.alive = true →
      (overviewReload guint g x).countP (CardInfo.renders si.id) ≤ 1 ∧
        ((∀ info ∈ x.groups, si.id ∈ info.members → x.Attached info → x.Tabbed info) →
          (overviewReload guint g x).countP (CardInfo.renders si.id) = 1)) ∧
      (∀ card ∈ overviewReload guint g x, card.killSession = 0 →
        ∃ info ∈ x.groups, card.groupId = info.id ∧
          ∀ pane ∈ card.leaves, pane.session.toNat ∈ info.members ∧ x.Live pane.session.toNat) ∧
      ∀ card ∈ overviewReload guint g x, card.killSession ≠ 0 →
        x.Live card.killSession ∧ card.leaves.map (fun pane => pane.session.toNat) = [card.killSession] ∧
          cardKill card = .session card.killSession := by
  refine ⟨?_, ?_, ?_⟩
  · intro si hListed hLive
    have hMost := countP_le_one (cards_exclusive guint h si.id)
    refine ⟨hMost, fun hShown => Nat.le_antisymm hMost ?_⟩
    obtain ⟨card, hCard, hRenders⟩ := card_of_live guint h hListed hLive hShown
    exact List.countP_pos_iff.mpr ⟨card, hCard, hRenders⟩
  · intro card hCard hKill
    rcases card_cases h hCard with ⟨info, hInfo, _, rfl⟩ | ⟨si, hListed, _, _, rfl⟩
    · refine ⟨info, hInfo, rfl, ?_⟩
      intro pane hPane
      exact (member_of_groupCard h hInfo hPane).2
    · exact absurd hKill (h.session_ids si hListed).1
  · intro card hCard hKill
    rcases card_cases h hCard with ⟨info, _, _, rfl⟩ | ⟨si, hListed, hLive, _, rfl⟩
    · exact absurd rfl hKill
    · refine ⟨⟨si, hListed, rfl, hLive⟩, ?_, if_pos hKill⟩
      have hLeaves := congrArg (List.map UInt64.toNat) (leaves_orphanCard guint h hListed hLive)
      rw [List.map_map, List.map_singleton, session_ofNat h hListed] at hLeaves
      exact hLeaves

/-- A tab that shows pane 7 of its group; pane 8 was taken out of it. -/
def takenOut : ReloadInput where
  groups := [⟨1, 0, sampleText.print (.v3 samplePayload), [7, 8]⟩]
  sessions := [⟨7, 100, true, true, 0, []⟩, ⟨8, 101, true, false, 0, []⟩]
  tabGroups := [1]
  pageGrid _ := some (80, 24)

theorem takenOut_consistent : takenOut.Consistent sampleText where
  sessions_nodup := by decide
  session_ids := by decide
  member_ids := by decide
  disjoint := List.pairwise_singleton _ _
  blob_ids info hInfo := by
    obtain rfl := List.mem_singleton.mp hInfo
    rw [blobParse_print sampleText_lawful (x := .v3 samplePayload) rfl]
    refine ⟨by decide, ?_⟩
    intro tree hTree id hId
    cases hTree
    obtain rfl := List.mem_singleton.mp hId
    decide

theorem one_card_each_takenOut :
    (overviewReload saturated sampleText takenOut).countP (CardInfo.renders 7) = 1 ∧
      (overviewReload saturated sampleText takenOut).countP (CardInfo.renders 8) = 1 := by
  obtain ⟨hOnce, _⟩ := one_card_each saturated takenOut_consistent
  have hShown : ∀ info ∈ takenOut.groups, takenOut.Tabbed info := by
    intro info hInfo
    obtain rfl := List.mem_singleton.mp hInfo
    exact ⟨1, List.mem_singleton_self _, rfl⟩
  exact ⟨(hOnce ⟨7, 100, true, true, 0, []⟩ (by decide) rfl).2 fun info hInfo _ _ => hShown info hInfo,
    (hOnce ⟨8, 101, true, false, 0, []⟩ (by decide) rfl).2 fun info hInfo _ _ => hShown info hInfo⟩

end Epimone.Client
