import Epimone.Daemon.Runs

/-! # Groups and their members

A small model of the groups: who is listed, who is in which group, and the
history of joins, leaves and ends. A session that leaves a group is recorded
first and the group is looked at afterwards, so between the two the history
names one member more than the list does; `Orderly` carries that member along.
-/
set_option autoImplicit false

namespace Epimone.Daemon

open Transition

/-- The events by which the members of a group change. -/
def Effect.grouping : Effect → Bool
  | .groupJoined .. | .groupLeft .. | .groupGone _ => true
  | _ => false

def membershipStep (gid : Nat) (members : List SessPtr) : Effect → List SessPtr
  | .groupJoined g s => if g = gid then s :: members else members
  | .groupLeft g s => if g = gid then members.erase s else members
  | _ => members

def membersOf (gid : Nat) (history : List Effect) : List SessPtr :=
  history.foldl (membershipStep gid) []

/-- A group goes exactly when its only member leaves. -/
inductive Tidy : List Effect → Prop where
  | nil : Tidy []
  | other {history : List Effect} (before : Tidy history) (e : Effect)
    (hLeft : ∀ gid s, e ≠ .groupLeft gid s) (hGone : ∀ gid, e ≠ .groupGone gid) : Tidy (history ++ [e])
  | left {history : List Effect} (before : Tidy history) (gid : Nat) (s : SessPtr)
    (hOthers : membersOf gid history ≠ [s]) : Tidy (history ++ [.groupLeft gid s])
  | last {history : List Effect} (before : Tidy history) (gid : Nat) (s : SessPtr)
    (hOnly : membersOf gid history = [s]) : Tidy (history ++ [.groupLeft gid s, .groupGone gid])

def groupIds (history : List Effect) : List Nat :=
  history.filterMap fun e => match e with
    | .groupCreated gid => some gid
    | _ => none

def sessionIds (history : List Effect) : List Nat :=
  history.filterMap fun e => match e with
    | .created _ id => some id
    | _ => none

@[ext]
structure Roster where
  sessions : List SessPtr
  groups : List Nat
  groupOf : SessPtr → Nat
  removed : SessPtr → Bool
  id : SessPtr → Nat
  nextId : Nat
  nextGroupId : Nat
  history : List Effect

def Server.roster (srv : Server) : Roster :=
  { sessions := srv.sessions
    groups := srv.groups.map Group.id
    groupOf := fun s => (srv.sess s).groupId
    removed := fun s => (srv.sess s).removed
    id := fun s => (srv.sess s).id
    nextId := srv.nextId
    nextGroupId := srv.nextGroupId
    history := srv.trace }

theorem membersOf_append (gid : Nat) (history : List Effect) (e : Effect) :
    membersOf gid (history ++ [e]) = membershipStep gid (membersOf gid history) e := by
  rw [membersOf, membersOf, List.foldl_append]
  rfl

theorem groupIds_append (before after : List Effect) :
    groupIds (before ++ after) = groupIds before ++ groupIds after :=
  List.filterMap_append

theorem sessionIds_append (before after : List Effect) :
    sessionIds (before ++ after) = sessionIds before ++ sessionIds after :=
  List.filterMap_append

theorem membershipStep_of_quiet {gid : Nat} {members : List SessPtr} {e : Effect}
    (h : e.grouping = false) : membershipStep gid members e = members := by
  cases e <;> first | rfl | cases h

namespace Roster

variable (r : Roster)

def isMember (gid : Nat) (s : SessPtr) : Bool := !r.removed s && r.groupOf s == gid

def members (gid : Nat) : List SessPtr := r.sessions.filter (r.isMember gid)

def records (es : List Effect) : Roster := { r with history := r.history ++ es }

def collects (gid : Nat) : Bool :=
  decide (gid ≠ 0) && r.groups.contains gid && (r.members gid).isEmpty

def collect (gid : Nat) : Roster :=
  if r.collects gid then { r with groups := r.groups.erase gid }.records [.groupGone gid] else r

/-- What the session `s` of `r` leaves, seen in the state after it. -/
def leave (s : SessPtr) (after : Roster) : Roster :=
  (after.records (if r.removed s || r.groupOf s == 0 then [] else [.groupLeft (r.groupOf s) s])).collect
    (r.groupOf s)

def create (s : SessPtr) : Roster :=
  { r with
    sessions := s :: r.sessions
    groupOf := Function.update r.groupOf s 0
    removed := Function.update r.removed s false
    id := Function.update r.id s (r.nextId + 1)
    nextId := r.nextId + 1 }.records [.created s (r.nextId + 1)]

def newGroup : Roster :=
  { r with
    groups := (r.nextGroupId + 1) :: r.groups
    nextGroupId := r.nextGroupId + 1 }.records [.groupCreated (r.nextGroupId + 1)]

def unlink (s : SessPtr) : Roster := r.leave s { r with sessions := r.sessions.erase s }

def hide (s : SessPtr) : Roster := r.leave s { r with removed := Function.update r.removed s true }

def move (s : SessPtr) (gid : Nat) : Roster :=
  if r.groupOf s = gid then r
  else
    r.leave s ({ r with groupOf := Function.update r.groupOf s gid }.records
      (if gid = 0 then [] else [.groupJoined gid s]))

/-- The invariant of the groups; `extra` is a member that the history still names. -/
structure Orderly (extra : Option (SessPtr × Nat)) : Prop where
  sessions_nodup : r.sessions.Nodup
  groups_nodup : r.groups.Nodup
  groups_pos : ∀ g ∈ r.groups, 0 < g
  groups_le : ∀ g ∈ r.groups, g ≤ r.nextGroupId
  grouped : ∀ s ∈ r.sessions, r.removed s = false → r.groupOf s = 0 ∨ r.groupOf s ∈ r.groups
  joined : ∀ s ∈ r.sessions, r.groupOf s ≠ 0 → .groupJoined (r.groupOf s) s ∈ r.history
  joined_le : ∀ g s, .groupJoined g s ∈ r.history → g ≤ r.nextGroupId
  members_iff : ∀ gid s, gid ≠ 0 → (s ∈ membersOf gid r.history ↔
    s ∈ r.sessions ∧ r.isMember gid s = true ∨ extra = some (s, gid))
  members_nodup : ∀ gid, (membersOf gid r.history).Nodup
  populated : ∀ g ∈ r.groups, membersOf g r.history ≠ [] ∨ ∀ s, .groupJoined g s ∉ r.history
  tidy : Tidy r.history

/-- The invariant of the identifiers. -/
structure Numbered : Prop where
  group_ids : (groupIds r.history).Nodup
  group_ids_le : ∀ g ∈ groupIds r.history, g ≤ r.nextGroupId
  session_ids : (sessionIds r.history).Nodup
  session_ids_le : ∀ i ∈ sessionIds r.history, i ≤ r.nextId
  ids_le : ∀ s ∈ r.sessions, r.id s ≤ r.nextId
  ids_injective : ∀ s ∈ r.sessions, ∀ t ∈ r.sessions, r.id s = r.id t → s = t

/-- The groups are those that were created and have not gone. -/
structure Accounted : Prop where
  groups_nodup : r.groups.Nodup
  exists_iff : ∀ g, g ∈ r.groups ↔ .groupCreated g ∈ r.history ∧ .groupGone g ∉ r.history
  created_le : ∀ g, .groupCreated g ∈ r.history → g ≤ r.nextGroupId
  gone_created : ∀ g, .groupGone g ∈ r.history → .groupCreated g ∈ r.history

variable {r} {extra : Option (SessPtr × Nat)}

theorem Orderly.record_quiet (h : r.Orderly extra) {e : Effect} (hQuiet : e.grouping = false) :
    (r.records [e]).Orderly extra := by
  have hMembers : ∀ gid, membersOf gid (r.history ++ [e]) = membersOf gid r.history := fun gid => by
    rw [membersOf_append, membershipStep_of_quiet hQuiet]
  have hJoined : ∀ g s, .groupJoined g s ∈ r.history ++ [e] ↔ .groupJoined g s ∈ r.history := by
    intro g s
    rw [List.mem_append, List.mem_singleton]
    refine or_iff_left ?_
    rintro rfl
    cases hQuiet
  refine { h with
    joined := fun s hs hGroup => (hJoined _ _).mpr (h.joined s hs hGroup)
    joined_le := ?_, members_iff := ?_, members_nodup := ?_, populated := ?_, tidy := ?_ }
  · intro g s hIn
    exact h.joined_le g s ((hJoined g s).mp hIn)
  · intro gid s hGid
    simp only [records, hMembers]
    exact h.members_iff gid s hGid
  · intro gid
    simp only [records, hMembers]
    exact h.members_nodup gid
  · intro g hg
    simp only [records, hMembers, hJoined]
    exact h.populated g hg
  · refine .other h.tidy e ?_ ?_
    · rintro gid s rfl
      cases hQuiet
    · rintro gid rfl
      cases hQuiet

theorem records_append (es : List Effect) (e : Effect) :
    r.records (es ++ [e]) = (r.records es).records [e] := by
  simp [records]

theorem Orderly.records_quiet (h : r.Orderly extra) {es : List Effect}
    (hQuiet : ∀ e ∈ es, e.grouping = false) : (r.records es).Orderly extra := by
  induction es using List.reverseRecOn with
  | nil =>
    rw [show r.records [] = r by simp [records]]
    exact h
  | append_singleton es e ih =>
    rw [records_append]
    refine (ih fun e he => hQuiet e (List.mem_append_left _ he)).record_quiet ?_
    exact hQuiet e (List.mem_append_right _ (List.mem_singleton_self e))

theorem mem_members {gid : Nat} {s : SessPtr} :
    s ∈ r.members gid ↔ s ∈ r.sessions ∧ r.isMember gid s = true :=
  List.mem_filter

theorem collects_eq_true {gid : Nat} :
    r.collects gid = true ↔ gid ≠ 0 ∧ gid ∈ r.groups ∧ r.members gid = [] := by
  simp [collects, and_assoc]

/-- Looking at a group that nobody has just left does nothing. -/
theorem Orderly.collect_idle (h : r.Orderly none) {gid : Nat}
    (hJoined : gid ≠ 0 → ∃ s, .groupJoined gid s ∈ r.history) : r.collect gid = r := by
  rw [collect, if_neg]
  intro hCollects
  obtain ⟨hGid, hGroup, hEmpty⟩ := collects_eq_true.mp hCollects
  obtain ⟨s, hs⟩ := hJoined hGid
  rcases h.populated gid hGroup with hSome | hNever
  · obtain ⟨t, ht⟩ := List.exists_mem_of_ne_nil _ hSome
    have hMember := (h.members_iff gid t hGid).mp ht
    rcases hMember with hMember | hExtra
    · have hIn := mem_members.mpr hMember
      rw [hEmpty] at hIn
      cases hIn
    · cases hExtra
  · exact hNever s hs

theorem Orderly.settle {s : SessPtr} {gid : Nat} (h : r.Orderly (some (s, gid))) (hGid : gid ≠ 0)
    (hGroup : gid ∈ r.groups) (hOut : ¬ (s ∈ r.sessions ∧ r.isMember gid s = true)) :
    ((r.records [.groupLeft gid s]).collect gid).Orderly none := by
  have hNamed : s ∈ membersOf gid r.history := (h.members_iff gid s hGid).mpr (Or.inr rfl)
  have hOwn : membersOf gid (r.history ++ [.groupLeft gid s]) = (membersOf gid r.history).erase s := by
    rw [membersOf_append]
    simp [membershipStep]
  have hOther : ∀ g, g ≠ gid → membersOf g (r.history ++ [.groupLeft gid s]) = membersOf g r.history :=
    fun g hg => by
      rw [membersOf_append]
      simp [membershipStep, Ne.symm hg]
  have hIff : ∀ g t, g ≠ 0 → (t ∈ membersOf g (r.history ++ [.groupLeft gid s]) ↔
      t ∈ r.sessions ∧ r.isMember g t = true) := by
    intro g t hg
    by_cases hSame : g = gid
    · subst hSame
      rw [hOwn, (h.members_nodup g).mem_erase_iff, h.members_iff g t hg]
      constructor
      · rintro ⟨hNe, hMember | hExtra⟩
        · exact hMember
        · cases hExtra
          exact absurd rfl hNe
      · intro hMember
        refine ⟨?_, Or.inl hMember⟩
        rintro rfl
        exact hOut hMember
    · rw [hOther g hSame, h.members_iff g t hg]
      refine or_iff_left ?_
      intro hExtra
      cases hExtra
      exact hSame rfl
  have hNodup : ∀ g, (membersOf g (r.history ++ [.groupLeft gid s])).Nodup := by
    intro g
    by_cases hSame : g = gid
    · rw [hSame, hOwn]
      exact (h.members_nodup gid).erase s
    · rw [hOther g hSame]
      exact h.members_nodup g
  have hNeverKept : ∀ g, (∀ t, .groupJoined g t ∉ r.history) →
      ∀ t, .groupJoined g t ∉ r.history ++ [.groupLeft gid s] := by
    intro g hNever t hIn
    rcases List.mem_append.mp hIn with hOld | hNew
    · exact hNever t hOld
    · simp at hNew
  have hErase : (membersOf gid r.history).erase s = [] ↔ membersOf gid r.history = [s] := by
    constructor
    · intro hNil
      have hPerm := List.perm_cons_erase hNamed
      rw [hNil] at hPerm
      exact List.perm_singleton.mp hPerm
    · intro hOnly
      rw [hOnly]
      simp
  have hEmptyIff : (r.records [.groupLeft gid s]).members gid = [] ↔
      membersOf gid r.history = [s] := by
    rw [← hErase, ← hOwn, List.eq_nil_iff_forall_not_mem, List.eq_nil_iff_forall_not_mem]
    refine forall_congr' fun t => not_congr ?_
    rw [mem_members]
    exact (hIff gid t hGid).symm
  rw [collect]
  by_cases hOnly : membersOf gid r.history = [s]
  · have hCollects : (r.records [.groupLeft gid s]).collects gid = true :=
      collects_eq_true.mpr ⟨hGid, hGroup, hEmptyIff.mpr hOnly⟩
    rw [if_pos hCollects]
    have hGone : ∀ g, membersOf g (r.history ++ [.groupLeft gid s] ++ [.groupGone gid]) =
        membersOf g (r.history ++ [.groupLeft gid s]) := fun g => by
      rw [membersOf_append]
      rfl
    have hJoined : ∀ g t, .groupJoined g t ∈ r.history ++ [.groupLeft gid s] ++ [.groupGone gid] ↔
        .groupJoined g t ∈ r.history := fun g t => by simp
    constructor
    · exact h.sessions_nodup
    · exact h.groups_nodup.erase gid
    · exact fun g hg => h.groups_pos g (List.mem_of_mem_erase hg)
    · exact fun g hg => h.groups_le g (List.mem_of_mem_erase hg)
    · intro t ht (hRemoved : r.removed t = false)
      rcases h.grouped t ht hRemoved with hZero | hIn
      · exact Or.inl hZero
      · refine Or.inr ((h.groups_nodup.mem_erase_iff).mpr ⟨?_, hIn⟩)
        intro (hSame : r.groupOf t = gid)
        have hMember := (mem_members (r := r.records [.groupLeft gid s])).mpr
          ⟨ht, show (!r.removed t && r.groupOf t == gid) = true by simp [hRemoved, hSame]⟩
        rw [hEmptyIff.mpr hOnly] at hMember
        cases hMember
    · intro t ht hNe
      exact (hJoined _ _).mpr (h.joined t ht hNe)
    · intro g t hIn
      exact h.joined_le g t ((hJoined g t).mp hIn)
    · intro g t hg
      simp only [records, hGone]
      rw [hIff g t hg]
      exact (or_iff_left (by simp)).symm
    · intro g
      simp only [records, hGone]
      exact hNodup g
    · intro g hg
      obtain ⟨hNe, hOld⟩ := (h.groups_nodup.mem_erase_iff).mp hg
      simp only [records, hGone, hJoined]
      rw [hOther g hNe]
      exact h.populated g hOld
    · have hTidy := Tidy.last h.tidy gid s hOnly
      rw [show r.history ++ [.groupLeft gid s, .groupGone gid] =
        r.history ++ [.groupLeft gid s] ++ [.groupGone gid] by simp] at hTidy
      exact hTidy
  · rw [if_neg (fun hCollects => hOnly (hEmptyIff.mp (collects_eq_true.mp hCollects).2.2))]
    refine { h with
      joined := fun t ht hNe => List.mem_append_left _ (h.joined t ht hNe)
      members_nodup := hNodup
      tidy := .left h.tidy gid s hOnly
      joined_le := ?_, members_iff := ?_, populated := ?_ }
    · intro g t hIn
      rcases List.mem_append.mp hIn with hOld | hNew
      · exact h.joined_le g t hOld
      · simp at hNew
    · intro g t hg
      exact (hIff g t hg).trans (or_iff_left (by simp)).symm
    · intro g hg
      by_cases hSame : g = gid
      · refine Or.inl ?_
        simp only [records]
        rw [hSame, hOwn]
        exact fun hNil => hOnly (hErase.mp hNil)
      · refine (h.populated g hg).imp (fun hSome => ?_) (hNeverKept g)
        simp only [records]
        rw [hOther g hSame]
        exact hSome

/-- What the history still says of a session that leaves its group. -/
def owed (r : Roster) (s : SessPtr) : Option (SessPtr × Nat) :=
  if r.removed s || r.groupOf s == 0 then none else some (s, r.groupOf s)

theorem Orderly.leave {after : Roster} {s : SessPtr} (h : r.Orderly none) (hs : s ∈ r.sessions)
    (hGroups : after.groups = r.groups) (hHistory : ∀ e ∈ r.history, e ∈ after.history)
    (hAfter : after.Orderly (r.owed s))
    (hOut : ¬ (s ∈ after.sessions ∧ after.isMember (r.groupOf s) s = true)) :
    (r.leave s after).Orderly none := by
  unfold Roster.leave
  unfold owed at hAfter
  by_cases hLoose : (r.removed s || r.groupOf s == 0) = true
  · rw [if_pos hLoose] at hAfter ⊢
    have hSame : after.records [] = after := by simp [records]
    rw [hSame, hAfter.collect_idle]
    · exact hAfter
    · intro hNe
      exact ⟨s, hHistory _ (h.joined s hs hNe)⟩
  · rw [if_neg hLoose] at hAfter ⊢
    obtain ⟨hRemoved, hNe⟩ : r.removed s = false ∧ r.groupOf s ≠ 0 := by simpa using hLoose
    refine hAfter.settle hNe ?_ hOut
    rw [hGroups]
    exact (h.grouped s hs hRemoved).resolve_left hNe

/-- Sessions that are on no list do not count. -/
theorem Orderly.congr {r' : Roster} (h : r.Orderly extra) (hSessions : r'.sessions = r.sessions)
    (hGroups : r'.groups = r.groups) (hNext : r'.nextGroupId = r.nextGroupId)
    (hHistory : r'.history = r.history) (hGroupOf : ∀ s ∈ r.sessions, r'.groupOf s = r.groupOf s)
    (hRemoved : ∀ s ∈ r.sessions, r'.removed s = r.removed s) : r'.Orderly extra := by
  constructor
  · rw [hSessions]; exact h.sessions_nodup
  · rw [hGroups]; exact h.groups_nodup
  · rw [hGroups]; exact h.groups_pos
  · rw [hGroups, hNext]; exact h.groups_le
  · intro s hs hHere
    rw [hSessions] at hs
    rw [hRemoved s hs] at hHere
    rw [hGroupOf s hs, hGroups]
    exact h.grouped s hs hHere
  · intro s hs hNe
    rw [hSessions] at hs
    rw [hGroupOf s hs] at hNe ⊢
    rw [hHistory]
    exact h.joined s hs hNe
  · rw [hHistory, hNext]; exact h.joined_le
  · intro gid s hGid
    rw [hHistory, h.members_iff gid s hGid, hSessions]
    refine or_congr_left (and_congr_right fun hs => ?_)
    rw [isMember, isMember, hGroupOf s hs, hRemoved s hs]
  · rw [hHistory]; exact h.members_nodup
  · rw [hGroups, hHistory]; exact h.populated
  · rw [hHistory]; exact h.tidy

theorem Orderly.create (h : r.Orderly none) {s : SessPtr} (hs : s ∉ r.sessions) :
    (r.create s).Orderly none := by
  have hOther : ∀ t ∈ r.sessions, t ≠ s := fun t ht hSame => hs (hSame ▸ ht)
  refine Orderly.record_quiet ?_ rfl
  refine { h with sessions_nodup := ?_, grouped := ?_, joined := ?_, members_iff := ?_ }
  · exact List.nodup_cons.mpr ⟨hs, h.sessions_nodup⟩
  · intro t ht hHere
    rcases List.mem_cons.mp ht with rfl | hOld
    · exact Or.inl (Function.update_self _ _ _)
    · simp only [Function.update_of_ne (hOther t hOld)] at hHere ⊢
      exact h.grouped t hOld hHere
  · intro t ht hNe
    rcases List.mem_cons.mp ht with rfl | hOld
    · simp at hNe
    · simp only [Function.update_of_ne (hOther t hOld)] at hNe ⊢
      exact h.joined t hOld hNe
  · intro gid t hGid
    rw [h.members_iff gid t hGid]
    by_cases hSame : t = s
    · subst hSame
      simp [isMember, hs, Ne.symm hGid]
    · simp [isMember, hSame]

theorem Orderly.newGroup (h : r.Orderly none) : r.newGroup.Orderly none := by
  have hFresh : ∀ g ∈ r.groups, g ≠ r.nextGroupId + 1 := fun g hg =>
    Nat.ne_of_lt (Nat.lt_succ_of_le (h.groups_le g hg))
  refine Orderly.record_quiet ?_ rfl
  refine { h with
    groups_nodup := List.nodup_cons.mpr ⟨fun hIn => hFresh _ hIn rfl, h.groups_nodup⟩
    joined_le := fun g s hIn => Nat.le_succ_of_le (h.joined_le g s hIn)
    grouped := fun s hs hHere => (h.grouped s hs hHere).imp_right (List.mem_cons_of_mem _)
    groups_pos := ?_, groups_le := ?_, populated := ?_ }
  · intro g hg
    rcases List.mem_cons.mp hg with rfl | hOld
    · exact Nat.succ_pos _
    · exact h.groups_pos g hOld
  · intro g hg
    rcases List.mem_cons.mp hg with rfl | hOld
    · exact Nat.le_refl _
    · exact Nat.le_succ_of_le (h.groups_le g hOld)
  · intro g hg
    rcases List.mem_cons.mp hg with rfl | hOld
    · refine Or.inr fun s hIn => ?_
      exact Nat.not_succ_le_self _ (h.joined_le _ s hIn)
    · exact h.populated g hOld

/-- The members of a group are those who stay, and the one who leaves. -/
theorem member_iff_owed {s t : SessPtr} {gid : Nat} (hs : s ∈ r.sessions) (hGid : gid ≠ 0) :
    (t ∈ r.sessions ∧ r.isMember gid t = true ∨ (none : Option (SessPtr × Nat)) = some (t, gid)) ↔
      (t ≠ s ∧ t ∈ r.sessions ∧ r.isMember gid t = true) ∨ r.owed s = some (t, gid) := by
  by_cases hSame : t = s
  · subst hSame
    cases hRemoved : r.removed t <;> by_cases hZero : r.groupOf t = 0 <;>
      simp [isMember, owed, hRemoved, hZero, hs, Ne.symm hGid]
  · have hOwed : r.owed s ≠ some (t, gid) := by
      unfold owed
      split <;> simp [Ne.symm hSame]
    simp [hSame, hOwed]

theorem Orderly.unlink (h : r.Orderly none) {s : SessPtr} (hs : s ∈ r.sessions) :
    (r.unlink s).Orderly none := by
  have hOut : s ∉ r.sessions.erase s := fun hIn => (h.sessions_nodup.mem_erase_iff.mp hIn).1 rfl
  refine h.leave hs rfl (fun _ he => he) ?_ fun hIn => hOut hIn.1
  refine { h with
    sessions_nodup := h.sessions_nodup.erase s
    grouped := fun t ht => h.grouped t (List.mem_of_mem_erase ht)
    joined := fun t ht => h.joined t (List.mem_of_mem_erase ht)
    members_iff := ?_ }
  intro gid t hGid
  rw [h.members_iff gid t hGid, member_iff_owed hs hGid, h.sessions_nodup.mem_erase_iff]
  simp only [isMember, and_assoc]

theorem Orderly.hide (h : r.Orderly none) {s : SessPtr} (hs : s ∈ r.sessions) :
    (r.hide s).Orderly none := by
  refine h.leave hs rfl (fun _ he => he) ?_ fun hIn => by simp [isMember] at hIn
  refine { h with grouped := ?_, members_iff := ?_ }
  · intro t ht hHere
    by_cases hSame : t = s
    · subst hSame
      simp at hHere
    · simp only [Function.update_of_ne hSame] at hHere
      exact h.grouped t ht hHere
  · intro gid t hGid
    rw [h.members_iff gid t hGid, member_iff_owed hs hGid]
    refine or_congr_left ?_
    by_cases hSame : t = s
    · subst hSame
      simp [isMember]
    · simp [isMember, hSame]

theorem Orderly.move (h : r.Orderly none) {s : SessPtr} {gid : Nat} (hs : s ∈ r.sessions)
    (hRemoved : r.removed s = false) (hGroup : gid = 0 ∨ gid ∈ r.groups) :
    (r.move s gid).Orderly none := by
  unfold Roster.move
  split
  · exact h
  rename_i hOther
  have hJoins : ∀ {e : Effect}, e ∈ (if gid = 0 then [] else [Effect.groupJoined gid s]) ↔
      gid ≠ 0 ∧ e = .groupJoined gid s := by
    intro e
    by_cases hZero : gid = 0 <;> simp [hZero]
  have hMembers : ∀ g, g ≠ 0 → membersOf g (r.history ++ if gid = 0 then [] else [.groupJoined gid s]) =
      if gid = g then s :: membersOf g r.history else membersOf g r.history := by
    intro g hg
    by_cases hZero : gid = 0
    · rw [if_pos hZero, if_neg (by rw [hZero]; exact Ne.symm hg), List.append_nil]
    · rw [if_neg hZero, membersOf_append]
      rfl
  have hOut : ∀ g, g ≠ 0 → r.groupOf s ≠ g → s ∉ membersOf g r.history := by
    intro g hg hNe hIn
    rcases (h.members_iff g s hg).mp hIn with hMember | hExtra
    · exact hNe (by simpa [isMember, hRemoved] using hMember.2)
    · cases hExtra
  refine h.leave hs rfl (fun _ he => List.mem_append_left _ he) ?_ fun hIn => ?_
  · constructor
    · exact h.sessions_nodup
    · exact h.groups_nodup
    · exact h.groups_pos
    · exact h.groups_le
    · intro t ht hHere
      by_cases hSame : t = s
      · subst hSame
        simpa [records] using hGroup
      · simp only [records, Function.update_of_ne hSame]
        exact h.grouped t ht hHere
    · intro t ht hNe
      refine List.mem_append.mpr ?_
      by_cases hSame : t = s
      · subst hSame
        simp only [records, Function.update_self] at hNe ⊢
        exact Or.inr (hJoins.mpr ⟨hNe, rfl⟩)
      · simp only [records, Function.update_of_ne hSame] at hNe ⊢
        exact Or.inl (h.joined t ht hNe)
    · intro g t hIn
      rcases List.mem_append.mp hIn with hOld | hNew
      · exact h.joined_le g t hOld
      · obtain ⟨hNe, hJoin⟩ := hJoins.mp hNew
        cases hJoin
        exact h.groups_le gid (hGroup.resolve_left hNe)
    · intro g t hg
      simp only [records, hMembers g hg]
      rw [show (t ∈ if gid = g then s :: membersOf g r.history else membersOf g r.history) ↔
          gid = g ∧ t = s ∨ t ∈ membersOf g r.history by split <;> simp_all,
        h.members_iff g t hg, member_iff_owed hs hg]
      by_cases hSame : t = s
      · subst hSame
        simp [isMember, hRemoved, hs]
      · simp [isMember, hSame]
    · intro g
      by_cases hZero : g = 0
      · subst hZero
        by_cases hNone : gid = 0
        · simpa [records, hNone] using h.members_nodup 0
        · simp only [records, if_neg hNone, membersOf_append]
          simpa [membershipStep, hNone] using h.members_nodup 0
      · simp only [records, hMembers g hZero]
        split
        · rename_i hSame
          refine List.nodup_cons.mpr ⟨hOut g hZero ?_, h.members_nodup g⟩
          rw [← hSame]
          exact hOther
        · exact h.members_nodup g
    · intro g hg
      have hPos : g ≠ 0 := Nat.ne_of_gt (h.groups_pos g hg)
      simp only [records, hMembers g hPos]
      by_cases hSame : gid = g
      · rw [if_pos hSame]
        exact Or.inl (List.cons_ne_nil _ _)
      · rw [if_neg hSame]
        refine (h.populated g hg).imp_right fun hNever t hIn => ?_
        rcases List.mem_append.mp hIn with hOld | hNew
        · exact hNever t hOld
        · cases (hJoins.mp hNew).2
          exact hSame rfl
    · simp only [records]
      split
      · simpa using h.tidy
      · exact .other h.tidy _ (fun _ _ => Effect.noConfusion) fun _ => Effect.noConfusion
  · have hMember := hIn.2
    simp [isMember, records, Ne.symm hOther] at hMember

theorem Numbered.of_sub {r' : Roster} (h : r.Numbered) {es : List Effect}
    (hSessions : ∀ s ∈ r'.sessions, s ∈ r.sessions) (hId : ∀ s ∈ r.sessions, r'.id s = r.id s)
    (hNext : r'.nextId = r.nextId) (hNextGroup : r'.nextGroupId = r.nextGroupId)
    (hHistory : r'.history = r.history ++ es)
    (hOther : ∀ e ∈ es, (∀ s i, e ≠ .created s i) ∧ ∀ g, e ≠ .groupCreated g) : r'.Numbered := by
  have hNoGroup : groupIds es = [] := by
    refine List.filterMap_eq_nil_iff.mpr fun e he => ?_
    cases e <;> first | rfl | exact absurd rfl ((hOther _ he).2 _)
  have hNoSession : sessionIds es = [] := by
    refine List.filterMap_eq_nil_iff.mpr fun e he => ?_
    cases e <;> first | rfl | exact absurd rfl ((hOther _ he).1 _ _)
  have hGroups : groupIds r'.history = groupIds r.history := by
    rw [hHistory, groupIds_append, hNoGroup, List.append_nil]
  have hIds : sessionIds r'.history = sessionIds r.history := by
    rw [hHistory, sessionIds_append, hNoSession, List.append_nil]
  constructor
  · rw [hGroups]; exact h.group_ids
  · rw [hGroups, hNextGroup]; exact h.group_ids_le
  · rw [hIds]; exact h.session_ids
  · rw [hIds, hNext]; exact h.session_ids_le
  · intro s hs
    rw [hId s (hSessions s hs), hNext]
    exact h.ids_le s (hSessions s hs)
  · intro s hs t ht hSame
    rw [hId s (hSessions s hs), hId t (hSessions t ht)] at hSame
    exact h.ids_injective s (hSessions s hs) t (hSessions t ht) hSame

theorem Numbered.records (h : r.Numbered) {es : List Effect}
    (hOther : ∀ e ∈ es, (∀ s i, e ≠ .created s i) ∧ ∀ g, e ≠ .groupCreated g) : (r.records es).Numbered :=
  h.of_sub (fun _ hs => hs) (fun _ _ => rfl) rfl rfl rfl hOther

theorem Numbered.create (h : r.Numbered) {s : SessPtr} (hs : s ∉ r.sessions) :
    (r.create s).Numbered := by
  have hOther : ∀ t ∈ r.sessions, t ≠ s := fun t ht hSame => hs (hSame ▸ ht)
  have hIds : sessionIds (r.create s).history = sessionIds r.history ++ [r.nextId + 1] :=
    sessionIds_append _ _
  have hGroups : groupIds (r.create s).history = groupIds r.history :=
    (groupIds_append _ _).trans (List.append_nil _)
  have hFresh : ∀ t ∈ r.sessions, r.id t ≠ r.nextId + 1 := fun t ht =>
    Nat.ne_of_lt (Nat.lt_succ_of_le (h.ids_le t ht))
  constructor
  · rw [hGroups]; exact h.group_ids
  · rw [hGroups]; exact h.group_ids_le
  · rw [hIds]
    refine List.nodup_append.mpr ⟨h.session_ids, List.nodup_singleton _, ?_⟩
    intro i hi j hj
    rw [List.mem_singleton.mp hj]
    exact Nat.ne_of_lt (Nat.lt_succ_of_le (h.session_ids_le i hi))
  · rw [hIds]
    intro i hi
    rcases List.mem_append.mp hi with hOld | hNew
    · exact Nat.le_succ_of_le (h.session_ids_le i hOld)
    · exact Nat.le_of_eq (List.mem_singleton.mp hNew)
  · intro t ht
    rcases List.mem_cons.mp ht with rfl | hOld
    · exact Nat.le_of_eq (Function.update_self _ _ _)
    · simp only [Roster.create, Roster.records, Function.update_of_ne (hOther t hOld)]
      exact Nat.le_succ_of_le (h.ids_le t hOld)
  · intro t ht u hu hSame
    simp only [Roster.create, Roster.records] at hSame
    rcases List.mem_cons.mp ht with rfl | hOld <;> rcases List.mem_cons.mp hu with rfl | hOld'
    · rfl
    · rw [Function.update_self, Function.update_of_ne (hOther u hOld')] at hSame
      exact absurd hSame.symm (hFresh u hOld')
    · rw [Function.update_self, Function.update_of_ne (hOther t hOld)] at hSame
      exact absurd hSame (hFresh t hOld)
    · rw [Function.update_of_ne (hOther t hOld), Function.update_of_ne (hOther u hOld')] at hSame
      exact h.ids_injective t hOld u hOld' hSame

theorem Numbered.newGroup (h : r.Numbered) : r.newGroup.Numbered := by
  have hIds : sessionIds r.newGroup.history = sessionIds r.history :=
    (sessionIds_append _ _).trans (List.append_nil _)
  have hGroups : groupIds r.newGroup.history = groupIds r.history ++ [r.nextGroupId + 1] :=
    groupIds_append _ _
  constructor
  · rw [hGroups]
    refine List.nodup_append.mpr ⟨h.group_ids, List.nodup_singleton _, ?_⟩
    intro i hi j hj
    rw [List.mem_singleton.mp hj]
    exact Nat.ne_of_lt (Nat.lt_succ_of_le (h.group_ids_le i hi))
  · rw [hGroups]
    intro i hi
    rcases List.mem_append.mp hi with hOld | hNew
    · exact Nat.le_succ_of_le (h.group_ids_le i hOld)
    · exact Nat.le_of_eq (List.mem_singleton.mp hNew)
  · rw [hIds]; exact h.session_ids
  · rw [hIds]; exact h.session_ids_le
  · exact h.ids_le
  · exact h.ids_injective

theorem Accounted.extend {r' : Roster} (h : r.Accounted) {es : List Effect}
    (hGroups : r'.groups = r.groups) (hNext : r'.nextGroupId = r.nextGroupId)
    (hHistory : r'.history = r.history ++ es)
    (hOther : ∀ g, .groupCreated g ∉ es ∧ .groupGone g ∉ es) : r'.Accounted := by
  have hCreated : ∀ g, .groupCreated g ∈ r'.history ↔ .groupCreated g ∈ r.history := fun g => by
    rw [hHistory, List.mem_append, or_iff_left (hOther g).1]
  have hGone : ∀ g, .groupGone g ∈ r'.history ↔ .groupGone g ∈ r.history := fun g => by
    rw [hHistory, List.mem_append, or_iff_left (hOther g).2]
  constructor
  · rw [hGroups]; exact h.groups_nodup
  · intro g
    rw [hGroups, hCreated, hGone]
    exact h.exists_iff g
  · intro g
    rw [hCreated, hNext]
    exact h.created_le g
  · intro g
    rw [hCreated, hGone]
    exact h.gone_created g

theorem Accounted.records (h : r.Accounted) {es : List Effect}
    (hOther : ∀ g, .groupCreated g ∉ es ∧ .groupGone g ∉ es) : (r.records es).Accounted :=
  h.extend rfl rfl rfl hOther

theorem Accounted.newGroup (h : r.Accounted) : r.newGroup.Accounted := by
  have hFresh : .groupCreated (r.nextGroupId + 1) ∉ r.history := fun hIn =>
    Nat.not_succ_le_self _ (h.created_le _ hIn)
  have hCreated : ∀ g, .groupCreated g ∈ r.newGroup.history ↔
      .groupCreated g ∈ r.history ∨ g = r.nextGroupId + 1 := fun g => by
    simp [Roster.newGroup, Roster.records]
  have hGone : ∀ g, .groupGone g ∈ r.newGroup.history ↔ .groupGone g ∈ r.history := fun g => by
    simp [Roster.newGroup, Roster.records]
  constructor
  · exact List.nodup_cons.mpr ⟨fun hIn => hFresh ((h.exists_iff _).mp hIn).1, h.groups_nodup⟩
  · intro g
    rw [hCreated, hGone]
    refine List.mem_cons.trans ?_
    rw [h.exists_iff g]
    constructor
    · rintro (rfl | ⟨hOld, hNot⟩)
      · exact ⟨Or.inr rfl, fun hIn => hFresh (h.gone_created _ hIn)⟩
      · exact ⟨Or.inl hOld, hNot⟩
    · rintro ⟨hOld | rfl, hNot⟩
      · exact Or.inr ⟨hOld, hNot⟩
      · exact Or.inl rfl
  · intro g hIn
    rcases (hCreated g).mp hIn with hOld | rfl
    · exact Nat.le_succ_of_le (h.created_le g hOld)
    · exact Nat.le_refl _
  · intro g hIn
    exact (hCreated g).mpr (Or.inl (h.gone_created g ((hGone g).mp hIn)))

theorem Accounted.collect (h : r.Accounted) (gid : Nat) : (r.collect gid).Accounted := by
  rw [Roster.collect]
  split
  · rename_i hCollects
    have hGroup : gid ∈ r.groups := (collects_eq_true.mp hCollects).2.1
    have hCreated : ∀ g, .groupCreated g ∈ r.history ++ [.groupGone gid] ↔
        .groupCreated g ∈ r.history := fun g => by simp
    have hGone : ∀ g, .groupGone g ∈ r.history ++ [.groupGone gid] ↔
        .groupGone g ∈ r.history ∨ g = gid := fun g => by simp
    constructor
    · exact h.groups_nodup.erase gid
    · intro g
      simp only [Roster.records, hCreated, hGone]
      rw [h.groups_nodup.mem_erase_iff, h.exists_iff g]
      tauto
    · intro g hIn
      exact h.created_le g ((hCreated g).mp hIn)
    · intro g hIn
      refine (hCreated g).mpr ?_
      rcases (hGone g).mp hIn with hOld | rfl
      · exact h.gone_created g hOld
      · exact ((h.exists_iff g).mp hGroup).1
  · exact h

theorem Accounted.leave {after : Roster} (h : after.Accounted) (s : SessPtr) :
    (r.leave s after).Accounted := by
  refine Accounted.collect (h.records fun g => ?_) _
  split <;> simp

theorem Accounted.relist (h : r.Accounted) (sessions : List SessPtr) (groupOf : SessPtr → Nat)
    (removed : SessPtr → Bool) :
    ({ r with sessions := sessions, groupOf := groupOf, removed := removed } : Roster).Accounted :=
  ⟨h.groups_nodup, h.exists_iff, h.created_le, h.gone_created⟩

theorem Accounted.unlink (h : r.Accounted) (s : SessPtr) : (r.unlink s).Accounted :=
  (h.relist (r.sessions.erase s) r.groupOf r.removed).leave s

theorem Accounted.hide (h : r.Accounted) (s : SessPtr) : (r.hide s).Accounted :=
  (h.relist r.sessions r.groupOf (Function.update r.removed s true)).leave s

theorem Accounted.move (h : r.Accounted) (s : SessPtr) (gid : Nat) : (r.move s gid).Accounted := by
  unfold Roster.move
  split
  · exact h
  · have hMoved := h.relist r.sessions (Function.update r.groupOf s gid) r.removed
    refine Accounted.leave (hMoved.records fun g => ?_) s
    split <;> simp

end Roster

end Epimone.Daemon
