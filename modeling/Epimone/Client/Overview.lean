import Epimone.Client.Transactions

/-! # The kills of the overview

"Kill detached" ends the groups without an attached member. It asks the daemon
twice, for the groups and for the sessions, and takes the sessions that could
not be listed for unattached ones.
-/
set_option autoImplicit false

namespace Epimone.Client

open Program

/-- GUINT_TO_POINTER ((guint) id), the key of a session or a group in a hash table. -/
def lowWord (id : Nat) : Nat := id % 2 ^ 32

def attachedSidSet (sessions : Option (List EpiSessionInfo)) : List Nat :=
  ((sessions.getD []).filter EpiSessionInfo.attached).map fun si => lowWord si.id

def groupAttached (attached : List Nat) (info : EpiGroupInfo) : Bool :=
  info.members.any fun m => attached.contains (lowWord m)

/-- The sessions for which overview_kill_detached_execute sends KILL, in this order. -/
def overviewKillDetachedExecute (groupList list : Exchange) : List Nat :=
  let groups := epimoneClientListGroups groupList
  let sessions := epimoneClientListSessions list
  let attached := attachedSidSet sessions.toOption
  match groups with
  | .error _ => []
  | .ok (_, infos) =>
    infos.flatMap fun info => if groupAttached attached info then [] else info.members

def ReportedDetached (sessions : List EpiSessionInfo) (sid : Nat) : Prop :=
  ∃ si ∈ sessions, si.id = sid ∧ si.attached = false

/-- KILL is sent only if both requests succeeded, and only to a session of a group all of whose members
are reported as not attached. -/
def SparesOpenTabs (groupList list : Exchange) : Prop :=
  ∀ sid ∈ overviewKillDetachedExecute groupList list, ∃ infos sessions,
    GroupListReplied groupList infos ∧ ListReplied list sessions ∧
      ∃ info ∈ infos, sid ∈ info.members ∧ ∀ m ∈ info.members, ReportedDetached sessions m

/-- What the code takes for the groups: nothing when the request failed, and the groups before the break
when the reply breaks off. -/
def receivedGroups (groupList : Exchange) : List EpiGroupInfo :=
  ((epimoneClientListGroups groupList).toOption.map Prod.snd).getD []

def receivedSessions (list : Exchange) : List EpiSessionInfo :=
  (epimoneClientListSessions list).toOption.getD []

theorem overviewKillDetachedExecute_eq (groupList list : Exchange) :
    overviewKillDetachedExecute groupList list = (receivedGroups groupList).flatMap fun info =>
      if groupAttached (attachedSidSet (some (receivedSessions list))) info then [] else info.members := by
  have hAttached : attachedSidSet (epimoneClientListSessions list).toOption =
      attachedSidSet (some (receivedSessions list)) := rfl
  unfold overviewKillDetachedExecute receivedGroups
  dsimp only
  rw [hAttached]
  cases epimoneClientListGroups groupList with
  | error e => rfl
  | ok reply => rfl

theorem mem_kills {groupList list : Exchange} {sid : Nat} :
    sid ∈ overviewKillDetachedExecute groupList list ↔ ∃ info ∈ receivedGroups groupList,
      groupAttached (attachedSidSet (some (receivedSessions list))) info = false ∧ sid ∈ info.members := by
  rw [overviewKillDetachedExecute_eq, List.mem_flatMap]
  refine exists_congr fun info => and_congr_right fun _ => ?_
  cases groupAttached (attachedSidSet (some (receivedSessions list))) info <;> simp

/-- A listed member of a group that counts as detached has no client. -/
theorem reportedDetached_of_listed {sessions : List EpiSessionInfo} {info : EpiGroupInfo}
    (h : groupAttached (attachedSidSet (some sessions)) info = false) {m : Nat} (hm : m ∈ info.members)
    (hListed : ∃ si ∈ sessions, si.id = m) : ReportedDetached sessions m := by
  obtain ⟨si, hsi, rfl⟩ := hListed
  refine ⟨si, hsi, rfl, ?_⟩
  cases hAttached : si.attached with
  | false => rfl
  | true =>
    have hKey : lowWord si.id ∈ attachedSidSet (some sessions) :=
      List.mem_map_of_mem (List.mem_filter.mpr ⟨hsi, hAttached⟩)
    have hSome : groupAttached (attachedSidSet (some sessions)) info = true :=
      List.any_eq_true.mpr ⟨si.id, hm, List.contains_iff_mem.mpr hKey⟩
    rw [h] at hSome
    cases hSome

theorem GroupListReplied.received {x : Exchange} {infos : List EpiGroupInfo}
    (h : GroupListReplied x infos) : receivedGroups x = infos := by
  obtain ⟨instanceId, hGroups⟩ := h.listGroups
  rw [receivedGroups, hGroups]
  rfl

theorem ListReplied.received {x : Exchange} {sessions : List EpiSessionInfo} (h : ListReplied x sessions) :
    receivedSessions x = sessions := by
  rw [receivedSessions, h.listSessions]
  rfl

/-- Kill detached spares the open tabs exactly when every group with a member that was received has a
member whose key is among the attached ones, or both replies are whole and its members all listed. -/
theorem killDetached_spares_iff (groupList list : Exchange) :
    SparesOpenTabs groupList list ↔
      ∀ info ∈ receivedGroups groupList, info.members ≠ [] →
        groupAttached (attachedSidSet (some (receivedSessions list))) info = true ∨
          (∃ infos, GroupListReplied groupList infos) ∧ ∃ sessions, ListReplied list sessions ∧
            ∀ m ∈ info.members, ∃ si ∈ sessions, si.id = m := by
  constructor
  · intro h info hInfo hSome
    refine or_iff_not_imp_left.mpr fun hOther => ?_
    have hDetached : groupAttached (attachedSidSet (some (receivedSessions list))) info = false := by
      simpa using hOther
    have hKilled : ∀ m ∈ info.members, m ∈ overviewKillDetachedExecute groupList list := fun m hm =>
      mem_kills.mpr ⟨info, hInfo, hDetached, hm⟩
    obtain ⟨first, hFirst⟩ := List.exists_mem_of_ne_nil _ hSome
    obtain ⟨infos, sessions, hGroups, hList, _⟩ := h first (hKilled first hFirst)
    refine ⟨⟨infos, hGroups⟩, sessions, hList, fun m hm => ?_⟩
    obtain ⟨_, sessions', _, hList', info', _, hMember, hReported⟩ := h m (hKilled m hm)
    obtain ⟨si, hsi, hId, _⟩ := hReported m hMember
    rw [← hList.received, hList'.received]
    exact ⟨si, hsi, hId⟩
  · intro h sid hKill
    obtain ⟨info, hInfo, hDetached, hMember⟩ := mem_kills.mp hKill
    rcases h info hInfo (List.ne_nil_of_mem hMember) with hAttached | ⟨⟨infos, hGroups⟩, sessions, hList, hListed⟩
    · rw [hDetached] at hAttached
      cases hAttached
    · rw [hGroups.received] at hInfo
      rw [hList.received] at hDetached
      exact ⟨infos, sessions, hGroups, hList, info, hInfo, hMember, fun m hm =>
        reportedDetached_of_listed hDetached hm (hListed m hm)⟩

/-- A daemon with one group, whose one member is session 1. -/
def oneGroup : Exchange :=
  { unreachable with
    refusal := none
    received := [48, 0, 0, 0, 107, 0, 0, 0, 7, 0, 0, 0, 0, 0, 0, 0, 1, 0, 0, 0, 1, 0, 0, 0, 0, 0, 0, 0,
      0, 0, 0, 0, 0, 0, 0, 0, 0, 0, 0, 0, 1, 0, 0, 0, 1, 0, 0, 0, 0, 0, 0, 0] }

/-- The sessions cannot be listed, and the member is killed, attached or not. -/
theorem killDetached_unreachable :
    overviewKillDetachedExecute oneGroup unreachable = [1] ∧ ¬ SparesOpenTabs oneGroup unreachable := by
  have hKill : overviewKillDetachedExecute oneGroup unreachable = [1] := by decide +kernel
  refine ⟨hKill, fun hSpares => ?_⟩
  obtain ⟨_, sessions, _, hReplied, _⟩ := hSpares 1 (by rw [hKill]; exact List.mem_cons_self)
  exact not_listReplied_unreachable sessions hReplied

end Epimone.Client
