import Epimone.Client.Restore

/-! # Enrolled sessions

A page remembers which of its sessions it has made members of its group, and a
sync asks only for the others. What the page remembers has to be so at the
daemon, for every way in which a session gets into a page.
-/
set_option autoImplicit false

namespace Epimone.Client

open Daemon Transition Program

section Members

variable {srv : Server} {sid : UInt64} {instanceId : Nat}

def Known (srv : Server) (sid : UInt64) : Prop := ∃ s ∈ listed srv, (srv.sess s).id = sid.toNat

/-- The session is in this group and no other, if the daemon has it. -/
def Within (srv : Server) (sid : UInt64) (gid : Nat) : Prop :=
  ∀ s ∈ listed srv, (srv.sess s).id = sid.toNat → (srv.sess s).groupId = gid

theorem mem_memberIds_of_within {gid : Nat} (hKnown : Known srv sid) (hWithin : Within srv sid gid) :
    sid.toNat ∈ memberIds srv gid := by
  obtain ⟨s, hListed, hId⟩ := hKnown
  obtain ⟨hIn, hHere⟩ := mem_listed.mp hListed
  exact List.mem_map.mpr ⟨s, mem_groupMembers.mpr ⟨hIn, hHere, hWithin s hListed hId⟩, hId⟩

theorem within_of_mem_memberIds (h : Reached instanceId srv) {gid : Nat} (hMember : sid.toNat ∈ memberIds srv gid) :
    Known srv sid ∧ Within srv sid gid := by
  obtain ⟨s, hs, hId⟩ := List.mem_map.mp hMember
  obtain ⟨hIn, hHere, hGroup⟩ := mem_groupMembers.mp hs
  refine ⟨⟨s, mem_listed.mpr ⟨hIn, hHere⟩, hId⟩, ?_⟩
  intro s' hListed hId'
  obtain ⟨hIn', _⟩ := mem_listed.mp hListed
  obtain rfl := h.rostered.2.2.ids_injective s' hIn' s hIn (hId'.trans hId.symm)
  exact hGroup

theorem le_nextId_of_known (h : Reached instanceId srv) (hKnown : Known srv sid) : sid.toNat ≤ srv.nextId := by
  obtain ⟨s, hListed, hId⟩ := hKnown
  rw [← hId]
  exact h.rostered.2.2.ids_le s (mem_listed.mp hListed).1

theorem counters_perform (a : Act) :
    srv.nextId ≤ (a.perform srv).nextId ∧ srv.nextGroupId ≤ (a.perform srv).nextGroupId := by
  by_cases hCreate : ∃ pid cwd argv env exec k, a = .create pid cwd argv env exec k
  · obtain ⟨pid, cwd, argv, env, exec, k, rfl⟩ := hCreate
    exact ⟨Nat.le_succ _, Nat.le_refl _⟩
  by_cases hGroup : ∃ g, a = .newGroup g
  · obtain ⟨g, rfl⟩ := hGroup
    exact ⟨Nat.le_refl _, Nat.le_succ _⟩
  simp only [not_exists] at hCreate hGroup
  obtain ⟨_, hIds, hGroups⟩ := ids_perform hCreate hGroup
  exact ⟨hIds.ge, hGroups.ge⟩

theorem within_perform (h : Reached instanceId srv) {a : Act} (hGuard : a.guard srv) {gid : Nat}
    (hMove : ∀ s, (srv.sess s).id = sid.toNat → ∀ gid', a ≠ .move s gid') (hOld : sid.toNat ≤ srv.nextId)
    (hWithin : Within srv sid gid) : Within (a.perform srv) sid gid := by
  intro s hListed hId
  rcases stayed_or_created h.consistent hGuard hListed with
    ⟨hBefore, hSame, hGroup⟩ | ⟨pid, cwd, argv, env, exec, k, rfl, rfl⟩
  · rw [hSame] at hId
    rcases hGroup with hGroup | hMoved
    · rw [hGroup]
      exact hWithin s hBefore hId
    · exact absurd hMoved (hMove s hId _)
  · rw [sess_perform_of_eq (a := .create pid cwd argv env exec k) rfl] at hId
    have hNew : srv.nextId + 1 = sid.toNat := hId
    omega

theorem within_move (h : Reached instanceId srv) {s : SessPtr} {gid : Nat} (hGuard : (Act.move s gid).guard srv)
    (hId : (srv.sess s).id = sid.toNat) : Within ((Act.move s gid).perform srv) sid gid := by
  intro s' hListed hId'
  rcases stayed_or_created h.consistent hGuard hListed with ⟨hBefore, hSame, _⟩ | ⟨_, _, _, _, _, _, hOther, _⟩
  · rw [hSame] at hId'
    obtain rfl := h.rostered.2.2.ids_injective s' (mem_listed.mp hBefore).1 s hGuard.1 (hId'.trans hId.symm)
    rw [sess_perform_of_eq (a := .move s' gid) rfl]
  · cases hOther

/-- The actions of a sync leave the list of the sessions and their ids as they are. -/
theorem known_sync_iff {a : Act}
    (hSync : (∃ gid blob, a = .setBlob gid blob) ∨ (∃ g, a = .newGroup g) ∨ ∃ s gid, a = .move s gid) :
    Known (a.perform srv) sid ↔ Known srv sid := by
  rcases hSync with ⟨gid, blob, rfl⟩ | ⟨g, rfl⟩ | ⟨t, gid, rfl⟩
  · exact Iff.rfl
  · exact Iff.rfl
  · have hSess : ∀ u, (((Act.move t gid).perform srv).sess u).id = (srv.sess u).id ∧
        (((Act.move t gid).perform srv).sess u).removed = (srv.sess u).removed := by
      intro u
      rcases eq_or_ne u t with rfl | hOther
      · rw [sess_perform_of_eq (a := .move u gid) rfl]
        exact ⟨rfl, rfl⟩
      · have hStays : ((Act.move t gid).perform srv).sess u = srv.sess u := by
          refine sess_perform_of_ne ?_
          rintro k ⟨⟩
          exact hOther rfl
        rw [hStays]
        exact ⟨rfl, rfl⟩
    have hSessions : ((Act.move t gid).perform srv).sessions = srv.sessions := by
      simp only [Act.perform, moveSession_eq]
      rfl
    unfold Known
    refine exists_congr fun s => ?_
    rw [mem_listed, mem_listed, hSessions, (hSess s).1, (hSess s).2]

theorem known_sync {a : Act}
    (hSync : (∃ gid blob, a = .setBlob gid blob) ∨ (∃ g, a = .newGroup g) ∨ ∃ s gid, a = .move s gid)
    (hKnown : Known srv sid) : Known (a.perform srv) sid := (known_sync_iff hSync).mpr hKnown

end Members

/-! What one sync can do. -/

section Requests

variable (ans : SyncAnswers) (text : Bytes) (srv : Server) (page : EpimonePage)

theorem carry_cases (delivery : Delivery) (granted : Option Server) :
    (delivery.carry srv granted).1 = srv ∨ granted = some (delivery.carry srv granted).1 := by
  cases granted with
  | none => cases delivery <;> exact Or.inl rfl
  | some srv' =>
    cases delivery with
    | refused => exact Or.inl rfl
    | lost | replied => exact Or.inr rfl

theorem updateGroup_cases :
    ((updateGroup ans text srv page).1 = srv ∨ (∃ g, findGroup srv page.groupId.toNat = some g) ∧
      (updateGroup ans text srv page).1 = (Act.setBlob page.groupId.toNat text).perform srv) ∧
    ((updateGroup ans text srv page).2 = page ∨ (updateGroup ans text srv page).2 = page.setGroupId 0) := by
  have hCarry : ∀ srv' taken, ans.set.carry srv (groupSet srv page.groupId text) = (srv', taken) →
      srv' = srv ∨ (∃ g, findGroup srv page.groupId.toNat = some g) ∧
        srv' = (Act.setBlob page.groupId.toNat text).perform srv := by
    intro srv' taken hTaken
    have hCases := carry_cases srv ans.set (groupSet srv page.groupId text)
    rw [hTaken] at hCases
    refine hCases.imp_right ?_
    intro hGranted
    obtain ⟨g, hFound, hSame⟩ := Option.map_eq_some_iff.mp hGranted
    exact ⟨⟨g, hFound⟩, hSame.symm⟩
  unfold updateGroup
  split
  · exact ⟨Or.inl rfl, Or.inl rfl⟩
  split
  · next srv' hTaken => exact ⟨hCarry srv' true hTaken, Or.inl rfl⟩
  · next srv' hTaken => exact ⟨hCarry srv' false hTaken, Or.inr rfl⟩

theorem createGroup_cases :
    createGroup ans text srv page = (srv, page) ∨
    page.groupId = 0 ∧ (createGroup ans text srv page).1 = (Act.newGroup ⟨0, text, ans.now⟩).perform srv ∧
      ((createGroup ans text srv page).2 = page ∨
        (createGroup ans text srv page).2 = page.setGroupId (.ofNat (srv.nextGroupId + 1))) := by
  unfold createGroup
  split
  · exact Or.inl rfl
  next hNone =>
  have hCases := carry_cases srv ans.new (groupNew srv ⟨0, text, ans.now⟩)
  split
  · next srv' hTaken =>
    have hNew : (Act.newGroup ⟨0, text, ans.now⟩).perform srv = srv' := Option.some.inj (granted_of_carry hTaken)
    refine Or.inr ⟨not_not.mp hNone, hNew.symm, Or.inr ?_⟩
    rw [← hNew]
    rfl
  · next srv' hTaken =>
    rw [hTaken] at hCases
    rcases hCases with hSame | hGranted
    · exact Or.inl (Prod.ext hSame rfl)
    · exact Or.inr ⟨not_not.mp hNone, (Option.some.inj hGranted).symm, Or.inl rfl⟩

theorem enroll_cases (gid sid : UInt64) :
    enroll ans gid (srv, page) sid = (srv, page) ∨
    ∃ s, (Act.move s gid.toNat).guard srv ∧ (srv.sess s).id = sid.toNat ∧
      (enroll ans gid (srv, page) sid).1 = (Act.move s gid.toNat).perform srv ∧
      ((enroll ans gid (srv, page) sid).2 = page ∨ (enroll ans gid (srv, page) sid).2 = page.markEnrolled sid) := by
  have hCases : ∀ srv' taken, (ans.add sid).carry srv (groupAdd srv gid sid) = (srv', taken) →
      srv' = srv ∧ taken = false ∨
        ∃ s, (Act.move s gid.toNat).guard srv ∧ (srv.sess s).id = sid.toNat ∧
          srv' = (Act.move s gid.toNat).perform srv := by
    intro srv' taken hTaken
    cases hGranted : groupAdd srv gid sid with
    | none =>
      rw [hGranted] at hTaken
      refine Or.inl ?_
      cases hAdd : ans.add sid <;> rw [hAdd] at hTaken <;> cases hTaken <;> exact ⟨rfl, rfl⟩
    | some moved =>
      obtain ⟨g, hFound, hMoved⟩ := Option.bind_eq_some_iff.mp hGranted
      obtain ⟨s, hFind, hSame⟩ := Option.map_eq_some_iff.mp hMoved
      obtain ⟨hListed, hId, hRemoved⟩ := findSession_spec hFind
      have hGuard : (Act.move s gid.toNat).guard srv :=
        ⟨hListed, hRemoved, Or.inr (by rw [hFound]; exact Option.some_ne_none g)⟩
      rw [hGranted] at hTaken
      cases hAdd : ans.add sid with
      | refused =>
        rw [hAdd] at hTaken
        cases hTaken
        exact Or.inl ⟨rfl, rfl⟩
      | lost | replied =>
        rw [hAdd] at hTaken
        cases hTaken
        exact Or.inr ⟨s, hGuard, hId, hSame.symm⟩
  unfold enroll
  dsimp only
  split
  · exact Or.inl rfl
  split
  · next srv' hTaken =>
    rcases hCases srv' true hTaken with ⟨_, hFalse⟩ | ⟨s, hGuard, hId, hMoved⟩
    · cases hFalse
    · exact Or.inr ⟨s, hGuard, hId, hMoved, Or.inr rfl⟩
  · next srv' hTaken =>
    rcases hCases srv' false hTaken with ⟨hSame, _⟩ | ⟨s, hGuard, hId, hMoved⟩
    · exact Or.inl (Prod.ext hSame rfl)
    · exact Or.inr ⟨s, hGuard, hId, hMoved, Or.inl rfl⟩

end Requests

def Pane.Differ (p q : Pane) : Prop := p.terminal ≠ q.terminal ∧ (p.sid ≠ 0 → q.sid ≠ p.sid)

theorem Pane.Differ.symm {p q : Pane} (h : p.Differ q) : q.Differ p := by
  refine ⟨h.1.symm, ?_⟩
  intro hSome hSame
  rw [← hSame] at hSome
  exact h.2 hSome hSame.symm

/-- What a tab knows is so at the daemon, and each of its sessions has one pane, which is in no other tab.
Strictly, the daemon has all of them, and the groups of the tabs differ. -/
structure Tab.Sound (strict : Prop) (next : Nat) (srv : Server) (tabs : List Tab) (t : Tab) : Prop where
  tidy : t.page.root.panes.Pairwise Pane.Differ
  numbered : ∀ pane ∈ t.page.root.panes, pane.terminal < next
  issued : ∀ sid ∈ t.page.sids, sid.toNat ≤ srv.nextId
  known : strict → ∀ sid ∈ t.page.sids, sid ≠ 0 → Known srv sid
  enrolled : ∀ sid ∈ t.page.sids, sid ≠ 0 → sid ∈ t.page.enrolled → Within srv sid t.page.groupId.toNat
  carried : t.page.groupId.toNat ≤ srv.nextGroupId
  apart : ∀ sid ∈ t.page.sids, sid ≠ 0 → ∀ u ∈ tabs, sid ∉ u.page.sids
  unlike : strict → t.page.groupId ≠ 0 → ∀ u ∈ tabs, u.page.groupId ≠ t.page.groupId

/-- The tabs over a daemon that runs by its rules: what they know is so, and no session has two panes. -/
structure Trusted (strict : Prop) (instanceId next : Nat) (tabs : List Tab) (srv : Server) : Prop where
  reached : Reached instanceId srv
  tidy : ∀ t ∈ tabs, t.page.root.panes.Pairwise Pane.Differ
  numbered : ∀ t ∈ tabs, ∀ pane ∈ t.page.root.panes, pane.terminal < next
  issued : ∀ t ∈ tabs, ∀ sid ∈ t.page.sids, sid.toNat ≤ srv.nextId
  known : strict → ∀ t ∈ tabs, ∀ sid ∈ t.page.sids, sid ≠ 0 → Known srv sid
  enrolled : ∀ t ∈ tabs, ∀ sid ∈ t.page.sids, sid ≠ 0 → sid ∈ t.page.enrolled → Within srv sid t.page.groupId.toNat
  carried : ∀ t ∈ tabs, t.page.groupId.toNat ≤ srv.nextGroupId
  apart : tabs.Pairwise fun t u => ∀ sid ∈ t.page.sids, sid ≠ 0 → sid ∉ u.page.sids
  unlike : strict → tabs.Pairwise fun t u => t.page.groupId ≠ 0 → u.page.groupId ≠ t.page.groupId

namespace Trusted

variable {strict : Prop} {instanceId next : Nat} {srv srv' : Server} {tabs tabs' : List Tab} {t u : Tab}

theorem perm (h : Trusted strict instanceId next tabs srv) (hPerm : tabs.Perm tabs') :
    Trusted strict instanceId next tabs' srv where
  reached := h.reached
  tidy t ht := h.tidy t (hPerm.mem_iff.mpr ht)
  numbered t ht := h.numbered t (hPerm.mem_iff.mpr ht)
  issued t ht := h.issued t (hPerm.mem_iff.mpr ht)
  known hStrict t ht := h.known hStrict t (hPerm.mem_iff.mpr ht)
  enrolled t ht := h.enrolled t (hPerm.mem_iff.mpr ht)
  carried t ht := h.carried t (hPerm.mem_iff.mpr ht)
  apart := by
    refine (hPerm.pairwise_iff ?_).mp h.apart
    intro t u hApart sid hu hSome ht
    exact hApart sid ht hSome hu
  unlike hStrict := by
    refine (hPerm.pairwise_iff ?_).mp (h.unlike hStrict)
    intro t u hUnlike hSome hSame
    rw [← hSame] at hSome
    exact hUnlike hSome hSame.symm

theorem cons (h : Trusted strict instanceId next tabs srv) (hSound : t.Sound strict next srv tabs) :
    Trusted strict instanceId next (t :: tabs) srv where
  reached := h.reached
  tidy := List.forall_mem_cons.mpr ⟨hSound.tidy, h.tidy⟩
  numbered := List.forall_mem_cons.mpr ⟨hSound.numbered, h.numbered⟩
  issued := List.forall_mem_cons.mpr ⟨hSound.issued, h.issued⟩
  known hStrict := List.forall_mem_cons.mpr ⟨hSound.known hStrict, h.known hStrict⟩
  enrolled := List.forall_mem_cons.mpr ⟨hSound.enrolled, h.enrolled⟩
  carried := List.forall_mem_cons.mpr ⟨hSound.carried, h.carried⟩
  apart := List.pairwise_cons.mpr ⟨fun u hu sid hSid hSome => hSound.apart sid hSid hSome u hu, h.apart⟩
  unlike hStrict := List.pairwise_cons.mpr
    ⟨fun u hu hSome => hSound.unlike hStrict hSome u hu, h.unlike hStrict⟩

theorem head (h : Trusted strict instanceId next (t :: tabs) srv) : t.Sound strict next srv tabs where
  tidy := h.tidy t List.mem_cons_self
  numbered := h.numbered t List.mem_cons_self
  issued := h.issued t List.mem_cons_self
  known hStrict := h.known hStrict t List.mem_cons_self
  enrolled := h.enrolled t List.mem_cons_self
  carried := h.carried t List.mem_cons_self
  apart sid hSid hSome u hu := (List.pairwise_cons.mp h.apart).1 u hu sid hSid hSome
  unlike hStrict hSome u hu := (List.pairwise_cons.mp (h.unlike hStrict)).1 u hu hSome

theorem tail (h : Trusted strict instanceId next (t :: tabs) srv) : Trusted strict instanceId next tabs srv where
  reached := h.reached
  tidy u hu := h.tidy u (List.mem_cons_of_mem t hu)
  numbered u hu := h.numbered u (List.mem_cons_of_mem t hu)
  issued u hu := h.issued u (List.mem_cons_of_mem t hu)
  known hStrict u hu := h.known hStrict u (List.mem_cons_of_mem t hu)
  enrolled u hu := h.enrolled u (List.mem_cons_of_mem t hu)
  carried u hu := h.carried u (List.mem_cons_of_mem t hu)
  apart := (List.pairwise_cons.mp h.apart).2
  unlike hStrict := (List.pairwise_cons.mp (h.unlike hStrict)).2

theorem act {a : Act} (h : Trusted strict instanceId next tabs srv) (hGuard : a.guard srv)
    (hKnown : strict → ∀ t ∈ tabs, ∀ sid ∈ t.page.sids, sid ≠ 0 → Known srv sid → Known (a.perform srv) sid)
    (hWithin : ∀ t ∈ tabs, ∀ sid ∈ t.page.sids, sid ≠ 0 → sid ∈ t.page.enrolled →
      Within srv sid t.page.groupId.toNat → Within (a.perform srv) sid t.page.groupId.toNat) :
    Trusted strict instanceId next tabs (a.perform srv) where
  reached := .step a h.reached hGuard trivial
  tidy := h.tidy
  numbered := h.numbered
  issued t ht sid hSid := (h.issued t ht sid hSid).trans (counters_perform a).1
  known hStrict t ht sid hSid hSome := hKnown hStrict t ht sid hSid hSome (h.known hStrict t ht sid hSid hSome)
  enrolled t ht sid hSid hSome hIn := hWithin t ht sid hSid hSome hIn (h.enrolled t ht sid hSid hSome hIn)
  carried t ht := (h.carried t ht).trans (counters_perform a).2
  apart := h.apart
  unlike := h.unlike

theorem repage {page : EpimonePage} (h : Trusted strict instanceId next (t :: tabs) srv)
    (hGroup : page.groupId = t.page.groupId ∧ page.enrolled = t.page.enrolled ∨ page.groupId = 0 ∧ page.enrolled = [])
    (hPanes : page.root.panes.Subperm t.page.root.panes) :
    Trusted strict instanceId next ({ t with page := page } :: tabs) srv := by
  have hSids : page.sids ⊆ t.page.sids := List.map_subset _ hPanes.subset
  refine h.tail.cons ⟨?_, ?_, ?_, ?_, ?_, ?_, ?_, ?_⟩
  · obtain ⟨panes, hPerm, hSub⟩ := hPanes
    exact (hPerm.pairwise_iff Pane.Differ.symm).mp (h.head.tidy.sublist hSub)
  · exact fun pane hPane => h.head.numbered pane (hPanes.subset hPane)
  · exact fun sid hSid => h.head.issued sid (hSids hSid)
  · exact fun hStrict sid hSid => h.head.known hStrict sid (hSids hSid)
  · intro sid hSid hSome hIn
    change sid ∈ page.enrolled at hIn
    change Within srv sid page.groupId.toNat
    rcases hGroup with ⟨hSame, hEnrolled⟩ | ⟨_, hNone⟩
    · rw [hEnrolled] at hIn
      rw [hSame]
      exact h.head.enrolled sid (hSids hSid) hSome hIn
    · rw [hNone] at hIn
      cases hIn
  · change page.groupId.toNat ≤ srv.nextGroupId
    rcases hGroup with ⟨hSame, _⟩ | ⟨hNone, _⟩
    · rw [hSame]
      exact h.head.carried
    · rw [hNone]
      exact Nat.zero_le _
  · exact fun sid hSid => h.head.apart sid (hSids hSid)
  · intro hStrict hSome
    change page.groupId ≠ 0 at hSome
    change ∀ u ∈ tabs, u.page.groupId ≠ page.groupId
    rcases hGroup with ⟨hSame, _⟩ | ⟨hNone, _⟩
    · rw [hSame] at hSome ⊢
      exact h.head.unlike hStrict hSome
    · exact absurd hNone hSome

theorem rewindow (window : Nat) (h : Trusted strict instanceId next (t :: tabs) srv) :
    Trusted strict instanceId next ({ t with window := window } :: tabs) srv :=
  h.tail.cons
    ⟨h.head.tidy, h.head.numbered, h.head.issued, h.head.known, h.head.enrolled, h.head.carried, h.head.apart,
      h.head.unlike⟩

/-! The sync of the first tab. -/

variable (ans : SyncAnswers) (text : Bytes)

theorem request (h : Trusted strict instanceId next tabs srv) {a : Act} (hGuard : a.guard srv)
    (hSync : (∃ gid blob, a = .setBlob gid blob) ∨ ∃ g, a = .newGroup g) :
    Trusted strict instanceId next tabs (a.perform srv) := by
  have hMove : ∀ s gid, a ≠ .move s gid := by
    rcases hSync with ⟨gid, blob, rfl⟩ | ⟨g, rfl⟩
    · exact fun s gid => nofun
    · exact fun s gid => nofun
  refine h.act hGuard (fun _ _ _ _ _ _ hKnown => known_sync (hSync.imp_right Or.inl) hKnown) ?_
  intro t ht sid hSid _ _ hWithin
  exact within_perform h.reached hGuard (fun s _ => hMove s) (h.issued t ht sid hSid) hWithin

theorem updateGroup (h : Trusted strict instanceId next (t :: tabs) srv) :
    Trusted strict instanceId next ({ t with page := (Client.updateGroup ans text srv t.page).2 } :: tabs)
      (Client.updateGroup ans text srv t.page).1 := by
  obtain ⟨hSrv, hPage⟩ := updateGroup_cases ans text srv t.page
  have hServed : Trusted strict instanceId next (t :: tabs) (Client.updateGroup ans text srv t.page).1 := by
    rcases hSrv with hSame | ⟨⟨g, hFound⟩, hSet⟩
    · rw [hSame]
      exact h
    · rw [hSet]
      refine h.request ?_ (Or.inl ⟨_, _, rfl⟩)
      change findGroup srv t.page.groupId.toNat ≠ none
      rw [hFound]
      exact Option.some_ne_none g
  rcases hPage with hSame | hReset
  · rw [hSame]
    exact hServed
  · rw [hReset]
    refine hServed.repage ?_ ?_
    · unfold EpimonePage.setGroupId
      split
      · exact Or.inl ⟨rfl, rfl⟩
      · exact Or.inr ⟨rfl, rfl⟩
    · rw [EpimonePage.root_setGroupId]

theorem createGroup (h : Trusted strict instanceId next (t :: tabs) srv) (hCounter : srv.nextGroupId + 1 < 2 ^ 64) :
    Trusted strict instanceId next ({ t with page := (Client.createGroup ans text srv t.page).2 } :: tabs)
      (Client.createGroup ans text srv t.page).1 := by
  rcases createGroup_cases ans text srv t.page with hSame | ⟨hNone, hSrv, hPage⟩
  · rw [hSame]
    exact h
  have hServed : Trusted strict instanceId next (t :: tabs) (Client.createGroup ans text srv t.page).1 := by
    rw [hSrv]
    exact h.request trivial (Or.inr ⟨_, rfl⟩)
  rcases hPage with hSame | hGroup
  · rw [hSame]
    exact hServed
  have hNext : (Client.createGroup ans text srv t.page).1.nextGroupId = srv.nextGroupId + 1 := by
    rw [hSrv]
    rfl
  have hNew : (UInt64.ofNat (srv.nextGroupId + 1)).toNat = srv.nextGroupId + 1 :=
    UInt64.toNat_ofNat_of_lt' hCounter
  have hOther : t.page.groupId ≠ .ofNat (srv.nextGroupId + 1) := by
    intro hSame
    have hZero : (UInt64.ofNat (srv.nextGroupId + 1)).toNat = 0 := by
      rw [← hSame, hNone]
      rfl
    omega
  have hFresh : t.page.setGroupId (.ofNat (srv.nextGroupId + 1)) =
      { t.page with groupId := .ofNat (srv.nextGroupId + 1), enrolled := [] } := if_neg hOther
  rw [hGroup, hFresh]
  refine hServed.tail.cons { hServed.head with enrolled := ?_, carried := ?_, unlike := ?_ }
  · intro sid _ _ hIn
    cases hIn
  · change (UInt64.ofNat (srv.nextGroupId + 1)).toNat ≤ _
    rw [hNew, hNext]
  · intro _ _ u hu hSame
    have hCarried := h.carried u (List.mem_cons_of_mem t hu)
    rw [hSame, hNew] at hCarried
    omega

theorem markEnrolled {sid : UInt64} (h : Trusted strict instanceId next (t :: tabs) srv)
    (hWithin : Within srv sid t.page.groupId.toNat) :
    Trusted strict instanceId next ({ t with page := t.page.markEnrolled sid } :: tabs) srv := by
  unfold EpimonePage.markEnrolled
  split
  · exact h
  refine h.tail.cons { h.head with enrolled := ?_ }
  intro sid' hSid hSome hIn
  rcases List.mem_cons.mp hIn with rfl | hOld
  · exact hWithin
  · exact h.head.enrolled sid' hSid hSome hOld

/-- A session of the first tab moves to the group of this tab. -/
theorem move {s : SessPtr} {sid : UInt64} (h : Trusted strict instanceId next (t :: tabs) srv)
    (hGuard : (Act.move s t.page.groupId.toNat).guard srv) (hId : (srv.sess s).id = sid.toNat)
    (hShown : sid ∈ t.page.sids) :
    Trusted strict instanceId next (t :: tabs) ((Act.move s t.page.groupId.toNat).perform srv) := by
  refine h.act hGuard (fun _ _ _ _ _ _ hKnown => known_sync (Or.inr (Or.inr ⟨_, _, rfl⟩)) hKnown) ?_
  intro u hu sid' hSid hSome _ hWithin
  rcases eq_or_ne sid' sid with rfl | hOther
  · rcases List.mem_cons.mp hu with rfl | hElse
    · exact within_move h.reached hGuard hId
    · exact absurd hSid (h.head.apart sid' hShown hSome u hElse)
  · refine within_perform h.reached hGuard ?_ (h.issued u hu sid' hSid) hWithin
    rintro s' hId' gid ⟨⟩
    rw [hId] at hId'
    exact hOther (UInt64.toNat_inj.mp hId').symm

theorem enroll {sid : UInt64} (hShown : sid ∈ t.page.sids) (h : Trusted strict instanceId next (t :: tabs) srv) :
    (Client.enroll ans t.page.groupId (srv, t.page) sid).2.groupId = t.page.groupId ∧
      (Client.enroll ans t.page.groupId (srv, t.page) sid).2.sids = t.page.sids ∧
        Trusted strict instanceId next
          ({ t with page := (Client.enroll ans t.page.groupId (srv, t.page) sid).2 } :: tabs)
          (Client.enroll ans t.page.groupId (srv, t.page) sid).1 := by
  rcases enroll_cases ans srv t.page t.page.groupId sid with hSame | ⟨s, hGuard, hId, hSrv, hPage⟩
  · rw [hSame]
    exact ⟨rfl, rfl, h⟩
  have hMoved := h.move hGuard hId hShown
  rw [hSrv]
  rcases hPage with hSame | hMarked
  · rw [hSame]
    exact ⟨rfl, rfl, hMoved⟩
  · rw [hMarked]
    refine ⟨EpimonePage.groupId_markEnrolled sid, ?_, hMoved.markEnrolled (within_move h.reached hGuard hId)⟩
    rw [EpimonePage.sids, EpimonePage.root_markEnrolled]
    rfl

theorem enrollAll (ids : List UInt64) {gid : UInt64} (hGroup : t.page.groupId = gid) (hShown : ids ⊆ t.page.sids)
    (h : Trusted strict instanceId next (t :: tabs) srv) :
    Trusted strict instanceId next ({ t with page := (ids.foldl (Client.enroll ans gid) (srv, t.page)).2 } :: tabs)
      (ids.foldl (Client.enroll ans gid) (srv, t.page)).1 := by
  induction ids generalizing t srv with
  | nil => exact h
  | cons sid ids ih =>
    subst hGroup
    obtain ⟨hSame, hSids, hNext⟩ := h.enroll ans (hShown List.mem_cons_self)
    rw [List.foldl_cons]
    refine ih (t := { t with page := (Client.enroll ans t.page.groupId (srv, t.page) sid).2 }) hSame ?_ hNext
    change ids ⊆ (Client.enroll ans t.page.groupId (srv, t.page) sid).2.sids
    rw [hSids]
    exact fun i hi => hShown (List.mem_cons_of_mem sid hi)

theorem sync (h : Trusted strict instanceId next (t :: tabs) srv) (hCounter : srv.nextGroupId + 1 < 2 ^ 64) :
    Trusted strict instanceId next ({ t with page := (syncPageGroup ans srv t.page).2 } :: tabs)
      (syncPageGroup ans srv t.page).1 := by
  unfold syncPageGroup
  split
  · exact h
  dsimp only
  split
  · exact h
  · exact h
  next text _ _ =>
  have hUpdate := h.updateGroup ans text
  have hNext := (updateGroup_srv ans text srv t.page).2
  have hCreate := hUpdate.createGroup ans text (by rw [hNext]; exact hCounter)
  split
  · exact hCreate
  · refine hCreate.enrollAll ans t.page.root.collectSessionIds rfl fun sid hSid => ?_
    rw [EpimonePage.sids, root_createGroup, root_updateGroup]
    exact (Split.mem_collectSessionIds.mp hSid).2

end Trusted

/-! The gestures. -/

/-- A session of which no page has heard, and whose id fits. -/
def Desk.Unheard (d : Desk) : Option SessPtr → Prop
  | none => True
  | some s => s ∈ listed d.srv ∧ (d.srv.sess s).id < 2 ^ 64 ∧ ∀ t ∈ d.tabs, .ofNat (d.srv.sess s).id ∉ t.page.enrolled

instance (d : Desk) : (started : Option SessPtr) → Decidable (d.Unheard started)
  | none => inferInstanceAs (Decidable True)
  | some s => inferInstanceAs (Decidable (s ∈ listed d.srv ∧ (d.srv.sess s).id < 2 ^ 64 ∧
    ∀ t ∈ d.tabs, UInt64.ofNat (d.srv.sess s).id ∉ t.page.enrolled))

/-- A pane is started for a new session, and the counter of the groups has not come round. Strictly, the
daemon goes on having the sessions on screen. -/
def Move.Regular (strict : Prop) (d : Desk) : Move → Prop
  | .daemon a => strict → ∀ t ∈ d.tabs, ∀ sid ∈ t.page.sids, Known d.srv sid → Known (a.perform d.srv) sid
  | .newTab _ started | .split _ started => d.Unheard started
  | .sync .. => d.srv.nextGroupId + 1 < 2 ^ 64
  | _ => True

def Gesture.guard (strict : Prop) (d : Desk) : Gesture → Prop
  | .move m => m.guard d ∧ m.Regular strict d
  | _ => True

section Gestures

variable {strict : Prop} {instanceId : Nat} {d : Desk} {i : Nat} {t : Tab} {x : RestoreAnswers}

def Desk.Trusted (strict : Prop) (instanceId : Nat) (d : Desk) : Prop :=
  Client.Trusted strict instanceId d.nextTerminal d.tabs d.srv

theorem Trusted.later {next next' : Nat} {tabs : List Tab} {srv : Server} (h : Trusted strict instanceId next tabs srv)
    (hNext : next ≤ next') : Trusted strict instanceId next' tabs srv :=
  { h with numbered := fun t ht pane hPane => (h.numbered t ht pane hPane).trans_le hNext }

theorem trusted_withTab {f : Tab → Desk} (h : d.Trusted strict instanceId)
    (hTab : ∀ t, d.tabs[i]? = some t → Trusted strict instanceId d.nextTerminal (t :: d.tabs.eraseIdx i) d.srv →
      (f t).Trusted strict instanceId) : (d.withTab i f).Trusted strict instanceId := by
  unfold Desk.withTab
  split
  · exact h
  · next t hHere => exact hTab t hHere (h.perm (perm_of_tab hHere))

theorem trusted_setPage {page : EpimonePage} (hTab : d.tabs[i]? = some t)
    (h : Trusted strict instanceId d.nextTerminal (t :: d.tabs.eraseIdx i) d.srv)
    (hGroup : page.groupId = t.page.groupId)
    (hEnrolled : page.enrolled = t.page.enrolled) (hPanes : page.root.panes.Subperm t.page.root.panes) :
    (d.setPage i t page).Trusted strict instanceId :=
  (h.repage (Or.inl ⟨hGroup, hEnrolled⟩) hPanes).perm (perm_set_tab hTab _)

theorem trusted_settle {left : Option EpimonePage} (hTab : d.tabs[i]? = some t)
    (h : Trusted strict instanceId d.nextTerminal (t :: d.tabs.eraseIdx i) d.srv)
    (hLeft : ∀ page, left = some page → page.groupId = t.page.groupId ∧ page.enrolled = t.page.enrolled ∧
      page.root.panes.Subperm t.page.root.panes) : (d.settle i t left).Trusted strict instanceId := by
  cases left with
  | none => exact h.tail
  | some page =>
    obtain ⟨hGroup, hEnrolled, hPanes⟩ := hLeft page rfl
    exact trusted_setPage hTab h hGroup hEnrolled hPanes

/-- A new pane, of no session or of one that has none and that no page has heard of. -/
structure Desk.Blank (d : Desk) (pane : Pane) : Prop where
  terminal : pane.terminal = d.nextTerminal
  known : pane.sid ≠ 0 → Known d.srv pane.sid
  hidden : pane.sid ≠ 0 → ∀ t ∈ d.tabs, pane.sid ∉ t.page.sids
  unheard : pane.sid ≠ 0 → ∀ t ∈ d.tabs, pane.sid ∉ t.page.enrolled

theorem Desk.Blank.issued {pane : Pane} (h : d.Blank pane) (hReached : Reached instanceId d.srv) :
    pane.sid.toNat ≤ d.srv.nextId := by
  rcases eq_or_ne pane.sid 0 with hNone | hSome
  · rw [hNone]
    exact Nat.zero_le _
  · exact le_nextId_of_known hReached (h.known hSome)

theorem blank_newPane {started : Option SessPtr} (hFresh : d.Fresh started) (hUnheard : d.Unheard started) :
    d.Blank (d.newPane started) := by
  cases started with
  | none => exact ⟨rfl, fun hSome => absurd rfl hSome, fun hSome => absurd rfl hSome, fun hSome => absurd rfl hSome⟩
  | some s =>
    obtain ⟨hListed, hWidth, hEnrolled⟩ := hUnheard
    refine ⟨rfl, fun _ => ⟨s, hListed, (UInt64.toNat_ofNat_of_lt' hWidth).symm⟩, ?_, fun _ => hEnrolled⟩
    intro _ t ht hShown
    obtain ⟨pane, hPane, hSid⟩ := List.mem_map.mp hShown
    exact hFresh.2 pane (List.mem_flatMap.mpr ⟨t, ht, hPane⟩) hSid

theorem trusted_gain {page : EpimonePage} {pane : Pane} (hTab : d.tabs[i]? = some t) (h : d.Trusted strict instanceId)
    (hBlank : d.Blank pane) (hGroup : page.groupId = t.page.groupId) (hEnrolled : page.enrolled = t.page.enrolled)
    (hPanes : page.root.panes.Subperm (pane :: t.page.root.panes)) :
    Trusted strict instanceId (d.nextTerminal + 1) (d.tabs.set i { t with page := page }) d.srv := by
  have hHere : Trusted strict instanceId d.nextTerminal (t :: d.tabs.eraseIdx i) d.srv := h.perm (perm_of_tab hTab)
  have ht : t ∈ d.tabs := List.mem_of_getElem? hTab
  have hIn : ∀ sid ∈ page.sids, sid = pane.sid ∨ sid ∈ t.page.sids := by
    intro sid hSid
    obtain ⟨p, hp, rfl⟩ := List.mem_map.mp hSid
    rcases List.mem_cons.mp (hPanes.subset hp) with rfl | hOld
    · exact Or.inl rfl
    · exact Or.inr (List.mem_map_of_mem hOld)
  have hMore : Trusted strict instanceId (d.nextTerminal + 1) ({ t with page := page } :: d.tabs.eraseIdx i) d.srv := by
    refine (hHere.tail.later (Nat.le_succ _)).cons ⟨?_, ?_, ?_, ?_, ?_, ?_, ?_, ?_⟩
    · have hAll : (pane :: t.page.root.panes).Pairwise Pane.Differ := by
        refine List.pairwise_cons.mpr ⟨?_, hHere.head.tidy⟩
        intro p hp
        refine ⟨?_, ?_⟩
        · rw [hBlank.terminal]
          exact (hHere.head.numbered p hp).ne'
        · intro hSome hSame
          exact hBlank.hidden hSome t ht (hSame ▸ List.mem_map_of_mem hp)
      obtain ⟨panes, hPerm, hSub⟩ := hPanes
      exact (hPerm.pairwise_iff Pane.Differ.symm).mp (hAll.sublist hSub)
    · intro p hp
      rcases List.mem_cons.mp (hPanes.subset hp) with rfl | hOld
      · rw [hBlank.terminal]
        exact Nat.lt_succ_self _
      · exact (hHere.head.numbered p hOld).trans (Nat.lt_succ_self _)
    · intro sid hSid
      rcases hIn sid hSid with rfl | hOld
      · exact hBlank.issued h.reached
      · exact hHere.head.issued sid hOld
    · intro hStrict sid hSid hSome
      rcases hIn sid hSid with rfl | hOld
      · exact hBlank.known hSome
      · exact hHere.head.known hStrict sid hOld hSome
    · intro sid hSid hSome hMarked
      change sid ∈ page.enrolled at hMarked
      change Within d.srv sid page.groupId.toNat
      rw [hEnrolled] at hMarked
      rw [hGroup]
      rcases hIn sid hSid with rfl | hOld
      · exact absurd hMarked (hBlank.unheard hSome t ht)
      · exact hHere.head.enrolled sid hOld hSome hMarked
    · change page.groupId.toNat ≤ _
      rw [hGroup]
      exact hHere.head.carried
    · intro sid hSid hSome u hu
      rcases hIn sid hSid with rfl | hOld
      · exact hBlank.hidden hSome u (List.mem_of_mem_eraseIdx hu)
      · exact hHere.head.apart sid hOld hSome u hu
    · change strict → page.groupId ≠ 0 → ∀ u ∈ d.tabs.eraseIdx i, u.page.groupId ≠ page.groupId
      rw [hGroup]
      exact hHere.head.unlike
  exact hMore.perm (perm_set_tab hTab _)

theorem trusted_openInNewTab (hTab : d.tabs[i]? = some t)
    (h : Trusted strict instanceId d.nextTerminal (t :: d.tabs.eraseIdx i) d.srv) :
    (d.openInNewTab i t).Trusted strict instanceId := by
  unfold Desk.openInNewTab
  split
  · exact h.perm (perm_of_tab hTab).symm
  next pane page hTake =>
  obtain ⟨hGroup, hEnrolled, hPerm⟩ := EpimonePage.takeFocusedLeaf_left hTake
  have hLeft : page.root.panes.Subperm t.page.root.panes :=
    (List.sublist_cons_self _ _).subperm.trans hPerm.symm.subperm
  have hOld := h.repage (Or.inl ⟨hGroup, hEnrolled⟩) hLeft
  have hPane : pane ∈ t.page.root.panes := hPerm.mem_iff.mpr List.mem_cons_self
  have hShown : pane.sid ∈ t.page.sids := List.mem_map_of_mem hPane
  have hDiffer := (List.pairwise_cons.mp ((hPerm.pairwise_iff Pane.Differ.symm).mp h.head.tidy)).1
  have hBoth : Trusted strict instanceId d.nextTerminal
      (⟨t.window, .around pane⟩ :: { t with page := page } :: d.tabs.eraseIdx i) d.srv := by
    refine hOld.cons ⟨List.pairwise_singleton _ _, ?_, ?_, ?_, ?_, Nat.zero_le _, ?_, ?_⟩
    · intro p hp
      rw [List.mem_singleton.mp hp]
      exact h.head.numbered pane hPane
    · intro sid hSid
      rw [List.mem_singleton.mp hSid]
      exact h.head.issued pane.sid hShown
    · intro hStrict sid hSid
      rw [List.mem_singleton.mp hSid]
      exact h.head.known hStrict pane.sid hShown
    · intro sid _ _ hMarked
      cases hMarked
    · intro sid hSid hSome u hu
      rw [List.mem_singleton.mp hSid] at hSome ⊢
      rcases List.mem_cons.mp hu with rfl | hElse
      · intro hStill
        obtain ⟨p, hp, hSame⟩ := List.mem_map.mp hStill
        exact (hDiffer p hp).2 hSome hSame
      · exact h.head.apart pane.sid hShown hSome u hElse
    · intro _ hSome
      exact absurd rfl hSome
  have hBound := (List.getElem?_eq_some_iff.mp hTab).1
  refine hBoth.perm ((List.Perm.cons _ (perm_set_tab hTab _)).trans ?_)
  exact (List.perm_insertIdx _ _ (by rw [List.length_set]; exact hBound)).symm

theorem trusted_move {m : Move} (h : d.Trusted strict instanceId) (hGuard : m.guard d) (hRegular : m.Regular strict d) :
    (m.perform d).Trusted strict instanceId := by
  cases m with
  | daemon a =>
    refine h.act hGuard.1 (fun hStrict t ht sid hSid _ => hRegular hStrict t ht sid hSid) ?_
    intro t ht sid hSid _ _ hWithin
    exact within_perform h.reached hGuard.1 (fun s _ gid => hGuard.2 s gid) (h.issued t ht sid hSid) hWithin
  | newTab window started =>
    have hBlank := blank_newPane hGuard hRegular
    have hAdded : Trusted strict instanceId (d.nextTerminal + 1)
        (⟨window, .around (d.newPane started)⟩ :: d.tabs) d.srv := by
      refine (h.later (Nat.le_succ _)).cons ⟨List.pairwise_singleton _ _, ?_, ?_, ?_, ?_, Nat.zero_le _, ?_, ?_⟩
      · intro p hp
        rw [List.mem_singleton.mp hp, hBlank.terminal]
        exact Nat.lt_succ_self _
      · intro sid hSid
        rw [List.mem_singleton.mp hSid]
        exact hBlank.issued h.reached
      · intro _ sid hSid
        rw [List.mem_singleton.mp hSid]
        exact hBlank.known
      · intro sid _ _ hMarked
        cases hMarked
      · intro sid hSid
        rw [List.mem_singleton.mp hSid]
        exact hBlank.hidden
      · intro _ hSome
        exact absurd rfl hSome
    exact hAdded.perm (List.perm_append_singleton _ _).symm
  | split i started =>
    refine trusted_withTab h fun t hTab hHere => ?_
    obtain ⟨hGroup, hEnrolled, hPanes⟩ := EpimonePage.split_gain
      (hHere.head.tidy.imp And.left) (d.newPane started)
    exact trusted_gain hTab h (blank_newPane hGuard hRegular) hGroup hEnrolled hPanes
  | focus i terminal =>
    exact trusted_withTab h fun t hTab hHere => trusted_setPage hTab hHere rfl rfl (List.Subperm.refl _)
  | toggleZoom i =>
    refine trusted_withTab h fun t hTab hHere => ?_
    have hSame : t.page.toggleZoom.enrolled = t.page.enrolled ∧ t.page.toggleZoom.root = t.page.root := by
      unfold EpimonePage.toggleZoom
      split <;> exact ⟨rfl, rfl⟩
    exact trusted_setPage hTab hHere EpimonePage.groupId_toggleZoom hSame.1 (by rw [hSame.2])
  | closePane i =>
    exact trusted_withTab h fun t hTab hHere => trusted_settle hTab hHere fun _ => EpimonePage.closePane_left
  | death i terminal =>
    exact trusted_withTab h fun t hTab hHere => trusted_settle hTab hHere fun _ => EpimonePage.removeTerminal_left
  | openInNewTab i => exact trusted_withTab h fun t hTab hHere => trusted_openInNewTab hTab hHere
  | closeTab i => exact trusted_withTab h fun t hTab hHere => hHere.tail
  | moveTab i window position =>
    refine trusted_withTab h fun t hTab hHere => ?_
    have hBound := (List.getElem?_eq_some_iff.mp hTab).1
    refine (hHere.rewindow window).perm (List.perm_insertIdx _ _ ?_).symm
    have hPosition : position < d.tabs.length := hGuard
    rw [List.length_eraseIdx_of_lt hBound]
    omega
  | sync i ans =>
    exact trusted_withTab h fun t hTab hHere => (hHere.sync ans hRegular).perm (perm_set_tab hTab _)

end Gestures

end Epimone.Client
