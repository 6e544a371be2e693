import Epimone.Daemon.Effects

/-! # Attachments

The pointers between connections and sessions as a small model of their own,
the lists they are kept in, and what is consistent about them. Every action of
the daemon is one step of this model, and every step whose guard holds keeps
the links consistent.
-/
set_option autoImplicit false

namespace Epimone.Daemon

@[ext]
structure Links where
  conns : List ConnPtr
  sessions : List SessPtr
  dead : List SessPtr
  nextConn : ConnPtr
  nextSess : SessPtr
  client : SessPtr → Option ConnPtr
  bound : ConnPtr → Option SessPtr
  isData : ConnPtr → Bool
  removed : SessPtr → Bool
  defunct : SessPtr → Bool
  ptyOpen : SessPtr → Bool

def Server.links (srv : Server) : Links :=
  { conns := srv.conns
    sessions := srv.sessions
    dead := srv.dead
    nextConn := srv.nextConn
    nextSess := srv.nextSess
    client := fun s => (srv.sess s).client
    bound := fun c => (srv.conn c).session
    isData := fun c => (srv.conn c).isData
    removed := fun s => (srv.sess s).removed
    defunct := fun s => (srv.sess s).defunct
    ptyOpen := fun s => (srv.sess s).ptyOpen }

namespace Links

variable (l : Links)

def bind (c : ConnPtr) (s : SessPtr) : Links :=
  { l with
    client := Function.update l.client s (some c)
    bound := Function.update l.bound c (some s)
    isData := Function.update l.isData c true }

def unbind (s : SessPtr) (c : ConnPtr) : Links :=
  { l with client := Function.update l.client s none, bound := Function.update l.bound c none }

def closePty (s : SessPtr) : Links := { l with ptyOpen := Function.update l.ptyOpen s false }

def hide (s : SessPtr) : Links := { l with removed := Function.update l.removed s true }

def unlink (s : SessPtr) : Links :=
  { l with
    sessions := l.sessions.erase s
    dead := s :: l.dead
    defunct := Function.update l.defunct s true }

def fork : Links := { l with nextSess := l.nextSess + 1 }

def create : Links :=
  { l with
    nextSess := l.nextSess + 1
    sessions := l.nextSess :: l.sessions
    client := Function.update l.client l.nextSess none
    removed := Function.update l.removed l.nextSess false
    defunct := Function.update l.defunct l.nextSess false
    ptyOpen := Function.update l.ptyOpen l.nextSess true }

def openConn : Links :=
  { l with
    nextConn := l.nextConn + 1
    conns := l.nextConn :: l.conns
    bound := Function.update l.bound l.nextConn none
    isData := Function.update l.isData l.nextConn false }

def close (c : ConnPtr) : Links :=
  { l with
    conns := l.conns.erase c
    client := fun s => if l.bound c = some s ∧ l.client s = some c then none else l.client s
    bound := Function.update l.bound c none
    isData := Function.update l.isData c false }

def free (s : SessPtr) (rest : List SessPtr) : Links :=
  { l with
    dead := rest
    client := Function.update l.client s none
    removed := Function.update l.removed s false
    defunct := Function.update l.defunct s false
    ptyOpen := Function.update l.ptyOpen s false }

structure Consistent : Prop where
  conns_nodup : l.conns.Nodup
  sessions_nodup : l.sessions.Nodup
  dead_nodup : l.dead.Nodup
  disjoint : ∀ s ∈ l.sessions, s ∉ l.dead
  conns_lt : ∀ c ∈ l.conns, c < l.nextConn
  sessions_lt : ∀ s ∈ l.sessions, s < l.nextSess
  dead_lt : ∀ s ∈ l.dead, s < l.nextSess
  listed_live : ∀ s ∈ l.sessions, l.defunct s = false
  dead_defunct : ∀ s ∈ l.dead, l.defunct s = true
  paired : ∀ c s, l.bound c = some s ↔ l.client s = some c
  bound_conn : ∀ c s, l.bound c = some s → c ∈ l.conns ∧ l.isData c = true
  bound_listed : ∀ c s, l.bound c = some s → s ∈ l.sessions
  removed_free : ∀ s, l.removed s = true → l.client s = none
  open_listed : ∀ s, l.ptyOpen s = true → s ∈ l.sessions

variable {l}

theorem Consistent.client_unique (h : l.Consistent) {s t : SessPtr} {c : ConnPtr}
    (hs : l.client s = some c) (ht : l.client t = some c) : s = t := by
  have hBound := (h.paired c s).mpr hs
  rw [(h.paired c t).mpr ht] at hBound
  exact (Option.some.inj hBound).symm

theorem Consistent.bind (h : l.Consistent) {c : ConnPtr} {s : SessPtr} (hc : c ∈ l.conns)
    (hFree : l.bound c = none) (hs : s ∈ l.sessions) (hClient : l.client s = none)
    (hRemoved : l.removed s = false) : (l.bind c s).Consistent := by
  refine { h with paired := ?_, bound_conn := ?_, bound_listed := ?_, removed_free := ?_ }
  · intro d t
    have hPaired := h.paired d t
    simp only [Links.bind, Function.update_apply]
    by_cases hd : d = c <;> by_cases ht : t = s <;> simp_all <;> grind
  · intro d t hBound
    simp only [Links.bind, Function.update_apply] at hBound ⊢
    by_cases hd : d = c
    · subst hd; simp [hc]
    · rw [if_neg hd] at hBound ⊢
      exact h.bound_conn d t hBound
  · intro d t hBound
    simp only [Links.bind, Function.update_apply] at hBound ⊢
    by_cases hd : d = c
    · rw [if_pos hd] at hBound
      cases hBound
      exact hs
    · rw [if_neg hd] at hBound
      exact h.bound_listed d t hBound
  · intro t hHidden
    simp only [Links.bind, Function.update_apply] at hHidden ⊢
    by_cases ht : t = s
    · subst ht
      rw [hRemoved] at hHidden
      cases hHidden
    · rw [if_neg ht]
      exact h.removed_free t hHidden

theorem Consistent.unbind (h : l.Consistent) {s : SessPtr} {c : ConnPtr}
    (hClient : l.client s = some c) : (l.unbind s c).Consistent := by
  have hBound := (h.paired c s).mpr hClient
  refine { h with paired := ?_, bound_conn := ?_, bound_listed := ?_, removed_free := ?_ }
  · intro d t
    simp only [Links.unbind, Function.update_apply]
    by_cases hd : d = c
    · subst hd
      rw [if_pos rfl]
      split
      · simp
      · rename_i hNe
        constructor
        · intro hLinked; cases hLinked
        · intro hOther
          exact absurd (h.client_unique hOther hClient) hNe
    · rw [if_neg hd, h.paired d t]
      split
      · rename_i hSame
        rw [hSame, hClient]
        simp [Ne.symm hd]
      · rfl
  · intro d t hLinked
    simp only [Links.unbind, Function.update_apply] at hLinked
    by_cases hd : d = c
    · rw [if_pos hd] at hLinked; cases hLinked
    · rw [if_neg hd] at hLinked
      exact h.bound_conn d t hLinked
  · intro d t hLinked
    simp only [Links.unbind, Function.update_apply] at hLinked
    by_cases hd : d = c
    · rw [if_pos hd] at hLinked; cases hLinked
    · rw [if_neg hd] at hLinked
      exact h.bound_listed d t hLinked
  · intro t hHidden
    simp only [Links.unbind, Function.update_apply] at hHidden ⊢
    split
    · rfl
    · exact h.removed_free t hHidden

theorem Consistent.closePty (h : l.Consistent) (s : SessPtr) : (l.closePty s).Consistent := by
  refine { h with open_listed := ?_ }
  intro t hOpen
  simp only [Links.closePty, Function.update_apply] at hOpen
  split at hOpen
  · cases hOpen
  · exact h.open_listed t hOpen

theorem Consistent.hide (h : l.Consistent) {s : SessPtr} (hClient : l.client s = none) :
    (l.hide s).Consistent := by
  refine { h with removed_free := ?_ }
  intro t hHidden
  simp only [Links.hide, Function.update_apply] at hHidden ⊢
  split at hHidden
  · rename_i hSame
    rw [hSame]
    exact hClient
  · exact h.removed_free t hHidden

theorem Consistent.unlink (h : l.Consistent) {s : SessPtr} (hs : s ∈ l.sessions)
    (hClient : l.client s = none) (hClosed : l.ptyOpen s = false) : (l.unlink s).Consistent := by
  have hMem : ∀ t, t ∈ l.sessions.erase s ↔ t ≠ s ∧ t ∈ l.sessions := fun t =>
    h.sessions_nodup.mem_erase_iff
  refine { h with
    sessions_nodup := h.sessions_nodup.erase s
    dead_nodup := List.nodup_cons.mpr ⟨h.disjoint s hs, h.dead_nodup⟩
    disjoint := ?_, sessions_lt := ?_, dead_lt := ?_, listed_live := ?_, dead_defunct := ?_
    bound_listed := ?_, open_listed := ?_ }
  · intro t ht hDead
    obtain ⟨hNe, hListed⟩ := (hMem t).mp ht
    rcases List.mem_cons.mp hDead with hSame | hDead
    · exact hNe hSame
    · exact h.disjoint t hListed hDead
  · intro t ht
    exact h.sessions_lt t ((hMem t).mp ht).2
  · intro t ht
    rcases List.mem_cons.mp ht with rfl | hDead
    · exact h.sessions_lt t hs
    · exact h.dead_lt t hDead
  · intro t ht
    obtain ⟨hNe, hListed⟩ := (hMem t).mp ht
    simp only [Links.unlink, Function.update_apply, if_neg hNe]
    exact h.listed_live t hListed
  · intro t ht
    simp only [Links.unlink, Function.update_apply]
    split
    · rfl
    · rename_i hNe
      exact h.dead_defunct t ((List.mem_cons.mp ht).resolve_left hNe)
  · intro d t hLinked
    refine (hMem t).mpr ⟨?_, h.bound_listed d t hLinked⟩
    rintro rfl
    have hSome := (h.paired d t).mp hLinked
    rw [hClient] at hSome
    cases hSome
  · intro t hOpen
    refine (hMem t).mpr ⟨?_, h.open_listed t hOpen⟩
    rintro rfl
    have hFalse : l.ptyOpen t = true := hOpen
    rw [hClosed] at hFalse
    cases hFalse

theorem Consistent.fork (h : l.Consistent) : l.fork.Consistent :=
  { h with
    sessions_lt := fun s hs => Nat.lt_succ_of_lt (h.sessions_lt s hs)
    dead_lt := fun s hs => Nat.lt_succ_of_lt (h.dead_lt s hs) }

theorem Consistent.fresh_session (h : l.Consistent) :
    l.nextSess ∉ l.sessions ∧ l.nextSess ∉ l.dead ∧ l.client l.nextSess = none := by
  refine ⟨fun hs => Nat.lt_irrefl _ (h.sessions_lt _ hs), fun hs => Nat.lt_irrefl _ (h.dead_lt _ hs), ?_⟩
  cases hClient : l.client l.nextSess with
  | none => rfl
  | some c =>
    have hs := h.bound_listed c _ ((h.paired c _).mpr hClient)
    exact absurd (h.sessions_lt _ hs) (Nat.lt_irrefl _)

theorem Consistent.create (h : l.Consistent) : l.create.Consistent := by
  obtain ⟨hNew, hNotDead, hClient⟩ := h.fresh_session
  have hNe : ∀ s ∈ l.sessions, s ≠ l.nextSess := fun s hs hSame => hNew (hSame ▸ hs)
  have hSame : Function.update l.client l.nextSess none = l.client := by
    rw [← hClient, Function.update_eq_self]
  refine { h with
    sessions_nodup := List.nodup_cons.mpr ⟨hNew, h.sessions_nodup⟩
    disjoint := ?_, sessions_lt := ?_, dead_lt := ?_, listed_live := ?_, dead_defunct := ?_
    paired := ?_, bound_listed := ?_, removed_free := ?_, open_listed := ?_ }
  · intro s hs
    rcases List.mem_cons.mp hs with rfl | hs
    · exact hNotDead
    · exact h.disjoint s hs
  · intro s hs
    rcases List.mem_cons.mp hs with rfl | hs
    · exact Nat.lt_succ_self _
    · exact Nat.lt_succ_of_lt (h.sessions_lt s hs)
  · exact fun s hs => Nat.lt_succ_of_lt (h.dead_lt s hs)
  · intro s hs
    simp only [Links.create, Function.update_apply]
    split
    · rfl
    · rename_i hOther
      exact h.listed_live s ((List.mem_cons.mp hs).resolve_left hOther)
  · intro s hs
    have hOther : s ≠ l.nextSess := fun hSame => hNotDead (hSame ▸ hs)
    simp only [Links.create, Function.update_apply, if_neg hOther]
    exact h.dead_defunct s hs
  · intro c s
    simp only [Links.create, hSame]
    exact h.paired c s
  · intro c s hLinked
    exact List.mem_cons_of_mem _ (h.bound_listed c s hLinked)
  · intro s hHidden
    simp only [Links.create, hSame, Function.update_apply] at hHidden ⊢
    split at hHidden
    · cases hHidden
    · exact h.removed_free s hHidden
  · intro s hOpen
    simp only [Links.create, Function.update_apply] at hOpen ⊢
    split at hOpen
    · rename_i hNext; exact List.mem_cons.mpr (Or.inl hNext)
    · exact List.mem_cons_of_mem _ (h.open_listed s hOpen)

theorem Consistent.fresh_conn (h : l.Consistent) :
    l.nextConn ∉ l.conns ∧ l.bound l.nextConn = none := by
  refine ⟨fun hc => Nat.lt_irrefl _ (h.conns_lt _ hc), ?_⟩
  cases hBound : l.bound l.nextConn with
  | none => rfl
  | some s => exact absurd (h.conns_lt _ (h.bound_conn _ s hBound).1) (Nat.lt_irrefl _)

theorem Consistent.openConn (h : l.Consistent) : l.openConn.Consistent := by
  obtain ⟨hNew, hBound⟩ := h.fresh_conn
  have hSame : Function.update l.bound l.nextConn none = l.bound := by
    rw [← hBound, Function.update_eq_self]
  refine { h with
    conns_nodup := List.nodup_cons.mpr ⟨hNew, h.conns_nodup⟩
    conns_lt := ?_, paired := ?_, bound_conn := ?_, bound_listed := ?_ }
  · intro c hc
    rcases List.mem_cons.mp hc with rfl | hc
    · exact Nat.lt_succ_self _
    · exact Nat.lt_succ_of_lt (h.conns_lt c hc)
  · intro c s
    simp only [Links.openConn, hSame]
    exact h.paired c s
  · intro c s hLinked
    simp only [Links.openConn, hSame] at hLinked ⊢
    obtain ⟨hc, hData⟩ := h.bound_conn c s hLinked
    have hNe : c ≠ l.nextConn := fun hEq => hNew (hEq ▸ hc)
    exact ⟨List.mem_cons_of_mem _ hc, by rw [Function.update_of_ne hNe]; exact hData⟩
  · intro c s hLinked
    simp only [Links.openConn, hSame] at hLinked
    exact h.bound_listed c s hLinked

theorem Consistent.close (h : l.Consistent) (c : ConnPtr) : (l.close c).Consistent := by
  have hClient : ∀ s, (l.close c).client s = if l.client s = some c then none else l.client s := by
    intro s
    have hPaired := h.paired c s
    simp only [Links.close]
    by_cases hOwn : l.client s = some c <;> simp_all
  have hLinked : ∀ d s, (l.close c).bound d = some s → d ≠ c ∧ l.bound d = some s := by
    intro d s hBound
    simp only [Links.close, Function.update_apply] at hBound
    split at hBound
    · cases hBound
    · exact ⟨‹_›, hBound⟩
  refine { h with
    conns_nodup := h.conns_nodup.erase c
    conns_lt := fun d hd => h.conns_lt d (List.mem_of_mem_erase hd)
    paired := ?_, bound_conn := ?_
    bound_listed := fun d s hBound => h.bound_listed d s (hLinked d s hBound).2
    removed_free := ?_ }
  · intro d s
    have hPaired := h.paired d s
    rw [hClient]
    simp only [Links.close, Function.update_apply]
    by_cases hd : d = c
    · subst hd
      by_cases hOwn : l.client s = some d <;> simp [hOwn]
    · rw [if_neg hd, hPaired]
      split
      · rename_i hOwn
        rw [hOwn]
        simp [Ne.symm hd]
      · rfl
  · intro d s hBound
    obtain ⟨hNe, hOld⟩ := hLinked d s hBound
    obtain ⟨hd, hData⟩ := h.bound_conn d s hOld
    refine ⟨(h.conns_nodup.mem_erase_iff).mpr ⟨hNe, hd⟩, ?_⟩
    simp only [Links.close, Function.update_of_ne hNe]
    exact hData
  · intro s hHidden
    rw [hClient]
    split
    · rfl
    · exact h.removed_free s hHidden

theorem Consistent.free (h : l.Consistent) {s : SessPtr} {rest : List SessPtr}
    (hDead : l.dead = s :: rest) : (l.free s rest).Consistent := by
  have hs : s ∈ l.dead := hDead ▸ List.mem_cons_self
  have hSplit := h.dead_nodup
  rw [hDead, List.nodup_cons] at hSplit
  have hRest : ∀ t ∈ rest, t ∈ l.dead := fun t ht => hDead ▸ List.mem_cons_of_mem _ ht
  have hUnlisted : ∀ t ∈ l.sessions, t ≠ s := fun t ht hSame => h.disjoint t ht (hSame ▸ hs)
  have hClient : Function.update l.client s none = l.client := by
    have hNone : l.client s = none := by
      cases hClient : l.client s with
      | none => rfl
      | some c => exact absurd rfl (hUnlisted s (h.bound_listed c s ((h.paired c s).mpr hClient)))
    rw [← hNone, Function.update_eq_self]
  refine { h with
    dead_nodup := hSplit.2
    disjoint := fun t ht hIn => h.disjoint t ht (hRest t hIn)
    dead_lt := fun t ht => h.dead_lt t (hRest t ht)
    listed_live := ?_, dead_defunct := ?_, paired := ?_, removed_free := ?_, open_listed := ?_ }
  · intro t ht
    simp only [Links.free, Function.update_of_ne (hUnlisted t ht)]
    exact h.listed_live t ht
  · intro t ht
    have hNe : t ≠ s := fun hSame => hSplit.1 (hSame ▸ ht)
    simp only [Links.free, Function.update_of_ne hNe]
    exact h.dead_defunct t (hRest t ht)
  · intro c t
    simp only [Links.free, hClient]
    exact h.paired c t
  · intro t hHidden
    simp only [Links.free, hClient, Function.update_apply] at hHidden ⊢
    split at hHidden
    · cases hHidden
    · exact h.removed_free t hHidden
  · intro t hOpen
    simp only [Links.free, Function.update_apply] at hOpen
    split at hOpen
    · cases hOpen
    · exact h.open_listed t hOpen

end Links

/-- The step of the links that an action is. -/
def Act.relink (l : Links) : Act → Links
  | .attach c s _ => l.bind c s
  | .unbind s c => l.unbind s c
  | .closePty s => l.closePty s
  | .unlink s => l.unlink s
  | .kill s _ => l.hide s
  | .fork .. => l.fork
  | .create .. => l.create
  | .openConn => l.openConn
  | .close c => l.close c
  | .free s rest => l.free s rest
  | _ => l

theorem links_update_conn (srv : Server) (c : ConnPtr) {k : Connection}
    (hSession : k.session = (srv.conn c).session) (hData : k.isData = (srv.conn c).isData) :
    ({ srv with conn := Function.update srv.conn c k } : Server).links = srv.links := by
  apply Links.ext <;> try rfl
  · funext d
    simp only [Server.links, Function.update_apply]
    split
    · rename_i hSame; rw [hSame, hSession]
    · rfl
  · funext d
    simp only [Server.links, Function.update_apply]
    split
    · rename_i hSame; rw [hSame, hData]
    · rfl

theorem links_update_sess (srv : Server) (s : SessPtr) {k : Session}
    (hClient : k.client = (srv.sess s).client) (hRemoved : k.removed = (srv.sess s).removed)
    (hDefunct : k.defunct = (srv.sess s).defunct) (hOpen : k.ptyOpen = (srv.sess s).ptyOpen) :
    ({ srv with sess := Function.update srv.sess s k } : Server).links = srv.links := by
  apply Links.ext <;> try rfl
  all_goals
    funext t
    simp only [Server.links, Function.update_apply]
    split
    · rename_i hSame; rw [hSame]; assumption
    · rfl

theorem links_perform {srv : Server} {a : Act} (hGuard : a.guard srv) :
    (a.perform srv).links = a.relink srv.links := by
  cases a with
  | queue c data alloc =>
    simp only [Act.perform, enqueue_eq]
    exact links_update_conn srv c (by simp) (by simp)
  | attach c s ans =>
    simp only [Act.perform, bindClient_eq, Act.relink]
    apply Links.ext <;> try rfl
    all_goals
      funext i
      simp only [Server.links, Links.bind, Function.update_apply]
      split <;> simp_all [greeted]
  | unbind s c =>
    apply Links.ext <;> try rfl
    all_goals
      funext i
      simp only [Act.perform, unbindClient, Server.links, Server.modSess, Server.modConn, Server.emit,
        Act.relink, Links.unbind, Function.update_apply]
      split <;> simp_all
  | closePty s =>
    apply Links.ext <;> try rfl
    all_goals
      funext i
      simp only [Act.perform, closePty, Server.links, Server.modSess, Server.emit, Act.relink,
        Links.closePty, Function.update_apply]
      split <;> simp_all
  | unlink s =>
    simp only [Act.perform, unlinkMember_eq]
    apply Links.ext <;> try rfl
    all_goals
      funext i
      simp only [unlinkSession, Server.links, Server.modSess, Act.relink, Links.unlink,
        Function.update_apply]
      split <;> simp_all
  | kill s clock =>
    simp only [Act.perform, markKilled_eq]
    apply Links.ext <;> try rfl
    all_goals
      funext i
      simp only [hidden, Server.links, Server.modSess, Act.relink, Links.hide, Function.update_apply]
      split <;> simp_all
  | create pid cwd argv env exec k =>
    obtain ⟨_, _, hFresh⟩ := hGuard
    have hClient := hFresh.client
    have hRemoved := hFresh.removed
    have hDefunct := hFresh.defunct
    have hOpen := hFresh.ptyOpen
    apply Links.ext <;> try rfl
    all_goals
      funext i
      simp only [Act.perform, linkSession, forked, Server.links, Server.modSess, Server.emit, Act.relink,
        Links.create, Function.update_apply]
      split <;> simp_all
  | openConn =>
    apply Links.ext <;> try rfl
    all_goals
      funext i
      simp only [Act.perform, openConn, Server.links, Server.modConn, Server.modIn, Act.relink,
        Links.openConn, Function.update_apply]
      split <;> simp_all [Connection.blank]
  | close c =>
    simp only [Act.perform, connClose_eq]
    apply Links.ext <;> try rfl
    all_goals funext i
    · exact apply_ite Session.client _ _ _
    all_goals
      simp only [Server.links, Act.relink, Links.close, Function.update_apply]
      split <;> rfl
  | free s rest =>
    apply Links.ext <;> try rfl
    all_goals
      funext i
      simp only [Act.perform, freeSession, Server.links, Server.modSess, Server.emit, Act.relink,
        Links.free, Function.update_apply]
      split <;> simp_all [Session.blank]
  | relay s c chunk ringAlloc queueAlloc =>
    simp only [Act.perform, enqueue_eq, Act.relink]
    refine (links_update_conn (readOutput srv s chunk ringAlloc) c (by simp) (by simp)).trans ?_
    exact links_update_sess srv s rfl rfl rfl rfl
  | read s chunk ringAlloc => exact links_update_sess srv s rfl rfl rfl rfl
  | move s gid =>
    simp only [Act.perform, moveSession_eq]
    exact links_update_sess srv s rfl rfl rfl rfl
  | reap pid status child =>
    simp only [Act.perform, markReaped_eq, Act.relink]
    apply Links.ext <;> try rfl
    all_goals
      funext i
      simp only [Server.links]
      split <;> rfl
  | escalate s =>
    simp only [Act.perform, epiSessionKill_eq]
    exact links_update_sess srv s rfl rfl rfl rfl
  | reset c =>
    refine links_update_conn srv c ?_ ?_ <;> (dsimp only; split <;> rfl)
  | watchPty s => exact links_update_sess srv s rfl rfl rfl rfl
  | setPin s => exact links_update_sess srv s rfl rfl rfl rfl
  | writePin s => exact links_update_sess srv s rfl rfl rfl rfl
  | updatePty s => exact links_update_sess srv s rfl rfl rfl rfl
  | update c => exact links_update_conn srv c rfl rfl
  | condemn c => exact links_update_conn srv c rfl rfl
  | write c n => exact links_update_conn srv c rfl rfl
  | failWrite c => exact links_update_conn srv c rfl rfl
  | eof s c => exact links_update_conn srv c rfl rfl
  | watchConn c => exact links_update_conn srv c rfl rfl
  | _ => rfl

theorem consistent_perform {srv : Server} {a : Act} (h : srv.links.Consistent)
    (hGuard : a.guard srv) : (a.perform srv).links.Consistent := by
  rw [links_perform hGuard]
  cases a with
  | attach c s ans =>
    obtain ⟨hc, hData, hs, hRemoved, hClient, _⟩ := hGuard
    have hFree : srv.links.bound c = none := by
      cases hBound : srv.links.bound c with
      | none => rfl
      | some t =>
        have hTrue := (h.bound_conn c t hBound).2
        rw [show srv.links.isData c = false from hData] at hTrue
        cases hTrue
    refine h.bind hc hFree hs ?_ hRemoved
    rcases hClient with hNone | hOwn
    · exact hNone
    · have hBound := (h.paired c s).mpr hOwn
      rw [hFree] at hBound
      cases hBound
  | unbind s c => exact h.unbind hGuard
  | closePty s => exact h.closePty s
  | unlink s => exact h.unlink hGuard.1 hGuard.2.1 hGuard.2.2.1
  | kill s clock => exact h.hide hGuard.2.1
  | fork => exact h.fork
  | create => exact h.create
  | openConn => exact h.openConn
  | close c => exact h.close c
  | free s rest => exact h.free hGuard
  | _ => exact h

theorem Server.initial_consistent (instanceId : Nat) :
    (Server.initial instanceId).links.Consistent := by
  constructor <;> simp [Server.initial, Server.links, Connection.blank, Session.blank]

end Epimone.Daemon
