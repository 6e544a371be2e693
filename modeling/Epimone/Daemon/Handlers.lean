import Epimone.Codec
import Epimone.Daemon.Links

/-! # The handlers of requests

Every handler performs a sequence of actions whose guards hold and answers in
one way: it refuses, having changed nothing that a client can see, or it sends
the one reply of its request, or it turns the connection into a data channel.
-/
set_option autoImplicit false

namespace Epimone.Daemon

open Transition

/-- The actions by which a request changes the rest of the daemon. -/
def Act.backstage : Act → Bool
  | .unbind .. | .update _ | .closePty _ | .unlink _ | .kill .. | .fork .. | .create .. | .watchPty _
  | .signal .. | .winsize .. | .newGroup _ | .setBlob .. | .move .. => true
  | _ => false

/-- The actions by which the requester is answered. -/
def Act.answers (c : ConnPtr) : Act → Bool
  | .queue d _ _ | .starve d | .attach d _ _ => d == c
  | _ => false

def Act.feeds : Act → Bool
  | .setPin .. | .writePin .. | .updatePty _ => true
  | _ => false

/-- The actions of conn_read. -/
def Act.inbound (c : ConnPtr) (a : Act) : Bool :=
  a.backstage || a.answers c || a.feeds ||
    match a with
    | .store d _ | .consume d _ | .freeInbound d | .condemn d | .frame d _ _ | .framingError d
    | .input _ d _ => d == c
    | _ => false

def Act.flushes (c : ConnPtr) : Act → Bool
  | .write d _ | .failWrite d | .reset d => d == c
  | _ => false

/-- The actions by which the output of a PTY reaches the ring and the client. -/
def Act.outputs (s : SessPtr) (client : Option ConnPtr) : Act → Bool
  | .read t _ _ => t == s
  | .relay t c _ _ _ => t == s && client == some c
  | .write c _ | .failWrite c | .reset c | .update c | .relayed c => client == some c
  | _ => false

/-- The actions of an event of a PTY. -/
def Act.ofPty (s : SessPtr) (client : Option ConnPtr) (a : Act) : Bool :=
  a.feeds || a.outputs s client ||
    match a with
    | .ptyHangup t | .closePty t | .unlink t => t == s
    | .unbind t c | .eof t c => t == s && client == some c
    | .shutdown c => client == some c
    | _ => false

def Act.ofSignal : Act → Bool
  | .reap .. | .unbind .. | .closePty _ | .unlink _ | .stop => true
  | _ => false

def Act.ofFinish : Act → Bool
  | .free .. | .escalate _ => true
  | _ => false

theorem perform_path {allowed : Act → Prop} {srv : Server} (a : Act) (hGuard : a.guard srv)
    (hAllowed : allowed a) : actions.Path allowed srv (a.perform srv) :=
  Actions.Path.single (A := actions) a hGuard hAllowed

theorem path_perform {allowed : Act → Prop} {srv mid : Server} (before : actions.Path allowed srv mid)
    (a : Act) (hGuard : a.guard mid) (hAllowed : allowed a) :
    actions.Path allowed srv (a.perform mid) :=
  Actions.Path.step (A := actions) a before hGuard hAllowed

theorem trace_path {allowed : Act → Prop} {srv srv' : Server} {Q : Effect → Prop}
    (hEffects : ∀ (t : Server) (a : Act), a.guard t → allowed a → ∀ e ∈ a.effects t, Q e)
    (h : actions.Path allowed srv srv') : ∃ es, srv'.trace = srv.trace ++ es ∧ ∀ e ∈ es, Q e := by
  induction h with
  | refl => exact ⟨[], (List.append_nil _).symm, fun e he => (nomatch he)⟩
  | step a before hGuard hAllowed ih =>
    obtain ⟨es, hTrace, hAll⟩ := ih
    refine ⟨es ++ _, (trace_perform _ a).trans (by rw [hTrace, List.append_assoc]), ?_⟩
    intro e he
    rcases List.mem_append.mp he with hOld | hNew
    · exact hAll e hOld
    · exact hEffects _ a hGuard hAllowed e hNew

theorem trace_mono {allowed : Act → Prop} {srv srv' : Server} (h : actions.Path allowed srv srv') :
    ∀ e ∈ srv.trace, e ∈ srv'.trace := by
  obtain ⟨es, hTrace, _⟩ := trace_path (Q := fun _ => True) (fun _ _ _ _ _ _ => trivial) h
  intro e he
  rw [hTrace]
  exact List.mem_append_left _ he

abbrev Backstage (srv srv' : Server) : Prop := actions.Path (fun a => a.backstage = true) srv srv'

/-- Everything that a request can ask about, but for the two counters of ids. -/
structure Unchanged (srv srv' : Server) : Prop where
  sessions : srv'.sessions = srv.sessions
  sess : ∀ s ∈ srv.sessions, srv'.sess s = srv.sess s
  groups : srv'.groups = srv.groups
  nextGroupId : srv'.nextGroupId = srv.nextGroupId
  instanceId : srv'.instanceId = srv.instanceId
  running : srv'.running = srv.running
  conns : srv'.conns = srv.conns
  bound : ∀ d, (srv'.conn d).session = (srv.conn d).session
  control : ∀ d, (srv'.conn d).isData = (srv.conn d).isData

/-- How a frame is answered. -/
inductive Outcome (srv : Server) (c : ConnPtr) (ans : FrameAnswers) (request : Option EpiMsgType) :
    Server → Prop where
  | refused (code : EpiErrCode) (msg : String) : Outcome srv c ans request (refuse srv c ans code msg)
  | uncreated {mid : Server} (hRequest : request = some .create) (before : Backstage srv mid)
    (hSame : Unchanged srv mid) (hNext : mid.nextId = srv.nextId ∨ mid.nextId = srv.nextId + 1)
    (code : EpiErrCode) (msg : String) : Outcome srv c ans request (refuse mid c ans code msg)
  | replied {mid : Server} {r : EpiMsgType} (hRequest : request = some r) (hPlain : r ≠ .attach)
    (before : Backstage srv mid) {b : EpiBuf} (hBody : ∃ body, b.Opened ans.bufAlloc r.reply body) :
    Outcome srv c ans request (reply mid c ans b)
  | attached {mid : Server} (hRequest : request = some .attach) (before : Backstage srv mid) (s : SessPtr)
    (hs : s ∈ mid.sessions) (hRemoved : (mid.sess s).removed = false)
    (hClient : (mid.sess s).client = none ∨ (mid.sess s).client = some c)
    (hRing : (mid.sess s).out = (srv.sess s).out) :
    Outcome srv c ans request (bindClient mid c ans s)

section Bodies

variable {alloc : Nat → Bool} {b : EpiBuf} {bytes : Bytes}

def infoBytes (k : Session) : Bytes :=
  u64Bytes k.id ++ littleEndian 4 k.pid ++ littleEndian 1 (if k.alive then 1 else 0) ++
    littleEndian 1 (if k.client.isSome then 1 else 0) ++ u64Bytes k.createdAt ++ strBytes (k.cwd.getD [])

def listBody (srv : Server) : Bytes :=
  littleEndian 4 (listed srv).length ++ (listed srv).flatMap (fun s => infoBytes (srv.sess s)) ++
    u64Bytes srv.instanceId

def peekBody (k : Session) (tail : Bytes) : Bytes :=
  u64Bytes k.id ++ blobBytes tail ++ u64Bytes k.out.ring.size

def groupBytes (srv : Server) (g : Group) : Bytes :=
  u64Bytes g.id ++ u64Bytes g.createdAt ++ blobBytes g.blob ++
    littleEndian 4 (groupMembers srv g.id).length ++
      (groupMembers srv g.id).flatMap fun s => u64Bytes (srv.sess s).id

def groupListBody (srv : Server) : Bytes :=
  u64Bytes srv.instanceId ++ littleEndian 4 srv.groups.length ++ srv.groups.flatMap (groupBytes srv)

theorem filled_putSessionInfo (h : b.Filled alloc bytes) (k : Session) :
    (putSessionInfo alloc b k).Filled alloc (bytes ++ infoBytes k) := by
  have hAll := (((((h.putU64 k.id).putU32 k.pid).putU8 (if k.alive then 1 else 0)).putU8
    (if k.client.isSome then 1 else 0)).putU64 k.createdAt).putStr (k.cwd.getD [])
  simp only [List.append_assoc] at hAll
  simp only [infoBytes, List.append_assoc]
  exact hAll

theorem filled_putGroup {srv : Server} {ans : FrameAnswers} (h : b.Filled ans.bufAlloc bytes) (g : Group) :
    (putGroup srv ans b g).Filled ans.bufAlloc (bytes ++ groupBytes srv g) := by
  have hHead := (((h.putU64 g.id).putU64 g.createdAt).putBlob g.blob).putU32 (groupMembers srv g.id).length
  have hAll := hHead.foldl (P := fun b s => epiBufPutU64 ans.bufAlloc b (srv.sess s).id)
    (E := fun s => u64Bytes (srv.sess s).id) (groupMembers srv g.id) fun b bytes s _ hb => hb.putU64 _
  rw [← putMembers_eq, ← countGroupMembers_eq] at hAll
  simp only [List.append_assoc] at hAll
  simp only [groupBytes, ← countGroupMembers_eq, List.append_assoc]
  exact hAll

theorem filled_peekReply (h : b.Filled alloc bytes) (k : Session) (tail : Bytes) :
    (epiBufPutU64 alloc (epiBufPutBlob alloc (epiBufPutU64 alloc b k.id) tail) k.out.ring.size).Filled
      alloc (bytes ++ peekBody k tail) := by
  have hAll := ((h.putU64 k.id).putBlob tail).putU64 k.out.ring.size
  simp only [List.append_assoc] at hAll
  simp only [peekBody, List.append_assoc]
  exact hAll

theorem opened_handleList (srv : Server) (c : ConnPtr) (ans : FrameAnswers) :
    ∃ b, handleList srv c ans = reply srv c ans b ∧ b.Opened ans.bufAlloc .listReply (listBody srv) := by
  have hPut : ∀ bytes, (epiMsgStart ans.bufAlloc .listReply).Filled ans.bufAlloc bytes →
      (epiBufPutU64 ans.bufAlloc (putShown srv ans (epiBufPutU32 ans.bufAlloc
        (epiMsgStart ans.bufAlloc .listReply) (countShown srv))) srv.instanceId).Filled ans.bufAlloc
        (bytes ++ listBody srv) := by
    intro bytes hStart
    have hArray := (hStart.putU32 (listed srv).length).foldl
      (P := fun b s => putSessionInfo ans.bufAlloc b (srv.sess s)) (E := fun s => infoBytes (srv.sess s))
      (listed srv) fun b bytes s _ hb => filled_putSessionInfo hb _
    rw [← putShown_eq, ← countShown_eq] at hArray
    have hAll := hArray.putU64 srv.instanceId
    simp only [List.append_assoc] at hAll
    simp only [listBody, ← countShown_eq, List.append_assoc]
    exact hAll
  exact ⟨_, rfl, (opened_epiMsgStart .listReply).put hPut⟩

theorem opened_handleGroupList (srv : Server) (c : ConnPtr) (ans : FrameAnswers) :
    ∃ b, handleGroupList srv c ans = reply srv c ans b ∧
      b.Opened ans.bufAlloc .groupListReply (groupListBody srv) := by
  have hPut : ∀ bytes, (epiMsgStart ans.bufAlloc .groupListReply).Filled ans.bufAlloc bytes →
      (srv.groups.foldl (putGroup srv ans) (epiBufPutU32 ans.bufAlloc
        (epiBufPutU64 ans.bufAlloc (epiMsgStart ans.bufAlloc .groupListReply) srv.instanceId)
        (countGroups srv))).Filled ans.bufAlloc (bytes ++ groupListBody srv) := by
    intro bytes hStart
    have hAll := ((hStart.putU64 srv.instanceId).putU32 (countGroups srv)).foldl (P := putGroup srv ans)
      (E := groupBytes srv) srv.groups fun b bytes g _ hb => filled_putGroup hb g
    simp only [List.append_assoc] at hAll
    simp only [groupListBody, ← countGroups_eq, List.append_assoc]
    exact hAll
  exact ⟨_, rfl, (opened_epiMsgStart .groupListReply).put hPut⟩

end Bodies

section Requests

variable {srv : Server} {c : ConnPtr} {ans : FrameAnswers}

theorem backstage_detachClient (h : srv.links.Consistent) (s : SessPtr) :
    Backstage srv (detachClient srv s) := by
  unfold detachClient
  cases hClient : (srv.sess s).client with
  | none => exact .refl _
  | some d =>
    have hd : d ∈ srv.conns := (h.bound_conn d s ((h.paired d s).mpr hClient)).1
    have hUnbind : Backstage srv _ := perform_path (.unbind s d) hClient rfl
    exact path_perform hUnbind (.update d) hd rfl

@[simp] theorem detachClient_client (srv : Server) (s : SessPtr) :
    ((detachClient srv s).sess s).client = none := by
  unfold detachClient
  cases hClient : (srv.sess s).client with
  | none => exact hClient
  | some d => simp [unbindClient, connUpdate, Server.modSess, Server.modConn, Server.emit]

theorem detachClient_sess (srv : Server) (s t : SessPtr) :
    ∃ client, (detachClient srv s).sess t = { srv.sess t with client := client } := by
  unfold detachClient
  cases hClient : (srv.sess s).client with
  | none => exact ⟨_, rfl⟩
  | some d =>
    simp only [unbindClient, connUpdate, Server.modSess, Server.modConn, Server.emit]
    by_cases hSame : t = s
    · subst hSame; rw [Function.update_self]; exact ⟨_, rfl⟩
    · rw [Function.update_of_ne hSame]; exact ⟨_, rfl⟩

@[simp] theorem detachClient_sessions (srv : Server) (s : SessPtr) :
    (detachClient srv s).sessions = srv.sessions := by
  unfold detachClient; split <;> rfl

@[simp] theorem detachClient_conns (srv : Server) (s : SessPtr) :
    (detachClient srv s).conns = srv.conns := by
  unfold detachClient; split <;> rfl

@[simp] theorem detachClient_isData (srv : Server) (s : SessPtr) (d : ConnPtr) :
    ((detachClient srv s).conn d).isData = (srv.conn d).isData := by
  unfold detachClient
  split
  · rfl
  · rename_i e _
    simp only [unbindClient, connUpdate, Server.modSess, Server.modConn, Server.emit]
    by_cases hSame : d = e
    · subst hSame; simp
    · simp [Function.update_of_ne hSame]

theorem noteLeft_congr (s : SessPtr) {k k' : Session} (hRemoved : k.removed = k'.removed)
    (hGroup : k.groupId = k'.groupId) (srv : Server) : noteLeft srv s k = noteLeft srv s k' := by
  rw [noteLeft, noteLeft, hRemoved, hGroup]

theorem Server.MayLeave.of_effects {srv' : Server} {s : SessPtr} (h : srv.MayLeave s)
    (hAlive : (srv'.sess s).alive = (srv.sess s).alive)
    (hRemoved : (srv'.sess s).removed = (srv.sess s).removed) (es : List Effect)
    (hTrace : srv'.trace = srv.trace ++ es) (hQuiet : ∀ d, .killed s d ∉ es) : srv'.MayLeave s := by
  unfold MayLeave
  rw [hAlive, hRemoved]
  refine h.imp_right (Or.imp_right ?_)
  rintro ⟨before, after, hSplit, hAfter⟩
  refine ⟨before, after ++ es, by rw [hTrace, hSplit]; simp, ?_⟩
  intro d hKilled
  exact (List.mem_append.mp hKilled).elim (hAfter d) (hQuiet d)

theorem path_dropClient {allowed : Act → Prop} (s : SessPtr)
    (hUnbind : ∀ d, (srv.sess s).client = some d → allowed (.unbind s d)) :
    actions.Path allowed srv (dropClient srv s) ∧ (dropClient srv s).sessions = srv.sessions ∧
      (dropClient srv s).sess s = { srv.sess s with client := none } ∧
      (srv.MayLeave s → (dropClient srv s).MayLeave s) := by
  unfold dropClient
  cases hClient : (srv.sess s).client with
  | none => exact ⟨.refl _, rfl, by dsimp only; rw [← hClient], id⟩
  | some d =>
    refine ⟨perform_path (.unbind s d) hClient (hUnbind d hClient), rfl, ?_, ?_⟩
    · simp [unbindClient, Server.modSess, Server.modConn, Server.emit]
    · intro hLeave
      exact hLeave.of_effects (by simp [unbindClient, Server.modSess, Server.modConn, Server.emit])
        (by simp [unbindClient, Server.modSess, Server.modConn, Server.emit]) [.detached d s, .shutdown d]
        (by simp [unbindClient, Server.modSess, Server.modConn, Server.emit]) (by simp)

theorem path_shutPty {allowed : Act → Prop} (s : SessPtr) (hClose : allowed (.closePty s)) :
    ∃ srv', (if (srv.sess s).ptyOpen then closePty srv s else srv) = srv' ∧
      actions.Path allowed srv srv' ∧ srv'.sessions = srv.sessions ∧
      (srv'.sess s).client = (srv.sess s).client ∧ (srv'.sess s).ptyOpen = false ∧
      (srv'.sess s).removed = (srv.sess s).removed ∧ (srv'.sess s).groupId = (srv.sess s).groupId ∧
      (srv.MayLeave s → srv'.MayLeave s) := by
  refine ⟨_, rfl, ?_⟩
  split
  · rename_i hOpen
    refine ⟨perform_path (.closePty s) hOpen hClose, rfl, ?_⟩
    refine ⟨?_, ?_, ?_, ?_, fun hLeave => hLeave.of_effects ?_ ?_ [.ptyClosed s] rfl (by simp)⟩ <;>
      simp [closePty, Server.modSess, Server.emit]
  · rename_i hShut
    exact ⟨.refl _, rfl, rfl, by simpa using hShut, rfl, rfl, id⟩

theorem path_removeSession {allowed : Act → Prop} {s : SessPtr} (hs : s ∈ srv.sessions)
    (hUnbind : ∀ d, (srv.sess s).client = some d → allowed (.unbind s d))
    (hClose : allowed (.closePty s)) (hUnlink : allowed (.unlink s)) (hLeave : srv.MayLeave s) :
    actions.Path allowed srv (removeSession srv s) := by
  unfold removeSession
  dsimp only
  split
  · exact .refl _
  obtain ⟨hDropped, hSessions, hSess, hLeave'⟩ := path_dropClient s hUnbind
  have hOpen : (srv.sess s).ptyOpen = ((dropClient srv s).sess s).ptyOpen := by rw [hSess]
  have hRemoved : (srv.sess s).removed = ((dropClient srv s).sess s).removed := by rw [hSess]
  have hGroup : (srv.sess s).groupId = ((dropClient srv s).sess s).groupId := by rw [hSess]
  obtain ⟨srv', hShut, hPath, hSessions', hClient', hClosed, hRemoved', hGroup', hLeave''⟩ :=
    @path_shutPty (dropClient srv s) allowed s hClose
  rw [hOpen, hShut, noteLeft_congr s (hRemoved.trans hRemoved'.symm) (hGroup.trans hGroup'.symm),
    hGroup, ← hGroup']
  refine path_perform (hDropped.trans hPath) (.unlink s)
    ⟨?_, ?_, hClosed, hLeave'' (hLeave' hLeave)⟩ hUnlink
  · rw [hSessions', hSessions]; exact hs
  · rw [hClient', hSess]

theorem backstage_removeSession {s : SessPtr} (hs : s ∈ srv.sessions) (hLeave : srv.MayLeave s) :
    Backstage srv (removeSession srv s) :=
  path_removeSession hs (fun _ _ => rfl) rfl rfl hLeave

theorem forkpty_eq_some {answer : Option Nat} {pid : Nat} (h : srv.forkpty answer = some pid) :
    pid ≠ 0 ∧ srv.childOf pid = none := by
  obtain ⟨_, hPid⟩ := Option.filter_eq_some_iff.mp h
  simpa using hPid

theorem backstage_orphan {pid : Nat} (hPid : pid ≠ 0) (hFree : srv.childOf pid = none)
    (cwd : Option Bytes) (argv : List Bytes) (env : Option (List Bytes)) (exec : Option Bytes) :
    Backstage srv ((forked srv pid cwd argv env exec).kill pid .hup) := by
  have hForked : Backstage srv (forked srv pid cwd argv env exec) :=
    perform_path (.fork pid cwd argv env exec) ⟨hPid, hFree⟩ rfl
  refine path_perform hForked (.signal pid .hup) ⟨rfl, Or.inr ?_⟩ rfl
  simp [forked, Server.emit, Server.childOf]

theorem removeSession_fresh {s : SessPtr} (hDefunct : (srv.sess s).defunct = false)
    (hClient : (srv.sess s).client = none) (hGroup : (srv.sess s).groupId = 0) :
    removeSession srv s = unlinkSession (if (srv.sess s).ptyOpen then closePty srv s else srv) s := by
  have hLeft : ∀ t : Server, gcGroupIfEmpty (noteLeft t s (srv.sess s)) (srv.sess s).groupId = t := by
    intro t
    simp [hGroup, noteLeft, gcGroupIfEmpty]
  have hDrop : dropClient srv s = srv := by simp [dropClient, hClient]
  unfold removeSession
  simp only [hDefunct, hDrop, hLeft]
  rfl

theorem Unchanged.refl (srv : Server) : Unchanged srv srv :=
  ⟨rfl, fun _ _ => rfl, rfl, rfl, rfl, rfl, rfl, fun _ => rfl, fun _ => rfl⟩

/-- CREATE without a session leaves no trace but the child it could not keep. -/
theorem createSession_spec (srv : Server) (cwd : Option Bytes) (argv env : Option (List Bytes))
    (execPath : Option Bytes) (ans : SpawnAnswers) :
    (∃ srv', createSession srv cwd argv env execPath ans = (srv', none) ∧ Backstage srv srv' ∧
      Unchanged srv srv' ∧ srv'.nextId = srv.nextId) ∨
      ∃ pid cwd' argv' env' exec' k,
        (Act.create pid cwd' argv' env' exec' k).guard srv ∧
        createSession srv cwd argv env execPath ans =
          ((Act.create pid cwd' argv' env' exec' k).perform srv, some srv.nextSess) := by
  unfold createSession epiSessionSpawn
  by_cases hAlloc : ans.sessionAlloc
  · simp only [hAlloc, Bool.not_true, Bool.false_eq_true, ↓reduceIte]
    cases OutRing.init ans.ringAlloc with
    | none => exact Or.inl ⟨srv, rfl, .refl _, .refl _, rfl⟩
    | some out =>
      dsimp only
      cases hFork : srv.forkpty ans.forkpty with
      | none => exact Or.inl ⟨srv, rfl, .refl _, .refl _, rfl⟩
      | some pid =>
        obtain ⟨hPid, hFree⟩ := forkpty_eq_some hFork
        dsimp only
        by_cases hBlock : ans.nonblock
        · simp only [hBlock, Bool.not_true, Bool.false_eq_true, ↓reduceIte]
          exact Or.inr ⟨pid, _, _, _, _, _, ⟨hPid, hFree, ⟨rfl, rfl, rfl, rfl, rfl, rfl, rfl, rfl⟩⟩, rfl⟩
        · simp only [hBlock, Bool.not_false, ↓reduceIte]
          refine Or.inl ⟨_, rfl, backstage_orphan hPid hFree _ _ _ _, ?_, rfl⟩
          exact ⟨rfl, fun _ _ => rfl, rfl, rfl, rfl, rfl, rfl, fun _ => rfl, fun _ => rfl⟩
  · simp only [hAlloc, Bool.not_false, ↓reduceIte]
    exact Or.inl ⟨srv, rfl, .refl _, .refl _, rfl⟩

/-- The session of a CREATE that could not be watched is gone again, and with it only its id. -/
theorem unchanged_unwatched (h : srv.links.Consistent) {pid : Nat} {cwd : Option Bytes}
    {argv : List Bytes} {env : Option (List Bytes)} {exec : Option Bytes} {k : Session}
    (hFresh : k.Fresh pid) :
    Unchanged srv (removeSession ((Act.create pid cwd argv env exec k).perform srv) srv.nextSess) ∧
      (removeSession ((Act.create pid cwd argv env exec k).perform srv) srv.nextSess).nextId =
        srv.nextId + 1 := by
  have hCell : ((Act.create pid cwd argv env exec k).perform srv).sess srv.nextSess =
      { k with id := srv.nextId + 1 } := by
    simp [Act.perform, linkSession, forked, Server.modSess, Server.emit]
  rw [removeSession_fresh (by rw [hCell]; exact hFresh.defunct) (by rw [hCell]; exact hFresh.client)
    (by rw [hCell]; exact hFresh.groupId), hCell, if_pos hFresh.ptyOpen]
  refine ⟨⟨?_, ?_, rfl, rfl, rfl, rfl, rfl, fun _ => rfl, fun _ => rfl⟩, rfl⟩
  · exact List.erase_cons_head srv.nextSess srv.sessions
  · intro s hs
    have hOld : s ≠ srv.nextSess := Nat.ne_of_lt (h.sessions_lt s hs)
    simp [Act.perform, linkSession, forked, unlinkSession, closePty, Server.modSess, Server.emit, hOld]

theorem findSession_spec {id : Nat} {s : SessPtr} (h : findSession srv id false = some s) :
    s ∈ srv.sessions ∧ (srv.sess s).id = id ∧ (srv.sess s).removed = false := by
  refine ⟨List.mem_of_find?_eq_some h, ?_⟩
  have hMatch := List.find?_some h
  simpa using hMatch

variable {request : Option EpiMsgType}

theorem outcome_acknowledge {mid : Server} {r : EpiMsgType} (hReply : r.reply = .ok)
    (h : Backstage srv mid) : Outcome srv c ans (some r) (acknowledge mid c ans) := by
  refine .replied rfl ?_ h ⟨[], ?_⟩
  · rintro rfl
    cases hReply
  · rw [hReply]
    exact opened_epiMsgStart .ok

theorem outcome_withSession (r : EpiRd) (id : Nat) (malformed : String) {handle : SessPtr → Server}
    (hHandle : ∀ s ∈ srv.sessions, (srv.sess s).removed = false →
      Outcome srv c ans request (handle s)) :
    Outcome srv c ans request (withSession srv c ans r id malformed handle) := by
  unfold withSession
  split
  · exact .refused _ _
  cases hFind : findSession srv id false with
  | none => exact .refused _ _
  | some s =>
    obtain ⟨hs, _, hRemoved⟩ := findSession_spec hFind
    exact hHandle s hs hRemoved

theorem outcome_handleCreate (h : srv.links.Consistent) (r : EpiRd) :
    Outcome srv c ans (some .create) (handleCreate srv c ans r) := by
  unfold handleCreate
  split
  split
  split
  split
  split
  · exact .refused _ _
  rename_i cwd _ _ _ argv _ _ _ env _ _ _ execPath _ _ _
  rcases createSession_spec srv cwd argv env execPath ans.spawn with
    ⟨srv', hNone, hPath, hSame, hNext⟩ | ⟨pid, cwd', argv', env', exec', k, hGuard, hSome⟩
  · rw [hNone]
    exact .uncreated rfl hPath hSame (Or.inl hNext) _ _
  · rw [hSome]
    have hCreate : Backstage srv _ := perform_path (.create pid cwd' argv' env' exec' k) hGuard rfl
    have hListed : srv.nextSess ∈ ((Act.create pid cwd' argv' env' exec' k).perform srv).sessions :=
      List.mem_cons_self
    have hFresh : (((Act.create pid cwd' argv' env' exec' k).perform srv).sess srv.nextSess).removed =
        false := by
      simp [Act.perform, linkSession, Server.modSess, Server.emit, hGuard.2.2.removed]
    dsimp only
    split
    · obtain ⟨hSame, hNext⟩ := @unchanged_unwatched srv h pid cwd' argv' env' exec' k hGuard.2.2
      exact .uncreated rfl (hCreate.trans (backstage_removeSession hListed (Or.inr (Or.inl hFresh))))
        hSame (Or.inr hNext) _ _
    · refine .replied rfl (by decide) (path_perform hCreate (.watchPty srv.nextSess) hListed rfl) ?_
      exact ⟨_, (opened_epiMsgStart .id).put fun bytes hb => hb.putU64 _⟩

theorem outcome_handleList : Outcome srv c ans (some .list) (handleList srv c ans) := by
  obtain ⟨b, hReply, hBody⟩ := opened_handleList srv c ans
  rw [hReply]
  exact .replied rfl (by decide) (.refl _) ⟨_, hBody⟩

theorem outcome_handleAttach (h : srv.links.Consistent) (r : EpiRd) :
    Outcome srv c ans (some .attach) (handleAttach srv c ans r) := by
  unfold handleAttach
  split
  refine outcome_withSession _ _ _ fun s hs hRemoved => ?_
  dsimp only
  split
  · obtain ⟨client, hSame⟩ := detachClient_sess srv s s
    refine .attached rfl (backstage_detachClient h s) s ?_ ?_ (Or.inl (detachClient_client srv s)) ?_
    · rw [detachClient_sessions]; exact hs
    · rw [hSame]; exact hRemoved
    · rw [hSame]
  · rename_i hClient
    refine .attached rfl (.refl _) s hs hRemoved ?_ rfl
    by_cases hNone : (srv.sess s).client = none
    · exact Or.inl hNone
    · exact Or.inr (Classical.not_not.mp fun hOther => hClient ⟨hNone, hOther⟩)

theorem backstage_epiSessionHangup {s : SessPtr} (hs : s ∈ srv.sessions) :
    Backstage srv (epiSessionHangup srv s) := by
  unfold epiSessionHangup
  dsimp only
  split
  · rename_i hAlive
    exact perform_path (.signal _ .hup) ⟨rfl, Or.inl ⟨s, hs, hAlive.1, rfl⟩⟩ rfl
  · exact .refl _

theorem outcome_handleKill (h : srv.links.Consistent) (r : EpiRd) :
    Outcome srv c ans (some .kill) (handleKill srv c ans r) := by
  unfold handleKill
  split
  refine outcome_withSession _ _ _ fun s hs hRemoved => ?_
  have hDetach := backstage_detachClient h s
  obtain ⟨client, hSame⟩ := detachClient_sess srv s s
  have hListed : s ∈ (detachClient srv s).sessions := by rw [detachClient_sessions]; exact hs
  dsimp only
  split
  · rename_i hDead
    have hLeave : (detachClient srv s).MayLeave s := Or.inl (by simpa using hDead)
    exact outcome_acknowledge rfl (hDetach.trans (backstage_removeSession hListed hLeave))
  · rename_i hAlive
    refine outcome_acknowledge rfl (path_perform (hDetach.trans (backstage_epiSessionHangup hListed))
      (.kill s ans.clock) ?_ rfl)
    have hQuiet : (epiSessionHangup (detachClient srv s) s).sess = (detachClient srv s).sess ∧
        (epiSessionHangup (detachClient srv s) s).sessions = (detachClient srv s).sessions := by
      unfold epiSessionHangup Server.kill
      dsimp only
      split <;> exact ⟨rfl, rfl⟩
    change _ ∈ _ ∧ _ ∧ _ ∧ _
    rw [hQuiet.1, hQuiet.2]
    refine ⟨hListed, detachClient_client srv s, by simpa using hAlive, ?_⟩
    rw [hSame]
    exact hRemoved

theorem outcome_handleResize (r : EpiRd) : Outcome srv c ans (some .resize) (handleResize srv c ans r) := by
  unfold handleResize
  split
  split
  split
  refine outcome_withSession _ _ _ fun s hs _ => outcome_acknowledge rfl ?_
  unfold epiSessionResize
  split
  · exact .refl _
  · exact perform_path (.winsize s _ _) hs rfl

theorem outcome_handleDetach (h : srv.links.Consistent) (r : EpiRd) :
    Outcome srv c ans (some .detach) (handleDetach srv c ans r) := by
  unfold handleDetach
  split
  exact outcome_withSession _ _ _ fun s _ _ => outcome_acknowledge rfl (backstage_detachClient h s)

theorem outcome_handlePeek (r : EpiRd) : Outcome srv c ans (some .peek) (handlePeek srv c ans r) := by
  unfold handlePeek
  split
  split
  refine outcome_withSession _ _ _ fun s _ _ => .replied rfl (by decide) (.refl _) ?_
  exact ⟨_, (opened_epiMsgStart .peekReply).put fun bytes hb => filled_peekReply hb _ _⟩

theorem outcome_handleGroupNew (r : EpiRd) :
    Outcome srv c ans (some .groupNew) (handleGroupNew srv c ans r) := by
  unfold handleGroupNew
  split
  dsimp only
  split
  · exact .refused _ _
  split
  · exact .refused _ _
  split
  · exact .refused _ _
  split
  · exact .refused _ _
  · rename_i g _
    refine .replied rfl (by decide) (perform_path (.newGroup g) trivial rfl) ?_
    exact ⟨_, (opened_epiMsgStart .groupId).put fun bytes hb => hb.putU64 _⟩

theorem outcome_handleGroupSet (r : EpiRd) :
    Outcome srv c ans (some .groupSet) (handleGroupSet srv c ans r) := by
  unfold handleGroupSet
  split
  split
  dsimp only
  split
  · exact .refused _ _
  split
  · exact .refused _ _
  split
  · exact .refused _ _
  rename_i g hFind
  split
  · exact .refused _ _
  · exact outcome_acknowledge rfl (perform_path (.setBlob _ _) (by rw [Act.guard, hFind]; simp) rfl)

theorem outcome_handleGroupAdd (r : EpiRd) :
    Outcome srv c ans (some .groupAdd) (handleGroupAdd srv c ans r) := by
  unfold handleGroupAdd
  split
  split
  split
  · exact .refused _ _
  split
  · exact .refused _ _
  rename_i hGroup
  split
  · exact .refused _ _
  · rename_i s hFind
    obtain ⟨hs, _, hRemoved⟩ := findSession_spec hFind
    exact outcome_acknowledge rfl (perform_path (.move s _) ⟨hs, hRemoved, Or.inr hGroup⟩ rfl)

/-- GROUP_REMOVE is the move of the session to no group. -/
theorem gcGroupIfEmpty_assign (srv : Server) (s : SessPtr) :
    gcGroupIfEmpty (assignGroup srv s 0) (srv.sess s).groupId = moveSession srv s 0 := by
  unfold moveSession
  dsimp only
  split
  · rfl
  · rename_i hZero
    rw [Classical.not_not.mp hZero]
    rfl

theorem outcome_handleGroupRemove (r : EpiRd) :
    Outcome srv c ans (some .groupRemove) (handleGroupRemove srv c ans r) := by
  unfold handleGroupRemove
  split
  refine outcome_withSession _ _ _ fun s hs hRemoved => outcome_acknowledge rfl ?_
  rw [gcGroupIfEmpty_assign]
  exact perform_path (.move s 0) ⟨hs, hRemoved, Or.inl rfl⟩ rfl

theorem outcome_handleGroupList : Outcome srv c ans (some .groupList) (handleGroupList srv c ans) := by
  obtain ⟨b, hReply, hBody⟩ := opened_handleGroupList srv c ans
  rw [hReply]
  exact .replied rfl (by decide) (.refl _) ⟨_, hBody⟩

theorem outcome_dispatchFrame (h : srv.links.Consistent) (ans : FrameAnswers) (type : Nat)
    (body : Bytes) :
    Outcome srv c ans (EpiMsgType.ofRequest type) (dispatchFrame srv c ans type body) := by
  unfold dispatchFrame
  dsimp only
  split <;> rename_i hType
  · rw [hType]; exact outcome_handleCreate h _
  · rw [hType]; exact outcome_handleList
  · rw [hType]; exact outcome_handleAttach h _
  · rw [hType]; exact outcome_handleKill h _
  · rw [hType]; exact outcome_handleResize _
  · rw [hType]; exact outcome_handleDetach h _
  · rw [hType]; exact outcome_handlePeek _
  · rw [hType]; exact outcome_handleGroupNew _
  · rw [hType]; exact outcome_handleGroupSet _
  · rw [hType]; exact outcome_handleGroupAdd _
  · rw [hType]; exact outcome_handleGroupRemove _
  · rw [hType]; exact outcome_handleGroupList
  · exact .refused _ _

end Requests

end Epimone.Daemon
