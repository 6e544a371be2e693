import Epimone.Daemon.Actions

/-! # What the actions do

`connQueue` described by its effect on the unsent bytes, and the steps of the
daemon that branch brought into the form of one record update. `Act.effects`
lists what each action adds to the trace.
-/
set_option autoImplicit false

namespace Epimone.Daemon

section Queue

variable (k : Connection) (data : Bytes) (alloc : Bool)

theorem Connection.unsent_ne_nil_iff {k : Connection} : k.unsent ≠ [] ↔ k.wpos < k.wlen := by
  rw [unsent, wlen, Ne, List.drop_eq_nil_iff]
  exact Nat.not_le

theorem Connection.unsent_length {k : Connection} : k.unsent.length = k.wlen - k.wpos := by
  rw [unsent, wlen, List.length_drop]

def compacted (k : Connection) : Connection :=
  if 0 < k.wpos then { k with wbuf := k.wbuf.drop k.wpos, wpos := 0 } else k

theorem compacted_eq : compacted k = { k with wbuf := k.unsent, wpos := 0 } := by
  unfold compacted Connection.unsent
  split
  · rfl
  · rename_i hZero
    have hPos : k.wpos = 0 := Nat.eq_zero_of_not_pos hZero
    cases k
    simp_all

theorem connQueue_nil : connQueue k [] alloc = k := rfl

theorem connQueue_eq (hData : data ≠ []) :
    connQueue k data alloc =
      if k.growthFails data.length alloc then { compacted k with wantClose := true }
      else
        { k with
          wbuf := k.unsent ++ data
          wpos := 0
          wcap := if k.wcap < k.unsent.length + data.length then
              grownCapacity (k.unsent.length + data.length) k.wcap else k.wcap
          wantClose := k.wantClose || decide (maxWbuf < k.unsent.length + data.length) } := by
  rw [connQueue, if_neg hData]
  change (if (compacted k).growthFails data.length alloc then _ else _) = _
  have hFails : (compacted k).growthFails data.length alloc = k.growthFails data.length alloc := by
    rw [compacted_eq]; rfl
  rw [hFails]
  split
  · rfl
  · dsimp only
    rw [show (if 0 < k.wpos then { k with wbuf := k.wbuf.drop k.wpos, wpos := 0 } else k) =
      { k with wbuf := k.unsent, wpos := 0 } from compacted_eq k]
    simp only [Connection.wlen]
    by_cases hCap : k.wcap < k.unsent.length + data.length <;>
      by_cases hTrip : maxWbuf < k.unsent.length + data.length <;>
      simp [hCap, hTrip]

@[simp] theorem connQueue_session : (connQueue k data alloc).session = k.session := by
  by_cases hData : data = []
  · rw [hData, connQueue_nil]
  · rw [connQueue_eq _ _ _ hData, compacted_eq]; split <;> rfl

@[simp] theorem connQueue_isData : (connQueue k data alloc).isData = k.isData := by
  by_cases hData : data = []
  · rw [hData, connQueue_nil]
  · rw [connQueue_eq _ _ _ hData, compacted_eq]; split <;> rfl

@[simp] theorem connQueue_events : (connQueue k data alloc).events = k.events := by
  by_cases hData : data = []
  · rw [hData, connQueue_nil]
  · rw [connQueue_eq _ _ _ hData, compacted_eq]; split <;> rfl

@[simp] theorem connQueue_polled : (connQueue k data alloc).polled = k.polled := by
  rw [Connection.polled, connQueue_events, Connection.polled]

variable {k data alloc}

theorem connQueue_unsent (h : k.growthFails data.length alloc = false) :
    (connQueue k data alloc).unsent = k.unsent ++ data := by
  by_cases hData : data = []
  · rw [hData, connQueue_nil, List.append_nil]
  · rw [connQueue_eq _ _ _ hData, if_neg (by rw [h]; decide)]
    rfl

theorem connQueue_unsent_of_fails (h : k.growthFails data.length alloc = true) :
    (connQueue k data alloc).unsent = k.unsent := by
  by_cases hData : data = []
  · rw [hData, connQueue_nil]
  · rw [connQueue_eq _ _ _ hData, if_pos h, compacted_eq]
    rfl

theorem connQueue_wpos_le (h : k.wpos ≤ k.wlen) :
    (connQueue k data alloc).wpos ≤ (connQueue k data alloc).wlen := by
  by_cases hData : data = []
  · rw [hData, connQueue_nil]; exact h
  · rw [connQueue_eq _ _ _ hData, compacted_eq]
    split <;> exact Nat.zero_le _

theorem connQueue_wantClose (hData : data ≠ []) :
    (connQueue k data alloc).wantClose = true ↔
      k.wantClose = true ∨ k.growthFails data.length alloc = true ∨
        maxWbuf < k.unsent.length + data.length ∧ k.growthFails data.length alloc = false := by
  rw [connQueue_eq _ _ _ hData]
  cases hFails : k.growthFails data.length alloc <;> simp

theorem connQueue_wantClose_mono (h : k.wantClose = true) :
    (connQueue k data alloc).wantClose = true := by
  by_cases hData : data = []
  · rw [hData, connQueue_nil]; exact h
  · exact (connQueue_wantClose hData).mpr (Or.inl h)

end Queue

section NormalForms

variable (srv : Server)

def enqueueEffects (k : Connection) (c : ConnPtr) (data : Bytes) (relay alloc : Bool) : List Effect :=
  if data = [] then []
  else
    let failed := k.growthFails data.length alloc
    .enqueued c ⟨k.unsent.length, data.length, k.polled, k.wantClose, relay, failed⟩ ::
      if failed then [.allocFailed c] else []

theorem enqueue_eq (c : ConnPtr) (data : Bytes) (relay alloc : Bool) :
    enqueue srv c data relay alloc =
      { srv with
        conn := Function.update srv.conn c (connQueue (srv.conn c) data alloc)
        trace := srv.trace ++ enqueueEffects (srv.conn c) c data relay alloc } := by
  unfold enqueue enqueueEffects
  by_cases hData : data = []
  · rw [if_pos hData, if_pos hData, hData, connQueue_nil, Function.update_eq_self, List.append_nil]
  · rw [if_neg hData, if_neg hData]
    dsimp only
    cases hFails : (srv.conn c).growthFails data.length alloc <;>
      simp [Server.modConn, Server.emit]

/-- The group has just lost its last member. -/
def collectable (gid : Nat) : Bool :=
  decide (gid ≠ 0) && (findGroup srv gid).isSome && (groupMembers srv gid).isEmpty

def survivors (gid : Nat) : List Group :=
  if collectable srv gid then srv.groups.eraseP fun g => g.id == gid else srv.groups

def goneEffects (gid : Nat) : List Effect := if collectable srv gid then [.groupGone gid] else []

theorem gcGroupIfEmpty_eq (gid : Nat) :
    gcGroupIfEmpty srv gid =
      { srv with groups := survivors srv gid, trace := srv.trace ++ goneEffects srv gid } := by
  unfold gcGroupIfEmpty survivors goneEffects collectable
  by_cases hZero : gid = 0
  · simp [hZero]
  · rw [if_neg hZero]
    cases hFind : findGroup srv gid with
    | none => simp
    | some g =>
      have hId : g.id = gid := by
        have hMatch := List.find?_some hFind
        simpa using hMatch
      dsimp only
      cases hMembers : groupMembers srv gid with
      | nil => simp [countGroupMembers_eq, hMembers, unlinkGroup, Server.emit, hId, hZero]
      | cons s rest => simp [countGroupMembers_eq, hMembers]

def leftEffects (s : SessPtr) (k : Session) : List Effect :=
  if k.removed || k.groupId == 0 then [] else [.groupLeft k.groupId s]

theorem noteLeft_eq (s : SessPtr) (k : Session) :
    noteLeft srv s k = { srv with trace := srv.trace ++ leftEffects s k } := by
  unfold noteLeft leftEffects
  split <;> simp [Server.emit]

def queueFrame (k : Connection) (b : EpiBuf) (alloc : Bool) : Connection :=
  if b.oom then k else connQueue k b.data alloc

def frameEffects (k : Connection) (c : ConnPtr) (b : EpiBuf) (alloc : Bool) : List Effect :=
  if b.oom then [.allocFailed c] else enqueueEffects k c b.data false alloc

@[simp] theorem queueFrame_session (k : Connection) (b : EpiBuf) (alloc : Bool) :
    (queueFrame k b alloc).session = k.session := by
  unfold queueFrame; split <;> simp

@[simp] theorem queueFrame_isData (k : Connection) (b : EpiBuf) (alloc : Bool) :
    (queueFrame k b alloc).isData = k.isData := by
  unfold queueFrame; split <;> simp

theorem connQueueFrame_eq (c : ConnPtr) (b : EpiBuf) (alloc : Bool) :
    connQueueFrame srv c b alloc =
      { srv with
        conn := Function.update srv.conn c (queueFrame (srv.conn c) b alloc)
        trace := srv.trace ++ frameEffects (srv.conn c) c b alloc } := by
  unfold connQueueFrame queueFrame frameEffects
  split
  · rw [Function.update_eq_self]; rfl
  · exact enqueue_eq srv c b.data false alloc

def replayed (k : Connection) (out : OutRing) (ans : FrameAnswers) : Connection :=
  connQueue k ((out.snapshot ans.snapAlloc).getD []) ans.replayAlloc

@[simp] theorem replayed_session (k : Connection) (out : OutRing) (ans : FrameAnswers) :
    (replayed k out ans).session = k.session := connQueue_session _ _ _

@[simp] theorem replayed_isData (k : Connection) (out : OutRing) (ans : FrameAnswers) :
    (replayed k out ans).isData = k.isData := connQueue_isData _ _ _

def replayEffects (k : Connection) (c : ConnPtr) (out : OutRing) (ans : FrameAnswers) : List Effect :=
  match out.snapshot ans.snapAlloc with
  | some snap => enqueueEffects k c snap false ans.replayAlloc
  | none => if out.ring.size = 0 then [] else [.allocFailed c]

theorem replayRing_eq (c : ConnPtr) (ans : FrameAnswers) (s : SessPtr) :
    replayRing srv c ans s =
      { srv with
        conn := Function.update srv.conn c (replayed (srv.conn c) (srv.sess s).out ans)
        trace := srv.trace ++ replayEffects (srv.conn c) c (srv.sess s).out ans } := by
  unfold replayRing replayed replayEffects
  dsimp only
  cases hSnap : (srv.sess s).out.snapshot ans.snapAlloc with
  | some snap => exact enqueue_eq srv c snap false ans.replayAlloc
  | none =>
    simp only [Option.getD_none, connQueue_nil, Function.update_eq_self]
    split <;> simp [Server.emit]

def greeting (c : ConnPtr) (s : SessPtr) (ans : FrameAnswers) : EpiBuf :=
  epiMsgEnd (putSessionInfo ans.bufAlloc (epiMsgStart ans.bufAlloc .attached)
    { srv.sess s with client := some c })

/-- The connection with the ATTACHED frame queued, before the replay. -/
def greeted (c : ConnPtr) (s : SessPtr) (ans : FrameAnswers) : Connection :=
  queueFrame { srv.conn c with isData := true, session := some s } (greeting srv c s ans) ans.queueAlloc

def attachEffects (c : ConnPtr) (s : SessPtr) (ans : FrameAnswers) : List Effect :=
  let out := (srv.sess s).out
  frameEffects { srv.conn c with isData := true, session := some s } c (greeting srv c s ans)
      ans.queueAlloc ++
    .attached c s (greeted srv c s ans).unsent.length out.ring.contents ::
      replayEffects (greeted srv c s ans) c out ans

theorem bindClient_eq (c : ConnPtr) (ans : FrameAnswers) (s : SessPtr) :
    bindClient srv c ans s =
      { srv with
        conn := Function.update srv.conn c (replayed (greeted srv c s ans) (srv.sess s).out ans)
        sess := Function.update srv.sess s { srv.sess s with client := some c }
        trace := srv.trace ++ attachEffects srv c s ans } := by
  unfold bindClient reply attachEffects
  simp only [connQueueFrame_eq, replayRing_eq, Server.modConn, Server.modSess, Server.emit,
    Function.update_self, Function.update_idem, List.append_assoc]
  rfl

theorem assignGroup_eq (s : SessPtr) (gid : Nat) :
    assignGroup srv s gid =
      { srv with
        sess := Function.update srv.sess s { srv.sess s with groupId := gid }
        trace := srv.trace ++ if (srv.sess s).groupId = gid then [] else
          (if gid = 0 then [] else [.groupJoined gid s]) ++ leftEffects s (srv.sess s) } := by
  unfold assignGroup
  dsimp only
  split
  · simp [Server.modSess]
  · rw [noteLeft_eq]
    split <;> simp [Server.modSess, Server.emit]

theorem unlinkMember_eq (s : SessPtr) :
    unlinkMember srv s =
      { unlinkSession srv s with
        groups := survivors (unlinkSession srv s) (srv.sess s).groupId
        trace := srv.trace ++ (leftEffects s (srv.sess s) ++
          goneEffects (unlinkSession srv s) (srv.sess s).groupId) } := by
  unfold unlinkMember
  rw [gcGroupIfEmpty_eq, noteLeft_eq, ← List.append_assoc]
  rfl

def graceDeadline (clock : Timespec) : Timespec := ⟨clock.nanos + killGraceMs / 1000 * 1000000000⟩

/-- The session hidden from LIST, until its child is reaped. -/
def hidden (s : SessPtr) (clock : Timespec) : Server :=
  srv.modSess s fun k =>
    { k with killing := true, removed := true, killDeadline := graceDeadline clock }

theorem markKilled_eq (s : SessPtr) (clock : Timespec) :
    markKilled srv s clock =
      { hidden srv s clock with
        groups := survivors (hidden srv s clock) (srv.sess s).groupId
        trace := srv.trace ++ (.killed s (graceDeadline clock) :: (leftEffects s (srv.sess s) ++
          goneEffects (hidden srv s clock) (srv.sess s).groupId)) } := by
  unfold markKilled
  dsimp only
  rw [gcGroupIfEmpty_eq, noteLeft_eq]
  simp only [Server.emit, List.append_assoc, List.singleton_append]
  rfl

/-- The session in its new group, before the old one is looked at. -/
def regrouped (s : SessPtr) (gid : Nat) : Server := srv.modSess s fun k => { k with groupId := gid }

def moveEffects (s : SessPtr) (gid : Nat) : List Effect :=
  if (srv.sess s).groupId = gid then []
  else
    (if gid = 0 then [] else [.groupJoined gid s]) ++ leftEffects s (srv.sess s) ++
      goneEffects (regrouped srv s gid) (srv.sess s).groupId

theorem moveSession_eq (s : SessPtr) (gid : Nat) :
    moveSession srv s gid =
      { regrouped srv s gid with
        groups := if (srv.sess s).groupId = gid then srv.groups
          else survivors (regrouped srv s gid) (srv.sess s).groupId
        trace := srv.trace ++ moveEffects srv s gid } := by
  unfold moveSession moveEffects
  dsimp only
  rw [assignGroup_eq]
  by_cases hSame : (srv.sess s).groupId = gid
  · simp only [hSame, ne_eq, not_true_eq_false, ↓reduceIte, List.append_nil]
    rfl
  · rw [if_pos hSame, gcGroupIfEmpty_eq]
    simp only [if_neg hSame, ← List.append_assoc]
    rfl

def killEffects (pid : Nat) (alive : Bool) : List Effect :=
  if alive ∧ 0 < pid then [.signal (srv.childOf pid) pid .kill] else []

theorem epiSessionKill_eq (s : SessPtr) :
    epiSessionKill srv s =
      { srv with trace := srv.trace ++ killEffects srv (srv.sess s).pid (srv.sess s).alive } := by
  unfold epiSessionKill killEffects Server.kill
  dsimp only
  split <;> simp [Server.emit]

def sessionOfPid (pid : Nat) : Option SessPtr :=
  srv.sessions.find? fun s => (srv.sess s).pid == pid

theorem markReaped_eq (pid status : Nat) (child : SessPtr) :
    markReaped srv pid status child =
      { srv with
        children := srv.children.filter fun e => e.1 != pid
        sess := fun s =>
          if sessionOfPid srv pid = some s then
            { srv.sess s with alive := false, exitStatus := status }
          else srv.sess s
        trace := srv.trace ++ [.reaped child] } := by
  unfold markReaped sessionOfPid
  dsimp only [Server.emit]
  cases hFind : srv.sessions.find? fun s => (srv.sess s).pid == pid with
  | none => simp
  | some s =>
    simp only [Server.modSess, Option.some.injEq]
    congr 1
    funext t
    by_cases hSame : s = t
    · subst hSame; simp
    · rw [Function.update_of_ne (Ne.symm hSame), if_neg hSame]

theorem connClose_eq (c : ConnPtr) :
    connClose srv c =
      { srv with
        conns := srv.conns.erase c
        conn := Function.update srv.conn c .blank
        inbuf := Function.update srv.inbuf c ⟨[], 0⟩
        sess := fun s =>
          if (srv.conn c).session = some s ∧ (srv.sess s).client = some c then
            { srv.sess s with client := none }
          else srv.sess s
        trace := srv.trace ++ [.closed c] } := by
  unfold connClose
  cases hBound : (srv.conn c).session with
  | none => simp [Server.modConn, Server.modIn, Server.emit]
  | some s =>
    dsimp only
    by_cases hMutual : (srv.sess s).client = some c
    · rw [if_pos hMutual]
      simp only [Server.modConn, Server.modIn, Server.emit, Server.modSess, Option.some.injEq]
      congr 1
      funext t
      by_cases hSame : s = t
      · subst hSame; simp [hMutual]
      · rw [Function.update_of_ne (Ne.symm hSame), if_neg (fun h => hSame h.1)]
    · rw [if_neg hMutual]
      simp only [Server.modConn, Server.modIn, Server.emit, Option.some.injEq]
      congr 1
      funext t
      by_cases hSame : s = t
      · subst hSame; simp [hMutual]
      · rw [if_neg (fun h => hSame h.1)]

def Act.effects : Act → List Effect
  | .queue c data alloc => enqueueEffects (srv.conn c) c data false alloc
  | .starve c => [.allocFailed c]
  | .attach c s ans => attachEffects srv c s ans
  | .unbind s c => [.detached c s, .shutdown c]
  | .closePty s => [.ptyClosed s]
  | .unlink s =>
    leftEffects s (srv.sess s) ++ goneEffects (unlinkSession srv s) (srv.sess s).groupId
  | .kill s clock =>
    .killed s (graceDeadline clock) :: (leftEffects s (srv.sess s) ++
      goneEffects (hidden srv s clock) (srv.sess s).groupId)
  | .fork pid cwd argv env exec => [.forked srv.nextSess pid cwd argv env exec]
  | .create pid cwd argv env exec _ =>
    [.forked srv.nextSess pid cwd argv env exec, .created srv.nextSess (srv.nextId + 1)]
  | .signal pid sig => [.signal (srv.childOf pid) pid sig]
  | .winsize s rows cols => [.winsize s rows cols]
  | .newGroup _ => [.groupCreated (srv.nextGroupId + 1)]
  | .move s gid => moveEffects srv s gid
  | .store c data => [.received c data (srv.conn c).wantClose]
  | .frame c type body => [.frame c type body (srv.conn c).unsent.length]
  | .framingError c => [.framingError c (srv.conn c).unsent.length (srv.conn c).polled]
  | .input s c data => [.input s c data]
  | .writePin s data _ => [.ptyWrote s data]
  | .write c n => [.wrote c ((srv.conn c).unsent.take n)]
  | .failWrite c => [.writeFailed c]
  | .read s chunk _ => [.ptyRead s chunk.bytes (srv.sess s).client]
  | .relay s c chunk _ queueAlloc =>
    .ptyRead s chunk.bytes (srv.sess s).client ::
      enqueueEffects (srv.conn c) c chunk.bytes true queueAlloc
  | .relayed c => [.relayed c (srv.conn c).unsent.length (srv.conn c).wantClose]
  | .ptyHangup s => [.ptyHangup s]
  | .eof _ c => [.eof c]
  | .shutdown c => [.shutdown c]
  | .reap _ _ child => [.reaped child]
  | .close c => [.closed c]
  | .free s _ => [.freed s]
  | .escalate s => killEffects srv (srv.sess s).pid (srv.sess s).alive
  | .update _ | .watchPty _ | .setBlob .. | .consume .. | .freeInbound _ | .condemn _ | .setPin ..
  | .updatePty _ | .reset _ | .stop | .openConn | .watchConn _ => []

theorem trace_perform (a : Act) : (a.perform srv).trace = srv.trace ++ a.effects srv := by
  cases a with
  | queue c data alloc => simp only [Act.perform, Act.effects, enqueue_eq]
  | attach c s ans => simp only [Act.perform, Act.effects, bindClient_eq]
  | unlink s => simp only [Act.perform, Act.effects, unlinkMember_eq]
  | kill s clock => simp only [Act.perform, Act.effects, markKilled_eq]
  | move s gid => simp only [Act.perform, Act.effects, moveSession_eq]
  | relay s c chunk ringAlloc queueAlloc =>
    simp [Act.perform, Act.effects, enqueue_eq, readOutput, Server.modSess, Server.emit]
  | reap pid status child => simp only [Act.perform, Act.effects, markReaped_eq]
  | close c => simp only [Act.perform, Act.effects, connClose_eq]
  | escalate s => simp only [Act.perform, Act.effects, epiSessionKill_eq, Server.modSess]
  | unbind s c =>
    simp [Act.perform, Act.effects, unbindClient, Server.modSess, Server.modConn, Server.emit]
  | create pid cwd argv env exec k =>
    simp [Act.perform, Act.effects, linkSession, forked, Server.modSess, Server.emit]
  | update | watchPty | setBlob | consume | freeInbound | condemn | setPin | updatePty | reset | stop
    | openConn | watchConn => exact (List.append_nil _).symm
  | _ => rfl

end NormalForms

section Membership

variable {srv : Server} {e : Effect} {c : ConnPtr} {s : SessPtr} {k : Connection} {b : EpiBuf}
  {data : Bytes} {relay alloc : Bool} {ans : FrameAnswers}

@[simp] theorem mem_enqueueEffects :
    e ∈ enqueueEffects k c data relay alloc ↔
      data ≠ [] ∧ (e = .enqueued c ⟨k.unsent.length, data.length, k.polled, k.wantClose, relay,
        k.growthFails data.length alloc⟩ ∨
        k.growthFails data.length alloc = true ∧ e = .allocFailed c) := by
  unfold enqueueEffects
  by_cases hData : data = []
  · simp [hData]
  · cases k.growthFails data.length alloc <;> simp [hData]

@[simp] theorem mem_frameEffects :
    e ∈ frameEffects k c b alloc ↔ b.oom = true ∧ e = .allocFailed c ∨
      b.oom = false ∧ e ∈ enqueueEffects k c b.data false alloc := by
  unfold frameEffects
  cases b.oom <;> simp

@[simp] theorem mem_replayEffects {out : OutRing} :
    e ∈ replayEffects k c out ans ↔
      (∃ snap, out.snapshot ans.snapAlloc = some snap ∧
        e ∈ enqueueEffects k c snap false ans.replayAlloc) ∨
      out.snapshot ans.snapAlloc = none ∧ out.ring.size ≠ 0 ∧ e = .allocFailed c := by
  unfold replayEffects
  cases out.snapshot ans.snapAlloc with
  | some snap => simp
  | none => by_cases hSize : out.ring.size = 0 <;> simp [hSize]

@[simp] theorem mem_leftEffects {k : Session} :
    e ∈ leftEffects s k ↔ k.removed = false ∧ k.groupId ≠ 0 ∧ e = .groupLeft k.groupId s := by
  unfold leftEffects
  cases k.removed <;> by_cases hGroup : k.groupId = 0 <;> simp [hGroup]

@[simp] theorem mem_goneEffects {gid : Nat} :
    e ∈ goneEffects srv gid ↔ collectable srv gid = true ∧ e = .groupGone gid := by
  unfold goneEffects
  cases collectable srv gid <;> simp

@[simp] theorem mem_moveEffects {gid : Nat} :
    e ∈ moveEffects srv s gid ↔ (srv.sess s).groupId ≠ gid ∧
      (gid ≠ 0 ∧ e = .groupJoined gid s ∨ e ∈ leftEffects s (srv.sess s) ∨
        e ∈ goneEffects (regrouped srv s gid) (srv.sess s).groupId) := by
  unfold moveEffects
  by_cases hSame : (srv.sess s).groupId = gid
  · simp [hSame]
  · by_cases hZero : gid = 0 <;> simp [hSame, hZero]

@[simp] theorem mem_killEffects {pid : Nat} {alive : Bool} :
    e ∈ killEffects srv pid alive ↔
      alive = true ∧ 0 < pid ∧ e = .signal (srv.childOf pid) pid .kill := by
  unfold killEffects
  cases alive <;> by_cases hPid : 0 < pid <;> simp [hPid]

end Membership

end Epimone.Daemon
