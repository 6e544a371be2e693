import Epimone.Client.Thumbnails

/-! # The chain of the render steps

While cards are queued, one step is to come, and else none; the queue holds no
card twice and none that is gone, and no card stays in it for more steps than
its panes and its attempts allow.
-/
set_option autoImplicit false

namespace Epimone.Client

open Transition

namespace EpimoneOverview

/-- The timers that start the next step. -/
def outstanding (o : EpimoneOverview) : Nat :=
  [o.pumpTimeout, o.feedTimeout, o.settleBackstop].countP Option.isSome

/-- The queue holds cards of the grid that are to be rendered, each once. -/
structure Queued (o : EpimoneOverview) : Prop where
  nodup : o.pending.Nodup
  shown : o.pending ⊆ o.flow
  panes : ∀ c ∈ o.pending, (o.card c).leaves ≠ []
  unrendered : ∀ c ∈ o.pending, (o.card c).rendered = false

structure Stopped (o : EpimoneOverview) : Prop where
  pump : o.pumpTimeout = none
  feed : o.feedTimeout = none
  backstop : o.settleBackstop = none
  quiet : o.settleQuiet = none
  fed : o.fed = false

/-- The card at the head is being rendered, at one of its panes. -/
structure Working (o : EpimoneOverview) : Prop extends Queued o where
  busy : o.rendering = true ↔ o.pending ≠ []
  current : ∀ c rest, o.pending = c :: rest → (o.card c).curLeaf < (o.card c).leaves.length

structure Sound (o : EpimoneOverview) : Prop extends Working o where
  chain : o.outstanding = if o.rendering then 1 else 0
  fed : o.fed = o.settleBackstop.isSome
  quiet : o.settleQuiet.isSome = true → o.settleBackstop.isSome = true

variable {o : EpimoneOverview} {c : Nat} {rest : List Nat}

@[simp] theorem updateCard_pending (f : Card → Card) : (o.updateCard c f).pending = o.pending := rfl

@[simp] theorem updateCard_pumpTimeout (f : Card → Card) : (o.updateCard c f).pumpTimeout = o.pumpTimeout := rfl

@[simp] theorem updateCard_feedTimeout (f : Card → Card) : (o.updateCard c f).feedTimeout = o.feedTimeout := rfl

@[simp] theorem updateCard_settleBackstop (f : Card → Card) : (o.updateCard c f).settleBackstop = o.settleBackstop :=
  rfl

theorem updateCard_self (o : EpimoneOverview) (c : Nat) (f : Card → Card) : (o.updateCard c f).card c = f (o.card c) :=
  Function.update_self ..

theorem updateCard_of_ne {d : Nat} (h : d ≠ c) (f : Card → Card) : (o.updateCard c f).card d = o.card d :=
  Function.update_of_ne h ..

theorem Queued.updateCard (h : o.Queued) {f : Card → Card} (hLeaves : (f (o.card c)).leaves = (o.card c).leaves)
    (hRendered : c ∈ o.pending → (f (o.card c)).rendered = (o.card c).rendered) : (o.updateCard c f).Queued where
  nodup := h.nodup
  shown := h.shown
  panes d hd := by
    rcases eq_or_ne d c with rfl | hNe
    · rw [updateCard_self, hLeaves]
      exact h.panes d hd
    · rw [updateCard_of_ne hNe]
      exact h.panes d hd
  unrendered d hd := by
    rcases eq_or_ne d c with rfl | hNe
    · rw [updateCard_self, hRendered hd]
      exact h.unrendered d hd
    · rw [updateCard_of_ne hNe]
      exact h.unrendered d hd

theorem stopped_renderAbort (o : EpimoneOverview) : o.renderAbort.Stopped := ⟨rfl, rfl, rfl, rfl, rfl⟩

theorem queued_of_pending_nil (h : o.pending = []) : o.Queued := by
  constructor <;> simp [h]

theorem Stopped.sound_of_idle (hStopped : o.Stopped) (hPending : o.pending = []) (hIdle : o.rendering = false) :
    o.Sound where
  toQueued := queued_of_pending_nil hPending
  chain := by simp [outstanding, hStopped.pump, hStopped.feed, hStopped.backstop, hIdle]
  fed := by rw [hStopped.fed, hStopped.backstop]; rfl
  quiet := by rw [hStopped.quiet]; nofun
  busy := by simp [hPending, hIdle]
  current := by simp [hPending]

theorem Queued.sound_of_pump (h : o.Queued) (hStopped : o.Stopped) (hBusy : o.rendering = true)
    (hPending : o.pending = c :: rest) (hCurrent : (o.card c).curLeaf < (o.card c).leaves.length) (delay : Nat) :
    { o with pumpTimeout := some delay }.Sound where
  toQueued := ⟨h.nodup, h.shown, h.panes, h.unrendered⟩
  chain := by simp [outstanding, hStopped.feed, hStopped.backstop, hBusy]
  fed := hStopped.fed.trans (congrArg Option.isSome hStopped.backstop).symm
  quiet hQuiet := absurd ((congrArg Option.isSome hStopped.quiet).symm.trans hQuiet) Bool.false_ne_true
  busy := iff_of_true hBusy (by simp [hPending])
  current d rest' hSame := (List.cons.inj (hPending.symm.trans hSame)).1 ▸ hCurrent

theorem Queued.renderPump (h : o.Queued) (hStopped : o.Stopped) : o.renderPump.Sound := by
  unfold EpimoneOverview.renderPump
  split
  case h_1 hPending =>
    exact Stopped.sound_of_idle ⟨hStopped.1, hStopped.2, hStopped.3, hStopped.4, hStopped.5⟩ hPending rfl
  case h_2 c rest hPending =>
    have hHead := h.updateCard (c := c) (f := Card.begin) rfl fun _ => rfl
    set begun : EpimoneOverview :=
      { o.updateCard c Card.begin with rendering := true, trace := o.trace ++ [Record.began c] }
    have hQueued : begun.Queued := ⟨hHead.nodup, hHead.shown, hHead.panes, hHead.unrendered⟩
    have hStill : begun.Stopped := ⟨hStopped.1, hStopped.2, hStopped.3, hStopped.4, hStopped.5⟩
    refine hQueued.sound_of_pump hStill rfl hPending ?_ _
    change ((o.updateCard c Card.begin).card c).curLeaf < ((o.updateCard c Card.begin).card c).leaves.length
    rw [updateCard_self]
    exact List.length_pos_of_ne_nil (h.panes c (hPending ▸ List.mem_cons_self))

/-- What queueing some of the cards does: they come behind those that wait, unless they are done without. -/
structure Extends (o o' : EpimoneOverview) (cs more : List Nat) : Prop where
  eq : o' = { o with pending := o.pending ++ more, card := o'.card }
  nodup : more.Nodup
  fresh : ∀ c ∈ more, c ∈ cs ∧ c ∉ o.pending ∧ (o.card c).leaves ≠ [] ∧ (o.card c).rendered = false
  card : ∀ c, o'.card c = o.card c ∨ c ∉ o.pending ++ more ∧ o'.card c = { o.card c with rendered := true }

theorem queueCard_extends (near : Nat → Bool) (tails : Nat → List (Option Bytes)) (o : EpimoneOverview) (c : Nat) :
    ∃ more, Extends o (queueCard near tails o c) [c] more := by
  have hIdle : Extends o o [c] [] :=
    ⟨by rw [List.append_nil], List.nodup_nil, fun _ hNil => absurd hNil List.not_mem_nil, fun _ => .inl rfl⟩
  unfold queueCard
  dsimp only
  split
  case isTrue => exact ⟨[], hIdle⟩
  case isFalse hOpen =>
    obtain ⟨hUnrendered, hPanes⟩ := not_or.mp hOpen
    split
    case isTrue => exact ⟨[], hIdle⟩
    case isFalse hAway =>
      split
      case isTrue => exact ⟨[], hIdle⟩
      case isFalse =>
        split
        case isTrue =>
          refine ⟨[], by rw [List.append_nil]; rfl, List.nodup_nil, fun _ hNil => absurd hNil List.not_mem_nil,
            fun d => ?_⟩
          rcases eq_or_ne d c with rfl | hNe
          · rw [List.append_nil]
            exact .inr ⟨hAway, updateCard_self ..⟩
          · exact .inl (updateCard_of_ne hNe _)
        case isFalse =>
          refine ⟨[c], rfl, List.nodup_singleton c, fun d hd => ?_, fun _ => .inl rfl⟩
          rw [List.mem_singleton.mp hd]
          exact ⟨List.mem_singleton_self c, hAway, hPanes, Bool.eq_false_of_not_eq_true hUnrendered⟩

theorem Extends.trans {o' o'' : EpimoneOverview} {cs cs' more more' : List Nat} (h : Extends o o' cs more)
    (h' : Extends o' o'' cs' more') : Extends o o'' (cs ++ cs') (more ++ more') := by
  have hPending : o'.pending = o.pending ++ more := congrArg pending h.eq
  have hKept : ∀ c, (o'.card c).leaves = (o.card c).leaves ∧
      ((o'.card c).rendered = false → (o.card c).rendered = false) := by
    intro c
    rcases h.card c with hSame | ⟨-, hDone⟩
    · rw [hSame]
      exact ⟨rfl, id⟩
    · rw [hDone]
      exact ⟨rfl, nofun⟩
  have hLater : ∀ c ∈ more', c ∈ cs' ∧ c ∉ o.pending ++ more ∧ (o.card c).leaves ≠ [] ∧
      (o.card c).rendered = false := by
    intro c hc
    obtain ⟨hIn, hAway, hPanes, hUnrendered⟩ := h'.fresh c hc
    rw [hPending] at hAway
    rw [(hKept c).1] at hPanes
    exact ⟨hIn, hAway, hPanes, (hKept c).2 hUnrendered⟩
  constructor
  case eq =>
    rw [h'.eq, hPending, List.append_assoc, h.eq]
  case nodup =>
    refine List.nodup_append.mpr ⟨h.nodup, h'.nodup, fun a ha b hb hSame => ?_⟩
    exact (hLater b hb).2.1 (List.mem_append_right _ (hSame ▸ ha))
  case fresh =>
    intro c hc
    rcases List.mem_append.mp hc with hc | hc
    · obtain ⟨hIn, hRest⟩ := h.fresh c hc
      exact ⟨List.mem_append_left _ hIn, hRest⟩
    · obtain ⟨hIn, hAway, hRest⟩ := hLater c hc
      exact ⟨List.mem_append_right _ hIn, fun hPending => hAway (List.mem_append_left _ hPending), hRest⟩
  case card =>
    intro c
    rcases h'.card c with hSame | ⟨hAway, hDone⟩
    · rw [hSame]
      refine (h.card c).imp_right fun ⟨hAway, hDone⟩ => ⟨fun hIn => ?_, hDone⟩
      rw [← List.append_assoc] at hIn
      rcases List.mem_append.mp hIn with hIn | hIn
      · exact hAway hIn
      · have hUnrendered := (h'.fresh c hIn).2.2.2
        rw [hDone] at hUnrendered
        cases hUnrendered
    · rw [hPending, List.append_assoc] at hAway
      refine .inr ⟨hAway, ?_⟩
      rcases h.card c with hSame | ⟨-, hBefore⟩
      · rw [hDone, hSame]
      · rw [hDone, hBefore]

theorem foldl_queueCard (near : Nat → Bool) (tails : Nat → List (Option Bytes)) (cs : List Nat) (o : EpimoneOverview) :
    ∃ more, Extends o (cs.foldl (queueCard near tails) o) cs more := by
  induction cs generalizing o with
  | nil =>
    exact ⟨[], by rw [List.append_nil]; rfl, List.nodup_nil, fun _ hNil => absurd hNil List.not_mem_nil,
      fun _ => .inl rfl⟩
  | cons c cs ih =>
    obtain ⟨first, hFirst⟩ := queueCard_extends near tails o c
    obtain ⟨rest, hRest⟩ := ih (queueCard near tails o c)
    exact ⟨first ++ rest, hFirst.trans hRest⟩

section Extended

variable {o' : EpimoneOverview} {more : List Nat} (hExtends : Extends o o' o.flow more)

include hExtends

theorem Extends.card_of_pending (hc : c ∈ o.pending ++ more) : o'.card c = o.card c :=
  (hExtends.card c).resolve_right fun hDone => hDone.1 hc

theorem Extends.pending : o'.pending = o.pending ++ more := congrArg EpimoneOverview.pending hExtends.eq

theorem Queued.extend (h : o.Queued) : o'.Queued := by
  have hFlow : o'.flow = o.flow := by
    rw [hExtends.eq]
  constructor
  case nodup =>
    rw [hExtends.pending]
    exact List.nodup_append.mpr ⟨h.nodup, hExtends.nodup, fun a ha b hb hSame => (hExtends.fresh b hb).2.1 (hSame ▸ ha)⟩
  case shown =>
    rw [hExtends.pending, hFlow]
    exact List.append_subset.mpr ⟨h.shown, fun d hd => (hExtends.fresh d hd).1⟩
  case panes =>
    intro d hd
    rw [hExtends.pending] at hd
    rw [hExtends.card_of_pending hd]
    exact (List.mem_append.mp hd).elim (h.panes d) fun hMore => (hExtends.fresh d hMore).2.2.1
  case unrendered =>
    intro d hd
    rw [hExtends.pending] at hd
    rw [hExtends.card_of_pending hd]
    exact (List.mem_append.mp hd).elim (h.unrendered d) fun hMore => (hExtends.fresh d hMore).2.2.2

theorem Stopped.extend (h : o.Stopped) : o'.Stopped := by
  rw [hExtends.eq]
  exact ⟨h.1, h.2, h.3, h.4, h.5⟩

theorem Sound.extend (h : o.Sound) (hBusy : o.rendering = true) : o'.Sound := by
  have hHead : ∀ d rest, o'.pending = d :: rest → ∃ rest', o.pending = d :: rest' := by
    intro d rest hSome
    rw [hExtends.pending] at hSome
    obtain ⟨d', rest', hPending⟩ := List.exists_cons_of_ne_nil (h.busy.mp hBusy)
    rw [hPending, List.cons_append] at hSome
    exact ⟨rest', (List.cons.inj hSome).1 ▸ hPending⟩
  refine ⟨⟨h.toQueued.extend hExtends, ?_, ?_⟩, ?_, ?_, ?_⟩
  · have hRendering : o'.rendering = o.rendering := by
      rw [hExtends.eq]
    rw [hRendering, hExtends.pending]
    exact iff_of_true hBusy fun hNil => h.busy.mp hBusy (List.append_eq_nil_iff.mp hNil).1
  · intro d rest hSome
    obtain ⟨rest', hPending⟩ := hHead d rest hSome
    rw [hExtends.card_of_pending (List.mem_append_left _ (hPending ▸ List.mem_cons_self))]
    exact h.current d rest' hPending
  · rw [hExtends.eq]
    exact h.chain
  · rw [hExtends.eq]
    exact h.fed
  · rw [hExtends.eq]
    exact h.quiet

end Extended

theorem queueVisibleRenders_of_busy (hBusy : o.rendering = true) (near : Nat → Bool)
    (tails : Nat → List (Option Bytes)) : ∃ more, Extends o (o.queueVisibleRenders near tails) o.flow more := by
  obtain ⟨more, hExtends⟩ := foldl_queueCard near tails o.flow o
  have hStill : (o.flow.foldl (queueCard near tails) o).rendering = true := by
    rw [hExtends.eq]
    exact hBusy
  rw [queueVisibleRenders, if_pos hStill]
  exact ⟨more, hExtends⟩

theorem Queued.queueVisibleRenders (h : o.Queued) (hStopped : o.Stopped) (hIdle : o.rendering = false)
    (near : Nat → Bool) (tails : Nat → List (Option Bytes)) : (o.queueVisibleRenders near tails).Sound := by
  obtain ⟨more, hExtends⟩ := foldl_queueCard near tails o.flow o
  have hStill : (o.flow.foldl (queueCard near tails) o).rendering = false := by
    rw [hExtends.eq]
    exact hIdle
  rw [EpimoneOverview.queueVisibleRenders, hStill]
  exact (h.extend hExtends).renderPump (hStopped.extend hExtends)

/-- Without a rendering in progress nothing is armed. -/
theorem Sound.stopped (h : o.Sound) (hIdle : o.rendering = false) : o.Stopped := by
  have hChain := h.chain
  rw [hIdle, outstanding] at hChain
  have hNone : o.pumpTimeout = none ∧ o.feedTimeout = none ∧ o.settleBackstop = none := by
    simpa using hChain
  obtain ⟨hPump, hFeed, hBackstop⟩ := hNone
  have hFed := h.fed
  have hQuiet := h.quiet
  rw [hBackstop] at hFed hQuiet
  refine ⟨hPump, hFeed, hBackstop, ?_, hFed⟩
  cases hArmed : o.settleQuiet with
  | none => rfl
  | some delay =>
    rw [hArmed] at hQuiet
    exact absurd (hQuiet rfl) Bool.false_ne_true

/-- Whatever of the chain is armed, is armed alone, for a card that waits. -/
theorem Sound.armed (h : o.Sound)
    (hArmed : o.pumpTimeout.isSome = true ∨ o.feedTimeout.isSome = true ∨ o.settleBackstop.isSome = true) :
    o.rendering = true ∧ ∃ c rest, o.pending = c :: rest := by
  have hBusy : o.rendering = true := by
    by_contra hIdle
    have hStopped := h.stopped (Bool.eq_false_of_not_eq_true hIdle)
    rw [hStopped.pump, hStopped.feed, hStopped.backstop] at hArmed
    simp at hArmed
  exact ⟨hBusy, List.exists_cons_of_ne_nil (h.busy.mp hBusy)⟩

theorem one_of_three {x y z : Option Nat} (h : [x, y, z].countP Option.isSome = 1) :
    (x.isSome = true → y = none ∧ z = none) ∧ (y.isSome = true → x = none ∧ z = none) ∧
      (z.isSome = true → x = none ∧ y = none) := by
  cases x <;> cases y <;> cases z <;> simp_all

theorem Sound.alone (h : o.Sound) (hBusy : o.rendering = true) :
    (o.pumpTimeout.isSome = true → o.feedTimeout = none ∧ o.settleBackstop = none) ∧
      (o.feedTimeout.isSome = true → o.pumpTimeout = none ∧ o.settleBackstop = none) ∧
        (o.settleBackstop.isSome = true → o.pumpTimeout = none ∧ o.feedTimeout = none) := by
  have hChain := h.chain
  rw [hBusy] at hChain
  exact one_of_three hChain

theorem Sound.quiet_of_not_fed (h : o.Sound) (hNone : o.settleBackstop = none) : o.settleQuiet = none := by
  cases hArmed : o.settleQuiet with
  | none => rfl
  | some delay =>
    have hBackstop := h.quiet (by rw [hArmed]; rfl)
    rw [hNone] at hBackstop
    cases hBackstop

theorem Sound.settleCancel (h : o.Sound) (hArmed : o.settleBackstop.isSome = true) : o.settleCancel.Stopped :=
  ⟨((h.alone (h.armed (.inr (.inr hArmed))).1).2.2 hArmed).1, rfl, rfl, rfl, rfl⟩

theorem Queued.settleCancel (h : o.Queued) : o.settleCancel.Queued := ⟨h.nodup, h.shown, h.panes, h.unrendered⟩

theorem Stopped.renderCompose (h : o.Stopped) (c : Nat) (x : Capture) : (o.renderCompose c x).Stopped := by
  unfold EpimoneOverview.renderCompose
  dsimp only
  split
  · exact ⟨h.1, h.2, h.3, h.4, h.5⟩
  · split
    · split <;> exact ⟨h.1, h.2, h.3, h.4, h.5⟩
    · split <;> exact ⟨h.1, h.2, h.3, h.4, h.5⟩

theorem Queued.push (h : o.Queued) (hAway : c ∉ o.pending) (hShown : c ∈ o.flow) (hPanes : (o.card c).leaves ≠ [])
    (hUnrendered : (o.card c).rendered = false) : { o with pending := o.pending ++ [c] }.Queued where
  nodup := List.nodup_append.mpr ⟨h.nodup, List.nodup_singleton c, fun _ ha _ hb hSame =>
    hAway (List.mem_singleton.mp hb ▸ hSame ▸ ha)⟩
  shown := List.append_subset.mpr ⟨h.shown, fun _ hd => List.mem_singleton.mp hd ▸ hShown⟩
  panes d hd := (List.mem_append.mp hd).elim (h.panes d) fun hLast => List.mem_singleton.mp hLast ▸ hPanes
  unrendered d hd := (List.mem_append.mp hd).elim (h.unrendered d) fun hLast =>
    List.mem_singleton.mp hLast ▸ hUnrendered

/-- A card that is composed leaves the queue, or goes to its end with one attempt less. -/
theorem Queued.renderCompose (h : o.Queued) (hAway : c ∉ o.pending) (hShown : c ∈ o.flow)
    (hPanes : (o.card c).leaves ≠ []) (hUnrendered : (o.card c).rendered = false) (x : Capture) :
    (o.renderCompose c x).Queued ∧ (o.renderCompose c x).flow = o.flow ∧
    (∀ d, d ≠ c → (o.renderCompose c x).card d = o.card d) ∧
      ((o.renderCompose c x).pending = o.pending ∨ (o.renderCompose c x).pending = o.pending ++ [c] ∧
        (o.card c).attempts < renderMaxAttempts ∧
          ((o.renderCompose c x).card c).attempts = (o.card c).attempts + 1 ∧
            ((o.renderCompose c x).card c).leaves = (o.card c).leaves) := by
  have hKeep : ∀ f : Card → Card, (f (o.card c)).leaves = (o.card c).leaves → (o.updateCard c f).Queued :=
    fun f hLeaves => h.updateCard hLeaves fun hIn => absurd hIn hAway
  have hOthers : ∀ (f : Card → Card) (d : Nat), d ≠ c → (o.updateCard c f).card d = o.card d := fun f d hNe =>
    updateCard_of_ne hNe f
  unfold EpimoneOverview.renderCompose
  dsimp only
  split
  case isTrue => exact ⟨hKeep _ rfl, rfl, hOthers _, .inl rfl⟩
  case isFalse =>
    split
    case isTrue =>
      split
      case isTrue hAttempts =>
        set back :=
          (o.updateCard c fun card => { card.nodesClear with curLeaf := 0 }).updateCard c Card.retry with hBack
        have hQueued : back.Queued := (hKeep (fun card => { card.nodesClear with curLeaf := 0 }) rfl).updateCard rfl
          fun _ => rfl
        have hCard : back.card c = { (o.card c).nodesClear with curLeaf := 0 }.retry := by
          rw [hBack, updateCard_self, updateCard_self]
        refine ⟨hQueued.push hAway hShown ?_ ?_, rfl, ?_, .inr ⟨rfl, hAttempts, ?_, ?_⟩⟩
        · rw [hCard]
          exact hPanes
        · rw [hCard]
          exact hUnrendered
        · intro d hNe
          exact (updateCard_of_ne hNe _).trans (updateCard_of_ne hNe _)
        · exact congrArg Card.attempts hCard
        · exact congrArg (fun card => card.leaves) hCard
      case isFalse => exact ⟨hKeep _ rfl, rfl, hOthers _, .inl rfl⟩
    case isFalse =>
      split
      case isTrue =>
        have hDone := hKeep (fun card => { card.nodesClear with art := .picture, rendered := true }) rfl
        refine ⟨⟨hDone.nodup, hDone.shown, hDone.panes, hDone.unrendered⟩, rfl, fun d hNe => ?_, .inl rfl⟩
        exact Function.update_of_ne hNe _ _
      case isFalse => exact ⟨hKeep _ rfl, rfl, hOthers _, .inl rfl⟩

theorem Queued.storeSignature (h : o.Queued) (c : Nat) : (o.storeSignature c).Queued := by
  unfold EpimoneOverview.storeSignature
  dsimp only
  split
  · exact ⟨h.nodup, h.shown, h.panes, h.unrendered⟩
  · exact h

theorem Stopped.storeSignature (h : o.Stopped) (c : Nat) : (o.storeSignature c).Stopped := by
  unfold EpimoneOverview.storeSignature
  dsimp only
  split
  · exact ⟨h.1, h.2, h.3, h.4, h.5⟩
  · exact h

theorem storeSignature_queue (o : EpimoneOverview) (c : Nat) :
    (o.storeSignature c).pending = o.pending ∧ (o.storeSignature c).card = o.card := by
  unfold storeSignature
  dsimp only
  split <;> exact ⟨rfl, rfl⟩

/-- The pane of the head is captured, and its card has others left or is composed. -/
def captured (o : EpimoneOverview) (c : Nat) (x : Capture) : EpimoneOverview :=
  { o.settleCancel.updateCard c (fun card => card.commit x.captured o.paneSig) with
    trace := o.trace ++ [Record.captured x.captured] }

theorem captured_card (o : EpimoneOverview) (c : Nat) (x : Capture) :
    (o.captured c x).card c = (o.card c).commit x.captured o.paneSig :=
  Function.update_self ..

/-- The pane is to be tried again. -/
def retried (o : EpimoneOverview) (c : Nat) : EpimoneOverview :=
  { o.settleCancel.updateCard c Card.retry with pumpTimeout := some 16 }

/-- The next pane of the card is to be drawn. -/
def onward (o : EpimoneOverview) (c : Nat) (x : Capture) : EpimoneOverview :=
  { o.captured c x with pumpTimeout := some 1 }

/-- The card has all its panes and is composed. -/
def composed (o : EpimoneOverview) (c : Nat) (rest : List Nat) (x : Capture) : EpimoneOverview :=
  ({ o.captured c x with pending := rest }.renderCompose c x).storeSignature c

/-- A pane is recorded, as captured or as missing: there is an allocation, or no attempt is left. -/
def Records (o : EpimoneOverview) (c : Nat) (x : Capture) : Prop :=
  x.Allocated ∨ renderMaxAttempts ≤ (o.card c).attempts

/-- What the end of a pane comes to: another try, the next pane, or a card that is composed. -/
theorem renderFinish_cases {motive : EpimoneOverview → Prop} (hPending : o.pending = c :: rest) (x : Capture)
    (hRetry : ¬ o.Records c x → motive (o.retried c))
    (hNext : o.Records c x → (o.card c).curLeaf + 1 < (o.card c).leaves.length → motive (o.onward c x))
    (hDone : o.Records c x → (o.card c).leaves.length ≤ (o.card c).curLeaf + 1 →
      motive (o.composed c rest x).renderPump) :
    motive (o.renderFinish x) := by
  have hHead : o.settleCancel.pending = c :: rest := hPending
  have hCard := o.captured_card c x
  have hLeaves : ((o.captured c x).card c).leaves = (o.card c).leaves := by rw [hCard]; rfl
  unfold renderFinish
  dsimp only
  rw [hHead]
  dsimp only
  split
  case isTrue hAgain => exact hRetry (not_or.mpr ⟨hAgain.1, Nat.not_le.mpr hAgain.2⟩)
  case isFalse hRecord =>
    have hRecords : o.Records c x := (not_and_or.mp hRecord).imp not_not.mp Nat.not_lt.mp
    change motive (if ((o.captured c x).card c).curLeaf < ((o.captured c x).card c).leaves.length then _ else _)
    rw [hLeaves, hCard]
    split
    case isTrue hMore => exact hNext hRecords hMore
    case isFalse hLast => exact hDone hRecords (Nat.not_lt.mp hLast)

section Finish

variable (h : o.Sound) (hArmed : o.settleBackstop.isSome = true) (hPending : o.pending = c :: rest) (x : Capture)

include h

theorem Sound.captured : (o.captured c x).Queued := by
  have hCommit := h.toQueued.settleCancel.updateCard (c := c) (f := fun card => card.commit x.captured o.paneSig) rfl
    fun _ => rfl
  exact ⟨hCommit.nodup, hCommit.shown, hCommit.panes, hCommit.unrendered⟩

include hArmed

theorem Sound.stopped_captured : (o.captured c x).Stopped := by
  have hStopped := h.settleCancel hArmed
  exact ⟨hStopped.1, hStopped.2, hStopped.3, hStopped.4, hStopped.5⟩

include hPending

/-- The card that has all its panes is out of the queue, unless it comes back at its end with one attempt less. -/
theorem Sound.composed : (o.composed c rest x).Queued ∧ (o.composed c rest x).Stopped ∧
    (∀ d, d ≠ c → (o.composed c rest x).card d = o.card d) ∧
      ((o.composed c rest x).pending = rest ∨ (o.composed c rest x).pending = rest ++ [c] ∧
        (o.card c).attempts < renderMaxAttempts ∧ ((o.composed c rest x).card c).attempts = (o.card c).attempts + 1 ∧
          ((o.composed c rest x).card c).leaves = (o.card c).leaves) := by
  have hIn : c ∈ o.pending := hPending ▸ List.mem_cons_self
  have hCaptured := h.captured (c := c) x
  have hStill := h.stopped_captured (c := c) hArmed x
  have hCard := o.captured_card c x
  obtain ⟨hAway, hRest⟩ := List.nodup_cons.mp (hPending ▸ h.nodup)
  have hSub : ∀ d ∈ rest, d ∈ (o.captured c x).pending := by
    intro d hd
    change d ∈ o.pending
    rw [hPending]
    exact List.mem_cons_of_mem c hd
  have hPopped : { o.captured c x with pending := rest }.Queued :=
    ⟨hRest, fun d hd => hCaptured.shown (hSub d hd), fun d hd => hCaptured.panes d (hSub d hd),
      fun d hd => hCaptured.unrendered d (hSub d hd)⟩
  have hEmpty : { o.captured c x with pending := rest }.Stopped := ⟨hStill.1, hStill.2, hStill.3, hStill.4, hStill.5⟩
  obtain ⟨hQueued, -, hOthers, hQueue⟩ :=
    hPopped.renderCompose hAway (h.shown hIn) (hCaptured.panes c hIn) (hCaptured.unrendered c hIn) x
  change _ ∨ _ ∧ ((o.captured c x).card c).attempts < renderMaxAttempts ∧
    _ = ((o.captured c x).card c).attempts + 1 ∧ _ = ((o.captured c x).card c).leaves at hQueue
  rw [hCard] at hQueue
  obtain ⟨hPendingStored, hCardStored⟩ :=
    ({ o.captured c x with pending := rest }.renderCompose c x).storeSignature_queue c
  refine ⟨hQueued.storeSignature c, (hEmpty.renderCompose c x).storeSignature c, fun d hNe => ?_, ?_⟩
  · rw [EpimoneOverview.composed, hCardStored, hOthers d hNe]
    exact Function.update_of_ne hNe _ _
  · rw [EpimoneOverview.composed, hPendingStored, hCardStored]
    exact hQueue

omit hPending

theorem Sound.renderFinish : (o.renderFinish x).Sound := by
  obtain ⟨hBusy, c, rest, hPending⟩ := h.armed (.inr (.inr hArmed))
  have hStopped := h.settleCancel hArmed
  have hCard := o.captured_card c x
  apply renderFinish_cases hPending x
  case hRetry =>
    intro _
    have hRetry : (o.settleCancel.updateCard c Card.retry).Queued := h.toQueued.settleCancel.updateCard rfl fun _ => rfl
    refine hRetry.sound_of_pump ⟨hStopped.1, hStopped.2, hStopped.3, hStopped.4, hStopped.5⟩ hBusy hPending ?_ _
    rw [updateCard_self]
    exact h.current c rest hPending
  case hNext =>
    intro _ hMore
    refine (h.captured x).sound_of_pump (h.stopped_captured hArmed x) hBusy hPending ?_ _
    rw [hCard]
    exact hMore
  case hDone =>
    intro _ _
    obtain ⟨hQueued, hStill, -⟩ := h.composed hArmed hPending x
    exact hQueued.renderPump hStill

end Finish

theorem renderCurrentLeaf_of_cons (hPending : o.pending = c :: rest) :
    o.renderCurrentLeaf = (o.card c).leaves[(o.card c).curLeaf]? := by
  rw [renderCurrentLeaf, hPending]
  rfl

theorem Working.renderFeed_eq (h : o.Working) (hPending : o.pending = c :: rest) (tail : Option Bytes) :
    ∃ leaf, (o.card c).leaves[(o.card c).curLeaf]? = some leaf ∧
      o.renderFeed tail =
        { o with
          feedTimeout := none
          paneSig := leaf.signature tail
          fed := true
          fedLen := (tail.getD []).length
          settleBackstop := some 60
          trace := o.trace ++ [Record.peeked leaf tail] } := by
  have hLeaf := List.getElem?_eq_getElem (h.current c rest hPending)
  refine ⟨_, hLeaf, ?_⟩
  have hCurrent : { o with feedTimeout := none }.renderCurrentLeaf = _ :=
    (renderCurrentLeaf_of_cons hPending).trans hLeaf
  rw [renderFeed]
  dsimp only
  rw [hCurrent]

/-- What a step of the pump comes to: the grid that is to be allocated first, or the feed. -/
theorem Working.renderStart_cases (h : o.Working) (hPending : o.pending = c :: rest) (tail : Option Bytes) :
    (∃ cols rows, o.renderStart tail =
      { o with pumpTimeout := none, fed := false, lastCols := cols, lastRows := rows, feedTimeout := some 16 }) ∨
      o.renderStart tail = { o with pumpTimeout := none, fed := false }.renderFeed tail := by
  have hLeaf := List.getElem?_eq_getElem (h.current c rest hPending)
  have hCurrent : { o with pumpTimeout := none }.renderCurrentLeaf = _ :=
    (renderCurrentLeaf_of_cons hPending).trans hLeaf
  rw [renderStart]
  dsimp only
  rw [hCurrent]
  dsimp only
  split
  · exact .inl ⟨_, _, rfl⟩
  · exact .inr rfl

theorem Working.renderFeed (h : o.Working) (hBusy : o.rendering = true) (hPump : o.pumpTimeout = none)
    (tail : Option Bytes) : (o.renderFeed tail).Sound := by
  obtain ⟨c, rest, hPending⟩ := List.exists_cons_of_ne_nil (h.busy.mp hBusy)
  obtain ⟨leaf, -, hFeed⟩ := h.renderFeed_eq hPending tail
  rw [hFeed]
  refine ⟨⟨⟨h.nodup, h.shown, h.panes, h.unrendered⟩, h.busy, h.current⟩, ?_, rfl, fun _ => rfl⟩
  simp [outstanding, hPump, hBusy]

theorem Sound.renderStart (h : o.Sound) (hArmed : o.pumpTimeout.isSome = true) (tail : Option Bytes) :
    (o.renderStart tail).Sound := by
  obtain ⟨hBusy, c, rest, hPending⟩ := h.armed (.inl hArmed)
  obtain ⟨hFeed, hBackstop⟩ := (h.alone hBusy).1 hArmed
  have hQuiet := h.quiet_of_not_fed hBackstop
  have hWorking : { o with pumpTimeout := none, fed := false }.Working :=
    ⟨⟨h.nodup, h.shown, h.panes, h.unrendered⟩, h.busy, h.current⟩
  rcases h.renderStart_cases hPending tail with ⟨cols, rows, hStart⟩ | hStart
  · rw [hStart]
    refine ⟨⟨⟨h.nodup, h.shown, h.panes, h.unrendered⟩, h.busy, h.current⟩, ?_, ?_, ?_⟩
    · simp [outstanding, hBackstop, hBusy]
    · rw [hBackstop]
      rfl
    · rw [hQuiet]
      nofun
  · rw [hStart]
    exact hWorking.renderFeed hBusy rfl tail

theorem Sound.renderFeed (h : o.Sound) (hArmed : o.feedTimeout.isSome = true) (tail : Option Bytes) :
    (o.renderFeed tail).Sound := by
  obtain ⟨hBusy, -⟩ := h.armed (.inr (.inl hArmed))
  exact h.toWorking.renderFeed hBusy ((h.alone hBusy).2.1 hArmed).1 tail

theorem Sound.renderFinishQuiet (h : o.Sound) (hArmed : o.settleQuiet.isSome = true) (blank : Bool) (x : Capture) :
    (o.renderFinishQuiet blank x).Sound := by
  have hQuiet : { o with settleQuiet := none }.Sound :=
    ⟨⟨⟨h.nodup, h.shown, h.panes, h.unrendered⟩, h.busy, h.current⟩, h.chain, h.fed, nofun⟩
  unfold EpimoneOverview.renderFinishQuiet
  dsimp only
  split
  · exact hQuiet
  · exact hQuiet.renderFinish (h.quiet hArmed) x

theorem Sound.thumbContentsChanged (h : o.Sound) : o.thumbContentsChanged.Sound := by
  unfold EpimoneOverview.thumbContentsChanged
  split
  case isTrue => exact h
  case isFalse hFed =>
    obtain ⟨-, hFed⟩ := not_or.mp hFed
    refine ⟨⟨⟨h.nodup, h.shown, h.panes, h.unrendered⟩, h.busy, h.current⟩, h.chain, h.fed, fun _ => ?_⟩
    exact h.fed.symm.trans (Bool.eq_true_of_not_eq_false hFed)

theorem Sound.queueVisibleRenders (h : o.Sound) (near : Nat → Bool) (tails : Nat → List (Option Bytes)) :
    (o.queueVisibleRenders near tails).Sound := by
  cases hBusy : o.rendering with
  | true =>
    obtain ⟨more, hExtends⟩ := queueVisibleRenders_of_busy hBusy near tails
    exact h.extend hExtends hBusy
  | false => exact h.toQueued.queueVisibleRenders (h.stopped hBusy) hBusy near tails

/-- What is left alone by the building of the cards. -/
structure Idle (o : EpimoneOverview) : Prop extends Stopped o where
  pending : o.pending = []
  rendering : o.rendering = false

theorem Idle.queueVisibleRenders (h : o.Idle) (near : Nat → Bool) (tails : Nat → List (Option Bytes)) :
    (o.queueVisibleRenders near tails).Sound :=
  (queued_of_pending_nil h.pending).queueVisibleRenders h.toStopped h.rendering near tails

theorem Idle.addCards (h : o.Idle) (fresh : Nat) (infos : List CardInfo) : (infos.foldl (addCard fresh) o).Idle := by
  induction infos generalizing o with
  | nil => exact h
  | cons info infos ih => exact ih ⟨⟨h.pump, h.feed, h.backstop, h.quiet, h.fed⟩, h.pending, h.rendering⟩

theorem Idle.refreshCards (h : o.Idle) (cs : List Nat) : (cs.foldl refreshCard o).Idle := by
  induction cs generalizing o with
  | nil => exact h
  | cons c cs ih =>
    refine ih ?_
    unfold refreshCard
    split
    · exact h
    · exact ⟨⟨h.pump, h.feed, h.backstop, h.quiet, h.fed⟩, h.pending, h.rendering⟩

theorem Idle.sound (h : o.Idle) : o.Sound := h.toStopped.sound_of_idle h.pending h.rendering

theorem sound_reload (o : EpimoneOverview) (built : Option Built) (near : Nat → Bool)
    (tails : Nat → List (Option Bytes)) : (o.reload built near tails).Sound := by
  have hIdle : { o.renderAbort with flow := [] }.Idle := ⟨⟨rfl, rfl, rfl, rfl, rfl⟩, rfl, rfl⟩
  unfold reload
  split
  · exact hIdle.sound
  · rename_i b
    have hBuilt := hIdle.addCards b.freshCaptureGroup b.cards
    have hPruned :
        ((b.cards.foldl (addCard b.freshCaptureGroup) { o.renderAbort with flow := [] }).prune b.groupIds).Idle :=
      ⟨⟨hBuilt.pump, hBuilt.feed, hBuilt.backstop, hBuilt.quiet, hBuilt.fed⟩, hBuilt.pending, hBuilt.rendering⟩
    exact hPruned.queueVisibleRenders near tails

theorem sound_appearanceChanged (o : EpimoneOverview) (near : Nat → Bool) (tails : Nat → List (Option Bytes)) :
    (o.appearanceChanged near tails).Sound := by
  have hIdle : { o.renderAbort with thumbCache := fun _ => none, thumbSig := fun _ => none }.Idle :=
    ⟨⟨rfl, rfl, rfl, rfl, rfl⟩, rfl, rfl⟩
  exact (hIdle.refreshCards _).queueVisibleRenders near tails

theorem sound_dispose (o : EpimoneOverview) : o.dispose.Sound :=
  Idle.sound ⟨⟨rfl, rfl, rfl, rfl, rfl⟩, rfl, rfl⟩

theorem Sound.step {o' : EpimoneOverview} {event : OverviewEvent} (h : o.Sound) (hStep : o.step event = some o') :
    o'.Sound := by
  cases event with
  | reload built near tails =>
    cases hStep
    exact o.sound_reload built near tails
  | scrolled near tails =>
    cases hStep
    exact h.queueVisibleRenders near tails
  | appearanceChanged near tails =>
    cases hStep
    exact o.sound_appearanceChanged near tails
  | animate animating =>
    cases hStep
    exact ⟨⟨⟨h.nodup, h.shown, h.panes, h.unrendered⟩, h.busy, h.current⟩, h.chain, h.fed, h.quiet⟩
  | liveCaptured key texture =>
    cases hStep
    exact ⟨⟨⟨h.nodup, h.shown, h.panes, h.unrendered⟩, h.busy, h.current⟩, h.chain, h.fed, h.quiet⟩
  | contentsChanged =>
    cases hStep
    exact h.thumbContentsChanged
  | pumpExpires tail =>
    obtain ⟨hArmed, ⟨⟩⟩ := Option.ite_none_right_eq_some.mp hStep
    exact h.renderStart hArmed tail
  | feedExpires tail =>
    obtain ⟨hArmed, ⟨⟩⟩ := Option.ite_none_right_eq_some.mp hStep
    exact h.renderFeed hArmed tail
  | backstopExpires x =>
    obtain ⟨hArmed, ⟨⟩⟩ := Option.ite_none_right_eq_some.mp hStep
    exact h.renderFinish hArmed x
  | quietExpires blank x =>
    obtain ⟨hArmed, ⟨⟩⟩ := Option.ite_none_right_eq_some.mp hStep
    exact h.renderFinishQuiet hArmed blank x
  | dispose =>
    cases hStep
    exact o.sound_dispose

theorem sound_start : EpimoneOverview.start.Sound := Idle.sound ⟨⟨rfl, rfl, rfl, rfl, rfl⟩, rfl, rfl⟩

end EpimoneOverview

/-- The events that empty the queue. -/
def OverviewEvent.aborts : OverviewEvent → Bool
  | .reload .. => true
  | .appearanceChanged .. => true
  | .dispose => true
  | _ => false

namespace EpimoneOverview

variable {o o' : EpimoneOverview} {c : Nat} {rest : List Nat}

/-- The event is a step of the chain; a quiet period that ends on a blank grid is none. -/
def chainStep (o : EpimoneOverview) : OverviewEvent → Bool
  | .pumpExpires _ => true
  | .feedExpires _ => true
  | .backstopExpires _ => true
  | .quietExpires blank _ => !(decide (0 < o.fedLen) && blank)
  | _ => false

/-- The event is a step of the chain for this card. -/
def works (o : EpimoneOverview) (c : Nat) (event : OverviewEvent) : Nat :=
  if o.chainStep event = true ∧ o.pending.head? = some c then 1 else 0

/-- The steps for a card in a run. -/
def worked (c : Nat) : EpimoneOverview → List OverviewEvent → Nat
  | _, [] => 0
  | o, event :: events =>
    match o.step event with
    | none => 0
    | some o' => o.works c event + worked c o' events

/-- The card is in the queue before each of the events, none of which empties the queue. -/
def Stays (c : Nat) : EpimoneOverview → List OverviewEvent → Prop
  | _, [] => True
  | o, event :: events => c ∈ o.pending ∧ event.aborts = false ∧ ∀ o', o.step event = some o' → Stays c o' events

/-- How many captures a card may still take, from one of its panes on. -/
def passes (card : Card) (cur : Nat) : Nat :=
  (renderMaxAttempts - card.attempts) * card.leaves.length + (card.leaves.length - cur)

/-- The steps to the next capture. -/
def phase (o : EpimoneOverview) : Nat :=
  if o.pumpTimeout.isSome then 3 else if o.feedTimeout.isSome then 2 else 1

/-- The steps that a card in the queue may still take. -/
def left (o : EpimoneOverview) (c : Nat) : Nat :=
  if o.pending.head? = some c then 3 * (passes (o.card c) (o.card c).curLeaf - 1) + o.phase
  else 3 * passes (o.card c) 0

def due (o : EpimoneOverview) (c : Nat) : Nat := if c ∈ o.pending then o.left c else 0

theorem left_congr (hHead : o'.pending.head? = o.pending.head?) (hCard : o'.card c = o.card c)
    (hPhase : o'.phase = o.phase) : o'.left c = o.left c := by
  rw [left, hHead, hCard, hPhase, left]

theorem phase_of_pump (h : o.pumpTimeout.isSome = true) : o.phase = 3 := if_pos h

theorem phase_of_feed (hPump : o.pumpTimeout = none) (h : o.feedTimeout.isSome = true) : o.phase = 2 := by
  rw [phase, hPump]
  exact if_pos h

theorem phase_of_backstop (hPump : o.pumpTimeout = none) (hFeed : o.feedTimeout = none) : o.phase = 1 := by
  rw [phase, hPump, hFeed]
  rfl

theorem phase_le (o : EpimoneOverview) : o.phase ≤ 3 := by
  unfold phase
  split
  · exact Nat.le_refl 3
  · split <;> decide

theorem passes_pos {card : Card} {cur : Nat} (h : cur < card.leaves.length) : 1 ≤ passes card cur := by
  unfold passes
  omega

theorem due_of_mem (h : c ∈ o.pending) : o.due c = o.left c := if_pos h

theorem left_head (hPending : o.pending = c :: rest) :
    o.left c = 3 * (passes (o.card c) (o.card c).curLeaf - 1) + o.phase :=
  if_pos (congrArg List.head? hPending)

theorem left_of_ne (hNe : o.pending.head? ≠ some c) : o.left c = 3 * passes (o.card c) 0 := if_neg hNe

theorem left_le (h : o.Sound) (hIn : c ∈ o.pending) : o.left c ≤ 3 * passes (o.card c) 0 := by
  obtain ⟨d, rest, hPending⟩ := List.exists_cons_of_ne_nil (List.ne_nil_of_mem hIn)
  rcases eq_or_ne d c with rfl | hNe
  · have hCurrent := h.current d rest hPending
    have hPos := passes_pos hCurrent
    have hPhase := o.phase_le
    have hCur : passes (o.card d) (o.card d).curLeaf ≤ passes (o.card d) 0 := by
      unfold passes
      omega
    rw [left_head hPending]
    omega
  · refine Nat.le_of_eq (left_of_ne fun hHead => hNe ?_)
    rw [hPending] at hHead
    exact Option.some.inj hHead

theorem due_renderPump (h : o.Queued) (hIn : c ∈ o.pending) : o.renderPump.due c = 3 * passes (o.card c) 0 := by
  obtain ⟨d, rest, hPending⟩ := List.exists_cons_of_ne_nil (List.ne_nil_of_mem hIn)
  have hPumped : o.renderPump = { o.updateCard d Card.begin with
      rendering := true
      trace := o.trace ++ [Record.began d]
      pumpTimeout := o.renderPump.pumpTimeout } ∧ o.renderPump.pumpTimeout.isSome = true := by
    rw [renderPump, hPending]
    exact ⟨rfl, rfl⟩
  obtain ⟨hPump, hArmed⟩ := hPumped
  have hQueue : o.renderPump.pending = d :: rest := by
    rw [hPump]
    exact hPending
  rw [due, hQueue, if_pos (hPending ▸ hIn)]
  rcases eq_or_ne d c with rfl | hNe
  · have hCard : o.renderPump.card d = (o.card d).begin := by
      rw [hPump]
      exact updateCard_self ..
    have hPos : 1 ≤ passes (o.card d) 0 := passes_pos (List.length_pos_of_ne_nil (h.panes d hIn))
    rw [left_head hQueue, phase_of_pump hArmed, hCard]
    change 3 * (passes (o.card d) 0 - 1) + 3 = _
    omega
  · have hCard : o.renderPump.card c = o.card c := by
      rw [hPump]
      exact updateCard_of_ne hNe.symm _
    rw [left_of_ne, hCard]
    rw [hQueue]
    exact fun hHead => hNe (Option.some.inj hHead)

theorem renderPump_pending (o : EpimoneOverview) : o.renderPump.pending = o.pending := by
  unfold renderPump
  split <;> rfl

theorem passes_retry {card : Card} (h : card.attempts < renderMaxAttempts) (cur : Nat) :
    passes card.retry cur + card.leaves.length = passes card cur := by
  obtain ⟨n, hn⟩ : ∃ n, renderMaxAttempts - card.attempts = n + 1 := ⟨renderMaxAttempts - card.attempts - 1, by omega⟩
  have hRetry : renderMaxAttempts - card.retry.attempts = n := by
    change renderMaxAttempts - (card.attempts + 1) = n
    omega
  rw [passes, passes, hn, hRetry, Nat.succ_mul]
  change n * card.leaves.length + (card.leaves.length - cur) + card.leaves.length = _
  omega

section Spend

variable {d : Nat} (hPending : o.pending = d :: rest) (h : o.Sound) (hArmed : o.settleBackstop.isSome = true)

include hPending

theorem head_iff : o.pending.head? = some c ↔ d = c := by
  rw [hPending]
  exact Option.some.injEq d c ▸ Iff.rfl

/-- A card behind the head is owed what it was, whatever becomes of the head. -/
theorem due_behind (hNe : d ≠ c) (hIn : c ∈ o.pending) (hQueue : o'.pending = d :: rest)
    (hCard : o'.card c = o.card c) :
    (if o.pending.head? = some c then 1 else 0) + o'.due c ≤ o.left c := by
  have hBehind : o.pending.head? ≠ some c := fun hSame => hNe ((head_iff hPending).mp hSame)
  have hStill : o'.pending.head? ≠ some c := by
    rw [hQueue, ← hPending]
    exact hBehind
  have hStays : c ∈ o'.pending := hQueue ▸ hPending ▸ hIn
  rw [due_of_mem hStays, if_neg hBehind, left_of_ne hStill, left_of_ne hBehind, hCard, Nat.zero_add]

include h hArmed

theorem left_of_backstop : o.left d = 3 * (passes (o.card d) (o.card d).curLeaf - 1) + 1 := by
  obtain ⟨hPump, hFeed⟩ := (h.alone (h.armed (.inr (.inr hArmed))).1).2.2 hArmed
  rw [left_head hPending, phase_of_backstop hPump hFeed]

theorem spend_retried (hIn : c ∈ o.pending) (hRetry : (o.card d).attempts < renderMaxAttempts) :
    (if o.pending.head? = some c then 1 else 0) + (o.retried d).due c ≤ o.left c := by
  have hQueue : (o.retried d).pending = d :: rest := hPending
  rcases eq_or_ne d c with rfl | hNe
  · have hCard : (o.retried d).card d = (o.card d).retry := updateCard_self ..
    have hPasses := passes_retry hRetry (o.card d).curLeaf
    have hCurrent := h.current d rest hPending
    have hFewer : 1 ≤ passes (o.card d).retry (o.card d).curLeaf := passes_pos hCurrent
    rw [due_of_mem (hQueue ▸ List.mem_cons_self), if_pos ((head_iff hPending).mpr rfl),
      left_of_backstop hPending h hArmed, left_head hQueue, hCard, phase_of_pump rfl]
    change 1 + (3 * (passes (o.card d).retry (o.card d).curLeaf - 1) + 3) ≤ _
    omega
  · exact due_behind hPending hNe hIn hQueue (Function.update_of_ne hNe.symm _ _)

theorem spend_onward (x : Capture) (hIn : c ∈ o.pending) (hMore : (o.card d).curLeaf + 1 < (o.card d).leaves.length) :
    (if o.pending.head? = some c then 1 else 0) + (o.onward d x).due c ≤ o.left c := by
  have hQueue : (o.onward d x).pending = d :: rest := hPending
  rcases eq_or_ne d c with rfl | hNe
  · have hCard : (o.onward d x).card d = (o.card d).commit x.captured o.paneSig := o.captured_card d x
    have hPasses : passes (o.card d) ((o.card d).curLeaf + 1) + 1 = passes (o.card d) (o.card d).curLeaf := by
      unfold passes
      omega
    have hStill := passes_pos hMore
    rw [due_of_mem (hQueue ▸ List.mem_cons_self), if_pos ((head_iff hPending).mpr rfl),
      left_of_backstop hPending h hArmed, left_head hQueue, hCard, phase_of_pump rfl]
    change 1 + (3 * (passes (o.card d) ((o.card d).curLeaf + 1) - 1) + 3) ≤ _
    omega
  · exact due_behind hPending hNe hIn hQueue (Function.update_of_ne hNe.symm _ _)

theorem spend_composed (x : Capture) (hIn : c ∈ o.pending) :
    (if o.pending.head? = some c then 1 else 0) + (o.composed d rest x).renderPump.due c ≤ o.left c := by
  obtain ⟨hQueued, -, hOthers, hQueue⟩ := h.composed hArmed hPending x
  have hLeft := left_of_backstop hPending h hArmed
  have hAway : d ∉ rest := (List.nodup_cons.mp (hPending ▸ h.nodup)).1
  have hDue : (o.composed d rest x).renderPump.due c =
      if c ∈ (o.composed d rest x).pending then 3 * passes ((o.composed d rest x).card c) 0 else 0 := by
    split
    · rename_i hBack
      exact due_renderPump hQueued hBack
    · rename_i hGone
      rw [due, renderPump_pending, if_neg hGone]
  rw [hDue]
  rcases eq_or_ne d c with rfl | hNe
  · rw [if_pos ((head_iff hPending).mpr rfl)]
    have hCurrent := h.current d rest hPending
    rcases hQueue with hGone | ⟨hBack, hAttempts, hFewer, hLeaves⟩
    · rw [hGone, if_neg hAway, hLeft]
      omega
    · have hRetry := passes_retry hAttempts 0
      have hSame : passes ((o.composed d rest x).card d) 0 = passes (o.card d).retry 0 := by
        unfold passes
        rw [hFewer, hLeaves]
        rfl
      have hAll : passes (o.card d) 0 + 1 ≤ passes (o.card d) (o.card d).curLeaf + (o.card d).leaves.length := by
        unfold passes
        omega
      rw [hBack, if_pos (List.mem_append_right _ (List.mem_singleton_self d)), hSame, hLeft]
      omega
  · have hBehind : o.pending.head? ≠ some c := fun hSame => hNe ((head_iff hPending).mp hSame)
    rw [if_neg hBehind, left_of_ne hBehind, hOthers c hNe.symm, Nat.zero_add]
    split
    · exact Nat.le_refl _
    · exact Nat.zero_le _

end Spend

theorem spend_renderFinish (h : o.Sound) (hArmed : o.settleBackstop.isSome = true) (x : Capture) (hIn : c ∈ o.pending) :
    (if o.pending.head? = some c then 1 else 0) + (o.renderFinish x).due c ≤ o.left c := by
  obtain ⟨-, d, rest, hPending⟩ := h.armed (.inr (.inr hArmed))
  apply renderFinish_cases (motive := fun o' => (if o.pending.head? = some c then 1 else 0) + o'.due c ≤ o.left c)
    hPending x
  case hRetry => exact fun hMissing => spend_retried hPending h hArmed hIn (Nat.not_le.mp (not_or.mp hMissing).2)
  case hNext => exact fun _ => spend_onward hPending h hArmed x hIn
  case hDone => exact fun _ _ => spend_composed hPending h hArmed x hIn

theorem spend_before (hIn : c ∈ o.pending) (hQueue : o'.pending = o.pending) (hCards : o'.card = o.card)
    (hSooner : o'.phase < o.phase) : (if o.pending.head? = some c then 1 else 0) + o'.due c ≤ o.left c := by
  rw [due_of_mem (hQueue ▸ hIn), left, left, hQueue, hCards]
  split <;> omega

theorem Working.spend_renderFeed (h : o.Working) (hPump : o.pumpTimeout = none) (hPhase : 1 < o'.phase)
    (hQueue : o.pending = o'.pending) (hCards : o.card = o'.card) (tail : Option Bytes) (hIn : c ∈ o'.pending) :
    (if o'.pending.head? = some c then 1 else 0) + (o.renderFeed tail).due c ≤ o'.left c := by
  obtain ⟨d, rest, hPending⟩ := List.exists_cons_of_ne_nil (List.ne_nil_of_mem hIn)
  obtain ⟨leaf, -, hFeed⟩ := h.renderFeed_eq (hQueue.trans hPending) tail
  rw [hFeed]
  refine spend_before hIn hQueue hCards (Nat.lt_of_le_of_lt (Nat.le_of_eq ?_) hPhase)
  exact phase_of_backstop hPump rfl

theorem spend_renderStart (h : o.Sound) (hArmed : o.pumpTimeout.isSome = true) (tail : Option Bytes)
    (hIn : c ∈ o.pending) :
    (if o.pending.head? = some c then 1 else 0) + (o.renderStart tail).due c ≤ o.left c := by
  obtain ⟨-, d, rest, hPending⟩ := h.armed (.inl hArmed)
  have hPhase := phase_of_pump hArmed
  have hLater : 1 < o.phase := by omega
  have hWorking : { o with pumpTimeout := none, fed := false }.Working :=
    ⟨⟨h.nodup, h.shown, h.panes, h.unrendered⟩, h.busy, h.current⟩
  rcases h.renderStart_cases hPending tail with ⟨cols, rows, hStart⟩ | hStart
  · rw [hStart]
    refine spend_before hIn rfl rfl ?_
    rw [hPhase, phase_of_feed rfl rfl]
    decide
  · rw [hStart]
    exact hWorking.spend_renderFeed rfl hLater rfl rfl tail hIn

theorem spend_renderFeed (h : o.Sound) (hArmed : o.feedTimeout.isSome = true) (tail : Option Bytes)
    (hIn : c ∈ o.pending) :
    (if o.pending.head? = some c then 1 else 0) + (o.renderFeed tail).due c ≤ o.left c := by
  obtain ⟨hBusy, -⟩ := h.armed (.inr (.inl hArmed))
  have hPump := ((h.alone hBusy).2.1 hArmed).1
  refine h.toWorking.spend_renderFeed hPump ?_ rfl rfl tail hIn
  rw [phase_of_feed hPump hArmed]
  decide

theorem works_of_chain {event : OverviewEvent} (hChain : o.chainStep event = true) (c : Nat) :
    o.works c event = if o.pending.head? = some c then 1 else 0 := by
  rw [works, hChain]
  exact if_congr (and_iff_right rfl) rfl rfl

theorem works_of_other {event : OverviewEvent} (hOther : o.chainStep event = false) (c : Nat) :
    o.works c event = 0 := by
  rw [works, hOther]
  exact if_neg fun hChain => absurd hChain.1 Bool.false_ne_true

/-- Each step of the chain for a card is one of those it may still take, and nothing gives it more. -/
theorem Sound.spend {event : OverviewEvent} (h : o.Sound) (hIn : c ∈ o.pending) (hKeeps : event.aborts = false)
    (hStep : o.step event = some o') : o.works c event + o'.due c ≤ o.due c := by
  have hIdle : ∀ event : OverviewEvent, o.chainStep event = false → o'.due c = o.due c →
      o.works c event + o'.due c ≤ o.due c := by
    intro event hOther hSame
    rw [works_of_other hOther, hSame, Nat.zero_add]
  cases event with
  | reload => cases hKeeps
  | appearanceChanged => cases hKeeps
  | dispose => cases hKeeps
  | scrolled near tails =>
    cases hStep
    refine hIdle _ rfl ?_
    have hBusy := h.busy.mpr (List.ne_nil_of_mem hIn)
    obtain ⟨more, hExtends⟩ := queueVisibleRenders_of_busy hBusy near tails
    obtain ⟨d, rest, hPending⟩ := List.exists_cons_of_ne_nil (List.ne_nil_of_mem hIn)
    have hMem : c ∈ o.pending ++ more := List.mem_append_left more hIn
    have hHead : (o.queueVisibleRenders near tails).pending.head? = o.pending.head? := by
      rw [hExtends.pending, hPending]
      rfl
    have hPhase : (o.queueVisibleRenders near tails).phase = o.phase := by
      rw [hExtends.eq]
      rfl
    rw [due_of_mem hIn, due_of_mem (hExtends.pending ▸ hMem), left_congr hHead (hExtends.card_of_pending hMem) hPhase]
  | animate =>
    cases hStep
    exact hIdle _ rfl rfl
  | liveCaptured =>
    cases hStep
    exact hIdle _ rfl rfl
  | contentsChanged =>
    cases hStep
    refine hIdle _ rfl ?_
    rw [EpimoneOverview.thumbContentsChanged]
    split <;> rfl
  | pumpExpires tail =>
    obtain ⟨hArmed, ⟨⟩⟩ := Option.ite_none_right_eq_some.mp hStep
    rw [works_of_chain rfl, due_of_mem hIn]
    exact spend_renderStart h hArmed tail hIn
  | feedExpires tail =>
    obtain ⟨hArmed, ⟨⟩⟩ := Option.ite_none_right_eq_some.mp hStep
    rw [works_of_chain rfl, due_of_mem hIn]
    exact spend_renderFeed h hArmed tail hIn
  | backstopExpires x =>
    obtain ⟨hArmed, ⟨⟩⟩ := Option.ite_none_right_eq_some.mp hStep
    rw [works_of_chain rfl, due_of_mem hIn]
    exact spend_renderFinish h hArmed x hIn
  | quietExpires blank x =>
    obtain ⟨hArmed, ⟨⟩⟩ := Option.ite_none_right_eq_some.mp hStep
    have hQuiet : { o with settleQuiet := none }.Sound :=
      ⟨⟨⟨h.nodup, h.shown, h.panes, h.unrendered⟩, h.busy, h.current⟩, h.chain, h.fed, nofun⟩
    by_cases hBlank : 0 < o.fedLen ∧ blank = true
    · have hSame : o.renderFinishQuiet blank x = { o with settleQuiet := none } := if_pos hBlank
      refine hIdle (.quietExpires blank x) (by simp [chainStep, hBlank]) ?_
      rw [hSame]
      rfl
    · have hFinish : o.renderFinishQuiet blank x = { o with settleQuiet := none }.renderFinish x := if_neg hBlank
      have hChain : o.chainStep (.quietExpires blank x) = true := by
        rw [chainStep, Bool.not_eq_true', Bool.and_eq_false_imp]
        exact fun hFed => Bool.eq_false_of_not_eq_true fun hTrue => hBlank ⟨of_decide_eq_true hFed, hTrue⟩
      rw [works_of_chain hChain, due_of_mem hIn, hFinish]
      exact spend_renderFinish hQuiet (h.quiet hArmed) x hIn

/-- What a card takes over a run that it stays for is what it was owed. -/
theorem Sound.worked_le (h : o.Sound) {events : List OverviewEvent} (hStays : Stays c o events) :
    worked c o events ≤ o.due c := by
  induction events generalizing o with
  | nil => exact Nat.zero_le _
  | cons event events ih =>
    obtain ⟨hIn, hKeeps, hRest⟩ := hStays
    cases hStep : o.step event with
    | none =>
      rw [worked, hStep]
      exact Nat.zero_le _
    | some o' =>
      have hSpend := h.spend hIn hKeeps hStep
      have hLater := ih (h.step hStep) (hRest o' hStep)
      rw [worked, hStep]
      change o.works c event + worked c o' events ≤ o.due c
      omega

theorem due_le (h : o.Sound) (c : Nat) : o.due c ≤ 3 * (renderMaxAttempts + 1) * (o.card c).leaves.length := by
  unfold due
  split
  case isTrue hIn =>
    have hPasses : passes (o.card c) 0 ≤ (renderMaxAttempts + 1) * (o.card c).leaves.length := by
      rw [passes, Nat.succ_mul, Nat.sub_zero]
      exact Nat.add_le_add_right (Nat.mul_le_mul_right _ (Nat.sub_le ..)) _
    have hLeft := left_le h hIn
    rw [Nat.mul_assoc]
    omega
  case isFalse => exact Nat.zero_le _

theorem sound_of_run {inputs : List OverviewEvent} (hRun : thumbnails.run inputs = some o) : o.Sound :=
  thumbnails.run_invariant sound_start (fun _ _ _ h hStep => h.step hStep) hRun

/-- The chain neither stalls nor doubles. -/
theorem chain_of_run {inputs : List OverviewEvent} (hRun : thumbnails.run inputs = some o) :
    (o.outstanding = if o.rendering then 1 else 0) ∧ (o.settleQuiet.isSome = true → o.settleBackstop.isSome = true) ∧
      o.pending.Nodup ∧ o.pending ⊆ o.flow ∧ (o.pending ≠ [] → o.rendering = true) ∧
        (∀ c events, Stays c o events →
          worked c o events ≤ 3 * (renderMaxAttempts + 1) * (o.card c).leaves.length) ∧
            ∀ tail blank x, o.renderAbort.step (.pumpExpires tail) = none ∧
            o.renderAbort.step (.feedExpires tail) = none ∧
              o.renderAbort.step (.backstopExpires x) = none ∧ o.renderAbort.step (.quietExpires blank x) = none := by
  have h := sound_of_run hRun
  refine ⟨h.chain, h.quiet, h.nodup, h.shown, h.busy.mpr, ?_, ?_⟩
  · intro c events hStays
    exact (h.worked_le hStays).trans (due_le h c)
  · intro tail blank x
    exact ⟨rfl, rfl, rfl, rfl⟩

/-- Every timer that is armed is armed in an empty slot: the pump arms the feed or the backstop, the feed the backstop;
the end of a pane and an idle chain arm the pump, and so does a queue that is built anew after an abort. -/
theorem slots_empty_of_run {inputs : List OverviewEvent} (hRun : thumbnails.run inputs = some o) :
    (∀ tail o', o.step (.pumpExpires tail) = some o' → o.feedTimeout = none ∧ o.settleBackstop = none) ∧
      (∀ tail o', o.step (.feedExpires tail) = some o' → o.settleBackstop = none) ∧
        (∀ x o', o.step (.backstopExpires x) = some o' → o.pumpTimeout = none) ∧
          (∀ blank x o', o.step (.quietExpires blank x) = some o' → o.pumpTimeout = none) ∧
            (o.rendering = false → o.pumpTimeout = none) ∧ o.renderAbort.pumpTimeout = none := by
  have h := sound_of_run hRun
  have hBackstop : o.settleBackstop.isSome = true → o.pumpTimeout = none := by
    intro hArmed
    obtain ⟨hBusy, -⟩ := h.armed (.inr (.inr hArmed))
    exact ((h.alone hBusy).2.2 hArmed).1
  refine ⟨?_, ?_, ?_, ?_, fun hIdle => (h.stopped hIdle).pump, o.stopped_renderAbort.pump⟩
  · intro tail o' hStep
    obtain ⟨hArmed, -⟩ := Option.ite_none_right_eq_some.mp hStep
    obtain ⟨hBusy, -⟩ := h.armed (.inl hArmed)
    exact (h.alone hBusy).1 hArmed
  · intro tail o' hStep
    obtain ⟨hArmed, -⟩ := Option.ite_none_right_eq_some.mp hStep
    obtain ⟨hBusy, -⟩ := h.armed (.inr (.inl hArmed))
    exact ((h.alone hBusy).2.1 hArmed).2
  · intro x o' hStep
    exact hBackstop (Option.ite_none_right_eq_some.mp hStep).1
  · intro blank x o' hStep
    exact hBackstop (h.quiet (Option.ite_none_right_eq_some.mp hStep).1)

/-! A card of two panes, whose first pane finds no allocation at first. -/

def twoPanes : CardInfo := ⟨1, 1, 0, [⟨⟨0, 0, 1 / 2, 1⟩, 7, 80, 24⟩, ⟨⟨1 / 2, 0, 1 / 2, 1⟩, 8, 80, 24⟩], []⟩

def noAllocation : Capture := ⟨0, 0, none, true, true⟩

theorem chain_of_run_retried : ∃ o, thumbnails.run [.reload (some ⟨[1], [twoPanes], 0⟩) (fun _ => true) fun _ => [],
    .pumpExpires (some [65]), .feedExpires (some [65]), .contentsChanged, .quietExpires false noAllocation] = some o ∧
      o.pending = [0] ∧ (o.card 0).attempts = 1 ∧ o.outstanding = 1 := by
  have hCheck : (thumbnails.run [.reload (some ⟨[1], [twoPanes], 0⟩) (fun _ => true) fun _ => [],
      .pumpExpires (some [65]), .feedExpires (some [65]), .contentsChanged,
      .quietExpires false noAllocation]).any fun o =>
        o.pending = [0] ∧ (o.card 0).attempts = 1 ∧ o.rendering = true := by decide +kernel
  obtain ⟨o, hRun, hState⟩ := thumbnails.exists_of_run_any hCheck
  obtain ⟨hPending, hAttempts, hBusy⟩ := of_decide_eq_true hState
  have hChain := (chain_of_run hRun).1
  rw [hBusy] at hChain
  exact ⟨o, hRun, hPending, hAttempts, hChain⟩

end EpimoneOverview

end Epimone.Client
