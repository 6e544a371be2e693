import Epimone.Client.RenderChain
import Epimone.Library.History

/-! # What a stored signature vouches for

The picture of a card is composed of the nodes that its panes left, its
signature is folded pane by pane beside them; a pane that could not be captured
counts in the signature and is missing in the picture.
-/
set_option autoImplicit false

namespace Epimone.Client

open Daemon Transition History

/-- What the trace tells of the card that is being rendered. -/
structure Progress where
  last : Option (EpimoneLayoutLeaf × Option Bytes)
  peeks : List (EpimoneLayoutLeaf × Option Bytes)
  nodes : List (Option RenderNode)

namespace Progress

def start : Progress := ⟨none, [], []⟩

def record (p : Progress) : Record → Progress
  | .began _ => start
  | .peeked leaf tail => { p with last := some (leaf, tail) }
  | .captured node => { p with peeks := p.peeks ++ p.last.toList, nodes := p.nodes ++ [node] }
  | .cached .. => p
  | .signed .. => p

def of (trace : List Record) : Progress := trace.foldl record start

theorem of_append_singleton (trace : List Record) (last : Record) : of (trace ++ [last]) = (of trace).record last :=
  List.foldl_concat ..

end Progress

/-- A signature is stored right after the picture of the same key, which shows a captured node of each pane; it is what
peeking the panes gives. -/
def Vouched (before : List Record) : Record → Prop
  | .signed key leaves sig => ∃ earlier texture, before = earlier ++ [Record.cached key texture] ∧
      texture.panes.map Prod.fst = leaves ∧ (texture.panes.map fun pane => some pane.2) = (Progress.of earlier).nodes ∧
        (Progress.of earlier).peeks.map Prod.fst = leaves ∧
          cardCurrentSig leaves ((Progress.of earlier).peeks.map Prod.snd) = some sig
  | _ => True

namespace Card

variable {card : Card}

theorem drawPane (leaf : EpimoneLayoutLeaf) {node : RenderNode} (h : node.Drawable) :
    (((some node).filter fun node => decide node.Drawable).map fun node => (leaf, node)) = some (leaf, node) := by
  rw [Option.filter_some, if_pos (decide_eq_true h)]
  rfl

theorem mem_drawn {pane : EpimoneLayoutLeaf × RenderNode} :
    pane ∈ card.drawn ↔ (pane.1, some pane.2) ∈ card.leaves.zip card.nodes ∧ pane.2.Drawable := by
  obtain ⟨leaf, node⟩ := pane
  rw [drawn, List.mem_filterMap]
  constructor
  · rintro ⟨⟨leaf', node'⟩, hIn, hSome⟩
    obtain ⟨n, hFilter, ⟨⟩⟩ := Option.map_eq_some_iff.mp hSome
    obtain ⟨rfl, hDrawable⟩ := Option.filter_eq_some_iff.mp hFilter
    exact ⟨hIn, of_decide_eq_true hDrawable⟩
  · rintro ⟨hIn, hDrawable⟩
    exact ⟨_, hIn, drawPane leaf hDrawable⟩

theorem drawable_of_mem_drawn {pane : EpimoneLayoutLeaf × RenderNode} (h : pane ∈ card.drawn) : pane.2.Drawable :=
  (mem_drawn.mp h).2

theorem drawn_eq_nil_iff (hLength : card.nodes.length = card.leaves.length) :
    card.drawn = [] ↔ ∀ n, some n ∈ card.nodes → ¬ n.Drawable := by
  constructor
  · intro hNone n hIn hDrawable
    rw [← List.map_snd_zip (Nat.le_of_eq hLength)] at hIn
    obtain ⟨⟨leaf, node⟩, hPane, hSame⟩ := List.mem_map.mp hIn
    cases hSame
    have hDrawn : (leaf, n) ∈ card.drawn := mem_drawn.mpr ⟨hPane, hDrawable⟩
    rw [hNone] at hDrawn
    exact List.not_mem_nil hDrawn
  · intro hNone
    refine List.eq_nil_iff_forall_not_mem.mpr fun pane hIn => ?_
    obtain ⟨hPane, hDrawable⟩ := mem_drawn.mp hIn
    exact hNone pane.2 (List.of_mem_zip hPane).2 hDrawable

theorem filterMap_whole {panes : List (EpimoneLayoutLeaf × Option RenderNode)}
    (hAll : ∀ pane ∈ panes, ∃ n, pane.2 = some n ∧ n.Drawable) :
    ((panes.filterMap fun (leaf, node) =>
        (node.filter fun node => decide node.Drawable).map fun node => (leaf, node)).map
      fun pane => (pane.1, some pane.2)) = panes := by
  induction panes with
  | nil => rfl
  | cons pane panes ih =>
    obtain ⟨⟨n, hNode, hDrawable⟩, hRest⟩ := List.forall_mem_cons.mp hAll
    obtain ⟨leaf, node⟩ := pane
    cases hNode
    have hHead := drawPane leaf hDrawable
    simp only [List.filterMap_cons, hHead, List.map_cons, ih hRest]

theorem drawn_whole_iff (hLength : card.nodes.length = card.leaves.length) :
    (card.drawn.map Prod.fst = card.leaves ∧ (card.drawn.map fun pane => some pane.2) = card.nodes) ↔
      ∀ node ∈ card.nodes, ∃ n, node = some n ∧ n.Drawable := by
  constructor
  · rintro ⟨-, hNodes⟩ node hIn
    rw [← hNodes] at hIn
    obtain ⟨pane, hPane, rfl⟩ := List.mem_map.mp hIn
    exact ⟨pane.2, rfl, drawable_of_mem_drawn hPane⟩
  · intro hAll
    have hZip : (card.drawn.map fun pane => (pane.1, some pane.2)) = card.leaves.zip card.nodes :=
      filterMap_whole fun pane hIn => hAll pane.2 (List.of_mem_zip hIn).2
    constructor
    · have hFst := congrArg (List.map Prod.fst) hZip
      rw [List.map_map, List.map_fst_zip (Nat.le_of_eq hLength.symm)] at hFst
      exact hFst
    · have hSnd := congrArg (List.map Prod.snd) hZip
      rw [List.map_map, List.map_snd_zip (Nat.le_of_eq hLength)] at hSnd
      exact hSnd

end Card

/-- What the card has is what the trace tells of it. -/
structure Follows (card : Card) (p : Progress) : Prop where
  nodes : card.nodes = p.nodes
  curLeaf : card.curLeaf = p.nodes.length
  sigPanes : card.sigPanes = p.nodes.length
  leaves : p.peeks.map Prod.fst = card.leaves.take card.curLeaf
  sig : card.sig = foldPanes sigFnvOffset p.peeks

theorem Follows.begin (card : Card) : Follows card.begin .start := ⟨rfl, rfl, rfl, rfl, rfl⟩

theorem foldPanes_append_singleton (h : UInt64) (panes : List (EpimoneLayoutLeaf × Option Bytes))
    (leaf : EpimoneLayoutLeaf) (tail : Option Bytes) :
    foldPanes h (panes ++ [(leaf, tail)]) = sigFoldU64 (foldPanes h panes) (leaf.signature tail) :=
  List.foldl_concat ..

theorem Follows.commit {card : Card} {p : Progress} (h : Follows card p) {leaf : EpimoneLayoutLeaf}
    {tail : Option Bytes}
    (hLeaf : card.leaves[card.curLeaf]? = some leaf) (hLast : p.last = some (leaf, tail)) (node : Option RenderNode) :
    Follows (card.commit node (leaf.signature tail)) (p.record (.captured node)) := by
  have hPeeks : (p.record (.captured node)).peeks = p.peeks ++ [(leaf, tail)] := by
    rw [Progress.record, hLast]
    rfl
  have hLength : (p.record (.captured node)).nodes.length = p.nodes.length + 1 := by
    rw [Progress.record, List.length_append]
    rfl
  constructor
  case nodes => exact congrArg (· ++ [node]) h.nodes
  case curLeaf =>
    rw [hLength, ← h.curLeaf]
    rfl
  case sigPanes =>
    rw [hLength, ← h.sigPanes]
    rfl
  case leaves =>
    change _ = card.leaves.take (card.curLeaf + 1)
    rw [hPeeks, List.map_append, h.leaves, List.take_add_one, hLeaf]
    rfl
  case sig =>
    rw [hPeeks, foldPanes_append_singleton, ← h.sig]
    rfl

/-- A card with all its panes has the signature that peeking them gives. -/
theorem Follows.current {card : Card} {p : Progress} (h : Follows card p) (hWhole : card.leaves.length ≤ card.curLeaf)
    (hPanes : card.leaves ≠ []) :
    p.peeks.map Prod.fst = card.leaves ∧ cardCurrentSig card.leaves (p.peeks.map Prod.snd) = some card.sig := by
  have hLeaves : p.peeks.map Prod.fst = card.leaves := h.leaves.trans (List.take_of_length_le hWhole)
  refine ⟨hLeaves, ?_⟩
  rw [cardCurrentSig, if_neg hPanes, ← List.zip_of_prod hLeaves rfl, h.sig]

namespace EpimoneOverview

variable {o : EpimoneOverview} {c : Nat} {rest : List Nat}

/-- The card at the head is as the trace tells, and what has been stored was vouched for. -/
structure Honest (o : EpimoneOverview) : Prop where
  follows : ∀ c rest, o.pending = c :: rest → Follows (o.card c) (.of o.trace)
  fed : ∀ c rest, o.pending = c :: rest → o.settleBackstop.isSome = true →
    ∃ leaf tail, (o.card c).leaves[(o.card c).curLeaf]? = some leaf ∧ (Progress.of o.trace).last = some (leaf, tail) ∧
      o.paneSig = leaf.signature tail
  vouched : Lawful Vouched o.trace

theorem honest_of_empty (hPending : o.pending = []) (hVouched : Lawful Vouched o.trace) : o.Honest where
  follows c rest hSome := by rw [hPending] at hSome; cases hSome
  fed c rest hSome := by rw [hPending] at hSome; cases hSome
  vouched := hVouched

theorem honest_renderPump (hNone : o.settleBackstop = none) (hVouched : Lawful Vouched o.trace) :
    o.renderPump.Honest := by
  unfold renderPump
  split
  case h_1 hPending => exact honest_of_empty hPending hVouched
  case h_2 c rest hPending =>
    constructor
    case follows =>
      intro d rest' hSame
      obtain ⟨rfl, -⟩ := List.cons.inj (hPending.symm.trans hSame)
      change Follows ((o.updateCard c Card.begin).card c) (.of (o.trace ++ [Record.began c]))
      rw [updateCard_self, Progress.of_append_singleton]
      exact Follows.begin _
    case fed =>
      intro d rest' _ hArmed
      have hSome : o.settleBackstop.isSome = true := hArmed
      rw [hNone] at hSome
      cases hSome
    case vouched => exact (lawful_append_singleton _ _).mpr ⟨hVouched, trivial⟩

theorem storeSignature_of_unrendered (h : (o.card c).rendered = false) : o.storeSignature c = o := by
  rw [storeSignature, if_neg fun hStored => absurd hStored.1 (h ▸ Bool.false_ne_true)]

/-- Whatever is drawn of a card with all its panes is cached, and its signature stored. -/
theorem trace_compose (hNodes : (o.card c).nodes ≠ []) (hUnrendered : (o.card c).rendered = false)
    (hPanes : (o.card c).sigPanes = (o.card c).leaves.length) (x : Capture) :
    ((o.renderCompose c x).storeSignature c).trace = o.trace ++
      if x.renderer = true ∧ x.texture = true ∧ (o.card c).drawn ≠ [] then
        [.cached (o.card c).cacheKey ⟨(o.card c).drawn, (o.card c).seams⟩,
          .signed (o.card c).cacheKey (o.card c).leaves (o.card c).sig]
      else [] := by
  have hCleared : ∀ f : Card → Card, (f (o.card c)).rendered = (o.card c).rendered →
      ((o.updateCard c f).card c).rendered = false := by
    intro f hSame
    rw [updateCard_self, hSame, hUnrendered]
  unfold renderCompose
  dsimp only
  split
  case isTrue hNone =>
    have hRenderer := hNone.resolve_right hNodes
    rw [storeSignature_of_unrendered (hCleared _ rfl), if_neg fun hAll => by simp [hRenderer] at hAll, List.append_nil]
    rfl
  case isFalse hRenderer =>
    have hRenderer : x.renderer = true := Bool.eq_true_of_not_eq_false (not_or.mp hRenderer).1
    split
    case isTrue hNothing =>
      have hNone : ¬ (x.renderer = true ∧ x.texture = true ∧ (o.card c).drawn ≠ []) := fun hAll => hAll.2.2 hNothing
      rw [if_neg hNone, List.append_nil]
      split
      · rw [storeSignature_of_unrendered]
        · rfl
        · change (((o.updateCard c _).updateCard c Card.retry).card c).rendered = false
          rw [updateCard_self]
          exact hCleared _ rfl
      · rw [storeSignature_of_unrendered (hCleared _ rfl)]
        rfl
    case isFalse hDrawn =>
      split
      case isTrue hTexture =>
        rw [if_pos ⟨hRenderer, hTexture, hDrawn⟩]
        simp only [storeSignature, updateCard, Function.update_self]
        rw [if_pos ⟨trivial, hPanes⟩]
        exact List.append_assoc _ [_] [_]
      case isFalse hTexture =>
        rw [storeSignature_of_unrendered (hCleared _ rfl), if_neg fun hAll => hTexture hAll.2.1, List.append_nil]
        rfl

theorem trace_renderPump (o : EpimoneOverview) : Lawful Vouched o.renderPump.trace ↔ Lawful Vouched o.trace := by
  unfold renderPump
  split
  · exact Iff.rfl
  · exact (lawful_append_singleton _ _).trans (and_iff_left trivial)

/-- The picture of the card at the head, if it is composed now, has all its panes or none. -/
def Whole (o : EpimoneOverview) (x : Capture) : Prop :=
  ∀ c rest, o.pending = c :: rest → o.Records c x → (o.card c).leaves.length ≤ (o.card c).curLeaf + 1 →
    x.renderer = true → x.texture = true →
      (∀ node ∈ (o.card c).nodes ++ [x.captured], ∃ n, node = some n ∧ n.Drawable) ∨
        ∀ n, some n ∈ (o.card c).nodes ++ [x.captured] → ¬ n.Drawable

/-- An event that captures a pane leaves no picture in part. -/
def Complete (o : EpimoneOverview) : OverviewEvent → Prop
  | .backstopExpires x => o.Whole x
  | .quietExpires blank x => ¬ (0 < o.fedLen ∧ blank = true) → o.Whole x
  | _ => True

theorem vouched_signed_iff {trace : List Record} {card : Card} (h : Follows card (.of trace))
    (hWhole : card.curLeaf = card.leaves.length) (hPanes : card.leaves ≠ []) :
    Vouched (trace ++ [Record.cached card.cacheKey ⟨card.drawn, card.seams⟩])
      (.signed card.cacheKey card.leaves card.sig) ↔
      ∀ node ∈ card.nodes, ∃ n, node = some n ∧ n.Drawable := by
  have hLength : card.nodes.length = card.leaves.length := by
    rw [h.nodes, ← h.curLeaf, hWhole]
  rw [← Card.drawn_whole_iff hLength]
  constructor
  · rintro ⟨earlier, texture, hSplit, hLeaves, hNodes, -⟩
    obtain ⟨rfl, hSame⟩ := List.append_inj' hSplit rfl
    cases hSame
    exact ⟨hLeaves, hNodes.trans h.nodes.symm⟩
  · rintro ⟨hLeaves, hNodes⟩
    obtain ⟨hPeeked, hSig⟩ := h.current (Nat.le_of_eq hWhole.symm) hPanes
    exact ⟨trace, _, rfl, hLeaves, hNodes.trans h.nodes, hPeeked, hSig⟩

theorem Sound.last_pane (h : o.Sound) (hPending : o.pending = c :: rest)
    (hLast : (o.card c).leaves.length ≤ (o.card c).curLeaf + 1) : (o.card c).curLeaf + 1 = (o.card c).leaves.length :=
  Nat.le_antisymm (h.current c rest hPending) hLast

section Finish

variable (hHonest : o.Honest) (hArmed : o.settleBackstop.isSome = true) (hPending : o.pending = c :: rest) (x : Capture)

include hHonest hArmed hPending

theorem Honest.captured : Follows ((o.card c).commit x.captured o.paneSig) (.of (o.captured c x).trace) := by
  obtain ⟨leaf, tail, hLeaf, hLast, hSig⟩ := hHonest.fed c rest hPending hArmed
  change Follows _ (.of (o.trace ++ [Record.captured x.captured]))
  rw [Progress.of_append_singleton, hSig]
  exact (hHonest.follows c rest hPending).commit hLeaf hLast x.captured

variable (h : o.Sound) (hLast : (o.card c).leaves.length ≤ (o.card c).curLeaf + 1)

include h hLast

theorem Honest.trace_composed : (o.composed c rest x).trace = (o.captured c x).trace ++
    if x.renderer = true ∧ x.texture = true ∧ ((o.card c).commit x.captured o.paneSig).drawn ≠ [] then
      [.cached (o.card c).cacheKey ⟨((o.card c).commit x.captured o.paneSig).drawn, (o.card c).seams⟩,
        .signed (o.card c).cacheKey (o.card c).leaves ((o.card c).commit x.captured o.paneSig).sig]
    else [] := by
  have hIn : c ∈ o.pending := hPending ▸ List.mem_cons_self
  have hFollows := hHonest.captured hArmed hPending x
  have hCard : ({ o.captured c x with pending := rest } : EpimoneOverview).card c =
      (o.card c).commit x.captured o.paneSig := o.captured_card c x
  have hTrace := trace_compose (o := { o.captured c x with pending := rest }) (c := c)
  rw [hCard] at hTrace
  refine hTrace ?_ (h.unrendered c hIn) ?_ x
  · exact List.append_ne_nil_of_right_ne_nil _ (List.cons_ne_nil _ _)
  · rw [hFollows.sigPanes, ← hFollows.curLeaf]
    exact h.last_pane hPending hLast

/-- The signature that is stored with the picture is vouched for just if the picture is whole. -/
theorem Honest.vouched_composed (hRenderer : x.renderer = true) (hTexture : x.texture = true) :
    Lawful Vouched (o.composed c rest x).trace ↔
      (∀ node ∈ (o.card c).nodes ++ [x.captured], ∃ n, node = some n ∧ n.Drawable) ∨
        ∀ n, some n ∈ (o.card c).nodes ++ [x.captured] → ¬ n.Drawable := by
  have hFollows := hHonest.captured hArmed hPending x
  have hWhole := h.last_pane hPending hLast
  have hPanes : (o.card c).leaves ≠ [] := h.panes c (hPending ▸ List.mem_cons_self)
  have hCaptured : Lawful Vouched (o.captured c x).trace :=
    (lawful_append_singleton _ _).mpr ⟨hHonest.vouched, trivial⟩
  have hLength : ((o.card c).commit x.captured o.paneSig).nodes.length = (o.card c).leaves.length := by
    rw [hFollows.nodes, ← hFollows.curLeaf]
    exact hWhole
  have hNothing : ((o.card c).commit x.captured o.paneSig).drawn = [] ↔
      ∀ n, some n ∈ (o.card c).nodes ++ [x.captured] → ¬ n.Drawable := Card.drawn_eq_nil_iff hLength
  rw [hHonest.trace_composed hArmed hPending x h hLast]
  by_cases hDrawn : ((o.card c).commit x.captured o.paneSig).drawn = []
  · rw [if_neg fun hAll => hAll.2.2 hDrawn, List.append_nil]
    exact iff_of_true hCaptured (.inr (hNothing.mp hDrawn))
  · have hSigned := vouched_signed_iff hFollows hWhole hPanes
    rw [if_pos ⟨hRenderer, hTexture, hDrawn⟩, or_iff_left fun hNone => hDrawn (hNothing.mpr hNone)]
    rw [List.append_cons, lawful_append_singleton, lawful_append_singleton]
    exact (and_iff_right ⟨hCaptured, trivial⟩).trans hSigned

end Finish

/-- A capture keeps what has been vouched for just if the picture that it may complete is whole. -/
theorem Honest.renderFinish_iff (hHonest : o.Honest) (h : o.Sound) (hArmed : o.settleBackstop.isSome = true)
    (x : Capture) :
    (o.Whole x → (o.renderFinish x).Honest) ∧ (Lawful Vouched (o.renderFinish x).trace → o.Whole x) := by
  obtain ⟨-, c, rest, hPending⟩ := h.armed (.inr (.inr hArmed))
  have hHead : ∀ d rest', o.pending = d :: rest' → c = d ∧ rest = rest' := fun d rest' hSame =>
    List.cons.inj (hPending.symm.trans hSame)
  apply renderFinish_cases (motive := fun o' => (o.Whole x → o'.Honest) ∧
    (Lawful Vouched o'.trace → o.Whole x)) hPending x
  case hRetry =>
    intro hMissing
    refine ⟨fun _ => ⟨?_, nofun, hHonest.vouched⟩, fun _ d rest' hSame hRecords => ?_⟩
    · intro d rest' hSame
      obtain ⟨rfl, -⟩ := hHead d rest' hSame
      have hCard : (o.retried c).card c = (o.card c).retry := updateCard_self ..
      have hBefore := hHonest.follows c rest hPending
      rw [hCard]
      exact ⟨hBefore.nodes, hBefore.curLeaf, hBefore.sigPanes, hBefore.leaves, hBefore.sig⟩
    · obtain ⟨rfl, -⟩ := hHead d rest' hSame
      exact absurd hRecords hMissing
  case hNext =>
    intro _ hMore
    refine ⟨fun _ => ⟨?_, nofun, ?_⟩, fun _ d rest' hSame _ hLast => ?_⟩
    · intro d rest' hSame
      obtain ⟨rfl, -⟩ := hHead d rest' hSame
      have hCard : (o.onward c x).card c = (o.card c).commit x.captured o.paneSig := o.captured_card c x
      rw [hCard]
      exact hHonest.captured hArmed hPending x
    · exact (lawful_append_singleton _ _).mpr ⟨hHonest.vouched, trivial⟩
    · obtain ⟨rfl, -⟩ := hHead d rest' hSame
      exact absurd hMore (Nat.not_lt.mpr hLast)
  case hDone =>
    intro hRecords hLast
    constructor
    · intro hWhole
      refine honest_renderPump (h.composed hArmed hPending x).2.1.backstop ?_
      by_cases hPicture : x.renderer = true ∧ x.texture = true
      · exact (hHonest.vouched_composed hArmed hPending x h hLast hPicture.1 hPicture.2).mpr
          (hWhole c rest hPending hRecords hLast hPicture.1 hPicture.2)
      · rw [hHonest.trace_composed hArmed hPending x h hLast, if_neg fun hAll => hPicture ⟨hAll.1, hAll.2.1⟩,
          List.append_nil]
        exact (lawful_append_singleton _ _).mpr ⟨hHonest.vouched, trivial⟩
    · intro hVouched d rest' hSame _ _ hRenderer hTexture
      obtain ⟨rfl, -⟩ := hHead d rest' hSame
      exact (hHonest.vouched_composed hArmed hPending x h hLast hRenderer hTexture).mp
        ((trace_renderPump _).mp hVouched)

theorem honest_renderFeed (hHonest : o.Honest) (h : o.Working) (hPending : o.pending = c :: rest)
    (tail : Option Bytes) :
    (o.renderFeed tail).Honest := by
  obtain ⟨leaf, hLeaf, hFeed⟩ := h.renderFeed_eq hPending tail
  rw [hFeed]
  have hHead : ∀ d rest', o.pending = d :: rest' → c = d ∧ rest = rest' := fun d rest' hSame =>
    List.cons.inj (hPending.symm.trans hSame)
  constructor
  case follows =>
    intro d rest' hSame
    obtain ⟨rfl, -⟩ := hHead d rest' hSame
    have hBefore := hHonest.follows c rest hPending
    change Follows (o.card c) (.of (o.trace ++ [Record.peeked leaf tail]))
    rw [Progress.of_append_singleton]
    exact ⟨hBefore.nodes, hBefore.curLeaf, hBefore.sigPanes, hBefore.leaves, hBefore.sig⟩
  case fed =>
    intro d rest' hSame _
    obtain ⟨rfl, -⟩ := hHead d rest' hSame
    refine ⟨leaf, tail, hLeaf, ?_, rfl⟩
    change (Progress.of (o.trace ++ [Record.peeked leaf tail])).last = _
    rw [Progress.of_append_singleton]
    rfl
  case vouched => exact (lawful_append_singleton _ _).mpr ⟨hHonest.vouched, trivial⟩

theorem honest_renderStart (hHonest : o.Honest) (h : o.Sound) (hArmed : o.pumpTimeout.isSome = true)
    (tail : Option Bytes) : (o.renderStart tail).Honest := by
  obtain ⟨-, c, rest, hPending⟩ := h.armed (.inl hArmed)
  have hWorking : { o with pumpTimeout := none, fed := false }.Working :=
    ⟨⟨h.nodup, h.shown, h.panes, h.unrendered⟩, h.busy, h.current⟩
  rcases h.renderStart_cases hPending tail with ⟨cols, rows, hStart⟩ | hStart
  · rw [hStart]
    exact ⟨hHonest.follows, hHonest.fed, hHonest.vouched⟩
  · rw [hStart]
    have hStarted : { o with pumpTimeout := none, fed := false }.Honest :=
      ⟨hHonest.follows, hHonest.fed, hHonest.vouched⟩
    exact honest_renderFeed hStarted hWorking hPending tail

theorem Honest.extend {o' : EpimoneOverview} {more : List Nat} (hHonest : o.Honest)
    (hExtends : Extends o o' o.flow more) (hHead : o.pending = c :: rest) : o'.Honest := by
  have hTrace : o'.trace = o.trace := by
    rw [hExtends.eq]
  have hBackstop : o'.settleBackstop = o.settleBackstop := by
    rw [hExtends.eq]
  have hPaneSig : o'.paneSig = o.paneSig := by
    rw [hExtends.eq]
  have hCard : o'.card c = o.card c :=
    hExtends.card_of_pending (List.mem_append_left more (hHead ▸ List.mem_cons_self))
  have hSame : ∀ d rest', o'.pending = d :: rest' → c = d := by
    intro d rest' hPending
    rw [hExtends.pending, hHead] at hPending
    exact (List.cons.inj hPending).1
  constructor
  case follows =>
    intro d rest' hPending
    obtain rfl := hSame d rest' hPending
    rw [hCard, hTrace]
    exact hHonest.follows c rest hHead
  case fed =>
    intro d rest' hPending
    obtain rfl := hSame d rest' hPending
    rw [hCard, hTrace, hBackstop, hPaneSig]
    exact hHonest.fed c rest hHead
  case vouched =>
    rw [hTrace]
    exact hHonest.vouched

theorem honest_queueVisibleRenders_of_idle (hIdle : o.rendering = false) (hNone : o.settleBackstop = none)
    (hVouched : Lawful Vouched o.trace) (near : Nat → Bool) (tails : Nat → List (Option Bytes)) :
    (o.queueVisibleRenders near tails).Honest := by
  obtain ⟨more, hExtends⟩ := foldl_queueCard near tails o.flow o
  have hStill : (o.flow.foldl (queueCard near tails) o).rendering = false := by
    rw [hExtends.eq]
    exact hIdle
  rw [queueVisibleRenders, hStill]
  refine honest_renderPump ?_ ?_
  · rw [hExtends.eq]
    exact hNone
  · rw [hExtends.eq]
    exact hVouched

theorem Honest.queueVisibleRenders (hHonest : o.Honest) (h : o.Sound) (near : Nat → Bool)
    (tails : Nat → List (Option Bytes)) : (o.queueVisibleRenders near tails).Honest := by
  cases hBusy : o.rendering with
  | true =>
    obtain ⟨more, hExtends⟩ := queueVisibleRenders_of_busy hBusy near tails
    obtain ⟨c, rest, hPending⟩ := List.exists_cons_of_ne_nil (h.busy.mp hBusy)
    exact hHonest.extend hExtends hPending
  | false => exact honest_queueVisibleRenders_of_idle hBusy (h.stopped hBusy).backstop hHonest.vouched near tails

theorem trace_addCards (fresh : Nat) (infos : List CardInfo) (o : EpimoneOverview) :
    (infos.foldl (addCard fresh) o).trace = o.trace := by
  induction infos generalizing o with
  | nil => rfl
  | cons info infos ih => exact ih _

theorem trace_refreshCards (cs : List Nat) (o : EpimoneOverview) : (cs.foldl refreshCard o).trace = o.trace := by
  induction cs generalizing o with
  | nil => rfl
  | cons c cs ih =>
    rw [List.foldl_cons, ih, refreshCard]
    split <;> rfl

theorem honest_reload (hVouched : Lawful Vouched o.trace) (built : Option Built) (near : Nat → Bool)
    (tails : Nat → List (Option Bytes)) : (o.reload built near tails).Honest := by
  have hIdle : { o.renderAbort with flow := [] }.Idle := ⟨⟨rfl, rfl, rfl, rfl, rfl⟩, rfl, rfl⟩
  unfold reload
  split
  · exact honest_of_empty rfl hVouched
  · rename_i b
    have hBuilt := hIdle.addCards b.freshCaptureGroup b.cards
    set built := b.cards.foldl (addCard b.freshCaptureGroup) { o.renderAbort with flow := [] } with hCards
    have hTrace : (built.prune b.groupIds).trace = o.trace := by
      change built.trace = o.trace
      rw [hCards, trace_addCards]
      rfl
    exact honest_queueVisibleRenders_of_idle (o := built.prune b.groupIds) hBuilt.rendering hBuilt.backstop
      (hTrace ▸ hVouched) near tails

theorem honest_appearanceChanged (hVouched : Lawful Vouched o.trace) (near : Nat → Bool)
    (tails : Nat → List (Option Bytes)) : (o.appearanceChanged near tails).Honest := by
  have hIdle : { o.renderAbort with thumbCache := fun _ => none, thumbSig := fun _ => none }.Idle :=
    ⟨⟨rfl, rfl, rfl, rfl, rfl⟩, rfl, rfl⟩
  have hRefreshed := hIdle.refreshCards o.flow
  refine honest_queueVisibleRenders_of_idle hRefreshed.rendering hRefreshed.backstop ?_ near tails
  rw [trace_refreshCards]
  exact hVouched

theorem Honest.step {o' : EpimoneOverview} {event : OverviewEvent} (hHonest : o.Honest) (h : o.Sound)
    (hStep : o.step event = some o') (hComplete : o.Complete event) : o'.Honest := by
  cases event with
  | reload built near tails =>
    cases hStep
    exact honest_reload hHonest.vouched built near tails
  | scrolled near tails =>
    cases hStep
    exact hHonest.queueVisibleRenders h near tails
  | appearanceChanged near tails =>
    cases hStep
    exact honest_appearanceChanged hHonest.vouched near tails
  | animate animating =>
    cases hStep
    exact ⟨hHonest.follows, hHonest.fed, hHonest.vouched⟩
  | liveCaptured key texture =>
    cases hStep
    exact ⟨hHonest.follows, hHonest.fed, hHonest.vouched⟩
  | contentsChanged =>
    cases hStep
    unfold thumbContentsChanged
    split
    · exact hHonest
    · exact ⟨hHonest.follows, hHonest.fed, hHonest.vouched⟩
  | pumpExpires tail =>
    obtain ⟨hArmed, ⟨⟩⟩ := Option.ite_none_right_eq_some.mp hStep
    exact honest_renderStart hHonest h hArmed tail
  | feedExpires tail =>
    obtain ⟨hArmed, ⟨⟩⟩ := Option.ite_none_right_eq_some.mp hStep
    obtain ⟨-, c, rest, hPending⟩ := h.armed (.inr (.inl hArmed))
    exact honest_renderFeed hHonest h.toWorking hPending tail
  | backstopExpires x =>
    obtain ⟨hArmed, ⟨⟩⟩ := Option.ite_none_right_eq_some.mp hStep
    exact (hHonest.renderFinish_iff h hArmed x).1 hComplete
  | quietExpires blank x =>
    obtain ⟨hArmed, ⟨⟩⟩ := Option.ite_none_right_eq_some.mp hStep
    have hQuiet : { o with settleQuiet := none }.Sound :=
      ⟨⟨⟨h.nodup, h.shown, h.panes, h.unrendered⟩, h.busy, h.current⟩, h.chain, h.fed, nofun⟩
    have hStill : { o with settleQuiet := none }.Honest := ⟨hHonest.follows, hHonest.fed, hHonest.vouched⟩
    unfold renderFinishQuiet
    dsimp only
    split
    case isTrue => exact hStill
    case isFalse hFilled => exact (hStill.renderFinish_iff hQuiet (h.quiet hArmed) x).1 (hComplete hFilled)
  | dispose =>
    cases hStep
    exact honest_of_empty rfl hHonest.vouched

/-- Every signature that a run stores is vouched for, if and only if the run composes no picture in part. -/
theorem signatures_vouched_iff {inputs : List OverviewEvent} {final : EpimoneOverview}
    (hRun : thumbnails.run inputs = some final) :
    (∀ before after o, inputs = before ++ after → thumbnails.run before = some o → Lawful Vouched o.trace) ↔
      ∀ before event after o, inputs = before ++ event :: after → thumbnails.run before = some o →
      o.Complete event := by
  have hKeep : ∀ (o : EpimoneOverview) event o', o.Sound ∧ o.Honest → thumbnails.step o event = some o' →
      o.Complete event → o'.Sound ∧ o'.Honest := by
    rintro o event o' ⟨h, hHonest⟩ hStep hComplete
    exact ⟨h.step hStep, hHonest.step h hStep hComplete⟩
  have hExact : ∀ (o : EpimoneOverview) event o', o.Sound ∧ o.Honest → thumbnails.step o event = some o' →
      Lawful Vouched o'.trace → o.Complete event := by
    rintro o event o' ⟨h, hHonest⟩ hStep hVouched
    cases event with
    | backstopExpires x =>
      obtain ⟨hArmed, ⟨⟩⟩ := Option.ite_none_right_eq_some.mp hStep
      exact (hHonest.renderFinish_iff h hArmed x).2 hVouched
    | quietExpires blank x =>
      obtain ⟨hArmed, ⟨⟩⟩ := Option.ite_none_right_eq_some.mp hStep
      intro hFilled
      have hQuiet : { o with settleQuiet := none }.Sound :=
        ⟨⟨⟨h.nodup, h.shown, h.panes, h.unrendered⟩, h.busy, h.current⟩, h.chain, h.fed, nofun⟩
      have hStill : { o with settleQuiet := none }.Honest := ⟨hHonest.follows, hHonest.fed, hHonest.vouched⟩
      have hFinish : o.renderFinishQuiet blank x = { o with settleQuiet := none }.renderFinish x := if_neg hFilled
      rw [hFinish] at hVouched
      exact (hStill.renderFinish_iff hQuiet (h.quiet hArmed) x).2 hVouched
    | _ => trivial
  exact thumbnails.always_iff (fun _ h => h.2.vouched) hKeep hExact ⟨sound_start, honest_of_empty rfl lawful_nil⟩ hRun

/-! A card of two panes, whose second pane finds no allocation until its card is out of attempts. -/

def wellDrawn : Capture := ⟨800, 600, some ⟨800, 600⟩, true, true⟩

def firstPane : List OverviewEvent :=
  [.reload (some ⟨[1], [twoPanes], 0⟩) (fun _ => true) fun _ => [], .pumpExpires (some [65]), .feedExpires (some [65]),
    .backstopExpires wellDrawn, .pumpExpires (some [66])]

def halfDrawn : List OverviewEvent :=
  firstPane ++ [.backstopExpires noAllocation, .pumpExpires (some [66]), .backstopExpires noAllocation,
    .pumpExpires (some [66]), .backstopExpires noAllocation, .pumpExpires (some [66]), .backstopExpires noAllocation,
    .pumpExpires (some [66]), .backstopExpires noAllocation]

def half : Texture := ⟨[(⟨⟨0, 0, 1 / 2, 1⟩, 7, 80, 24⟩, ⟨800, 600⟩)], []⟩

/-- The signature of both panes is stored for the picture of one of them. -/
theorem halfDrawn_signed : ∃ o, thumbnails.run halfDrawn = some o ∧ o.thumbCache 1 = some half ∧
    o.thumbSig 1 = cardCurrentSig twoPanes.leaves [some [65], some [66]] ∧ ¬ Lawful Vouched o.trace := by
  have hCheck : (thumbnails.run halfDrawn).any fun o => o.thumbCache 1 = some half ∧
      o.thumbSig 1 = cardCurrentSig twoPanes.leaves [some [65], some [66]] ∧
        o.trace.drop (o.trace.length - 2) =
          [.cached 1 half, .signed 1 twoPanes.leaves
            (foldPanes sigFnvOffset (twoPanes.leaves.zip [some [65], some [66]]))] := by
    decide +kernel
  obtain ⟨o, hRun, hState⟩ := thumbnails.exists_of_run_any hCheck
  obtain ⟨hCache, hSig, hLast⟩ := of_decide_eq_true hState
  refine ⟨o, hRun, hCache, hSig, fun hVouched => ?_⟩
  have hSplit := (List.take_append_drop (o.trace.length - 2) o.trace).symm
  rw [hLast, List.append_cons] at hSplit
  obtain ⟨earlier, texture, hCached, hLeaves, -⟩ := hVouched _ _ _ hSplit
  cases (List.append_inj' hCached rfl).2
  exact absurd (congrArg List.length hLeaves) (by decide)

def wholeDrawn : List OverviewEvent := firstPane ++ [.backstopExpires wellDrawn]

/-- With both panes captured the signature is vouched for. -/
theorem signatures_vouched_iff_wholeDrawn : ∃ o, thumbnails.run wholeDrawn = some o ∧ (o.thumbSig 1).isSome = true ∧
    ∀ before after o', wholeDrawn = before ++ after → thumbnails.run before = some o' → Lawful Vouched o'.trace := by
  have hCheck : (thumbnails.run wholeDrawn).any fun o => (o.thumbSig 1).isSome := by decide +kernel
  have hNodes : ∀ n < 6, ((thumbnails.run (wholeDrawn.take n)).all fun o =>
      o.pending.all fun c => (o.card c).nodes.all fun node => node.any fun n => n.Drawable) = true := by decide +kernel
  obtain ⟨o, hRun, hStored⟩ := thumbnails.exists_of_run_any hCheck
  refine ⟨o, hRun, hStored, (signatures_vouched_iff hRun).mpr ?_⟩
  intro before event after o' hSplit hBefore
  have hMem : event ∈ wholeDrawn := by
    rw [hSplit]
    exact List.mem_append_right before List.mem_cons_self
  cases event with
  | quietExpires => simp [wholeDrawn, firstPane] at hMem
  | backstopExpires x =>
    have hx : x = wellDrawn := by simpa [wholeDrawn, firstPane] using hMem
    have hTake : wholeDrawn.take before.length = before := by
      rw [hSplit]
      exact List.take_left
    have hShort : before.length < 6 := by
      have hLength := congrArg List.length hSplit
      rw [List.length_append, List.length_cons] at hLength
      change 6 = _ at hLength
      omega
    have hDrawable := hNodes before.length hShort
    rw [hTake, hBefore] at hDrawable
    intro c rest hPending _ _ _ _
    have hHead := List.all_eq_true.mp hDrawable c (hPending ▸ List.mem_cons_self)
    refine .inl fun node hNode => ?_
    rcases List.mem_append.mp hNode with hOld | hNew
    · obtain ⟨n, hSome, hDraw⟩ := (Option.any_eq_true _ _).mp (List.all_eq_true.mp hHead node hOld)
      exact ⟨n, hSome, of_decide_eq_true hDraw⟩
    · rw [List.mem_singleton.mp hNew, hx]
      exact ⟨⟨800, 600⟩, rfl, by decide⟩
  | _ => trivial

end EpimoneOverview

end Epimone.Client
