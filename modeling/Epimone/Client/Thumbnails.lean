import Epimone.Client.Cards
import Epimone.Daemon.Session
import Epimone.Library.Transition
import Mathlib.Logic.Function.Basic

/-! # The thumbnails of the overview

One terminal off screen draws the panes of the queued cards, one after the
other. A step of the chain leaves one timer behind that starts the next: the
pump, the feed, or the backstop, beside which a quiet period may run. A card is
composed when its last pane has been captured, and its signature stored.
-/
set_option autoImplicit false

namespace Epimone.Client

open Daemon Transition

section Signatures

def sigFnvOffset : UInt64 := 14695981039346656037

def sigFnvPrime : UInt64 := 1099511628211

def sigFoldBytes (h : UInt64) (bytes : Bytes) : UInt64 :=
  bytes.foldl (fun h p => (h ^^^ p.toUInt64) * sigFnvPrime) h

def sigFoldU64 (h v : UInt64) : UInt64 :=
  sigFoldBytes h ((List.range 8).map fun i => (v >>> UInt64.ofNat (8 * i)).toUInt8)

/-- The tail is NULL when the session could not be peeked. -/
def paneSignature (session : UInt64) (cols rows : Nat) (tail : Option Bytes) : UInt64 :=
  let h := sigFoldU64 sigFnvOffset session
  let h := sigFoldU64 h ((UInt64.ofNat cols <<< 32) ||| UInt64.ofNat rows)
  let h := sigFoldU64 h (UInt64.ofNat (tail.getD []).length)
  sigFoldBytes h (tail.getD [])

def EpimoneLayoutLeaf.signature (leaf : EpimoneLayoutLeaf) (tail : Option Bytes) : UInt64 :=
  paneSignature leaf.session leaf.cols leaf.rows tail

/-- The signature after these panes, each with the tail that was peeked of it. -/
def foldPanes (h : UInt64) (panes : List (EpimoneLayoutLeaf × Option Bytes)) : UInt64 :=
  panes.foldl (fun h pane => sigFoldU64 h (pane.1.signature pane.2)) h

/-- The signature of a card from what peeking its panes returns. -/
def cardCurrentSig (leaves : List EpimoneLayoutLeaf) (tails : List (Option Bytes)) : Option UInt64 :=
  if leaves = [] then none else some (foldPanes sigFnvOffset (leaves.zip tails))

end Signatures

def renderMaxAttempts : Nat := 4

/-- What a snapshot of the terminal gives, by its bounds. -/
structure RenderNode where
  width : ℚ
  height : ℚ
  deriving DecidableEq

/-- Compose draws it. -/
def RenderNode.Drawable (node : RenderNode) : Prop := 0 < node.width ∧ 0 < node.height

instance (node : RenderNode) : Decidable node.Drawable := inferInstanceAs (Decidable (_ ∧ _))

structure Texture where
  panes : List (EpimoneLayoutLeaf × RenderNode)
  seams : List EpimoneLayoutSeam
  deriving DecidableEq

inductive Art where
  | placeholder
  | picture
  deriving DecidableEq

/-- A card with the state of its thumbnail; a pane that could not be captured has no node. -/
structure Card extends CardInfo where
  art : Art
  rendered : Bool
  nodes : List (Option RenderNode)
  curLeaf : Nat
  attempts : Nat
  sig : UInt64
  sigPanes : Nat
  deriving DecidableEq

namespace Card

variable (card : Card)

/-- A card that starts from the cached texture, if there is one; the one captured live for this opening is done. -/
def new (info : CardInfo) (cached : Bool) (freshCaptureGroup : Nat) : Card :=
  { info with
    art := if cached then .picture else .placeholder
    rendered := cached && decide (info.killSession = 0 ∧ info.groupId ≠ 0 ∧ info.groupId = freshCaptureGroup)
    nodes := []
    curLeaf := 0
    attempts := 0
    sig := 0
    sigPanes := 0 }

def nodesClear : Card := { card with nodes := [] }

/-- The card comes to the head of the queue. -/
def begin : Card := { card.nodesClear with curLeaf := 0, sig := sigFnvOffset, sigPanes := 0 }

def retry : Card := { card with attempts := card.attempts + 1 }

/-- A pane is done, whether captured or not. -/
def commit (node : Option RenderNode) (paneSig : UInt64) : Card :=
  { card with
    nodes := card.nodes ++ [node]
    sig := sigFoldU64 card.sig paneSig
    sigPanes := card.sigPanes + 1
    curLeaf := card.curLeaf + 1 }

/-- The panes that compose finds something to draw for. -/
def drawn : List (EpimoneLayoutLeaf × RenderNode) :=
  (card.leaves.zip card.nodes).filterMap fun (leaf, node) =>
    (node.filter fun node => decide node.Drawable).map fun node => (leaf, node)

end Card

/-- What the terminal and the renderer give when a pane is captured and its card perhaps composed. -/
structure Capture where
  width : Int
  height : Int
  node : Option RenderNode
  renderer : Bool
  texture : Bool
  deriving DecidableEq

/-- The terminal has an allocation. -/
def Capture.Allocated (x : Capture) : Prop := 0 < x.width ∧ 0 < x.height

instance (x : Capture) : Decidable x.Allocated := inferInstanceAs (Decidable (_ ∧ _))

def Capture.captured (x : Capture) : Option RenderNode := if x.Allocated then x.node else none

/-- What the pipeline has done. -/
inductive Record where
  | began (card : Nat)
  | peeked (leaf : EpimoneLayoutLeaf) (tail : Option Bytes)
  | captured (node : Option RenderNode)
  | cached (key : Nat) (texture : Texture)
  | signed (key : Nat) (leaves : List EpimoneLayoutLeaf) (sig : UInt64)
  deriving DecidableEq

/-- The cards by their numbers; a timer that is armed has its delay. -/
structure EpimoneOverview where
  flow : List Nat
  card : Nat → Card
  nextCard : Nat
  pending : List Nat
  rendering : Bool
  fed : Bool
  fedLen : Nat
  paneSig : UInt64
  pumpTimeout : Option Nat
  feedTimeout : Option Nat
  settleBackstop : Option Nat
  settleQuiet : Option Nat
  lastCols : Nat
  lastRows : Nat
  animating : Bool
  thumbCache : Nat → Option Texture
  thumbSig : Nat → Option UInt64
  trace : List Record

namespace EpimoneOverview

variable (o : EpimoneOverview)

def updateCard (c : Nat) (f : Card → Card) : EpimoneOverview :=
  { o with card := Function.update o.card c (f (o.card c)) }

def settleCancel : EpimoneOverview :=
  { o with settleBackstop := none, settleQuiet := none, feedTimeout := none, fed := false }

def renderAbort : EpimoneOverview :=
  { o.settleCancel with lastCols := 0, lastRows := 0, pumpTimeout := none, pending := [], rendering := false }

/-- A card that shows nothing goes back to the queue as long as it has attempts left. -/
def renderCompose (c : Nat) (x : Capture) : EpimoneOverview :=
  let card := o.card c
  if x.renderer = false ∨ card.nodes = [] then o.updateCard c Card.nodesClear
  else if card.drawn = [] then
    let o := o.updateCard c fun card => { card.nodesClear with curLeaf := 0 }
    if card.attempts < renderMaxAttempts then { o.updateCard c Card.retry with pending := o.pending ++ [c] } else o
  else if x.texture then
    let texture : Texture := ⟨card.drawn, card.seams⟩
    { o.updateCard c (fun card => { card.nodesClear with art := .picture, rendered := true }) with
      thumbCache := Function.update o.thumbCache card.cacheKey (some texture)
      trace := o.trace ++ [Record.cached card.cacheKey texture] }
  else o.updateCard c Card.nodesClear

/-- The signature of a card that has just been composed. -/
def storeSignature (c : Nat) : EpimoneOverview :=
  let card := o.card c
  if card.rendered = true ∧ card.sigPanes = card.leaves.length then
    { o with
      thumbSig := Function.update o.thumbSig card.cacheKey (some card.sig)
      trace := o.trace ++ [Record.signed card.cacheKey card.leaves card.sig] }
  else o

def anyPlaceholder : Bool := o.flow.any fun c => (o.card c).art = .placeholder

def renderPump : EpimoneOverview :=
  match o.pending with
  | [] => { o with rendering := false }
  | c :: _ =>
    let o : EpimoneOverview :=
      { o.updateCard c Card.begin with rendering := true, trace := o.trace ++ [Record.began c] }
    { o with pumpTimeout := some (if o.animating && !o.anyPlaceholder then 400 + 80 else 1) }

def renderFinish (x : Capture) : EpimoneOverview :=
  let o := o.settleCancel
  match o.pending with
  | [] => { o with rendering := false }
  | c :: rest =>
    if ¬x.Allocated ∧ (o.card c).attempts < renderMaxAttempts then
      { o.updateCard c Card.retry with pumpTimeout := some 16 }
    else
      let o : EpimoneOverview := { o.updateCard c (fun card => card.commit x.captured o.paneSig) with
        trace := o.trace ++ [Record.captured x.captured] }
      if (o.card c).curLeaf < (o.card c).leaves.length then { o with pumpTimeout := some 1 }
      else (({ o with pending := rest }.renderCompose c x).storeSignature c).renderPump

/-- The pane that the card at the head is at, and the card. -/
def renderCurrentLeaf : Option EpimoneLayoutLeaf :=
  o.pending.head?.bind fun c => (o.card c).leaves[(o.card c).curLeaf]?

def renderFeed (tail : Option Bytes) : EpimoneOverview :=
  let o := { o with feedTimeout := none }
  match o.renderCurrentLeaf with
  | none => { o with rendering := false }
  | some leaf =>
    { o with
      paneSig := leaf.signature tail
      fed := true
      fedLen := (tail.getD []).length
      settleBackstop := some 60
      trace := o.trace ++ [Record.peeked leaf tail] }

/-- The terminal is given the grid of the pane; at the grid it has, it is filled at once. -/
def renderStart (tail : Option Bytes) : EpimoneOverview :=
  let o := { o with pumpTimeout := none }
  match o.renderCurrentLeaf with
  | none => { o with rendering := false }
  | some leaf =>
    let o := { o with fed := false }
    if 0 < leaf.cols ∧ 0 < leaf.rows ∧ (leaf.cols ≠ o.lastCols ∨ leaf.rows ≠ o.lastRows) then
      { o with lastCols := leaf.cols, lastRows := leaf.rows, feedTimeout := some 16 }
    else o.renderFeed tail

/-- With the grid still blank after a feed, this was not yet the quiet after the feed. -/
def renderFinishQuiet (blank : Bool) (x : Capture) : EpimoneOverview :=
  let o := { o with settleQuiet := none }
  if 0 < o.fedLen ∧ blank = true then o else o.renderFinish x

def thumbContentsChanged : EpimoneOverview :=
  if o.rendering = false ∨ o.fed = false then o else { o with settleQuiet := some 12 }

/-- A card that has its texture and the same signature as ever is done; `tails` is what peeking its panes returns. -/
def queueCard (near : Nat → Bool) (tails : Nat → List (Option Bytes)) (o : EpimoneOverview) (c : Nat) :
    EpimoneOverview :=
  let card := o.card c
  if card.rendered = true ∨ card.leaves = [] then o
  else if c ∈ o.pending then o
  else if near c = false then o
  else if (o.thumbSig card.cacheKey).isSome ∧ (o.thumbCache card.cacheKey).isSome ∧
      cardCurrentSig card.leaves (tails c) = o.thumbSig card.cacheKey then
    o.updateCard c fun card => { card with rendered := true }
  else { o with pending := o.pending ++ [c] }

def queueVisibleRenders (near : Nat → Bool) (tails : Nat → List (Option Bytes)) : EpimoneOverview :=
  let o := o.flow.foldl (queueCard near tails) o
  if o.rendering then o else o.renderPump

end EpimoneOverview

/-- What a reload gets from the daemon: the ids of its groups and the cards to be built, in their order. -/
structure Built where
  groupIds : List Nat
  cards : List CardInfo
  freshCaptureGroup : Nat
  deriving DecidableEq

namespace EpimoneOverview

variable (o : EpimoneOverview)

def addCard (freshCaptureGroup : Nat) (o : EpimoneOverview) (info : CardInfo) : EpimoneOverview :=
  { o with
    flow := o.flow ++ [o.nextCard]
    card := Function.update o.card o.nextCard (.new info (o.thumbCache info.cacheKey).isSome freshCaptureGroup)
    nextCard := o.nextCard + 1 }

/-- The textures of groups that are gone go, each with its signature. -/
def prune (groupIds : List Nat) : EpimoneOverview :=
  { o with
    thumbCache := fun key => if key ∈ groupIds then o.thumbCache key else none
    thumbSig := fun key => if key ∉ groupIds ∧ (o.thumbCache key).isSome then none else o.thumbSig key }

def reload (built : Option Built) (near : Nat → Bool) (tails : Nat → List (Option Bytes)) : EpimoneOverview :=
  let o := { o.renderAbort with flow := [] }
  match built with
  | none => o
  | some b => ((b.cards.foldl (addCard b.freshCaptureGroup) o).prune b.groupIds).queueVisibleRenders near tails

def refreshCard (o : EpimoneOverview) (c : Nat) : EpimoneOverview :=
  if (o.card c).leaves = [] then o
  else o.updateCard c fun card => { card.nodesClear with rendered := false, curLeaf := 0 }

def appearanceChanged (near : Nat → Bool) (tails : Nat → List (Option Bytes)) : EpimoneOverview :=
  let o := { o.renderAbort with thumbCache := fun _ => none, thumbSig := fun _ => none }
  (o.flow.foldl refreshCard o).queueVisibleRenders near tails

def dispose : EpimoneOverview :=
  { o.renderAbort with flow := [], thumbCache := fun _ => none, thumbSig := fun _ => none }

def start : EpimoneOverview where
  flow := []
  card _ := .new ⟨0, 0, 0, [], []⟩ false 0
  nextCard := 0
  pending := []
  rendering := false
  fed := false
  fedLen := 0
  paneSig := 0
  pumpTimeout := none
  feedTimeout := none
  settleBackstop := none
  settleQuiet := none
  lastCols := 0
  lastRows := 0
  animating := false
  thumbCache _ := none
  thumbSig _ := none
  trace := []

end EpimoneOverview

inductive OverviewEvent where
  | reload (built : Option Built) (near : Nat → Bool) (tails : Nat → List (Option Bytes))
  | scrolled (near : Nat → Bool) (tails : Nat → List (Option Bytes))
  | appearanceChanged (near : Nat → Bool) (tails : Nat → List (Option Bytes))
  | animate (animating : Bool)
  | liveCaptured (key : Nat) (texture : Texture)
  | contentsChanged
  | pumpExpires (tail : Option Bytes)
  | feedExpires (tail : Option Bytes)
  | backstopExpires (x : Capture)
  | quietExpires (blank : Bool) (x : Capture)
  | dispose

namespace EpimoneOverview

variable (o : EpimoneOverview)

def step : OverviewEvent → Option EpimoneOverview
  | .reload built near tails => some (o.reload built near tails)
  | .scrolled near tails => some (o.queueVisibleRenders near tails)
  | .appearanceChanged near tails => some (o.appearanceChanged near tails)
  | .animate animating => some { o with animating := animating }
  | .liveCaptured key texture => some { o with thumbCache := Function.update o.thumbCache key (some texture) }
  | .contentsChanged => some o.thumbContentsChanged
  | .pumpExpires tail => if o.pumpTimeout.isSome then some (o.renderStart tail) else none
  | .feedExpires tail => if o.feedTimeout.isSome then some (o.renderFeed tail) else none
  | .backstopExpires x => if o.settleBackstop.isSome then some (o.renderFinish x) else none
  | .quietExpires blank x => if o.settleQuiet.isSome then some (o.renderFinishQuiet blank x) else none
  | .dispose => some o.dispose

end EpimoneOverview

def thumbnails : Machine EpimoneOverview OverviewEvent := ⟨.start, EpimoneOverview.step⟩

end Epimone.Client
