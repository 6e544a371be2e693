import Mathlib.Data.List.Basic

/-! # Dialogues

A client that sends requests and goes on with the replies, as the tree of all
that it may come to. A contract says which requests are allowed and which replies
they may get; the rules derive what a dialogue keeps from what its parts keep.
-/
set_option autoImplicit false

namespace Epimone.Dialogues

universe u v w

inductive Dialogue (Q : Type u) (R α : Type v) where
  | done (result : α)
  | ask (request : Q) (next : R → Dialogue Q R α)

namespace Dialogue

variable {Q : Type u} {R α β : Type v}

def bind (d : Dialogue Q R α) (f : α → Dialogue Q R β) : Dialogue Q R β :=
  match d with
  | .done a => f a
  | .ask q next => .ask q fun r => (next r).bind f

instance : Monad (Dialogue Q R) where
  pure := .done
  bind := bind

def request (q : Q) : Dialogue Q R R := .ask q .done

/-- One dialogue for each element, the result of one handed to the next. -/
def fold {ι : Type w} (step : α → ι → Dialogue Q R α) : α → List ι → Dialogue Q R α
  | a, [] => .done a
  | a, i :: rest => (step a i).bind fun b => fold step b rest

/-- One dialogue for each element, and the list of their results. -/
def forEach {ι : Type w} (f : ι → Dialogue Q R α) : List ι → Dialogue Q R (List α)
  | [] => .done []
  | i :: rest => (f i).bind fun a => (forEach f rest).bind fun as => .done (a :: as)

/-- The dialogue held with one that answers at once, and its state in the end. -/
def hold {σ : Type w} (answer : σ → Q → σ × R) (s : σ) : Dialogue Q R α → σ × α
  | .done a => (s, a)
  | .ask q next => (next (answer s q).2).hold answer (answer s q).1

end Dialogue

/-- The requests that may be sent, and the replies that they may get. -/
structure Contract (Q : Type u) (R : Type v) where
  asks : Q → Prop
  gives : Q → R → Prop

namespace Dialogue

variable {Q : Type u} {R α β : Type v} {C : Contract Q R}

/-- As long as the replies are those of the contract, so are the requests, and the result is as stated. -/
def Keeps (C : Contract Q R) (post : α → Prop) : Dialogue Q R α → Prop
  | .done a => post a
  | .ask q next => C.asks q ∧ ∀ r, C.gives q r → (next r).Keeps C post

@[simp] theorem keeps_pure {post : α → Prop} {a : α} : (pure a : Dialogue Q R α).Keeps C post ↔ post a := Iff.rfl

theorem Keeps.mono {post post' : α → Prop} {d : Dialogue Q R α} (h : d.Keeps C post) (hImp : ∀ a, post a → post' a) :
    d.Keeps C post' := by
  induction d with
  | done a => exact hImp a h
  | ask q next ih => exact ⟨h.1, fun r hGives => ih r (h.2 r hGives)⟩

theorem Keeps.bind {mid : α → Prop} {post : β → Prop} {d : Dialogue Q R α} {f : α → Dialogue Q R β}
    (h : d.Keeps C mid) (hNext : ∀ a, mid a → (f a).Keeps C post) : (d >>= f).Keeps C post := by
  induction d with
  | done a => exact hNext a h
  | ask q next ih => exact ⟨h.1, fun r hGives => ih r (h.2 r hGives)⟩

theorem keeps_request {post : β → Prop} {q : Q} {f : R → Dialogue Q R β} (hAsks : C.asks q)
    (hNext : ∀ r, C.gives q r → (f r).Keeps C post) : (request q >>= f).Keeps C post :=
  ⟨hAsks, hNext⟩

theorem keeps_fold {ι : Type w} {inv : α → Prop} {step : α → ι → Dialogue Q R α} {l : List ι}
    (hStep : ∀ a, ∀ i ∈ l, inv a → (step a i).Keeps C inv) {a : α} (hStart : inv a) :
    (fold step a l).Keeps C inv := by
  induction l generalizing a with
  | nil => exact hStart
  | cons i rest ih =>
    have hFirst := hStep a i List.mem_cons_self hStart
    exact hFirst.bind fun b hb => ih (fun c j hj => hStep c j (List.mem_cons_of_mem i hj)) hb

theorem keeps_forEach {ι : Type w} {post : ι → α → Prop} {f : ι → Dialogue Q R α} {l : List ι}
    (hEach : ∀ i ∈ l, (f i).Keeps C (post i)) : (forEach f l).Keeps C fun as => List.Forall₂ post l as := by
  induction l with
  | nil => exact List.Forall₂.nil
  | cons i rest ih =>
    have hRest := ih fun j hj => hEach j (List.mem_cons_of_mem i hj)
    exact (hEach i List.mem_cons_self).bind fun a ha => hRest.bind fun as has => List.Forall₂.cons ha has

/-- A dialogue held with one that answers by the contract comes to the stated result. -/
theorem Keeps.hold {σ : Type w} {post : α → Prop} {answer : σ → Q → σ × R} {inv : σ → Prop} {d : Dialogue Q R α}
    (h : d.Keeps C post) (hAnswer : ∀ s q, inv s → C.asks q → inv (answer s q).1 ∧ C.gives q (answer s q).2)
    {s : σ} (hStart : inv s) : inv (d.hold answer s).1 ∧ post (d.hold answer s).2 := by
  induction d generalizing s with
  | done a => exact ⟨hStart, h⟩
  | ask q next ih =>
    obtain ⟨hInv, hGives⟩ := hAnswer s q hStart h.1
    exact ih _ (h.2 _ hGives) hInv

end Dialogue

end Epimone.Dialogues
