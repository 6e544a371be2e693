import Epimone.Client.Replacement

/-! # The ids in the files

layout.json has the ids of the groups and groups.json the stamp that vouches for
them. The two are written one after the other, and the GUI can end in between, as
the daemon can be replaced between two runs of the GUI.
-/
set_option autoImplicit false

namespace Epimone.Talks.World

open Client Daemon Dialogues Dialogue Transition

/-- A dialogue that sends no request for an id any more and puts none down. -/
def silent : Contract Ask Reply :=
  ⟨fun q => q.named = [] ∧ q.records = [] ∧ ∀ stamp gids, q ≠ .writeGroups stamp gids, fun _ _ => True⟩

section Recording

variable (w : World)

/-- What layout.json has was written with the live daemon, or it has no ids. -/
def Current (layoutRead : Bool) : Prop := w.written = w.host.live ∨ (w.layout layoutRead).flatten = []

/-- The daemon is not replaced in the middle of a procedure, no page is synced with ids of another one, the
GUI does not end after the stamp is that of a new daemon and layout.json is not, and it does not start without
a stamp where layout.json is of another daemon. -/
def Recorded : Happening → Prop
  | .replace _ => ∀ d ∈ w.talk, d.Keeps silent (Gui.Bound (w.host.live :: w.older))
  | .start p => ∀ gui ∈ w.gui, ∀ s ∈ p.synced gui, s.Of w.host.live
  | .launch groupsRead layoutRead => w.recorded groupsRead = 0 → w.Current layoutRead
  | .quit => w.recorded true = w.host.live → w.Current true
  | _ => True

/-- At its start the GUI attaches a session for a tab with this group. -/
def Rebuilds (gid : Stored) : Prop := w.gui = none ∧ ∃ sid, w.pending = some (.attach sid (some gid))

/-- There is no GUI yet. -/
abbrev Starting (gui : Option Gui) : Prop := gui = none

structure Filed : Prop where
  settled : w.Settled Starting silent
  stamp : w.recorded true ∈ 0 :: w.host.live :: w.older
  layout : ∀ gid ∈ (w.layout true).flatten, gid.Of w.written
  matched : w.gui = none → w.talk = none → w.recorded true = w.host.live → w.Current true

end Recording

variable {w w' : World} {e : Happening}

theorem silent_leaves {q : Ask} (h : silent.asks q) : q.leaves = [] := by
  cases q with
  | groupNew text leaves => exact h.2.1
  | groupSet gid text leaves => exact h.2.1
  | _ => rfl

theorem Filed.of_current (h : w.Filed) {layoutRead : Bool} (hCurrent : w.Current layoutRead) {gid : Stored}
    (hGid : gid ∈ (w.layout layoutRead).flatten) : gid.Of w.host.live := by
  rcases hCurrent with hWritten | hBare
  · cases layoutRead with
    | false => cases hGid
    | true =>
      rw [← hWritten]
      exact h.layout gid hGid
  · rw [hBare] at hGid
    cases hGid

theorem Current.read (h : w.Current true) (layoutRead : Bool) : w.Current layoutRead := by
  cases layoutRead with
  | false => exact Or.inr rfl
  | true => exact h

/-- Where the guard lets the start pass, the ids are those of the live daemon. -/
theorem Filed.spared (h : w.Filed) (hRecorded : w.Recorded e) (hStep : w.step e = some w') :
    w.Spared Starting silent e := by
  constructor
  · rintro instanceId rfl
    exact hRecorded
  · rintro p rfl gui hGui
    refine ⟨hRecorded gui hGui, fun hNone => ?_⟩
    rw [hNone] at hGui
    cases hGui
  · rintro groupsRead layoutRead rfl hStamp gid hGid
    have hBare : w.gui = none ∧ w.talk = none := by
      simp only [World.step] at hStep
      split at hStep
      · next hGui hTalk => exact ⟨hGui, hTalk⟩
      · cases hStep
    have hCurrent : w.Current layoutRead := by
      cases groupsRead with
      | false => exact hRecorded rfl
      | true =>
        rcases hStamp with hNone | hLive
        · exact hRecorded hNone
        · exact (h.matched hBare.1 hBare.2 hLive).read layoutRead
    exact h.of_current hCurrent hGid

/-- The files after a request, while a dialogue goes on. -/
theorem Filed.answered (h : w.Filed) {x : Service} {q : Ask} {next : Reply → Talk Gui} {d : Talk Gui}
    (hTalk : w.talk = some (.ask q next))
    (hSettled : Settled Starting silent { (w.answer x q).1 with talk := some d }) :
    Filed { (w.answer x q).1 with talk := some d } := by
  have hUnder := h.settled.talking _ hTalk
  cases q with
  | writeGroups stamp gids =>
    unfold answer at hSettled ⊢
    dsimp only at hSettled ⊢
    split at hSettled
    · next hReplied =>
      simp only [hReplied, ↓reduceIte] at hSettled ⊢
      refine ⟨hSettled, ?_, h.layout, by simp⟩
      change stamp ∈ 0 :: w.host.live :: w.older
      rcases hUnder with hKept | hSilent
      · rcases hKept.1.2.2 stamp gids rfl with hNone | hLive
        · exact List.mem_cons.mpr (Or.inl hNone)
        · exact List.mem_cons_of_mem _ (List.mem_cons.mpr (Or.inl hLive))
      · exact absurd rfl (hSilent.1.2.2 stamp gids)
    · next hLost =>
      simp only [hLost, ↓reduceIte] at hSettled ⊢
      exact ⟨hSettled, h.stamp, h.layout, by simp⟩
  | writeLayout windows =>
    unfold answer at hSettled ⊢
    dsimp only at hSettled ⊢
    split at hSettled
    · next hReplied =>
      simp only [hReplied, ↓reduceIte] at hSettled ⊢
      refine ⟨hSettled, h.stamp, ?_, nofun⟩
      change ∀ gid ∈ windows.flatten, gid.Of w.host.live
      rcases hUnder with hKept | hSilent
      · exact hKept.1.2.1
      · have hBare : windows.flatten = [] := hSilent.1.2.1
        rw [hBare]
        exact fun gid hGid => absurd hGid List.not_mem_nil
    · next hLost =>
      simp only [hLost, ↓reduceIte] at hSettled ⊢
      exact ⟨hSettled, h.stamp, h.layout, by simp⟩
  | _ =>
    refine ⟨hSettled, ?_, h.layout, by simp⟩
    have hSame : (w.host.serve x _).1.live = w.host.live :=
      (h.settled.sound.serve x (h.settled.leaves (fun _ hAsks => silent_leaves hAsks) hTalk)).1
    change w.recorded true ∈ 0 :: (w.host.serve x _).1.live :: w.older
    rw [hSame]
    exact h.stamp

theorem Filed.replaced (h : w.Filed) {instanceId : Nat} (hSome : instanceId ≠ 0)
    (hNew : instanceId ∉ w.host.live :: w.older) {host : Host} (hLive : host.live = instanceId)
    (hSettled : Settled Starting silent { w with host := host, older := w.host.live :: w.older }) :
    Filed { w with host := host, older := w.host.live :: w.older } := by
  refine ⟨hSettled, ?_, h.layout, ?_⟩
  · change w.recorded true ∈ 0 :: host.live :: w.host.live :: w.older
    rcases List.mem_cons.mp h.stamp with hNone | hOld
    · exact List.mem_cons.mpr (Or.inl hNone)
    · exact List.mem_cons_of_mem _ (List.mem_cons_of_mem _ hOld)
  · intro _ _ hStamp
    exfalso
    have hSame : w.recorded true = instanceId := Eq.trans hStamp hLive
    have hStamp := h.stamp
    rw [hSame] at hStamp
    rcases List.mem_cons.mp hStamp with hNone | hOld
    · exact hSome hNone
    · exact hNew hOld

theorem Filed.hosted (h : w.Filed) {host : Host} (hLive : host.live = w.host.live)
    (hSettled : Settled Starting silent { w with host := host }) : Filed { w with host := host } := by
  refine ⟨hSettled, ?_, h.layout, ?_⟩
  · change w.recorded true ∈ 0 :: host.live :: w.older
    rw [hLive]
    exact h.stamp
  · change w.gui = none → w.talk = none → w.recorded true = host.live →
      w.written = host.live ∨ (w.layout true).flatten = []
    rw [hLive]
    exact h.matched

theorem Filed.step (h : w.Filed) (hRecorded : w.Recorded e) (hStep : w.step e = some w') : w'.Filed := by
  have hSettled := h.settled.step (fun _ hAsks => silent_leaves hAsks) (fun _ _ => trivial)
    (h.spared hRecorded hStep) hStep
  cases e with
  | launch groupsRead layoutRead =>
    simp only [World.step] at hStep
    split at hStep
    · cases hStep
      exact ⟨hSettled, h.stamp, h.layout, by simp⟩
    · cases hStep
  | start p =>
    simp only [World.step] at hStep
    split at hStep
    · obtain ⟨_, hSame⟩ := Option.ite_none_right_eq_some.mp hStep
      cases hSame
      exact ⟨hSettled, h.stamp, h.layout, by simp⟩
    · cases hStep
  | serve x =>
    simp only [World.step] at hStep
    split at hStep
    · next q next hTalk =>
      cases hStep
      exact h.answered hTalk hSettled
    · cases hStep
  | finish =>
    simp only [World.step] at hStep
    split at hStep
    · cases hStep
      exact ⟨hSettled, h.stamp, h.layout, by simp⟩
    · cases hStep
  | arrange windows =>
    simp only [World.step] at hStep
    split at hStep
    · obtain ⟨_, hSame⟩ := Option.ite_none_right_eq_some.mp hStep
      cases hSame
      exact ⟨hSettled, h.stamp, h.layout, by simp⟩
    · cases hStep
  | quit =>
    cases hStep
    exact ⟨hSettled, h.stamp, h.layout, fun _ _ => hRecorded⟩
  | daemon a =>
    cases hStep
    exact h.hosted (instanceId_perform w.host.srv a) hSettled
  | otherBlob gid text leaves =>
    obtain ⟨_, hSame⟩ := Option.ite_none_right_eq_some.mp hStep
    cases hSame
    exact h.hosted (instanceId_perform w.host.srv (.setBlob gid text)) hSettled
  | replace instanceId =>
    simp only [World.step] at hStep
    split at hStep
    · cases hStep
    · next hNew =>
      cases hStep
      exact h.replaced (fun hNone => hNew (Or.inl hNone)) (fun hOld => hNew (Or.inr hOld)) rfl hSettled

theorem filed_initial (instanceId : Nat) : (initial instanceId).Filed where
  settled := settled_initial instanceId
  stamp := List.mem_cons_self
  layout := by
    intro gid hGid
    cases hGid
  matched := fun _ _ _ => Or.inl rfl

/-- In a run that keeps to the conditions, a tab is only rebuilt at the start from a group that the live
daemon has issued. -/
theorem restores_own_groups {instanceId : Nat} {inputs : List Happening}
    (hRecorded : (world instanceId).Meets Recorded (initial instanceId) inputs)
    (hRun : (world instanceId).run inputs = some w) : ∀ gid, w.Rebuilds gid → gid.Of w.host.live := by
  have hFiled : w.Filed := hRecorded.invariant (fun _ _ _ hFiled hCondition hStep =>
    Filed.step hFiled hCondition hStep) (filed_initial instanceId) hRun
  rintro gid ⟨hNone, sid, hPending⟩
  unfold pending at hPending
  split at hPending
  · next q next hTalk =>
    cases hPending
    rcases hFiled.settled.talking _ hTalk with hKept | hSilent
    · exact hKept.1.1 hNone gid (List.mem_cons_of_mem _ List.mem_cons_self)
    · cases hSilent.1.1
  · cases hPending

/-- The GUI opens a tab, saves it and ends; the flag says whether the instance is told during the save. -/
def oneTab (told : Bool) : List Happening :=
  .launch true true :: List.replicate 3 (.serve prompt) ++ [.finish, .start (.save (fun _ => []) true true)] ++
    [.serve prompt, .serve prompt, .serve { prompt with delivery := if told then .replied else .refused },
      .serve prompt, .serve prompt] ++ [.finish, .quit]

/-- The next start, as far as the session of the tab. -/
def startsAgain : List Happening := .launch true true :: List.replicate 4 (.serve prompt)

def calm (w : World) : Happening → Bool
  | .replace _ => w.talk.isNone
  | .start p => w.gui.all fun gui => (p.synced gui).all fun s => s.id == 0 || s.issuer == w.host.live
  | .launch groupsRead layoutRead => w.recorded groupsRead != 0 || (w.layout layoutRead).isEmpty
  | .quit => w.written == w.host.live
  | _ => true

theorem recorded_of_calm (h : w.calm e = true) : w.Recorded e := by
  cases e with
  | replace instanceId =>
    intro d hTalk
    have hNone := Option.isNone_iff_eq_none.mp h
    rw [hNone] at hTalk
    cases hTalk
  | start p =>
    intro gui hGui s hs hSome
    have hAll := (Option.all_eq_true _ _).mp h gui hGui
    rcases Bool.or_eq_true_iff.mp (List.all_eq_true.mp hAll s hs) with hNone | hIssued
    · exact absurd (beq_iff_eq.mp hNone) hSome
    · exact beq_iff_eq.mp hIssued
  | launch groupsRead layoutRead =>
    intro hNone
    rcases Bool.or_eq_true_iff.mp h with hSome | hBare
    · exact absurd hNone (bne_iff_ne.mp hSome)
    · exact Or.inr (by rw [List.isEmpty_iff.mp hBare]; rfl)
  | quit => exact fun _ => Or.inl (beq_iff_eq.mp h)
  | _ => trivial

/-- The same daemon: the tab comes back. -/
theorem restores_own_groups_again : ∃ w, (world 7).run (oneTab true ++ startsAgain) = some w ∧ w.Rebuilds ⟨1, 7⟩ ∧
    ∀ gid, w.Rebuilds gid → gid.Of w.host.live := by
  have hSteps : ((world 7).steps (oneTab true ++ startsAgain)).all (fun step => step.before.calm step.input) := by
    decide +kernel
  have hRecorded : (world 7).Meets Recorded (initial 7) (oneTab true ++ startsAgain) := fun step hMem =>
    recorded_of_calm (List.all_eq_true.mp hSteps step hMem)
  have hCheck : ((world 7).run (oneTab true ++ startsAgain)).any fun w =>
      w.gui.isNone && decide (w.pending = some (.attach ⟨1, 7⟩ (some ⟨1, 7⟩))) := by decide +kernel
  obtain ⟨w, hRun, hw⟩ := Machine.exists_of_run_any (world 7) hCheck
  obtain ⟨hNone, hPending⟩ := Bool.and_eq_true_iff.mp hw
  exact ⟨w, hRun, ⟨Option.isNone_iff_eq_none.mp hNone, _, of_decide_eq_true hPending⟩,
    restores_own_groups hRecorded hRun⟩

/-- The stamp is 0, as the query has failed; a tab of daemon 7 is rebuilt with group 1 of daemon 8. -/
theorem restores_other_group : ∃ w, (world 7).run (oneTab false ++ [.replace 8,
      .daemon (.create 100 none [] none none (shell 100)), .daemon (.newGroup ⟨0, [], 0⟩), .otherBlob 1 [1] [⟨1, 8⟩]] ++
        startsAgain) = some w ∧ w.Rebuilds ⟨1, 7⟩ ∧ w.host.live = 8 ∧
          (w.host.grant prompt (.attach ⟨1, 8⟩ (some ⟨1, 7⟩))).isSome = true := by
  have hCheck : ((world 7).run (oneTab false ++ [.replace 8, .daemon (.create 100 none [] none none (shell 100)),
      .daemon (.newGroup ⟨0, [], 0⟩), .otherBlob 1 [1] [⟨1, 8⟩]] ++ startsAgain)).any fun w =>
      w.gui.isNone && decide (w.pending = some (.attach ⟨1, 8⟩ (some ⟨1, 7⟩))) && w.host.live == 8 &&
        (w.host.grant prompt (.attach ⟨1, 8⟩ (some ⟨1, 7⟩))).isSome := by decide +kernel
  obtain ⟨w, hRun, hw⟩ := Machine.exists_of_run_any (world 7) hCheck
  simp only [Bool.and_eq_true, decide_eq_true_eq, beq_iff_eq] at hw
  obtain ⟨⟨⟨hNone, hPending⟩, hLive⟩, hGranted⟩ := hw
  exact ⟨w, hRun, ⟨Option.isNone_iff_eq_none.mp hNone, _, hPending⟩, hLive, hGranted⟩

end Epimone.Talks.World
