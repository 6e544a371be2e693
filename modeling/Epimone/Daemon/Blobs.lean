import Epimone.Daemon.Groups

/-! # Blobs of the groups

A group gets its blob when it is made and from every GROUP_SET that names it;
nothing else the daemon does touches it.
-/
set_option autoImplicit false

namespace Epimone.Daemon

open Transition

variable {srv : Server}

/-- The actions that make a group or store a blob. -/
def Act.writesBlob : Act → Bool
  | .newGroup _ | .setBlob .. => true
  | _ => false

theorem survivors_sublist (gid : Nat) : (survivors srv gid).Sublist srv.groups := by
  unfold survivors
  split
  · exact List.eraseP_sublist
  · exact .refl _

/-- Every other action keeps the groups with their blobs, or takes one of them away. -/
theorem groups_perform {a : Act} (h : a.writesBlob = false) : (a.perform srv).groups.Sublist srv.groups := by
  cases a with
  | newGroup | setBlob => cases h
  | queue c data alloc => simp [Act.perform, enqueue_eq]
  | attach c s ans => simp [Act.perform, bindClient_eq]
  | relay s c chunk ringAlloc queueAlloc => simp [Act.perform, enqueue_eq, readOutput, Server.modSess, Server.emit]
  | reap pid status child => simp [Act.perform, markReaped_eq]
  | close c => simp [Act.perform, connClose_eq]
  | escalate s => simp [Act.perform, epiSessionKill_eq, Server.modSess]
  | unlink s =>
    simp only [Act.perform, unlinkMember_eq]
    exact survivors_sublist _
  | kill s clock =>
    simp only [Act.perform, markKilled_eq]
    exact survivors_sublist _
  | move s gid =>
    simp only [Act.perform, moveSession_eq]
    split
    · exact .refl _
    · exact survivors_sublist _
  | _ => exact .refl _

end Epimone.Daemon
