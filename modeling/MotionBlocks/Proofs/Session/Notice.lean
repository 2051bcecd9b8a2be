import MotionBlocks.Proofs.Rebuilding.Replacement

namespace MotionBlocks

/-!
# Nothing changes unnoticed

The session learns of changes only through its inbox.  It may take an empty inbox
for the sign that the blocks are as they were, because every request that changes
blocks tells the observers, and one of them is the session's.
-/

namespace Workspace

/-- An observer with a number lets changes wait for the session. -/
def Watched (number : Nat) (workspace : Workspace) : Prop :=
  (number, Audience.session) ∈ workspace.observers.entries

/-- A change waits for the session. -/
def Told (workspace : Workspace) : Prop :=
  workspace.inbox ≠ #[]

section

variable {workspace : Workspace} {number : Nat}

/-- What everybody is told of waits for the session. -/
theorem told_of_inbox {after : Workspace} {changes : List Change}
    (inbox : after.inbox.toList =
      workspace.inbox.toList ++ changes.flatMap (List.replicate workspace.sessions))
    (watched : workspace.Watched number) (some : changes ≠ []) : after.Told := by
  have sessions : 0 < workspace.sessions := List.countP_pos_iff.mpr ⟨_, watched, rfl⟩
  rcases List.exists_cons_of_ne_nil some with ⟨change, rest, rfl⟩
  rcases Nat.exists_eq_succ_of_ne_zero sessions.ne' with ⟨others, count⟩
  intro empty
  simp [empty, count, List.replicate_succ] at inbox

/-- A rebuild creates a start block whatever the program is, and the new block is told
of. -/
theorem told_rebuild (watched : workspace.Watched number) (program : Program) :
    (workspace.rebuild program).2.Told := by
  rcases workspace.accounted_rebuild program with ⟨told, -, created, -, inbox⟩
  rcases workspace.rebuild_flat program with ⟨-, root, ids, flat⟩
  rcases flat.started with ⟨next, found, -⟩
  refine told_of_inbox inbox watched fun silent => ?_
  rcases created root (by simp [found]) with old | listed
  · have gone := spent_rebuild (givenOut_of_isSome old) program
    cases gone.symm.trans found
  · rw [silent] at listed
    cases listed

/-- A request that changes blocks is waiting in the inbox afterwards, unless it did
not change anything. -/
theorem WellFormed.told_or_same (wellFormed : workspace.WellFormed)
    (watched : workspace.Watched number) {command : Command} (mutates : command.mutates = true) :
    (command.run workspace).Told ∨ command.run workspace = workspace := by
  by_cases whole : ∃ program, command = .rebuild program
  · rcases whole with ⟨program, rfl⟩
    exact Or.inl (told_rebuild watched program)
  · rcases wellFormed.exists_noticed mutates (not_exists.mp whole) with ⟨changes, noticed⟩
    by_cases silent : changes = []
    · exact Or.inr (noticed.silent silent)
    · exact Or.inl (told_of_inbox noticed.informed.inbox watched silent)

/-- An observer stays for as long as it is not removed. -/
theorem Watched.run (watched : workspace.Watched number) {command : Command}
    (stays : command ≠ .unsubscribe number) : (command.run workspace).Watched number := by
  cases mutates : command.mutates with
  | true => rwa [Watched, observers_run mutates]
  | false =>
    cases command with
    | subscribe audience => exact List.mem_append_left _ watched
    | unsubscribe other =>
      have different : number ≠ other := fun same => stays (by rw [same])
      exact List.mem_filter.mpr ⟨watched, by simpa using different⟩
    | setOrigin | takeDeliveries | takeInbox => exact watched
    | _ => cases mutates

end

end Workspace
end MotionBlocks
