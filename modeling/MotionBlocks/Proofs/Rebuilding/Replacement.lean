import MotionBlocks.Proofs.Session.Hearing

namespace MotionBlocks

/-!
# A rebuild replaces everything

A rebuild is never refused, so whoever asked for it may take the program for installed.
None of the older blocks is left.  The new ones have identifiers that were never given
out, so that nobody who remembers an old identifier finds another block under it.

The observers are told of all that, and every change that they are told of is marked as
programmatic.  The mark does not outlast the rebuild.
-/

namespace Workspace

section

variable {start workspace : Workspace}

/-! ## How many blocks there are -/

/-- A pause gets two blocks, and every other step three. -/
theorem blocksFor_eq (motions : List Motion) : blocksFor motions =
    3 * (motions.map (·.kind)).countP (· ≠ .pause) + 2 * (motions.map (·.kind)).count .pause := by
  induction motions with
  | nil => rfl
  | cons motion motions ih =>
    rw [blocksFor] at ih ⊢
    rw [List.map_cons, List.sum_cons, ih, Motion.length_numbers, List.map_cons, List.countP_cons,
      List.count_cons]
    by_cases pauses : motion.kind = .pause
    · simp [pauses, StepKind.family]
      omega
    · simp [pauses, (motion.kind.family_eq_pause_iff).not.mpr pauses]
      omega

/-! ## What is told of a rebuild -/

/-- All that was told since some time had the origin of that time, and each block that has
come since then was told of. -/
def Accounted (start workspace : Workspace) : Prop :=
  ∃ told, Informed told start workspace ∧ ∀ id, (workspace.block? id).isSome →
    (start.block? id).isSome ∨ ⟨.create, id, start.origin⟩ ∈ told

theorem Accounted.announce (accounted : Accounted start workspace) (kind : ChangeKind)
    (id : BlockId) : Accounted start (workspace.announce kind id) := by
  rcases accounted with ⟨told, informed, created⟩
  refine ⟨_, informed.announce kind id, fun other present => ?_⟩
  rw [block?_announce] at present
  exact (created other present).imp_right (List.mem_append_left _)

/-- Blocks that go or change need no account. -/
theorem Accounted.withStore (accounted : Accounted start workspace) {store : BlockStore}
    (fewer : ∀ id, (store.get? id).isSome → (workspace.block? id).isSome) :
    Accounted start { workspace with store } := by
  rcases accounted with ⟨told, informed, created⟩
  exact ⟨told, informed.withStore store, fun id present => created id (fewer id present)⟩

theorem accounted_lasting (start : Workspace) : Lasting (Accounted start) where
  create := by
    rintro kind workspace ⟨told, informed, created⟩
    refine ⟨_, (informed.withStore (workspace.store.push (.ofKind kind))).announce .create
      workspace.store.nextId, fun id present => ?_⟩
    rw [block?_create] at present
    split at present
    · rename_i new
      exact .inr (List.mem_append_right told (List.mem_singleton.mpr (by rw [new])))
    · exact (created id present).imp_right (List.mem_append_left _)
  clear := by
    intro workspace accounted
    exact foldl_announce (fun kind id _ accounted => accounted.announce kind id) _
      (accounted.withStore fun id present => by simp at present)
  revise := by
    intro id change workspace accounted
    refine accounted.withStore fun other present => ?_
    rwa [← isSome_revise workspace id other change]
  remove := by
    intro doomed workspace accounted
    refine accounted.withStore fun id present => ?_
    have kept : ((workspace.remove doomed).block? id).isSome := present
    rw [block?_remove] at kept
    split at kept
    · cases kept
    · exact kept
  announce kind id workspace accounted := accounted.announce kind id

theorem accounted_refl (workspace : Workspace) : Accounted workspace workspace :=
  ⟨[], informed_refl workspace, fun _ present => .inl present⟩

/-- All that is told of a rebuild is marked as programmatic, and each new block is told of. -/
theorem accounted_rebuild (workspace : Workspace) (program : Program) : ∃ told : List Change,
    (∀ change ∈ told, change.origin = .programmatic) ∧
    (∀ id, ((workspace.rebuild program).2.block? id).isSome →
      (workspace.block? id).isSome ∨ ⟨.create, id, .programmatic⟩ ∈ told) ∧
    (workspace.rebuild program).2.deliveries.toList = workspace.deliveries.toList ++
      told.flatMap (fun change => workspace.hosts.map (⟨·, change⟩)) ∧
    (workspace.rebuild program).2.inbox.toList =
      workspace.inbox.toList ++ told.flatMap (List.replicate workspace.sessions) := by
  have accounted := (accounted_lasting _).keptByEdits.replaceWith program _
    (accounted_refl { workspace with origin := .programmatic })
  rw [rebuild_eq]
  generalize (replaceWith program).apply { workspace with origin := .programmatic } = outcome at *
  rcases accounted with ⟨told, informed, created⟩
  exact ⟨told, informed.tagged, created, informed.deliveries, informed.inbox⟩

/-! ## What is gone after a rebuild -/

/-- What was given out before a rebuild is not used by it. -/
theorem spent_rebuild {id : BlockId} (given : GivenOut id workspace) (program : Program) :
    (workspace.rebuild program).2.block? id = none := by
  let ready : Workspace := { workspace with origin := .programmatic }
  have kept := (spent_lasting id).keptByEdits
  have emptied : Spent id ready.clear :=
    ⟨(givenOut_lasting id).clear ready given, block?_clear ready id⟩
  have cleared : (replaceWith program).apply ready = (do
      let start ← modifyGet (create .start)
      move start startPosition
      addChain start program.motions : Edit Unit).apply ready.clear := by
    simp only [replaceWith, Edit.apply_bind, Edit.apply_modify]
  have built := ((Edit.keeps_modifyGet (kept.create .start)).bind fun root =>
    (kept.move root startPosition).bind fun _ => kept.addChain root program.motions) _ emptied
  rw [← cleared] at built
  rw [rebuild_eq]
  generalize (replaceWith program).apply ready = outcome at *
  exact built.2

end

/-- Whatever has been asked of a new workspace and whatever the program is, a rebuild goes
through.  It leaves a start block with one block for each step behind it, the literals of
their numbers, and nothing else, in particular no loop and no block that was ever there
before; all identifiers are new.  All that the observers are told of is marked as
programmatic, and the origin is set back afterwards. -/
theorem replaced_by_rebuild (commands : List Command) (program : Program) :
    let workspace := empty.after commands
    let after := (workspace.rebuild program).2
    (workspace.rebuild program).1 = .ok () ∧
      (∃ root ids, after.Flat root ids program.motions ∧ after.tops.map (·.1) = [root]) ∧
      (∀ id block, after.block? id = some block → block.kind ≠ .loop) ∧
      after.size = 1 + 3 * program.kinds.countP (· ≠ .pause) + 2 * program.kinds.count .pause ∧
      (∀ id, GivenOut id workspace → after.block? id = none) ∧
      (∀ earlier id, earlier <+: commands → ((empty.after earlier).block? id).isSome →
        after.block? id = none) ∧
      after.origin = workspace.origin ∧
      ∃ told : List Change,
        (∀ change ∈ told, change.origin = .programmatic) ∧
        (∀ id, (after.block? id).isSome → ⟨.create, id, .programmatic⟩ ∈ told) ∧
        after.deliveries.toList = workspace.deliveries.toList ++
          told.flatMap (fun change => workspace.hosts.map (⟨·, change⟩)) ∧
        after.inbox.toList =
          workspace.inbox.toList ++ told.flatMap (List.replicate workspace.sessions) := by
  intro workspace after
  rcases workspace.rebuild_flat program with ⟨accepted, root, ids, flat⟩
  have spent : ∀ id, GivenOut id workspace → after.block? id = none :=
    fun id given => spent_rebuild given program
  refine ⟨accepted, ⟨root, ids, flat, flat.tops_eq⟩, fun _ _ => flat.kind_ne_loop, ?_, spent, ?_,
    ?_, ?_⟩
  · have kinds : program.motions.map (·.kind) = program.kinds := List.map_map
    rw [flat.size, blocksFor_eq, kinds, Nat.add_assoc]
  · rintro earlier id ⟨later, rfl⟩ present
    exact spent id ((forest_after earlier later).2.1 id present)
  · show (workspace.rebuild program).2.origin = workspace.origin
    rw [rebuild_eq]
  · rcases workspace.accounted_rebuild program with ⟨told, tagged, created, deliveries, inbox⟩
    refine ⟨told, tagged, fun id present => ?_, deliveries, inbox⟩
    refine (created id present).resolve_left fun old => ?_
    rw [spent id (givenOut_of_isSome old)] at present
    cases present

end Workspace
end MotionBlocks
