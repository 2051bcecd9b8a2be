import MotionBlocks.Proofs.Unrolling.Blocks

namespace MotionBlocks

/-!
# The walk of a compilation

A compilation walks along a chain and into the bodies of loops, and remembers every
block on the way.  A walk says what is done at each block, and nothing about how deep
the recursion goes: it ends where a chain ends, or at a block that was met before.

The recursion is cut off at a depth, but it never gets there.  Every block that is
gone into is new, so the blocks that have not been met are fewer each time, and the
depth that a compilation starts with is more than there are to meet.  This holds of
every workspace, even if its links went round in circles.
-/

namespace Workspace

/-- What comes of the chain from a block on in a state, and the state after it. -/
inductive Walk (workspace : Workspace) (options : CompileOptions) :
    Option BlockId → CompileState → List Step → CompileState → Prop where
  | ends {state : CompileState} : Walk workspace options none state [] state
  /-- A link may lead nowhere. -/
  | lost {id : BlockId} {state : CompileState} : workspace.block? id = none →
      Walk workspace options (some id) state [] state
  /-- A block that was met before is not gone into again, nor is what follows it. -/
  | again {id : BlockId} {block : Block} {state : CompileState} :
      workspace.block? id = some block → id ∈ state.visited →
      Walk workspace options (some id) state [] (state.noting #[.cycleDetected id])
  | beside {id : BlockId} {block : Block} {own rest : List Step}
      {state after final : CompileState} :
      workspace.block? id = some block → id ∉ state.visited →
      workspace.Beside block (state.meeting id) (own, after) →
      Walk workspace options block.next after rest final →
      Walk workspace options (some id) state (own ++ rest) final
  | loop {id : BlockId} {block : Block} {noted : Array CompileWarning} {count : ℕ}
      {body rest : List Step} {state nested final : CompileState} :
      workspace.block? id = some block → id ∉ state.visited → block.kind = .loop →
      Ordinary noted →
      Walk workspace options block.body ((state.meeting id).noting noted) body nested →
      IsGreatest {count | Affordable options (workspace.rounds block)
        (options.roundLimit (workspace.timesIn block)) (nested.emitted - body.length)
        body.length count} count →
      Walk workspace options block.next
        (nested.unrolled id (workspace.timesIn block) body count) rest final →
      Walk workspace options (some id) state
        (nested.ids.renewed (List.replicate count body).flatten ++ rest) final

section

variable {workspace : Workspace} {options : CompileOptions} {start : Option BlockId}
  {state final : CompileState} {steps : List Step} {id : BlockId} {block : Block}

theorem Beside.visited_eq {outcome : List Step × CompileState}
    (beside : workspace.Beside block state outcome) : outcome.2.visited = state.visited := by
  cases beside <;> rfl

theorem Beside.contributes (beside : workspace.Beside block state (steps, final)) :
    workspace.Contributes block (steps.map (·.motion)) := by
  cases beside with
  | skipped _ stands => exact stands
  | stepped _ stands => exact stands

theorem Beside.emitted_eq (beside : workspace.Beside block state (steps, final)) :
    final.emitted = state.emitted + steps.length := by
  cases beside <;> rfl

/-- No block that was met is forgotten. -/
theorem Walk.visited_subset (walk : workspace.Walk options start state steps final) :
    state.visited ⊆ final.visited := by
  induction walk with
  | ends => exact List.Subset.refl _
  | lost => exact List.Subset.refl _
  | again => exact List.Subset.refl _
  | beside _ _ beside _ ih =>
    have same := beside.visited_eq
    rw [same] at ih
    exact List.Subset.trans (List.subset_cons_self _ _) ih
  | loop _ _ _ _ _ _ _ bodyIh restIh =>
    exact List.Subset.trans (List.subset_cons_self _ _) (List.Subset.trans bodyIh restIh)

/-! ## What decides a walk -/

/-- Copies under new identifiers do what the body does, again and again. -/
theorem motions_copies (ids : StepIds) (count : ℕ) (body : List Step) :
    (ids.renewed (List.replicate count body).flatten).map (·.motion) =
      (List.replicate count (body.map (·.motion))).flatten := by
  rw [StepIds.motions_renewed, List.map_flatten, List.map_replicate]

/-- What comes of a chain and what is met in it are decided by the blocks met and the steps
emitted before, whatever was noticed and whatever identifiers there are to take. -/
theorem Walk.unique {otherState otherFinal : CompileState} {otherSteps : List Step}
    (walk : workspace.Walk options start state steps final)
    (other : workspace.Walk options start otherState otherSteps otherFinal)
    (visited : otherState.visited = state.visited) (emitted : otherState.emitted = state.emitted) :
    otherSteps.map (·.motion) = steps.map (·.motion) ∧ otherFinal.visited = final.visited ∧
      otherFinal.emitted = final.emitted := by
  induction walk generalizing otherState otherSteps otherFinal with
  | ends =>
    cases other
    exact ⟨rfl, visited, emitted⟩
  | lost missing =>
    cases other with
    | lost => exact ⟨rfl, visited, emitted⟩
    | again found => exact absurd (missing.symm.trans found) (by simp)
    | beside found => exact absurd (missing.symm.trans found) (by simp)
    | loop found => exact absurd (missing.symm.trans found) (by simp)
  | again found met =>
    cases other with
    | lost missing => exact absurd (missing.symm.trans found) (by simp)
    | again => exact ⟨rfl, visited, emitted⟩
    | beside _ fresh => exact absurd (visited ▸ met) fresh
    | loop _ fresh => exact absurd (visited ▸ met) fresh
  | @beside id block own rest state after final found fresh beside _ ih =>
    cases other with
    | lost missing => exact absurd (missing.symm.trans found) (by simp)
    | again _ met => exact absurd (visited ▸ met) fresh
    | @beside _ otherBlock otherOwn _ _ _ _ otherFound _ otherBeside otherRest =>
      rcases Option.some.inj (found.symm.trans otherFound) with rfl
      have same : otherOwn.map (·.motion) = own.map (·.motion) :=
        otherBeside.contributes.unique beside.contributes
      have length : otherOwn.length = own.length := by
        simpa using congrArg List.length same
      rcases ih otherRest
        (by rw [otherBeside.visited_eq, beside.visited_eq]; simp [visited])
        (by rw [otherBeside.emitted_eq, beside.emitted_eq, length]
            simp [emitted]) with ⟨motions, met, count⟩
      exact ⟨by rw [List.map_append, List.map_append, same, motions], met, count⟩
    | loop otherFound _ loop =>
      rcases Option.some.inj (found.symm.trans otherFound) with rfl
      exact absurd loop beside.contributes.kind_ne_loop
  | loop found fresh loop _ _ greatest _ bodyIh restIh =>
    cases other with
    | lost missing => exact absurd (missing.symm.trans found) (by simp)
    | again _ met => exact absurd (visited ▸ met) fresh
    | beside otherFound _ beside =>
      rcases Option.some.inj (found.symm.trans otherFound) with rfl
      exact absurd loop beside.contributes.kind_ne_loop
    | loop otherFound _ _ _ otherBody otherGreatest otherRest =>
      rcases Option.some.inj (found.symm.trans otherFound) with rfl
      rcases bodyIh otherBody (by simp [visited]) (by simp [emitted]) with ⟨same, met, count⟩
      have length : _ = _ := congrArg List.length same
      rw [List.length_map, List.length_map] at length
      rw [count, length] at otherGreatest
      rcases greatest.unique otherGreatest with rfl
      rcases restIh otherRest met (by simp only [CompileState.unrolled, count, length]) with
        ⟨rest, restMet, restCount⟩
      refine ⟨?_, restMet, restCount⟩
      rw [List.map_append, List.map_append, motions_copies, motions_copies, same, rest]

/-! ## The depth is never reached -/

/-- The blocks that have not been met. -/
def unmet (workspace : Workspace) (visited : List BlockId) : List BlockId :=
  (workspace.blocks.map (·.1)).filter fun id => decide (id ∉ visited)

theorem length_unmet_mono {visited more : List BlockId} (subset : visited ⊆ more) :
    (workspace.unmet more).length ≤ (workspace.unmet visited).length := by
  refine (List.monotone_filter_right _ fun id fresh => ?_).length_le
  rw [decide_eq_true_iff] at fresh ⊢
  exact fun met => fresh (subset met)

/-- Meeting a block leaves fewer to meet. -/
theorem length_unmet_cons_lt (found : workspace.block? id = some block) {visited : List BlockId}
    (fresh : id ∉ visited) :
    (workspace.unmet (id :: visited)).length < (workspace.unmet visited).length := by
  have listed : id ∈ workspace.unmet visited := by
    refine List.mem_filter.mpr ⟨List.mem_map.mpr ⟨(id, block), ?_, rfl⟩, decide_eq_true fresh⟩
    exact (workspace.store.mem_toList_iff id block).mpr found
  have fewer : workspace.unmet (id :: visited) =
      (workspace.unmet visited).filter fun other => decide (other ≠ id) := by
    rw [unmet, unmet, List.filter_filter]
    refine List.filter_congr fun other _ => ?_
    simp [not_or]
  rw [fewer, List.length_filter_lt_length_iff_exists]
  exact ⟨id, listed, by simp⟩

/-- The first block that is met leaves fewer than all. -/
theorem length_unmet_singleton_lt (found : workspace.block? id = some block) :
    (workspace.unmet [id]).length < workspace.size := by
  have all : (workspace.unmet []).length = workspace.size := by
    simp [unmet, blocks, size, BlockStore.length_toList]
  rw [← all]
  exact length_unmet_cons_lt found List.not_mem_nil

/-! ## Unfolding a chain -/

theorem chainSteps_none (workspace : Workspace) (options : CompileOptions) (depth : ℕ) :
    workspace.chainSteps options depth none = pure [] := by
  cases depth <;> rfl

theorem run_chainSteps_again (options : CompileOptions) (depth : ℕ)
    (found : workspace.block? id = some block) (met : id ∈ state.visited) :
    StateT.run (workspace.chainSteps options (depth + 1) (some id)) state =
      ([], state.noting #[.cycleDetected id]) := by
  simp only [chainSteps, found]
  rw [Compiling.run_bind, Compiling.run_visit_of_mem met]
  show StateT.run (do
    Compiling.warn (.cycleDetected id)
    return []) state = _
  rw [Compiling.run_bind, Compiling.run_warn]
  rfl

theorem run_chainSteps (options : CompileOptions) (depth : ℕ)
    (found : workspace.block? id = some block) (fresh : id ∉ state.visited) :
    StateT.run (workspace.chainSteps options (depth + 1) (some id)) state =
      StateT.run (do
        let own ← workspace.blockSteps options id block
          (workspace.chainSteps options depth block.body)
        let rest ← workspace.chainSteps options depth block.next
        return own ++ rest) (state.meeting id) := by
  simp only [chainSteps, found]
  rw [Compiling.run_bind, Compiling.run_visit_of_not_mem fresh]
  rfl

/-- A depth beyond the number of blocks to meet does not cut a chain off. -/
theorem walk_chainSteps (workspace : Workspace) (options : CompileOptions) (depth : ℕ)
    (start : Option BlockId) (state : CompileState)
    (enough : (workspace.unmet state.visited).length < depth) :
    workspace.Walk options start state
      (StateT.run (workspace.chainSteps options depth start) state).1
      (StateT.run (workspace.chainSteps options depth start) state).2 := by
  induction depth generalizing start state with
  | zero => exact absurd enough (Nat.not_lt_zero _)
  | succ depth ih =>
    cases start with
    | none => exact .ends
    | some id =>
      cases found : workspace.block? id with
      | none =>
        simp only [chainSteps, found]
        exact .lost found
      | some block =>
        by_cases met : id ∈ state.visited
        · rw [run_chainSteps_again options depth found met]
          exact .again found met
        · have fewer := length_unmet_cons_lt found met
          have below : ∀ {after : CompileState}, id :: state.visited ⊆ after.visited →
              (workspace.unmet after.visited).length < depth := fun subset =>
            (length_unmet_mono subset).trans_lt (by omega)
          rw [run_chainSteps options depth found met, Compiling.run_bind, Compiling.run_bind]
          by_cases loop : block.kind = .loop
          · rcases blockSteps_loop options loop (workspace.chainSteps options depth block.body)
              (state.meeting id) with ⟨noted, count, ordinary, greatest, run⟩
            have body := ih block.body ((state.meeting id).noting noted)
              (below (List.Subset.refl _))
            rw [run]
            refine .loop found met loop ordinary body greatest (ih block.next _ (below ?_))
            exact body.visited_subset
          · have beside : workspace.Beside block (state.meeting id)
                (StateT.run (workspace.blockSteps options id block
                  (workspace.chainSteps options depth block.body)) (state.meeting id)) :=
              blockSteps_beside options loop _ _
            generalize StateT.run (workspace.blockSteps options id block
              (workspace.chainSteps options depth block.body)) (state.meeting id) = own
              at beside ⊢
            have same := beside.visited_eq
            refine .beside found met beside (ih block.next _ (below ?_))
            rw [same]
            exact List.Subset.refl _

end

/-! ## Programs -/

/-- The top start block that was created before all other ones. -/
structure FirstStart (workspace : Workspace) (id : BlockId) (block : Block) : Prop where
  found : workspace.block? id = some block
  isTop : block.isTop = true
  isStart : block.kind = .start
  first : ∀ other lower, workspace.block? other = some lower → lower.isTop = true →
    lower.kind = .start → other = id ∨ id.Before other

section

variable {workspace : Workspace} {options : CompileOptions} {id : BlockId} {block : Block}

theorem mem_starts_iff (id : BlockId) (block : Block) : (id, block) ∈ workspace.starts ↔
    workspace.block? id = some block ∧ block.isTop = true ∧ block.kind = .start := by
  simp only [starts, tops, blocks, List.mem_filter, BlockStore.mem_toList_iff, decide_eq_true_eq,
    and_assoc]
  rfl

theorem pairwise_starts (workspace : Workspace) :
    (workspace.starts.map (·.1)).Pairwise BlockId.Before := by
  refine workspace.store.pairwise_toList.sublist ?_
  exact (List.filter_sublist.trans List.filter_sublist).map _

theorem FirstStart.starts_eq {id : BlockId} {block : Block}
    (first : workspace.FirstStart id block) :
    ∃ others, workspace.starts = (id, block) :: others := by
  have ordered := workspace.pairwise_starts
  have listed := (mem_starts_iff id block).mpr ⟨first.found, first.isTop, first.isStart⟩
  cases found : workspace.starts with
  | nil => simp [found] at listed
  | cons head others =>
    rcases head with ⟨other, lower⟩
    rw [found] at listed ordered
    rcases (mem_starts_iff other lower).mp (found ▸ List.mem_cons_self) with
      ⟨there, isTop, isStart⟩
    rcases List.mem_cons.mp listed with equal | later
    · exact ⟨others, by rw [equal]⟩
    · have after : other.Before id :=
        (List.pairwise_cons.mp ordered).1 id (List.mem_map.mpr ⟨(id, block), later, rfl⟩)
      rcases first.first other lower there isTop isStart with equal | before
      · rw [equal] at after
        exact absurd after after.asymm
      · exact absurd after before.asymm

theorem firstStart_of_starts {head : BlockId × Block} {others : List (BlockId × Block)}
    (starts : workspace.starts = head :: others) : workspace.FirstStart head.1 head.2 := by
  have ordered := workspace.pairwise_starts
  rw [starts] at ordered
  rcases (mem_starts_iff head.1 head.2).mp (starts ▸ List.mem_cons_self) with
    ⟨found, isTop, isStart⟩
  refine ⟨found, isTop, isStart, fun other lower there otherTop otherStart => ?_⟩
  have listed := (mem_starts_iff other lower).mpr ⟨there, otherTop, otherStart⟩
  rw [starts] at listed
  rcases List.mem_cons.mp listed with rfl | later
  · exact Or.inl rfl
  · exact Or.inr ((List.pairwise_cons.mp ordered).1 other (List.mem_map.mpr ⟨_, later, rfl⟩))

/-- Of several start blocks the first one is compiled from, and is itself met. -/
theorem FirstStart.run_steps (first : workspace.FirstStart id block) (options : CompileOptions)
    (ids : StepIds) : ∃ noted, (noted = #[] ∨ ∃ count, noted = #[.multipleStarts count id]) ∧
      StateT.run (workspace.steps options) (.initial ids) =
        StateT.run (workspace.chainSteps options workspace.size block.next)
          (((CompileState.initial ids).noting noted).meeting id) := by
  have unmet : ∀ noted, id ∉ ((CompileState.initial ids).noting noted).visited :=
    fun _ => List.not_mem_nil
  rcases first.starts_eq with ⟨others, starts⟩
  unfold steps
  rw [starts]
  dsimp only
  split
  · refine ⟨#[.multipleStarts (others.length + 1) id], Or.inr ⟨_, rfl⟩, ?_⟩
    rw [Compiling.run_bind, Compiling.run_warn, Compiling.run_bind]
    dsimp only
    rw [Compiling.run_visit_of_not_mem (unmet _)]
  · refine ⟨#[], Or.inl rfl, ?_⟩
    rw [Compiling.run_bind, CompileState.noting_empty,
      Compiling.run_visit_of_not_mem List.not_mem_nil]

theorem run_steps_of_starts_eq_nil (starts : workspace.starts = []) (options : CompileOptions)
    (ids : StepIds) : StateT.run (workspace.steps options) (.initial ids) = ([], .initial ids) := by
  unfold steps
  rw [starts]
  rfl

/-- A compilation walks along the chain behind the first start block. -/
theorem FirstStart.walk (first : workspace.FirstStart id block) (options : CompileOptions)
    (ids : StepIds) : ∃ noted, Ordinary noted ∧
      workspace.Walk options block.next (((CompileState.initial ids).noting noted).meeting id)
        (StateT.run (workspace.steps options) (.initial ids)).1
        (StateT.run (workspace.steps options) (.initial ids)).2 := by
  rcases first.run_steps options ids with ⟨noted, chosen, run⟩
  have ordinary : Ordinary noted := by
    rcases chosen with rfl | ⟨count, rfl⟩
    · exact ordinary_empty
    · exact ordinary_singleton rfl
  refine ⟨noted, ordinary, ?_⟩
  rw [run]
  exact workspace.walk_chainSteps options workspace.size block.next _
    (length_unmet_singleton_lt first.found)

theorem noStart_or_firstStart (workspace : Workspace) :
    workspace.starts = [] ∨ ∃ id block, workspace.FirstStart id block := by
  cases starts : workspace.starts with
  | nil => exact Or.inl rfl
  | cons head others => exact Or.inr ⟨head.1, head.2, firstStart_of_starts starts⟩

/-- Without a start block at the top there is nothing to compile. -/
theorem starts_eq_nil (noStart : ∀ id block, workspace.block? id = some block →
    block.isTop = true → block.kind ≠ .start) : workspace.starts = [] := by
  refine List.eq_nil_iff_forall_not_mem.mpr ?_
  rintro ⟨id, block⟩ listed
  rcases (mem_starts_iff id block).mp listed with ⟨found, isTop, isStart⟩
  exact noStart id block found isTop isStart

end

theorem motions_structuralSteps (steps : List Step) :
    (structuralSteps steps).map (·.motion) = steps.map (·.motion) :=
  motions_identified (fun step index => index.repr ++ ":" ++ step.motion.kind.name) 0 steps

/-- The policy for identifiers has no influence on what steps do or on what is noted. -/
theorem compile_eq (workspace : Workspace) (options : CompileOptions) (ids : StepIds) :
    (workspace.compile options ids).1.program.motions =
        (StateT.run (workspace.steps options) (.initial ids)).1.map (·.motion) ∧
      (workspace.compile options ids).1.warnings =
        (StateT.run (workspace.steps options) (.initial ids)).2.warnings ∧
      (workspace.compile options ids).2 =
        (StateT.run (workspace.steps options) (.initial ids)).2.ids := by
  unfold compile
  generalize StateT.run (workspace.steps options) (.initial ids) = outcome
  rcases outcome with ⟨steps, state⟩
  cases options.idPolicy with
  | fresh => exact ⟨rfl, rfl, rfl⟩
  | structural => exact ⟨motions_structuralSteps steps, rfl, rfl⟩

/-- Where identifiers are taken from has no influence on what steps do. -/
theorem motions_compile_congr (workspace : Workspace) (options : CompileOptions)
    (ids otherIds : StepIds) : (workspace.compile options otherIds).1.program.motions =
      (workspace.compile options ids).1.program.motions := by
  rw [(workspace.compile_eq options otherIds).1, (workspace.compile_eq options ids).1]
  rcases workspace.noStart_or_firstStart with none | ⟨id, block, first⟩
  · rw [run_steps_of_starts_eq_nil none, run_steps_of_starts_eq_nil none]
  · rcases first.walk options ids with ⟨noted, -, walk⟩
    rcases first.walk options otherIds with ⟨otherNoted, -, otherWalk⟩
    exact (walk.unique otherWalk rfl rfl).1

/-- A compilation reads nothing but the blocks. -/
theorem compile_congr {first second : Workspace} (same : second.store = first.store)
    (options : CompileOptions) (ids : StepIds) :
    second.compile options ids = first.compile options ids := by
  have blocks : second.block? = first.block? := by
    funext id
    rw [block?, block?, same]
  have slots : second.slotValue = first.slotValue := by
    funext block slot default
    simp only [slotValue, slotNumber, blocks]
  have single : second.blockSteps = first.blockSteps := by
    funext options id block nested
    simp only [blockSteps, motion, parameter, slots]
  have chains : second.chainSteps = first.chainSteps := by
    funext options depth start
    induction depth generalizing start with
    | zero => rfl
    | succ depth ih =>
      cases start with
      | none => rfl
      | some id => simp only [chainSteps, blocks, single, ih]
  have whole : second.steps options = first.steps options := by
    simp only [steps, starts, tops, Workspace.blocks, size, chains, same]
  simp only [compile, whole]

end Workspace
end MotionBlocks
