import MotionBlocks.Proofs.Unrolling.Correctness

namespace MotionBlocks

/-!
# The budget of a compilation

A compilation counts its steps as it goes.  The steps of a loop's body are counted
while the body is compiled, taken back, and counted again once for each round.  The
count is exact all the same: after every chain it has grown by the length of what came
of the chain, so there is always enough to take back.

A loop is granted the most rounds that fit into what is left when it begins.  What its
body holds was granted out of the same rest before, and that is given up, so loops in
loops do not add up.  All loops together stay within the limit, and only the blocks
beside them come on top of it.
-/

namespace BlockKind

/-- The kinds of blocks that stand for a step of their own. -/
def isMotion : BlockKind → Bool
  | .move | .rotate | .scale | .pause => true
  | _ => false

end BlockKind

/-- A block of a chain with the steps that come of it. -/
structure Share where
  id : BlockId
  block : Block
  motions : List Motion

namespace Share

/-- The steps of a chain. -/
def total (shares : List Share) : List Motion :=
  shares.flatMap motions

/-- The steps of a chain that come from its loops. -/
def looped (shares : List Share) : List Motion :=
  total (shares.filter (·.block.kind = .loop))

/-- How many blocks of a chain stand for a step of their own. -/
def singles (shares : List Share) : ℕ :=
  shares.countP (·.block.kind.isMotion)

section

variable {share : Share} {rest : List Share}

theorem total_cons : total (share :: rest) = share.motions ++ total rest :=
  rfl

theorem looped_cons_of_loop (loop : share.block.kind = .loop) :
    looped (share :: rest) = share.motions ++ looped rest := by
  rw [looped, List.filter_cons_of_pos (by simpa using loop), total_cons, looped]

theorem looped_cons_of_ne (other : share.block.kind ≠ .loop) :
    looped (share :: rest) = looped rest := by
  rw [looped, List.filter_cons_of_neg (by simpa using other), looped]

theorem singles_cons :
    singles (share :: rest) = singles rest + if share.block.kind.isMotion then 1 else 0 :=
  List.countP_cons

end

end Share

/-- How often a loop has been run. -/
structure LoopRun where
  id : BlockId
  block : Block
  count : ℕ

namespace Compiling

/-- A part of a compilation that counts the steps that come of it. -/
def Counts (part : Compiling (List Step)) : Prop :=
  ∀ state, (StateT.run part state).2.emitted =
    state.emitted + (StateT.run part state).1.length

theorem counts_nil : Counts (pure []) :=
  fun _ => rfl

theorem Counts.append {first second : Compiling (List Step)} (firstCounts : Counts first)
    (secondCounts : Counts second) : Counts (do
      let own ← first
      let rest ← second
      return own ++ rest) := by
  intro state
  change (StateT.run second (StateT.run first state).2).2.emitted = state.emitted +
    ((StateT.run first state).1 ++ (StateT.run second (StateT.run first state).2).1).length
  rw [secondCounts, firstCounts, List.length_append, Nat.add_assoc]

end Compiling

namespace Workspace

/-- What is reported about a loop that has been run. -/
def clamp? (workspace : Workspace) (loop : LoopRun) : Option CompileWarning :=
  if Number.ofNat loop.count < Number.floorPositive (workspace.timesIn loop.block) then
    some (.repeatClamped loop.id (Number.floorPositive (workspace.timesIn loop.block)) loop.count)
  else none

/-- What comes of the chain from a block on when a number of steps has been emitted
before it: the share of each of its blocks, and the runs of all loops down to the
innermost ones. -/
inductive Metered (workspace : Workspace) (options : CompileOptions) :
    ℕ → Option BlockId → List Share → List LoopRun → Prop where
  | ends {emitted : ℕ} : Metered workspace options emitted none [] []
  | block {emitted : ℕ} {id : BlockId} {block : Block} {own : List Motion} {rest : List Share}
      {runs : List LoopRun} :
      workspace.block? id = some block → workspace.Contributes block own →
      Metered workspace options (emitted + own.length) block.next rest runs →
      Metered workspace options emitted (some id) (⟨id, block, own⟩ :: rest) runs
  | loop {emitted count : ℕ} {id : BlockId} {block : Block} {body rest : List Share}
      {bodyRuns restRuns : List LoopRun} :
      workspace.block? id = some block → block.kind = .loop →
      Metered workspace options emitted block.body body bodyRuns →
      IsGreatest {count | Affordable options (workspace.rounds block)
        (options.roundLimit (workspace.timesIn block)) emitted (Share.total body).length
        count} count →
      Metered workspace options (emitted + count * (Share.total body).length) block.next rest
        restRuns →
      Metered workspace options emitted (some id)
        (⟨id, block, (List.replicate count (Share.total body)).flatten⟩ :: rest)
        (bodyRuns ++ ⟨id, block, count⟩ :: restRuns)

section

variable {workspace : Workspace} {options : CompileOptions} {id : BlockId} {block : Block}

/-! ## The count is exact -/

/-- The body of a loop is taken back and counted once for each round. -/
theorem emitted_unrolled {entered nested : CompileState} {body : List Step}
    (counted : nested.emitted = entered.emitted + body.length) (id : BlockId) (times : Float)
    (count : ℕ) :
    (nested.unrolled id times body count).emitted = entered.emitted +
      (nested.ids.renewed (List.replicate count body).flatten).length := by
  simp only [CompileState.unrolled, counted, Nat.add_sub_cancel, StepIds.length_renewed,
    List.length_flatten, List.map_replicate, List.sum_replicate_nat, Nat.mul_comm]

theorem counts_blockSteps (options : CompileOptions) {nested : Compiling (List Step)}
    (nestedCounts : Compiling.Counts nested) :
    Compiling.Counts (workspace.blockSteps options id block nested) := by
  intro state
  by_cases loop : block.kind = .loop
  · rcases blockSteps_loop options loop nested state with ⟨noted, count, -, -, run⟩
    rw [run]
    exact emitted_unrolled (nestedCounts (state.noting noted)) _ _ count
  · exact (blockSteps_beside options loop nested state).emitted_eq

/-- After a chain the count has grown by the length of what came of it. -/
theorem counts_chainSteps (workspace : Workspace) (options : CompileOptions) (depth : ℕ)
    (start : Option BlockId) : Compiling.Counts (workspace.chainSteps options depth start) := by
  induction depth generalizing start with
  | zero => exact Compiling.counts_nil
  | succ depth ih =>
    cases start with
    | none => exact Compiling.counts_nil
    | some id =>
      cases found : workspace.block? id with
      | none =>
        simp only [chainSteps, found]
        exact Compiling.counts_nil
      | some block =>
        intro state
        by_cases met : id ∈ state.visited
        · rw [run_chainSteps_again options depth found met]
          rfl
        · rw [run_chainSteps options depth found met]
          exact (counts_blockSteps options (ih block.body)).append (ih block.next)
            (state.meeting id)

/-! ## What comes of a chain -/

/-- Inner loops are reported before the loop around them. -/
theorem filterMap_clamp?_loop (bodyRuns restRuns : List LoopRun) (loop : LoopRun) :
    (bodyRuns ++ loop :: restRuns).filterMap workspace.clamp? =
      bodyRuns.filterMap workspace.clamp? ++ (workspace.clamp? loop).toList ++
        restRuns.filterMap workspace.clamp? := by
  cases reported : workspace.clamp? loop <;> simp [reported]

theorem clamps_unrolled (nested : CompileState) (body : List Step) (count : ℕ) :
    (nested.unrolled id (workspace.timesIn block) body count).clamps =
      nested.clamps ++ (workspace.clamp? ⟨id, block, count⟩).toList := by
  unfold CompileState.clamps CompileState.unrolled clamp?
  by_cases cut : Number.ofNat count < Number.floorPositive (workspace.timesIn block)
  · rw [if_pos cut, if_pos cut, Array.toList_push, List.filter_append]
    rfl
  · rw [if_neg cut, if_neg cut, Option.toList_none, List.append_nil]

theorem Beside.clamps_eq {state after : CompileState} {own : List Step}
    (beside : workspace.Beside block state (own, after)) : after.clamps = state.clamps := by
  cases beside with
  | skipped ordinary => exact CompileState.clamps_noting ordinary state
  | stepped ordinary => exact CompileState.clamps_noting ordinary state

/-- A chain is metered from the count at its beginning on. -/
theorem WellFormed.walk_metered (wellFormed : workspace.WellFormed) {start : Option BlockId}
    {state final : CompileState} {steps : List Step}
    (walk : workspace.Walk options start state steps final)
    (chain : workspace.Open start state.visited) :
    final.emitted = state.emitted + steps.length ∧ ∃ shares runs,
      workspace.Metered options state.emitted start shares runs ∧
      steps.map (·.motion) = Share.total shares ∧
      final.clamps = state.clamps ++ runs.filterMap workspace.clamp? := by
  refine wellFormed.walk_induction (motive := fun start state steps final =>
    final.emitted = state.emitted + steps.length ∧ ∃ shares runs,
      workspace.Metered options state.emitted start shares runs ∧
      steps.map (·.motion) = Share.total shares ∧
      final.clamps = state.clamps ++ runs.filterMap workspace.clamp?)
    (fun state => ⟨rfl, [], [], .ends, rfl, (List.append_nil _).symm⟩) ?beside ?loop walk chain
  case beside =>
    intro id block own rest state after final found beside ih
    rcases ih with ⟨restEmitted, restShares, restRuns, restMetered, restTotal, restClamps⟩
    have ownEmitted : after.emitted = state.emitted + own.length := beside.emitted_eq
    have ownClamps : after.clamps = state.clamps := beside.clamps_eq
    refine ⟨?_, ⟨id, block, own.map (·.motion)⟩ :: restShares, restRuns,
      .block found beside.contributes ?_, ?_, ?_⟩
    · rw [restEmitted, ownEmitted, List.length_append, Nat.add_assoc]
    · rwa [List.length_map, ← ownEmitted]
    · rw [List.map_append, restTotal, Share.total_cons]
    · rw [restClamps, ownClamps]
  case loop =>
    intro id block noted count body rest state nested final found loop ordinary bodyIh greatest
      restIh
    rcases bodyIh with ⟨bodyEmitted, bodyShares, bodyRuns, bodyMetered, bodyTotal, bodyClamps⟩
    rcases restIh with ⟨restEmitted, restShares, restRuns, restMetered, restTotal, restClamps⟩
    have ownEmitted := emitted_unrolled bodyEmitted id (workspace.timesIn block) count
    have bodyLength : body.length = (Share.total bodyShares).length := by
      rw [← bodyTotal, List.length_map]
    have bodyClamped := CompileState.clamps_noting ordinary (state.meeting id)
    have grantedEmitted : (nested.unrolled id (workspace.timesIn block) body count).emitted =
        state.emitted + count * (Share.total bodyShares).length := by
      rw [ownEmitted]
      simp [bodyLength]
    rw [bodyEmitted, Nat.add_sub_cancel, bodyLength] at greatest
    rw [grantedEmitted] at restMetered
    refine ⟨?_, _, _, .loop found loop bodyMetered greatest restMetered, ?_, ?_⟩
    · rw [restEmitted, ownEmitted, List.length_append, Nat.add_assoc]
      rfl
    · rw [List.map_append, motions_copies, restTotal, bodyTotal, Share.total_cons]
    · rw [restClamps, clamps_unrolled, bodyClamps, bodyClamped, filterMap_clamp?_loop]
      simp only [List.append_assoc]
      rfl

/-! ## What the chain is worth -/

/-- The count at its beginning decides what comes of a chain. -/
theorem Metered.unique {emitted : ℕ} {start : Option BlockId} {first second : List Share}
    {firstRuns secondRuns : List LoopRun}
    (metered : workspace.Metered options emitted start first firstRuns)
    (other : workspace.Metered options emitted start second secondRuns) :
    first = second ∧ firstRuns = secondRuns := by
  induction metered generalizing second secondRuns with
  | ends =>
    cases other
    exact ⟨rfl, rfl⟩
  | block found stands _ ih =>
    cases other with
    | block otherFound otherStands otherRest =>
      rcases Option.some.inj (found.symm.trans otherFound) with rfl
      rcases stands.unique otherStands with rfl
      rcases ih otherRest with ⟨rfl, rfl⟩
      exact ⟨rfl, rfl⟩
    | loop otherFound loop =>
      rcases Option.some.inj (found.symm.trans otherFound) with rfl
      exact absurd loop stands.kind_ne_loop
  | loop found loop _ greatest _ bodyIh restIh =>
    cases other with
    | block otherFound otherStands =>
      rcases Option.some.inj (found.symm.trans otherFound) with rfl
      exact absurd loop otherStands.kind_ne_loop
    | loop otherFound _ otherBody otherGreatest otherRest =>
      rcases Option.some.inj (found.symm.trans otherFound) with rfl
      rcases bodyIh otherBody with ⟨rfl, rfl⟩
      rcases greatest.unique otherGreatest with rfl
      rcases restIh otherRest with ⟨rfl, rfl⟩
      exact ⟨rfl, rfl⟩

/-- Whatever is granted to a loop is missing for those behind it, so together they stay
within what was left before the first one. -/
theorem Metered.length_looped_le {emitted : ℕ} {start : Option BlockId} {shares : List Share}
    {runs : List LoopRun} (metered : workspace.Metered options emitted start shares runs) :
    (Share.looped shares).length ≤ options.maxSteps - emitted := by
  induction metered with
  | ends => exact Nat.zero_le _
  | block found stands _ ih =>
    rw [Share.looped_cons_of_ne stands.kind_ne_loop]
    omega
  | loop found loop _ greatest _ _ ih =>
    have granted := greatest.1.together
    rw [Share.looped_cons_of_loop loop, List.length_append]
    simp only [List.length_flatten, List.map_replicate, List.sum_replicate_nat]
    omega

/-- A block beside the loops stands for one step at most, and only a motion block does. -/
theorem Contributes.length_le {own : List Motion} (stands : workspace.Contributes block own) :
    own.length ≤ if block.kind.isMotion then 1 else 0 := by
  cases stands with
  | unnamed | silent => exact Nat.zero_le _
  | pause kind | move kind | rotateExactly kind | rotate kind | scale kind =>
    simp [kind, BlockKind.isMotion]

theorem Metered.length_total_le {emitted : ℕ} {start : Option BlockId} {shares : List Share}
    {runs : List LoopRun} (metered : workspace.Metered options emitted start shares runs) :
    (Share.total shares).length ≤ (Share.looped shares).length + Share.singles shares := by
  induction metered with
  | ends => exact Nat.zero_le _
  | block found stands _ ih =>
    have own := stands.length_le
    rw [Share.total_cons, Share.looped_cons_of_ne stands.kind_ne_loop, Share.singles_cons,
      List.length_append]
    dsimp only
    omega
  | loop found loop _ _ _ _ ih =>
    rw [Share.total_cons, Share.looped_cons_of_loop loop, Share.singles_cons, List.length_append,
      List.length_append]
    omega

/-- Every loop that is run hangs from the beginning of the chain. -/
theorem Metered.reaches_of_mem {emitted : ℕ} {start : Option BlockId} {shares : List Share}
    {runs : List LoopRun} (metered : workspace.Metered options emitted start shares runs)
    (listed : id ∈ runs.map (·.id)) : ∃ head ∈ start, workspace.links.Reaches head id := by
  induction metered with
  | ends => simp at listed
  | @block _ head _ _ _ _ found _ _ ih =>
    rcases ih listed with ⟨next, held, path⟩
    exact ⟨head, rfl, .head ⟨.next, (child_of_block found .next).trans held⟩ path⟩
  | @loop _ _ head _ _ _ _ _ found _ _ _ _ bodyIh restIh =>
    refine ⟨head, rfl, ?_⟩
    simp only [List.map_append, List.map_cons, List.mem_append, List.mem_cons] at listed
    rcases listed with nested | rfl | later
    · rcases bodyIh nested with ⟨body, held, path⟩
      exact .head ⟨.body, (child_of_block found .body).trans held⟩ path
    · exact .refl
    · rcases restIh later with ⟨next, held, path⟩
      exact .head ⟨.next, (child_of_block found .next).trans held⟩ path

/-- No loop is run as part of two others or twice in a chain. -/
theorem Metered.nodup_runs (wellFormed : workspace.WellFormed) {emitted : ℕ}
    {start : Option BlockId} {shares : List Share} {runs : List LoopRun}
    (metered : workspace.Metered options emitted start shares runs) :
    (runs.map (·.id)).Nodup := by
  induction metered with
  | ends => exact List.nodup_nil
  | block _ _ _ ih => exact ih
  | @loop _ _ head _ _ _ bodyRuns restRuns found _ bodyMetered _ restMetered bodyIh restIh =>
    have notHead : ∀ place lower, workspace.links.child head place = some lower →
        ¬ workspace.links.Reaches lower head := fun place lower held =>
      wellFormed.sound.not_reaches_of_holds ⟨place, held⟩
    rw [List.map_append, List.map_cons, List.nodup_append', List.nodup_cons]
    refine ⟨bodyIh, ⟨fun again => ?_, restIh⟩, fun id nested other => ?_⟩
    · rcases restMetered.reaches_of_mem again with ⟨next, held, path⟩
      exact notHead .next next ((child_of_block found .next).trans held) path
    · rcases bodyMetered.reaches_of_mem nested with ⟨body, bodyHeld, bodyPath⟩
      rcases List.mem_cons.mp other with rfl | later
      · exact notHead .body body ((child_of_block found .body).trans bodyHeld) bodyPath
      · rcases restMetered.reaches_of_mem later with ⟨next, nextHeld, nextPath⟩
        exact wellFormed.not_reaches_next found bodyHeld nextHeld bodyPath nextPath

/-- Loops are never run more often than they ask for, and within `2 ^ 53` never more often
than the limit on single loops says. -/
theorem Metered.runs_within {emitted : ℕ} {start : Option BlockId} {shares : List Share}
    {runs : List LoopRun} (metered : workspace.Metered options emitted start shares runs) :
    ∀ run ∈ runs, run.count ≤ workspace.rounds run.block ∧
      (options.maxRepeat ≤ 2 ^ 53 → run.count ≤ options.maxRepeat) := by
  induction metered with
  | ends => simp
  | block _ _ _ ih => exact ih
  | @loop _ _ _ block _ _ _ _ _ _ _ greatest _ bodyIh restIh =>
    intro run listed
    rcases List.mem_append.mp listed with nested | listed
    · exact bodyIh run nested
    · rcases List.mem_cons.mp listed with rfl | later
      · refine ⟨greatest.1.asked, fun exact => ?_⟩
        refine options.le_maxRepeat_of_le_roundLimit (workspace.isFinite_timesIn block) exact ?_
          greatest.1.each
        rw [wholePart_timesIn]
        exact greatest.1.asked
      · exact restIh run later

/-- Within `2 ^ 53`, exactly the loops that are run less often than they ask for are
reported. -/
theorem isSome_clamp?_iff {run : LoopRun} (exact : run.count ≤ 2 ^ 53) :
    (workspace.clamp? run).isSome ↔ run.count < workspace.rounds run.block := by
  have compared := Number.ofNat_lt_floorPositive_iff (workspace.isFinite_timesIn run.block) exact
  rw [wholePart_timesIn] at compared
  unfold clamp?
  by_cases cut : Number.ofNat run.count < Number.floorPositive (workspace.timesIn run.block)
  · rw [if_pos cut]
    simpa using compared.mp cut
  · rw [if_neg cut]
    simpa using fun less => cut (compared.mpr less)

/-- Every chain raises the count of steps by the length of what comes of it.  The chain
behind the first start block is metered from zero on, which settles how often each of its
loops is run: those that are seen to be run less often than they ask for are reported, in
order, and no others.  The steps that come from loops stay within the limit, and every
other step has a block of its own beside the loops. -/
theorem compile_within_budget (commands : List Command) (options : CompileOptions)
    (ids : StepIds) :
    (∀ depth start state,
      let outcome := StateT.run
        ((empty.after commands).chainSteps options depth start) state
      outcome.2.emitted = state.emitted + outcome.1.length ∧
        outcome.1.length ≤ outcome.2.emitted) ∧
    (∀ id block, (empty.after commands).FirstStart id block →
      let compiled := ((empty.after commands).compile options ids).1
      ∃ shares runs,
        (∀ others otherRuns,
          (empty.after commands).Metered options 0 block.next others otherRuns ↔
            others = shares ∧ otherRuns = runs) ∧
        compiled.program.motions = Share.total shares ∧
        compiled.warnings.toList.filter CompileWarning.isClamp =
          runs.filterMap (empty.after commands).clamp? ∧
        (runs.map (·.id)).Nodup ∧
        (∀ run ∈ runs, run.count ≤ (empty.after commands).rounds run.block) ∧
        (options.maxRepeat ≤ 2 ^ 53 → ∀ run ∈ runs, run.count ≤ options.maxRepeat ∧
          (((empty.after commands).clamp? run).isSome ↔
            run.count < (empty.after commands).rounds run.block)) ∧
        (Share.looped shares).length ≤ options.maxSteps ∧
        compiled.program.motions.length ≤ options.maxSteps + Share.singles shares) ∧
    ((∀ id block, (empty.after commands).block? id = some block → block.isTop = true →
      block.kind ≠ .start) →
        ((empty.after commands).compile options ids).1.program.motions = []) := by
  have wellFormed := wellFormed_after commands
  generalize empty.after commands = workspace at *
  rcases workspace.compile_eq options ids with ⟨program, warnings, -⟩
  refine ⟨fun depth start state => ?_, fun id block first => ?_, fun noStart => ?_⟩
  · have counted := counts_chainSteps workspace options depth start state
    exact ⟨counted, by omega⟩
  · rcases first.walk options ids with ⟨noted, ordinary, walk⟩
    rcases wellFormed.walk_metered walk (wellFormed.open_of_found first.found) with
      ⟨-, shares, runs, metered, total, clamps⟩
    have unclamped : (((CompileState.initial ids).noting noted).meeting id).clamps = [] :=
      CompileState.clamps_noting ordinary (.initial ids)
    rw [unclamped, List.nil_append] at clamps
    have within := metered.length_looped_le
    have whole := metered.length_total_le
    have limits := metered.runs_within
    dsimp only
    rw [program, warnings, total]
    refine ⟨shares, runs, fun others otherRuns => ⟨fun other => other.unique metered, ?_⟩, rfl,
      clamps, metered.nodup_runs wellFormed, fun run listed => (limits run listed).1,
      fun exact run listed => ?_, within, ?_⟩
    · rintro ⟨rfl, rfl⟩
      exact metered
    · have most := (limits run listed).2 exact
      exact ⟨most, isSome_clamp?_iff (most.trans exact)⟩
    · exact whole.trans (Nat.add_le_add_right within _)
  · rw [program, run_steps_of_starts_eq_nil (starts_eq_nil noStart) options ids]
    rfl

end

/-- A start block with a pause behind two loops, one in the other, that ask for two rounds
each. -/
def pausingFourTimes : List Command :=
  [.create .start, .create .loop, .create .loop, .create .pause, .create .pause,
    .create .numberLiteral, .create .numberLiteral,
    .setField (.numbered 5) FieldName.number (.number 2.0),
    .setField (.numbered 6) FieldName.number (.number 2.0),
    .connectValue (.numbered 1) SlotName.times (.numbered 5),
    .connectValue (.numbered 2) SlotName.times (.numbered 6),
    .connectBody (.numbered 1) (.numbered 2), .connectBody (.numbered 2) (.numbered 3),
    .connectNext (.numbered 1) (.numbered 4), .connectNext (.numbered 0) (.numbered 1)]

/-- Of four steps that two loops ask for a limit of three leaves two, since a round of the
outer loop is not divided. -/
theorem compile_within_budget_pausingFourTimes : ∃ id block shares runs,
    (empty.after pausingFourTimes).FirstStart id block ∧
      (empty.after pausingFourTimes).Metered { maxSteps := 3 } 0 block.next shares runs ∧
      (Share.total shares).length = 3 ∧
      (runs.filterMap (empty.after pausingFourTimes).clamp?).length = 1 := by
  have budget := compile_within_budget pausingFourTimes { maxSteps := 3 } .counting
  have length : ((empty.after pausingFourTimes).compile { maxSteps := 3 }
      .counting).1.program.motions.length = 3 := by
    decide +kernel
  have reported : (((empty.after pausingFourTimes).compile { maxSteps := 3 }
      .counting).1.warnings.toList.filter CompileWarning.isClamp).length = 1 := by
    decide +kernel
  have started : (empty.after pausingFourTimes).starts.isEmpty = false := by decide +kernel
  cases starts : (empty.after pausingFourTimes).starts with
  | nil => simp [starts] at started
  | cons head others =>
    have first := firstStart_of_starts starts
    rcases budget.2.1 _ _ first with ⟨shares, runs, metered, program, clamps, -⟩
    rw [program] at length
    rw [clamps] at reported
    exact ⟨head.1, head.2, shares, runs, first, (metered shares runs).mpr ⟨rfl, rfl⟩, length,
      reported⟩

end Workspace
end MotionBlocks
