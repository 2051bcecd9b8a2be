import MotionBlocks.Proofs.Unrolling.Correctness

namespace MotionBlocks

/-!
# A compilation sees one tree

Everything that a compilation looks at hangs from the first start block.  Two
workspaces may have come about in any way, number their blocks differently and hold
any other blocks besides: if the trees under their first start blocks are the same
under a renaming of blocks, then so are the compilations, warning by warning.

Four things reach beyond the tree.  How many start blocks there are is reported, and
that warning alone is left out here.  The depth to which links are followed is the
number of all blocks, which does not matter because it is never reached.  The blocks
met are remembered across chains, but as long as links are sound none of them is met
again, in either workspace.  And the steps emitted so far limit every loop, but only
those of the same tree are counted.

The renaming need not keep blocks apart.  What it may not do is lead to another kind
of block, to other fields or to other links.
-/

/-! ## The same tree -/

deriving instance DecidableEq for FieldValue

namespace Block

/-- A block is another one whose links have been renamed.  Positions and links
upwards are left open. -/
structure Renamed (rename : BlockId → BlockId) (block other : Block) : Prop where
  kind : other.kind = block.kind
  field : ∀ name, other.fields.get? name = block.fields.get? name
  child : ∀ place, other.child? place = (block.child? place).map rename

/-- The same is written in both blocks, except that the names of blocks are new. -/
def Copied (rename : BlockId → BlockId) (block other : Block) : Prop :=
  other.kind = block.kind ∧ other.fields.entries = block.fields.entries ∧
    other.slots.entries = block.slots.entries.map (Prod.map id rename) ∧
    other.body = block.body.map rename ∧ other.next = block.next.map rename
deriving Decidable

theorem Copied.renamed {rename : BlockId → BlockId} {block other : Block}
    (copied : block.Copied rename other) : block.Renamed rename other := by
  rcases copied with ⟨kind, fields, slots, body, next⟩
  refine ⟨kind, fun name => ?_, fun place => ?_⟩
  · rw [Table.get?, fields, Table.get?]
  · cases place with
    | next => exact next
    | body => exact body
    | slot name =>
      rw [child?, child?, Table.get?, slots, Table.get?]
      induction block.slots.entries with
      | nil => rfl
      | cons entry rest ih =>
        rw [List.map_cons, List.lookup_cons, List.lookup_cons, ih]
        simp only [Prod.map_fst, id_eq]
        cases name == entry.1 <;> rfl

/-- Every link from a block leads to one of its children. -/
theorem mem_children_of_child {block : Block} {place : Place} {child : BlockId}
    (held : block.child? place = some child) : child ∈ block.children := by
  unfold children owned
  cases place with
  | next => simp [show block.next = some child from held]
  | body => simp [show block.body = some child from held]
  | slot name =>
    rcases List.lookup_eq_some_iff.mp held with ⟨before, after, entries, _⟩
    simp [Table.values, entries]

end Block

namespace Workspace

/-- Whatever hangs from a block by any number of links is there in another workspace
under its new name. -/
def SameTree (rename : BlockId → BlockId) (first second : Workspace) (root : BlockId) : Prop :=
  ∀ id, first.links.Reaches root id → ∃ block other,
    first.block? id = some block ∧ second.block? (rename id) = some other ∧
      block.Renamed rename other

theorem SameTree.below {rename : BlockId → BlockId} {first second : Workspace}
    {root lower : BlockId} (same : SameTree rename first second root)
    (held : first.links.Holds root lower) : SameTree rename first second lower :=
  fun id path => same id (path.head held)

end Workspace

namespace Workspace

/-- Links lead out of no set of blocks that is closed under them, so it can be checked
block by block whether two trees are the same. -/
theorem SameTree.of_closed {rename : BlockId → BlockId} {first second : Workspace}
    {root : BlockId} {members : List BlockId} (rooted : root ∈ members)
    (held : ∀ id ∈ members, (first.block? id).isSome ∧ (second.block? (rename id)).isSome)
    (copied : ∀ id ∈ members, ∀ block ∈ first.block? id, ∀ other ∈ second.block? (rename id),
      block.Copied rename other)
    (closed : ∀ id ∈ members, ∀ block ∈ first.block? id, ∀ child ∈ block.children,
      child ∈ members) : SameTree rename first second root := by
  have inside : ∀ id, first.links.Reaches root id → id ∈ members := by
    intro id path
    induction path with
    | refl => exact rooted
    | tail _ link ih =>
      rcases link with ⟨place, link⟩
      rcases child_eq_some_iff.mp link with ⟨block, found, child⟩
      exact closed _ ih block found _ (Block.mem_children_of_child child)
  intro id path
  rcases Option.isSome_iff_exists.mp (held id (inside id path)).1 with ⟨block, found⟩
  rcases Option.isSome_iff_exists.mp (held id (inside id path)).2 with ⟨other, otherFound⟩
  exact ⟨block, other, found, otherFound,
    (copied id (inside id path) block found other otherFound).renamed⟩

end Workspace

/-! ## Alike compilations -/

namespace CompileWarning

/-- The same warning about another block. -/
def renamed (rename : BlockId → BlockId) : CompileWarning → CompileWarning
  | .malformedValue block slot reason default => .malformedValue (rename block) slot reason default
  | .unknownKind block name => .unknownKind (rename block) name
  | .unexpectedStart block => .unexpectedStart (rename block)
  | .unexpectedBlock block kind => .unexpectedBlock (rename block) kind
  | .invalidField block field => .invalidField (rename block) field
  | .repeatClamped block requested limit => .repeatClamped (rename block) requested limit
  | .multipleStarts count used => .multipleStarts count (rename used)
  | .cycleDetected block => .cycleDetected (rename block)

/-- The warning is about a block of the tree and not about the choice of the tree. -/
def isLocal : CompileWarning → Bool
  | .multipleStarts .. => false
  | _ => true

end CompileWarning

/-- As many steps have been emitted, and the same has been noticed under the new
names. -/
structure CompileState.Alike (rename : BlockId → BlockId) (state other : CompileState) : Prop where
  emitted : other.emitted = state.emitted
  warnings : other.warnings.filter (·.isLocal) =
    (state.warnings.filter (·.isLocal)).map (·.renamed rename)

namespace Compiling

variable {α β : Type} {rename : BlockId → BlockId}

/-- From two states, two parts of a compilation give what is to count as the same, and lead
to alike states. -/
def AlikeFrom (rename : BlockId → BlockId) (same : α → α → Prop) (state otherState : CompileState)
    (part other : Compiling α) : Prop :=
  same (StateT.run part state).1 (StateT.run other otherState).1 ∧
    CompileState.Alike rename (StateT.run part state).2 (StateT.run other otherState).2

/-- Two parts of a compilation do so from any states that are alike. -/
def Alike (rename : BlockId → BlockId) (same : α → α → Prop) (part other : Compiling α) : Prop :=
  ∀ state otherState, CompileState.Alike rename state otherState →
    AlikeFrom rename same state otherState part other

theorem alike_pure {same : α → α → Prop} {value other : α} (holds : same value other) :
    Alike rename same (pure value) (pure other) :=
  fun _ _ alike => ⟨holds, alike⟩

/-- Where both parts give the same value, whatever is done next is done with it. -/
theorem Alike.bind {same : β → β → Prop} {part other : Compiling α}
    {next otherNext : α → Compiling β} (parts : Alike rename Eq part other)
    (nexts : ∀ value, Alike rename same (next value) (otherNext value)) :
    Alike rename same (part >>= next) (other >>= otherNext) := by
  intro state otherState alike
  rcases parts state otherState alike with ⟨value, after⟩
  rw [AlikeFrom, run_bind, run_bind, ← value]
  exact nexts _ _ _ after

theorem alike_recount (change : ℕ → ℕ) : Alike rename Eq (recount change) (recount change) :=
  fun _ _ alike => ⟨rfl, congrArg change alike.emitted, alike.warnings⟩

/-- A part that reads the state gives the same if it reads the emitted steps only. -/
theorem alike_get {same : α → α → Prop} {next other : CompileState → Compiling α}
    (nexts : ∀ state otherState, otherState.emitted = state.emitted →
      Alike rename same (next state) (other otherState)) :
    Alike rename same (get >>= next) (get >>= other) :=
  fun state otherState alike => nexts state otherState alike.emitted state otherState alike

theorem alike_warn {warning : CompileWarning} (isLocal : warning.isLocal = true) :
    Alike rename Eq (warn warning) (warn (warning.renamed rename)) := by
  intro state otherState alike
  have renamedLocal : (warning.renamed rename).isLocal = true := by
    cases warning <;> first | rfl | cases isLocal
  refine ⟨rfl, alike.emitted, ?_⟩
  show (otherState.warnings.push _).filter _ = ((state.warnings.push warning).filter _).map _
  simp [isLocal, renamedLocal, alike.warnings]

end Compiling

/-- The steps do the same, whatever identifiers they have. -/
def SameMotions (steps other : List Step) : Prop :=
  other.map (·.motion) = steps.map (·.motion)

theorem SameMotions.append {steps other rest otherRest : List Step}
    (same : SameMotions steps other) (restSame : SameMotions rest otherRest) :
    SameMotions (steps ++ rest) (other ++ otherRest) := by
  rw [SameMotions, List.map_append, List.map_append, same, restSame]

theorem SameMotions.length_eq {steps other : List Step} (same : SameMotions steps other) :
    other.length = steps.length := by
  simpa using congrArg List.length same

namespace Workspace

section

variable {rename : BlockId → BlockId} {first second : Workspace} {id : BlockId}
  {block other : Block}

/-! ## Single blocks -/

/-- A literal in a slot is part of the tree. -/
theorem SameTree.slotValue_eq (same : SameTree rename first second id)
    (found : first.block? id = some block) (renamed : block.Renamed rename other) (slot : String)
    (default : Float) :
    second.slotValue other slot default = first.slotValue block slot default := by
  have plugged : other.slots.get? slot = (block.slots.get? slot).map rename :=
    renamed.child (.slot slot)
  have number : second.slotNumber other slot = first.slotNumber block slot := by
    unfold slotNumber
    rw [plugged]
    cases held : block.slots.get? slot with
    | none => rfl
    | some child =>
      have holds : first.links.Holds id child :=
        ⟨.slot slot, (child_of_block found (.slot slot)).trans held⟩
      rcases same child (.single holds) with ⟨lower, otherLower, there, otherThere, lowerRenamed⟩
      simp only [Option.map_some, Option.bind_some, there, otherThere, lowerRenamed.kind,
        lowerRenamed.field]
  unfold slotValue
  rw [number]

theorem SameTree.alike_parameter (same : SameTree rename first second id)
    (found : first.block? id = some block) (renamed : block.Renamed rename other) (slot : String)
    (default : Float) :
    Compiling.Alike rename Eq (first.parameter id block slot default)
      (second.parameter (rename id) other slot default) := by
  unfold parameter
  rw [same.slotValue_eq found renamed]
  dsimp only
  cases (first.slotValue block slot default).fallback with
  | none => exact Compiling.alike_pure rfl
  | some reason => exact (Compiling.alike_warn rfl).bind fun _ => Compiling.alike_pure rfl

/-- Reading a parameter meets no block. -/
theorem visited_parameter (slot : String) (default : Float) (state : CompileState) :
    (StateT.run (first.parameter id block slot default) state).2.visited = state.visited := by
  have plain : Compiling.Plain (first.parameter id block slot default) := plain_parameter _ _
  rcases plain state with ⟨noted, -, after⟩
  rw [after, CompileState.visited_noting]

theorem alike_chosenKind (renamed : block.Renamed rename other) (field : String)
    (family : StepFamily) :
    Compiling.Alike rename Eq (chosenKind id block field family)
      (chosenKind (rename id) other field family) := by
  have chosen : chosenKind? other field family = chosenKind? block field family := by
    rw [chosenKind?, renamed.field, chosenKind?]
  unfold chosenKind
  rw [chosen]
  cases chosenKind? block field family with
  | some kind => exact Compiling.alike_pure rfl
  | none => exact (Compiling.alike_warn rfl).bind fun _ => Compiling.alike_pure rfl

theorem SameTree.alike_motion (same : SameTree rename first second id)
    (found : first.block? id = some block) (renamed : block.Renamed rename other) :
    Compiling.Alike rename Eq (first.motion id block) (second.motion (rename id) other) := by
  have number := same.alike_parameter found renamed
  have radians : rotationRadians other = rotationRadians block := by
    funext degrees
    rw [rotationRadians, renamed.field, rotationRadians]
  unfold motion
  rw [renamed.kind]
  cases block.kind with
  | move =>
    refine (alike_chosenKind renamed _ _).bind fun chosen => ?_
    cases chosen with
    | none => exact Compiling.alike_pure rfl
    | some kind =>
      exact (number _ _).bind fun _ => (number _ _).bind fun _ => Compiling.alike_pure rfl
  | rotate =>
    rw [radians]
    refine (alike_chosenKind renamed _ _).bind fun chosen => ?_
    cases chosen with
    | none => exact Compiling.alike_pure rfl
    | some kind =>
      exact (number _ _).bind fun _ => (number _ _).bind fun _ => Compiling.alike_pure rfl
  | scale =>
    refine (alike_chosenKind renamed _ _).bind fun chosen => ?_
    cases chosen with
    | none => exact Compiling.alike_pure rfl
    | some kind =>
      exact (number _ _).bind fun _ => (number _ _).bind fun _ => Compiling.alike_pure rfl
  | pause => exact (number _ _).bind fun _ => Compiling.alike_pure rfl
  | _ => exact Compiling.alike_pure rfl

/-! ## Chains -/

theorem alike_copies (count : ℕ) {body otherBody : List Step} (same : SameMotions body otherBody) :
    Compiling.Alike rename SameMotions (copies count body) (copies count otherBody) := by
  intro state otherState alike
  rw [Compiling.AlikeFrom, copies_run, copies_run]
  refine ⟨?_, ?_, alike.warnings⟩
  · rw [SameMotions, motions_copies, motions_copies, same]
  · simp only [same.length_eq, alike.emitted]

theorem alike_unroll (options : CompileOptions) (times : Float) {body otherBody : List Step}
    (same : SameMotions body otherBody) :
    Compiling.Alike rename SameMotions (unroll options id times body)
      (unroll options (rename id) times otherBody) := by
  have length := same.length_eq
  have none : otherBody.isEmpty = body.isEmpty := by
    rw [Bool.eq_iff_iff, List.isEmpty_iff_length_eq_zero, List.isEmpty_iff_length_eq_zero, length]
  unfold unroll
  rw [length, none]
  refine (Compiling.alike_recount _).bind fun _ => ?_
  refine Compiling.alike_get fun state otherState emitted => ?_
  rw [emitted]
  dsimp only
  generalize (if body.isEmpty = true then _ else _ : ℕ) = count
  have repeated : Compiling.Alike rename SameMotions (copies count body)
      (copies count otherBody) := alike_copies count same
  unfold copies at repeated
  rw [length, none] at repeated
  split
  · exact (Compiling.alike_warn rfl).bind fun _ => repeated
  · exact repeated

/-- Blocks beside the loops compile alike. -/
theorem SameTree.alike_beside (same : SameTree rename first second id)
    (found : first.block? id = some block) (renamed : block.Renamed rename other)
    (options : CompileOptions) (beside : block.kind ≠ .loop)
    (nested otherNested : Compiling (List Step)) :
    Compiling.Alike rename SameMotions (first.blockSteps options id block nested)
      (second.blockSteps options (rename id) other otherNested) := by
  unfold blockSteps
  rw [renamed.kind]
  cases kind : block.kind with
  | loop => exact absurd kind beside
  | start | numberLiteral | custom =>
    exact (Compiling.alike_warn rfl).bind fun _ => Compiling.alike_pure rfl
  | move | rotate | scale | pause =>
    refine (same.alike_motion found renamed).bind fun motion => ?_
    cases motion with
    | none => exact Compiling.alike_pure rfl
    | some motion =>
      intro state otherState alike
      exact ⟨rfl, congrArg (· + 1) alike.emitted, alike.warnings⟩

/-- A block compiles like its copy if its nested chain does, in the states that the block
leads to. -/
theorem SameTree.alike_blockSteps (same : SameTree rename first second id)
    (found : first.block? id = some block) (renamed : block.Renamed rename other)
    (options : CompileOptions) {nested otherNested : Compiling (List Step)}
    {state otherState : CompileState} (alike : CompileState.Alike rename state otherState)
    (nests : ∀ entered otherEntered, entered.visited = state.visited →
      otherEntered.visited = otherState.visited → CompileState.Alike rename entered otherEntered →
        Compiling.AlikeFrom rename SameMotions entered otherEntered nested otherNested) :
    Compiling.AlikeFrom rename SameMotions state otherState
      (first.blockSteps options id block nested)
      (second.blockSteps options (rename id) other otherNested) := by
  by_cases loop : block.kind = .loop
  · have numbers := same.alike_parameter found renamed SlotName.times Defaults.times
      state otherState alike
    have bodies := nests _ _ (visited_parameter _ _ state) (visited_parameter _ _ otherState)
      numbers.2
    rw [blockSteps_of_loop options loop, blockSteps_of_loop options (renamed.kind.trans loop),
      Compiling.AlikeFrom, Compiling.run_bind, Compiling.run_bind, Compiling.run_bind,
      Compiling.run_bind, ← numbers.1]
    exact alike_unroll options _ bodies.1 _ _ bodies.2
  · exact same.alike_beside found renamed options loop nested otherNested state otherState alike

/-! ## What is ahead of a chain -/

/-- Nothing ahead of a chain has been met, and the depth is enough to get to its end. -/
structure Ahead (workspace : Workspace) (depth : ℕ) (start : Option BlockId)
    (visited : List BlockId) : Prop where
  chain : workspace.Open start visited
  enough : (workspace.unmet visited).length < depth

theorem not_ahead_zero {start : Option BlockId} {visited : List BlockId} :
    ¬ first.Ahead 0 start visited :=
  fun ahead => Nat.not_lt_zero _ ahead.enough

theorem Ahead.fewer {depth : ℕ} {visited : List BlockId}
    (ahead : first.Ahead (depth + 1) (some id) visited) (found : first.block? id = some block) :
    (first.unmet (id :: visited)).length < depth :=
  Nat.lt_of_lt_of_le (length_unmet_cons_lt found ahead.chain.not_mem)
    (Nat.le_of_lt_succ ahead.enough)

theorem WellFormed.ahead_body (wellFormed : first.WellFormed) {depth : ℕ} {visited : List BlockId}
    (ahead : first.Ahead (depth + 1) (some id) visited) (found : first.block? id = some block) :
    first.Ahead depth block.body (id :: visited) :=
  ⟨wellFormed.open_child ahead.chain found .body, ahead.fewer found⟩

/-- What has been met after a block was met before it or in its nested chain. -/
theorem visited_blockSteps (options : CompileOptions) {depth : ℕ} {state after : CompileState}
    {own : List Step} (enough : (first.unmet state.visited).length < depth)
    (run : StateT.run (first.blockSteps options id block
      (first.chainSteps options depth block.body)) state = (own, after)) :
    state.visited ⊆ after.visited ∧ ∀ other ∈ after.visited, other ∈ state.visited ∨
      ∃ body ∈ block.body, first.links.Reaches body other := by
  by_cases loop : block.kind = .loop
  · rcases blockSteps_loop options loop (first.chainSteps options depth block.body) state with
      ⟨noted, count, -, -, unrolled⟩
    have walk := first.walk_chainSteps options depth block.body (state.noting noted) enough
    rcases Prod.mk.inj (run.symm.trans unrolled) with ⟨-, rfl⟩
    exact ⟨walk.visited_subset, walk.mem_visited⟩
  · have beside : first.Beside block state (own, after) :=
      run ▸ blockSteps_beside options loop _ state
    have same := beside.visited_eq
    rw [same]
    exact ⟨List.Subset.refl _, fun _ => Or.inl⟩

/-- What a block and its nested chain meet is not ahead of the chain that follows. -/
theorem WellFormed.ahead_next (wellFormed : first.WellFormed) {options : CompileOptions}
    {depth : ℕ} {state after : CompileState} {own : List Step}
    (ahead : first.Ahead (depth + 1) (some id) state.visited)
    (found : first.block? id = some block)
    (run : StateT.run (first.blockSteps options id block
      (first.chainSteps options depth block.body)) (state.meeting id) = (own, after)) :
    first.Ahead depth block.next after.visited := by
  have fewer := ahead.fewer found
  rcases visited_blockSteps options fewer run with ⟨grown, met⟩
  exact ⟨wellFormed.open_next ahead.chain found met, (length_unmet_mono grown).trans_lt fewer⟩

/-- The same chains compile alike, to whatever depths, if both are open and neither depth is
reached. -/
theorem alike_chainSteps (wellFormed : first.WellFormed) (otherWellFormed : second.WellFormed)
    (options : CompileOptions) (depth otherDepth : ℕ) (start : Option BlockId)
    (same : ∀ id ∈ start, SameTree rename first second id) (state otherState : CompileState)
    (alike : CompileState.Alike rename state otherState)
    (ahead : first.Ahead depth start state.visited)
    (otherAhead : second.Ahead otherDepth (start.map rename) otherState.visited) :
    Compiling.AlikeFrom rename SameMotions state otherState
      (first.chainSteps options depth start)
      (second.chainSteps options otherDepth (start.map rename)) := by
  induction depth generalizing otherDepth start state otherState with
  | zero => exact absurd ahead not_ahead_zero
  | succ depth ih =>
    cases otherDepth with
    | zero => exact absurd otherAhead not_ahead_zero
    | succ otherDepth =>
      cases start with
      | none => exact ⟨rfl, alike⟩
      | some id =>
        rcases same id rfl id .refl with ⟨block, other, found, otherFound, renamed⟩
        have below : ∀ place, ∀ lower ∈ block.child? place, SameTree rename first second lower :=
          fun place lower held =>
            (same id rfl).below ⟨place, (child_of_block found place).trans held⟩
        have body : other.body = block.body.map rename := renamed.child .body
        have next : other.next = block.next.map rename := renamed.child .next
        have bodyAhead := wellFormed.ahead_body ahead found
        have otherBodyAhead := otherWellFormed.ahead_body otherAhead otherFound
        have entries : CompileState.Alike rename (state.meeting id)
            (otherState.meeting (rename id)) := ⟨alike.emitted, alike.warnings⟩
        have nests : ∀ entered otherEntered, entered.visited = (state.meeting id).visited →
            otherEntered.visited = (otherState.meeting (rename id)).visited →
            CompileState.Alike rename entered otherEntered →
              Compiling.AlikeFrom rename SameMotions entered otherEntered
                (first.chainSteps options depth block.body)
                (second.chainSteps options otherDepth other.body) := by
          intro entered otherEntered seen otherSeen bodyAlike
          rw [body] at otherBodyAhead ⊢
          exact ih otherDepth block.body (below .body) entered otherEntered bodyAlike
            (seen ▸ bodyAhead) (otherSeen ▸ otherBodyAhead)
        have blocks := (same id rfl).alike_blockSteps found renamed options entries nests
        rw [Option.map_some, Compiling.AlikeFrom,
          run_chainSteps options depth found ahead.chain.not_mem,
          run_chainSteps options otherDepth otherFound otherAhead.chain.not_mem]
        rcases run : StateT.run (first.blockSteps options id block
          (first.chainSteps options depth block.body)) (state.meeting id) with ⟨own, after⟩
        rcases otherRun : StateT.run (second.blockSteps options (rename id) other
          (second.chainSteps options otherDepth other.body)) (otherState.meeting (rename id))
          with ⟨otherOwn, otherAfter⟩
        rw [Compiling.AlikeFrom, run, otherRun] at blocks
        have nextAhead := wellFormed.ahead_next ahead found run
        have otherNextAhead := otherWellFormed.ahead_next otherAhead otherFound otherRun
        rw [next] at otherNextAhead
        have rest := ih otherDepth block.next (below .next) after otherAfter blocks.2 nextAhead
          otherNextAhead
        rw [Compiling.run_bind, Compiling.run_bind, Compiling.run_bind, run, Compiling.run_bind,
          otherRun, next]
        exact ⟨blocks.1.append rest.1, rest.2⟩

/-! ## Programs -/

/-- Choosing a start block may be worth a warning, but not one of the tree. -/
theorem FirstStart.run_steps_local {id : BlockId} {block : Block}
    (start : first.FirstStart id block) (options : CompileOptions) (ids : StepIds) :
    ∃ entered : CompileState, entered.emitted = 0 ∧ entered.warnings.filter (·.isLocal) = #[] ∧
      entered.visited = [id] ∧ StateT.run (first.steps options) (.initial ids) =
        StateT.run (first.chainSteps options first.size block.next) entered := by
  rcases start.run_steps options ids with ⟨noted, chosen, run⟩
  refine ⟨_, rfl, ?_, rfl, run⟩
  rcases chosen with rfl | ⟨count, rfl⟩
  · rfl
  · rfl

/-- Structural identifiers say no more than what the steps do. -/
theorem structuralSteps_congr {steps other : List Step} (same : SameMotions steps other) :
    structuralSteps other = structuralSteps steps := by
  have ofMotions : ∀ steps : List Step, structuralSteps steps =
      (steps.map (·.motion)).zipIdx.map fun entry =>
        ⟨entry.2.repr ++ ":" ++ entry.1.kind.name, entry.1⟩ := by
    intro steps
    rw [structuralSteps, List.zipIdx_map, List.map_map]
    rfl
  rw [ofMotions, ofMotions, same]

theorem compile_structural (workspace : Workspace) {options : CompileOptions}
    (structural : options.idPolicy = .structural) (ids : StepIds) :
    (workspace.compile options ids).1.program =
      ⟨structuralSteps (StateT.run (workspace.steps options) (.initial ids)).1⟩ := by
  unfold compile
  generalize StateT.run (workspace.steps options) (.initial ids) = outcome
  rcases outcome with ⟨steps, state⟩
  simp only [structural]

/-- The compilations of the same tree are alike from its start block on. -/
theorem SameTree.alike_steps {id : BlockId} {block other : Block}
    (same : SameTree rename first second id)
    (wellFormed : first.WellFormed) (otherWellFormed : second.WellFormed)
    (chosen : first.FirstStart id block) (otherChosen : second.FirstStart (rename id) other)
    (options : CompileOptions) (ids otherIds : StepIds) :
    Compiling.AlikeFrom rename SameMotions (.initial ids) (.initial otherIds)
      (first.steps options) (second.steps options) := by
  rcases chosen.run_steps_local options ids with ⟨entered, emitted, silent, met, run⟩
  rcases otherChosen.run_steps_local options otherIds with
    ⟨otherEntered, otherEmitted, otherSilent, otherMet, otherRun⟩
  have entries : CompileState.Alike rename entered otherEntered :=
    ⟨otherEmitted.trans emitted.symm, by simp [silent, otherSilent]⟩
  rcases same id .refl with ⟨start, otherStart, found, otherFound, renamed⟩
  rcases Option.some.inj (found.symm.trans chosen.found) with rfl
  rcases Option.some.inj (otherFound.symm.trans otherChosen.found) with rfl
  have following : otherStart.next = start.next.map rename := renamed.child .next
  have ahead : first.Ahead first.size start.next [id] :=
    ⟨wellFormed.open_of_found found, length_unmet_singleton_lt found⟩
  have otherAhead : second.Ahead second.size otherStart.next [rename id] :=
    ⟨otherWellFormed.open_of_found otherFound, length_unmet_singleton_lt otherFound⟩
  rw [following] at otherAhead
  rw [Compiling.AlikeFrom, run, otherRun, following]
  exact alike_chainSteps wellFormed otherWellFormed options first.size second.size start.next
    (fun next held => same.below ⟨.next, (child_of_block found .next).trans held⟩) entered
    otherEntered entries (met ▸ ahead) (otherMet ▸ otherAhead)

/-- Two workspaces whose first start blocks head the same tree, up to a renaming of
blocks, have programs of the same steps, and of the same identifiers where these are
structural.  The same is noticed in both under the new names and in the same order,
except for how many start blocks there are. -/
theorem compile_of_sameTree (commands otherCommands : List Command) (options : CompileOptions)
    (ids otherIds : StepIds) (rename : BlockId → BlockId) {root : BlockId}
    {start otherStart : Block} (chosen : (empty.after commands).FirstStart root start)
    (otherChosen : (empty.after otherCommands).FirstStart (rename root) otherStart)
    (same : SameTree rename (empty.after commands) (empty.after otherCommands) root) :
    ((empty.after otherCommands).compile options otherIds).1.program.motions =
        ((empty.after commands).compile options ids).1.program.motions ∧
      (options.idPolicy = .structural →
        ((empty.after otherCommands).compile options otherIds).1.program =
          ((empty.after commands).compile options ids).1.program) ∧
      ((empty.after otherCommands).compile options otherIds).1.warnings.filter (·.isLocal) =
        (((empty.after commands).compile options ids).1.warnings.filter (·.isLocal)).map
          (·.renamed rename) := by
  have wellFormed := wellFormed_after commands
  have otherWellFormed := wellFormed_after otherCommands
  generalize empty.after commands = first at *
  generalize empty.after otherCommands = second at *
  rcases same.alike_steps wellFormed otherWellFormed chosen otherChosen options ids otherIds with
    ⟨motions, states⟩
  refine ⟨?_, fun structural => ?_, ?_⟩
  · rw [(second.compile_eq options otherIds).1, (first.compile_eq options ids).1, motions]
  · rw [second.compile_structural structural, first.compile_structural structural,
      structuralSteps_congr motions]
  · rw [(second.compile_eq options otherIds).2.1, (first.compile_eq options ids).2.1,
      states.warnings]

end

/-- A start block with a pause whose duration is a literal without a number. -/
def pausingUnclearly : List Command :=
  [.create .start, .create .pause, .create .numberLiteral,
    .connectValue (.numbered 1) SlotName.duration (.numbered 2),
    .connectNext (.numbered 0) (.numbered 1)]

/-- The same built from below, next to a second start block. -/
def pausingUnclearlyToo : List Command :=
  [.create .numberLiteral, .create .pause, .create .start, .create .start,
    .connectNext (.numbered 2) (.numbered 1),
    .connectValue (.numbered 1) SlotName.duration (.numbered 0)]

/-- The literal and the start block have changed places. -/
def exchanged : BlockId → BlockId
  | .numbered 0 => .numbered 2
  | .numbered 2 => .numbered 0
  | id => id

/-- Both workspaces have a pause and complain about its duration, and only the second
one about its start blocks. -/
theorem compile_of_sameTree_pausingUnclearly :
    ((empty.after pausingUnclearlyToo).compile {} .counting).1.program.motions =
        ((empty.after pausingUnclearly).compile {} .counting).1.program.motions ∧
      ((empty.after pausingUnclearlyToo).compile {} .counting).1.warnings.filter (·.isLocal) =
        (((empty.after pausingUnclearly).compile {} .counting).1.warnings.filter (·.isLocal)).map
          (·.renamed exchanged) ∧
      ((empty.after pausingUnclearlyToo).compile {} .counting).1.program.motions.length = 1 ∧
      ((empty.after pausingUnclearlyToo).compile {} .counting).1.warnings.size = 2 ∧
      ((empty.after pausingUnclearly).compile {} .counting).1.warnings.size = 1 := by
  have same : SameTree exchanged (empty.after pausingUnclearly) (empty.after pausingUnclearlyToo)
      (.numbered 0) :=
    .of_closed (show BlockId.numbered 0 ∈ [.numbered 0, .numbered 1, .numbered 2] by decide)
      (by decide +kernel) (by decide +kernel) (by decide +kernel)
  have started : ((empty.after pausingUnclearly).starts.map (·.1)).head? = some (.numbered 0) ∧
      ((empty.after pausingUnclearlyToo).starts.map (·.1)).head? = some (.numbered 2) := by
    decide +kernel
  cases starts : (empty.after pausingUnclearly).starts with
  | nil => simp [starts] at started
  | cons head others =>
    cases otherStarts : (empty.after pausingUnclearlyToo).starts with
    | nil => simp [otherStarts] at started
    | cons otherHead otherOthers =>
      rcases head with ⟨root, start⟩
      rcases otherHead with ⟨otherRoot, otherStart⟩
      obtain ⟨rfl, rfl⟩ : root = .numbered 0 ∧ otherRoot = .numbered 2 := by
        simpa [starts, otherStarts] using started
      rcases compile_of_sameTree pausingUnclearly pausingUnclearlyToo {} .counting .counting
        exchanged (firstStart_of_starts starts) (firstStart_of_starts otherStarts) same with
        ⟨motions, _, warnings⟩
      exact ⟨motions, warnings, by decide +kernel⟩

end Workspace
end MotionBlocks
