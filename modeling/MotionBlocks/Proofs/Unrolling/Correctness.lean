import MotionBlocks.Proofs.Forest.Runs
import MotionBlocks.Proofs.Unrolling.Walk

namespace MotionBlocks

/-!
# Compilation unrolls

A walk remembers every block, but in a workspace whose links are sound it never comes
back to one: what hangs from the body of a loop and what follows the loop are apart, and
neither leads back to the loop.  So nothing is ever left out for having been met.

A compilation counts the steps it has emitted and cuts loops that would give too many.
Whenever it does so it says so, so the count matters to the result only if there is a
warning: without one, every loop runs as often as it should.
-/

namespace CompileState

/-- No chain has come back to a block so far. -/
def Acyclic (state : CompileState) : Prop :=
  ∀ warning ∈ state.warnings, warning.isCycle = false

theorem Acyclic.noting {state : CompileState} {noted : Array CompileWarning}
    (acyclic : state.Acyclic) (ordinary : Ordinary noted) : (state.noting noted).Acyclic := by
  intro warning listed
  rcases Array.mem_append.mp listed with before | now
  · exact acyclic warning before
  · exact CompileWarning.isCycle_of_isOrdinary (ordinary warning now)

theorem Acyclic.unrolled {state : CompileState} (acyclic : state.Acyclic) (id : BlockId)
    (times : Float) (body : List Step) (count : ℕ) :
    (state.unrolled id times body count).Acyclic := by
  intro warning listed
  unfold CompileState.unrolled at listed
  dsimp only at listed
  split at listed
  · rcases Array.mem_push.mp listed with before | rfl
    · exact acyclic warning before
    · rfl
  · exact acyclic warning listed

/-- Warnings are not taken back. -/
theorem Unclamped.of_noting {state : CompileState} {noted : Array CompileWarning}
    (unclamped : (state.noting noted).Unclamped) : state.Unclamped :=
  fun warning listed => unclamped warning (Array.mem_append_left _ listed)

theorem Unclamped.of_unrolled {state : CompileState} {id : BlockId} {times : Float}
    {body : List Step} {count : ℕ} (unclamped : (state.unrolled id times body count).Unclamped) :
    state.Unclamped := by
  intro warning listed
  refine unclamped warning ?_
  unfold CompileState.unrolled
  dsimp only
  split
  · exact Array.mem_push_of_mem _ listed
  · exact listed

/-- A loop that is not cut is not seen to run less often than it asks for. -/
theorem Unclamped.not_lt_of_unrolled {state : CompileState} {id : BlockId} {times : Float}
    {body : List Step} {count : ℕ} (unclamped : (state.unrolled id times body count).Unclamped) :
    ¬ Number.ofNat count < Number.floorPositive times := by
  intro cut
  have harmless := unclamped (.repeatClamped id (Number.floorPositive times) count)
    (by simp only [CompileState.unrolled, if_pos cut]; exact Array.mem_push_self)
  simp [CompileWarning.isClamp] at harmless

end CompileState

namespace Workspace

section

variable {workspace : Workspace} {options : CompileOptions} {start : Option BlockId}
  {state final : CompileState} {steps : List Step} {id : BlockId} {block : Block}

/-! ## No way back -/

/-- What hangs from the nested chain of a block does not hang from the block behind
it. -/
theorem WellFormed.not_reaches_next (wellFormed : workspace.WellFormed) {head : BlockId}
    {block : Block} (found : workspace.block? head = some block) {body next id : BlockId}
    (bodyHeld : body ∈ block.body) (nextHeld : next ∈ block.next)
    (bodyPath : workspace.links.Reaches body id) : ¬ workspace.links.Reaches next id := by
  have sound := wellFormed.sound
  have bodyHolds : workspace.links.Holds head body :=
    ⟨.body, (child_of_block found .body).trans bodyHeld⟩
  have nextHolds : workspace.links.Holds head next :=
    ⟨.next, (child_of_block found .next).trans nextHeld⟩
  have different : body ≠ next := by
    rintro rfl
    have same := sound.place_unique ((child_of_block found .body).trans bodyHeld)
      ((child_of_block found .next).trans nextHeld)
    simp at same
  intro nextPath
  rcases sound.reaches_total bodyPath nextPath with down | down
  · exact sound.apart_of_holds bodyHolds nextHolds different down
  · exact sound.apart_of_holds nextHolds bodyHolds different.symm down

/-- What has been met after a walk had been met before it or hangs from its beginning. -/
theorem Walk.mem_visited (walk : workspace.Walk options start state steps final) :
    ∀ id ∈ final.visited, id ∈ state.visited ∨ ∃ head ∈ start, workspace.links.Reaches head id := by
  induction walk with
  | ends => exact fun _ => Or.inl
  | lost => exact fun _ => Or.inl
  | again => exact fun _ => Or.inl
  | @beside head block _ _ state _ _ found _ beside _ ih =>
    have same := beside.visited_eq
    intro id met
    rcases ih id met with before | ⟨next, held, path⟩
    · rw [same] at before
      rcases List.mem_cons.mp before with rfl | before
      · exact Or.inr ⟨id, rfl, .refl⟩
      · exact Or.inl before
    · exact Or.inr ⟨head, rfl, path.head ⟨.next, (child_of_block found .next).trans held⟩⟩
  | @loop head block _ _ _ _ state _ _ found _ _ _ _ _ _ bodyIh restIh =>
    intro id met
    rcases restIh id met with during | ⟨next, held, path⟩
    · rcases bodyIh id during with before | ⟨body, held, path⟩
      · rcases List.mem_cons.mp before with rfl | before
        · exact Or.inr ⟨id, rfl, .refl⟩
        · exact Or.inl before
      · exact Or.inr ⟨head, rfl, path.head ⟨.body, (child_of_block found .body).trans held⟩⟩
    · exact Or.inr ⟨head, rfl, path.head ⟨.next, (child_of_block found .next).trans held⟩⟩

/-- A chain begins at a block, and nothing that hangs from there has been met. -/
structure Open (workspace : Workspace) (start : Option BlockId) (visited : List BlockId) :
    Prop where
  there : ∀ head ∈ start, (workspace.block? head).isSome
  fresh : ∀ head ∈ start, ∀ id, workspace.links.Reaches head id → id ∉ visited

theorem Open.not_mem {visited : List BlockId} (chain : workspace.Open (some id) visited) :
    id ∉ visited :=
  chain.fresh id rfl id .refl

/-- Nothing leads back to a block from what hangs from it. -/
theorem WellFormed.open_child (wellFormed : workspace.WellFormed) {visited : List BlockId}
    (chain : workspace.Open (some id) visited) (found : workspace.block? id = some block)
    (place : Place) : workspace.Open (block.child? place) (id :: visited) := by
  have holds : ∀ lower ∈ block.child? place, workspace.links.Holds id lower :=
    fun lower held => ⟨place, (child_of_block found place).trans held⟩
  refine ⟨fun lower held => wellFormed.isSome_below (holds lower held),
    fun lower held other path met => ?_⟩
  rcases List.mem_cons.mp met with rfl | before
  · exact wellFormed.sound.not_reaches_of_holds (holds lower held) path
  · exact chain.fresh id rfl other (path.head (holds lower held)) before

/-- What follows a loop is still open after its body. -/
theorem WellFormed.open_next (wellFormed : workspace.WellFormed) {visited after : List BlockId}
    (chain : workspace.Open (some id) visited) (found : workspace.block? id = some block)
    (met : ∀ other ∈ after, other ∈ id :: visited ∨
      ∃ body ∈ block.body, workspace.links.Reaches body other) :
    workspace.Open block.next after := by
  have following := wellFormed.open_child chain found .next
  refine ⟨following.there, fun next held other path again => ?_⟩
  rcases met other again with before | ⟨body, bodyHeld, bodyPath⟩
  · exact following.fresh next held other path before
  · exact wellFormed.not_reaches_next found bodyHeld held bodyPath path

/-- A walk along an open chain neither loses its way nor comes back, so it is enough to
look at the blocks beside the loops, at loops, and at the end. -/
theorem WellFormed.walk_induction (wellFormed : workspace.WellFormed)
    {motive : Option BlockId → CompileState → List Step → CompileState → Prop}
    (ends : ∀ state, motive none state [] state)
    (beside : ∀ {id block own rest state after final}, workspace.block? id = some block →
      workspace.Beside block (CompileState.meeting state id) (own, after) →
      motive block.next after rest final → motive (some id) state (own ++ rest) final)
    (loop : ∀ {id block noted count body rest state nested final},
      workspace.block? id = some block → block.kind = .loop → Ordinary noted →
      motive block.body ((CompileState.meeting state id).noting noted) body nested →
      IsGreatest {count | Affordable options (workspace.rounds block)
        (options.roundLimit (workspace.timesIn block)) (nested.emitted - body.length)
        body.length count} count →
      motive block.next (nested.unrolled id (workspace.timesIn block) body count) rest final →
      motive (some id) state (nested.ids.renewed (List.replicate count body).flatten ++ rest) final)
    (walk : workspace.Walk options start state steps final)
    (chain : workspace.Open start state.visited) : motive start state steps final := by
  induction walk with
  | ends => exact ends _
  | @lost id _ missing =>
    have there := chain.there id rfl
    rw [missing] at there
    cases there
  | again _ met => exact absurd met chain.not_mem
  | beside found _ beyond _ ih =>
    have same := beyond.visited_eq
    refine beside found beyond (ih ?_)
    rw [same]
    exact wellFormed.open_child chain found .next
  | loop found _ isLoop ordinary body greatest _ bodyIh restIh =>
    refine loop found isLoop ordinary (bodyIh (wellFormed.open_child chain found .body))
      greatest (restIh (wellFormed.open_next chain found body.mem_visited))

/-- No walk along an open chain comes back to a block. -/
theorem WellFormed.acyclic_walk (wellFormed : workspace.WellFormed)
    (walk : workspace.Walk options start state steps final)
    (chain : workspace.Open start state.visited) (acyclic : state.Acyclic) : final.Acyclic := by
  revert acyclic
  refine wellFormed.walk_induction (motive := fun _ state _ final => state.Acyclic → final.Acyclic)
    (fun _ => id) (fun _ beyond ih acyclic => ih ?_)
    (fun _ _ ordinary bodyIh _ restIh acyclic => restIh ((bodyIh ?_).unrolled _ _ _ _)) walk chain
  · cases beyond with
    | skipped ordinary => exact acyclic.noting ordinary
    | stepped ordinary => exact acyclic.noting ordinary
  · exact acyclic.noting ordinary

/-! ## Meanings -/

theorem Beside.unclamped {own : List Step} {after : CompileState}
    (beside : workspace.Beside block state (own, after)) (unclamped : after.Unclamped) :
    state.Unclamped := by
  cases beside with
  | skipped => exact unclamped.of_noting
  | stepped => exact CompileState.Unclamped.of_noting unclamped

/-- Within `2 ^ 53`, a loop that is not cut runs as often as it should. -/
theorem count_eq_rounds (exact : options.maxRepeat ≤ 2 ^ 53) {emitted count : ℕ}
    {body : List Step} {nested : CompileState}
    (fits : Affordable options (workspace.rounds block)
      (options.roundLimit (workspace.timesIn block)) emitted body.length count)
    (unclamped : (nested.unrolled id (workspace.timesIn block) body count).Unclamped) :
    count = workspace.rounds block := by
  have finite := workspace.isFinite_timesIn block
  have asked : count ≤ Number.wholePart (workspace.timesIn block) :=
    fits.asked.trans_eq (workspace.wholePart_timesIn block).symm
  have small := (options.le_maxRepeat_of_le_roundLimit finite exact asked fits.each).trans exact
  have full := unclamped.not_lt_of_unrolled
  rw [Number.ofNat_lt_floorPositive_iff finite small, wholePart_timesIn] at full
  exact Nat.le_antisymm fits.asked (Nat.le_of_not_lt full)

/-- Without a cut loop, what comes of a chain is its meaning.  No warning is taken back, so
no loop had been cut before either. -/
theorem WellFormed.walk_means (wellFormed : workspace.WellFormed)
    (exact : options.maxRepeat ≤ 2 ^ 53)
    (walk : workspace.Walk options start state steps final)
    (chain : workspace.Open start state.visited) (unclamped : final.Unclamped) :
    state.Unclamped ∧ workspace.Means start (steps.map (·.motion)) := by
  revert unclamped
  refine wellFormed.walk_induction (motive := fun start state steps final =>
    final.Unclamped → state.Unclamped ∧ workspace.Means start (steps.map (·.motion)))
    (fun _ unclamped => ⟨unclamped, .ends⟩) ?beside ?loop walk chain
  case beside =>
    intro id block own rest state after final found beside ih unclamped
    rcases ih unclamped with ⟨before, means⟩
    refine ⟨beside.unclamped before, ?_⟩
    rw [List.map_append]
    exact .block found beside.contributes means
  case loop =>
    intro id block noted count body rest state nested final found loop ordinary bodyIh greatest
      restIh unclamped
    rcases restIh unclamped with ⟨uncut, means⟩
    rcases bodyIh uncut.of_unrolled with ⟨before, bodyMeans⟩
    refine ⟨before.of_noting, ?_⟩
    rw [List.map_append, motions_copies, count_eq_rounds exact greatest.1 uncut]
    exact .loop found loop bodyMeans means

end

section

variable {workspace : Workspace} {options : CompileOptions} {id : BlockId} {block : Block}

/-- The chain behind a block that has just been met is open. -/
theorem WellFormed.open_of_found (wellFormed : workspace.WellFormed)
    (found : workspace.block? id = some block) : workspace.Open block.next [id] := by
  have alone : workspace.Open (some id) [] := by
    refine ⟨fun head same => ?_, fun _ _ _ _ => List.not_mem_nil⟩
    rcases Option.some.inj same with rfl
    exact Option.isSome_iff_exists.mpr ⟨block, found⟩
  exact wellFormed.open_child alone found .next

/-- No compilation of a workspace with sound links comes back to a block. -/
theorem WellFormed.acyclic_compile (wellFormed : workspace.WellFormed) (options : CompileOptions)
    (ids : StepIds) :
    ∀ warning ∈ (workspace.compile options ids).1.warnings, warning.isCycle = false := by
  rw [(workspace.compile_eq options ids).2.1]
  rcases workspace.noStart_or_firstStart with none | ⟨id, block, first⟩
  · rw [run_steps_of_starts_eq_nil none]
    simp [CompileState.initial]
  · rcases first.walk options ids with ⟨noted, ordinary, walk⟩
    refine wellFormed.acyclic_walk walk (wellFormed.open_of_found first.found) ?_
    have fresh : (CompileState.initial ids).Acyclic := by
      simp [CompileState.Acyclic, CompileState.initial]
    exact fresh.noting ordinary

theorem WellFormed.means_compile (wellFormed : workspace.WellFormed)
    (first : workspace.FirstStart id block) (exact : options.maxRepeat ≤ 2 ^ 53) {ids : StepIds}
    (unclamped : ∀ warning ∈ (workspace.compile options ids).1.warnings,
      warning.isClamp = false) :
    workspace.Means block.next (workspace.compile options ids).1.program.motions := by
  rcases workspace.compile_eq options ids with ⟨motions, warnings, -⟩
  rcases first.walk options ids with ⟨noted, -, walk⟩
  rw [motions]
  rw [warnings] at unclamped
  exact (wellFormed.walk_means exact walk (wellFormed.open_of_found first.found) unclamped).2

/-- No compilation comes back to a block.  Without a cut loop it gives the meaning of the
chain behind the first start block, and nothing if there is no start block at the top. -/
theorem compile_unrolls (commands : List Command) (options : CompileOptions) (ids : StepIds) :
    (∀ warning ∈ ((empty.after commands).compile options ids).1.warnings,
      warning.isCycle = false) ∧
    (options.maxRepeat ≤ 2 ^ 53 →
      (∀ warning ∈ ((empty.after commands).compile options ids).1.warnings,
        warning.isClamp = false) →
      ∀ id block, (empty.after commands).FirstStart id block →
        ∀ meaning, (empty.after commands).Means block.next meaning ↔
          ((empty.after commands).compile options ids).1.program.motions = meaning) ∧
    ((∀ id block, (empty.after commands).block? id = some block → block.isTop = true →
      block.kind ≠ .start) →
        ((empty.after commands).compile options ids).1.program.motions = []) := by
  have wellFormed := wellFormed_after commands
  generalize empty.after commands = workspace at *
  refine ⟨wellFormed.acyclic_compile options ids, fun exact unclamped id block first meaning => ?_,
    fun noStart => ?_⟩
  · have means := wellFormed.means_compile first exact unclamped
    constructor
    · exact means.unique
    · rintro rfl
      exact means
  · rw [(workspace.compile_eq options ids).1,
      run_steps_of_starts_eq_nil (starts_eq_nil noStart) options ids]
    rfl

end

/-- A start block with a loop that runs a pause twice. -/
def pausingTwice : List Command :=
  [.create .start, .create .loop, .create .numberLiteral, .create .pause,
    .setField (.numbered 2) FieldName.number (.number 2.0),
    .connectValue (.numbered 1) SlotName.times (.numbered 2),
    .connectBody (.numbered 1) (.numbered 3), .connectNext (.numbered 0) (.numbered 1)]

/-- The default limits do not cut a loop that runs twice. -/
theorem compile_unrolls_pausingTwice : ∃ id block meaning,
    (empty.after pausingTwice).FirstStart id block ∧
      (empty.after pausingTwice).Means block.next meaning ∧ meaning.length = 2 := by
  have unrolled := (compile_unrolls pausingTwice {} .counting).2.1 (by decide +kernel)
    (by decide +kernel)
  have length : ((empty.after pausingTwice).compile {} .counting).1.program.motions.length = 2 := by
    decide +kernel
  have started : (empty.after pausingTwice).starts.isEmpty = false := by decide +kernel
  cases starts : (empty.after pausingTwice).starts with
  | nil => simp [starts] at started
  | cons head others =>
    have first := firstStart_of_starts starts
    exact ⟨head.1, head.2, _, first, (unrolled _ _ first _).mpr rfl, length⟩

end Workspace
end MotionBlocks
