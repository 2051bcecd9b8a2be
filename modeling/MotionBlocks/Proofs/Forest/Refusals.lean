import MotionBlocks.Proofs.Forest.Runs

namespace MotionBlocks

/-!
# Which connections are refused

The three edits that connect blocks refuse for the same reasons, in the same order: the
two blocks are one, one of them is missing, or the newcomer holds its new holder
already.  Only a nested chain asks for more, since not every block has a place for one.
Nothing else is refused, not even what is connected so already.

Whether a block holds another one is found out by a traversal that gives up after a
number of visits.  A traversal from a block of a forest needs no more visits than there
are blocks, so it never gives up.
-/

namespace Workspace

/-- What a connection is answered. -/
inductive Verdict (workspace : Workspace) (above : BlockId) (place : Place) (below : BlockId) :
    Except EditError Unit → Prop where
  | obstructed {error : EditError} : workspace.Obstacle above below error →
    Verdict workspace above place below (.error error)
  | uncontained {upper : Block} : workspace.Connectable above below → place = .body →
    workspace.block? above = some upper → upper.kind ≠ .loop →
    Verdict workspace above place below (.error (.notAContainer above upper.kind))
  | accepted {upper : Block} : workspace.Connectable above below →
    workspace.block? above = some upper → (place = .body → upper.kind = .loop) →
    Verdict workspace above place below (.ok ())

section

variable {workspace : Workspace} {above below root : BlockId} {place : Place}
  {error : EditError} {first second : Except EditError Unit}

/-! ## One verdict at most -/

theorem Obstacle.not_connectable (obstacle : workspace.Obstacle above below error) :
    ¬ workspace.Connectable above below := by
  rintro ⟨different, presentAbove, presentBelow, outside⟩
  cases obstacle with
  | itself same => exact different same
  | missingAbove _ missing => simp [missing] at presentAbove
  | missingBelow _ _ missing => simp [missing] at presentBelow
  | cycle _ _ _ path => exact outside path

theorem Obstacle.unique {other : EditError} (obstacle : workspace.Obstacle above below error)
    (another : workspace.Obstacle above below other) : error = other := by
  cases obstacle <;> cases another <;> first | rfl | simp_all

theorem Verdict.unique (verdict : workspace.Verdict above place below first)
    (other : workspace.Verdict above place below second) : first = second := by
  cases verdict with
  | obstructed obstacle =>
    cases other with
    | obstructed another => rw [obstacle.unique another]
    | uncontained connectable | accepted connectable =>
      exact absurd connectable obstacle.not_connectable
  | uncontained connectable nested found unlike =>
    cases other with
    | obstructed obstacle => exact absurd connectable obstacle.not_connectable
    | uncontained _ _ foundToo => rw [Option.some.inj (found.symm.trans foundToo)]
    | accepted _ foundToo loop =>
      cases found.symm.trans foundToo
      exact absurd (loop nested) unlike
  | accepted connectable found loop =>
    cases other with
    | obstructed obstacle => exact absurd connectable obstacle.not_connectable
    | uncontained _ nested foundToo unlike =>
      cases found.symm.trans foundToo
      exact absurd (loop nested) unlike
    | accepted => rfl

/-! ## What the edits answer -/

theorem WellFormed.verdict_connect (wellFormed : workspace.WellFormed) (above : BlockId)
    (place : Place) (below : BlockId) :
    workspace.Verdict above place below ((connect above place below).apply workspace).1 := by
  by_cases connectable : workspace.Connectable above below
  · rcases Option.isSome_iff_exists.mp connectable.presentAbove with ⟨upper, found⟩
    rw [wellFormed.apply_connect connectable found]
    split
    · rename_i unfit
      exact .uncontained connectable unfit.1 found fun loop =>
        (not_unfit_iff place upper.kind).mpr (fun _ => loop) unfit
    · rename_i fit
      exact .accepted connectable found ((not_unfit_iff place upper.kind).mp fit)
  · rcases wellFormed.apply_checkConnectable_of_not connectable with ⟨error, obstacle, refused⟩
    rw [apply_connect_of_refused refused]
    exact .obstructed obstacle

theorem WellFormed.connectable_of_accepted (wellFormed : workspace.WellFormed)
    (accepted : ((connect above place below).apply workspace).1 = .ok ()) :
    workspace.Connectable above below := by
  have verdict := wellFormed.verdict_connect above place below
  rw [accepted] at verdict
  cases verdict with
  | accepted connectable => exact connectable

/-- An accepted connection puts the newcomer at its place, unless it hangs there already. -/
theorem WellFormed.apply_connect_of_accepted (wellFormed : workspace.WellFormed)
    (accepted : ((connect above place below).apply workspace).1 = .ok ()) :
    (connect above place below).apply workspace = (.ok (),
      if workspace.links.child above place = some below then workspace
      else (workspace.put above place below).announce .move below) := by
  have connectable := wellFormed.connectable_of_accepted accepted
  rcases Option.isSome_iff_exists.mp connectable.presentAbove with ⟨upper, found⟩
  rw [wellFormed.apply_connect connectable found] at accepted ⊢
  split at accepted
  · cases accepted
  · rename_i fit
    rw [if_neg fit]

/-! ## How long a traversal takes -/

/-- A traversal that has not used up its visits does not need more of them. -/
theorem visited_of_le (workspace : Workspace) {visits more : Nat} {roots : List BlockId}
    (spare : (workspace.visited visits roots).length < visits) (le : visits ≤ more) :
    workspace.visited more roots = workspace.visited visits roots := by
  induction visits generalizing roots more with
  | zero => exact absurd spare (Nat.not_lt_zero _)
  | succ visits ih =>
    rcases more with _ | more
    · exact absurd le (Nat.not_succ_le_zero _)
    · cases roots with
      | nil => rfl
      | cons id waiting =>
        simp only [visited, List.length_cons] at spare ⊢
        rw [ih (Nat.lt_of_succ_lt_succ spare) (Nat.le_of_succ_le_succ le)]

/-- A traversal from one block meets each block that hangs from it once, and there are
enough visits for all of them. -/
theorem WellFormed.visited_single (wellFormed : workspace.WellFormed)
    (present : (workspace.block? root).isSome) :
    (workspace.visited (workspace.size + 1) [root]).Nodup ∧
      (workspace.visited (workspace.size + 1) [root]).length ≤ workspace.size := by
  have stores : workspace.Stores workspace.links [root] := by
    refine wellFormed.stores fun other listed => ?_
    exact List.mem_singleton.mp listed ▸ present
  have once := stores.nodup_visited wellFormed.sound (workspace.size + 1)
    (List.pairwise_singleton _ _)
  exact ⟨once, workspace.store.length_le_size once fun id met =>
    stores.isSome_of_mem_visited wellFormed.sound _ met⟩

end

/-- Whatever has been asked of a new workspace, a connection is refused for the first
obstacle there is, or because the new holder of a nested chain is no loop, and is
accepted in every other case.  The traversal that looks for a cycle has met all that
hangs from the newcomer before its visits run out, and more visits would not let it
meet more. -/
theorem answer_connect_iff (commands : List Command) (above : BlockId) (place : Place)
    (below : BlockId) :
    (∀ answer, ((connect above place below).apply (empty.after commands)).1 = answer ↔
      (empty.after commands).Verdict above place below answer) ∧
    ∀ root, ((empty.after commands).block? root).isSome →
      let met := (empty.after commands).visited ((empty.after commands).size + 1) [root]
      (∀ id, id ∈ met ↔ (empty.after commands).links.Reaches root id) ∧ met.Nodup ∧
        met.length ≤ (empty.after commands).size ∧
        ∀ visits, (empty.after commands).size < visits →
          (empty.after commands).visited visits [root] = met := by
  have wellFormed := wellFormed_after commands
  generalize empty.after commands = workspace at *
  have verdict := wellFormed.verdict_connect above place below
  refine ⟨fun answer => ⟨?_, verdict.unique⟩, fun root present => ?_⟩
  · rintro rfl
    exact verdict
  · rcases wellFormed.visited_single present with ⟨once, enough⟩
    refine ⟨fun id => ?_, once, enough, fun visits more => ?_⟩
    · rw [← wellFormed.reaches_iff present, reaches, List.contains_iff_mem]
    · exact workspace.visited_of_le (Nat.lt_succ_of_le enough) more

/-- A start block with a loop behind it that holds a pause. -/
def loopingPause : List Command :=
  [.create .start, .create .loop, .create .pause, .connectBody (.numbered 1) (.numbered 2),
    .connectNext (.numbered 0) (.numbered 1)]

/-- The pause lies below the start block and cannot be followed by it.  The other way round
nothing is wrong except that a start block has no place for a nested chain. -/
theorem answer_connect_loopingPause :
    ((connect (.numbered 2) .next (.numbered 0)).apply (empty.after loopingPause)).1 =
        .error (.cycle (.numbered 2) (.numbered 0)) ∧
      ((connect (.numbered 0) .body (.numbered 2)).apply (empty.after loopingPause)).1 =
        .error (.notAContainer (.numbered 0) .start) := by
  have refused := answer_connect_iff loopingPause (.numbered 2) .next (.numbered 0)
  have nested := answer_connect_iff loopingPause (.numbered 0) .body (.numbered 2)
  have start : ((empty.after loopingPause).block? (.numbered 0)).map (·.kind) = some .start := by
    decide +kernel
  have started : ((empty.after loopingPause).block? (.numbered 0)).isSome := by decide +kernel
  have paused : ((empty.after loopingPause).block? (.numbered 2)).isSome := by decide +kernel
  have below : (empty.after loopingPause).links.Reaches (.numbered 0) (.numbered 2) :=
    ((refused.2 _ started).1 _).mp (by decide +kernel)
  have outside : ¬ (empty.after loopingPause).links.Reaches (.numbered 2) (.numbered 0) := by
    rw [← (nested.2 _ paused).1]
    decide +kernel
  rcases Option.map_eq_some_iff.mp start with ⟨upper, found, kind⟩
  constructor
  · exact (refused.1 _).mpr (.obstructed (.cycle (by decide) paused started below))
  · rw [← kind]
    exact (nested.1 _).mpr (.uncontained ⟨by decide, started, paused, outside⟩ rfl found
      (by rw [kind]; decide))

end Workspace
end MotionBlocks
