import MotionBlocks.Proofs.Unrolling.Legality

namespace MotionBlocks

/-!
# Which step a refusal blames

A program of the host is refused if one of its steps cannot be played.  The refusal
names the first such step and one thing that is wrong with it.  The duration is looked
at before the parameter that the kind of the step reads, and of each number it is asked
whether it is there before it is asked whether it can be used.

Whether a step can be played depends on nothing but its motion.  Programs may therefore
be joined, thinned out and given other identifiers, and remain as legal as they were.
-/

namespace Motion

/-- The kind of a motion reads a parameter besides the duration, and this is what is given
for it. -/
inductive Reads (motion : Motion) : Parameter → Option Float → Prop where
  | move : motion.kind.family = .move → Reads motion .distance motion.distance
  | rotate : motion.kind.family = .rotate → Reads motion .distance motion.distance
  | scale : motion.kind.family = .scale → Reads motion .scale motion.scale

/-- The one thing that a refusal says of a motion at an index.  Each case excludes those
before it. -/
inductive Blamed (motion : Motion) (index : Nat) : ProgramError → Prop where
  | duration : motion.duration.isFinite = false →
      Blamed motion index (.invalidNumber index .duration)
  | sign : motion.duration.isFinite = true → motion.duration ≤ 0.0 →
      Blamed motion index (.nonPositiveDuration index motion.duration)
  | missing {parameter : Parameter} : motion.duration.isFinite = true → 0.0 < motion.duration →
      motion.Reads parameter none →
      Blamed motion index (.missingParameter index motion.kind parameter)
  | parameter {parameter : Parameter} {number : Float} : motion.duration.isFinite = true →
      0.0 < motion.duration → motion.Reads parameter (some number) → number.isFinite = false →
      Blamed motion index (.invalidNumber index parameter)

section

variable {motion : Motion}

theorem required_eq_some_iff (parameter : Parameter) (given : Option Float) :
    motion.required = some (parameter, given) ↔ motion.Reads parameter given := by
  constructor
  · intro reads
    unfold required at reads
    cases family : motion.kind.family with
    | move =>
      simp only [family] at reads
      cases reads
      exact .move family
    | rotate =>
      simp only [family] at reads
      cases reads
      exact .rotate family
    | scale =>
      simp only [family] at reads
      cases reads
      exact .scale family
    | pause => simp [family] at reads
  · intro reads
    cases reads with
    | move family => simp [required, family]
    | rotate family => simp [required, family]
    | scale family => simp [required, family]

/-- What a legal motion has, said of each family of kinds. -/
theorem legal_iff (motion : Motion) : motion.Legal ↔
    motion.duration.isFinite = true ∧ 0.0 < motion.duration ∧
      (motion.kind.family = .move ∨ motion.kind.family = .rotate →
        ∃ distance, motion.distance = some distance ∧ distance.isFinite = true) ∧
      (motion.kind.family = .scale →
        ∃ scale, motion.scale = some scale ∧ scale.isFinite = true) := by
  constructor
  · rintro ⟨finite, positive, required⟩
    simp only [required_eq_some_iff] at required
    exact ⟨finite, positive, Or.rec (fun moves => required _ _ (.move moves))
      (fun rotates => required _ _ (.rotate rotates)), fun scales => required _ _ (.scale scales)⟩
  · rintro ⟨finite, positive, travels, scales⟩
    refine ⟨finite, positive, fun parameter given required => ?_⟩
    cases (required_eq_some_iff parameter given).mp required with
    | move family => exact travels (Or.inl family)
    | rotate family => exact travels (Or.inr family)
    | scale family => exact scales family

theorem blamed_of_fault? {index : Nat} {error : ProgramError}
    (refused : motion.fault? index = some error) : motion.Blamed index error := by
  unfold fault? at refused
  split at refused
  · rename_i undefined
    cases refused
    exact .duration (by simpa using undefined)
  · rename_i defined
    have finite : motion.duration.isFinite = true := by simpa using defined
    split at refused
    · rename_i small
      cases refused
      exact .sign finite small
    · rename_i large
      have positive := (Number.not_le_zero_iff finite).mp large
      split at refused
      · cases refused
      · rename_i reads
        cases refused
        exact .missing finite positive ((required_eq_some_iff _ _).mp reads)
      · rename_i reads
        split at refused
        · cases refused
        · rename_i undefined
          cases refused
          exact .parameter finite positive ((required_eq_some_iff _ _).mp reads)
            (by simpa using undefined)

/-- The check of a motion finds what there is to blame, and nothing else. -/
theorem fault?_eq_some_iff (index : Nat) (error : ProgramError) :
    motion.fault? index = some error ↔ motion.Blamed index error := by
  refine ⟨blamed_of_fault?, fun blamed => ?_⟩
  cases blamed with
  | duration undefined => simp [fault?, undefined]
  | sign finite small => simp [fault?, finite, small]
  | missing finite positive reads =>
    have large := (Number.not_le_zero_iff finite).mpr positive
    simp [fault?, finite, large, (required_eq_some_iff _ _).mpr reads]
  | parameter finite positive reads undefined =>
    have large := (Number.not_le_zero_iff finite).mpr positive
    simp [fault?, finite, large, (required_eq_some_iff _ _).mpr reads, undefined]

end

end Motion

namespace Program

/-- The check reads the motions of a program only. -/
theorem fault?_eq_findSome? (program : Program) : program.fault? =
    program.motions.zipIdx.findSome? fun (motion, index) => motion.fault? index := by
  rw [fault?, motions, List.zipIdx_map, List.findSome?_map]
  rfl

/-- The check stops at the first motion that is not legal. -/
theorem fault?_eq_some_iff (program : Program) (error : ProgramError) :
    program.fault? = some error ↔ ∃ (index : Nat) (motion : Motion),
      program.motions[index]? = some motion ∧ motion.Blamed index error ∧
        ∀ (earlier : Nat) (other : Motion), earlier < index →
          program.motions[earlier]? = some other → other.Legal := by
  rw [fault?_eq_findSome?, List.findSome?_eq_some_iff]
  generalize program.motions = motions
  constructor
  · rintro ⟨front, ⟨motion, index⟩, back, split, refused, passed⟩
    rcases List.zipIdx_eq_append_iff.mp split with ⟨legal, rest, rfl, rfl, behind⟩
    rcases rest with _ | ⟨first, later⟩
    · cases behind
    · rw [List.zipIdx_cons, List.cons.injEq, Prod.mk.injEq, Nat.zero_add] at behind
      rcases behind with ⟨⟨rfl, rfl⟩, -⟩
      refine ⟨legal.length, motion, by simp, (Motion.fault?_eq_some_iff _ _).mp refused, ?_⟩
      intro earlier other before found
      rw [List.getElem?_append_left before] at found
      exact (other.fault?_eq_none_iff earlier).mp
        (passed (other, earlier) (by simpa [List.mem_zipIdx_iff_getElem?] using found))
  · rintro ⟨index, motion, found, blamed, legal⟩
    rcases List.getElem?_eq_some_iff.mp found with ⟨inside, rfl⟩
    refine ⟨(motions.take index).zipIdx, (motions[index], index),
      (motions.drop (index + 1)).zipIdx (index + 1), ?_,
      (Motion.fault?_eq_some_iff _ _).mpr blamed, ?_⟩
    · have length : (motions.take index).length = index := List.length_take_of_le inside.le
      conv_lhs => rw [← List.take_append_drop index motions, List.drop_eq_getElem_cons inside]
      rw [List.zipIdx_append, List.zipIdx_cons, length, Nat.zero_add]
    · rintro ⟨other, earlier⟩ listed
      rw [List.mem_zipIdx_iff_getElem?, List.getElem?_take, Option.ite_none_right_eq_some]
        at listed
      exact (other.fault?_eq_none_iff earlier).mpr (legal earlier other listed.1 listed.2)

/-- Motions decide whether a program is legal, so joining legal programs gives a legal one. -/
theorem fault?_append (first second : Program) :
    Program.fault? ⟨first.steps ++ second.steps⟩ = none ↔
      first.fault? = none ∧ second.fault? = none := by
  simp only [fault?_eq_none_iff, motions, List.map_append, List.forall_mem_append]

/-- A program is legal if and only if all its motions are: durations are finite and
positive, and the parameter that the kind reads is there and finite.  A program that is
not is refused for the first motion that is not legal and for the first thing that is
wrong with it.  Joining programs, leaving steps out and giving them other identifiers
makes no legal program illegal. -/
theorem refused_for_first (program : Program) :
    (∀ motion : Motion, motion.Legal ↔
      motion.duration.isFinite = true ∧ 0.0 < motion.duration ∧
        (motion.kind.family = .move ∨ motion.kind.family = .rotate →
          ∃ distance, motion.distance = some distance ∧ distance.isFinite = true) ∧
        (motion.kind.family = .scale →
          ∃ scale, motion.scale = some scale ∧ scale.isFinite = true)) ∧
    (program.fault? = none ↔ ∀ motion ∈ program.motions, motion.Legal) ∧
    (∀ error, program.fault? = some error ↔ ∃ (index : Nat) (motion : Motion),
      program.motions[index]? = some motion ∧ motion.Blamed index error ∧
        ∀ (earlier : Nat) (other : Motion), earlier < index →
          program.motions[earlier]? = some other → other.Legal) ∧
    (∀ other : Program, Program.fault? ⟨program.steps ++ other.steps⟩ = none ↔
      program.fault? = none ∧ other.fault? = none) ∧
    (∀ part : Program, part.steps.Sublist program.steps → program.fault? = none →
      part.fault? = none) ∧
    ∀ other : Program, other.motions = program.motions → other.fault? = program.fault? := by
  refine ⟨Motion.legal_iff, program.fault?_eq_none_iff, program.fault?_eq_some_iff,
    program.fault?_append, fun part thinned legal => ?_, fun other same => ?_⟩
  · rw [fault?_eq_none_iff] at legal ⊢
    exact fun motion listed => legal motion ((thinned.map _).subset listed)
  · rw [fault?_eq_findSome?, same, fault?_eq_findSome?]

/-- Of two bad steps the first one is blamed, and for its duration rather than for the
distance that it lacks. -/
example : (Program.fault? ⟨[⟨"a", .pausing 1.0⟩, ⟨"b", ⟨.moveUp, -2.0, none, none⟩⟩,
    ⟨"c", .pausing 0.0⟩]⟩).map (·.message) =
      some "step 1 has non-positive duration -2" := by
  decide +kernel

end Program
end MotionBlocks
