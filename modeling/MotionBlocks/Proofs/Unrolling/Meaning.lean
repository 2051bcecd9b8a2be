import MotionBlocks.Compile.Chain
import MotionBlocks.Proofs.Number.Value

namespace MotionBlocks

/-!
# What a chain means

The meaning of a chain is the concatenation of what its blocks stand for, with
the nested chain of a loop repeated as often as the number in the loop says.
There is no limit to it and no order of traversal in it, and nothing is noted
on the way, so it says what a compilation should be without saying how one is
done.

A block that means nothing in a chain is passed over.  A chain that returned to
itself would have no meaning at all, but links never do that.
-/

/-! ## Numbers and kinds -/

/-- Every default is a finite number. -/
theorem Defaults.all_finite : ∀ default ∈ [duration, distance, angleDegrees, scale, times],
    default.isFinite = true := by
  decide +kernel

namespace Workspace

/-- The finite number of the literal in a slot. -/
def literal? (workspace : Workspace) (block : Block) (slot : String) : Option Float := do
  let id ← block.slots.get? slot
  let plugged ← workspace.block? id
  if plugged.kind = .numberLiteral then
    (plugged.fields.get? FieldName.number).bind FieldValue.asFiniteNumber?
  else
    none

/-- The finite number of the literal in a slot, or a default. -/
def numberIn (workspace : Workspace) (block : Block) (slot : String) (default : Float) : Float :=
  (workspace.literal? block slot).getD default

/-- How often a loop runs: the greatest natural number that is not greater than
the number in the loop, and never when that number is negative. -/
def rounds (workspace : Workspace) (block : Block) : ℕ :=
  ⌊max 0 (Number.value (workspace.numberIn block SlotName.times Defaults.times))⌋₊

end Workspace

namespace Block

/-- The text in a field is the name of a step kind of a family. -/
def Names (block : Block) (field : String) (family : StepFamily) (kind : StepKind) : Prop :=
  block.fields.get? field = some (.text kind.name) ∧ kind.family = family

/-- The exact angle that a rotate block keeps beside the degrees shown. -/
def ExactAngle (block : Block) (radians : Float) : Prop :=
  (block.fields.get? FieldName.radians).bind FieldValue.asFiniteNumber? = some radians

end Block

namespace BlockKind

/-- The field that decides the step kind of a motion block, and the family that
the step kind has to be of. -/
def choice? : BlockKind → Option (String × StepFamily)
  | .move => some (FieldName.direction, .move)
  | .rotate => some (FieldName.axis, .rotate)
  | .scale => some (FieldName.type, .scale)
  | _ => none

/-- Blocks that stand for nothing wherever they are in a chain. -/
def isSilent : BlockKind → Bool
  | .start | .numberLiteral | .custom _ => true
  | _ => false

end BlockKind

namespace Workspace

/-! ## Meanings -/

/-- What a block that is no loop stands for. -/
inductive Contributes (workspace : Workspace) (block : Block) : List Motion → Prop where
  | pause : block.kind = .pause →
      Contributes workspace block
        [⟨.pause, workspace.numberIn block SlotName.duration Defaults.duration, none, none⟩]
  | move {kind : StepKind} : block.kind = .move → block.Names FieldName.direction .move kind →
      Contributes workspace block
        [⟨kind, workspace.numberIn block SlotName.duration Defaults.duration,
          some (workspace.numberIn block SlotName.distance Defaults.distance), none⟩]
  | rotateExactly {kind : StepKind} {radians : Float} : block.kind = .rotate →
      block.Names FieldName.axis .rotate kind → block.ExactAngle radians →
      (Number.degreesFor radians ==
        workspace.numberIn block SlotName.angle Defaults.angleDegrees) = true →
      Contributes workspace block
        [⟨kind, workspace.numberIn block SlotName.duration Defaults.duration, some radians, none⟩]
  | rotate {kind : StepKind} : block.kind = .rotate → block.Names FieldName.axis .rotate kind →
      (∀ radians, block.ExactAngle radians → (Number.degreesFor radians ==
        workspace.numberIn block SlotName.angle Defaults.angleDegrees) = false) →
      Contributes workspace block
        [⟨kind, workspace.numberIn block SlotName.duration Defaults.duration,
          some (Number.degreesToRadians
            (workspace.numberIn block SlotName.angle Defaults.angleDegrees)), none⟩]
  | scale {kind : StepKind} : block.kind = .scale → block.Names FieldName.type .scale kind →
      Contributes workspace block
        [⟨kind, workspace.numberIn block SlotName.duration Defaults.duration, none,
          some (workspace.numberIn block SlotName.scale Defaults.scale)⟩]
  | unnamed {field : String} {family : StepFamily} : block.kind.choice? = some (field, family) →
      (∀ kind, ¬ block.Names field family kind) → Contributes workspace block []
  | silent : block.kind.isSilent = true → Contributes workspace block []

/-- What the chain from a block on means. -/
inductive Means (workspace : Workspace) : Option BlockId → List Motion → Prop where
  | ends : Means workspace none []
  | block {id : BlockId} {block : Block} {own rest : List Motion} :
      workspace.block? id = some block → workspace.Contributes block own →
      Means workspace block.next rest → Means workspace (some id) (own ++ rest)
  | loop {id : BlockId} {block : Block} {body rest : List Motion} :
      workspace.block? id = some block → block.kind = .loop →
      Means workspace block.body body → Means workspace block.next rest →
      Means workspace (some id) ((List.replicate (workspace.rounds block) body).flatten ++ rest)

/-! ## A chain has one meaning at most -/

section

variable {workspace : Workspace} {block : Block}

theorem names_unique {field : String} {family : StepFamily} {first second : StepKind}
    (firstNamed : block.Names field family first) (secondNamed : block.Names field family second) :
    first = second := by
  have same : first.name = second.name := by
    simpa using firstNamed.1.symm.trans secondNamed.1
  have found := StepKind.ofName?_name first
  rw [same, StepKind.ofName?_name] at found
  exact (Option.some.inj found).symm

/-- A block whose field names a kind is no block whose field names none. -/
theorem not_unnamed {field other : String} {family otherFamily : StepFamily} {kind : StepKind}
    (choice : block.kind.choice? = some (field, family))
    (unnamed : ∀ kind, ¬ block.Names field family kind)
    (otherChoice : block.kind.choice? = some (other, otherFamily))
    (named : block.Names other otherFamily kind) : False := by
  rcases Prod.mk.inj (Option.some.inj (choice.symm.trans otherChoice)) with ⟨rfl, rfl⟩
  exact unnamed kind named

theorem Contributes.unique {first second : List Motion}
    (firstStands : workspace.Contributes block first)
    (secondStands : workspace.Contributes block second) : first = second := by
  cases firstStands with
  | pause kind => cases secondStands <;> simp_all [BlockKind.choice?, BlockKind.isSilent]
  | move kind named =>
    cases secondStands with
    | move _ otherNamed => rw [names_unique named otherNamed]
    | unnamed choice free => exact (not_unnamed choice free (by rw [kind]; rfl) named).elim
    | _ => simp_all [BlockKind.isSilent]
  | rotateExactly kind named exact same =>
    cases secondStands with
    | rotateExactly _ otherNamed otherExact =>
      rw [names_unique named otherNamed, Option.some.inj (exact.symm.trans otherExact)]
    | rotate _ otherNamed inexact =>
      have different := inexact _ exact
      simp [same] at different
    | unnamed choice free => exact (not_unnamed choice free (by rw [kind]; rfl) named).elim
    | _ => simp_all [BlockKind.isSilent]
  | rotate kind named inexact =>
    cases secondStands with
    | rotateExactly _ otherNamed exact same =>
      have different := inexact _ exact
      simp [same] at different
    | rotate _ otherNamed => rw [names_unique named otherNamed]
    | unnamed choice free => exact (not_unnamed choice free (by rw [kind]; rfl) named).elim
    | _ => simp_all [BlockKind.isSilent]
  | scale kind named =>
    cases secondStands with
    | scale _ otherNamed => rw [names_unique named otherNamed]
    | unnamed choice free => exact (not_unnamed choice free (by rw [kind]; rfl) named).elim
    | _ => simp_all [BlockKind.isSilent]
  | unnamed choice free =>
    cases secondStands with
    | pause kind => simp [kind, BlockKind.choice?] at choice
    | move kind named => exact (not_unnamed choice free (by rw [kind]; rfl) named).elim
    | rotateExactly kind named => exact (not_unnamed choice free (by rw [kind]; rfl) named).elim
    | rotate kind named => exact (not_unnamed choice free (by rw [kind]; rfl) named).elim
    | scale kind named => exact (not_unnamed choice free (by rw [kind]; rfl) named).elim
    | unnamed => rfl
    | silent => rfl
  | silent silent =>
    cases secondStands with
    | unnamed => rfl
    | silent => rfl
    | _ => simp_all [BlockKind.isSilent]

/-- No loop stands for something on its own. -/
theorem Contributes.kind_ne_loop {own : List Motion} (stands : workspace.Contributes block own) :
    block.kind ≠ .loop := by
  intro loop
  cases stands with
  | unnamed choice => simp [loop, BlockKind.choice?] at choice
  | silent silent => simp [loop, BlockKind.isSilent] at silent
  | _ => simp_all

theorem Means.unique {start : Option BlockId} {first second : List Motion}
    (firstMeans : workspace.Means start first) (secondMeans : workspace.Means start second) :
    first = second := by
  induction firstMeans generalizing second with
  | ends =>
    cases secondMeans
    rfl
  | block found stands _ ih =>
    cases secondMeans with
    | block otherFound otherStands otherRest =>
      rcases Option.some.inj (found.symm.trans otherFound) with rfl
      rw [stands.unique otherStands, ih otherRest]
    | loop otherFound loop =>
      rcases Option.some.inj (found.symm.trans otherFound) with rfl
      exact absurd loop stands.kind_ne_loop
  | loop found loop _ _ bodyIh restIh =>
    cases secondMeans with
    | block otherFound otherStands =>
      rcases Option.some.inj (found.symm.trans otherFound) with rfl
      exact absurd loop otherStands.kind_ne_loop
    | loop otherFound _ otherBody otherRest =>
      rcases Option.some.inj (found.symm.trans otherFound) with rfl
      rw [bodyIh otherBody, restIh otherRest]

end

end Workspace
end MotionBlocks
