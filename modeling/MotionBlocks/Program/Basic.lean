import MotionBlocks.Program.Step

namespace MotionBlocks

/-!
# Programs

The list of steps that the playback engine runs from front to back.  A program
is exchanged as a whole and not changed in place.
-/

structure Program where
  steps : List Step
deriving BEq

namespace Program

def empty : Program where
  steps := []

def isEmpty (program : Program) : Bool :=
  program.steps.isEmpty

def length (program : Program) : Nat :=
  program.steps.length

/-- What the steps do, in order. -/
def motions (program : Program) : List Motion :=
  program.steps.map (·.motion)

def kinds (program : Program) : List StepKind :=
  program.steps.map (·.motion.kind)

/-- The sum of all durations in seconds, added from the front. -/
def totalDuration (program : Program) : Float :=
  program.steps.foldl (fun total step => total + step.motion.duration) 0.0

/-- Agreement step by step in everything but the identifiers. -/
def sameEffect (first second : Program) : Bool :=
  first.motions == second.motions

end Program
end MotionBlocks
