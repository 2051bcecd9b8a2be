import MotionBlocks.Number.Layout
import MotionBlocks.Program.Basic

namespace MotionBlocks

/-!
# Legal programs

The host's playback engine needs durations that are finite and positive, and
the parameter that a step's kind reads.  A parameter that no kind reads is
harmless and is not looked at.
-/

/-- The numbers that a step may carry. -/
inductive Parameter where
  | duration
  | distance
  | scale
deriving DecidableEq, Repr

namespace Parameter

def name : Parameter → String
  | .duration => "duration"
  | .distance => "distance"
  | .scale => "scale"

end Parameter

/-- Why a program cannot be taken over from the host. -/
inductive ProgramError where
  /-- The text is no JSON array of steps, or there is no text for the steps. -/
  | unreadable
  | missingParameter (index : Nat) (kind : StepKind) (parameter : Parameter)
  | invalidNumber (index : Nat) (parameter : Parameter)
  | nonPositiveDuration (index : Nat) (duration : Float)

namespace ProgramError

def message : ProgramError → String
  | .unreadable => "invalid program JSON"
  | .missingParameter index kind parameter =>
    "step " ++ index.repr ++ " (" ++ kind.name ++ ") is missing its `" ++ parameter.name
      ++ "` parameter"
  | .invalidNumber index parameter =>
    "step " ++ index.repr ++ " has a non-finite `" ++ parameter.name ++ "` value"
  | .nonPositiveDuration index duration =>
    "step " ++ index.repr ++ " has non-positive duration " ++ Number.messageText duration

end ProgramError

namespace Motion

/-- The parameter that a kind of step reads, and the value given for it. -/
def required (motion : Motion) : Option (Parameter × Option Float) :=
  match motion.kind.family with
  | .move | .rotate => some (.distance, motion.distance)
  | .scale => some (.scale, motion.scale)
  | .pause => none

/-- The first thing wrong with the step at an index. -/
def fault? (motion : Motion) (index : Nat) : Option ProgramError :=
  if !motion.duration.isFinite then some (.invalidNumber index .duration)
  else if motion.duration ≤ 0.0 then some (.nonPositiveDuration index motion.duration)
  else
    match motion.required with
    | none => none
    | some (parameter, none) => some (.missingParameter index motion.kind parameter)
    | some (parameter, some value) =>
      if value.isFinite then none else some (.invalidNumber index parameter)

end Motion

namespace Program

/-- The fault of the first step that has one. -/
def fault? (program : Program) : Option ProgramError :=
  program.steps.zipIdx.findSome? fun (step, index) => step.motion.fault? index

end Program
end MotionBlocks
