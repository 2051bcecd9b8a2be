import MotionBlocks.Json.Library
import MotionBlocks.Program.Legal

namespace MotionBlocks

/-!
# Exchanging programs

A program travels as a JSON array of step records.  A record leaves out the
parameters that its step does not have.  Reading for play also asks for a legal
program; reading alone does not.
-/

namespace StepKind

def toJson (kind : StepKind) : Json :=
  .ofText kind.name

def ofJson? (library : JsonLibrary) (json : Json) : Option StepKind :=
  (library.choice json).bind ofName?

end StepKind

namespace Step

def toJson (library : JsonLibrary) (step : Step) : Json :=
  let optional := fun name (value : Option Float) =>
    (value.map fun number => (name, Json.ofFloat library number)).toList
  .record
    ([("id", .ofText step.id), ("kind", step.motion.kind.toJson),
        ("duration", .ofFloat library step.motion.duration)]
      ++ optional "distance" step.motion.distance ++ optional "scale" step.motion.scale)

def ofJson? (library : JsonLibrary) (json : Json) : Option Step :=
  match library.fields ["id", "kind", "duration", "distance", "scale"] json with
  | some [some id, some kind, some duration, distance, scale] => do
    let id ← id.asText?
    let kind ← StepKind.ofJson? library kind
    let duration ← duration.asFloat? library
    let distance ← Json.optionalField (Json.asFloat? library) distance
    let scale ← Json.optionalField (Json.asFloat? library) scale
    return ⟨id, ⟨kind, duration, distance, scale⟩⟩
  | _ => none

end Step

namespace Program

def toJson (library : JsonLibrary) (program : Program) : Json :=
  .array (program.steps.map (Step.toJson library))

/-- The text that a program travels as. -/
def toText (library : JsonLibrary) (program : Program) : Except ProgramError String :=
  match library.write (program.toJson library) with
  | some text => .ok text
  | none => .error .unreadable

/-- Reads a program without asking whether it is legal. -/
def ofTextUnchecked (library : JsonLibrary) (text : String) : Except ProgramError Program :=
  match library.read text with
  | some (.array items) =>
    match items.mapM (Step.ofJson? library) with
    | some steps => .ok ⟨steps⟩
    | none => .error .unreadable
  | _ => .error .unreadable

/-- Reads a legal program. -/
def ofText (library : JsonLibrary) (text : String) : Except ProgramError Program :=
  match ofTextUnchecked library text with
  | .error error => .error error
  | .ok program =>
    match program.fault? with
    | some error => .error error
    | none => .ok program

end Program
end MotionBlocks
