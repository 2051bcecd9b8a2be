import MotionBlocks.Compile.Warning
import MotionBlocks.Number.Angle
import MotionBlocks.Program.Step

namespace MotionBlocks

/-!
# The motion of one block

A move, rotate, scale or pause block stands for one step.  Its direction, axis
or type is a field and decides the kind of the step; its numbers come from its
slots.  Everything missing is replaced by a default and reported, but a block
without a usable kind is skipped as a whole.
-/

/-- What a compilation has done so far. -/
structure CompileState where
  /-- The blocks of chains met so far, the latest first. -/
  visited : List BlockId
  /-- The steps emitted, with every copy of a loop's body counted. -/
  emitted : Nat
  warnings : Array CompileWarning
  /-- Where the identifiers of steps are taken from. -/
  ids : StepIds

namespace CompileState

/-- The state before anything is compiled. -/
def initial (ids : StepIds) : CompileState where
  visited := []
  emitted := 0
  warnings := #[]
  ids := ids

end CompileState

/-- A part of a compilation. -/
abbrev Compiling (α : Type) := StateM CompileState α

namespace Compiling

def warn (warning : CompileWarning) : Compiling Unit :=
  modify fun state => { state with warnings := state.warnings.push warning }

/-- Corrects the number of emitted steps. -/
def recount (change : Nat → Nat) : Compiling Unit :=
  modify fun state => { state with emitted := change state.emitted }

/-- Enters a block among those met, and tells whether it was not there before. -/
def visit (id : BlockId) : Compiling Bool :=
  modifyGet fun state =>
    if id ∈ state.visited then (false, state)
    else (true, { state with visited := id :: state.visited })

/-- Makes steps with identifiers of the supply. -/
def supply {α : Type} (make : StateM StepIds α) : Compiling α :=
  modifyGet fun state =>
    let (made, ids) := StateT.run make state.ids
    (made, { state with ids })

end Compiling

namespace Defaults

def duration : Float := 1.0

def distance : Float := 1.0

def angleDegrees : Float := 90.0

def scale : Float := 1.5

def times : Float := 1.0

end Defaults

namespace Workspace

/-- The value of a slot; a default is reported. -/
def parameter (workspace : Workspace) (id : BlockId) (block : Block) (slot : String)
    (default : Float) : Compiling Float := do
  let found := workspace.slotValue block slot default
  match found.fallback with
  | none => pure ()
  | some reason => Compiling.warn (.malformedValue id slot reason default)
  return found.value

/-- The step kind that a field of a block names, if it is of a family. -/
def chosenKind? (block : Block) (field : String) (family : StepFamily) : Option StepKind :=
  ((block.fields.get? field).bind FieldValue.asText?).bind StepKind.ofName?
    |>.filter (·.family == family)

/-- The step kind that a field of a block names; a block without one is
reported. -/
def chosenKind (id : BlockId) (block : Block) (field : String) (family : StepFamily) :
    Compiling (Option StepKind) := do
  match chosenKind? block field family with
  | some kind => return some kind
  | none =>
    Compiling.warn (.invalidField id field)
    return none

/-- The radians of a rotate block with an angle in degrees plugged into it.

An exact angle that a rebuild wrote counts for as long as the degrees are the
ones that belong to it, so that editing the angle overrides it. -/
def rotationRadians (block : Block) (degrees : Float) : Float :=
  let exact := (block.fields.get? FieldName.radians).bind FieldValue.asFiniteNumber?
  match exact with
  | some radians =>
    if Number.degreesFor radians == degrees then radians else Number.degreesToRadians degrees
  | none => Number.degreesToRadians degrees

/-- The motion of a block, if it is a motion block and names its kind. -/
def motion (workspace : Workspace) (id : BlockId) (block : Block) : Compiling (Option Motion) := do
  match block.kind with
  | .move =>
    match ← chosenKind id block FieldName.direction .move with
    | none => return none
    | some kind =>
      let duration ← workspace.parameter id block SlotName.duration Defaults.duration
      let distance ← workspace.parameter id block SlotName.distance Defaults.distance
      return some (.travelling kind duration distance)
  | .rotate =>
    match ← chosenKind id block FieldName.axis .rotate with
    | none => return none
    | some kind =>
      let duration ← workspace.parameter id block SlotName.duration Defaults.duration
      let degrees ← workspace.parameter id block SlotName.angle Defaults.angleDegrees
      return some (.travelling kind duration (rotationRadians block degrees))
  | .scale =>
    match ← chosenKind id block FieldName.type .scale with
    | none => return none
    | some kind =>
      let duration ← workspace.parameter id block SlotName.duration Defaults.duration
      let scale ← workspace.parameter id block SlotName.scale Defaults.scale
      return some (.scaling kind duration scale)
  | .pause =>
    let duration ← workspace.parameter id block SlotName.duration Defaults.duration
    return some (.pausing duration)
  | _ => return none

end Workspace
end MotionBlocks
