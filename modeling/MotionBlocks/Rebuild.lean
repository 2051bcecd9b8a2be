import MotionBlocks.Compile.Motion
import MotionBlocks.Program.Basic
import MotionBlocks.Workspace.Edit

namespace MotionBlocks

/-!
# Rebuilding the workspace from a program

The way back from steps to blocks.  The workspace is emptied and gets a start
block with one block for each step behind it, every number as a literal in a
slot.  Loops do not come back: a program has lost them.

A rotation is edited in degrees but played in radians, so its exact angle is
kept in a field beside the degrees shown.
-/

namespace Workspace

/-- Where a rebuilt start block stands. -/
def startPosition : Position where
  x := 20.0
  y := 20.0

/-- Plugs a new literal into a slot. -/
def attachLiteral (owner : BlockId) (slot : String) (value : Float) : Edit Unit := do
  let literal ← modifyGet (create .numberLiteral)
  setField literal FieldName.number (.number value)
  connectValue owner slot literal

/-- Adds the block of one step, with its literals. -/
def addMotion (motion : Motion) : Edit BlockId := do
  let name : FieldValue := .text motion.kind.name
  match motion.kind.family with
  | .move =>
    let block ← modifyGet (create .move)
    setField block FieldName.direction name
    attachLiteral block SlotName.duration motion.duration
    attachLiteral block SlotName.distance (motion.distance.getD Defaults.distance)
    return block
  | .rotate =>
    let block ← modifyGet (create .rotate)
    setField block FieldName.axis name
    attachLiteral block SlotName.duration motion.duration
    match motion.distance with
    | some radians =>
      setField block FieldName.radians (.number radians)
      attachLiteral block SlotName.angle (Number.degreesFor radians)
    | none => attachLiteral block SlotName.angle Defaults.angleDegrees
    return block
  | .scale =>
    let block ← modifyGet (create .scale)
    setField block FieldName.type name
    attachLiteral block SlotName.duration motion.duration
    attachLiteral block SlotName.scale (motion.scale.getD Defaults.scale)
    return block
  | .pause =>
    let block ← modifyGet (create .pause)
    attachLiteral block SlotName.duration motion.duration
    return block

/-- Adds the blocks of steps one behind the other. -/
def addChain (previous : BlockId) : List Motion → Edit Unit
  | [] => return
  | motion :: motions => do
    let block ← addMotion motion
    connectNext previous block
    addChain block motions

/-- Replaces all blocks by those of a program. -/
def replaceWith (program : Program) : Edit Unit := do
  modify clear
  let start ← modifyGet (create .start)
  move start startPosition
  addChain start program.motions

/-- Replaces all blocks by those of a program, with every change marked as
programmatic. -/
def rebuild (program : Program) (workspace : Workspace) : Except EditError Unit × Workspace :=
  workspace.withOrigin .programmatic (replaceWith program).apply

theorem rebuild_eq (program : Program) (workspace : Workspace) :
    workspace.rebuild program =
      (((replaceWith program).apply { workspace with origin := .programmatic }).1,
        { ((replaceWith program).apply { workspace with origin := .programmatic }).2 with
          origin := workspace.origin }) := by
  unfold rebuild withOrigin
  generalize (replaceWith program).apply = action
  rfl

end Workspace
end MotionBlocks
