import MotionBlocks.Workspace.Basic

namespace MotionBlocks

/-!
# Values of slots

A parameter of a block is the number of the literal plugged into one of its
slots.  Looking one up never fails: whatever cannot be used gives the default
of the caller, along with the reason.
-/

/-- Why a slot gives its default. -/
inductive FallbackReason where
  | missing
  | notALiteral
  | notNumeric
deriving DecidableEq, Repr

namespace FallbackReason

def message : FallbackReason → String
  | .missing => "slot is empty"
  | .notALiteral => "attached block is not a number literal"
  | .notNumeric => "literal is not a finite number"

end FallbackReason

/-- The value of a slot, and why it is the default if it is. -/
structure SlotValue where
  value : Float
  fallback : Option FallbackReason

namespace Workspace

/-- The number plugged into a slot of a block. -/
def slotNumber (workspace : Workspace) (block : Block) (slot : String) :
    Except FallbackReason Float :=
  match (block.slots.get? slot).bind workspace.block? with
  | none => .error .missing
  | some child =>
    if child.kind = .numberLiteral then
      match (child.fields.get? FieldName.number).bind FieldValue.asFiniteNumber? with
      | some value => .ok value
      | none => .error .notNumeric
    else .error .notALiteral

/-- The value of a slot, with a default for everything that is no number. -/
def slotValue (workspace : Workspace) (block : Block) (slot : String) (default : Float) :
    SlotValue :=
  match workspace.slotNumber block slot with
  | .ok value => ⟨value, none⟩
  | .error reason => ⟨default, some reason⟩

end Workspace
end MotionBlocks
