import MotionBlocks.Compile.Value
import MotionBlocks.Number.Layout

namespace MotionBlocks

/-!
# Warnings

What compilation noticed and went on from.  Each warning names the block that
was skipped, whose value was replaced, or where a chain was left.
-/

inductive CompileWarning where
  | malformedValue (block : BlockId) (slot : String) (reason : FallbackReason) (default : Float)
  | unknownKind (block : BlockId) (name : String)
  /-- A start block inside a chain. -/
  | unexpectedStart (block : BlockId)
  | unexpectedBlock (block : BlockId) (kind : BlockKind)
  | invalidField (block : BlockId) (field : String)
  | repeatClamped (block : BlockId) (requested : Float) (limit : Nat)
  | multipleStarts (count : Nat) (used : BlockId)
  /-- A block that a chain came back to. -/
  | cycleDetected (block : BlockId)

namespace CompileWarning

/-- How a warning about one block begins. -/
def about (block : BlockId) : String :=
  "block " ++ block.text ++ ": "

def message : CompileWarning → String
  | .malformedValue block slot reason default =>
    about block ++ "slot `" ++ slot ++ "` " ++ reason.message ++ ", using default "
      ++ Number.messageText default
  | .unknownKind block name => about block ++ "unknown block kind `" ++ name ++ "` skipped"
  | .unexpectedStart block => about block ++ "Start block inside a chain skipped"
  | .unexpectedBlock block kind =>
    about block ++ kind.name ++ " block cannot appear in a chain, skipped"
  | .invalidField block field =>
    about block ++ "field `" ++ field ++ "` is missing or invalid, block skipped"
  | .repeatClamped block requested limit =>
    about block ++ "repeat count " ++ Number.messageText requested ++ " clamped to " ++ limit.repr
  | .multipleStarts count used =>
    count.repr ++ " Start blocks found, compiling from " ++ used.text
  | .cycleDetected block => "block " ++ block.text ++ " visited twice, chain truncated"

end CompileWarning
end MotionBlocks
