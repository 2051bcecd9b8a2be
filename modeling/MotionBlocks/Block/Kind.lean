import MotionBlocks.Json.Library

namespace MotionBlocks

/-!
# Kinds of blocks

The vocabulary of the editor: the start of a program, four kinds of motion, a
loop, the literal that plugs into a value slot, and whatever else the host puts
into its toolbox.
-/

inductive BlockKind where
  | start
  | move
  | rotate
  | scale
  | pause
  /-- Runs its nested chain a number of times. -/
  | loop
  | numberLiteral
  /-- A block of the host that moves nothing. -/
  | custom (name : String)
deriving DecidableEq, Repr

namespace BlockKind

/-- The name shown to people. -/
def name : BlockKind → String
  | .start => "start"
  | .move => "move"
  | .rotate => "rotate"
  | .scale => "scale"
  | .pause => "pause"
  | .loop => "repeat"
  | .numberLiteral => "number_literal"
  | .custom name => name

/-- The kinds that a name alone determines. -/
def plain : List BlockKind :=
  [.start, .move, .rotate, .scale, .pause, .loop, .numberLiteral]

/-- Only a loop owns a nested chain. -/
def hasBody : BlockKind → Bool
  | .loop => true
  | _ => false

def toJson : BlockKind → Json
  | .custom name => .record [("custom", .ofText name)]
  | kind => .ofText kind.name

/-- Reads a plain kind by its name or a custom one by the member that names it. -/
def ofJson? (library : JsonLibrary) (json : Json) : Option BlockKind :=
  match library.choice json with
  | some name => plain.find? (·.name == name)
  | none =>
    match json with
    | .object [(some "custom", name)] => name.asText?.map .custom
    | _ => none

end BlockKind
end MotionBlocks
