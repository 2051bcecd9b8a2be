import MotionBlocks.Block.Field
import MotionBlocks.Block.Id
import MotionBlocks.Block.Kind
import MotionBlocks.Table

namespace MotionBlocks

/-!
# Blocks

A block knows its neighbours by their identifiers in both directions: what
follows it and what it follows, what is plugged into it and what it is plugged
into.  Nothing here keeps the two directions in step; that is the work of the
workspace, the only place that changes links.
-/

structure Block where
  kind : BlockKind
  fields : Table FieldValue
  /-- The blocks plugged into the value slots. -/
  slots : Table BlockId
  /-- The first block of the nested chain. -/
  body : Option BlockId
  next : Option BlockId
  previous : Option BlockId
  /-- The owner of the value slot or the nested chain that this block heads. -/
  parent : Option BlockId
  position : Option Position
deriving BEq

namespace Block

/-- A block of a kind that is linked to nothing. -/
def ofKind (kind : BlockKind) : Block where
  kind := kind
  fields := ∅
  slots := ∅
  body := none
  next := none
  previous := none
  parent := none
  position := none

/-- A top block follows nothing and is plugged into nothing. -/
def isTop (block : Block) : Bool :=
  block.previous.isNone && block.parent.isNone

/-- The blocks plugged into a block, without its successor. -/
def owned (block : Block) : List BlockId :=
  block.body.toList ++ block.slots.values

/-- The blocks that hang from a block by any link. -/
def children (block : Block) : List BlockId :=
  block.next.toList ++ block.owned

end Block

namespace FieldName

/-- Which way a move block moves. -/
def direction : String := "DIRECTION"

/-- Which axis a rotate block turns about. -/
def axis : String := "AXIS"

/-- Whether a scale block grows or shrinks. -/
def type : String := "TYPE"

/-- The number of a literal. -/
def number : String := "NUM"

/-- The exact angle of a rebuilt rotate block.  It holds for as long as the
angle plugged into the block is the one that the rebuild wrote. -/
def radians : String := "RADIANS"

end FieldName

namespace SlotName

def distance : String := "DISTANCE"

def duration : String := "DURATION"

def angle : String := "ANGLE"

def scale : String := "SCALE"

def times : String := "TIMES"

end SlotName
end MotionBlocks
