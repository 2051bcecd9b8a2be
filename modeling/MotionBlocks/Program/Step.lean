import MotionBlocks.Number.Double

namespace MotionBlocks

/-!
# Steps

One instruction of the playback engine: what to do, for how long, and how far.
A step is a motion under an identifier.  Two steps do the same when their
motions agree as numbers agree, so an undefined number agrees with nothing and
the two zeros agree.

Identifiers are random, and where they come from is left open.  What a supply
will give is laid down turn by turn, and every step that is built or copied takes
the next turn.
-/

/-- The groups of step kinds that share a block kind and a parameter. -/
inductive StepFamily where
  | move
  | rotate
  | scale
  | pause
deriving DecidableEq, Repr

/-- The instructions of the playback engine. -/
inductive StepKind where
  | moveUp
  | moveDown
  | moveLeft
  | moveRight
  | moveForward
  | moveBackward
  | rotateX
  | rotateY
  | rotateZ
  | scaleUp
  | scaleDown
  | pause
deriving DecidableEq, Repr

namespace StepKind

def all : List StepKind :=
  [.moveUp, .moveDown, .moveLeft, .moveRight, .moveForward, .moveBackward, .rotateX, .rotateY,
    .rotateZ, .scaleUp, .scaleDown, .pause]

def name : StepKind → String
  | .moveUp => "moveUp"
  | .moveDown => "moveDown"
  | .moveLeft => "moveLeft"
  | .moveRight => "moveRight"
  | .moveForward => "moveForward"
  | .moveBackward => "moveBackward"
  | .rotateX => "rotateX"
  | .rotateY => "rotateY"
  | .rotateZ => "rotateZ"
  | .scaleUp => "scaleUp"
  | .scaleDown => "scaleDown"
  | .pause => "pause"

def ofName? (name : String) : Option StepKind :=
  all.find? (·.name == name)

def family : StepKind → StepFamily
  | .moveUp | .moveDown | .moveLeft | .moveRight | .moveForward | .moveBackward => .move
  | .rotateX | .rotateY | .rotateZ => .rotate
  | .scaleUp | .scaleDown => .scale
  | .pause => .pause

/-- Every kind is found again by its name. -/
theorem ofName?_name (kind : StepKind) : ofName? kind.name = some kind := by
  cases kind <;> decide

end StepKind

/-- What a step does, whichever identifier it has. -/
structure Motion where
  kind : StepKind
  /-- In seconds. -/
  duration : Float
  /-- Units of length for a move and radians for a rotation. -/
  distance : Option Float
  scale : Option Float
deriving BEq

namespace Motion

/-- A move by a distance or a rotation by radians. -/
def travelling (kind : StepKind) (duration distance : Float) : Motion :=
  ⟨kind, duration, some distance, none⟩

def scaling (kind : StepKind) (duration scale : Float) : Motion :=
  ⟨kind, duration, none, some scale⟩

def pausing (duration : Float) : Motion :=
  ⟨.pause, duration, none, none⟩

end Motion

/-! ## Identifiers -/

/-- The supply of step identifiers: what its turns give, and how many turns have
been taken. -/
structure StepIds where
  turn : Nat → String
  used : Nat

namespace StepIds

/-- Takes the next identifier. -/
def draw : StateM StepIds String :=
  modifyGet fun ids => (ids.turn ids.used, { ids with used := ids.used + 1 })

/-- What a supply of random identifiers is trusted for: no two turns give the
same. -/
def NeverRepeats (ids : StepIds) : Prop :=
  ∀ first second, ids.turn first = ids.turn second → first = second

end StepIds

/-! ## Steps -/

/-- One instruction of a program. -/
structure Step where
  id : String
  motion : Motion
deriving BEq

namespace Step

/-- Agreement in everything but the identifier. -/
def sameEffect (first second : Step) : Bool :=
  first.motion == second.motion

/-- The step of a motion under a new identifier. -/
def build (motion : Motion) : StateM StepIds Step := do
  let id ← StepIds.draw
  return { id, motion }

/-- A copy of a step under a new identifier. -/
def renew (step : Step) : StateM StepIds Step := do
  let id ← StepIds.draw
  return { step with id }

end Step

/-! ## A supply that counts -/

namespace StepIds

/-- The part that all identifiers share. -/
def stem : String := "00000000-0000-4000-8000-"

/-- The identifier with a serial number, in the shape of a random one. -/
def spell (serial : Nat) : String :=
  stem ++ String.ofList (List.replicate (12 - serial.repr.length) '0') ++ serial.repr

/-- A supply that spells how many turns have been taken, for runs that are to be
repeated. -/
def counting : StepIds where
  turn := spell
  used := 0

/-- An identifier shows its serial number behind the stem, with zeros in
front. -/
theorem ofDigitChars_spell (serial : Nat) :
    Nat.ofDigitChars 10 ((spell serial).toList.drop stem.toList.length) 0 = serial := by
  have spelled : (spell serial).toList =
      stem.toList ++ (List.replicate (12 - serial.repr.length) '0' ++ Nat.toDigits 10 serial) := by
    simp [spell]
  rw [spelled, List.drop_left, Nat.ofDigitChars_append, Nat.ofDigitChars_replicate_zero,
    Nat.mul_zero, Nat.ofDigitChars_ten_toDigits]

theorem neverRepeats_counting : counting.NeverRepeats := by
  intro first second same
  have spelled : spell first = spell second := same
  rw [← ofDigitChars_spell first, ← ofDigitChars_spell second, spelled]

end StepIds
end MotionBlocks
