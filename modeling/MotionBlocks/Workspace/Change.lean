import MotionBlocks.Block.Id

namespace MotionBlocks

/-!
# Changes

What the workspace tells its observers.  A change names one block, what
happened to it, and the origin that the workspace was set to at the time.  The
origin is advice: nothing that prevents feedback relies on it.
-/

inductive ChangeKind where
  | create
  | delete
  | move
  | field
deriving DecidableEq, Repr

/-- Whether a change touches the arrangement of blocks or a value in one. -/
inductive ChangeClass where
  | structural
  | value
deriving DecidableEq, Repr

/-- Who made a change. -/
inductive Origin where
  | interactive
  | programmatic
deriving DecidableEq, Repr

structure Change where
  kind : ChangeKind
  block : BlockId
  origin : Origin
deriving DecidableEq, Repr

namespace ChangeKind

def changeClass : ChangeKind → ChangeClass
  | .create | .delete | .move => .structural
  | .field => .value

end ChangeKind

namespace Change

def changeClass (change : Change) : ChangeClass :=
  change.kind.changeClass

end Change

/-- Who reads what an observer is told: the host, by the number of the
observer, or the session, which lets changes wait until it looks. -/
inductive Audience where
  | host
  | session
deriving DecidableEq, Repr

/-- A change as told to one observer of the host. -/
structure Delivery where
  observer : Nat
  change : Change
deriving DecidableEq, Repr

end MotionBlocks
