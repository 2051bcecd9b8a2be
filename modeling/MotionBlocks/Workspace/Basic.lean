import MotionBlocks.Registry
import MotionBlocks.Workspace.Change
import MotionBlocks.Workspace.Store

namespace MotionBlocks

/-!
# The workspace

The blocks of the editor and those who watch them.  Observers do not act while
the workspace changes.  What the host's observers are told is collected, and
what the session is told waits in its inbox.
-/

structure Workspace where
  store : BlockStore
  /-- The origin that changes are marked with from now on. -/
  origin : Origin
  observers : Registry Audience
  /-- What the host's observers have been told, in order. -/
  deliveries : Array Delivery
  /-- The changes that the session has not looked at. -/
  inbox : Array Change

namespace Workspace

def empty : Workspace where
  store := .empty
  origin := .interactive
  observers := .empty
  deliveries := #[]
  inbox := #[]

def block? (workspace : Workspace) (id : BlockId) : Option Block :=
  workspace.store.get? id

/-- All blocks in the order of creation. -/
def blocks (workspace : Workspace) : List (BlockId × Block) :=
  workspace.store.toList

def size (workspace : Workspace) : Nat :=
  workspace.store.size

def isEmpty (workspace : Workspace) : Bool :=
  workspace.size == 0

/-- The blocks that hang from no other, in the order of creation. -/
def tops (workspace : Workspace) : List (BlockId × Block) :=
  workspace.blocks.filter fun (_, block) => block.isTop

/-! ## Observers -/

/-- Registers an observer and gives its number. -/
def subscribe (audience : Audience) (workspace : Workspace) : Nat × Workspace :=
  let (number, observers) := workspace.observers.register audience
  (number, { workspace with observers })

/-- Removes an observer and tells whether it was there. -/
def unsubscribe (number : Nat) (workspace : Workspace) : Bool × Workspace :=
  let (found, observers) := workspace.observers.remove number
  (found, { workspace with observers })

/-- Hands out what the host's observers were told since the last time. -/
def takeDeliveries (workspace : Workspace) : Array Delivery × Workspace :=
  (workspace.deliveries, { workspace with deliveries := #[] })

/-- Hands out the changes that wait for the session. -/
def takeInbox (workspace : Workspace) : Array Change × Workspace :=
  (workspace.inbox, { workspace with inbox := #[] })

/-- Tells one observer of a change. -/
def deliver (change : Change) (workspace : Workspace) (observer : Nat × Audience) : Workspace :=
  match observer with
  | (number, .host) =>
    { workspace with deliveries := workspace.deliveries.push ⟨number, change⟩ }
  | (_, .session) => { workspace with inbox := workspace.inbox.push change }

/-- Tells every observer of a change, in the order of their registration. -/
def announce (kind : ChangeKind) (block : BlockId) (workspace : Workspace) : Workspace :=
  workspace.observers.entries.foldl (deliver ⟨kind, block, workspace.origin⟩) workspace

/-- Sets the origin of later changes and gives the one before. -/
def setOrigin (origin : Origin) (workspace : Workspace) : Origin × Workspace :=
  (workspace.origin, { workspace with origin })

/-- Runs an action whose changes are marked with an origin, and sets the origin
back whatever the action did to it. -/
def withOrigin {α : Type} (origin : Origin) (action : Workspace → α × Workspace)
    (workspace : Workspace) : α × Workspace :=
  let (result, changed) := action { workspace with origin }
  (result, { changed with origin := workspace.origin })

/-! ## Looking along the links -/

/-- The blocks met from a stack of starting points along all links, each
before what hangs from it, up to a number of visits. -/
def visited (workspace : Workspace) : Nat → List BlockId → List BlockId
  | 0, _ => []
  | _, [] => []
  | visits + 1, id :: waiting =>
    let children :=
      match workspace.block? id with
      | some block => block.children
      | none => []
    id :: workspace.visited visits (children ++ waiting)

/-- Whether a block hangs from another one by any number of links, or is that
block.  One visit for each block suffices, because links form a forest. -/
def reaches (workspace : Workspace) (root target : BlockId) : Bool :=
  (workspace.visited (workspace.size + 1) [root]).contains target

/-- The last block of a chain, looking no further than a number of steps. -/
def lastWithin (workspace : Workspace) : Nat → BlockId → BlockId
  | 0, id => id
  | steps + 1, id =>
    match (workspace.block? id).bind (·.next) with
    | some next => workspace.lastWithin steps next
    | none => id

/-- The last block of the chain that a block starts. -/
def chainEnd (workspace : Workspace) (head : BlockId) : BlockId :=
  workspace.lastWithin workspace.size head

end Workspace
end MotionBlocks
