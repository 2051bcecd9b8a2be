import MotionBlocks.Workspace.Basic

namespace MotionBlocks

/-!
# Editing the workspace

The changes that a host may make.  An edit either goes through or is refused
with a reason.  Edits run as state transformers whose state outlives a refusal,
so that a refused edit leaves the workspace as it was is a fact about them and
not a consequence of their type.

Links are kept in both directions.  A connection first takes the newcomer from
wherever it was, then links it in, and then finds a place for whatever it
displaced: a displaced chain goes behind the newcomer's own chain, a displaced
value becomes a top block.
-/

/-- Why an edit is refused. -/
inductive EditError where
  | blockNotFound (id : BlockId)
  | notAContainer (id : BlockId) (kind : BlockKind)
  | cycle (parent child : BlockId)
  | selfConnection (id : BlockId)
deriving DecidableEq, Repr

namespace EditError

def message : EditError → String
  | .blockNotFound id => "block not found: " ++ id.text
  | .notAContainer id kind => "block " ++ id.text ++ " (" ++ kind.name ++ ") has no statement slot"
  | .cycle parent child =>
    "connecting " ++ child.text ++ " under " ++ parent.text ++ " would create a cycle"
  | .selfConnection id => "block " ++ id.text ++ " cannot be connected to itself"

end EditError

/-- A change of the workspace that may be refused. -/
abbrev Edit (α : Type) := ExceptT EditError (StateM Workspace) α

namespace Workspace

/-! ## Changes that cannot be refused -/

/-- Changes a block if it is there. -/
def revise (id : BlockId) (change : Block → Block) (workspace : Workspace) : Workspace :=
  { workspace with store := workspace.store.modify id change }

/-- Changes the block that a link names, if it names one. -/
def reviseLinked (link : Option BlockId) (change : Block → Block) (workspace : Workspace) :
    Workspace :=
  match link with
  | none => workspace
  | some id => workspace.revise id change

/-- Adds a block and gives its identifier. -/
def create (kind : BlockKind) (workspace : Workspace) : BlockId × Workspace :=
  let id := workspace.store.nextId
  (id, { workspace with store := workspace.store.push (.ofKind kind) }.announce .create id)

/-- Takes a block and what hangs from it off its place, leaving a gap there. -/
def detach (id : BlockId) (workspace : Workspace) : Workspace :=
  match workspace.block? id with
  | none => workspace
  | some block =>
    workspace.revise id (fun block => { block with previous := none, parent := none })
      |>.reviseLinked block.previous (fun before => { before with next := none })
      |>.reviseLinked block.parent (fun owner =>
        { owner with
          body := if owner.body = some id then none else owner.body
          slots := owner.slots.keep (· != id) })

/-- Takes blocks out, whatever is linked to them. -/
def remove (doomed : List BlockId) (workspace : Workspace) : Workspace :=
  { workspace with store := doomed.foldl BlockStore.erase workspace.store }

/-- Deletes every block, telling of the top blocks only. -/
def clear (workspace : Workspace) : Workspace :=
  workspace.tops.foldl (fun cleared (id, _) => cleared.announce .delete id)
    { workspace with store := workspace.store.wipe }

end Workspace

namespace Edit

/-- Runs an edit; the workspace comes back also when it is refused. -/
def apply {α : Type} (edit : Edit α) (workspace : Workspace) : Except EditError α × Workspace :=
  StateT.run (ExceptT.run edit) workspace

/-- The block with an identifier. -/
def fetch (id : BlockId) : Edit Block := do
  match (← get).block? id with
  | some block => return block
  | none => throw (.blockNotFound id)

/-- Changes a block that has to be there. -/
def update (id : BlockId) (change : Block → Block) : Edit Unit := do
  let _ ← fetch id
  modify (Workspace.revise id change)

/-- Tells the observers. -/
def tell (kind : ChangeKind) (id : BlockId) : Edit Unit :=
  modify (Workspace.announce kind id)

/-! ## How edits run -/

section

variable {α β : Type}

@[simp] theorem apply_pure (value : α) (workspace : Workspace) :
    apply (pure value) workspace = (.ok value, workspace) := rfl

@[simp] theorem apply_throw (error : EditError) (workspace : Workspace) :
    apply (throw error : Edit α) workspace = (.error error, workspace) := rfl

@[simp] theorem apply_get (workspace : Workspace) :
    apply (get : Edit Workspace) workspace = (.ok workspace, workspace) := rfl

@[simp] theorem apply_modify (change : Workspace → Workspace) (workspace : Workspace) :
    apply (modify change : Edit Unit) workspace = (.ok (), change workspace) := rfl

@[simp] theorem apply_modifyGet (change : Workspace → α × Workspace) (workspace : Workspace) :
    apply (modifyGet change : Edit α) workspace =
      (.ok (change workspace).1, (change workspace).2) := rfl

/-- A refusal ends an edit, and the workspace stays as it is then. -/
theorem apply_bind (first : Edit α) (next : α → Edit β) (workspace : Workspace) :
    apply (first >>= next) workspace =
      match apply first workspace with
      | (.ok value, changed) => apply (next value) changed
      | (.error error, changed) => (.error error, changed) := by
  simp only [apply, ExceptT.run_bind, StateT.run_bind]
  rcases StateT.run (ExceptT.run first) workspace with ⟨_ | _, _⟩ <;> rfl

theorem apply_fetch (id : BlockId) (workspace : Workspace) :
    apply (fetch id) workspace =
      match workspace.block? id with
      | some block => (.ok block, workspace)
      | none => (.error (.blockNotFound id), workspace) := by
  simp only [fetch, apply_bind, apply_get]
  cases workspace.block? id <;> rfl

theorem apply_update (id : BlockId) (change : Block → Block) (workspace : Workspace) :
    apply (update id change) workspace =
      match workspace.block? id with
      | some _ => (.ok (), workspace.revise id change)
      | none => (.error (.blockNotFound id), workspace) := by
  simp only [update, apply_bind, apply_fetch]
  cases workspace.block? id <;> rfl

@[simp] theorem apply_tell (kind : ChangeKind) (id : BlockId) (workspace : Workspace) :
    apply (tell kind id) workspace = (.ok (), workspace.announce kind id) := rfl

end

end Edit

namespace Workspace

/-! ## Edits -/

def setField (id : BlockId) (name : String) (value : FieldValue) : Edit Unit := do
  Edit.update id fun block => { block with fields := block.fields.put name value }
  Edit.tell .field id

def move (id : BlockId) (position : Position) : Edit Unit := do
  Edit.update id fun block => { block with position := some position }
  Edit.tell .move id

/-- Refuses a connection between a block and itself, with a missing block, or
from inside the subtree of the newcomer. -/
def checkConnectable (parent child : BlockId) : Edit Unit := do
  if parent = child then throw (.selfConnection parent)
  let _ ← Edit.fetch parent
  let _ ← Edit.fetch child
  if (← get).reaches child parent then throw (.cycle parent child)

/-- Puts a chain that followed a block behind another one. -/
def appendChain (head displaced : BlockId) : Edit Unit := do
  let last := (← get).chainEnd head
  Edit.update last fun block => { block with next := some displaced }
  Edit.update displaced fun block => { block with previous := some last }

/-- Puts the nested chain of a loop behind another one, so that it leaves the
loop. -/
def appendBody (head displaced : BlockId) : Edit Unit := do
  let last := (← get).chainEnd head
  Edit.update displaced fun block => { block with parent := none, previous := some last }
  Edit.update last fun block => { block with next := some displaced }

/-- Makes a block the successor of another one.  A successor that was there
follows the end of the newcomer's chain. -/
def connectNext (id next : BlockId) : Edit Unit := do
  checkConnectable id next
  if (← Edit.fetch id).next = some next then
    return
  else
    modify (detach next)
    let displaced := (← Edit.fetch id).next
    Edit.update id fun block => { block with next := some next }
    Edit.update next fun block => { block with previous := some id }
    match displaced with
    | none => pure ()
    | some displaced => appendChain next displaced
    Edit.tell .move next

/-- Plugs a block into a value slot.  A block that was there becomes a top
block. -/
def connectValue (id : BlockId) (slot : String) (child : BlockId) : Edit Unit := do
  checkConnectable id child
  if (← Edit.fetch id).slots.get? slot = some child then
    return
  else
    modify (detach child)
    let bumped := (← Edit.fetch id).slots.get? slot
    Edit.update id fun block => { block with slots := block.slots.put slot child }
    Edit.update child fun block => { block with parent := some id }
    match bumped with
    | none => pure ()
    | some bumped =>
      Edit.update bumped fun block => { block with parent := none }
      Edit.tell .move bumped
    Edit.tell .move child

/-- Makes a block the first of a loop's nested chain.  A chain that was there
follows the end of the newcomer's chain. -/
def connectBody (id child : BlockId) : Edit Unit := do
  checkConnectable id child
  let owner ← Edit.fetch id
  if !owner.kind.hasBody then
    throw (.notAContainer id owner.kind)
  else if owner.body = some child then
    return
  else
    modify (detach child)
    let displaced := (← Edit.fetch id).body
    Edit.update id fun block => { block with body := some child }
    Edit.update child fun block => { block with parent := some id }
    match displaced with
    | none => pure ()
    | some displaced => appendBody child displaced
    Edit.tell .move child

/-- Takes a block with what follows it off its place, so that it becomes a top
block. -/
def disconnect (id : BlockId) : Edit Unit := do
  if (← Edit.fetch id).isTop then
    return
  else
    modify (detach id)
    Edit.tell .move id

/-- Closes the gap that a block will leave: its successor takes its place. -/
def heal (id : BlockId) (block : Block) : Edit Unit := do
  match block.next with
  | none => pure ()
  | some next => Edit.update next fun successor => { successor with previous := block.previous }
  match block.previous, block.parent with
  | some previous, _ => Edit.update previous fun before => { before with next := block.next }
  | none, none => pure ()
  | none, some parent =>
    if (← Edit.fetch parent).body = some id then
      Edit.update parent fun owner => { owner with body := block.next }
      match block.next with
      | none => pure ()
      | some next => Edit.update next fun successor => { successor with parent := some parent }
    else
      Edit.update parent fun owner => { owner with slots := owner.slots.keep (· != id) }

/-- Deletes a block with everything plugged into it.  Its successor is not
plugged into it and stays. -/
def delete (id : BlockId) : Edit Unit := do
  let block ← Edit.fetch id
  heal id block
  modify fun workspace => workspace.remove (id :: workspace.visited workspace.size block.owned)
  Edit.tell .delete id

end Workspace
end MotionBlocks
