import MotionBlocks.Proofs.Forest.Refusals
import MotionBlocks.Proofs.Rebuilding.Layout

namespace MotionBlocks

/-!
# All of an edit or nothing

The state of an edit outlives a refusal, and most steps of an edit look up a block that
might be missing.  A lookup that failed after the first change would leave a block that
is linked in one direction only.

No lookup does.  Every edit looks first, and may be refused while it looks, and then works.
The blocks that the work looks up are named by links, and links of a forest name blocks
that are there.  An edit cannot go on after a failed lookup, so work that comes to its
end is work in which every lookup found its block.
-/

/-! ## Looking and working -/

/-- An edit that looks before it works.  Wherever it looks, it changes nothing.  In one
workspace its work is not refused, whatever it has seen there. -/
structure Edit.Phased {α : Type} (edit : Edit Unit) (look : Edit α) (work : α → Edit Unit)
    (workspace : Workspace) : Prop where
  split : edit = look >>= work
  looks : ∀ property, look.Keeps property
  succeeds : ∀ seen, (look.apply workspace).1 = .ok seen →
    ((work seen).apply workspace).1 = .ok ()

section

variable {α : Type} {edit : Edit Unit} {look : Edit α} {work : α → Edit Unit}
  {workspace : Workspace}

/-- What keeps every property changes nothing. -/
theorem Edit.apply_snd_of_keeps (looks : ∀ property, look.Keeps property)
    (workspace : Workspace) : (look.apply workspace).2 = workspace :=
  looks (· = workspace) workspace rfl

/-- An edit that looks before it works is refused while it looks or not at all. -/
theorem Edit.Phased.apply (phased : edit.Phased look work workspace) :
    edit.apply workspace = match (look.apply workspace).1 with
      | .ok seen => (.ok (), ((work seen).apply workspace).2)
      | .error error => (.error error, workspace) := by
  have same := Edit.apply_snd_of_keeps phased.looks workspace
  rw [phased.split, Edit.apply_bind]
  have succeeds := phased.succeeds
  generalize look.apply workspace = outcome at same succeeds ⊢
  rcases outcome with ⟨error | seen, _⟩
  · exact congrArg _ same
  · subst same
    exact Prod.ext (succeeds seen rfl) rfl

theorem Edit.Phased.unchanged (phased : edit.Phased look work workspace) {error : EditError}
    (refused : (edit.apply workspace).1 = .error error) :
    (edit.apply workspace).2 = workspace := by
  have applied := phased.apply
  cases seen : (look.apply workspace).1 with
  | error _ => simp only [applied, seen]
  | ok _ =>
    simp only [applied, seen] at refused
    cases refused

end

namespace Workspace

/-! ## Edits of one block -/

section

variable {workspace : Workspace}

/-- Work on a block that never looks another one up is never refused. -/
theorem phased_fetch {edit : Edit Unit} {id : BlockId} {work : Block → Edit Unit}
    (split : edit = Edit.fetch id >>= work)
    (succeeds : ∀ block, workspace.block? id = some block →
      ((work block).apply workspace).1 = .ok ()) :
    edit.Phased (Edit.fetch id) work workspace where
  split := split
  looks property := Edit.keeps_fetch id
  succeeds block seen := by
    cases found : workspace.block? id with
    | none => simp [Edit.apply_fetch, found] at seen
    | some present =>
      rw [apply_fetch_of_present found] at seen
      cases seen
      exact succeeds block found

/-- Setting a field and moving a block look that block up and no other one. -/
theorem phased_annotate (id : BlockId) (kind : ChangeKind) (change : Block → Block) :
    (Edit.update id change >>= fun _ => Edit.tell kind id).Phased (Edit.fetch id)
      (fun _ => do modify (revise id change); Edit.tell kind id) workspace :=
  phased_fetch (bind_assoc _ _ _) fun _ _ => rfl

theorem phased_disconnect (id : BlockId) :
    (disconnect id).Phased (Edit.fetch id)
      (fun block => if block.isTop then pure () else do modify (detach id); Edit.tell .move id)
      workspace :=
  phased_fetch rfl fun block _ => by split <;> rfl

end

/-! ## Deletions -/

/-- The work of a deletion: its successor takes the place of a block, then the block is
taken out with what it owns. -/
def takeOut (id : BlockId) (block : Block) : Edit Unit := do
  heal id block
  modify fun workspace => workspace.remove (id :: workspace.visited workspace.size block.owned)
  Edit.tell .delete id

theorem WellFormed.phased_delete {workspace : Workspace} (wellFormed : workspace.WellFormed)
    (id : BlockId) : (delete id).Phased (Edit.fetch id) (takeOut id) workspace :=
  phased_fetch rfl fun block found => by
    simp only [takeOut, Edit.apply_bind, wellFormed.apply_heal found, Edit.apply_modify,
      Edit.apply_tell]

/-! ## Connections -/

section

variable {workspace : Workspace} {above below : BlockId} {place : Place}

/-- A holder is found only for a block that can be connected. -/
theorem WellFormed.connectable_of_holder (wellFormed : workspace.WellFormed) {holder : Block}
    (seen : ((holderFor above place below).apply workspace).1 = .ok holder) :
    workspace.Connectable above below := by
  by_contra unconnectable
  rcases wellFormed.apply_checkConnectable_of_not unconnectable with ⟨error, -, refused⟩
  simp [holderFor, Edit.apply_bind, refused] at seen

theorem WellFormed.phased_connect (wellFormed : workspace.WellFormed) (above : BlockId)
    (place : Place) (below : BlockId) :
    (connect above place below).Phased (holderFor above place below)
      (fun holder =>
        if holder.child? place = some below then pure () else relink above place below)
      workspace where
  split := connect_eq above place below
  looks _ := keeps_holderFor above place below
  succeeds holder seen := by
    split
    · rfl
    · rw [wellFormed.apply_relink place (wellFormed.connectable_of_holder seen)]

/-! ## Requests -/

theorem WellFormed.run_of_refused (wellFormed : workspace.WellFormed) {command : Command}
    {error : EditError} (refused : command.verdict workspace = .error error) :
    command.run workspace = workspace := by
  cases command with
  | setField id name value => exact (phased_annotate id .field _).unchanged refused
  | move id position => exact (phased_annotate id .move _).unchanged refused
  | connectNext id next => exact (wellFormed.phased_connect id .next next).unchanged refused
  | connectValue id slot child =>
    exact (wellFormed.phased_connect id (.slot slot) child).unchanged refused
  | connectBody id child => exact (wellFormed.phased_connect id .body child).unchanged refused
  | disconnect id => exact (phased_disconnect id).unchanged refused
  | delete id => exact (wellFormed.phased_delete id).unchanged refused
  | rebuild program =>
    rw [Command.verdict, (rebuild_flat workspace program).1] at refused
    cases refused
  | _ => cases refused

end

/-- Whatever has been asked of a new workspace, a request that is refused leaves it as it
was, with all its blocks and links, the next identifier, the origin and what observers have
been told.  Connections and deletions are refused before their first change or not at all:
no block that they look up later is missing. -/
theorem refused_changes_nothing (commands : List Command) :
    let workspace := empty.after commands
    (∀ (command : Command) (error : EditError), command.verdict workspace = .error error →
      command.run workspace = workspace) ∧
    (∀ (above : BlockId) (place : Place) (below : BlockId),
      (connect above place below).Phased (holderFor above place below)
        (fun holder =>
          if holder.child? place = some below then pure () else relink above place below)
        workspace) ∧
    ∀ id, (delete id).Phased (Edit.fetch id) (takeOut id) workspace :=
  have wellFormed := wellFormed_after commands
  ⟨fun _ _ refused => wellFormed.run_of_refused refused, wellFormed.phased_connect,
    wellFormed.phased_delete⟩

/-- The pause cannot hold the start block that it lies below, and there is no fourth block to
delete.  The pause may be moved behind the start block, in front of the loop that follows
there. -/
theorem refused_changes_nothing_loopingPause :
    let workspace := empty.after loopingPause
    let around : Command := .connectNext (.numbered 2) (.numbered 0)
    let absent : Command := .delete (.numbered 3)
    (around.verdict workspace = .error (.cycle (.numbered 2) (.numbered 0)) ∧
      around.run workspace = workspace) ∧
    (absent.verdict workspace = .error (.blockNotFound (.numbered 3)) ∧
      absent.run workspace = workspace) ∧
    (workspace.links.child (.numbered 0) .next = some (.numbered 1) ∧
      ((relink (.numbered 0) .next (.numbered 2)).apply workspace).1 = .ok ()) := by
  intro workspace around absent
  rcases refused_changes_nothing loopingPause with ⟨unchanged, connects, -⟩
  have cyclic : around.verdict workspace = .error (.cycle (.numbered 2) (.numbered 0)) := by
    decide +kernel
  have missing : absent.verdict workspace = .error (.blockNotFound (.numbered 3)) := by
    decide +kernel
  have follows : workspace.links.child (.numbered 0) .next = some (.numbered 1) := by
    decide +kernel
  refine ⟨⟨cyclic, unchanged _ _ cyclic⟩, ⟨missing, unchanged _ _ missing⟩, follows, ?_⟩
  have looked : ((holderFor (.numbered 0) .next (.numbered 2)).apply workspace).1.toOption.map
      (·.child? .next) = some (some (.numbered 1)) := by
    decide +kernel
  have works := (connects (.numbered 0) .next (.numbered 2)).succeeds
  cases seen : ((holderFor (.numbered 0) .next (.numbered 2)).apply workspace).1 with
  | error _ => simp [seen, Except.toOption] at looked
  | ok holder =>
    have held : holder.child? .next = some (.numbered 1) := by
      simpa [seen, Except.toOption] using looked
    simpa [held] using works holder seen

end Workspace
end MotionBlocks
