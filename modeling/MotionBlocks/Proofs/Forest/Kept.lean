import MotionBlocks.Proofs.Forest.Delete
import MotionBlocks.Rebuild

namespace MotionBlocks

/-!
# What edits keep

An edit may be refused half way through, so what it keeps is followed through
its steps and holds wherever it ends.  Two kinds of properties are kept: that
the links are sound, which takes an edit as a whole, and what does not depend on
the contents of blocks at all, which every single step keeps.
-/

/-! ## Properties that edits keep -/

/-- An edit keeps a property of the workspace, also when it is refused. -/
def Edit.Keeps {α : Type} (property : Workspace → Prop) (edit : Edit α) : Prop :=
  ∀ workspace, property workspace → property (edit.apply workspace).2

section

variable {α β : Type} {property : Workspace → Prop}

theorem Edit.keeps_pure (value : α) : (pure value : Edit α).Keeps property :=
  fun _ holds => holds

theorem Edit.keeps_get : (get : Edit Workspace).Keeps property :=
  fun _ holds => holds

theorem Edit.keeps_throw (error : EditError) : (throw error : Edit α).Keeps property :=
  fun _ holds => holds

theorem Edit.keeps_tell (told : ∀ kind id workspace, property workspace →
    property (Workspace.announce kind id workspace)) (kind : ChangeKind) (id : BlockId) :
    (Edit.tell kind id).Keeps property :=
  fun workspace holds => told kind id workspace holds

theorem Edit.keeps_fetch (id : BlockId) : (Edit.fetch id).Keeps property := by
  intro workspace holds
  rw [Edit.apply_fetch]
  cases workspace.block? id <;> exact holds

theorem Edit.Keeps.bind {first : Edit α} {next : α → Edit β} (firstKeeps : first.Keeps property)
    (nextKeeps : ∀ value, (next value).Keeps property) : (first >>= next).Keeps property := by
  intro workspace holds
  have middle := firstKeeps workspace holds
  rw [Edit.apply_bind]
  generalize first.apply workspace = outcome at middle ⊢
  rcases outcome with ⟨error | value, changed⟩
  · exact middle
  · exact nextKeeps value changed middle

theorem Edit.keeps_modify {change : Workspace → Workspace}
    (kept : ∀ workspace, property workspace → property (change workspace)) :
    (modify change : Edit Unit).Keeps property :=
  fun workspace holds => kept workspace holds

theorem Edit.keeps_modifyGet {change : Workspace → α × Workspace}
    (kept : ∀ workspace, property workspace → property (change workspace).2) :
    (modifyGet change : Edit α).Keeps property :=
  fun workspace holds => kept workspace holds

end

namespace Workspace

/-! ## Edits that only look -/

section

variable {property : Workspace → Prop}

theorem keeps_checkConnectable (above below : BlockId) :
    (checkConnectable above below).Keeps property := by
  -- The rest of the check follows in both branches, after a refusal in vain.
  have looked : (do
      let _ ← Edit.fetch above
      let _ ← Edit.fetch below
      if (← get).reaches below above then throw (.cycle above below) : Edit Unit).Keeps
        property := by
    refine (Edit.keeps_fetch _).bind fun _ => (Edit.keeps_fetch _).bind fun _ =>
      Edit.keeps_get.bind fun workspace => ?_
    split
    · exact Edit.keeps_throw _
    · exact Edit.keeps_pure _
  unfold checkConnectable
  split
  · exact (Edit.keeps_throw _).bind fun _ => looked
  · exact looked

theorem keeps_holderFor (above : BlockId) (place : Place) (below : BlockId) :
    (holderFor above place below).Keeps property := by
  refine (keeps_checkConnectable above below).bind fun _ => (Edit.keeps_fetch above).bind
    fun holder => ?_
  split
  · exact (Edit.keeps_throw _).bind fun _ => Edit.keeps_pure holder
  · exact Edit.keeps_pure holder

end

/-! ## What a rebuild keeps -/

/-- What a rebuild is made of keeps a property. -/
structure KeptByEdits (property : Workspace → Prop) : Prop where
  create : ∀ kind workspace, property workspace → property (Workspace.create kind workspace).2
  clear : ∀ workspace, property workspace → property workspace.clear
  setField : ∀ id name value, (setField id name value).Keeps property
  move : ∀ id position, (move id position).Keeps property
  connectNext : ∀ id next, (connectNext id next).Keeps property
  connectValue : ∀ id slot child, (connectValue id slot child).Keeps property

section

variable {property : Workspace → Prop}

theorem KeptByEdits.attachLiteral (kept : KeptByEdits property) (owner : BlockId) (slot : String)
    (value : Float) : (attachLiteral owner slot value).Keeps property :=
  (Edit.keeps_modifyGet (kept.create _)).bind fun _ =>
    (kept.setField _ _ _).bind fun _ => kept.connectValue _ _ _

theorem KeptByEdits.addMotion (kept : KeptByEdits property) (motion : Motion) :
    (addMotion motion).Keeps property := by
  have literal := kept.attachLiteral
  unfold Workspace.addMotion
  cases motion.kind.family with
  | move =>
    exact (Edit.keeps_modifyGet (kept.create _)).bind fun _ => (kept.setField _ _ _).bind fun _ =>
      (literal _ _ _).bind fun _ => (literal _ _ _).bind fun _ => Edit.keeps_pure _
  | rotate =>
    refine (Edit.keeps_modifyGet (kept.create _)).bind fun _ => (kept.setField _ _ _).bind fun _ =>
      (literal _ _ _).bind fun _ => ?_
    cases motion.distance with
    | some radians =>
      exact (kept.setField _ _ _).bind fun _ => (literal _ _ _).bind fun _ => Edit.keeps_pure _
    | none => exact (literal _ _ _).bind fun _ => Edit.keeps_pure _
  | scale =>
    exact (Edit.keeps_modifyGet (kept.create _)).bind fun _ => (kept.setField _ _ _).bind fun _ =>
      (literal _ _ _).bind fun _ => (literal _ _ _).bind fun _ => Edit.keeps_pure _
  | pause =>
    exact (Edit.keeps_modifyGet (kept.create _)).bind fun _ =>
      (literal _ _ _).bind fun _ => Edit.keeps_pure _

theorem KeptByEdits.addChain (kept : KeptByEdits property) (previous : BlockId)
    (motions : List Motion) : (addChain previous motions).Keeps property := by
  induction motions generalizing previous with
  | nil => exact Edit.keeps_pure _
  | cons motion motions ih =>
    exact (kept.addMotion motion).bind fun _ => (kept.connectNext _ _).bind fun _ => ih _

theorem KeptByEdits.replaceWith (kept : KeptByEdits property) (program : Program) :
    (replaceWith program).Keeps property :=
  (Edit.keeps_modify kept.clear).bind fun _ =>
    (Edit.keeps_modifyGet (kept.create _)).bind fun _ =>
      (kept.move _ _).bind fun _ => kept.addChain _ _

end

/-! ## Sound links are kept -/

section

variable {workspace : Workspace}

theorem WellFormed.announce (wellFormed : workspace.WellFormed) (kind : ChangeKind) (id : BlockId) :
    (workspace.announce kind id).WellFormed :=
  wellFormed.congr fun other => block?_announce kind id other workspace

theorem WellFormed.of_no_blocks (absent : ∀ id, workspace.block? id = none) :
    workspace.WellFormed where
  sound := by
    have unheld : ∀ above below, ¬ workspace.links.Holds above below := by
      rintro above below ⟨place, held⟩
      simp [links, absent] at held
    constructor
    · simp [links, absent]
    · simp [links, absent]
    · simp [links, absent]
    · simp [links, absent]
    · exact ⟨fun id => Acc.intro id fun above held => absurd held (unheld above id)⟩
  regular := by
    intro id block found
    simp [absent] at found

/-- Fields and positions are no links. -/
theorem WellFormed.revise (wellFormed : workspace.WellFormed) (id : BlockId)
    {change : Block → Block} (same : ∀ block, change block =
      { block with fields := (change block).fields, position := (change block).position }) :
    (workspace.revise id change).WellFormed := by
  have child : ∀ block place, (change block).child? place = block.child? place := by
    intro block place
    rw [same block]
    cases place <;> rfl
  have previous : ∀ block, (change block).previous = block.previous := by
    intro block
    rw [same block]
  have parent : ∀ block, (change block).parent = block.parent := by
    intro block
    rw [same block]
  have links : (workspace.revise id change).links = workspace.links := by
    ext other
    · rename_i place below
      simp only [Workspace.links, block?_revise]
      cases workspace.block? other <;> split <;> simp [child]
    · simp only [Workspace.links, block?_revise]
      cases workspace.block? other <;> split <;> simp [previous]
    · simp only [Workspace.links, block?_revise]
      cases workspace.block? other <;> split <;> simp [parent]
  refine ⟨links ▸ wellFormed.sound, ?_⟩
  intro other block found
  rw [block?_revise] at found
  split at found
  · rcases Option.map_eq_some_iff.mp found with ⟨old, there, rfl⟩
    have regular := wellFormed.regular there
    rw [same old]
    exact ⟨regular.loop_of_body, regular.distinct⟩
  · exact wellFormed.regular found

/-- A new block is linked to nothing. -/
theorem WellFormed.create (wellFormed : workspace.WellFormed) (kind : BlockKind) :
    (workspace.create kind).2.WellFormed := by
  have absent := workspace.block?_nextId
  have same : (workspace.create kind).2.links = workspace.links := by
    ext other
    · rename_i place below
      by_cases new : other = workspace.store.nextId
      · simp [links, block?_create, new, absent]
      · simp [links, block?_create, new]
    · by_cases new : other = workspace.store.nextId <;>
        simp [links, block?_create, new, absent, Block.ofKind]
    · by_cases new : other = workspace.store.nextId <;>
        simp [links, block?_create, new, absent, Block.ofKind]
  refine ⟨same ▸ wellFormed.sound, ?_⟩
  intro other block found
  rw [block?_create] at found
  split at found
  · rcases Option.some.inj found with rfl
    exact ⟨by simp [Block.ofKind], Table.distinct_empty⟩
  · exact wellFormed.regular found

theorem keeps_annotate (id : BlockId) (kind : ChangeKind) {change : Block → Block}
    (same : ∀ block, change block =
      { block with fields := (change block).fields, position := (change block).position }) :
    (Edit.update id change >>= fun _ => Edit.tell kind id).Keeps WellFormed := by
  refine Edit.Keeps.bind ?_ fun _ =>
    Edit.keeps_tell (fun kind id _ kept => kept.announce kind id) _ _
  intro workspace wellFormed
  rw [Edit.apply_update]
  cases workspace.block? id with
  | none => exact wellFormed
  | some block => exact wellFormed.revise id same

theorem keeps_setField (id : BlockId) (name : String) (value : FieldValue) :
    (setField id name value).Keeps WellFormed :=
  keeps_annotate id .field fun _ => rfl

theorem keeps_move (id : BlockId) (position : Position) : (move id position).Keeps WellFormed :=
  keeps_annotate id .move fun _ => rfl

theorem keeps_connect (above : BlockId) (place : Place) (below : BlockId) :
    (connect above place below).Keeps WellFormed := by
  intro workspace wellFormed
  by_cases connectable : workspace.Connectable above below
  · rcases Option.isSome_iff_exists.mp connectable.presentAbove with ⟨upper, found⟩
    rw [wellFormed.apply_connect connectable found]
    split
    · exact wellFormed
    · rename_i fit
      dsimp only
      split
      · exact wellFormed
      · refine (wellFormed.put connectable fun nested holder there => ?_).announce _ _
        cases there.symm.trans found
        exact (not_unfit_iff place upper.kind).mp fit nested
  · rcases wellFormed.apply_checkConnectable_of_not connectable with ⟨error, -, refused⟩
    rwa [apply_connect_of_refused refused]

theorem keeps_disconnect (id : BlockId) : (disconnect id).Keeps WellFormed := by
  refine Edit.Keeps.bind (Edit.keeps_fetch id) fun block => ?_
  split
  · exact Edit.keeps_pure _
  · exact (Edit.keeps_modify fun _ kept => kept.detach id).bind fun _ =>
      Edit.keeps_tell (fun kind id _ kept => kept.announce kind id) _ _

theorem keeps_delete (id : BlockId) : (delete id).Keeps WellFormed := by
  intro workspace wellFormed
  cases found : workspace.block? id with
  | none => simpa [delete, Edit.apply_bind, Edit.apply_fetch, found] using wellFormed
  | some block =>
    rw [wellFormed.apply_delete found]
    exact (wellFormed.remove_doomed found).announce _ _

theorem wellFormed_keptByEdits : KeptByEdits WellFormed where
  create := fun kind _ wellFormed => wellFormed.create kind
  clear := fun _ _ => .of_no_blocks (by simp)
  setField := keeps_setField
  move := keeps_move
  connectNext := fun id next => keeps_connect id .next next
  connectValue := fun id slot child => keeps_connect id (.slot slot) child

end

/-! ## No identifier is used twice -/

/-- A property that does not depend on what the blocks hold. -/
structure Lasting (property : Workspace → Prop) : Prop where
  create : ∀ kind workspace, property workspace → property (Workspace.create kind workspace).2
  clear : ∀ workspace, property workspace → property workspace.clear
  revise : ∀ id change workspace, property workspace → property (workspace.revise id change)
  remove : ∀ doomed workspace, property workspace → property (workspace.remove doomed)
  announce : ∀ kind id workspace, property workspace → property (workspace.announce kind id)

section

variable {property : Workspace → Prop}

theorem Lasting.update (lasting : Lasting property) (id : BlockId) (change : Block → Block) :
    (Edit.update id change).Keeps property :=
  (Edit.keeps_fetch id).bind fun _ => Edit.keeps_modify (lasting.revise id change)

theorem Lasting.tell (lasting : Lasting property) (kind : ChangeKind) (id : BlockId) :
    (Edit.tell kind id).Keeps property :=
  Edit.keeps_modify (lasting.announce kind id)

theorem Lasting.detach (lasting : Lasting property) (id : BlockId) :
    (modify (detach id) : Edit Unit).Keeps property := by
  refine Edit.keeps_modify fun workspace holds => ?_
  have linked : ∀ link change workspace, property workspace →
      property (workspace.reviseLinked link change) := by
    intro link change workspace holds
    cases link with
    | none => exact holds
    | some other => exact lasting.revise other change workspace holds
  unfold Workspace.detach
  cases workspace.block? id with
  | none => exact holds
  | some block => exact linked _ _ _ (linked _ _ _ (lasting.revise _ _ _ holds))

theorem Lasting.appendChain (lasting : Lasting property) (head displaced : BlockId) :
    (appendChain head displaced).Keeps property :=
  Edit.keeps_get.bind fun _ => (lasting.update _ _).bind fun _ => lasting.update _ _

theorem Lasting.appendBody (lasting : Lasting property) (head displaced : BlockId) :
    (appendBody head displaced).Keeps property :=
  Edit.keeps_get.bind fun _ => (lasting.update _ _).bind fun _ => lasting.update _ _

theorem Lasting.settle (lasting : Lasting property) (place : Place) (below displaced : BlockId) :
    (settle place below displaced).Keeps property := by
  cases place with
  | next => exact lasting.appendChain below displaced
  | body => exact lasting.appendBody below displaced
  | slot name => exact (lasting.update _ _).bind fun _ => lasting.tell _ _

theorem Lasting.relink (lasting : Lasting property) (above : BlockId) (place : Place)
    (below : BlockId) : (relink above place below).Keeps property := by
  refine (lasting.detach below).bind fun _ => (Edit.keeps_fetch above).bind fun _ =>
    (lasting.update _ _).bind fun _ => (lasting.update _ _).bind fun _ => ?_
  split
  · exact lasting.tell _ _
  · exact (lasting.settle _ _ _).bind fun _ => lasting.tell _ _

theorem Lasting.connect (lasting : Lasting property) (above : BlockId) (place : Place)
    (below : BlockId) : (connect above place below).Keeps property := by
  rw [connect_eq]
  refine (keeps_holderFor above place below).bind fun holder => ?_
  split
  · exact Edit.keeps_pure _
  · exact lasting.relink above place below

theorem Lasting.disconnect (lasting : Lasting property) (id : BlockId) :
    (disconnect id).Keeps property := by
  refine (Edit.keeps_fetch id).bind fun _ => ?_
  split
  · exact Edit.keeps_pure _
  · exact (lasting.detach id).bind fun _ => lasting.tell _ _

theorem Lasting.heal (lasting : Lasting property) (id : BlockId) (block : Block) :
    (heal id block).Keeps property := by
  unfold Workspace.heal
  cases block.next with
  | none =>
    dsimp only
    split
    · exact lasting.update _ _
    · exact Edit.keeps_pure _
    · refine (Edit.keeps_fetch _).bind fun _ => ?_
      split
      · exact (lasting.update _ _).bind fun _ => Edit.keeps_pure _
      · exact lasting.update _ _
  | some next =>
    refine (lasting.update _ _).bind fun _ => ?_
    dsimp only
    split
    · exact lasting.update _ _
    · exact Edit.keeps_pure _
    · refine (Edit.keeps_fetch _).bind fun _ => ?_
      split
      · exact (lasting.update _ _).bind fun _ => lasting.update _ _
      · exact lasting.update _ _

theorem Lasting.delete (lasting : Lasting property) (id : BlockId) : (delete id).Keeps property :=
  (Edit.keeps_fetch id).bind fun block => (lasting.heal id block).bind fun _ =>
    (Edit.keeps_modify fun workspace holds => lasting.remove _ workspace holds).bind fun _ =>
      lasting.tell _ _

theorem Lasting.keptByEdits (lasting : Lasting property) : KeptByEdits property where
  create := lasting.create
  clear := lasting.clear
  setField := fun _ _ _ => (lasting.update _ _).bind fun _ => lasting.tell _ _
  move := fun _ _ => (lasting.update _ _).bind fun _ => lasting.tell _ _
  connectNext := fun id next => lasting.connect id .next next
  connectValue := fun id slot child => lasting.connect id (.slot slot) child

end

/-- The identifier was given out. -/
def GivenOut (id : BlockId) (workspace : Workspace) : Prop :=
  id.Before workspace.store.nextId

/-- The identifier was given out, and its block is gone. -/
def Spent (id : BlockId) (workspace : Workspace) : Prop :=
  GivenOut id workspace ∧ workspace.block? id = none

theorem nextId_remove (doomed : List BlockId) (workspace : Workspace) :
    (workspace.remove doomed).store.nextId = workspace.store.nextId := by
  unfold remove
  generalize workspace.store = store
  induction doomed generalizing store with
  | nil => rfl
  | cons id rest ih =>
    refine (ih _).trans ?_
    cases id <;> simp [BlockStore.erase, BlockStore.nextId]

theorem givenOut_lasting (id : BlockId) : Lasting (GivenOut id) where
  create := by
    intro kind workspace given
    unfold GivenOut create at *
    rw [announce_store]
    cases id with
    | named text => exact given
    | numbered serial =>
      simp only [BlockId.Before, BlockStore.nextId, BlockStore.push, Array.size_push] at given ⊢
      exact Nat.lt_succ_of_lt given
  clear := by
    intro workspace given
    unfold GivenOut at *
    rw [clear_store]
    simpa [BlockStore.nextId, BlockStore.wipe] using given
  revise := by
    intro other change workspace given
    cases other with
    | named text => exact given
    | numbered serial =>
      simpa [GivenOut, Workspace.revise, BlockStore.modify, BlockStore.nextId] using given
  remove := by
    intro doomed workspace given
    unfold GivenOut at *
    rwa [nextId_remove]
  announce := by
    intro kind other workspace given
    unfold GivenOut at *
    rwa [announce_store]

theorem spent_lasting (id : BlockId) : Lasting (Spent id) where
  create := by
    rintro kind workspace ⟨given, gone⟩
    refine ⟨(givenOut_lasting id).create kind workspace given, ?_⟩
    have old : id ≠ workspace.store.nextId := by
      rintro rfl
      exact Nat.lt_irrefl _ given
    rw [block?_create, if_neg old]
    exact gone
  clear := by
    rintro workspace ⟨given, -⟩
    exact ⟨(givenOut_lasting id).clear workspace given, block?_clear workspace id⟩
  revise := by
    rintro other change workspace ⟨given, gone⟩
    refine ⟨(givenOut_lasting id).revise other change workspace given, ?_⟩
    rw [block?_revise]
    simp [gone]
  remove := by
    rintro doomed workspace ⟨given, gone⟩
    refine ⟨(givenOut_lasting id).remove doomed workspace given, ?_⟩
    rw [block?_remove]
    simp [gone]
  announce := by
    rintro kind other workspace ⟨given, gone⟩
    exact ⟨(givenOut_lasting id).announce kind other workspace given, by simpa using gone⟩

/-- A block that is there has had its identifier given out. -/
theorem givenOut_of_isSome {workspace : Workspace} {id : BlockId}
    (present : (workspace.block? id).isSome) : GivenOut id workspace := by
  cases id with
  | named text => simp [block?, BlockStore.get?] at present
  | numbered serial =>
    by_contra beyond
    have outside : workspace.store.cells.size ≤ serial := Nat.le_of_not_lt beyond
    simp [block?, BlockStore.get?, outside] at present

end Workspace
end MotionBlocks
