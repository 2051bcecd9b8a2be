import MotionBlocks.Proofs.Forest.AllOrNothing
import MotionBlocks.Proofs.Session.Silence

namespace MotionBlocks

/-!
# What observers hear

Every observer hears of every change once, all in the same order, and with the
origin that the workspace is set to.  A request either leaves the workspace as it
is and is heard by nobody, or it goes through and is heard by everybody.

Setting a field or a position is heard even if it was there already.  The other
requests are heard only if they change a block.  Deleting all blocks tells of top
blocks alone; that it is heard at all rests on the forest that the blocks form.
-/

/-! ## Numbers of registrations -/

namespace Registry

/-- No number is given out twice, and none that is still to come. -/
structure Numbered {α : Type} (registry : Registry α) : Prop where
  given : ∀ entry ∈ registry.entries, entry.1 < registry.next
  distinct : (registry.entries.map (·.1)).Nodup

section

variable {α : Type} {registry : Registry α}

theorem numbered_empty : (empty : Registry α).Numbered where
  given := by simp [empty]
  distinct := List.nodup_nil

theorem Numbered.register (numbered : registry.Numbered) (member : α) :
    (registry.register member).2.Numbered where
  given := by
    intro entry listed
    rcases List.mem_append.mp listed with old | new
    · exact Nat.lt_succ_of_lt (numbered.given entry old)
    · rw [List.mem_singleton.mp new]
      exact Nat.lt_succ_self registry.next
  distinct := by
    have fresh : registry.next ∉ registry.entries.map (·.1) := by
      intro listed
      rcases List.mem_map.mp listed with ⟨entry, old, same⟩
      exact (numbered.given entry old).ne same
    rw [Registry.register, List.map_append]
    exact List.nodup_append'.mpr
      ⟨numbered.distinct, List.nodup_singleton _, List.disjoint_singleton.mpr fresh⟩

theorem Numbered.remove (numbered : registry.Numbered) (number : Nat) :
    (registry.remove number).2.Numbered where
  given entry listed := numbered.given entry (List.mem_of_mem_filter listed)
  distinct := numbered.distinct.sublist (List.filter_sublist.map _)

end

end Registry

namespace Workspace

/-! ## Observers stay -/

section

variable {workspace : Workspace}

theorem observers_deliver (change : Change) (workspace : Workspace) (observer : Nat × Audience) :
    (workspace.deliver change observer).observers = workspace.observers := by
  rcases observer with ⟨_, audience⟩
  cases audience <;> rfl

theorem observers_announce (kind : ChangeKind) (id : BlockId) (workspace : Workspace) :
    (workspace.announce kind id).observers = workspace.observers := by
  unfold announce
  generalize (⟨kind, id, workspace.origin⟩ : Change) = change
  induction workspace.observers.entries generalizing workspace with
  | nil => rfl
  | cons observer rest ih => exact (ih _).trans (observers_deliver change workspace observer)

theorem foldl_announce {property : Workspace → Prop}
    (kept : ∀ kind id workspace, property workspace → property (workspace.announce kind id))
    (tops : List (BlockId × Block)) (holds : property workspace) :
    property (tops.foldl (fun cleared (id, _) => cleared.announce .delete id) workspace) := by
  induction tops generalizing workspace with
  | nil => exact holds
  | cons top rest ih => exact ih (kept .delete top.1 workspace holds)

theorem observers_lasting (observers : Registry Audience) :
    Lasting fun workspace => workspace.observers = observers where
  create _ _ same := (observers_announce _ _ _).trans same
  clear workspace same :=
    foldl_announce (fun kind id workspace => (observers_announce kind id workspace).trans)
      workspace.tops same
  revise _ _ _ same := same
  remove _ _ same := same
  announce _ _ _ same := (observers_announce _ _ _).trans same

/-- What does not depend on what blocks hold, nor on the origin of changes, survives
every request that changes blocks. -/
theorem Lasting.run {property : Workspace → Prop} (lasting : Lasting property)
    (ofOrigin : ∀ workspace origin, property workspace → property { workspace with origin })
    {command : Command} (mutates : command.mutates = true) (holds : property workspace) :
    property (command.run workspace) := by
  have kept := lasting.keptByEdits
  cases command with
  | create kind => exact kept.create kind workspace holds
  | setField id name value => exact kept.setField id name value workspace holds
  | move id position => exact kept.move id position workspace holds
  | connectNext id next => exact kept.connectNext id next workspace holds
  | connectValue id slot child => exact kept.connectValue id slot child workspace holds
  | connectBody id child => exact lasting.connect id .body child workspace holds
  | disconnect id => exact lasting.disconnect id workspace holds
  | delete id => exact lasting.delete id workspace holds
  | clear => exact kept.clear workspace holds
  | rebuild program =>
    rw [Command.run, rebuild_eq]
    exact ofOrigin _ _ (kept.replaceWith program _ (ofOrigin workspace _ holds))
  | _ => cases mutates

/-- A request that changes blocks does not touch who observes. -/
theorem observers_run {command : Command} (mutates : command.mutates = true) :
    (command.run workspace).observers = workspace.observers :=
  (observers_lasting workspace.observers).run (fun _ _ same => same) mutates rfl

theorem numbered_run (numbered : workspace.observers.Numbered) (command : Command) :
    (command.run workspace).observers.Numbered := by
  cases mutates : command.mutates with
  | true => rwa [observers_run mutates]
  | false =>
    cases command with
    | subscribe audience => exact numbered.register audience
    | unsubscribe number => exact numbered.remove number
    | setOrigin | takeDeliveries | takeInbox => exact numbered
    | _ => cases mutates

theorem numbered_after (numbered : workspace.observers.Numbered) (commands : List Command) :
    (workspace.after commands).observers.Numbered := by
  induction commands generalizing workspace with
  | nil => exact numbered
  | cons command commands ih => exact ih (numbered_run numbered command)

end

/-! ## Being told -/

/-- The numbers of the host's observers among some observers. -/
def hostsAmong (observers : List (Nat × Audience)) : List Nat :=
  (observers.filter fun (_, audience) => audience == .host).map (·.1)

/-- How many of some observers let changes wait for a session. -/
def sessionsAmong (observers : List (Nat × Audience)) : Nat :=
  observers.countP fun (_, audience) => audience == .session

def hosts (workspace : Workspace) : List Nat :=
  hostsAmong workspace.observers.entries

def sessions (workspace : Workspace) : Nat :=
  sessionsAmong workspace.observers.entries

/-- What the observer with a number has been told. -/
def heard (workspace : Workspace) (number : Nat) : List Change :=
  workspace.deliveries.toList.filterMap fun delivery =>
    if delivery.observer = number then some delivery.change else none

/-- Everybody has been told of some changes, of one after the other and in the order
of registration, and all of them had the origin of the workspace. -/
structure Informed (told : List Change) (before after : Workspace) : Prop where
  observers : after.observers = before.observers
  origin : after.origin = before.origin
  tagged : ∀ change ∈ told, change.origin = before.origin
  deliveries : after.deliveries.toList =
    before.deliveries.toList ++ told.flatMap fun change => before.hosts.map (⟨·, change⟩)
  inbox : after.inbox.toList =
    before.inbox.toList ++ told.flatMap (List.replicate before.sessions)

section

variable {workspace middle after : Workspace} {told later : List Change}

theorem Informed.trans (first : Informed told workspace middle)
    (second : Informed later middle after) : Informed (told ++ later) workspace after where
  observers := second.observers.trans first.observers
  origin := second.origin.trans first.origin
  tagged := List.forall_mem_append.mpr
    ⟨first.tagged, fun change listed => (second.tagged change listed).trans first.origin⟩
  deliveries := by
    have hosts : middle.hosts = workspace.hosts := by
      rw [hosts, first.observers, hosts]
    rw [second.deliveries, first.deliveries, hosts, List.flatMap_append, List.append_assoc]
  inbox := by
    have sessions : middle.sessions = workspace.sessions := by
      rw [sessions, first.observers, sessions]
    rw [second.inbox, first.inbox, sessions, List.flatMap_append, List.append_assoc]

/-- Who changes nothing but the store tells nobody. -/
theorem informed_of_store (store : BlockStore) :
    Informed [] workspace { workspace with store } :=
  ⟨rfl, rfl, by simp, by simp, by simp⟩

theorem informed_refl (workspace : Workspace) : Informed [] workspace workspace :=
  informed_of_store workspace.store

/-- One after the other is told, some at once and the sessions later. -/
theorem foldl_deliver (change : Change) (observers : List (Nat × Audience))
    (workspace : Workspace) :
    let after := observers.foldl (deliver change) workspace
    after.origin = workspace.origin ∧
      after.deliveries.toList =
        workspace.deliveries.toList ++ (hostsAmong observers).map (⟨·, change⟩) ∧
      after.inbox.toList =
        workspace.inbox.toList ++ List.replicate (sessionsAmong observers) change := by
  induction observers generalizing workspace with
  | nil => simp [hostsAmong, sessionsAmong]
  | cons observer rest ih =>
    rcases observer with ⟨number, audience⟩
    rcases ih (workspace.deliver change (number, audience)) with ⟨origin, deliveries, inbox⟩
    refine ⟨origin.trans ?_, deliveries.trans ?_, inbox.trans ?_⟩ <;> cases audience
    · rfl
    · rfl
    · simp [deliver, hostsAmong]
    · simp [deliver, hostsAmong]
    · simp [deliver, sessionsAmong]
    · simp [deliver, sessionsAmong, List.replicate_succ]

theorem informed_announce (kind : ChangeKind) (id : BlockId) (workspace : Workspace) :
    Informed [⟨kind, id, workspace.origin⟩] workspace (workspace.announce kind id) := by
  rcases foldl_deliver ⟨kind, id, workspace.origin⟩ workspace.observers.entries workspace with
    ⟨origin, deliveries, inbox⟩
  refine ⟨observers_announce kind id workspace, origin, by simp, ?_, ?_⟩
  · rw [List.flatMap_singleton]
    exact deliveries
  · rw [List.flatMap_singleton]
    exact inbox

/-- What is told of after others carries the same origin as they do. -/
theorem Informed.announce (informed : Informed told workspace after) (kind : ChangeKind)
    (id : BlockId) :
    Informed (told ++ [⟨kind, id, workspace.origin⟩]) workspace (after.announce kind id) := by
  have last := informed.trans (informed_announce kind id after)
  rwa [informed.origin] at last

theorem informed_foldl_announce (tops : List (BlockId × Block))
    (informed : Informed told workspace after) :
    Informed (told ++ tops.map fun (id, _) => ⟨.delete, id, workspace.origin⟩) workspace
      (tops.foldl (fun cleared (id, _) => cleared.announce .delete id) after) := by
  induction tops generalizing told after with
  | nil => simpa using informed
  | cons top rest ih => simpa using ih (informed.announce .delete top.1)

theorem informed_clear (workspace : Workspace) :
    Informed (workspace.tops.map fun (id, _) => ⟨.delete, id, workspace.origin⟩) workspace
      workspace.clear :=
  informed_foldl_announce workspace.tops (informed_of_store workspace.store.wipe)

/-- A change that goes to different numbers is heard under each of them once. -/
theorem filterMap_hosts {numbers : List Nat} {number : Nat} (distinct : numbers.Nodup)
    (listed : number ∈ numbers) (change : Change) :
    (numbers.map fun observer => (⟨observer, change⟩ : Delivery)).filterMap
      (fun delivery => if delivery.observer = number then some delivery.change else none) =
        [change] := by
  induction numbers with
  | nil => cases listed
  | cons first rest ih =>
    rcases List.nodup_cons.mp distinct with ⟨new, distinct⟩
    rcases List.mem_cons.mp listed with rfl | later
    · have away : ∀ other ∈ rest, other ≠ number := fun other found same => new (same ▸ found)
      simpa using away
    · have different : first ≠ number := fun same => new (same ▸ later)
      simpa [different] using ih distinct later

/-- Each of the host's observers hears all that is told, and hears it once. -/
theorem Informed.heard (informed : Informed told workspace after)
    (numbered : workspace.observers.Numbered) {number : Nat} (hosted : number ∈ workspace.hosts) :
    after.heard number = workspace.heard number ++ told := by
  have distinct : workspace.hosts.Nodup :=
    numbered.distinct.sublist (List.filter_sublist.map _)
  rw [Workspace.heard, informed.deliveries, List.filterMap_append, List.filterMap_flatMap]
  simp only [filterMap_hosts distinct hosted]
  rw [List.flatMap_singleton', Workspace.heard]

end

/-! ## Changes of the store alone -/

section

variable {workspace after : Workspace} {told : List Change}

theorem Informed.withStore (informed : Informed told workspace after) (store : BlockStore) :
    Informed told workspace { after with store } :=
  ⟨informed.observers, informed.origin, informed.tagged, informed.deliveries, informed.inbox⟩

theorem Informed.revise (informed : Informed told workspace after) (id : BlockId)
    (change : Block → Block) : Informed told workspace (after.revise id change) :=
  informed.withStore _

theorem Informed.reviseLinked (informed : Informed told workspace after) (link : Option BlockId)
    (change : Block → Block) : Informed told workspace (after.reviseLinked link change) := by
  cases link with
  | none => exact informed
  | some id => exact informed.revise id change

theorem Informed.detach (informed : Informed told workspace after) (id : BlockId) :
    Informed told workspace (after.detach id) := by
  unfold Workspace.detach
  cases after.block? id with
  | none => exact informed
  | some block => exact ((informed.revise id _).reviseLinked _ _).reviseLinked _ _

theorem Informed.hang (informed : Informed told workspace after) (above : BlockId) (place : Place)
    (below : BlockId) : Informed told workspace (after.hang above place below) :=
  (informed.revise above _).revise below _

theorem Informed.remove (informed : Informed told workspace after) (doomed : List BlockId) :
    Informed told workspace (after.remove doomed) :=
  informed.withStore _

/-- Only what is bumped out of a slot is told of besides the newcomer. -/
theorem informed_put (workspace : Workspace) (above : BlockId) (place : Place) (below : BlockId) :
    ∃ told, Informed told workspace (workspace.put above place below) := by
  have hung := ((informed_refl workspace).detach below).hang above place below
  unfold Workspace.put
  dsimp only
  cases (workspace.detach below).links.child above place with
  | none => exact ⟨[], hung⟩
  | some displaced =>
    cases place with
    | slot name => exact ⟨_, (hung.revise displaced _).announce .move displaced⟩
    | next | body => exact ⟨[], (hung.revise _ _).revise displaced _⟩

theorem informed_close (workspace : Workspace) (id : BlockId) (block : Block) :
    Informed [] workspace (workspace.close id block) := by
  have raised := (informed_refl workspace).reviseLinked block.next fun successor =>
    { successor with previous := block.previous }
  unfold close
  dsimp only
  split
  · exact raised.revise _ _
  · exact raised
  · split
    · exact (raised.revise _ _).reviseLinked _ _
    · exact raised.revise _ _

end

/-! ## What a request comes to -/

/-- Whether a request arranges blocks, which it need not tell of if they are
arranged so already. -/
def Command.arranges : Command → Bool
  | .create _ | .connectNext .. | .connectValue .. | .connectBody .. | .disconnect _ | .delete _
  | .clear => true
  | _ => false

/-- A request leaves the workspace as it is, and nobody is told, or it goes through
and is told of.  Then it has changed a block, if all it does is to arrange them. -/
structure Noticed (command : Command) (before : Workspace) (told : List Change) : Prop where
  informed : Informed told before (command.run before)
  refused : ∀ error, command.verdict before = .error error → told = []
  silent : told = [] → command.run before = before
  changed : command.arranges = true → told ≠ [] → (command.run before).blocks ≠ before.blocks

section

variable {workspace : Workspace} {command : Command} {told : List Change}

theorem noticed_of_same (same : command.run workspace = workspace) :
    Noticed command workspace [] where
  informed := same.symm ▸ informed_refl workspace
  refused _ _ := rfl
  silent _ := same
  changed _ told := absurd rfl told

theorem Informed.noticed {after : Workspace} {kind : ChangeKind} {id : BlockId}
    (informed : Informed (told ++ [⟨kind, id, workspace.origin⟩]) workspace after)
    (run : command.run workspace = after) (accepted : command.verdict workspace = .ok ())
    (changed : command.arranges = true → after.blocks ≠ workspace.blocks) :
    ∃ told, Noticed command workspace told := by
  subst run
  refine ⟨_, informed, fun error refused => ?_, fun silent => absurd silent (by simp),
    fun arranges _ => changed arranges⟩
  cases accepted.symm.trans refused

/-! ## Changes of the blocks -/

theorem block?_of_blocks {first second : Workspace} (same : first.blocks = second.blocks)
    (id : BlockId) : first.block? id = second.block? id := by
  refine Option.ext fun block => ?_
  have stores : first.store.toList = second.store.toList := same
  rw [block?, ← first.store.mem_toList_iff, block?, ← second.store.mem_toList_iff, stores]

theorem blocks_ne_of_block? {first second : Workspace} (id : BlockId)
    (different : first.block? id ≠ second.block? id) : first.blocks ≠ second.blocks :=
  fun same => different (block?_of_blocks same id)

theorem blocks_ne_of_links {first second : Workspace} (different : first.links ≠ second.links) :
    first.blocks ≠ second.blocks :=
  fun same => different (links_congr (block?_of_blocks same))

/-- A block that is put at a place where it is not changes what hangs there. -/
theorem blocks_ne_of_put {above below : BlockId} {place : Place} {after : Workspace}
    {kind : ChangeKind} {id : BlockId} (missing : workspace.links.child above place ≠ some below)
    (put : after.links.child above place = some below) :
    (after.announce kind id).blocks ≠ workspace.blocks := by
  refine blocks_ne_of_links fun same => missing ?_
  rwa [← same, links_announce]

/-! ## One request -/

theorem noticed_create (kind : BlockKind) (workspace : Workspace) :
    ∃ told, Noticed (.create kind) workspace told := by
  have informed := ((informed_refl workspace).withStore
    (workspace.store.push (.ofKind kind))).announce .create workspace.store.nextId
  have changed : (workspace.create kind).2.blocks ≠ workspace.blocks := by
    refine blocks_ne_of_block? workspace.store.nextId ?_
    rw [block?_create, if_pos rfl, block?_nextId]
    exact nofun
  exact informed.noticed rfl rfl fun _ => changed

/-- What one block holds besides its links is told of if the block is there. -/
theorem noticed_annotate {id : BlockId} {kind : ChangeKind} {change : Block → Block}
    (free : command.arranges = false)
    (run : command.run workspace =
      ((Edit.update id change >>= fun _ => Edit.tell kind id).apply workspace).2)
    (verdict : command.verdict workspace =
      ((Edit.update id change >>= fun _ => Edit.tell kind id).apply workspace).1) :
    ∃ told, Noticed command workspace told := by
  simp only [Edit.apply_bind, Edit.apply_update] at run verdict
  cases found : workspace.block? id with
  | none =>
    rw [found] at run
    exact ⟨[], noticed_of_same run⟩
  | some block =>
    rw [found] at run verdict
    have informed := ((informed_refl workspace).revise id change).announce kind id
    refine informed.noticed run verdict fun arranges => ?_
    cases free.symm.trans arranges

/-- Every connection is noticed, whatever place the request names. -/
theorem WellFormed.noticed_connect (wellFormed : workspace.WellFormed) (above : BlockId)
    (place : Place) (below : BlockId)
    (run : command.run workspace = ((connect above place below).apply workspace).2)
    (verdict : command.verdict workspace = ((connect above place below).apply workspace).1) :
    ∃ told, Noticed command workspace told := by
  cases answer : ((connect above place below).apply workspace).1 with
  | error error =>
    exact ⟨[], noticed_of_same (wellFormed.run_of_refused (verdict.trans answer))⟩
  | ok _ =>
    have applied := wellFormed.apply_connect_of_accepted answer
    rw [applied] at run verdict
    by_cases already : workspace.links.child above place = some below
    · rw [if_pos already] at run
      exact ⟨[], noticed_of_same run⟩
    · rw [if_neg already] at run
      -- Who is bumped out of a slot is told of before the newcomer.
      rcases informed_put workspace above place below with ⟨told, put⟩
      have connectable := wellFormed.connectable_of_accepted answer
      exact (put.announce .move below).noticed run verdict
        fun _ => blocks_ne_of_put already (wellFormed.child_put connectable)

theorem WellFormed.noticed_disconnect (wellFormed : workspace.WellFormed) (id : BlockId) :
    ∃ told, Noticed (.disconnect id) workspace told := by
  cases found : workspace.block? id with
  | none =>
    have applied : (Workspace.disconnect id).apply workspace =
        (.error (.blockNotFound id), workspace) := by
      simp only [Workspace.disconnect, Edit.apply_bind, Edit.apply_fetch, found]
    exact ⟨[], noticed_of_same (congrArg Prod.snd applied)⟩
  | some block =>
    have applied := apply_disconnect found
    cases top : block.isTop with
    | true =>
      rw [if_pos top] at applied
      exact ⟨[], noticed_of_same (congrArg Prod.snd applied)⟩
    | false =>
      rw [if_neg (by simp [top])] at applied
      have informed := ((informed_refl workspace).detach id).announce .move id
      refine informed.noticed (congrArg Prod.snd applied) (congrArg Prod.fst applied) fun _ => ?_
      refine blocks_ne_of_links fun same => ?_
      rw [links_announce, wellFormed.links_detach] at same
      have free : workspace.links.IsTop id := same ▸ Links.isTop_detach
      simp [(isTop_iff found).mpr free] at top

theorem WellFormed.noticed_delete (wellFormed : workspace.WellFormed) (id : BlockId) :
    ∃ told, Noticed (.delete id) workspace told := by
  cases found : workspace.block? id with
  | none =>
    exact ⟨[], noticed_of_same
      (by simp [Command.run, delete, Edit.apply_bind, Edit.apply_fetch, found])⟩
  | some block =>
    have applied := wellFormed.apply_delete found
    have informed := ((informed_close workspace id block).remove
      ((workspace.close id block).doomed id block)).announce .delete id
    refine informed.noticed (congrArg Prod.snd applied) (congrArg Prod.fst applied) fun _ => ?_
    refine blocks_ne_of_block? id ?_
    rw [block?_announce, block?_remove, if_pos, found]
    · simp
    · exact (wellFormed.mem_doomed_iff found id).mpr .refl

/-- A store without blocks is empty already. -/
theorem wipe_of_no_blocks {store : BlockStore} (absent : ∀ id, store.get? id = none) :
    store.wipe = store := by
  have empty : ∀ serial (inside : serial < store.cells.size), store.cells[serial] = none := by
    intro serial inside
    have read := absent (.numbered serial)
    simpa [BlockStore.get?, inside] using read
  have cells : Array.replicate store.cells.size none = store.cells :=
    Array.ext (by simp) fun serial _ inside => by simp [empty serial inside]
  have size : store.size = 0 := by
    rw [store.size_eq, ← cells]
    simp [Array.countP_replicate]
  rcases store with ⟨_, _, _⟩
  simp only [BlockStore.wipe, BlockStore.mk.injEq]
  exact ⟨cells, size.symm⟩

/-- Every block lies below a top block, so that without top blocks there is none. -/
theorem WellFormed.block?_of_no_tops (wellFormed : workspace.WellFormed)
    (noTops : workspace.tops = []) (id : BlockId) : workspace.block? id = none := by
  by_contra present
  rcases wellFormed.forest.one_top (Option.isSome_iff_ne_none.mpr present) with
    ⟨top, ⟨listed, -⟩, -⟩
  simp [noTops] at listed

theorem WellFormed.noticed_clear (wellFormed : workspace.WellFormed) :
    Noticed .clear workspace
      (workspace.tops.map fun (id, _) => ⟨.delete, id, workspace.origin⟩) where
  informed := informed_clear workspace
  refused error refused := by cases refused
  silent silent := by
    have noTops := List.map_eq_nil_iff.mp silent
    rw [Command.run, clear, noTops, wipe_of_no_blocks (wellFormed.block?_of_no_tops noTops)]
    rfl
  changed _ told same := by
    have absent := fun id => (block?_of_blocks same id).symm.trans (block?_clear workspace id)
    refine told (List.map_eq_nil_iff.mpr (List.eq_nil_iff_forall_not_mem.mpr ?_))
    rintro ⟨id, block⟩ listed
    have found := (workspace.store.mem_toList_iff id block).mp (List.mem_of_mem_filter listed)
    cases found.symm.trans (absent id)

/-- Every request that changes blocks, but for a rebuild, is noticed. -/
theorem WellFormed.exists_noticed (wellFormed : workspace.WellFormed)
    (mutates : command.mutates = true) (single : ∀ program, command ≠ .rebuild program) :
    ∃ told, Noticed command workspace told := by
  cases command with
  | create kind => exact noticed_create kind workspace
  | setField id name value => exact noticed_annotate rfl rfl rfl
  | move id position => exact noticed_annotate rfl rfl rfl
  | connectNext id next => exact wellFormed.noticed_connect id .next next rfl rfl
  | connectValue id slot child => exact wellFormed.noticed_connect id (.slot slot) child rfl rfl
  | connectBody id child => exact wellFormed.noticed_connect id .body child rfl rfl
  | disconnect id => exact wellFormed.noticed_disconnect id
  | delete id => exact wellFormed.noticed_delete id
  | clear => exact ⟨_, wellFormed.noticed_clear⟩
  | rebuild program => exact absurd rfl (single program)
  | _ => cases mutates

end

/-- Whatever has been asked of a new workspace, a request that changes blocks tells all
observers of the same changes in the same order, all with the origin that is set.
If it is refused, they are told nothing, and if it changes a block in any way, they
are told something.  If it arranges blocks that are arranged so already, they are told
nothing either.  Deleting all blocks tells of the top blocks, and there is one if
there is a block at all. -/
theorem heard_by_all (commands : List Command) {command : Command}
    (mutates : command.mutates = true) (single : ∀ program, command ≠ .rebuild program) :
    let workspace := empty.after commands
    let after := command.run workspace
    ∃ told : List Change,
      (∀ change ∈ told, change.origin = workspace.origin) ∧
      (∀ number ∈ workspace.hosts, after.heard number = workspace.heard number ++ told) ∧
      after.deliveries.toList = workspace.deliveries.toList ++
        told.flatMap (fun change => workspace.hosts.map (⟨·, change⟩)) ∧
      after.inbox.toList =
        workspace.inbox.toList ++ told.flatMap (List.replicate workspace.sessions) ∧
      (∀ error, command.verdict workspace = .error error → told = []) ∧
      (after.blocks ≠ workspace.blocks → told ≠ []) ∧
      (command.arranges = true → command.verdict workspace = .ok () →
        after.blocks = workspace.blocks → told = []) ∧
      (command = .clear →
        told = workspace.tops.map fun (id, _) => ⟨.delete, id, workspace.origin⟩) ∧
      (workspace.isEmpty = false → workspace.tops ≠ []) := by
  intro workspace after
  have wellFormed : workspace.WellFormed := wellFormed_after commands
  have numbered : workspace.observers.Numbered := numbered_after Registry.numbered_empty commands
  have noticed : ∃ told, Noticed command workspace told ∧ (command = .clear →
      told = workspace.tops.map fun (id, _) => ⟨.delete, id, workspace.origin⟩) := by
    by_cases all : command = .clear
    · exact ⟨_, all ▸ wellFormed.noticed_clear, fun _ => rfl⟩
    · rcases wellFormed.exists_noticed mutates single with ⟨told, noticed⟩
      exact ⟨told, noticed, fun same => absurd same all⟩
  rcases noticed with ⟨told, noticed, cleared⟩
  have informed := noticed.informed
  refine ⟨told, informed.tagged, fun number => informed.heard numbered, informed.deliveries,
    informed.inbox, noticed.refused, fun changed silent => ?_, fun arranges _ same => ?_, cleared,
    fun occupied noTops => ?_⟩
  · exact changed (congrArg blocks (noticed.silent silent))
  · by_contra told
    exact noticed.changed arranges told same
  · have none : workspace.blocks = [] := by
      refine List.eq_nil_iff_forall_not_mem.mpr ?_
      rintro ⟨id, block⟩ listed
      have found := (workspace.store.mem_toList_iff id block).mp listed
      cases found.symm.trans (wellFormed.block?_of_no_tops noTops id)
    have size := workspace.store.length_toList
    rw [← blocks, none] at size
    simp [isEmpty, Workspace.size, ← size] at occupied

/-- Two observers of the host and a session watch a block with a number plugged in. -/
def watchedPause : List Command :=
  [.subscribe .host, .create .pause, .create .numberLiteral, .create .numberLiteral,
    .connectValue (.numbered 0) SlotName.duration (.numbered 1), .subscribe .session,
    .subscribe .host, .takeDeliveries, .setOrigin .programmatic]

/-- Another number takes the place of the one that is plugged in. -/
def exchange : Command :=
  .connectValue (.numbered 0) SlotName.duration (.numbered 2)

theorem heard_exchange :
    exchange.mutates = true ∧ (∀ program, exchange ≠ .rebuild program) ∧
      ∃ told : List Change, told ≠ [] ∧
        (exchange.run (empty.after watchedPause)).heard 0 = told ∧
        (exchange.run (empty.after watchedPause)).heard 2 = told ∧
        (exchange.run (empty.after watchedPause)).inbox.toList = told ∧
        ∀ change ∈ told, change.origin = .programmatic := by
  refine ⟨rfl, nofun, ?_⟩
  have mutates : exchange.mutates = true := rfl
  rcases heard_by_all watchedPause mutates nofun with
    ⟨told, tagged, heard, -, inbox, -, noticed, -⟩
  refine ⟨told, noticed (blocks_ne_of_block? (.numbered 1) ?_), heard 0 (by decide +kernel),
    heard 2 (by decide +kernel), ?_, tagged⟩
  · intro same
    exact absurd (congrArg (·.map (·.parent)) same) (by decide +kernel)
  · have waiting : (empty.after watchedPause).inbox.toList = [] := by decide +kernel
    have once : (empty.after watchedPause).sessions = 1 := by decide +kernel
    rw [inbox, waiting, once, List.nil_append]
    exact List.flatMap_singleton' told

end Workspace
end MotionBlocks
