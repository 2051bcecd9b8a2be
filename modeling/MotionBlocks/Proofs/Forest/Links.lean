import Mathlib.Logic.ExistsUnique
import Mathlib.Logic.Relation
import Mathlib.Order.WellFounded
import MotionBlocks.Block.Basic

namespace MotionBlocks

/-!
# Links between blocks

Links are stored twice, downwards in the block that holds another one and
upwards in the block that is held.  Here both directions are looked at as
functions of identifiers, without the blocks that store them, so that an edit
is a change of these functions and the forest they form is a property of them.

A link is sound when each direction is the inverse of the other, nobody is held
twice, and no path downwards returns to where it began.  Two changes suffice
for all edits: taking a block off its place, and hanging a block that is off its
place from a free place of a block outside its own subtree.  Both keep links
sound.
-/

/-- Where a block may hang from another one. -/
inductive Place where
  | next
  | body
  | slot (name : String)
deriving DecidableEq, Repr

namespace Block

/-- What hangs from a place of a block. -/
def child? (block : Block) : Place → Option BlockId
  | .next => block.next
  | .body => block.body
  | .slot name => block.slots.get? name

end Block

/-- The links of all blocks, in both directions. -/
@[ext] structure Links where
  child : BlockId → Place → Option BlockId
  previous : BlockId → Option BlockId
  parent : BlockId → Option BlockId

namespace Links

/-- A block holds another one by some link. -/
def Holds (links : Links) (above below : BlockId) : Prop :=
  ∃ place, links.child above place = some below

/-- A block lies in the subtree of another one, or is that block. -/
def Reaches (links : Links) : BlockId → BlockId → Prop :=
  Relation.ReflTransGen links.Holds

/-- A block that hangs from no other one. -/
def IsTop (links : Links) (id : BlockId) : Prop :=
  links.previous id = none ∧ links.parent id = none

structure Sound (links : Links) : Prop where
  next_iff : ∀ above below,
    links.child above .next = some below ↔ links.previous below = some above
  plugged_iff : ∀ above below,
    (∃ place, place ≠ .next ∧ links.child above place = some below) ↔
      links.parent below = some above
  place_unique : ∀ {above below first second}, links.child above first = some below →
    links.child above second = some below → first = second
  exclusive : ∀ id, links.previous id = none ∨ links.parent id = none
  acyclic : WellFounded links.Holds

/-! ## Facts about sound links -/

section

variable {links : Links}

theorem Sound.previous_or_parent_of_child (sound : links.Sound) {above below : BlockId}
    {place : Place} (held : links.child above place = some below) :
    links.previous below = some above ∨ links.parent below = some above := by
  by_cases chained : place = .next
  · exact Or.inl ((sound.next_iff _ _).mp (chained ▸ held))
  · exact Or.inr ((sound.plugged_iff _ _).mp ⟨place, chained, held⟩)

/-- A successor is plugged into nothing. -/
theorem Sound.upward_of_next (sound : links.Sound) {above below : BlockId}
    (held : links.child above .next = some below) :
    links.previous below = some above ∧ links.parent below = none := by
  have before := (sound.next_iff above below).mp held
  exact ⟨before, (sound.exclusive below).resolve_left (by simp [before])⟩

/-- What is plugged in follows nothing. -/
theorem Sound.upward_of_plugged (sound : links.Sound) {above below : BlockId} {place : Place}
    (plugged : place ≠ .next) (held : links.child above place = some below) :
    links.previous below = none ∧ links.parent below = some above := by
  have owner := (sound.plugged_iff above below).mp ⟨place, plugged, held⟩
  exact ⟨(sound.exclusive below).resolve_right (by simp [owner]), owner⟩

/-- Nobody is held by two blocks, and by one block from one place only. -/
theorem Sound.holder_unique (sound : links.Sound) {first second below : BlockId}
    {firstPlace secondPlace : Place} (firstHeld : links.child first firstPlace = some below)
    (secondHeld : links.child second secondPlace = some below) :
    first = second ∧ firstPlace = secondPlace := by
  have same : first = second := by
    have exclusive := sound.exclusive below
    rcases sound.previous_or_parent_of_child firstHeld with left | left <;>
      rcases sound.previous_or_parent_of_child secondHeld with right | right <;> grind
  subst same
  exact ⟨rfl, sound.place_unique firstHeld secondHeld⟩

theorem Sound.isTop_iff (sound : links.Sound) (id : BlockId) :
    links.IsTop id ↔ ∀ above, ¬ links.Holds above id := by
  constructor
  · intro top above held
    rcases held with ⟨place, held⟩
    rcases sound.previous_or_parent_of_child held with found | found
    · exact absurd (top.1.symm.trans found) (by simp)
    · exact absurd (top.2.symm.trans found) (by simp)
  · intro free
    constructor
    · rw [Option.eq_none_iff_forall_ne_some]
      intro above found
      exact free above ⟨.next, (sound.next_iff _ _).mpr found⟩
    · rw [Option.eq_none_iff_forall_ne_some]
      intro above found
      rcases (sound.plugged_iff _ _).mpr found with ⟨place, -, held⟩
      exact free above ⟨place, held⟩

/-- No path downwards returns to where it began. -/
theorem Sound.not_returns (sound : links.Sound) (id : BlockId) :
    ¬ Relation.TransGen links.Holds id id := by
  intro path
  exact sound.acyclic.transGen.irrefl.irrefl id path

/-- What lies above the holder of a block does not lie below that block. -/
theorem Sound.not_reaches_of_holds (sound : links.Sound) {above below : BlockId}
    (held : links.Holds above below) : ¬ links.Reaches below above := by
  intro path
  exact sound.not_returns below (Relation.TransGen.tail' path held)

/-- A path to a held block that does not start there passes its holder. -/
theorem Sound.reaches_holder (sound : links.Sound) {root above below : BlockId}
    (path : links.Reaches root below) (held : links.Holds above below) (different : root ≠ below) :
    links.Reaches root above := by
  rcases Relation.ReflTransGen.cases_tail path with equal | ⟨last, front, step⟩
  · exact absurd equal.symm different
  · rcases held with ⟨place, held⟩
    rcases step with ⟨lastPlace, step⟩
    exact (sound.holder_unique step held).1 ▸ front

/-- Only a top block itself has a path to it. -/
theorem Sound.eq_of_reaches_top (sound : links.Sound) {root top : BlockId} (isTop : links.IsTop top)
    (path : links.Reaches root top) : root = top := by
  rcases Relation.ReflTransGen.cases_tail path with equal | ⟨last, -, step⟩
  · exact equal.symm
  · exact absurd step ((sound.isTop_iff top).mp isTop last)

/-- Of two blocks above a third one, one is above the other. -/
theorem Sound.reaches_total (sound : links.Sound) {first second below : BlockId}
    (firstPath : links.Reaches first below) (secondPath : links.Reaches second below) :
    links.Reaches first second ∨ links.Reaches second first := by
  induction firstPath with
  | refl => exact Or.inr secondPath
  | @tail middle below front step ih =>
    by_cases equal : second = below
    · exact Or.inl (equal ▸ Relation.ReflTransGen.tail front step)
    · exact ih (sound.reaches_holder secondPath step equal)

/-- What hangs from one block at two places lies in two separate subtrees. -/
theorem Sound.apart_of_holds (sound : links.Sound) {above first second : BlockId}
    (firstHeld : links.Holds above first) (secondHeld : links.Holds above second)
    (different : first ≠ second) : ¬ links.Reaches first second := by
  intro path
  exact sound.not_reaches_of_holds firstHeld (sound.reaches_holder path secondHeld different)

/-- Every block lies below exactly one top block. -/
theorem Sound.exists_unique_top (sound : links.Sound) (id : BlockId) :
    ∃! top, links.IsTop top ∧ links.Reaches top id := by
  have found : ∃ top, links.IsTop top ∧ links.Reaches top id := by
    induction id using sound.acyclic.induction with
    | h id ih =>
      by_cases free : ∀ above, ¬ links.Holds above id
      · exact ⟨id, (sound.isTop_iff id).mpr free, .refl⟩
      · rcases not_forall_not.mp free with ⟨above, held⟩
        rcases ih above held with ⟨top, isTop, path⟩
        exact ⟨top, isTop, path.tail held⟩
  rcases found with ⟨top, isTop, path⟩
  refine ⟨top, ⟨isTop, path⟩, ?_⟩
  rintro other ⟨otherTop, otherPath⟩
  rcases sound.reaches_total path otherPath with down | down
  · exact (sound.eq_of_reaches_top otherTop down).symm
  · exact sound.eq_of_reaches_top isTop down

end

/-! ## Taking a block off its place -/

/-- The links after a block has been taken off its place. -/
def detach (links : Links) (id : BlockId) : Links where
  child above place := (links.child above place).filter (· ≠ id)
  previous below := if below = id then none else links.previous below
  parent below := if below = id then none else links.parent below

section

variable {links : Links} {id : BlockId}

theorem detach_child_eq_some_iff {above below : BlockId} {place : Place} :
    (links.detach id).child above place = some below ↔
      links.child above place = some below ∧ below ≠ id := by
  simp [detach, Option.filter_eq_some_iff]

theorem child_detach_of_ne {above : BlockId} {place : Place}
    (other : links.child above place ≠ some id) :
    (links.detach id).child above place = links.child above place := by
  refine Option.ext fun below => ?_
  rw [detach_child_eq_some_iff]
  exact ⟨(·.1), fun held => ⟨held, fun equal => other (equal ▸ held)⟩⟩

theorem child_detach_of_eq {above : BlockId} {place : Place}
    (held : links.child above place = some id) : (links.detach id).child above place = none := by
  simp [detach, held]

theorem holds_of_detach {above below : BlockId} (held : (links.detach id).Holds above below) :
    links.Holds above below := by
  rcases held with ⟨place, held⟩
  exact ⟨place, (detach_child_eq_some_iff.mp held).1⟩

theorem reaches_of_detach {root below : BlockId} (path : (links.detach id).Reaches root below) :
    links.Reaches root below :=
  Relation.ReflTransGen.mono (fun _ _ held => holds_of_detach held) root below path

theorem isTop_detach : (links.detach id).IsTop id := by
  simp [IsTop, detach]

/-- Taking a top block off its place changes nothing. -/
theorem Sound.detach_of_top (sound : links.Sound) (top : links.IsTop id) :
    links.detach id = links := by
  ext other
  · rename_i place below
    rw [child_detach_of_ne fun held => (sound.isTop_iff id).mp top other ⟨place, held⟩]
  · by_cases same : other = id <;> simp [Links.detach, same, top.1]
  · by_cases same : other = id <;> simp [Links.detach, same, top.2]

theorem Sound.detach (sound : links.Sound) (id : BlockId) : (links.detach id).Sound where
  next_iff := by
    intro above below
    rw [detach_child_eq_some_iff, sound.next_iff]
    by_cases equal : below = id <;> simp [Links.detach, equal]
  plugged_iff := by
    intro above below
    simp only [detach_child_eq_some_iff]
    by_cases equal : below = id
    · simp [Links.detach, equal]
    · simpa [Links.detach, equal] using sound.plugged_iff above below
  place_unique := by
    intro above below first second firstHeld secondHeld
    exact sound.place_unique (detach_child_eq_some_iff.mp firstHeld).1
      (detach_child_eq_some_iff.mp secondHeld).1
  exclusive := by
    intro other
    by_cases equal : other = id
    · exact Or.inl (by simp [Links.detach, equal])
    · simpa [Links.detach, equal] using sound.exclusive other
  acyclic := Subrelation.wf holds_of_detach sound.acyclic

end

/-! ## Hanging a block from a place -/

/-- The links after a block has been hung from a place.  What hung there before
is not told of it. -/
def hang (links : Links) (above : BlockId) (place : Place) (below : BlockId) : Links where
  child holder where_ :=
    if holder = above ∧ where_ = place then some below else links.child holder where_
  previous other :=
    if other = below then (if place = .next then some above else none) else links.previous other
  parent other :=
    if other = below then (if place = .next then none else some above) else links.parent other

section

variable {links : Links} {above below : BlockId} {place : Place}

theorem holds_of_hang {upper lower : BlockId}
    (held : (links.hang above place below).Holds upper lower) :
    links.Holds upper lower ∨ (upper = above ∧ lower = below) := by
  rcases held with ⟨found, held⟩
  simp only [hang] at held
  split at held
  · rename_i here
    exact Or.inr ⟨here.1, (Option.some.inj held).symm⟩
  · exact Or.inl ⟨found, held⟩

/-- A path uses the new link once at most, because it cannot return. -/
theorem reaches_of_hang {root target : BlockId}
    (path : (links.hang above place below).Reaches root target) :
    links.Reaches root target ∨ (links.Reaches root above ∧ links.Reaches below target) := by
  induction path with
  | refl => exact Or.inl .refl
  | @tail middle target front step ih =>
    rcases holds_of_hang step with old | ⟨equalAbove, equalBelow⟩
    · rcases ih with direct | ⟨before, after⟩
      · exact Or.inl (direct.tail old)
      · exact Or.inr ⟨before, after.tail old⟩
    · subst equalAbove equalBelow
      rcases ih with direct | ⟨before, -⟩
      · exact Or.inr ⟨direct, .refl⟩
      · exact Or.inr ⟨before, .refl⟩

/-- A new edge from outside the subtree that it leads to closes no cycle. -/
theorem acyclic_hang (sound : links.Sound) (outside : ¬ links.Reaches below above) :
    WellFounded (links.hang above place below).Holds := by
  have spared : ∀ id, ¬ links.Reaches below id → Acc (links.hang above place below).Holds id := by
    intro id
    induction id using sound.acyclic.induction with
    | h id ih =>
      intro far
      refine Acc.intro id fun upper held => ?_
      rcases holds_of_hang held with old | ⟨-, equal⟩
      · exact ih upper old fun path => far (path.tail old)
      · exact absurd (equal ▸ Relation.ReflTransGen.refl) far
  refine ⟨fun id => ?_⟩
  induction id using sound.acyclic.induction with
  | h id ih =>
    refine Acc.intro id fun upper held => ?_
    rcases holds_of_hang held with old | ⟨equal, -⟩
    · exact ih upper old
    · exact equal ▸ spared above outside

/-- Hanging a free block from a free place adds that link and changes no other
one. -/
theorem hang_child_eq_some_iff (free : links.child above place = none)
    {upper lower : BlockId} {other : Place} :
    (links.hang above place below).child upper other = some lower ↔
      links.child upper other = some lower ∨ (upper = above ∧ other = place ∧ lower = below) := by
  grind [Links.hang]

theorem Sound.hang (sound : links.Sound) (free : links.child above place = none)
    (top : links.IsTop below) (outside : ¬ links.Reaches below above) :
    (links.hang above place below).Sound where
  next_iff := by
    intro upper lower
    have unheld := (sound.isTop_iff below).mp top upper
    rw [hang_child_eq_some_iff free, sound.next_iff]
    grind [Links.hang, IsTop]
  plugged_iff := by
    intro upper lower
    have old := sound.plugged_iff upper lower
    simp only [hang_child_eq_some_iff free]
    grind [Links.hang, IsTop]
  place_unique := by
    intro upper lower first second firstHeld secondHeld
    have unheld := (sound.isTop_iff below).mp top upper
    rw [hang_child_eq_some_iff free] at firstHeld secondHeld
    rcases firstHeld with firstHeld | ⟨-, firstPlace, equal⟩ <;>
      rcases secondHeld with secondHeld | ⟨-, secondPlace, equal⟩
    · exact sound.place_unique firstHeld secondHeld
    · exact absurd ⟨first, equal ▸ firstHeld⟩ unheld
    · exact absurd ⟨second, equal ▸ secondHeld⟩ unheld
    · exact firstPlace.trans secondPlace.symm
  exclusive := by
    intro other
    have old := sound.exclusive other
    grind [Links.hang]
  acyclic := acyclic_hang sound outside

end

/-! ## Making room at a taken place -/

section

variable {links : Links} {above below displaced last : BlockId} {place : Place}

/-- The links after what hangs from a place has been taken off it. -/
def vacate (links : Links) (above : BlockId) (place : Place) : Links :=
  match links.child above place with
  | none => links
  | some displaced => links.detach displaced

/-- Vacating a place changes no other link downwards. -/
theorem Sound.child_vacate (sound : links.Sound) {id : BlockId} {other : Place}
    (elsewhere : ¬ (id = above ∧ other = place)) :
    (links.vacate above place).child id other = links.child id other := by
  unfold vacate
  cases taken : links.child above place with
  | none => rfl
  | some displaced =>
    exact child_detach_of_ne fun held => elsewhere (sound.holder_unique held taken)

theorem previous_vacate (id : BlockId) : (links.vacate above place).previous id =
    if links.child above place = some id then none else links.previous id := by
  unfold vacate
  cases taken : links.child above place <;> simp [detach, eq_comm]

theorem parent_vacate (id : BlockId) : (links.vacate above place).parent id =
    if links.child above place = some id then none else links.parent id := by
  unfold vacate
  cases taken : links.child above place <;> simp [detach, eq_comm]

/-- A block takes a place that has been vacated; what hung there becomes a top block. -/
theorem Sound.hang_instead (sound : links.Sound) (top : links.IsTop below)
    (outside : ¬ links.Reaches below above) :
    ((links.vacate above place).hang above place below).Sound := by
  unfold vacate
  cases taken : links.child above place with
  | none => exact sound.hang taken top outside
  | some displaced =>
    refine (sound.detach displaced).hang ?_ ?_ fun path => outside (reaches_of_detach path)
    · simp [Links.detach, taken]
    · exact ⟨by simp [Links.detach, top.1], by simp [Links.detach, top.2]⟩

/-- What a block displaces lies apart from all that hangs from it. -/
theorem Sound.apart_of_displaced (sound : links.Sound) (top : links.IsTop below)
    (taken : links.child above place = some displaced) (outside : ¬ links.Reaches below above)
    {id : BlockId} (path : links.Reaches below id) : ¬ links.Reaches displaced id := by
  have held : links.Holds above displaced := ⟨place, taken⟩
  have different : below ≠ displaced := by
    rintro rfl
    exact (sound.isTop_iff below).mp top above held
  intro down
  rcases sound.reaches_total down path with up | up
  · exact different (sound.eq_of_reaches_top top up).symm
  · exact outside (sound.reaches_holder up held different)

/-- A block takes a taken place; what hung there follows the end of its chain. -/
theorem Sound.hang_before (sound : links.Sound) (top : links.IsTop below)
    (taken : links.child above place = some displaced) (outside : ¬ links.Reaches below above)
    (chained : links.Reaches below last) (open_ : links.child last .next = none) :
    ((links.hang above place below).hang last .next displaced).Sound := by
  have held : links.Holds above displaced := ⟨place, taken⟩
  have different : below ≠ displaced := by
    intro equal
    exact (sound.isTop_iff below).mp top above (equal ▸ held)
  have apart : last ≠ above := fun equal => outside (equal ▸ chained)
  -- The displaced chain is out of the newcomer's way before it is hung behind it.
  have freed : ¬ (links.detach displaced).Reaches displaced last := fun path =>
    sound.apart_of_displaced top taken outside chained (reaches_of_detach path)
  have behind : ((links.detach displaced).hang last .next displaced).Sound := by
    refine (sound.detach displaced).hang ?_ isTop_detach freed
    simp [Links.detach, open_]
  have final :
      (((links.detach displaced).hang last .next displaced).hang above place below).Sound := by
    refine behind.hang ?_ ?_ ?_
    · simp [Links.detach, Links.hang, taken, Ne.symm apart]
    · simp [IsTop, Links.detach, Links.hang, different, top.1, top.2]
    · intro path
      rcases reaches_of_hang path with direct | ⟨-, after⟩
      · exact outside (reaches_of_detach direct)
      · exact sound.not_reaches_of_holds held (reaches_of_detach after)
  have same : (links.hang above place below).hang last .next displaced =
      ((links.detach displaced).hang last .next displaced).hang above place below := by
    have only : ∀ upper other, links.child upper other = some displaced →
        upper = above ∧ other = place := fun _ _ found => sound.holder_unique found taken
    ext id
    · rename_i other found
      have only := only id other
      simp only [Links.hang, Links.detach]
      cases old : links.child id other <;> grind
    · simp only [Links.hang, Links.detach]
      grind
    · simp only [Links.hang, Links.detach]
      grind
  exact same ▸ final

/-- The links after a block that hangs from nothing has taken a place.  A chain that
was there follows the last block of the newcomer's own chain. -/
def join (links : Links) (above : BlockId) (place : Place) (below last : BlockId) : Links :=
  match links.child above place with
  | none => links.hang above place below
  | some displaced => (links.hang above place below).hang last .next displaced

theorem Sound.join (sound : links.Sound) (top : links.IsTop below)
    (outside : ¬ links.Reaches below above) (chained : links.Reaches below last)
    (open_ : links.child last .next = none) : (links.join above place below last).Sound := by
  unfold Links.join
  cases taken : links.child above place with
  | none => exact sound.hang taken top outside
  | some displaced => exact sound.hang_before top taken outside chained open_

/-- The last block of the newcomer's chain leads to what the newcomer displaced, if to
anything. -/
theorem child_join (id : BlockId) (other : Place) :
    (links.join above place below last).child id other =
      if id = last ∧ other = .next ∧ links.child above place ≠ none then links.child above place
      else if id = above ∧ other = place then some below else links.child id other := by
  unfold join
  cases taken : links.child above place <;> simp [hang]

theorem previous_join (id : BlockId) :
    (links.join above place below last).previous id =
      if links.child above place = some id then some last
      else if id = below then (if place = .next then some above else none)
      else links.previous id := by
  unfold join
  cases taken : links.child above place <;> simp [hang, eq_comm]

theorem parent_join (id : BlockId) :
    (links.join above place below last).parent id =
      if links.child above place = some id then none
      else if id = below then (if place = .next then none else some above)
      else links.parent id := by
  unfold join
  cases taken : links.child above place <;> simp [hang, eq_comm]

end

/-! ## Leaving a place to the successor -/

/-- The block whose nested chain a block heads. -/
def bodyHolder (links : Links) (id : BlockId) : Option BlockId :=
  (links.parent id).filter fun owner => links.child owner .body = some id

/-- The links after the successor of a block has closed the gap that the block
leaves.  No successor moves into a value slot. -/
def splice (links : Links) (id : BlockId) : Links where
  child above place :=
    if links.child above place = some id then
      match place with
      | .slot _ => none
      | _ => links.child id .next
    else if above = id ∧ place = .next then none
    else links.child above place
  previous below :=
    if below = id then none
    else if links.previous below = some id then links.previous id
    else links.previous below
  parent below :=
    if below = id then none
    else if links.previous below = some id then links.bodyHolder id
    else links.parent below

section

variable {links : Links} {id : BlockId}

/-- A link after the gap is closed is an old one that does not touch the block
that left, or bridges it. -/
theorem splice_child_eq_some_iff {above below : BlockId} {place : Place} :
    (links.splice id).child above place = some below ↔
      (links.child above place = some below ∧ below ≠ id ∧ ¬ (above = id ∧ place = .next)) ∨
        (links.child above place = some id ∧ links.child id .next = some below ∧
          (place = .next ∨ place = .body)) := by
  simp only [splice]
  by_cases gap : links.child above place = some id
  · cases place <;> simp [gap] <;> grind
  · by_cases tail : above = id ∧ place = .next
    · simp [tail]
    · grind

/-- A link after the gap is closed leads where old links lead in one or two steps. -/
theorem transGen_of_splice {above below : BlockId} (held : (links.splice id).Holds above below) :
    Relation.TransGen links.Holds above below := by
  rcases held with ⟨place, held⟩
  rcases splice_child_eq_some_iff.mp held with ⟨old, -⟩ | ⟨before, after, -⟩
  · exact .single ⟨place, old⟩
  · exact .tail (.single ⟨place, before⟩) ⟨.next, after⟩

theorem reaches_of_splice {root below : BlockId} (path : (links.splice id).Reaches root below) :
    links.Reaches root below := by
  induction path with
  | refl => exact .refl
  | tail _ held ih => exact ih.trans (transGen_of_splice held).to_reflTransGen

theorem isTop_splice : (links.splice id).IsTop id := by
  simp [IsTop, splice]

theorem Sound.bodyHolder_eq_some_iff (sound : links.Sound) (id owner : BlockId) :
    links.bodyHolder id = some owner ↔ links.child owner .body = some id := by
  simp only [bodyHolder, Option.filter_eq_some_iff, decide_eq_true_eq]
  constructor
  · exact (·.2)
  · intro held
    exact ⟨(sound.plugged_iff owner id).mp ⟨.body, by simp, held⟩, held⟩

theorem Sound.splice (sound : links.Sound) (id : BlockId) : (links.splice id).Sound where
  next_iff := by
    intro above below
    have followed := sound.next_iff above below
    have before := sound.next_iff above id
    have after := sound.next_iff id below
    have notSelf : links.child id .next ≠ some id := by
      intro held
      exact sound.not_returns id (.single ⟨.next, held⟩)
    rw [splice_child_eq_some_iff]
    simp only [Links.splice]
    grind
  plugged_iff := by
    intro above below
    have owned := sound.plugged_iff above below
    have holder := sound.bodyHolder_eq_some_iff id above
    have after := sound.next_iff id below
    have exclusive := sound.exclusive below
    have notSelf : links.child id .next ≠ some id := by
      intro held
      exact sound.not_returns id (.single ⟨.next, held⟩)
    simp only [splice_child_eq_some_iff]
    simp only [Links.splice]
    constructor
    · rintro ⟨place, notNext, old | bridge⟩
      · have parent := owned.mp ⟨place, notNext, old.1⟩
        grind
      · grind
    · intro parent
      by_cases gone : below = id
      · simp [gone] at parent
      · by_cases behind : links.previous below = some id
        · refine ⟨.body, by simp, Or.inr ?_⟩
          grind
        · rcases owned.mpr (by simpa [gone, behind] using parent) with ⟨place, notNext, held⟩
          exact ⟨place, notNext, Or.inl ⟨held, gone, fun tail => notNext tail.2⟩⟩
  place_unique := by
    intro above below first second firstHeld secondHeld
    rw [splice_child_eq_some_iff] at firstHeld secondHeld
    rcases firstHeld with ⟨firstHeld, -, notTail⟩ | ⟨firstHeld, firstNext, -⟩ <;>
      rcases secondHeld with ⟨secondHeld, -, otherNotTail⟩ | ⟨secondHeld, secondNext, -⟩
    · exact sound.place_unique firstHeld secondHeld
    · exact absurd (sound.holder_unique firstHeld secondNext) notTail
    · exact absurd (sound.holder_unique secondHeld firstNext) otherNotTail
    · exact sound.place_unique firstHeld secondHeld
  exclusive := by
    intro other
    have old := sound.exclusive other
    have leaving := sound.exclusive id
    simp only [Links.splice, bodyHolder]
    grind
  acyclic := Subrelation.wf transGen_of_splice sound.acyclic.transGen

end

/-! ## Dropping a subtree -/

/-- The links that are left when some blocks are gone. -/
def drop (links : Links) (gone : BlockId → Prop) [DecidablePred gone] : Links where
  child above place := if gone above then none else links.child above place
  previous below := if gone below then none else links.previous below
  parent below := if gone below then none else links.parent below

section

variable {links : Links} {root : BlockId} {gone : BlockId → Prop} [DecidablePred gone]

/-- A subtree can be dropped whole once its root hangs from nothing. -/
theorem Sound.drop (sound : links.Sound) (top : links.IsTop root)
    (subtree : ∀ id, gone id ↔ links.Reaches root id) : (links.drop gone).Sound := by
  have closed : ∀ above below place, links.child above place = some below →
      (gone above ↔ gone below) := by
    intro above below place held
    rw [subtree, subtree]
    constructor
    · intro path
      exact path.tail ⟨place, held⟩
    · intro path
      refine sound.reaches_holder path ⟨place, held⟩ fun equal => ?_
      exact (sound.isTop_iff root).mp top above ⟨place, equal ▸ held⟩
  constructor
  · intro above below
    have old := sound.next_iff above below
    have inside := closed above below .next
    grind [Links.drop]
  · intro above below
    have old := sound.plugged_iff above below
    have inside := closed above below
    simp only [Links.drop]
    grind
  · intro above below first second firstHeld secondHeld
    have old : links.child above first = some below → links.child above second = some below →
        first = second := sound.place_unique
    grind [Links.drop]
  · intro id
    have old := sound.exclusive id
    grind [Links.drop]
  · refine Subrelation.wf ?_ sound.acyclic
    rintro above below ⟨place, held⟩
    refine ⟨place, ?_⟩
    grind [Links.drop]

end

end Links
end MotionBlocks
