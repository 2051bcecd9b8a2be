import MotionBlocks.Proofs.Forest.Inventory
import MotionBlocks.Proofs.Forest.Refusals

namespace MotionBlocks

/-!
# Inserting a chain

A block that is connected to a place brings its whole chain along, and what hung
from the place follows.  The newcomer may come from anywhere: from a value slot,
from inside a loop of the chain it displaces, or from further down that chain
itself, and then what it displaces is cut off before it.  In each case the place
leads to the newcomer's chain and from there to what is left of the old one, and
no other link has changed.
-/

namespace Links

/-- A chain has been moved to a place, with what was kept of the chain there behind
it. -/
structure Inserted (before after : Links) (above : BlockId) (place : Place) (below : BlockId)
    (moved kept : List BlockId) : Prop where
  chain : after.Chain (after.child above place) (moved ++ kept)
  previous_below : after.previous below = if place = .next then some above else none
  parent_below : after.parent below = if place = .next then none else some above
  follows : ∀ head ∈ kept.head?,
    after.previous head = moved.getLast? ∧ after.parent head = none
  left : ∀ holder where_, before.child holder where_ = some below →
    after.child holder where_ = none
  child_eq : ∀ id where_, ¬ (id = above ∧ where_ = place) →
    ¬ (some id = moved.getLast? ∧ where_ = .next) → before.child id where_ ≠ some below →
      after.child id where_ = before.child id where_
  previous_eq : ∀ id, id ≠ below → some id ≠ kept.head? → after.previous id = before.previous id
  parent_eq : ∀ id, id ≠ below → some id ≠ kept.head? → after.parent id = before.parent id

section

variable {links : Links} {above below last : BlockId} {place : Place}
  {ids front rest : List BlockId}

/-- A block that is taken off its place keeps its chain. -/
theorem Sound.chain_of_detach (sound : links.Sound)
    (chain : (links.detach below).Chain (some below) ids) : links.Chain (some below) ids := by
  refine chain.congr fun id listed => ?_
  have path := reaches_of_detach (chain.reaches_of_mem listed)
  exact (child_detach_of_ne fun held => sound.not_reaches_of_holds ⟨.next, held⟩ path).symm

/-- The place leads to the newcomer's chain and on to what hung there. -/
theorem Sound.chain_join (sound : links.Sound) (top : links.IsTop below)
    (outside : ¬ links.Reaches below above) (moved : links.Chain (some below) (front ++ [last]))
    (displaced : links.Chain (links.child above place) rest) :
    (links.join above place below last).Chain (some below) (front ++ last :: rest) := by
  have apart : ∀ id ∈ front ++ [last], id ≠ above := fun id listed equal =>
    outside (equal ▸ moved.reaches_of_mem listed)
  unfold Links.join
  cases taken : links.child above place with
  | none =>
    rw [taken] at displaced
    cases displaced
    refine moved.congr fun id listed => ?_
    simp [Links.hang, apart id listed]
  | some head =>
    rw [taken] at displaced
    refine moved.extend (fun id listed different => ?_) ?_
    · simp [Links.hang, different, apart id (List.mem_append_left _ listed)]
    · have behind : ((links.hang above place below).hang last .next head).child last .next =
          some head := by simp [Links.hang]
      rw [behind]
      refine displaced.congr fun id listed => ?_
      have down := displaced.reaches_of_mem listed
      have awayAbove : id ≠ above := fun equal =>
        sound.not_reaches_of_holds ⟨place, taken⟩ (equal ▸ down)
      have awayLast : id ≠ last := fun equal =>
        sound.apart_of_displaced top taken outside (moved.reaches_of_mem List.mem_concat_self)
          (equal ▸ down)
      simp [Links.hang, awayAbove, awayLast]

/-- Taking a block off its place and joining its chain in elsewhere inserts the chain
there. -/
theorem Sound.inserted (sound : links.Sound) (outside : ¬ links.Reaches below above)
    (missing : links.child above place ≠ some below)
    (moved : (links.detach below).Chain (some below) (front ++ [last]))
    (old : links.Chain (links.child above place) rest) :
    links.Inserted ((links.detach below).join above place below last) above place below
      (front ++ [last]) (rest.takeWhile (· ≠ below)) := by
  have path := reaches_of_detach (moved.reaches_of_mem List.mem_concat_self)
  have apart : above ≠ last := fun equal => outside (equal ▸ path)
  have kept : (links.detach below).Chain ((links.detach below).child above place)
      (rest.takeWhile (· ≠ below)) := old.detach below
  have chain := (sound.detach below).chain_join isTop_detach
    (fun path => outside (reaches_of_detach path)) moved kept
  have notLast : links.child last .next ≠ some below := fun held =>
    sound.not_reaches_of_holds ⟨.next, held⟩ path
  have free : ∀ id, (links.detach below).child above place = some id → id ≠ below := fun id held =>
    (detach_child_eq_some_iff.mp held).2
  have last? : (front ++ [last]).getLast? = some last := List.getLast?_concat
  rw [kept.start_eq] at free
  constructor
  · simpa [child_join, apart] using chain
  · simp only [previous_join, kept.start_eq, if_true]
    rw [if_neg fun held => free below held rfl]
  · simp only [parent_join, kept.start_eq, if_true]
    rw [if_neg fun held => free below held rfl]
  · intro head listed
    simp only [previous_join, parent_join, kept.start_eq, last?]
    exact ⟨if_pos listed, if_pos listed⟩
  · intro holder where_ held
    rw [child_join, if_neg, if_neg, child_detach_of_eq held]
    · rintro ⟨rfl, rfl⟩
      exact missing held
    · rintro ⟨rfl, rfl, -⟩
      exact notLast held
  · intro id where_ elsewhere notBehind other
    rw [child_join, if_neg, if_neg elsewhere, child_detach_of_ne other]
    exact fun behind => notBehind ⟨by rw [last?, behind.1], behind.2.1⟩
  · intro id different notHead
    rw [previous_join, kept.start_eq, if_neg fun head => notHead head.symm, if_neg different]
    simp [Links.detach, different]
  · intro id different notHead
    rw [parent_join, kept.start_eq, if_neg fun head => notHead head.symm, if_neg different]
    simp [Links.detach, different]

end

end Links

namespace Workspace

/-- Whatever has been asked of a new workspace, a block that is connected behind another
one, or as the first of a nested chain, and does not hang there already, is inserted with
its whole chain.  What hung there follows, up to the block itself if it was part of that,
and no other link and no content of a block has changed. -/
theorem connect_inserts (commands : List Command) {above below : BlockId} {place : Place}
    (chained : place = .next ∨ place = .body)
    (accepted : ((connect above place below).apply (empty.after commands)).1 = .ok ())
    (missing : (empty.after commands).links.child above place ≠ some below) :
    let before := empty.after commands
    let after := ((connect above place below).apply before).2
    ∃ moved old, before.links.Chain (some below) moved ∧
      before.links.Chain (before.links.child above place) old ∧
      before.links.Inserted after.links above place below moved (old.takeWhile (· ≠ below)) ∧
      after.inventory = before.inventory := by
  intro before after
  have wellFormed : before.WellFormed := wellFormed_after commands
  have connectable := wellFormed.connectable_of_accepted accepted
  have put : after = (before.put above place below).announce .move below :=
    (congrArg Prod.snd (wellFormed.apply_connect_of_accepted accepted)).trans (if_neg missing)
  have present : ∀ head ∈ before.links.child above place, (before.block? head).isSome :=
    fun head held => wellFormed.isSome_below ⟨place, held⟩
  rcases wellFormed.exists_chain present with ⟨old, behind⟩
  rcases wellFormed.links_join place connectable with ⟨front, last, moved, links⟩
  refine ⟨_, old, wellFormed.sound.chain_of_detach moved, behind, ?_, ?_⟩
  · rw [put, links_announce, put_of_chained chained, links]
    exact wellFormed.sound.inserted connectable.outside missing moved behind
  · rw [put]
    exact ((before.rearranged_put above place below).announce .move below).inventory_eq

/-- A start block with a loop of two pauses behind it, and another pause behind that. -/
def loopingPauses : List Command :=
  [.create .start, .create .loop, .create .pause, .create .pause, .create .pause,
    .connectNext (.numbered 0) (.numbered 1), .connectBody (.numbered 1) (.numbered 2),
    .connectNext (.numbered 2) (.numbered 3), .connectNext (.numbered 1) (.numbered 4)]

/-- The pauses leave the loop for a place before it. -/
theorem connect_inserts_loopingPauses :
    let before := empty.after loopingPauses
    let answer := (connect (.numbered 0) .next (.numbered 2)).apply before
    answer.1 = .ok () ∧ before.links.child (.numbered 0) .next ≠ some (.numbered 2) ∧
      answer.2.links.Chain (some (.numbered 2))
        [.numbered 2, .numbered 3, .numbered 1, .numbered 4] ∧
      answer.2.links.child (.numbered 1) .body = none ∧
      answer.2.inventory = before.inventory := by
  intro before answer
  have accepted : answer.1 = .ok () := by decide +kernel
  have missing : before.links.child (.numbered 0) .next ≠ some (.numbered 2) := by decide +kernel
  rcases connect_inserts loopingPauses (.inl rfl) accepted missing with
    ⟨moved, old, movedChain, oldChain, inserted, same⟩
  have pauses : before.links.Chain (some (.numbered 2)) [.numbered 2, .numbered 3] := by
    have following : before.links.child (.numbered 2) .next = some (.numbered 3) := by
      decide +kernel
    have ends : before.links.child (.numbered 3) .next = none := by decide +kernel
    exact .block (following ▸ .block (ends ▸ .ends))
  have behind : before.links.Chain (before.links.child (.numbered 0) .next)
      [.numbered 1, .numbered 4] := by
    have first : before.links.child (.numbered 0) .next = some (.numbered 1) := by decide +kernel
    have following : before.links.child (.numbered 1) .next = some (.numbered 4) := by
      decide +kernel
    have ends : before.links.child (.numbered 4) .next = none := by decide +kernel
    exact first ▸ .block (following ▸ .block (ends ▸ .ends))
  cases movedChain.unique pauses
  cases oldChain.unique behind
  have chain := inserted.chain
  have nested : before.links.child (.numbered 1) .body = some (.numbered 2) := by decide +kernel
  rw [chain.start_eq] at chain
  exact ⟨accepted, missing, chain, inserted.left _ _ nested, same⟩

end Workspace
end MotionBlocks
