import MotionBlocks.Proofs.Forest.Links

namespace MotionBlocks

/-!
# Chains

A chain is what a link leads to: a first block, its successor, the successor of
that one, and so on to a block without a successor.  It is read here as the list
of its blocks, so that cutting a chain and putting one behind another are
operations on lists.

A chain is read off the links to successors of its own blocks only.  Links that
agree on those have the same chain, whatever they say elsewhere; this is how a
chain is followed through an edit.
-/

namespace Links

/-- The blocks of the chain that a link leads to, in order. -/
inductive Chain (links : Links) : Option BlockId → List BlockId → Prop where
  | ends : Chain links none []
  | block {id : BlockId} {rest : List BlockId} :
      Chain links (links.child id .next) rest → Chain links (some id) (id :: rest)

section

variable {links other : Links} {start : Option BlockId} {ids front rest : List BlockId}
  {id last : BlockId}

theorem Chain.unique {second : List BlockId} (chain : links.Chain start ids)
    (another : links.Chain start second) : ids = second := by
  induction chain generalizing second with
  | ends => cases another with | ends => rfl
  | block _ ih => cases another with | block behind => rw [ih behind]

theorem Chain.start_eq (chain : links.Chain start ids) : start = ids.head? := by
  cases chain <;> rfl

/-- All blocks of a chain hang from its first one. -/
theorem Chain.reaches_of_mem {head : BlockId} (chain : links.Chain (some head) ids)
    (listed : id ∈ ids) : links.Reaches head id := by
  induction ids generalizing head with
  | nil => cases listed
  | cons first rest ih =>
    rcases chain with _ | behind
    rcases List.mem_cons.mp listed with rfl | later
    · exact .refl
    · cases following : links.child first .next with
      | none =>
        rw [following] at behind
        cases behind
        cases later
      | some next => exact .head ⟨.next, following⟩ (ih (following ▸ behind) later)

/-- The last block of a chain has no successor. -/
theorem Chain.next_last (chain : links.Chain start (front ++ [last])) :
    links.child last .next = none := by
  induction front generalizing start with
  | nil =>
    rcases chain with _ | behind
    exact behind.start_eq
  | cons first front ih =>
    rcases chain with _ | behind
    exact ih behind

theorem Chain.congr (chain : links.Chain start ids)
    (same : ∀ id ∈ ids, other.child id .next = links.child id .next) : other.Chain start ids := by
  induction chain with
  | ends => exact .ends
  | block behind ih =>
    refine .block ?_
    rw [same _ List.mem_cons_self]
    exact ih fun id listed => same id (List.mem_cons_of_mem _ listed)

/-- A chain goes on behind the block that was its last one. -/
theorem Chain.extend (chain : links.Chain start (front ++ [last]))
    (same : ∀ id ∈ front, id ≠ last → other.child id .next = links.child id .next)
    (behind : other.Chain (other.child last .next) rest) :
    other.Chain start (front ++ last :: rest) := by
  induction front generalizing start with
  | nil =>
    rcases chain with _ | _
    exact .block behind
  | cons first front ih =>
    have ends := chain.next_last
    rcases chain with _ | following
    -- A block that has successors in the chain is not the last one.
    have different : first ≠ last := by
      rintro rfl
      rw [ends] at following
      cases front <;> cases following
    refine .block ?_
    rw [same first List.mem_cons_self different]
    exact ih following fun id listed => same id (List.mem_cons_of_mem first listed)

/-- A chain loses a block that is taken off its place and all that followed it. -/
theorem Chain.detach (chain : links.Chain start ids) (id : BlockId) :
    (links.detach id).Chain (start.filter (· ≠ id)) (ids.takeWhile (· ≠ id)) := by
  induction chain with
  | ends => exact .ends
  | @block first rest behind ih =>
    by_cases here : first = id
    · simpa [here, Option.filter_some] using Chain.ends
    · simpa [here, Option.filter_some] using Chain.block ih

end

end Links
end MotionBlocks
