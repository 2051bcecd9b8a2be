namespace MotionBlocks

/-!
# Numbered registrations

Observers and listeners register and get a number to leave by.  Numbers count
up and are not given out again, so a number that has left never means someone
else.
-/

structure Registry (α : Type) where
  next : Nat
  entries : List (Nat × α)

namespace Registry

variable {α : Type}

def empty : Registry α where
  next := 0
  entries := []

/-- Registers a member behind those already there. -/
def register (registry : Registry α) (member : α) : Nat × Registry α :=
  (registry.next, ⟨registry.next + 1, registry.entries ++ [(registry.next, member)]⟩)

/-- Removes the member with a number and tells whether there was one. -/
def remove (registry : Registry α) (number : Nat) : Bool × Registry α :=
  (registry.entries.any (·.1 == number),
    { registry with entries := registry.entries.filter (·.1 != number) })

/-- Removes all members.  Their numbers stay used. -/
def clear (registry : Registry α) : Registry α :=
  { registry with entries := [] }

end Registry
end MotionBlocks
