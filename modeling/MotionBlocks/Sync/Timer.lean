namespace MotionBlocks

/-!
# Timers

A one-shot deadline on a clock that the host moves.  Setting a timer again
replaces its deadline, so only the latest request counts.

Times are natural numbers of nanoseconds and have no largest one.  A clock with
a largest time cannot set a deadline beyond it; runs that come near to the end of
such a clock, hundreds of billions of years from its beginning, are left out.
-/

structure Timer where
  due : Option Nat
deriving DecidableEq, Repr

namespace Timer

def unset : Timer where
  due := none

/-- Sets the deadline to a delay from now. -/
def schedule (now delay : Nat) : Timer where
  due := some (now + delay)

def isPending (timer : Timer) : Bool :=
  timer.due.isSome

/-- Whether the deadline has come. -/
def isDue (timer : Timer) (now : Nat) : Bool :=
  timer.due.any fun due => decide (due ≤ now)

/-- Drops the deadline and tells whether there was one. -/
def cancel (timer : Timer) : Bool × Timer :=
  (timer.isPending, unset)

/-- Uses the deadline up if it has come, and tells whether it has. -/
def take (timer : Timer) (now : Nat) : Bool × Timer :=
  if timer.isDue now then (true, unset) else (false, timer)

end Timer
end MotionBlocks
