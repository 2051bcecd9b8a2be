import MotionBlocks.Number.Double

namespace MotionBlocks
namespace Number

/-!
# Degrees and radians

Rotations are played in radians and edited in degrees.  Neither conversion is
exact, so the way back from radians looks for a number of degrees that converts
onto them exactly among the nearest candidates.  Not every angle has one.
-/

/-- The circle constant. -/
def circleConstant : Float := 3.141592653589793

/-- How many doubles are tried on each side of the plain conversion. -/
def degreeSearchReach : Nat := 4

def degreesToRadians (degrees : Float) : Float :=
  degrees * circleConstant / 180.0

def radiansToDegrees (radians : Float) : Float :=
  radians * 180.0 / circleConstant

/-- Looks for degrees that convert onto the radians, moving outwards from a
pair of candidates and trying the upper one first. -/
def exactDegrees? (radians below above : Float) : Nat → Option Float
  | 0 => none
  | tries + 1 =>
    if degreesToRadians above == radians then some above
    else if degreesToRadians below == radians then some below
    else exactDegrees? radians (neighbour below false) (neighbour above true) tries

/-- The degrees to show for an angle in radians: some that convert back
exactly if there are any nearby, else the plain conversion. -/
def degreesFor (radians : Float) : Float :=
  let estimate := radiansToDegrees radians
  if estimate.isFinite then
    (exactDegrees? radians estimate estimate (degreeSearchReach + 1)).getD estimate
  else estimate

end Number
end MotionBlocks
