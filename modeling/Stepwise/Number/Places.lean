import Stepwise.Number.Binary64

namespace Stepwise

open Binary64

attribute [local instance (high)] instPowNat

/-- The index of `2 ^ 52`, from which on every number is an integer. -/
def firstIntegral : Nat := 0x4330000000000000

/-- The multiple of `10 ^ (-places)` nearest to a number, counted in such multiples; halfway
between two, the one farther from zero. -/
def wholePlaces (places k : Nat) : Nat :=
  (2 * units k * 10 ^ places + one) / (2 * one)

/-- The floating-point number nearest to a number rounded to so many places. From `2 ^ 52` on,
numbers stay as they are, and so do values that are not finite; a zero has no sign. -/
def roundPlaces (places : Nat) (v : Float) : Float :=
  let k := index v
  if firstIntegral ≤ k then v
  else
    let rounded := nearest (wholePlaces places k) (10 ^ places)
    ofIndex (isNegative v && rounded != 0) rounded

def stepPlaces : Nat := 4

end Stepwise
