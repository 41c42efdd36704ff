import Stepwise.Number.Shortest

namespace Stepwise

open Binary64

def digits (v : Float) : Text :=
  (Decimal.shortest .greater (index v)).text

/-- The number as it is: zero keeps its sign, and values that are not finite have words. -/
def plainNumeral (v : Float) : Text :=
  if v.isNaN then "NaN".toList
  else
    let size := if index v = infinity then "inf".toList else digits v
    if isNegative v then '-' :: size else size

/-- The number as a result is shown and can be typed in again: zero has no sign. -/
def numeral (v : Float) : Text :=
  if index v = 0 then ['0'] else plainNumeral v

end Stepwise
