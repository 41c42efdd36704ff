import Stepwise.Number.Binary64
import Stepwise.Text

namespace Stepwise

/-- The number `numerator / 10 ^ places`. -/
structure Decimal where
  numerator : Nat
  places : Nat
  deriving DecidableEq

namespace Decimal

-- Core's power, as for binary numbers.
attribute [local instance (high)] instPowNat

/-- Reads digits with at most one point, at either end or among them. -/
def read (numeral : Text) : Decimal :=
  let whole := numeral.takeWhile (· != '.')
  let fraction := numeral.drop (whole.length + 1)
  ⟨Nat.ofDigitChars 10 (whole ++ fraction) 0, fraction.length⟩

/-- The first `n` digits after the point of `m / 10 ^ n`, without trailing zeros. -/
def fractionDigits : Nat → Nat → Text
  | 0, _ => []
  | n + 1, m =>
      if m = 0 then [] else Nat.digitChar (m / 10 ^ n) :: fractionDigits n (m % 10 ^ n)

/-- The numeral without trailing zeros after the point, and without a point if nothing
follows it. -/
def text (d : Decimal) : Text :=
  let whole := Nat.toDigits 10 (d.numerator / 10 ^ d.places)
  match fractionDigits d.places (d.numerator % 10 ^ d.places) with
  | [] => whole
  | fraction => whole ++ '.' :: fraction

def index (d : Decimal) : Nat :=
  Binary64.nearest d.numerator (10 ^ d.places)

def shift (d : Decimal) (n : Int) : Decimal :=
  ⟨d.numerator * 10 ^ n.toNat, d.places + (-n).toNat⟩

/-- Digits with at most one point, and at least one digit. -/
def isNumeral (t : Text) : Bool :=
  t.all (fun c => c.isDigit || c == '.') && t.count '.' ≤ 1 && t.any Char.isDigit

def splitSign : Text → Bool × Text
  | '-' :: t => (true, t)
  | '+' :: t => (false, t)
  | t => (false, t)

/-- The power of ten that stands after the letter `e`. -/
def power? : Text → Option Int
  | [] => some 0
  | _ :: t =>
      let (negative, ds) := splitSign t
      if ds.isEmpty || !ds.all Char.isDigit then none
      else some (if negative then -Nat.ofDigitChars 10 ds 0 else Nat.ofDigitChars 10 ds 0)

/-- The floating-point number that a text stands for, unless it is malformed or too large. Beside
numerals, which are all that an entry can hold, it may have a sign and a power of ten. -/
def finite? (t : Text) : Option Float := do
  let (negative, size) := splitSign t
  let mantissa := size.takeWhile fun c => c != 'e' && c != 'E'
  let power ← power? (size.drop mantissa.length)
  let v := Binary64.ofIndex negative ((read mantissa).shift power).index
  if isNumeral mantissa && v.isFinite then some v else none

end Decimal

end Stepwise
