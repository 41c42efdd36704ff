import Stepwise.Expr.Basic
import Stepwise.Refusal

namespace Stepwise

/-- Angles are in radians, and the logarithm is the natural one. -/
def NamedFunction.apply (f : NamedFunction) (x : Float) : Except Refusal Float :=
  match f with
  | sin => .ok x.sin
  | cos => .ok x.cos
  | tan => .ok x.tan
  | sqrt => if x < 0 then .error (.outsideDomain sqrt x) else .ok x.sqrt
  | log => if x ≤ 0 then .error (.outsideDomain log x) else .ok x.log

/-- A negative base has no real power with a fractional exponent. -/
def Operator.apply (op : Operator) (x y : Float) : Except Refusal Float :=
  match op with
  | add => .ok (x + y)
  | sub => .ok (x - y)
  | mul => .ok (x * y)
  | div => if y == 0 then .error .divisionByZero else .ok (x / y)
  | pow => if (x.pow y).isNaN then .error (.noRealPower x) else .ok (x.pow y)

def finite (v : Float) : Except Refusal Float :=
  if v.isFinite then .ok v else .error .notFinite

/-- Operands are evaluated from left to right, and a value that is not finite is refused where it
arises. -/
def Expr.value : Expr → Except Refusal Float
  | literal v => finite v
  | constant c => finite c.value
  | neg e => do
      let x ← e.value
      finite (-x)
  | binary op a b => do
      let x ← a.value
      let y ← b.value
      finite (← op.apply x y)
  | call f e => do
      let x ← e.value
      finite (← f.apply x)

end Stepwise
