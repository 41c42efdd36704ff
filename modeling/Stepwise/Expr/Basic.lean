import Stepwise.Name

namespace Stepwise

inductive Operator where
  | add | sub | mul | div | pow
  deriving DecidableEq

def Operator.symbol : Operator → Char
  | add => '+'
  | sub => '-'
  | mul => '*'
  | div => '/'
  | pow => '^'

/-- Trees that are read from a text have literals without a sign. The test `==` compares literals
as numbers, so it takes the two zeros for the same literal. -/
inductive Expr where
  | literal (value : Float)
  | constant (c : NamedConstant)
  | neg (operand : Expr)
  | binary (op : Operator) (left right : Expr)
  | call (f : NamedFunction) (argument : Expr)
  deriving BEq, DecidableEq

namespace Expr

/-- An expression with an operator or a function on top; only those have a step of their own. -/
def isComposite : Expr → Bool
  | literal _ | constant _ => false
  | neg _ | binary .. | call .. => true

/-- The composite subexpressions, each before those inside it, from left to right. -/
def composites (e : Expr) : List Expr :=
  let inside := match e with
    | literal _ | constant _ => []
    | neg operand | call _ operand => operand.composites
    | binary _ a b => a.composites ++ b.composites
  if e.isComposite then e :: inside else inside

def size : Expr → Nat
  | literal _ | constant _ => 1
  | neg e | call _ e => e.size + 1
  | binary _ a b => a.size + b.size + 1

@[simp]
theorem composites_literal (v : Float) : (literal v).composites = [] := rfl

@[simp]
theorem composites_constant (c : NamedConstant) : (constant c).composites = [] := rfl

@[simp]
theorem composites_neg (e : Expr) : (neg e).composites = neg e :: e.composites := rfl

@[simp]
theorem composites_call (f : NamedFunction) (e : Expr) :
    (call f e).composites = call f e :: e.composites := rfl

@[simp]
theorem composites_binary (op : Operator) (a b : Expr) :
    (binary op a b).composites = binary op a b :: (a.composites ++ b.composites) := rfl

end Expr

end Stepwise
