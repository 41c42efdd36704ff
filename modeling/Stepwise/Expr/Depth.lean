import Stepwise.Expr.Render

namespace Stepwise.Expr

/-- A rule of counting levels: how far an operand lies below its parent. The height of a tree and the
nesting of its canonical text are each the greatest level of a node, by different rules. -/
structure Descent where
  underMinus : Expr → Nat
  argument : Nat
  left : Operator → Expr → Nat
  right : Operator → Expr → Nat

namespace Descent

/-- The operands of an expression on a given level, with their own levels. -/
def operands (d : Descent) (level : Nat) : Expr → List (Expr × Nat)
  | literal _ | constant _ => []
  | neg e => [(e, level + d.underMinus e)]
  | call _ e => [(e, level + d.argument)]
  | binary op a b => [(a, level + d.left op a), (b, level + d.right op b)]

def pendingSize : List (Expr × Nat) → Nat
  | [] => 0
  | (e, _) :: pending => e.size + pendingSize pending

theorem pendingSize_operands_lt (d : Descent) (level : Nat) (e : Expr)
    (pending : List (Expr × Nat)) :
    pendingSize (d.operands level e ++ pending) < pendingSize ((e, level) :: pending) := by
  cases e with
  | literal | constant => simp [pendingSize, operands, size]
  | neg | call | binary =>
    simp only [pendingSize, operands, size, List.cons_append, List.nil_append]
    omega

/-- The greatest of the levels seen so far and of those of all nodes at or below the pending
ones. The loop measures a tree of any shape without deep recursion. -/
def deepest (d : Descent) (seen : Nat) : List (Expr × Nat) → Nat
  | [] => seen
  | (e, level) :: pending => d.deepest (max seen level) (d.operands level e ++ pending)
termination_by pending => pendingSize pending
decreasing_by exact pendingSize_operands_lt d level e pending

end Descent

def heightDescent : Descent where
  underMinus _ := 1
  argument := 1
  left _ _ := 1
  right _ _ := 1

def height (e : Expr) : Nat :=
  heightDescent.deepest 0 [(e, 1)]

/-- Parentheses, a minus, an exponent and an argument each open a level. -/
def nestingDescent : Descent where
  underMinus e := 1 + (needsParentheses .underMinus e).toNat
  argument := 1
  left op e := (needsParentheses (.left op) e).toNat
  right op e := (if op = .pow then 1 else 0) + (needsParentheses (.right op) e).toNat

/-- How many levels are open at once while the canonical text is read. -/
def nesting (e : Expr) : Nat :=
  nestingDescent.deepest 0 [(e, 1)]

end Stepwise.Expr
