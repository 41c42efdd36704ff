import Stepwise.Expr.Depth

namespace Stepwise.Expr

namespace Descent

def reach (d : Descent) : Expr → Nat
  | literal _ | constant _ => 0
  | neg e => d.underMinus e + d.reach e
  | call _ e => d.argument + d.reach e
  | binary op a b => max (d.left op a + d.reach a) (d.right op b + d.reach b)

def deeper (d : Descent) (level : Nat) (node : Expr × Nat) : Nat :=
  max level (node.2 + d.reach node.1)

theorem foldl_operands (d : Descent) (seen level : Nat) (e : Expr) :
    (d.operands level e).foldl d.deeper (max seen level) = max seen (level + d.reach e) := by
  cases e with
  | literal | constant => simp [operands, reach]
  | neg | call | binary =>
    simp only [operands, List.foldl_cons, List.foldl_nil, deeper, reach]
    omega

/-- The loop finds the lowest node at or below the pending ones. -/
theorem deepest_eq_foldl (d : Descent) (seen : Nat) (pending : List (Expr × Nat)) :
    d.deepest seen pending = pending.foldl d.deeper seen := by
  fun_induction deepest d seen pending with
  | case1 seen => rfl
  | case2 seen e level pending ih =>
    rw [ih, List.foldl_append, foldl_operands, List.foldl_cons, deeper]

theorem deepest_singleton (d : Descent) (e : Expr) : d.deepest 0 [(e, 1)] = d.reach e + 1 := by
  rw [deepest_eq_foldl, List.foldl_cons, List.foldl_nil, deeper, Nat.zero_max, Nat.add_comm]

end Descent

theorem height_eq (e : Expr) : e.height = heightDescent.reach e + 1 :=
  heightDescent.deepest_singleton e

theorem nesting_eq (e : Expr) : e.nesting = nestingDescent.reach e + 1 :=
  nestingDescent.deepest_singleton e

@[simp]
theorem height_literal (v : Float) : (literal v).height = 1 :=
  height_eq _

@[simp]
theorem height_constant (c : NamedConstant) : (constant c).height = 1 :=
  height_eq _

@[simp]
theorem height_neg (e : Expr) : (neg e).height = e.height + 1 := by
  rw [height_eq, height_eq]
  change 1 + heightDescent.reach e + 1 = _
  omega

@[simp]
theorem height_call (f : NamedFunction) (e : Expr) : (call f e).height = e.height + 1 := by
  rw [height_eq, height_eq]
  change 1 + heightDescent.reach e + 1 = _
  omega

@[simp]
theorem height_binary (op : Operator) (a b : Expr) :
    (binary op a b).height = max a.height b.height + 1 := by
  rw [height_eq, height_eq, height_eq]
  change max (1 + heightDescent.reach a) (1 + heightDescent.reach b) + 1 = _
  omega

theorem height_pos (e : Expr) : 0 < e.height := by
  rw [height_eq]
  exact Nat.succ_pos _

/-- The level that parentheses around an operand open. -/
def opened (place : Place) (e : Expr) : Nat :=
  (needsParentheses place e).toNat

theorem opened_le_one (place : Place) (e : Expr) : opened place e ≤ 1 :=
  Bool.toNat_le _

@[simp]
theorem nesting_literal (v : Float) : (literal v).nesting = 1 :=
  nesting_eq _

@[simp]
theorem nesting_constant (c : NamedConstant) : (constant c).nesting = 1 :=
  nesting_eq _

@[simp]
theorem nesting_call (f : NamedFunction) (e : Expr) : (call f e).nesting = e.nesting + 1 := by
  rw [nesting_eq, nesting_eq]
  change 1 + nestingDescent.reach e + 1 = _
  omega

theorem nesting_neg (e : Expr) : (neg e).nesting = e.nesting + opened .underMinus e + 1 := by
  rw [nesting_eq, nesting_eq]
  change 1 + opened .underMinus e + nestingDescent.reach e + 1 = _
  omega

theorem nesting_binary (op : Operator) (a b : Expr) :
    (binary op a b).nesting = max (a.nesting + opened (.left op) a)
      (b.nesting + opened (.right op) b + if op = .pow then 1 else 0) := by
  rw [nesting_eq, nesting_eq, nesting_eq]
  change max (opened (.left op) a + nestingDescent.reach a)
    ((if op = .pow then 1 else 0) + opened (.right op) b + nestingDescent.reach b) + 1 = _
  omega

end Stepwise.Expr
