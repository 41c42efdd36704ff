import Stepwise.Expr.Basic
import Stepwise.Number.Numeral

namespace Stepwise.Expr

inductive Place where
  | left (op : Operator)
  | right (op : Operator)
  | underMinus
  deriving DecidableEq

/-- Chains of these operators are bare where they nest to the left. -/
def sameChain : Operator → Operator → Bool
  | .add, .add | .add, .sub | .sub, .add | .sub, .sub => true
  | .mul, .mul | .mul, .div | .div, .mul | .div, .div => true
  | _, _ => false

/-- Below the top, every minus and every negative number is in parentheses, and so is every other
operation except the left operand of a chain. -/
def needsParentheses (place : Place) : Expr → Bool
  | literal v => Binary64.isNegative v && v != 0
  | constant _ | call .. => false
  | neg _ => true
  | binary inner .. =>
      match place with
      | .left outer => !sameChain outer inner
      | .right _ | .underMinus => true

def parenthesized (parentheses : Bool) (t : Text) : Text :=
  if parentheses then '(' :: t ++ [')'] else t

/-- The canonical text of an expression, which the steps show; there are no blanks in it. -/
def render : Expr → Text
  | literal v => numeral v
  | constant c => c.name
  | neg e => '-' :: parenthesized (needsParentheses .underMinus e) e.render
  | binary op a b =>
      parenthesized (needsParentheses (.left op) a) a.render ++
        op.symbol :: parenthesized (needsParentheses (.right op) b) b.render
  | call f e => f.name ++ '(' :: e.render ++ [')']

/-- The canonical text of an expression and those of its composite parts. They are found
together, since the text of the whole is made of the texts of its operands. -/
def texts (e : Expr) : Text × List Text :=
  let (whole, inside) := match e with
    | literal v => (numeral v, [])
    | constant c => (c.name, [])
    | neg operand =>
        let (text, inside) := operand.texts
        ('-' :: parenthesized (needsParentheses .underMinus operand) text, inside)
    | binary op a b =>
        let (left, insideLeft) := a.texts
        let (right, insideRight) := b.texts
        (parenthesized (needsParentheses (.left op) a) left ++
          op.symbol :: parenthesized (needsParentheses (.right op) b) right,
          insideLeft ++ insideRight)
    | call f argument =>
        let (text, inside) := argument.texts
        (f.name ++ '(' :: text ++ [')'], inside)
  (whole, if e.isComposite then whole :: inside else inside)

theorem texts_eq (e : Expr) : e.texts = (e.render, e.composites.map render) := by
  induction e with
  | literal v => rfl
  | constant c => rfl
  | neg e ih => simp [texts, ih, render, isComposite]
  | binary op a b iha ihb => simp [texts, iha, ihb, render, isComposite]
  | call f e ih => simp [texts, ih, render, isComposite]

end Stepwise.Expr
