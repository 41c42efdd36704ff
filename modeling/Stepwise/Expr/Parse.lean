import Stepwise.Expr.Depth
import Stepwise.Number.Decimal
import Stepwise.Refusal

namespace Stepwise.Expr

structure Limits where
  /-- How many signed operands may lie inside one another. -/
  nesting : Nat
  /-- How high the tree may be, and how many operands a chain may have. -/
  height : Nat

def standardLimits : Limits where
  nesting := 512
  height := 1000

/-- Takes an expression from the front of the tokens and leaves the rest. From the loosest to the
tightest, an expression is

* a sum: products joined by `+` and `-`, grouped to the left;
* a product: signed operands joined by `*` and `/`, grouped to the left;
* a signed operand: a minus before a signed operand, or a power;
* a power: an atom, which may be raised to a signed operand;
* an atom: a number, a constant, or a sum in parentheses, alone or after a function. -/
abbrev Reader := List Token → Except Refusal (Expr × List Token)

def additive? : Token → Option Operator
  | .plus => some .add
  | .minus => some .sub
  | _ => none

def multiplicative? : Token → Option Operator
  | .times => some .mul
  | .divide => some .div
  | _ => none

/-- Extends `left` by operators and operands as long as there are any. The tree becomes as high
as the chain is long, so a chain stops when there is no room left. -/
def chainFrom (limits : Limits) (op? : Token → Option Operator) (operand : Reader)
    (room : Nat) (left : Expr) : Reader
  | [] => .ok (left, [])
  | token :: rest =>
      match op? token with
      | none => .ok (left, token :: rest)
      | some op =>
          match room with
          | 0 => .error (.tooDeep limits.height)
          | room + 1 => do
              let (right, rest) ← operand rest
              chainFrom limits op? operand room (binary op left right) rest

def chain (limits : Limits) (op? : Token → Option Operator) (operand : Reader) : Reader :=
  fun tokens => do
    let (first, rest) ← operand tokens
    chainFrom limits op? operand (limits.height - 1) first rest

variable (limits : Limits) (signed : Reader)

def product : Reader :=
  chain limits multiplicative? signed

def sum : Reader :=
  chain limits additive? (product limits signed)

def group : Reader := fun tokens => do
  let (e, rest) ← sum limits signed tokens
  match rest with
  | .closing :: rest => .ok (e, rest)
  | token :: _ => .error (.unexpectedToken token)
  | [] => .error .unclosedParenthesis

/-- A name is a constant, or a function with an opening parenthesis after it. -/
def named (name : Text) : Reader := fun rest =>
  match NamedConstant.ofName? name, NamedFunction.ofName? name with
  | some c, _ => .ok (constant c, rest)
  | none, none => .error (.unknownName name)
  | none, some f =>
      match rest with
      | .opening :: rest => do
          let (argument, rest) ← group limits signed rest
          return (call f argument, rest)
      | _ => .error (.missingParenthesis f)

def atom : Reader
  | [] => .error .unexpectedEnd
  | .number numeral :: rest =>
      match Decimal.finite? numeral with
      | some v => .ok (literal v, rest)
      | none => .error (.malformedNumber numeral)
  | .name letters :: rest => named limits signed letters rest
  | .opening :: rest => group limits signed rest
  | token :: _ => .error (.unexpectedToken token)

def power : Reader := fun tokens => do
  let (base, rest) ← atom limits signed tokens
  match rest with
  | .power :: rest =>
      let (exponent, rest) ← signed rest
      return (binary .pow base exponent, rest)
  | _ => .ok (base, rest)

/-- Reads a signed operand while so many levels may still be opened, its own included. Every way
down passes through one, so the recursion descends on the levels. -/
def signedOperand (limits : Limits) : (levels : Nat) → Reader
  | 0, _ => .error (.tooDeep limits.nesting)
  | levels + 1, .minus :: rest => do
      let (operand, rest) ← signedOperand limits levels rest
      return (neg operand, rest)
  | levels + 1, tokens => power limits (signedOperand limits levels) tokens

/-- The expression that the tokens spell, all of them. Two minus signs in a row nest deeper in
the canonical text than in the tokens, so the nesting of the tree is checked as well. -/
def parse (limits : Limits) (tokens : List Token) : Except Refusal Expr :=
  if tokens.isEmpty then .error .emptyEntry
  else do
    let (e, rest) ← sum limits (signedOperand limits limits.nesting) tokens
    match rest with
    | token :: _ => .error (.unexpectedToken token)
    | [] =>
        if limits.height < e.height then .error (.tooDeep limits.height)
        else if limits.nesting < e.nesting then .error (.tooDeep limits.nesting)
        else .ok e

end Stepwise.Expr
