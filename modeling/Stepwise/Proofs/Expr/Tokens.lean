import Stepwise.Proofs.Expr.Literals
import Stepwise.Proofs.Token.Listing

namespace Stepwise

def Operator.token : Operator → Token
  | add => .plus
  | sub => .minus
  | mul => .times
  | div => .divide
  | pow => .power

theorem Operator.ofSymbol?_symbol (op : Operator) : Token.ofSymbol? op.symbol = some op.token := by
  cases op <;> rfl

namespace Token

theorem scans_constant (c : NamedConstant) : Scans c.name [name c.name] := by
  cases c
  exact scans_small (by decide) (by simp [NamedConstant.name, Unicode.IsSmall])

theorem scans_function (f : NamedFunction) : Scans f.name [name f.name] := by
  cases f <;> exact scans_small (by decide) (by simp [NamedFunction.name, Unicode.IsSmall])

end Token

namespace Expr

open Token

def parenthesizedTokens (parentheses : Bool) (ts : List Token) : List Token :=
  if parentheses then .opening :: (ts ++ [.closing]) else ts

def tokens : Expr → List Token
  | literal v => [.number (numeral v)]
  | constant c => [.name c.name]
  | neg e => .minus :: parenthesizedTokens (needsParentheses .underMinus e) e.tokens
  | binary op a b =>
      parenthesizedTokens (needsParentheses (.left op) a) a.tokens ++
        op.token :: parenthesizedTokens (needsParentheses (.right op) b) b.tokens
  | call f e => .name f.name :: .opening :: (e.tokens ++ [.closing])

theorem scans_group {t : Text} {ts : List Token} (h : Scans t ts) :
    Scans ('(' :: t ++ [')']) (.opening :: (ts ++ [.closing])) :=
  (h.append rfl .nil).cons rfl

theorem scans_parenthesized {t : Text} {ts : List Token} (h : Scans t ts) (parentheses : Bool) :
    Scans (parenthesized parentheses t) (parenthesizedTokens parentheses ts) := by
  cases parentheses with
  | false => exact h
  | true => exact scans_group h

theorem scans_render {e : Expr} (h : e.Unsigned) : Scans e.render e.tokens := by
  induction e with
  | literal v =>
    obtain ⟨hv, hs⟩ := unsigned_literal.mp h
    exact scans_numeral (isNumeral_numeral hv hs)
  | constant c => exact scans_constant c
  | neg e ih => exact (scans_parenthesized (ih h) _).cons rfl
  | call f e ih =>
    rw [render, List.append_assoc]
    exact (scans_function f).append rfl ((ih h).append rfl .nil)
  | binary op a b iha ihb =>
    obtain ⟨ha, hb⟩ := unsigned_binary.mp h
    have hleft := scans_parenthesized (iha ha) (needsParentheses (.left op) a)
    have hright := scans_parenthesized (ihb hb) (needsParentheses (.right op) b)
    exact hleft.append op.ofSymbol?_symbol hright

end Expr

end Stepwise
