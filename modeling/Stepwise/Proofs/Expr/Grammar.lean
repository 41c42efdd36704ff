import Stepwise.Expr.Parse
import Stepwise.Proofs.Expr.Depth

namespace Stepwise.Expr

inductive Chain where
  | sum
  | product

/-- The kinds of phrases, from the loosest to the tightest. -/
inductive Phrase where
  | chain (c : Chain)
  | signed
  | power
  | atom

def Chain.operator? : Chain → Token → Option Operator
  | sum => additive?
  | product => multiplicative?

def Chain.operand : Chain → Phrase
  | sum => .chain .product
  | product => .signed

/-- The grammar of expressions: the tokens spell the tree as a phrase of this kind. The number
says how many signed operands lie inside one another at most; neither the length of a chain nor
the height of the tree is limited. -/
inductive Derives : Phrase → Nat → List Token → Expr → Prop
  | operand {c : Chain} {d : Nat} {ts : List Token} {e : Expr} :
      Derives c.operand d ts e → Derives (.chain c) d ts e
  | extend {c : Chain} {op : Operator} {t : Token} {d d' : Nat} {ts us : List Token} {a b : Expr} :
      Derives (.chain c) d ts a → c.operator? t = some op → Derives c.operand d' us b →
      Derives (.chain c) (max d d') (ts ++ t :: us) (binary op a b)
  | minus {d : Nat} {ts : List Token} {e : Expr} :
      Derives .signed d ts e → Derives .signed (d + 1) (.minus :: ts) (neg e)
  | plain {d : Nat} {ts : List Token} {e : Expr} :
      Derives .power d ts e → Derives .signed (d + 1) ts e
  | base {d : Nat} {ts : List Token} {e : Expr} : Derives .atom d ts e → Derives .power d ts e
  | raised {d d' : Nat} {ts us : List Token} {a b : Expr} :
      Derives .atom d ts a → Derives .signed d' us b →
      Derives .power (max d d') (ts ++ .power :: us) (binary .pow a b)
  | number {t : Text} {v : Float} :
      Decimal.finite? t = some v → Derives .atom 0 [.number t] (literal v)
  | constant {t : Text} {c : NamedConstant} :
      NamedConstant.ofName? t = some c → Derives .atom 0 [.name t] (.constant c)
  | call {t : Text} {f : NamedFunction} {d : Nat} {ts : List Token} {e : Expr} :
      NamedFunction.ofName? t = some f → Derives (.chain .sum) d ts e →
      Derives .atom d (.name t :: .opening :: (ts ++ [.closing])) (.call f e)
  | group {d : Nat} {ts : List Token} {e : Expr} :
      Derives (.chain .sum) d ts e → Derives .atom d (.opening :: (ts ++ [.closing])) e

variable {limits : Limits} {levels : Nat}

/-- The reader of a kind of phrase, while so many levels may still be opened. -/
def reader (limits : Limits) (levels : Nat) : Phrase → Reader
  | .chain .sum => sum limits (signedOperand limits levels)
  | .chain .product => product limits (signedOperand limits levels)
  | .signed => signedOperand limits levels
  | .power => power limits (signedOperand limits levels)
  | .atom => atom limits (signedOperand limits levels)

theorem reader_chain (c : Chain) : reader limits levels (.chain c) =
    chain limits c.operator? (reader limits levels c.operand) := by
  cases c <;> rfl

/-- The tokens that would make a phrase longer. -/
def Phrase.goesOn : Phrase → Token → Bool
  | .chain .sum, t => (additive? t).isSome || (multiplicative? t).isSome || t = .power
  | .chain .product, t => (multiplicative? t).isSome || t = .power
  | .signed, t | .power, t => t = .power
  | .atom, _ => false

/-- What follows a phrase does not belong to it. -/
def EndsBefore (p : Phrase) (rest : List Token) : Prop :=
  ∀ t ∈ rest.head?, p.goesOn t = false

theorem endsBefore_nil (p : Phrase) : EndsBefore p [] := by
  simp [EndsBefore]

theorem endsBefore_cons {p : Phrase} {t : Token} {rest : List Token} :
    EndsBefore p (t :: rest) ↔ p.goesOn t = false := by
  simp [EndsBefore]

theorem endsBefore_closing (p : Phrase) (rest : List Token) : EndsBefore p (.closing :: rest) := by
  rw [endsBefore_cons]
  obtain (_ | _) | _ | _ | _ := p
  all_goals rfl

theorem EndsBefore.operand {c : Chain} {rest : List Token} (h : EndsBefore (.chain c) rest) :
    EndsBefore c.operand rest := by
  intro t ht
  have := h t ht
  cases c <;> simp_all [Phrase.goesOn, Chain.operand]

theorem endsBefore_operator {c : Chain} {op : Operator} {t : Token}
    (h : c.operator? t = some op) (rest : List Token) : EndsBefore c.operand (t :: rest) := by
  rw [endsBefore_cons]
  cases c <;> cases t <;> simp_all [Chain.operator?, additive?, multiplicative?, Phrase.goesOn,
    Chain.operand]

/-- No operator of the chain follows, so the chain ends here. -/
def EndsChain (op? : Token → Option Operator) (rest : List Token) : Prop :=
  ∀ t ∈ rest.head?, op? t = none

theorem chainFrom_of_endsChain {op? : Token → Option Operator} {rest : List Token}
    (h : EndsChain op? rest) (operand : Reader) (room : Nat) (left : Expr) :
    chainFrom limits op? operand room left rest = .ok (left, rest) := by
  cases rest with
  | nil => rw [chainFrom]
  | cons t rest => rw [chainFrom, h t rfl]

theorem EndsBefore.endsChain {c : Chain} {rest : List Token} (h : EndsBefore (.chain c) rest) :
    EndsChain c.operator? rest := by
  intro t ht
  have := h t ht
  cases c <;> simp_all [Phrase.goesOn, Chain.operator?]

theorem chainFrom_end {c : Chain} {rest : List Token} (h : EndsBefore (.chain c) rest)
    (operand : Reader) (room : Nat) (left : Expr) :
    chainFrom limits c.operator? operand room left rest = .ok (left, rest) :=
  chainFrom_of_endsChain h.endsChain operand room left

end Stepwise.Expr
