import Stepwise.Proofs.Expr.Acceptance
import Stepwise.Proofs.Expr.Tokens
import Stepwise.Proofs.Token.Cutting

namespace Stepwise

open Stepwise.Expr

/-- The chain that an operator continues; powers form none. -/
def Operator.chain? : Operator → Option Chain
  | add | sub => some .sum
  | mul | div => some .product
  | pow => none

theorem Operator.eq_pow_of_chain?_eq_none {op : Operator} (h : op.chain? = none) : op = .pow := by
  cases op <;> first | rfl | cases h

theorem Operator.ne_pow_of_chain?_eq_some {op : Operator} {c : Chain} (h : op.chain? = some c) :
    op ≠ .pow := by
  rintro rfl
  cases h

namespace Expr

theorem sameChain_iff {outer inner : Operator} :
    sameChain outer inner = true ↔ ∃ c, outer.chain? = some c ∧ inner.chain? = some c := by
  cases outer <;> cases inner <;> simp [sameChain, Operator.chain?]

theorem operator?_token {op : Operator} {c : Chain} (h : op.chain? = some c) :
    c.operator? op.token = some op := by
  cases op <;> cases h <;> rfl

/-- What a tree is written as when it has no parentheses around it. -/
def phrase : Expr → Phrase
  | literal _ | constant _ | call .. => .atom
  | neg _ => .signed
  | binary op .. => op.chain?.elim .power .chain

/-- The level that a phrase opens when it stands where a signed operand may stand. -/
def Phrase.opens : Phrase → Nat
  | .chain _ | .signed => 0
  | .power | .atom => 1

section Climb

variable {d : Nat} {ts : List Token} {e : Expr}

theorem Derives.toOperand {c : Chain} (h : Derives .signed d ts e) : Derives c.operand d ts e := by
  cases c with
  | sum => exact .operand (c := .product) h
  | product => exact h

theorem Derives.toSum {p : Phrase} (h : Derives p d ts e) :
    Derives (.chain .sum) (d + p.opens) ts e := by
  cases p with
  | chain c =>
    cases c with
    | sum => exact h
    | product => exact .operand (c := .sum) h
  | signed => exact .operand h.toOperand
  | power => exact .operand h.plain.toOperand
  | atom => exact .operand h.base.plain.toOperand

end Climb

/-- The canonical text of a tree spells it, with the nesting that was foretold. -/
def Spelled (e : Expr) : Prop :=
  ∃ d, d + e.phrase.opens = e.nesting ∧ Derives e.phrase d e.tokens e

theorem Spelled.toSum {e : Expr} (h : e.Spelled) : Derives (.chain .sum) e.nesting e.tokens e := by
  obtain ⟨d, hd, he⟩ := h
  rw [← hd]
  exact he.toSum

theorem Spelled.toSigned {e : Expr} (h : e.Spelled) (hchain : ∀ c, e.phrase ≠ .chain c) :
    Derives .signed e.nesting e.tokens e := by
  obtain ⟨d, hd, he⟩ := h
  rw [← hd]
  cases hphrase : e.phrase with
  | chain c => exact absurd hphrase (hchain c)
  | signed => rwa [hphrase] at he
  | power => rw [hphrase] at he; exact he.plain
  | atom => rw [hphrase] at he; exact he.base.plain

def operandTokens (place : Place) (e : Expr) : List Token :=
  parenthesizedTokens (needsParentheses place e) e.tokens

/-- Parentheses make an atom of everything. -/
theorem Spelled.atom {e : Expr} (h : e.Spelled) {place : Place}
    (hatom : needsParentheses place e = false → e.phrase = .atom) :
    ∃ d, d + 1 = e.nesting + opened place e ∧ Derives .atom d (operandTokens place e) e := by
  rw [opened, operandTokens]
  cases hparentheses : needsParentheses place e with
  | true => exact ⟨e.nesting, rfl, h.toSum.group⟩
  | false =>
    obtain ⟨d, hd, he⟩ := h
    rw [hatom hparentheses] at hd he
    exact ⟨d, hd, he⟩

/-- Only the left operand of a chain is ever bare without being an atom. -/
theorem bare_cases {e : Expr} {place : Place} (h : needsParentheses place e = false) :
    e.phrase = .atom ∨ ∃ op c, place = .left op ∧ op.chain? = some c ∧ e.phrase = .chain c := by
  cases e with
  | literal | constant | call => exact Or.inl rfl
  | neg => cases h
  | binary inner a b =>
    cases place with
    | right | underMinus => cases h
    | left outer =>
      have hsame : sameChain outer inner = true := by simpa [needsParentheses] using h
      obtain ⟨c, houter, hinner⟩ := sameChain_iff.mp hsame
      refine Or.inr ⟨outer, c, rfl, houter, ?_⟩
      rw [phrase, hinner]
      rfl

theorem Spelled.signed {e : Expr} (h : e.Spelled) (place : Place)
    (hplace : ∀ op, place ≠ .left op) :
    Derives .signed (e.nesting + opened place e) (operandTokens place e) e := by
  have hatom : needsParentheses place e = false → e.phrase = .atom := by
    intro hbare
    obtain hatom | ⟨op, c, hop, -, -⟩ := bare_cases hbare
    · exact hatom
    · exact absurd hop (hplace op)
  obtain ⟨d, hd, he⟩ := h.atom hatom
  rw [← hd]
  exact he.base.plain

theorem Spelled.left {e : Expr} (h : e.Spelled) {op : Operator} {c : Chain}
    (hc : op.chain? = some c) :
    Derives (.chain c) (e.nesting + opened (.left op) e) (operandTokens (.left op) e) e := by
  by_cases hatom : needsParentheses (.left op) e = false → e.phrase = .atom
  · obtain ⟨d, hd, he⟩ := h.atom hatom
    rw [← hd]
    exact .operand he.base.plain.toOperand
  · obtain ⟨hbare, hne⟩ := Classical.not_imp.mp hatom
    obtain hphrase | ⟨op', c', hop, hc', hphrase⟩ := bare_cases hbare
    · exact absurd hphrase hne
    · cases hop
      obtain rfl : c = c' := Option.some.inj (hc.symm.trans hc')
      obtain ⟨d, hd, he⟩ := h
      rw [hphrase] at hd he
      rw [opened, operandTokens, hbare, ← hd]
      exact he

theorem spelled_neg {e : Expr} (h : e.Spelled) : (neg e).Spelled := by
  have he := h.signed .underMinus (by simp)
  exact ⟨_, (nesting_neg e).symm, he.minus⟩

theorem spelled_chain {op : Operator} {c : Chain} {a b : Expr} (hc : op.chain? = some c)
    (ha : a.Spelled) (hb : b.Spelled) : (binary op a b).Spelled := by
  have hleft := ha.left hc
  have hright := hb.signed (.right op) (by simp)
  have hphrase : (binary op a b).phrase = .chain c := by
    rw [phrase, hc]
    rfl
  rw [Spelled, hphrase, nesting_binary, if_neg (Operator.ne_pow_of_chain?_eq_some hc)]
  exact ⟨_, rfl, hleft.extend (operator?_token hc) hright.toOperand⟩

theorem spelled_pow {a b : Expr} (ha : a.Spelled) (hb : b.Spelled) :
    (binary .pow a b).Spelled := by
  have hatom : needsParentheses (.left .pow) a = false → a.phrase = .atom := by
    intro hbare
    obtain hatom | ⟨op, c, hop, hc, -⟩ := bare_cases hbare
    · exact hatom
    · cases hop
      cases hc
  obtain ⟨d, hd, hleft⟩ := ha.atom hatom
  have hright := hb.signed (.right .pow) (by simp)
  refine ⟨_, ?_, hleft.raised hright⟩
  rw [nesting_binary, if_pos rfl, ← hd]
  exact (Nat.add_max_add_right _ _ 1).symm

theorem spelled {e : Expr} (h : e.Unsigned) : e.Spelled := by
  induction e with
  | literal v =>
    obtain ⟨hv, hs⟩ := unsigned_literal.mp h
    exact ⟨0, (nesting_literal v).symm, .number (finite?_numeral hv hs)⟩
  | constant c =>
    refine ⟨0, (nesting_constant c).symm, .constant ?_⟩
    cases c
    rfl
  | neg e ih => exact spelled_neg (ih h)
  | binary op a b iha ihb =>
    obtain ⟨ha, hb⟩ := unsigned_binary.mp h
    cases hc : op.chain? with
    | some c => exact spelled_chain hc (iha ha) (ihb hb)
    | none =>
      obtain rfl := Operator.eq_pow_of_chain?_eq_none hc
      exact spelled_pow (iha ha) (ihb hb)
  | call f e ih =>
    exact ⟨e.nesting, (nesting_call f e).symm, .call (NamedFunction.ofName?_name f) (ih h).toSum⟩

theorem parse_tokens (limits : Limits) {e : Expr} (h : e.Unsigned) :
    ReadsUnless (¬(e.height ≤ limits.height ∧ e.nesting ≤ limits.nesting)) (parse limits e.tokens)
      (.ok e) :=
  (parse_of_derives (spelled h).toSum).mono (by omega)

/-- The canonical text of any tree with finite literals is read back as the tree in its normal
form, unless that is too deep. Trees that are read from texts are in normal form already. -/
theorem parse_render (limits : Limits) {e : Expr} (h : e.Finite) :
    (∃ tokens, Token.scan e.render = .ok tokens ∧
      (e.normalized.height ≤ limits.height ∧ e.normalized.nesting ≤ limits.nesting →
        parse limits tokens = .ok e.normalized) ∧
      (¬(e.normalized.height ≤ limits.height ∧ e.normalized.nesting ≤ limits.nesting) →
        ∃ limit, parse limits tokens = .error (.tooDeep limit))) ∧
    ∀ t ts e', Token.scan t = .ok ts → parse limits ts = .ok e' → e'.normalized = e' := by
  have hunsigned := unsigned_normalized h
  have hread := parse_tokens limits hunsigned
  refine ⟨⟨e.normalized.tokens, ?_, ?_, ?_⟩, ?_⟩
  · rw [← render_normalized h]
    exact (scans_render hunsigned).scan_eq
  · intro hbounds
    exact hread.eq_of_not (not_not_intro hbounds)
  · intro hbounds
    obtain hok | ⟨-, herror⟩ := hread
    · exact absurd (derives_of_parse hok).2 hbounds
    · exact herror
  · intro t ts e' hscan hparse
    obtain ⟨⟨d, -, hderives⟩, -⟩ := derives_of_parse hparse
    exact (hderives.unsigned (Token.isNumeral_of_scan hscan)).normalized_eq

theorem parse_render_negative_base :
    (binary .pow (literal (-2)) (literal (-0.0))).Finite ∧
      ∃ tokens, Token.scan (binary .pow (literal (-2)) (literal (-0.0))).render = .ok tokens ∧
        parse standardLimits tokens = .ok (binary .pow (neg (literal 2)) (literal 0)) := by
  have hfinite : (binary .pow (literal (-2)) (literal (-0.0))).Finite := by
    unfold Finite
    decide
  have hnormalized : (binary .pow (literal (-2)) (literal (-0.0))).normalized =
      binary .pow (neg (literal 2)) (literal 0) := by
    decide
  obtain ⟨⟨tokens, hscan, hparse, -⟩, -⟩ := parse_render standardLimits hfinite
  rw [hnormalized] at hparse
  refine ⟨hfinite, tokens, hscan, hparse ⟨?_, ?_⟩⟩
  · simp [standardLimits]
  · rw [nesting_binary, nesting_neg]
    decide +kernel

end Expr

end Stepwise
