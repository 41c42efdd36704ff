import Stepwise.Proofs.Expr.Grammar
import Stepwise.Proofs.Number.Numeral

namespace Stepwise.Expr

open Binary64

def literals : Expr → List Float
  | literal v => [v]
  | constant _ => []
  | neg e | call _ e => e.literals
  | binary _ a b => a.literals ++ b.literals

def Finite (e : Expr) : Prop :=
  ∀ v ∈ e.literals, v.isFinite = true

def Unsigned (e : Expr) : Prop :=
  ∀ v ∈ e.literals, v.isFinite = true ∧ isNegative v = false

/-- Every negative literal becomes a minus before its size, and zero loses its sign. -/
def normalized : Expr → Expr
  | literal v =>
      if v < 0 then neg (literal (-v)) else if v == 0 then literal 0 else literal v
  | constant c => constant c
  | neg e => neg e.normalized
  | binary op a b => binary op a.normalized b.normalized
  | call f e => call f e.normalized

section

variable {v : Float} {op : Operator} {a b : Expr}

theorem finite_literal : (literal v).Finite ↔ v.isFinite = true := by
  simp only [Finite, literals, List.forall_mem_singleton]

theorem finite_binary : (binary op a b).Finite ↔ a.Finite ∧ b.Finite := by
  simp only [Finite, literals, List.forall_mem_append]

theorem unsigned_literal :
    (literal v).Unsigned ↔ v.isFinite = true ∧ isNegative v = false := by
  simp only [Unsigned, literals, List.forall_mem_singleton]

theorem unsigned_constant (c : NamedConstant) : (constant c).Unsigned := by
  intro v hv
  cases hv

theorem unsigned_binary : (binary op a b).Unsigned ↔ a.Unsigned ∧ b.Unsigned := by
  simp only [Unsigned, literals, List.forall_mem_append]

end

theorem unsigned_of_finite? {t : Text} {v : Float} (ht : Decimal.isNumeral t = true)
    (h : Decimal.finite? t = some v) : (literal v).Unsigned := by
  rw [Decimal.finite?_of_isNumeral ht] at h
  split at h
  · obtain rfl := Option.some.inj h
    exact unsigned_literal.mpr ⟨‹_›, isNegative_ofIndex false (Decimal.index_le_infinity _)⟩
  · cases h

/-- All numbers among the tokens are numerals, as those from a text are. -/
def Scanned (ts : List Token) : Prop :=
  ∀ n, .number n ∈ ts → Decimal.isNumeral n = true

/-- The literals of a tree are numbers among its tokens. -/
theorem Derives.exists_number {p : Phrase} {d : Nat} {ts : List Token} {e : Expr}
    (h : Derives p d ts e) :
    ∀ v ∈ e.literals, ∃ t, .number t ∈ ts ∧ Decimal.finite? t = some v := by
  induction h with
  | operand _ ih | plain _ ih | base _ ih => exact ih
  | minus _ ih | call _ _ ih | group _ ih =>
    intro v hv
    obtain ⟨t, ht, hvalue⟩ := ih v hv
    exact ⟨t, by simp [ht], hvalue⟩
  | extend _ _ _ iha ihb | raised _ _ iha ihb =>
    intro v hv
    obtain hv | hv := List.mem_append.mp hv
    · obtain ⟨t, ht, hvalue⟩ := iha v hv
      exact ⟨t, List.mem_append_left _ ht, hvalue⟩
    · obtain ⟨t, ht, hvalue⟩ := ihb v hv
      exact ⟨t, List.mem_append_right _ (List.mem_cons_of_mem _ ht), hvalue⟩
  | number hvalue =>
    intro v hv
    rw [List.mem_singleton.mp hv]
    exact ⟨_, List.mem_singleton.mpr rfl, hvalue⟩
  | constant =>
    intro v hv
    cases hv

theorem Derives.finite {p : Phrase} {d : Nat} {ts : List Token} {e : Expr}
    (h : Derives p d ts e) : e.Finite := by
  intro v hv
  obtain ⟨t, -, hvalue⟩ := h.exists_number v hv
  exact Decimal.isFinite_of_finite? hvalue

theorem Derives.unsigned {p : Phrase} {d : Nat} {ts : List Token} {e : Expr}
    (h : Derives p d ts e) (hts : Scanned ts) : e.Unsigned := by
  intro v hv
  obtain ⟨t, ht, hvalue⟩ := h.exists_number v hv
  exact unsigned_literal.mp (unsigned_of_finite? (hts t ht) hvalue)

section Literal

variable {v : Float} (hv : v.isFinite = true)
include hv

theorem isNegative_neg_of_lt (h : v < 0) : isNegative (-v) = false := by
  obtain ⟨hsign, -⟩ := (lt_zero_iff hv).mp h
  rw [isNegative_neg (index_le_infinity hv), hsign]
  rfl

theorem unsigned_neg_of_lt (h : v < 0) : (literal (-v)).Unsigned :=
  unsigned_literal.mpr ⟨isFinite_neg hv, isNegative_neg_of_lt hv h⟩

/-- Minus zero is the one number with a sign that has no parentheses. -/
theorem needsParentheses_literal (place : Place) :
    needsParentheses place (literal v) = decide (v < 0) := by
  have h0 : (v == 0) = decide (index v = 0) := by
    rw [Bool.eq_iff_iff, decide_eq_true_eq]
    exact beq_zero_iff hv
  rw [Bool.eq_iff_iff, decide_eq_true_eq, lt_zero_iff hv]
  simp [needsParentheses, bne, h0]

/-- A literal that is not negative stays one, and its text stays the same. -/
theorem normalized_of_not_lt (h : ¬v < 0) :
    ∃ w, (literal v).normalized = literal w ∧ numeral w = numeral v ∧ (literal w).Unsigned := by
  rw [normalized, if_neg h]
  by_cases h0 : index v = 0
  · refine ⟨0, if_pos ((beq_zero_iff hv).mpr h0), ?_, unsigned_literal.mpr (by decide)⟩
    rw [numeral_zero h0, numeral_zero (by decide)]
  · refine ⟨v, if_neg fun h => h0 ((beq_zero_iff hv).mp h), rfl, unsigned_literal.mpr ⟨hv, ?_⟩⟩
    rw [lt_zero_iff hv] at h
    simpa [h0] using h

end Literal

theorem Unsigned.bare {v : Float} (h : (literal v).Unsigned) (place : Place) :
    needsParentheses place (literal v) = false := by
  rw [needsParentheses, (unsigned_literal.mp h).2, Bool.false_and]

theorem normalized_of_lt {v : Float} (h : v < 0) :
    (literal v).normalized = neg (literal (-v)) := by
  rw [normalized, if_pos h]

theorem unsigned_normalized {e : Expr} (h : e.Finite) : e.normalized.Unsigned := by
  induction e with
  | literal v =>
    have hv := finite_literal.mp h
    by_cases hlt : v < 0
    · rw [normalized_of_lt hlt]
      exact unsigned_neg_of_lt hv hlt
    · obtain ⟨w, hw, -, hunsigned⟩ := normalized_of_not_lt hv hlt
      rw [hw]
      exact hunsigned
  | constant c => exact unsigned_constant c
  | neg e ih | call f e ih => exact ih h
  | binary op a b iha ihb =>
    obtain ⟨ha, hb⟩ := finite_binary.mp h
    exact unsigned_binary.mpr ⟨iha ha, ihb hb⟩

theorem needsParentheses_normalized {e : Expr} (h : e.Finite) (place : Place) :
    needsParentheses place e.normalized = needsParentheses place e := by
  cases e with
  | literal v =>
    have hv := finite_literal.mp h
    rw [needsParentheses_literal hv]
    by_cases hlt : v < 0
    · rw [normalized_of_lt hlt, decide_eq_true hlt, needsParentheses]
    · obtain ⟨w, hw, -, hunsigned⟩ := normalized_of_not_lt hv hlt
      rw [hw, decide_eq_false hlt, hunsigned.bare]
  | constant | neg | binary | call => rfl

/-- The canonical text does not tell a negative literal from a minus before its size. -/
theorem render_normalized {e : Expr} (h : e.Finite) : e.normalized.render = e.render := by
  induction e with
  | literal v =>
    have hv := finite_literal.mp h
    by_cases hlt : v < 0
    · obtain ⟨hs, h0⟩ := (lt_zero_iff hv).mp hlt
      have hbare := (unsigned_neg_of_lt hv hlt).bare .underMinus
      rw [normalized_of_lt hlt, render, render, render, hbare, numeral_of_neg hv hs h0]
      rfl
    · obtain ⟨w, hw, hnumeral, -⟩ := normalized_of_not_lt hv hlt
      rw [hw, render, render, hnumeral]
  | constant c => rfl
  | neg e ih =>
    have he : e.Finite := h
    rw [normalized, render, render, ih he, needsParentheses_normalized he]
  | call f e ih => rw [normalized, render, render, ih h]
  | binary op a b iha ihb =>
    obtain ⟨ha, hb⟩ := finite_binary.mp h
    rw [normalized, render, render, iha ha, ihb hb, needsParentheses_normalized ha,
      needsParentheses_normalized hb]

theorem Unsigned.normalized_eq {e : Expr} (h : e.Unsigned) : e.normalized = e := by
  induction e with
  | literal v =>
    obtain ⟨hv, hs⟩ := unsigned_literal.mp h
    have hlt : ¬v < 0 := by
      rw [lt_zero_iff hv, hs]
      simp
    rw [normalized, if_neg hlt]
    split
    · have h0 : index v = 0 := (beq_zero_iff hv).mp ‹_›
      rw [eq_of_index_eq (v := v) (w := 0) hs h0]
    · rfl
  | constant c => rfl
  | neg e ih | call f e ih => rw [normalized, ih h]
  | binary op a b iha ihb =>
    obtain ⟨ha, hb⟩ := unsigned_binary.mp h
    rw [normalized, iha ha, ihb hb]

end Stepwise.Expr
