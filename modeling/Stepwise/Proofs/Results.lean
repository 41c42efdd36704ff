import Stepwise.Proofs.Number.Rounding
import Stepwise.Proofs.Steps

namespace Stepwise

open Binary64 Stepwise.Expr

theorem isFinite_of_finite {x v : Float} (h : finite x = .ok v) : v.isFinite = true := by
  rw [finite] at h
  split at h
  · obtain rfl := Except.ok.inj h
    assumption
  · cases h

theorem finite_eq_ok {v : Float} (hv : v.isFinite = true) : finite v = .ok v := by
  rw [finite, if_pos hv]

theorem Expr.isFinite_of_value {e : Expr} {v : Float} (h : e.value = .ok v) :
    v.isFinite = true := by
  cases e with
  | literal | constant => exact isFinite_of_finite h
  | neg e =>
    obtain ⟨x, -, h⟩ := exists_of_bind_eq_ok h
    exact isFinite_of_finite h
  | binary op a b =>
    obtain ⟨x, -, h⟩ := exists_of_bind_eq_ok h
    obtain ⟨y, -, h⟩ := exists_of_bind_eq_ok h
    obtain ⟨z, -, h⟩ := exists_of_bind_eq_ok h
    exact isFinite_of_finite h
  | call f e =>
    obtain ⟨x, -, h⟩ := exists_of_bind_eq_ok h
    obtain ⟨y, -, h⟩ := exists_of_bind_eq_ok h
    exact isFinite_of_finite h

section Value

variable {v w : Float} {op : Operator} {a b : Expr}

theorem value_literal (hv : v.isFinite = true) : (literal v).value = .ok v :=
  finite_eq_ok hv

theorem value_neg (e : Expr) : (neg e).value = (-·) <$> e.value := by
  rw [value]
  cases he : e.value with
  | error refusal => rfl
  | ok w => exact finite_eq_ok (isFinite_neg (isFinite_of_value he))

def applied (op : Operator) (x y : Float) : Except Refusal Float := do
  finite (← op.apply x y)

theorem value_binary (ha : a.value = .ok v) (hb : b.value = .ok w) :
    (binary op a b).value = applied op v w := by
  rw [value, ha, hb]
  rfl

end Value

/-- Results are finite, and among the zeros only the one without a sign is a result. -/
structure IsResult (r : Float) : Prop where
  isFinite : r.isFinite = true
  index_ne_zero : isNegative r = true → index r ≠ 0

theorem isResult_roundStep {v : Float} (hv : v.isFinite = true) : IsResult (roundStep v) := by
  obtain ⟨hfinite, hsign⟩ := roundPlaces_spec stepPlaces hv
  exact ⟨hfinite, hsign⟩

/-- A calculation consists of the steps of the composite parts and of the entry itself. -/
theorem parts_of_calculate {entry : Text} {c : Calculation} (h : calculate entry = .ok c) :
    ∃ e v, parseText entry = .ok e ∧ e.value = .ok v ∧
      List.Forall₂ IsStepOf e.composites c.parts ∧ c.last = ⟨entry, roundStep v⟩ := by
  obtain ⟨e, he, h⟩ := exists_of_bind_eq_ok h
  have hadmitted := admitted_of_parseText he
  cases hv : e.value with
  | error r =>
    rw [calculateExpr_of_refusal hadmitted hv] at h
    cases h
  | ok v =>
    obtain ⟨parts, hparts, hc⟩ := calculateExpr_of_value hadmitted hv entry
    rw [hc] at h
    obtain rfl := Except.ok.inj h
    exact ⟨e, v, he, hv, hparts, rfl⟩

theorem exists_of_calculate {entry : Text} {c : Calculation} (h : calculate entry = .ok c) :
    ∃ e v, parseText entry = .ok e ∧ e.value = .ok v ∧ c.result = roundStep v := by
  obtain ⟨e, v, he, hv, -, hlast⟩ := parts_of_calculate h
  exact ⟨e, v, he, hv, congrArg Step.result hlast⟩

theorem isResult_of_calculate {entry : Text} {c : Calculation} (h : calculate entry = .ok c) :
    IsResult c.result := by
  obtain ⟨e, v, -, hv, hresult⟩ := exists_of_calculate h
  rw [hresult]
  exact isResult_roundStep (isFinite_of_value hv)

theorem last_of_calculate {entry : Text} {c : Calculation} (h : calculate entry = .ok c) :
    c.last = ⟨entry, c.result⟩ := by
  obtain ⟨e, v, -, -, -, hlast⟩ := parts_of_calculate h
  rw [Calculation.result, hlast]

theorem roundStep_of_calculate {entry : Text} {c : Calculation} (h : calculate entry = .ok c) :
    roundStep c.result = c.result := by
  obtain ⟨e, v, -, -, hresult⟩ := exists_of_calculate h
  rw [hresult]
  exact roundPlaces_roundPlaces stepPlaces v

theorem isResult_of_ne_zero {v : Float} (hfinite : v.isFinite = true) (h0 : (v == 0) = false) :
    IsResult v := by
  refine ⟨hfinite, fun _ hindex => ?_⟩
  rw [(beq_zero_iff hfinite).mpr hindex] at h0
  cases h0

namespace IsResult

variable {r : Float}

theorem lt_zero_iff (h : IsResult r) : r < 0 ↔ isNegative r = true := by
  rw [Binary64.lt_zero_iff h.isFinite]
  exact ⟨fun hr => hr.1, fun hs => ⟨hs, h.index_ne_zero hs⟩⟩

theorem unsigned_of_not_lt (h : IsResult r) (hr : ¬r < 0) : (literal r).Unsigned := by
  rw [h.lt_zero_iff] at hr
  exact unsigned_literal.mpr ⟨h.isFinite, by simpa using hr⟩

theorem neg_neg (h : IsResult r) : -(-r) = r := by
  have hk : index r ≤ infinity := index_le_infinity h.isFinite
  have hneg : index (-r) = index r := index_neg hk
  apply eq_of_index_eq
  · rw [isNegative_neg (by rwa [hneg]), isNegative_neg hk, Bool.not_not]
  · rw [index_neg (by rwa [hneg]), hneg]

theorem finite?_numeral (h : IsResult r) : Decimal.finite? (numeral r) = some r := by
  cases hs : isNegative r with
  | false => exact Stepwise.finite?_numeral h.isFinite hs
  | true => exact finite?_numeral_of_ne_zero h.isFinite (h.index_ne_zero hs)

theorem numeral_eq_signed (h : IsResult r) :
    ∃ t, Decimal.isNumeral t = true ∧ numeral r = Decimal.signed (isNegative r) t := by
  cases hs : isNegative r with
  | false => exact ⟨numeral r, isNumeral_numeral h.isFinite hs, rfl⟩
  | true =>
    have hsize : isNegative (-r) = false := by
      rw [isNegative_neg (index_le_infinity h.isFinite), hs]
      rfl
    exact ⟨numeral (-r), isNumeral_numeral (isFinite_neg h.isFinite) hsize,
      numeral_of_neg h.isFinite hs (h.index_ne_zero hs)⟩

/-- What the text of a result is read as has the result for its value. -/
theorem value_normalized (h : IsResult r) : (literal r).normalized.value = .ok r := by
  by_cases hr : r < 0
  · rw [normalized_of_lt hr, value_neg, value_literal (isFinite_neg h.isFinite)]
    exact congrArg Except.ok h.neg_neg
  · rw [(h.unsigned_of_not_lt hr).normalized_eq, value_literal h.isFinite]

theorem unsigned_normalized (h : IsResult r) : (literal r).normalized.Unsigned :=
  Expr.unsigned_normalized (finite_literal.mpr h.isFinite)

theorem render_normalized (h : IsResult r) : (literal r).normalized.render = numeral r :=
  Expr.render_normalized (finite_literal.mpr h.isFinite)

theorem scans (h : IsResult r) : Token.Scans (numeral r) (literal r).normalized.tokens := by
  rw [← h.render_normalized]
  exact scans_render h.unsigned_normalized

theorem spelled (h : IsResult r) : (literal r).normalized.Spelled :=
  Expr.spelled h.unsigned_normalized

end IsResult

theorem normalized_small (r : Float) :
    (literal r).normalized.height ≤ 2 ∧ (literal r).normalized.nesting ≤ 3 := by
  rw [normalized]
  split
  · have := opened_le_one .underMinus (literal (-r))
    rw [height_neg, height_literal, nesting_neg, nesting_literal]
    omega
  · split <;> simp

namespace IsResult

variable {r : Float}

theorem admitted (h : IsResult r) : Admitted standardLimits (literal r).normalized := by
  obtain ⟨hheight, hnesting⟩ := normalized_small r
  have hlimits : standardLimits.nesting = 512 ∧ standardLimits.height = 1000 := ⟨rfl, rfl⟩
  exact ⟨h.unsigned_normalized, by omega, by omega⟩

theorem parseText_numeral (h : IsResult r) : parseText (numeral r) = .ok (literal r).normalized := by
  rw [← h.render_normalized]
  exact parseText_render h.admitted

theorem evaluateText_numeral (h : IsResult r) : evaluateText (numeral r) = .ok r := by
  rw [evaluateText, h.parseText_numeral]
  exact h.value_normalized

theorem calculate_numeral (h : IsResult r) :
    ∃ c, calculate (numeral r) = .ok c ∧ c.result = roundStep r := by
  obtain ⟨parts, -, hc⟩ := calculateExpr_of_value h.admitted h.value_normalized (numeral r)
  exact ⟨_, (calculate_of_parse h.parseText_numeral).trans hc, rfl⟩

end IsResult

section Retyping

variable {v : Float}

/-- A zero loses its sign when it is shown; any other number is kept. -/
def retyped (v : Float) : Float :=
  if v == 0 then 0 else v

theorem isResult_retyped (hv : v.isFinite = true) : IsResult (retyped v) := by
  rw [retyped]
  split
  · exact ⟨by decide, fun h => absurd h (by decide)⟩
  · exact isResult_of_ne_zero hv (Bool.eq_false_iff.mpr ‹_›)

theorem retyped_beq_zero (v : Float) : (retyped v == 0) = (v == 0) := by
  rw [retyped]
  split
  · rw [‹(v == 0) = true›]
    decide
  · rfl

theorem retyped_eq_iff {w : Float} :
    retyped w = retyped v ↔ w = v ∨ (w == 0) = true ∧ (v == 0) = true := by
  constructor
  · intro h
    have hzero : (w == 0) = (v == 0) := by rw [← retyped_beq_zero, h, retyped_beq_zero]
    by_cases hv : (v == 0) = true
    · exact Or.inr ⟨hzero.trans hv, hv⟩
    · rw [retyped, retyped, hzero, if_neg hv, if_neg hv] at h
      exact Or.inl h
  · rintro (rfl | ⟨hw, hv⟩)
    · rfl
    · rw [retyped, retyped, if_pos hw, if_pos hv]

theorem numeral_retyped (hv : v.isFinite = true) : numeral (retyped v) = numeral v := by
  rw [retyped]
  split
  · rw [numeral_zero ((beq_zero_iff hv).mp ‹_›), numeral_zero (by decide)]
  · rfl

theorem tokens_of_retyped (hv : v.isFinite = true) : (literal (retyped v)).normalized.tokens =
    if v < 0 then [.minus, .number (numeral (-v))] else [.number (numeral v)] := by
  by_cases hlt : v < 0
  · have h0 : ¬(v == 0) = true := fun h => ((lt_zero_iff hv).mp hlt).2 ((beq_zero_iff hv).mp h)
    have hbare := (unsigned_neg_of_lt hv hlt).bare .underMinus
    rw [if_pos hlt, retyped, if_neg h0, normalized_of_lt hlt, tokens, hbare]
    rfl
  · have hzero : ¬retyped v < 0 := by
      rw [retyped]
      split
      · decide
      · exact hlt
    have hunsigned := (isResult_retyped hv).unsigned_of_not_lt hzero
    rw [if_neg hlt, hunsigned.normalized_eq, tokens, numeral_retyped hv]

/-- What is shown for a finite number can be typed in again: it is cut into one number, with a minus
before it if the number is negative, and its value is the number that was shown. So the two zeros
are the only numbers that are shown alike. -/
theorem numeral_read_again (hv : v.isFinite = true) :
    Token.scan (numeral v) =
        .ok (if v < 0 then [.minus, .number (numeral (-v))] else [.number (numeral v)]) ∧
      evaluateText (numeral v) = .ok (if v == 0 then 0 else v) ∧
      ∀ w : Float, w.isFinite = true →
        (numeral w = numeral v ↔ w = v ∨ (w == 0) = true ∧ (v == 0) = true) := by
  have hvalue {w : Float} (hw : w.isFinite = true) :
      evaluateText (numeral w) = .ok (retyped w) := by
    rw [← numeral_retyped hw]
    exact (isResult_retyped hw).evaluateText_numeral
  refine ⟨?_, hvalue hv, fun w hw => ?_⟩
  · rw [← tokens_of_retyped hv, ← numeral_retyped hv]
    exact (isResult_retyped hv).scans.scan_eq
  · rw [← retyped_eq_iff]
    constructor
    · intro h
      have hw := hvalue hw
      rw [h, hvalue hv] at hw
      exact (Except.ok.inj hw).symm
    · intro h
      rw [← numeral_retyped hw, h, numeral_retyped hv]

/-- The negative number nearest to zero has more than three hundred zeros after the point. -/
theorem numeral_of_least_read_again :
    let v := ofIndex true 1
    let size := "0.".toList ++ List.replicate 323 '0' ++ ['5']
    v.isFinite = true ∧ numeral v = '-' :: size ∧
      Token.scan ('-' :: size) = .ok [.minus, .number size] ∧ evaluateText ('-' :: size) = .ok v := by
  intro v size
  have hv : v.isFinite = true := by decide
  have htext : numeral v = '-' :: size := by decide +kernel
  have hsize : numeral (-v) = size := by decide +kernel
  have hlt : v < 0 := by decide
  have h0 : ¬(v == 0) = true := by decide
  obtain ⟨hscan, hvalue, -⟩ := numeral_read_again hv
  rw [htext, if_pos hlt, hsize] at hscan
  rw [htext, if_neg h0] at hvalue
  exact ⟨hv, htext, hscan, hvalue⟩

end Retyping

end Stepwise
