import Stepwise.Proofs.Results
import Stepwise.Proofs.Session.Actions

namespace Stepwise

open Stepwise.Expr

/-- What is read from an entry that goes on from a result. A minus before the result binds looser
than a power, and so it ends up outside. -/
def continued (op : Operator) (r x : Float) : Expr :=
  if op = .pow ∧ r < 0 then neg (binary .pow (literal (-r)) (literal x))
  else binary op (literal r).normalized (literal x)

def continuedValue (op : Operator) (r x : Float) : Except Refusal Float :=
  if op = .pow ∧ r < 0 then (-·) <$> applied .pow (-r) x else applied op r x

theorem continued_small (op : Operator) (r x : Float) :
    (continued op r x).height ≤ 3 ∧ (continued op r x).nesting ≤ 5 := by
  rw [continued]
  split
  · have hneg := opened_le_one .underMinus (binary .pow (literal (-r)) (literal x))
    have hleft := opened_le_one (.left .pow) (literal (-r))
    have hright := opened_le_one (.right .pow) (literal x)
    rw [height_neg, height_binary, nesting_neg, nesting_binary, if_pos rfl]
    simp only [height_literal, nesting_literal]
    omega
  · obtain ⟨hheight, hnesting⟩ := normalized_small r
    have hleft := opened_le_one (.left op) (literal r).normalized
    have hright := opened_le_one (.right op) (literal x)
    rw [height_binary, nesting_binary]
    simp only [height_literal, nesting_literal]
    split <;> omega

section Entry

variable {r x : Float} {t : Text}

theorem derives_operand (ht : Decimal.finite? t = some x) :
    Derives .signed 1 [.number t] (literal x) :=
  (Derives.number ht).base.plain

/-- An operator of a chain takes the whole result, with its sign, for its left operand. -/
theorem derives_chained (hr : IsResult r) {op : Operator} {c : Chain} (hc : op.chain? = some c)
    (ht : Decimal.finite? t = some x) :
    ∃ d ≤ 3, Derives (.chain .sum) d ((literal r).normalized.tokens ++ op.token :: [.number t])
      (binary op (literal r).normalized (literal x)) := by
  have hchain : ∀ c, (literal r).normalized.phrase ≠ .chain c := by
    intro c
    rw [normalized]
    split
    · simp [phrase]
    · split <;> simp [phrase]
  have hleft := hr.spelled.toSigned hchain
  have hright := derives_operand ht
  have hsmall := (normalized_small r).2
  refine ⟨_, ?_, ((Derives.operand hleft.toOperand).extend (operator?_token hc)
    hright.toOperand).toSum⟩
  simp only [Phrase.opens]
  omega

theorem derives_power (hr : IsResult r) (hneg : ¬r < 0) (ht : Decimal.finite? t = some x) :
    Derives (.chain .sum) 2 ((literal r).normalized.tokens ++ .power :: [.number t])
      (binary .pow (literal r).normalized (literal x)) := by
  have hunsigned := hr.unsigned_of_not_lt hneg
  obtain ⟨hfinite, hsign⟩ := unsigned_literal.mp hunsigned
  have hleft := Derives.number (finite?_numeral hfinite hsign)
  rw [hunsigned.normalized_eq]
  exact (hleft.raised (derives_operand ht)).toSum

/-- A power takes only the size of a negative result for its base. -/
theorem derives_power_of_neg (hr : IsResult r) (hneg : r < 0) (ht : Decimal.finite? t = some x) :
    Derives (.chain .sum) 3 ((literal r).normalized.tokens ++ .power :: [.number t])
      (neg (binary .pow (literal (-r)) (literal x))) := by
  have hunsigned := unsigned_neg_of_lt hr.isFinite hneg
  obtain ⟨hfinite, hsign⟩ := unsigned_literal.mp hunsigned
  have hleft := Derives.number (finite?_numeral hfinite hsign)
  rw [normalized_of_lt hneg, tokens, hunsigned.bare]
  exact (hleft.raised (derives_operand ht)).plain.minus.toSum

theorem derives_continued (hr : IsResult r) (op : Operator) (ht : Decimal.finite? t = some x) :
    ∃ d ≤ 3, Derives (.chain .sum) d ((literal r).normalized.tokens ++ op.token :: [.number t])
      (continued op r x) := by
  rw [continued]
  cases hc : op.chain? with
  | some c =>
    rw [if_neg fun h => Operator.ne_pow_of_chain?_eq_some hc h.1]
    exact derives_chained hr hc ht
  | none =>
    obtain rfl := Operator.eq_pow_of_chain?_eq_none hc
    by_cases hneg : r < 0
    · rw [if_pos ⟨rfl, hneg⟩]
      exact ⟨3, Nat.le_refl 3, derives_power_of_neg hr hneg ht⟩
    · rw [if_neg fun h => hneg h.2]
      exact ⟨2, by decide, derives_power hr hneg ht⟩

theorem parseText_continued (hr : IsResult r) (op : Operator)
    (hnumeral : Decimal.isNumeral t = true) (ht : Decimal.finite? t = some x) :
    parseText (numeral r ++ op.symbol :: t) = .ok (continued op r x) := by
  have hscans := hr.scans.append op.ofSymbol?_symbol (Token.scans_numeral hnumeral)
  obtain ⟨d, hd, hderives⟩ := derives_continued hr op ht
  have hsmall := continued_small op r x
  have hlimits : standardLimits.nesting = 512 ∧ standardLimits.height = 1000 := ⟨rfl, rfl⟩
  have hparse : parse standardLimits _ = .ok (continued op r x) :=
    (parse_of_derives hderives).eq_of_not (by omega)
  exact (parseText_of_scan hscans.scan_eq).trans hparse

theorem value_continued (hr : IsResult r) (op : Operator) (hx : x.isFinite = true) :
    (continued op r x).value = continuedValue op r x := by
  rw [continued, continuedValue]
  split
  · have hsize := value_literal (Binary64.isFinite_neg hr.isFinite)
    rw [value_neg, value_binary hsize (value_literal hx)]
  · exact value_binary hr.value_normalized (value_literal hx)

end Entry

namespace Session

/-- The evaluation of the entry records this value, rounded, or is refused if there is none. -/
def Answers (s : Session) : Except Refusal Float → Prop
  | .ok w => ∃ c, calculate s.entry = .ok c ∧ c.result = roundStep w ∧ s.equals = s.record c
  | .error _ => ∃ refusal, calculate s.entry = .error refusal ∧ s.equals = s.fail

def rounded (outcome : Except Refusal Float) : Option Float :=
  outcome.toOption.map roundStep

theorem answers_iff (s : Session) (outcome : Except Refusal Float) :
    s.Answers outcome ↔ rounded outcome = (calculate s.entry).toOption.map (·.result) := by
  cases hc : calculate s.entry with
  | error refusal =>
    have hequals := equals_of_error hc
    cases outcome <;> simp [Answers, rounded, Except.toOption, hc, hequals]
  | ok c =>
    have hequals := equals_of_ok hc
    cases outcome <;> simp [Answers, rounded, Except.toOption, hc, hequals, eq_comm]

theorem answers_value {s : Session} {e : Expr} (h : parseText s.entry = .ok e) :
    s.Answers e.value := by
  have hadmitted := admitted_of_parseText h
  rw [answers_iff, calculate_of_parse h]
  cases hv : e.value with
  | error refusal => rw [calculateExpr_of_refusal hadmitted hv]; rfl
  | ok v =>
    obtain ⟨parts, -, hc⟩ := calculateExpr_of_value hadmitted hv s.entry
    rw [hc]
    rfl

theorem entry_foldl_append (pieces : List Text) (s : Session) :
    (pieces.foldl append s).entry = s.entry ++ pieces.flatten := by
  induction pieces generalizing s with
  | nil => simp
  | cons piece pieces ih => simp [ih, append]

theorem entry_continued {s : Session} {c : Calculation} (hc : calculate s.entry = .ok c)
    (op : Operator) (pieces : List Text) :
    (pieces.foldl append (s.equals.append [op.symbol])).entry =
      numeral c.result ++ op.symbol :: pieces.flatten := by
  rw [entry_foldl_append, equals_of_ok hc]
  simp [append, record]

theorem answers_continued {s : Session} {r x : Float} {t : Text} (hr : IsResult r) (op : Operator)
    (hnumeral : Decimal.isNumeral t = true) (ht : Decimal.finite? t = some x)
    (hs : s.entry = numeral r ++ op.symbol :: t) :
    s.Answers (continuedValue op r x) := by
  obtain ⟨hx, -⟩ := unsigned_literal.mp (unsigned_of_finite? hnumeral ht)
  have hparse := parseText_continued hr op hnumeral ht
  rw [← hs] at hparse
  rw [← value_continued hr op hx]
  exact answers_value hparse

theorem calculate_negative_four : ∃ c, calculate ['-', '4'] = .ok c ∧ c.result = -4 := by
  have htext : numeral (-4) = ['-', '4'] := by decide +kernel
  have hround : roundStep (-4) = -4 := by decide +kernel
  have hresult : IsResult (-4) := ⟨by decide, by decide⟩
  obtain ⟨c, hc, hr⟩ := hresult.calculate_numeral
  rw [htext] at hc
  exact ⟨c, hc, hr.trans hround⟩

/-- After a result, an operator and a number give the value of that operation on the two, except
that a power of a negative result is the opposite of the power of its size. -/
theorem answers_after_result {s : Session} {c : Calculation} (hc : calculate s.entry = .ok c)
    (op : Operator) {t : Text} {x : Float} (hnumeral : Decimal.isNumeral t = true)
    (ht : Decimal.finite? t = some x) {pieces : List Text} (hpieces : pieces.flatten = t) :
    let typed := pieces.foldl append (s.equals.append [op.symbol])
    typed.entry = numeral c.result ++ op.symbol :: t ∧
      typed.Answers (continuedValue op c.result x) ∧
      (typed.Answers (applied op c.result x) ↔ ¬(op = .pow ∧ c.result < 0) ∨
        rounded (applied .pow c.result x) = rounded ((-·) <$> applied .pow (-c.result) x)) := by
  intro typed
  have hentry : typed.entry = numeral c.result ++ op.symbol :: t := by
    rw [← hpieces]
    exact entry_continued hc op pieces
  have hanswers : typed.Answers (continuedValue op c.result x) :=
    answers_continued (isResult_of_calculate hc) op hnumeral ht hentry
  refine ⟨hentry, hanswers, ?_⟩
  rw [answers_iff, ← (answers_iff _ _).mp hanswers, continuedValue]
  by_cases hpower : op = .pow ∧ c.result < 0
  · obtain ⟨rfl, -⟩ := id hpower
    rw [if_pos hpower]
    simp [hpower]
  · rw [if_neg hpower]
    simp [hpower]

theorem continuedValue_negative_four :
    continuedValue .pow (-4) 2 = (-·) <$> applied .pow 4 2 := by
  have hneg : -(-4 : Float) = 4 := by decide
  rw [continuedValue, if_pos (by decide), hneg]

/-- After `-4`, typing `^2` gives `-(4^2)`. -/
theorem answers_square_of_negative_result :
    ∃ c, calculate ['-', '4'] = .ok c ∧ Decimal.isNumeral ['2'] = true ∧
      Decimal.finite? ['2'] = some 2 ∧ c.result = -4 ∧
      Answers ((equals { entry := ['-', '4'] }).append ['^'] |>.append ['2'])
        ((-·) <$> applied .pow 4 2) := by
  obtain ⟨c, hc, hresult⟩ := calculate_negative_four
  have hnumber : Decimal.finite? ['2'] = some 2 := by decide +kernel
  refine ⟨c, hc, rfl, hnumber, hresult, ?_⟩
  have hpieces : [['2']].flatten = ['2'] := rfl
  have hc' : calculate (Session.entry { entry := ['-', '4'] }) = .ok c := hc
  obtain ⟨-, hanswers, -⟩ := answers_after_result hc' .pow rfl hnumber hpieces
  rw [hresult, continuedValue_negative_four] at hanswers
  exact hanswers

/-- The square of the number on display would be 16, and that is not the result. -/
theorem not_answers_square_of_negative_result :
    ¬(Float.pow 4 2 = 16 ∧ Float.pow (-4) 2 = 16 ∧
      Answers ((equals { entry := ['-', '4'] }).append ['^'] |>.append ['2'])
        (applied .pow (-4) 2)) := by
  rintro ⟨hsize, hpower, hanswers⟩
  obtain ⟨c, hc, hresult⟩ := calculate_negative_four
  have hentry := entry_continued (s := { entry := ['-', '4'] }) hc .pow [['2']]
  rw [hresult] at hentry
  have hnumber : Decimal.finite? ['2'] = some 2 := by decide +kernel
  have htrue := answers_continued (hresult ▸ isResult_of_calculate hc) .pow rfl hnumber hentry
  rw [continuedValue_negative_four, answers_iff] at htrue
  rw [answers_iff] at hanswers
  have hrounded := htrue.trans hanswers.symm
  have hleft : applied .pow 4 2 = .ok 16 := by
    simp only [applied, Operator.apply, hsize]
    decide
  have hright : applied .pow (-4) 2 = .ok 16 := by
    simp only [applied, Operator.apply, hpower]
    decide
  rw [hleft, hright] at hrounded
  revert hrounded
  decide +kernel

end Session

end Stepwise
