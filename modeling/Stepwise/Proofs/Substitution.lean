import Stepwise.Proofs.Expr.Substitution
import Stepwise.Proofs.Results

namespace Stepwise

open Binary64 Stepwise.Expr

namespace Token

/-- Parentheses keep the tokens between them apart from those around them. -/
theorem scan_enclosed {u : Text} {us : List Token} (hu : scan u = .ok us) (a b : Text) :
    scan (a ++ '(' :: u ++ ')' :: b) = (do
      let before ← scan a
      let after ← scan b
      return before ++ .opening :: (us ++ .closing :: after)) := by
  have hopening : ofSymbol? '(' = some .opening := rfl
  have hclosing : ofSymbol? ')' = some .closing := rfl
  rw [List.append_assoc, List.cons_append, scan_append (endsRun_symbol hopening _),
    scan_of_symbol hopening, scans_of_scan hu _ (endsRun_symbol hclosing b),
    scan_of_symbol hclosing]
  cases scan a with
  | error refusal => rfl
  | ok before => cases scan b <;> rfl

end Token

theorem agree_parseText {u w : Text} {e e' : Expr} (hu : parseText u = .ok e)
    (hw : parseText w = .ok e') (hvalue : e.value = e'.value) (a b : Text) :
    Agree (fun e e' => e.value = e'.value) (parseText (a ++ '(' :: u ++ ')' :: b))
      (parseText (a ++ '(' :: w ++ ')' :: b)) := by
  obtain ⟨us, hus, hu⟩ := exists_of_bind_eq_ok hu
  obtain ⟨ws, hws, hw⟩ := exists_of_bind_eq_ok hw
  rw [parseText, parseText, Token.scan_enclosed hus, Token.scan_enclosed hws]
  cases Token.scan a with
  | error refusal => exact .refused refusal
  | ok before =>
    cases Token.scan b with
    | error refusal => exact .refused refusal
    | ok after => exact agree_parse (agree_group hu hw hvalue) (.append before .group)

/-- An expression in parentheses may be replaced by the numeral of its value, whatever stands around
it. A text that is refused is refused for the same reason. -/
theorem evaluateText_enclosed {u : Text} {v : Float} (hu : evaluateText u = .ok v)
    (h0 : (v == 0) = false) {a b : Text}
    (hdeep : ∀ limit, evaluateText (a ++ '(' :: u ++ ')' :: b) ≠ .error (.tooDeep limit))
    (hdeep' : ∀ limit, evaluateText (a ++ '(' :: numeral v ++ ')' :: b) ≠ .error (.tooDeep limit)) :
    evaluateText (a ++ '(' :: u ++ ')' :: b) = evaluateText (a ++ '(' :: numeral v ++ ')' :: b) := by
  obtain ⟨e, he, hvalue⟩ := exists_of_bind_eq_ok hu
  have hv : IsResult v := isResult_of_ne_zero (isFinite_of_value hvalue) h0
  have hagree := agree_parseText he (hv.parseText_numeral) (hvalue.trans hv.value_normalized.symm) a b
  simp only [evaluateText] at hdeep hdeep' ⊢
  generalize parseText (a ++ '(' :: u ++ ')' :: b) = x at hagree hdeep ⊢
  generalize parseText (a ++ '(' :: numeral v ++ ')' :: b) = y at hagree hdeep' ⊢
  cases hagree with
  | ok h => exact h
  | refused r => rfl
  | deepLeft limit => exact absurd rfl (hdeep limit)
  | deepRight x limit => exact absurd rfl (hdeep' limit)

/-- The root of `1-4` is refused as the root of `-3` is. -/
theorem evaluateText_root_of_difference :
    let operand := "1-4".toList
    let root (t : Text) := "sqrt".toList ++ '(' :: t ++ ')' :: []
    evaluateText operand = .ok (-3) ∧ ((-3 : Float) == 0) = false ∧
      evaluateText (root operand) = .error (.outsideDomain .sqrt (-3)) ∧
      (∀ limit, evaluateText (root operand) ≠ .error (.tooDeep limit)) ∧
      (∀ limit, evaluateText (root (numeral (-3))) ≠ .error (.tooDeep limit)) ∧
      evaluateText (root operand) = evaluateText (root (numeral (-3))) := by
  intro operand root
  let difference := binary .sub (literal 1) (literal 4)
  let opposite := neg (literal 3)
  have hdifference : Admitted standardLimits (call .sqrt difference) := by
    refine ⟨by unfold Unsigned; decide, by simp [difference, standardLimits], ?_⟩
    rw [nesting_call, nesting_binary]
    decide +kernel
  have hopposite : Admitted standardLimits (call .sqrt opposite) := by
    refine ⟨by unfold Unsigned; decide, by simp [opposite, standardLimits], ?_⟩
    rw [nesting_call, nesting_neg]
    decide +kernel
  have hoperand : evaluateText operand = .ok (-3) := by
    have hadmitted := hdifference.of_mem_composites difference (by simp [difference])
    have htext : operand = difference.render := by decide +kernel
    rw [htext, evaluateText_render hadmitted]
    decide +kernel
  have hroot : evaluateText (root operand) = .error (.outsideDomain .sqrt (-3)) := by
    have htext : root operand = (call .sqrt difference).render := by decide +kernel
    rw [htext, evaluateText_render hdifference]
    decide +kernel
  have hroot' : evaluateText (root (numeral (-3))) = .error (.outsideDomain .sqrt (-3)) := by
    have htext : root (numeral (-3)) = (call .sqrt opposite).render := by decide +kernel
    rw [htext, evaluateText_render hopposite]
    decide +kernel
  have hnonzero : ((-3 : Float) == 0) = false := by decide +kernel
  have hdeep : ∀ limit, evaluateText (root operand) ≠ .error (.tooDeep limit) := by simp [hroot]
  have hdeep' : ∀ limit, evaluateText (root (numeral (-3))) ≠ .error (.tooDeep limit) := by
    simp [hroot']
  exact ⟨hoperand, hnonzero, hroot, hdeep, hdeep',
    evaluateText_enclosed hoperand hnonzero hdeep hdeep'⟩

end Stepwise
