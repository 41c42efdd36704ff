import Stepwise.Proofs.Session.History

namespace Stepwise.Session

open Binary64 Stepwise.Expr

/-- The entry is the numeral of a result, and it has that result itself. -/
structure Settled (r : Float) (s : Session) : Prop where
  entry : s.entry = numeral r
  no_message : s.message = []
  calculates : ∃ c, calculate s.entry = .ok c ∧ c.result = r

theorem settled_equals {s : Session} {c : Calculation} (hc : calculate s.entry = .ok c) :
    s.equals.Settled c.result := by
  obtain ⟨again, hagain, hresult⟩ := (isResult_of_calculate hc).calculate_numeral
  rw [equals_of_ok hc]
  exact ⟨rfl, rfl, again, hagain, hresult.trans (roundStep_of_calculate hc)⟩

theorem Settled.equals {s : Session} {r : Float} (h : s.Settled r) :
    s.equals.Settled r ∧ s.equals.recent = (⟨numeral r, r⟩ :: s.recent).take capacity := by
  obtain ⟨hentry, -, c, hc, rfl⟩ := h
  refine ⟨settled_equals hc, ?_⟩
  rw [equals_of_ok hc, record, hentry]

theorem Settled.iterate {s : Session} {r : Float} (h : s.Settled r) {older : List Step}
    (hrecent : s.recent = older.take capacity) (n : Nat) :
    (Session.equals^[n] s).Settled r ∧ (Session.equals^[n] s).recent =
      (List.replicate n (⟨numeral r, r⟩ : Step) ++ older).take capacity := by
  induction n with
  | zero => exact ⟨h, hrecent⟩
  | succ n ih =>
    obtain ⟨hsettled, hlist⟩ := ih
    obtain ⟨hnext, hlatest⟩ := hsettled.equals
    rw [Function.iterate_succ_apply', hlatest, hlist, take_cons_take]
    exact ⟨hnext, rfl⟩

/-- The entry that a result becomes has this result for its value, exactly. So evaluating again,
however often, succeeds and changes only the calculations remembered. -/
theorem iterate_equals_after_result {s : Session} {c : Calculation}
    (hc : calculate s.entry = .ok c) :
    s.equals.entry = numeral c.result ∧ evaluateText (numeral c.result) = .ok c.result ∧
      ((c.result == 0) = true → numeral c.result = ['0']) ∧
      ∀ n, let again := Session.equals^[n] s.equals
        again.entry = numeral c.result ∧ again.message = [] ∧
        (∃ c', calculate again.entry = .ok c' ∧ c'.result = c.result) ∧
        again.recent = (List.replicate n (⟨numeral c.result, c.result⟩ : Step) ++
          (⟨s.entry, c.result⟩ :: s.recent)).take capacity := by
  have hresult := isResult_of_calculate hc
  have hsettled := settled_equals hc
  refine ⟨hsettled.entry, hresult.evaluateText_numeral, ?_, fun n => ?_⟩
  · intro h0
    exact numeral_zero ((beq_zero_iff hresult.isFinite).mp h0)
  · have hrecent : s.equals.recent = (⟨s.entry, c.result⟩ :: s.recent).take capacity := by
      rw [equals_of_ok hc]
      rfl
    obtain ⟨⟨hentry, hmessage, hcalculates⟩, hlist⟩ := hsettled.iterate hrecent n
    exact ⟨hentry, hmessage, hcalculates, hlist⟩

/-- A third is rounded once, and then stays what it is. -/
theorem iterate_equals_after_third :
    ∃ c, calculate "1/3".toList = .ok c ∧ c.result = 0.3333 ∧
      (Session.equals^[7] (equals { entry := "1/3".toList })).entry = "0.3333".toList ∧
      (Session.equals^[7] (equals { entry := "1/3".toList })).recent =
        List.replicate 5 ⟨"0.3333".toList, 0.3333⟩ := by
  let third := binary .div (literal 1) (literal 3)
  have hadmitted : Admitted standardLimits third := by
    refine ⟨by unfold Unsigned; decide, by simp [third, standardLimits], ?_⟩
    rw [nesting_binary]
    decide +kernel
  have hvalue : third.value = .ok (1 / 3) := by decide +kernel
  have htext : third.render = "1/3".toList := by decide +kernel
  have hround : roundStep (1 / 3) = 0.3333 := by decide +kernel
  have hnumeral : numeral 0.3333 = "0.3333".toList := by decide +kernel
  obtain ⟨parts, -, hc⟩ := calculateExpr_of_value hadmitted hvalue third.render
  rw [← calculate_of_parse (parseText_render hadmitted), htext, hround] at hc
  obtain ⟨-, -, -, hagain⟩ :=
    iterate_equals_after_result (s := { entry := "1/3".toList }) hc
  obtain ⟨hentry, -, -, hrecent⟩ := hagain 7
  refine ⟨_, hc, rfl, hentry.trans hnumeral, hrecent.trans ?_⟩
  simp only [Calculation.result, hnumeral]
  rfl

end Stepwise.Session
