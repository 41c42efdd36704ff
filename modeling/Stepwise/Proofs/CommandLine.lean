import Stepwise.CommandLine
import Stepwise.Proofs.Json.Document
import Stepwise.Proofs.Lines

namespace Stepwise

namespace CommandLine

/-- Every text can be given as the expression, whichever way it is to be printed. -/
theorem ofArguments_expression (x : Text) (json : Bool) :
    Options.ofArguments (("--expr=".toList ++ x) :: if json then ["--json".toList] else []) =
      .ok ⟨some x, json, false⟩ := by
  cases json with
  | false => rfl
  | true => rfl

theorem outcome?_of_options {arguments : List Text} {options : Options} {x : Text}
    (h : Options.ofArguments arguments = .ok options) (hx : options.expression = some x) :
    outcome? arguments = some (evaluate x options.json) := by
  rw [outcome?, h]
  simp [hx]

theorem evaluate_of_ok {x : Text} {c : Calculation} (h : calculate x = .ok c) (json : Bool) :
    evaluate x json =
      { exitCode := 0, stdout := if json then Report.json c else Report.plain c } := by
  rw [evaluate, h]

theorem evaluate_of_error {x : Text} {r : Refusal} (h : calculate x = .error r) (json : Bool) :
    evaluate x json = { exitCode := 1, stdout := if json then Report.jsonRefusal else [],
                        stderr := failureMessage ++ ['\n'] } := by
  rw [evaluate, h]

/-- Equal lines come from equal entries, since the last step shows the entry. -/
theorem eq_of_plain_eq {x y : Text} {c d : Calculation} (hc : calculate x = .ok c)
    (hd : calculate y = .ok d) (h : Report.plain c = Report.plain d) : x = y ∧ c = d := by
  have hread := Report.readSteps_lines (legible_of_calculate hc)
  have hsteps : c.steps = d.steps := by
    change Report.readSteps (Report.plain c) = _ at hread
    rw [h] at hread
    exact Option.some.inj (hread.symm.trans (Report.readSteps_lines (legible_of_calculate hd)))
  obtain rfl := Calculation.eq_of_steps_eq hsteps
  refine ⟨?_, rfl⟩
  have hlast := (last_of_calculate hc).symm.trans (last_of_calculate hd)
  exact congrArg Step.expression hlast

/-- Whether an expression has a value does not depend on how the calculation is printed, and both
ways to print it show all of it. Lines of text are read back in one way only, and the document says
the same, so that no two expressions print the same lines. -/
theorem outcomes_of_expression {x : Text} {arguments arguments' : List Text}
    {verbose verbose' : Bool}
    (hplain : Options.ofArguments arguments = .ok ⟨some x, false, verbose⟩)
    (hjson : Options.ofArguments arguments' = .ok ⟨some x, true, verbose'⟩) :
    ∃ plain json, outcome? arguments = some plain ∧ outcome? arguments' = some json ∧
      plain.exitCode = json.exitCode ∧
      (plain.exitCode = 0 ↔ ∃ c, calculate x = .ok c) ∧
      (plain.exitCode ≠ 0 → plain.exitCode = 1 ∧ plain.stdout = []) ∧
      ∀ c, calculate x = .ok c →
        (∀ step ∈ c.steps, '=' ∉ step.expression ∧
          '=' ∉ numeral step.result ∧ '\n' ∉ numeral step.result) ∧
        Report.readSteps plain.stdout = some c.steps ∧
        (∀ steps : List Step, (∀ step ∈ steps, step.Legible) →
          steps.flatMap (fun step => step.line ++ Report.newline) = plain.stdout →
            steps = c.steps) ∧
        (∀ d : Calculation, Json.read json.stdout = some d.document ↔ d = c) ∧
        ∀ y d, calculate y = .ok d → (evaluate y false).stdout = plain.stdout → y = x ∧ d = c := by
  refine ⟨_, _, outcome?_of_options hplain rfl, outcome?_of_options hjson rfl, ?_⟩
  -- `--verbose` plays no part from here on
  change (evaluate x false).exitCode = (evaluate x true).exitCode ∧ _
  cases h : calculate x with
  | error r =>
    rw [evaluate_of_error h, evaluate_of_error h]
    simp
  | ok c =>
    have hlegible := legible_of_calculate h
    have hlines := Report.readSteps_lines hlegible
    rw [evaluate_of_ok h, evaluate_of_ok h]
    refine ⟨rfl, by simp, by simp, ?_⟩
    rintro c' hc'
    obtain rfl := Except.ok.inj hc'
    refine ⟨fun step hstep => ?_, hlines, fun steps hsteps heq => ?_, fun d => ?_,
      fun y d hd heq => ?_⟩
    · have hstep := hlegible step hstep
      exact ⟨hstep.equals_not_mem, hstep.isResult.not_mem_numeral rfl (by decide) (by decide),
        hstep.isResult.not_mem_numeral rfl (by decide) (by decide)⟩
    · have hread := Report.readSteps_lines hsteps
      rw [heq] at hread
      exact Option.some.inj (hread.symm.trans hlines)
    · have hdocument := Json.read_json fun step hstep => (hlegible step hstep).isResult.isFinite
      change Json.read (Report.json c) = _ ↔ _
      rw [hdocument, Option.some.injEq, eq_comm]
      exact Calculation.document_injective.eq_iff
    · rw [evaluate_of_ok hd] at heq
      exact eq_of_plain_eq hd h heq

theorem outcomes_of_expression_twice_three :
    Options.ofArguments ["--expr=2*3".toList] = .ok ⟨some "2*3".toList, false, false⟩ ∧
      Options.ofArguments ["--expr=2*3".toList, "--json".toList] =
        .ok ⟨some "2*3".toList, true, false⟩ ∧
      ∃ plain json, outcome? ["--expr=2*3".toList] = some plain ∧
        outcome? ["--expr=2*3".toList, "--json".toList] = some json ∧
        plain.exitCode = 0 ∧ json.exitCode = 0 ∧
        Report.readSteps plain.stdout = some [⟨"2*3".toList, 6⟩, ⟨"2*3".toList, 6⟩] ∧
        Json.read json.stdout =
          some (Calculation.document ⟨[⟨"2*3".toList, 6⟩], ⟨"2*3".toList, 6⟩⟩) := by
  let product := Expr.binary .mul (.literal 2) (.literal 3)
  have hadmitted : Expr.Admitted Expr.standardLimits product := by
    refine ⟨by unfold Expr.Unsigned; decide, by simp [product, Expr.standardLimits], ?_⟩
    rw [Expr.nesting_binary]
    decide +kernel
  have hvalue : product.value = .ok 6 := by decide +kernel
  have hstep : IsStepOf product ⟨"2*3".toList, 6⟩ := ⟨6, hvalue, by decide +kernel⟩
  have hc := calculate_of_isStepOf hadmitted hstep (.cons hstep .nil)
  have hplain := ofArguments_expression "2*3".toList false
  have hjson := ofArguments_expression "2*3".toList true
  obtain ⟨plain, json, ho, ho', hcode, hzero, -, hreports⟩ := outcomes_of_expression hplain hjson
  obtain ⟨-, hsteps, -, hdocument, -⟩ := hreports _ hc
  have hsuccess := hzero.mpr ⟨_, hc⟩
  exact ⟨hplain, hjson, plain, json, ho, ho', hsuccess, hcode ▸ hsuccess, hsteps,
    (hdocument _).mpr rfl⟩

end CommandLine

end Stepwise
