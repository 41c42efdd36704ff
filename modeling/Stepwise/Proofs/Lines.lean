import Stepwise.Report
import Stepwise.Proofs.Reader
import Stepwise.Proofs.Results

namespace Stepwise

namespace Token

theorem equals_not_mem_of_scan {t : Text} {ts : List Token} (h : scan t = .ok ts) : '=' ∉ t := by
  intro hmem
  have hadmissible := isAdmissible_of_scan h '=' hmem
  revert hadmissible
  decide +kernel

end Token

/-- A step that a line of text shows without loss. -/
structure Step.Legible (step : Step) : Prop where
  equals_not_mem : '=' ∉ step.expression
  isResult : IsResult step.result

theorem legible_of_calculate {entry : Text} {c : Calculation} (h : calculate entry = .ok c) :
    ∀ step ∈ c.steps, step.Legible := by
  obtain ⟨e, v, he, hv, hparts, hlast⟩ := parts_of_calculate h
  obtain ⟨ts, hts, -⟩ := Expr.exists_of_bind_eq_ok he
  have hadmitted := (admitted_of_parseText he).of_mem_composites
  rw [Calculation.steps, List.forall_mem_append, List.forall_mem_singleton, hlast]
  refine ⟨fun step hstep => ?_, Token.equals_not_mem_of_scan hts,
    isResult_roundStep (Expr.isFinite_of_value hv)⟩
  obtain ⟨i, hi, rfl⟩ := List.mem_iff_getElem.mp hstep
  have hi' : i < e.composites.length := hparts.length_eq ▸ hi
  obtain ⟨w, hw, hstep⟩ := hparts.get hi' hi
  have hscans := Expr.scans_render (hadmitted _ (List.getElem_mem hi')).unsigned
  rw [List.get_eq_getElem] at hstep
  rw [hstep]
  exact ⟨Token.equals_not_mem_of_scan hscans.scan_eq,
    isResult_roundStep (Expr.isFinite_of_value hw)⟩

/-- A numeral is made of digits, at most with a minus sign and a point. -/
theorem IsResult.not_mem_numeral {r : Float} (h : IsResult r) {c : Char}
    (hdigit : c.isDigit = false) (hpoint : c ≠ '.') (hminus : c ≠ '-') : c ∉ numeral r := by
  obtain ⟨t, ht, heq⟩ := h.numeral_eq_signed
  obtain ⟨hclass, -, -⟩ := Decimal.isNumeral_iff.mp ht
  have hsize : c ∉ t := by
    intro hc
    obtain h | h := hclass c hc
    · exact Decimal.ne_of_isDigit h hdigit rfl
    · exact hpoint h
  rw [heq, Decimal.signed]
  split
  · exact List.not_mem_cons_of_ne_of_not_mem hminus hsize
  · exact hsize

namespace Report

open Reader

def endOfText? : Text → Option Text
  | [] => some []
  | _ => none

/-- An expression up to the equals sign, which no entry holds, and a number from there to the end of
the line. -/
def readStep : Reader Step := fun t =>
  match t.dropWhile (· != '=') with
  | '=' :: ' ' :: shown =>
      match shown.dropWhile (· != '\n') with
      | '\n' :: rest =>
          (Decimal.finite? (shown.takeWhile (· != '\n'))).map fun v =>
            (⟨(t.takeWhile (· != '=')).dropLast, v⟩, rest)
      | _ => none
  | _ => none

def readSteps (t : Text) : Option (List Step) :=
  (items endOfText? readStep t).map Prod.fst

theorem readStep_line {step : Step} (h : step.Legible) (rest : Text) :
    readStep (step.line ++ newline ++ rest) = some (step, rest) := by
  have htext : step.line ++ newline ++ rest =
      (step.expression ++ [' ']) ++ '=' :: ' ' :: (numeral step.result ++ '\n' :: rest) := by
    simp [Step.line, newline]
  have hexpression : ∀ c ∈ step.expression ++ [' '], (c != '=') = true := by
    refine List.forall_mem_append.mpr ⟨fun c hc => ?_, by simp⟩
    rw [bne_iff_ne]
    rintro rfl
    exact h.equals_not_mem hc
  have hnumeral : ∀ c ∈ numeral step.result, (c != '\n') = true := by
    intro c hc
    rw [bne_iff_ne]
    rintro rfl
    exact h.isResult.not_mem_numeral rfl (by decide) (by decide) hc
  have hequals : ∀ c ∈ ('=' :: ' ' :: (numeral step.result ++ '\n' :: rest)).head?,
      (c != '=') = false := by simp
  have hend : ∀ c ∈ ('\n' :: rest).head?, (c != '\n') = false := by simp
  obtain ⟨htake, hdrop⟩ := Token.takeWhile_run hexpression hequals
  obtain ⟨htake', hdrop'⟩ := Token.takeWhile_run hnumeral hend
  rw [htext, readStep, hdrop]
  simp only [hdrop', htake', htake, h.isResult.finite?_numeral, List.dropLast_concat]
  rfl

theorem isItem_line {step : Step} (h : step.Legible) :
    IsItem endOfText? readStep (step.line ++ newline) step := by
  have hne : step.line ++ newline ≠ [] :=
    List.append_ne_nil_of_right_ne_nil _ (List.cons_ne_nil _ _)
  refine ⟨hne, fun rest => ?_, readStep_line h⟩
  obtain ⟨c, t, ht⟩ := List.exists_cons_of_ne_nil hne
  rw [ht]
  rfl

theorem readSteps_lines {steps : List Step} (h : ∀ step ∈ steps, step.Legible) :
    readSteps (steps.flatMap fun step => step.line ++ newline) = some steps := by
  have hitems : List.Forall₂ (IsItem endOfText? readStep)
      (steps.map fun step => step.line ++ newline) steps := by
    rw [List.forall₂_map_left_iff, List.forall₂_same]
    exact fun step hstep => isItem_line (h step hstep)
  have hread := items_of_forall₂ hitems (rfl : endOfText? [] = some [])
  rw [List.append_nil, ← List.flatMap_def] at hread
  rw [readSteps, hread]
  rfl

end Report

end Stepwise
