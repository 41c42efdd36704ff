import Mathlib.Order.Interval.Set.Disjoint
import Stepwise.Proofs.Results

namespace Stepwise

namespace Expr

/-- The composite parts of a composite part come right after it, all of them in one block. -/
theorem composites_prefix_drop {e n : Expr} {i : Nat} (h : e.composites[i]? = some n) :
    n.composites <+: e.composites.drop i := by
  induction e generalizing i with
  | literal | constant => cases h
  | neg e ih | call f e ih =>
    cases i with
    | zero =>
      obtain rfl := Option.some.inj h
      exact List.prefix_refl _
    | succ i => exact ih h
  | binary op a b iha ihb =>
    cases i with
    | zero =>
      obtain rfl := Option.some.inj h
      exact List.prefix_refl _
    | succ i =>
      rw [composites_binary, List.getElem?_cons_succ] at h
      rw [composites_binary, List.drop_succ_cons, List.drop_append]
      by_cases hi : i < a.composites.length
      · rw [List.getElem?_append_left hi] at h
        exact (iha h).trans (List.prefix_append _ _)
      · have hle : a.composites.length ≤ i := Nat.le_of_not_lt hi
        rw [List.getElem?_append_right hle] at h
        rw [List.drop_of_length_le hle, List.nil_append]
        exact ihb h

/-- The indices of a composite part, which comes at this index, and of the parts inside it. -/
def block (i : Nat) (n : Expr) : Set Nat :=
  Set.Ico i (i + n.composites.length)

theorem block_le {e n : Expr} {i : Nat} (h : e.composites[i]? = some n) :
    i + n.composites.length ≤ e.composites.length := by
  have hlength := (composites_prefix_drop h).length_le
  have hi : i < e.composites.length := (List.getElem?_eq_some_iff.mp h).1
  rw [List.length_drop] at hlength
  omega

theorem take_drop_composites {e n : Expr} {i : Nat} (h : e.composites[i]? = some n) :
    (e.composites.drop i).take n.composites.length = n.composites :=
  (List.prefix_iff_eq_take.mp (composites_prefix_drop h)).symm

/-- A part that starts inside a block belongs to it as a whole. -/
theorem block_subset_of_mem {e m n : Expr} {i j : Nat} (hm : e.composites[i]? = some m)
    (hn : e.composites[j]? = some n) (hj : j ∈ block i m) : block j n ⊆ block i m := by
  obtain ⟨hij, hlt⟩ := hj
  have hinner : m.composites[j - i]? = some n := by
    rw [← take_drop_composites hm, List.getElem?_take_of_lt (by omega), List.getElem?_drop,
      Nat.add_sub_cancel' hij, hn]
  have hle := block_le hinner
  exact Set.Ico_subset_Ico hij (by omega)

theorem block_nested_or_disjoint {e m n : Expr} {i j : Nat} (hm : e.composites[i]? = some m)
    (hn : e.composites[j]? = some n) :
    block i m ⊆ block j n ∨ block j n ⊆ block i m ∨ Disjoint (block i m) (block j n) := by
  by_cases hj : j ∈ block i m
  · exact Or.inr (Or.inl (block_subset_of_mem hm hn hj))
  by_cases hi : i ∈ block j n
  · exact Or.inl (block_subset_of_mem hn hm hi)
  · -- the later block starts after the end of the earlier one
    refine Or.inr (Or.inr ?_)
    rw [block, Set.mem_Ico] at hi hj
    rw [block, block, Set.Ico_disjoint_Ico]
    omega

end Expr

open Stepwise.Expr

/-- The steps of the parts inside a composite part are those of its block. -/
theorem steps_of_block {e n : Expr} {steps : List Step} {i : Nat}
    (hsteps : List.Forall₂ IsStepOf e.composites steps) (hn : e.composites[i]? = some n) :
    ∃ step, steps[i]? = some step ∧ IsStepOf n step ∧
      List.Forall₂ IsStepOf n.composites ((steps.drop i).take n.composites.length) := by
  obtain ⟨hi, hget⟩ := List.getElem?_eq_some_iff.mp hn
  have hi' : i < steps.length := hsteps.length_eq ▸ hi
  have hstep := hsteps.get hi hi'
  rw [List.get_eq_getElem, hget] at hstep
  refine ⟨steps[i], List.getElem?_eq_getElem hi', hstep, ?_⟩
  have hinner := List.forall₂_take n.composites.length (List.forall₂_drop i hsteps)
  rwa [take_drop_composites hn] at hinner

/-- Every step but the last is a calculation on its own: evaluating its text gives the steps of
the block that it heads, and then the step again. Two blocks are nested or disjoint. -/
theorem calculate_of_step {entry : Text} {c : Calculation} (h : calculate entry = .ok c) :
    ∃ e, parseText entry = .ok e ∧ c.steps.length = e.composites.length + 1 ∧
      (∀ i n, e.composites[i]? = some n → ∃ step, c.steps[i]? = some step ∧
        step.expression = n.render ∧ i + n.composites.length < c.steps.length ∧
        ∃ c', calculate step.expression = .ok c' ∧
          c'.steps = (c.steps.drop i).take n.composites.length ++ [step] ∧
          c'.result = step.result) ∧
      ∀ i j m n, e.composites[i]? = some m → e.composites[j]? = some n →
        block i m ⊆ block j n ∨ block j n ⊆ block i m ∨ Disjoint (block i m) (block j n) := by
  obtain ⟨e, v, he, -, hparts, -⟩ := parts_of_calculate h
  have hlength : c.steps.length = e.composites.length + 1 := by
    rw [hparts.length_eq]
    exact List.length_append
  refine ⟨e, he, hlength, ?_, fun i j m n => block_nested_or_disjoint⟩
  intro i n hn
  have hle := block_le hn
  have hi : i < c.parts.length := hparts.length_eq ▸ (List.getElem?_eq_some_iff.mp hn).1
  obtain ⟨step, hstep, hof, hinner⟩ := steps_of_block hparts hn
  have hadmitted := (admitted_of_parseText he).of_mem_composites n (List.mem_of_getElem? hn)
  have hblock : (c.steps.drop i).take n.composites.length =
      (c.parts.drop i).take n.composites.length := by
    rw [Calculation.steps, List.drop_append_of_le_length (Nat.le_of_lt hi),
      List.take_append_of_le_length]
    rw [List.length_drop, ← hparts.length_eq]
    omega
  refine ⟨step, ?_, ?_, by omega, _, calculate_of_isStepOf hadmitted hof hinner, ?_, rfl⟩
  · rw [Calculation.steps, List.getElem?_append_left hi, hstep]
  · obtain ⟨v, -, rfl⟩ := hof
    rfl
  · rw [hblock]
    rfl

theorem calculate_of_step_product :
    ∃ c product sum, calculate "1-(2*(3+4))".toList = .ok c ∧ c.steps[1]? = some product ∧
      c.steps[2]? = some sum ∧ product.expression = "2*(3+4)".toList ∧
      ∃ c', calculate product.expression = .ok c' ∧ c'.steps = [product, sum, product] := by
  let product := binary .mul (literal 2) (binary .add (literal 3) (literal 4))
  let whole := binary .sub (literal 1) product
  have hadmitted : Admitted standardLimits whole := by
    refine ⟨by unfold Unsigned; decide, by simp [whole, product, standardLimits], ?_⟩
    rw [nesting_binary, nesting_binary, nesting_binary]
    decide +kernel
  have hvalue : whole.value = .ok (-13) := by decide +kernel
  have htext : whole.render = "1-(2*(3+4))".toList := by decide +kernel
  have hproduct : product.render = "2*(3+4)".toList := by decide +kernel
  have hparse := parseText_render hadmitted
  obtain ⟨parts, -, hc⟩ := calculateExpr_of_value hadmitted hvalue whole.render
  rw [← calculate_of_parse hparse] at hc
  obtain ⟨e, he, -, hstep, -⟩ := calculate_of_step hc
  obtain rfl := Except.ok.inj (he.symm.trans hparse)
  obtain ⟨first, hfirst, hexpression, -, c', hc', hsteps, -⟩ := hstep 1 product rfl
  obtain ⟨second, hsecond, -⟩ := hstep 2 _ rfl
  refine ⟨_, first, second, htext ▸ hc, hfirst, hsecond, hexpression.trans hproduct, c', hc', ?_⟩
  have htwo : product.composites.length = 2 := rfl
  rw [hsteps, htwo, List.take_add_one, List.take_one, List.head?_drop, List.getElem?_drop, hfirst,
    hsecond]
  rfl

end Stepwise
