import Mathlib.Data.List.Forall2
import Stepwise.Calculation
import Stepwise.Proofs.Expr.Canonical

namespace Stepwise

namespace Expr

/-- What passes from every expression to its operands holds of all its composite parts. -/
theorem forall_mem_composites {P : Expr → Prop} (hneg : ∀ e, P (neg e) → P e)
    (hcall : ∀ f e, P (call f e) → P e) (hbinary : ∀ op a b, P (binary op a b) → P a ∧ P b)
    {e : Expr} (h : P e) : ∀ n ∈ e.composites, P n := by
  induction e with
  | literal | constant => simp
  | neg e ih =>
    rw [composites_neg, List.forall_mem_cons]
    exact ⟨h, ih (hneg e h)⟩
  | call f e ih =>
    rw [composites_call, List.forall_mem_cons]
    exact ⟨h, ih (hcall f e h)⟩
  | binary op a b iha ihb =>
    obtain ⟨ha, hb⟩ := hbinary op a b h
    rw [composites_binary, List.forall_mem_cons, List.forall_mem_append]
    exact ⟨h, iha ha, ihb hb⟩

/-- The trees that are read from texts. -/
structure Admitted (limits : Limits) (e : Expr) : Prop where
  unsigned : e.Unsigned
  height : e.height ≤ limits.height
  nesting : e.nesting ≤ limits.nesting

variable {limits : Limits}

theorem admitted_of_parse {ts : List Token} {e : Expr} (hts : Scanned ts)
    (h : parse limits ts = .ok e) : Admitted limits e := by
  obtain ⟨⟨d, -, hderives⟩, hheight, hnesting⟩ := derives_of_parse h
  exact ⟨hderives.unsigned hts, hheight, hnesting⟩

theorem Admitted.parse_tokens {e : Expr} (h : Admitted limits e) :
    parse limits e.tokens = .ok e :=
  (Expr.parse_tokens limits h.unsigned).eq_of_not (not_not_intro ⟨h.height, h.nesting⟩)

/-- No operand needs more room on its own than as a part of the whole. -/
theorem Admitted.of_mem_composites {e : Expr} (h : Admitted limits e) :
    ∀ n ∈ e.composites, Admitted limits n := by
  refine forall_mem_composites ?_ ?_ ?_ h
  · rintro e ⟨hunsigned, hheight, hnesting⟩
    rw [height_neg] at hheight
    rw [nesting_neg] at hnesting
    exact ⟨hunsigned, by omega, by omega⟩
  · rintro f e ⟨hunsigned, hheight, hnesting⟩
    rw [height_call] at hheight
    rw [nesting_call] at hnesting
    exact ⟨hunsigned, by omega, by omega⟩
  · rintro op a b ⟨hunsigned, hheight, hnesting⟩
    obtain ⟨ha, hb⟩ := unsigned_binary.mp hunsigned
    rw [height_binary] at hheight
    rw [nesting_binary] at hnesting
    exact ⟨⟨ha, by omega, by omega⟩, ⟨hb, by omega, by omega⟩⟩

theorem exists_value_of_mem_composites {e : Expr} (h : ∃ v, e.value = .ok v) :
    ∀ n ∈ e.composites, ∃ w, n.value = .ok w := by
  refine forall_mem_composites ?_ ?_ ?_ h
  · rintro e ⟨v, hv⟩
    obtain ⟨x, hx, -⟩ := exists_of_bind_eq_ok hv
    exact ⟨x, hx⟩
  · rintro f e ⟨v, hv⟩
    obtain ⟨x, hx, -⟩ := exists_of_bind_eq_ok hv
    exact ⟨x, hx⟩
  · rintro op a b ⟨v, hv⟩
    obtain ⟨x, hx, hv⟩ := exists_of_bind_eq_ok hv
    obtain ⟨y, hy, -⟩ := exists_of_bind_eq_ok hv
    exact ⟨⟨x, hx⟩, ⟨y, hy⟩⟩

/-- A composite expression comes before its parts. -/
theorem composites_eq_cons {e : Expr} (h : e.isComposite = true) :
    ∃ parts, e.composites = e :: parts := by
  cases e with
  | literal | constant => cases h
  | neg | call | binary => exact ⟨_, rfl⟩

theorem composites_eq_nil {e : Expr} (h : e.isComposite = false) : e.composites = [] := by
  cases e with
  | literal | constant => rfl
  | neg | call | binary => cases h

end Expr

open Stepwise.Expr

theorem parseText_of_scan {t : Text} {tokens : List Token} (h : Token.scan t = .ok tokens) :
    parseText t = parse standardLimits tokens := by
  rw [parseText, h]
  rfl

theorem parseText_render {e : Expr} (h : Admitted standardLimits e) : parseText e.render = .ok e :=
  (parseText_of_scan (scans_render h.unsigned).scan_eq).trans h.parse_tokens

/-- The way over the canonical text changes nothing. -/
theorem evaluateText_render {e : Expr} (h : Admitted standardLimits e) :
    evaluateText e.render = e.value := by
  rw [evaluateText, parseText_render h]
  rfl

/-- The step shows the canonical text of the expression and its rounded value. -/
def IsStepOf (e : Expr) (step : Step) : Prop :=
  ∃ v, e.value = .ok v ∧ step = ⟨e.render, roundStep v⟩

theorem stepOfText_render {e : Expr} {v : Float} (h : Admitted standardLimits e)
    (hv : e.value = .ok v) : stepOfText e.render = .ok ⟨e.render, roundStep v⟩ := by
  rw [stepOfText, evaluateText_render h, hv]
  rfl

theorem exists_steps {es : List Expr} (h : ∀ e ∈ es, Admitted standardLimits e)
    (hv : ∀ e ∈ es, ∃ v, e.value = .ok v) :
    ∃ steps, (es.map render).mapM stepOfText = .ok steps ∧ List.Forall₂ IsStepOf es steps := by
  induction es with
  | nil => exact ⟨[], rfl, .nil⟩
  | cons e es ih =>
    obtain ⟨he, hes⟩ := List.forall_mem_cons.mp h
    obtain ⟨⟨v, hv⟩, hvs⟩ := List.forall_mem_cons.mp hv
    obtain ⟨steps, hsteps, hall⟩ := ih hes hvs
    refine ⟨⟨e.render, roundStep v⟩ :: steps, ?_, .cons ⟨v, hv, rfl⟩ hall⟩
    rw [List.map_cons, List.mapM_cons, stepOfText_render he hv, hsteps]
    rfl

theorem calculateExpr_of_value {e : Expr} {v : Float} (h : Admitted standardLimits e)
    (hv : e.value = .ok v) (entry : Text) :
    ∃ parts, List.Forall₂ IsStepOf e.composites parts ∧
      calculateExpr e entry = .ok ⟨parts, entry, roundStep v⟩ := by
  obtain ⟨parts, hparts, hall⟩ :=
    exists_steps h.of_mem_composites (exists_value_of_mem_composites ⟨v, hv⟩)
  refine ⟨parts, hall, ?_⟩
  rw [calculateExpr, texts_eq, hparts, hv]
  rfl

/-- The first step is that of the whole, so it is refused first and for the same reason. -/
theorem calculateExpr_of_refusal {e : Expr} {r : Refusal} (h : Admitted standardLimits e)
    (hr : e.value = .error r) (entry : Text) : calculateExpr e entry = .error r := by
  rw [calculateExpr, texts_eq]
  cases hcomposite : e.isComposite with
  | false =>
    rw [composites_eq_nil hcomposite, hr]
    rfl
  | true =>
    obtain ⟨parts, hparts⟩ := composites_eq_cons hcomposite
    rw [hparts, List.map_cons, List.mapM_cons, stepOfText, evaluateText_render h, hr]
    rfl

theorem calculate_of_parse {entry : Text} {e : Expr} (h : parseText entry = .ok e) :
    calculate entry = calculateExpr e entry := by
  rw [calculate, h]
  rfl

theorem admitted_of_parseText {t : Text} {e : Expr} (h : parseText t = .ok e) :
    Admitted standardLimits e := by
  obtain ⟨tokens, hscan, hparse⟩ := exists_of_bind_eq_ok h
  exact admitted_of_parse (Token.isNumeral_of_scan hscan) hparse

theorem isStepOf_unique : Relator.RightUnique IsStepOf := by
  rintro e step step' ⟨v, hv, rfl⟩ ⟨w, hw, rfl⟩
  rw [hv] at hw
  rw [Except.ok.inj hw]

/-- The text of a step is an entry of its own. Its calculation has the steps of the parts inside,
and ends with this step once more. -/
theorem calculate_of_isStepOf {n : Expr} {step : Step} {inner : List Step}
    (hadmitted : Admitted standardLimits n) (hstep : IsStepOf n step)
    (hinner : List.Forall₂ IsStepOf n.composites inner) :
    calculate step.expression = .ok ⟨inner, step⟩ := by
  obtain ⟨v, hv, rfl⟩ := hstep
  obtain ⟨parts, hparts, hc⟩ := calculateExpr_of_value hadmitted hv n.render
  rw [calculate_of_parse (parseText_render hadmitted), hc]
  rw [isStepOf_unique.forall₂ hparts hinner]

theorem scan_blanks {t : Text} (h : ∀ c ∈ t, Unicode.isWhiteSpace c = true) :
    Token.scan t = .ok [] := by
  induction t with
  | nil => exact Token.scan_nil
  | cons c t ih =>
    obtain ⟨hc, ht⟩ := List.forall_mem_cons.mp h
    rw [Token.scan_blank hc, ih ht]

/-- A calculation succeeds if and only if the tree that is read from the entry has a value. Its
steps are those of the composite parts, the whole before its parts and left before right, and
that of the entry itself. A refusal is passed on, and evaluating texts again adds none. -/
theorem calculate_steps_of_composites (entry : Text) :
    ((∀ c ∈ entry, Unicode.isWhiteSpace c = true) → calculate entry = .error .emptyEntry) ∧
    (∀ r, Token.scan entry = .error r → calculate entry = .error r) ∧
    ∀ tokens, Token.scan entry = .ok tokens →
      (∀ r, parse standardLimits tokens = .error r → calculate entry = .error r) ∧
      ∀ e, parse standardLimits tokens = .ok e →
        (∀ n ∈ e.composites, evaluateText n.render = n.value) ∧
        (∀ r, e.value = .error r → calculate entry = .error r) ∧
        ∀ v, e.value = .ok v → ∃ c parts, calculate entry = .ok c ∧
          List.Forall₂ IsStepOf e.composites parts ∧
          c.steps = parts ++ [⟨entry, roundStep v⟩] ∧ c.result = roundStep v := by
  refine ⟨?_, ?_, ?_⟩
  · intro hblank
    rw [calculate, parseText, scan_blanks hblank]
    rfl
  · intro r hr
    rw [calculate, parseText, hr]
    rfl
  · intro tokens htokens
    have hparse := parseText_of_scan htokens
    refine ⟨?_, ?_⟩
    · intro r hr
      rw [calculate, hparse, hr]
      rfl
    · intro e he
      rw [he] at hparse
      have hadmitted : Admitted standardLimits e := admitted_of_parseText hparse
      rw [calculate_of_parse hparse]
      refine ⟨?_, ?_, ?_⟩
      · intro n hn
        exact evaluateText_render (hadmitted.of_mem_composites n hn)
      · intro r hr
        exact calculateExpr_of_refusal hadmitted hr entry
      · intro v hv
        obtain ⟨parts, hparts, hc⟩ := calculateExpr_of_value hadmitted hv entry
        exact ⟨_, parts, hc, hparts, rfl, rfl⟩

end Stepwise
