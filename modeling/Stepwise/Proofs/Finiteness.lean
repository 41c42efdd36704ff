import Stepwise.CommandLine
import Stepwise.Proofs.Lines
import Stepwise.Proofs.Session.Symbols

namespace Stepwise

open Stepwise.Expr

/-- The numeral, which only a finite number has. The functions below are those of the program with
this check wherever a numeral is written. -/
def numeral? (v : Float) : Option Text :=
  if v.isFinite then some (numeral v) else none

theorem numeral?_eq_some_iff {v : Float} {t : Text} :
    numeral? v = some t ↔ v.isFinite = true ∧ numeral v = t := by
  rw [numeral?, Option.ite_none_right_eq_some, Option.some.injEq]

theorem numeral?_eq {v : Float} (hv : v.isFinite = true) : numeral? v = some (numeral v) :=
  numeral?_eq_some_iff.mpr ⟨hv, rfl⟩

namespace Expr

def subtrees : Expr → List Expr
  | literal v => [literal v]
  | constant c => [constant c]
  | neg e => neg e :: e.subtrees
  | call f e => call f e :: e.subtrees
  | binary op a b => binary op a b :: (a.subtrees ++ b.subtrees)

/-- A value that is not finite is refused where it arises, and so is every tree around it. -/
theorem value_of_mem_subtrees {e : Expr} {v : Float} (h : e.value = .ok v) :
    ∀ n ∈ e.subtrees, ∃ w, n.value = .ok w ∧ w.isFinite = true := by
  have hself : ∃ w, e.value = .ok w ∧ w.isFinite = true := ⟨v, h, isFinite_of_value h⟩
  induction e generalizing v with
  | literal | constant => exact List.forall_mem_singleton.mpr hself
  | neg e ih | call f e ih =>
    obtain ⟨x, hx, -⟩ := exists_of_bind_eq_ok h
    exact List.forall_mem_cons.mpr ⟨hself, ih hx ⟨x, hx, isFinite_of_value hx⟩⟩
  | binary op a b iha ihb =>
    obtain ⟨x, hx, h⟩ := exists_of_bind_eq_ok h
    obtain ⟨y, hy, -⟩ := exists_of_bind_eq_ok h
    have ha := iha hx ⟨x, hx, isFinite_of_value hx⟩
    have hb := ihb hy ⟨y, hy, isFinite_of_value hy⟩
    exact List.forall_mem_cons.mpr ⟨hself, List.forall_mem_append.mpr ⟨ha, hb⟩⟩

def render? : Expr → Option Text
  | literal v => numeral? v
  | constant c => some c.name
  | neg e => do
      let operand ← e.render?
      return '-' :: parenthesized (needsParentheses .underMinus e) operand
  | binary op a b => do
      let left ← a.render?
      let right ← b.render?
      return parenthesized (needsParentheses (.left op) a) left ++
        op.symbol :: parenthesized (needsParentheses (.right op) b) right
  | call f e => do
      let argument ← e.render?
      return f.name ++ '(' :: argument ++ [')']

theorem finite_constant (c : NamedConstant) : (constant c).Finite := by
  intro v hv
  cases hv

/-- A tree can be written exactly if all its literals are finite. -/
theorem render?_eq_some_iff {e : Expr} {t : Text} :
    e.render? = some t ↔ e.Finite ∧ e.render = t := by
  induction e generalizing t with
  | literal v => rw [render?, numeral?_eq_some_iff, finite_literal, render]
  | constant c => simp [render?, finite_constant, render]
  | neg e ih | call f e ih =>
    simp [render?, Option.bind_eq_some_iff, ih, Finite, literals, render]
  | binary op a b iha ihb =>
    simp [render?, Option.bind_eq_some_iff, iha, ihb, finite_binary, render, and_assoc]

theorem render?_eq {e : Expr} (h : e.Finite) : e.render? = some e.render :=
  render?_eq_some_iff.mpr ⟨h, rfl⟩

theorem finite_of_parse {limits : Limits} {ts : List Token} {e : Expr}
    (h : parse limits ts = .ok e) : e.Finite := by
  obtain ⟨⟨d, -, hderives⟩, -⟩ := derives_of_parse h
  exact hderives.finite

theorem finite_of_mem_composites {e : Expr} (h : e.Finite) : ∀ n ∈ e.composites, n.Finite :=
  forall_mem_composites (P := Expr.Finite) (fun _ h => h) (fun _ _ h => h)
    (fun _ _ _ => finite_binary.mp) h

end Expr

section Calculation

/-- A step is written before it is evaluated, so nothing is written after a step that is refused. -/
def steps? : List Expr → Option (Except Refusal (List Step))
  | [] => some (.ok [])
  | n :: parts => do
      match stepOfText (← n.render?) with
      | .error refusal => return .error refusal
      | .ok step =>
          let steps ← steps? parts
          return do return step :: (← steps)

theorem steps?_eq {parts : List Expr} (h : ∀ n ∈ parts, n.Finite) :
    steps? parts = some ((parts.map render).mapM stepOfText) := by
  induction parts with
  | nil => rfl
  | cons n parts ih =>
    obtain ⟨hn, hparts⟩ := List.forall_mem_cons.mp h
    rw [steps?, render?_eq hn, ih hparts, List.map_cons, List.mapM_cons]
    cases hstep : stepOfText n.render with
    | error refusal =>
      rw [Option.bind_eq_bind, Option.bind_some, hstep]
      rfl
    | ok step =>
      rw [Option.bind_eq_bind, Option.bind_some, hstep]
      rfl

def calculate? (entry : Text) : Option (Except Refusal Calculation) :=
  match parseText entry with
  | .error refusal => some (.error refusal)
  | .ok e => do
      let steps ← steps? e.composites
      return do
        let parts ← steps
        return ⟨parts, entry, roundStep (← e.value)⟩

theorem finite_of_parseText {t : Text} {e : Expr} (h : parseText t = .ok e) : e.Finite := by
  obtain ⟨tokens, -, hparse⟩ := exists_of_bind_eq_ok h
  exact finite_of_parse hparse

theorem calculate?_eq (entry : Text) : calculate? entry = some (calculate entry) := by
  rw [calculate?]
  cases h : parseText entry with
  | error refusal =>
    rw [calculate, h]
    rfl
  | ok e =>
    rw [calculate_of_parse h, calculateExpr, texts_eq]
    dsimp only
    rw [steps?_eq (finite_of_mem_composites (finite_of_parseText h))]
    rfl

theorem isResult_of_mem_steps {entry : Text} {c : Calculation} (h : calculate entry = .ok c) :
    ∀ step ∈ c.steps, IsResult step.result :=
  fun step hstep => (legible_of_calculate h step hstep).isResult

end Calculation

theorem IsResult.ne_neg_zero {r : Float} (h : IsResult r) : r ≠ -0.0 := by
  rintro rfl
  exact h.index_ne_zero (by decide) (by decide)

def Step.line? (step : Step) : Option Text := do
  let result ← numeral? step.result
  return step.expression ++ " = ".toList ++ result

theorem mapM_line?_eq {steps : List Step} (h : ∀ step ∈ steps, IsResult step.result) :
    steps.mapM Step.line? = some (steps.map Step.line) := by
  induction steps with
  | nil => rfl
  | cons step steps ih =>
    obtain ⟨hstep, hsteps⟩ := List.forall_mem_cons.mp h
    rw [List.mapM_cons, ih hsteps, Step.line?, numeral?_eq hstep.isFinite]
    rfl

namespace Session

def record? (s : Session) (c : Calculation) : Option Session := do
  let entry ← numeral? c.result
  return { s.record c with entry := entry }

def evaluate? (s : Session) (text : Text) : Option Session := do
  match ← calculate? text with
  | .ok c => s.record? c
  | .error _ => return s.fail

theorem evaluate?_eq (s : Session) (text : Text) : s.evaluate? text = some (s.evaluate text) := by
  rw [evaluate?, calculate?_eq, evaluate, Option.bind_eq_bind, Option.bind_some]
  cases h : calculate text with
  | error refusal => rfl
  | ok c =>
    dsimp only
    rw [record?, numeral?_eq (isResult_of_calculate h).isFinite]
    rfl

def perform? (s : Session) : Action → Option Session
  | .append text => some (s.append text)
  | .delete => some s.delete
  | .clear => some s.clear
  | .equals => s.evaluate? s.entry

theorem perform?_eq (s : Session) (a : Action) : s.perform? a = some (s.perform a) := by
  cases a with
  | append | delete | clear => rfl
  | equals => exact s.evaluate?_eq s.entry

theorem foldlM_perform?_eq (s : Session) (actions : List Action) :
    actions.foldlM perform? s = some (actions.foldl perform s) := by
  induction actions generalizing s with
  | nil => rfl
  | cons a actions ih =>
    rw [List.foldlM_cons, perform?_eq, Option.bind_eq_bind, Option.bind_some, ih, List.foldl_cons]

/-- The numbers that a session holds are results. -/
def HoldsResults (s : Session) : Prop :=
  ∀ step ∈ s.steps ++ s.recent, IsResult step.result

theorem HoldsResults.evaluate {s : Session} (h : s.HoldsResults) (text : Text) :
    (s.evaluate text).HoldsResults := by
  rw [Session.evaluate]
  cases hc : calculate text with
  | error refusal => exact h
  | ok c =>
    have hrecent : ∀ step ∈ Step.mk s.entry c.result :: s.recent, IsResult step.result :=
      List.forall_mem_cons.mpr ⟨isResult_of_calculate hc, (List.forall_mem_append.mp h).2⟩
    refine List.forall_mem_append.mpr ⟨isResult_of_mem_steps hc, fun step hstep => ?_⟩
    exact hrecent step (List.mem_of_mem_take hstep)

theorem HoldsResults.perform {s : Session} (h : s.HoldsResults) (a : Action) :
    (s.perform a).HoldsResults := by
  cases a with
  | append | delete => exact h
  | clear => exact (List.forall_mem_append.mp h).2
  | equals => exact h.evaluate s.entry

theorem HoldsResults.foldl {s : Session} (h : s.HoldsResults) (actions : List Action) :
    (actions.foldl Session.perform s).HoldsResults := by
  induction actions generalizing s with
  | nil => exact h
  | cons a actions ih => exact ih (h.perform a)

theorem holdsResults_run (actions : List Action) : (run actions).HoldsResults := by
  have hfresh : HoldsResults {} := by
    intro step hstep
    cases hstep
  exact hfresh.foldl actions

def lines? (s : Session) : Option (List Text) := do
  let steps ← s.steps.mapM Step.line?
  let recent ← s.recent.mapM Step.line?
  return ["Calculatrice à étapes".toList, s.display, "Étapes de calcul :".toList] ++
    steps ++ ["Calculs récents :".toList] ++ recent

theorem HoldsResults.lines?_eq {s : Session} (h : s.HoldsResults) : s.lines? = some s.lines := by
  obtain ⟨hsteps, hrecent⟩ := List.forall_mem_append.mp h
  rw [lines?, mapM_line?_eq hsteps, mapM_line?_eq hrecent]
  rfl

def handle? (s : Session) (f : Frame) : Option Session :=
  f.actions.foldlM perform? s

theorem handle?_eq (s : Session) (f : Frame) : s.handle? f = some (s.handle f) := by
  rw [handle?, foldlM_perform?_eq, handle_eq_foldl_actions]

/-- What the window shows, at first and after each frame. -/
def drawings (s : Session) : List Frame → List (List Text)
  | [] => [s.lines]
  | f :: frames => s.lines :: (s.handle f).drawings frames

def drawings? (s : Session) : List Frame → Option (List (List Text))
  | [] => do
      let lines ← s.lines?
      return [lines]
  | f :: frames => do
      let lines ← s.lines?
      let next ← s.handle? f
      let later ← next.drawings? frames
      return lines :: later

theorem HoldsResults.drawings?_eq {s : Session} (h : s.HoldsResults) (frames : List Frame) :
    s.drawings? frames = some (s.drawings frames) := by
  induction frames generalizing s with
  | nil =>
    rw [drawings?, h.lines?_eq]
    rfl
  | cons f frames ih =>
    have hnext : (s.handle f).HoldsResults := by
      rw [handle_eq_foldl_actions]
      exact h.foldl f.actions
    rw [drawings?, h.lines?_eq, handle?_eq, Option.bind_eq_bind, Option.bind_some,
      Option.bind_eq_bind, Option.bind_some, ih hnext]
    rfl

end Session

namespace CommandLine

def evaluate? (expression : Text) (json : Bool) : Option Outcome := do
  match ← calculate? expression with
  | .ok c =>
      if json then return { exitCode := 0, stdout := Report.json c }
      else
        let lines ← c.steps.mapM Step.line?
        return { exitCode := 0, stdout := lines.flatMap fun line => line ++ Report.newline }
  | .error _ =>
      return { exitCode := 1
               stdout := if json then Report.jsonRefusal else []
               stderr := failureMessage ++ ['\n'] }

theorem evaluate?_eq (expression : Text) (json : Bool) :
    evaluate? expression json = some (evaluate expression json) := by
  rw [evaluate?, calculate?_eq, evaluate, Option.bind_eq_bind, Option.bind_some]
  cases h : calculate expression with
  | error refusal => rfl
  | ok c =>
    cases json with
    | true => rfl
    | false =>
      dsimp only
      rw [if_neg Bool.false_ne_true, mapM_line?_eq (isResult_of_mem_steps h), Option.bind_eq_bind,
        Option.bind_some, List.flatMap_map]
      rfl

end CommandLine

/-- No check ever fails: not while a calculation is made, nor in any run of a session, nor when the
window or a report is written. The literals of an accepted tree are finite, and so are the values of
all parts of a tree that has a value. The results in steps and among the calculations remembered are
finite, too, and never minus zero. -/
theorem numbers_written_are_finite :
    (∀ limits ts e, parse limits ts = .ok e → ∀ v ∈ e.literals, v.isFinite = true) ∧
    (∀ e v, Expr.value e = .ok v → ∀ n ∈ e.subtrees, ∃ w, n.value = .ok w ∧ w.isFinite = true) ∧
    (∀ entry c, calculate entry = .ok c →
      ∀ step ∈ c.steps, step.result.isFinite = true ∧ step.result ≠ -0.0) ∧
    (∀ actions, ∀ step ∈ (Session.run actions).steps ++ (Session.run actions).recent,
      step.result.isFinite = true ∧ step.result ≠ -0.0) ∧
    (∀ entry, calculate? entry = some (calculate entry)) ∧
    (∀ actions, actions.foldlM Session.perform? {} = some (Session.run actions) ∧
      (Session.run actions).lines? = some (Session.run actions).lines) ∧
    (∀ frames, frames.foldl Session.handle {} = Session.run (frames.flatMap Frame.actions) ∧
      Session.drawings? {} frames = some (Session.drawings {} frames)) ∧
    ∀ expression json,
      CommandLine.evaluate? expression json = some (CommandLine.evaluate expression json) := by
  refine ⟨fun limits ts e => finite_of_parse, fun e v => value_of_mem_subtrees, ?_, ?_,
    calculate?_eq, ?_, ?_, CommandLine.evaluate?_eq⟩
  · intro entry c hc step hstep
    have hresult := isResult_of_mem_steps hc step hstep
    exact ⟨hresult.isFinite, hresult.ne_neg_zero⟩
  · intro actions step hstep
    have hresult := Session.holdsResults_run actions step hstep
    exact ⟨hresult.isFinite, hresult.ne_neg_zero⟩
  · exact fun actions => ⟨Session.foldlM_perform?_eq {} actions,
      (Session.holdsResults_run actions).lines?_eq⟩
  · exact fun frames => ⟨Session.foldl_handle frames,
      (Session.holdsResults_run []).drawings?_eq frames⟩

end Stepwise
