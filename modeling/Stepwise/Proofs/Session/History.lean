import Stepwise.Proofs.Results
import Stepwise.Proofs.Session.Actions

namespace Stepwise.Session

/-- The entry as it stands before and the result, when an action is an evaluation that succeeds. -/
def answer? (s : Session) : Action → Option Step
  | .equals => (calculate s.entry).toOption.map fun c => ⟨s.entry, c.result⟩
  | _ => none

/-- The evaluations that succeed in the course of some actions, in their order. -/
def answers (s : Session) : List Action → List Step
  | [] => []
  | a :: actions => (s.answer? a).toList ++ (s.perform a).answers actions

/-- Some evaluation has succeeded after the last time that everything was cleared. -/
def AnsweredSinceClear (actions : List Action) : Prop :=
  ∃ before after c, actions = before ++ .equals :: after ∧ .clear ∉ after ∧
    calculate (run before).entry = .ok c

theorem answer?_equals_of_ok {s : Session} {c : Calculation} (h : calculate s.entry = .ok c) :
    s.answer? .equals = some ⟨s.entry, c.result⟩ := by
  rw [answer?, h]
  rfl

theorem answer?_equals_of_error {s : Session} {r : Refusal} (h : calculate s.entry = .error r) :
    s.answer? .equals = none := by
  rw [answer?, h]
  rfl

theorem answers_append (s : Session) (actions more : List Action) :
    s.answers (actions ++ more) = s.answers actions ++ (actions.foldl perform s).answers more := by
  induction actions generalizing s with
  | nil => rfl
  | cons a actions ih => simp only [List.cons_append, answers, ih, List.foldl_cons, List.append_assoc]

theorem answers_concat (actions : List Action) (a : Action) :
    answers {} (actions ++ [a]) = answers {} actions ++ ((run actions).answer? a).toList := by
  rw [answers_append, answers, answers, List.append_nil]
  rfl

/-- An evaluation that has succeeded succeeds again, with the same result. -/
def Replays (h : Step) : Prop :=
  ∃ c, calculate h.expression = .ok c ∧ c.last = h

theorem replays_of_answer? {s : Session} {a : Action} {h : Step} (ha : s.answer? a = some h) :
    Replays h := by
  cases a with
  | equals =>
    cases hc : calculate s.entry with
    | error r =>
      rw [answer?_equals_of_error hc] at ha
      cases ha
    | ok c =>
      rw [answer?_equals_of_ok hc] at ha
      cases ha
      exact ⟨c, hc, last_of_calculate hc⟩
  | append | delete | clear => cases ha

theorem replays_of_mem_answers {s : Session} {actions : List Action} {h : Step}
    (hh : h ∈ s.answers actions) : Replays h := by
  induction actions generalizing s with
  | nil => cases hh
  | cons a actions ih =>
    obtain hh | hh := List.mem_append.mp hh
    · exact replays_of_answer? (Option.mem_toList.mp hh)
    · exact ih hh

theorem answeredSinceClear_concat_iff (actions : List Action) (a : Action) :
    AnsweredSinceClear (actions ++ [a]) ↔
      (a = .equals ∧ ∃ c, calculate (run actions).entry = .ok c) ∨
        (a ≠ .clear ∧ AnsweredSinceClear actions) := by
  constructor
  · rintro ⟨before, after, c, hactions, hclear, hc⟩
    obtain rfl | ⟨after', x, rfl⟩ := List.eq_nil_or_concat after
    · obtain ⟨rfl, ha⟩ := List.append_inj' hactions rfl
      exact Or.inl ⟨List.singleton_inj.mp ha, c, hc⟩
    · rw [List.concat_eq_append, ← List.cons_append, ← List.append_assoc] at hactions
      obtain ⟨rfl, ha⟩ := List.append_inj' hactions rfl
      obtain rfl := List.singleton_inj.mp ha
      rw [List.concat_eq_append, List.mem_append, List.mem_singleton, not_or] at hclear
      exact Or.inr ⟨fun h => hclear.2 h.symm, before, after', c, rfl, hclear.1, hc⟩
  · rintro (⟨rfl, c, hc⟩ | ⟨ha, before, after, c, rfl, hclear, hc⟩)
    · exact ⟨actions, [], c, rfl, by simp, hc⟩
    · refine ⟨before, after ++ [a], c, by simp, ?_, hc⟩
      simpa [hclear] using ha.symm

theorem take_cons_take {α : Type} (n : Nat) (x : α) (l : List α) :
    (x :: l.take n).take n = (x :: l).take n := by
  cases n with
  | zero => rfl
  | succ n => simp [List.take_take]

/-- What a session remembers after some actions. -/
structure Remembers (actions : List Action) (s : Session) : Prop where
  recent : s.recent = (answers {} actions).reverse.take capacity
  steps_eq_nil : ¬AnsweredSinceClear actions → s.steps = []
  steps_eq : AnsweredSinceClear actions → ∃ h older c, s.recent = h :: older ∧
    calculate h.expression = .ok c ∧ c.last = h ∧ s.steps = c.steps

theorem Remembers.frame {actions : List Action} {s t : Session} {a : Action}
    (h : Remembers actions s) (hrecent : t.recent = s.recent) (hsteps : t.steps = s.steps)
    (hanswer : (run actions).answer? a = none)
    (hanswered : AnsweredSinceClear (actions ++ [a]) ↔ AnsweredSinceClear actions) :
    Remembers (actions ++ [a]) t := by
  refine ⟨?_, ?_, ?_⟩
  · rw [hrecent, h.recent, answers_concat, hanswer, Option.toList_none, List.append_nil]
  · rw [hanswered, hsteps]
    exact h.steps_eq_nil
  · rw [hanswered, hsteps, hrecent]
    exact h.steps_eq

theorem remembers_perform {actions : List Action} (h : Remembers actions (run actions))
    (a : Action) : Remembers (actions ++ [a]) ((run actions).perform a) := by
  have hconcat := answeredSinceClear_concat_iff actions a
  cases a with
  | append | delete => exact h.frame rfl rfl rfl (by simpa using hconcat)
  | clear =>
    -- the calculations remembered stay, only the steps go
    have hnot : ¬AnsweredSinceClear (actions ++ [.clear]) := by simpa using hconcat
    refine ⟨?_, fun _ => rfl, fun h => absurd h hnot⟩
    have hanswer : (run actions).answer? .clear = none := rfl
    rw [answers_concat, hanswer, Option.toList_none, List.append_nil, ← h.recent]
    rfl
  | equals =>
    rw [perform]
    cases hc : calculate (run actions).entry with
    | error r =>
      rw [equals_of_error hc]
      exact h.frame rfl rfl (answer?_equals_of_error hc) (by simpa [hc] using hconcat)
    | ok c =>
      have hanswered : AnsweredSinceClear (actions ++ [.equals]) :=
        hconcat.mpr (Or.inl ⟨rfl, c, hc⟩)
      rw [equals_of_ok hc]
      refine ⟨?_, fun hnot => absurd hanswered hnot, fun _ => ?_⟩
      · rw [answers_concat, answer?_equals_of_ok hc, Option.toList_some, List.reverse_concat,
          ← take_cons_take, ← h.recent]
        rfl
      · exact ⟨_, _, c, rfl, hc, last_of_calculate hc, rfl⟩

theorem remembers_run (actions : List Action) : Remembers actions (run actions) := by
  induction actions using List.reverseRecOn with
  | nil =>
    refine ⟨rfl, fun _ => rfl, ?_⟩
    rintro ⟨before, after, c, hactions, -⟩
    simp at hactions
  | append_singleton actions a ih =>
    rw [run_concat]
    exact remembers_perform ih a

/-- After any actions, the calculations remembered are the latest evaluations that succeeded, and
each of them gives its result again. The steps are those of the latest one, unless everything has
been cleared since, and they end with it. -/
theorem recent_and_steps_of_run (actions : List Action) :
    (run actions).recent = (answers {} actions).reverse.take capacity ∧
    (∀ h ∈ (run actions).recent, ∃ c, calculate h.expression = .ok c ∧ c.result = h.result) ∧
    (¬AnsweredSinceClear actions → (run actions).steps = []) ∧
    (AnsweredSinceClear actions → ∃ h older c, (run actions).recent = h :: older ∧
      calculate h.expression = .ok c ∧ (run actions).steps = c.steps ∧
      c.steps.getLast? = some h) := by
  obtain ⟨hrecent, hnil, hsteps⟩ := remembers_run actions
  refine ⟨hrecent, ?_, hnil, ?_⟩
  · intro h hh
    rw [hrecent] at hh
    obtain ⟨c, hc, hlast⟩ := replays_of_mem_answers (List.mem_reverse.mp (List.mem_of_mem_take hh))
    exact ⟨c, hc, congrArg Step.result hlast⟩
  · intro hanswered
    obtain ⟨h, older, c, hcons, hc, hlast, heq⟩ := hsteps hanswered
    refine ⟨h, older, c, hcons, hc, heq, ?_⟩
    rw [Calculation.steps, List.getLast?_concat, hlast]

end Stepwise.Session
