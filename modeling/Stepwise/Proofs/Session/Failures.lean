import Mathlib.Data.List.Induction
import Stepwise.Proofs.Session.Actions

namespace Stepwise.Session

/-- The sessions differ at most in the message. -/
structure SameMemory (s t : Session) : Prop where
  entry : s.entry = t.entry
  steps : s.steps = t.steps
  recent : s.recent = t.recent

def fails (s : Session) : Action → Bool
  | .equals => (calculate s.entry).toOption.isNone
  | _ => false

/-- The actions without those evaluations that fail in their course. -/
def withoutFailures (s : Session) : List Action → List Action
  | [] => []
  | a :: actions =>
      (if s.fails a then [] else [a]) ++ (s.perform a).withoutFailures actions

/-- The last action, unless it takes something away, is an evaluation that fails. -/
def FailedLast (actions : List Action) : Prop :=
  ∃ before n, actions = before ++ .equals :: List.replicate n .delete ∧
    (run before).fails .equals = true

theorem fails_equals_iff {s : Session} :
    s.fails .equals = true ↔ ∃ r, calculate s.entry = .error r := by
  rw [fails]
  cases calculate s.entry <;> simp [Except.toOption]

theorem not_fails_equals_iff {s : Session} :
    s.fails .equals = false ↔ ∃ c, calculate s.entry = .ok c := by
  rw [fails]
  cases calculate s.entry <;> simp [Except.toOption]

theorem SameMemory.fail {s t : Session} (h : SameMemory s t) : SameMemory s.fail t :=
  ⟨h.entry, h.steps, h.recent⟩

theorem SameMemory.fails_eq {s t : Session} (h : SameMemory s t) (a : Action) :
    s.fails a = t.fails a := by
  cases a with
  | equals => rw [fails, fails, h.entry]
  | append | delete | clear => rfl

/-- Every action works on the memory alone. -/
theorem SameMemory.perform {s t : Session} (h : SameMemory s t) (a : Action) :
    SameMemory (s.perform a) (t.perform a) := by
  obtain ⟨hentry, hsteps, hrecent⟩ := h
  cases a with
  | append text => exact ⟨congrArg (· ++ text) hentry, hsteps, hrecent⟩
  | delete =>
    refine ⟨?_, hsteps, hrecent⟩
    rw [Session.perform, Session.perform, delete, delete, hentry]
  | clear => exact ⟨rfl, rfl, hrecent⟩
  | equals =>
    rw [Session.perform, Session.perform]
    cases hc : calculate s.entry with
    | error r =>
      rw [equals_of_error hc, equals_of_error (hentry ▸ hc)]
      exact ⟨hentry, hsteps, hrecent⟩
    | ok c =>
      rw [equals_of_ok hc, equals_of_ok (hentry ▸ hc), record, record, hentry, hrecent]
      exact ⟨rfl, rfl, rfl⟩

theorem SameMemory.perform_of_fails {s t : Session} (h : SameMemory s t) {a : Action}
    (ha : s.fails a = true) : SameMemory (s.perform a) t := by
  cases a with
  | equals =>
    obtain ⟨r, hr⟩ := fails_equals_iff.mp ha
    rw [Session.perform, equals_of_error hr]
    exact h.fail
  | append | delete | clear => cases ha

theorem withoutFailures_cons_of_fails {s : Session} {a : Action} (ha : s.fails a = true)
    (actions : List Action) :
    s.withoutFailures (a :: actions) = (s.perform a).withoutFailures actions := by
  rw [withoutFailures, if_pos ha, List.nil_append]

theorem withoutFailures_cons_of_not_fails {s : Session} {a : Action} (ha : s.fails a = false)
    (actions : List Action) :
    s.withoutFailures (a :: actions) = a :: (s.perform a).withoutFailures actions := by
  rw [withoutFailures, if_neg (by simp [ha]), List.singleton_append]

theorem SameMemory.foldl_withoutFailures {s t : Session} (h : SameMemory s t)
    (actions : List Action) :
    SameMemory (actions.foldl Session.perform s)
      ((s.withoutFailures actions).foldl Session.perform t) := by
  induction actions generalizing s t with
  | nil => exact h
  | cons a actions ih =>
    cases ha : s.fails a with
    | true =>
      rw [withoutFailures_cons_of_fails ha]
      exact ih (h.perform_of_fails ha)
    | false =>
      rw [withoutFailures_cons_of_not_fails ha]
      exact ih (h.perform a)

/-- The evaluations that are left succeed also without the others. -/
theorem SameMemory.succeeds {s t : Session} (h : SameMemory s t) {actions before after : List Action}
    (hkept : s.withoutFailures actions = before ++ .equals :: after) :
    (before.foldl Session.perform t).fails .equals = false := by
  induction actions generalizing s t before with
  | nil => simp [withoutFailures] at hkept
  | cons a actions ih =>
    cases ha : s.fails a with
    | true =>
      rw [withoutFailures_cons_of_fails ha] at hkept
      exact ih (h.perform_of_fails ha) hkept
    | false =>
      rw [withoutFailures_cons_of_not_fails ha] at hkept
      cases before with
      | nil =>
        obtain ⟨rfl, -⟩ := List.cons.inj hkept
        rw [List.foldl_nil, ← h.fails_eq, ha]
      | cons b before =>
        obtain ⟨rfl, htail⟩ := List.cons.inj hkept
        exact ih (h.perform a) htail

theorem failedLast_concat_iff (actions : List Action) (a : Action) :
    FailedLast (actions ++ [a]) ↔
      a = .equals ∧ (run actions).fails .equals = true ∨ a = .delete ∧ FailedLast actions := by
  constructor
  · rintro ⟨before, n, hactions, hfails⟩
    cases n with
    | zero =>
      obtain ⟨rfl, ha⟩ := List.append_inj' hactions rfl
      exact Or.inl ⟨List.singleton_inj.mp ha, hfails⟩
    | succ n =>
      rw [List.replicate_succ', ← List.cons_append, ← List.append_assoc] at hactions
      obtain ⟨rfl, ha⟩ := List.append_inj' hactions rfl
      exact Or.inr ⟨List.singleton_inj.mp ha, before, n, rfl, hfails⟩
  · rintro (⟨rfl, hfails⟩ | ⟨rfl, before, n, rfl, hfails⟩)
    · exact ⟨actions, 0, rfl, hfails⟩
    · refine ⟨before, n + 1, ?_, hfails⟩
      rw [List.replicate_succ', List.append_assoc, List.cons_append]

/-- An evaluation that fails writes the message, and taking something away leaves it; whatever else
is done wipes it out. -/
theorem message_perform (s : Session) (a : Action) :
    (s.perform a).message =
      if s.fails a then failureMessage else if a = .delete then s.message else [] := by
  cases a with
  | append text => rfl
  | delete => rfl
  | clear => rfl
  | equals =>
    rw [perform]
    cases hc : calculate s.entry with
    | error r => rw [equals_of_error hc, if_pos (fails_equals_iff.mpr ⟨r, hc⟩), fail]
    | ok c =>
      have hfails := not_fails_equals_iff.mpr ⟨c, hc⟩
      rw [equals_of_ok hc, if_neg (by simp [hfails]), if_neg nofun, record]

theorem message_run (actions : List Action) :
    (run actions).message = [] ∨ (run actions).message = failureMessage := by
  induction actions using List.reverseRecOn with
  | nil => exact Or.inl rfl
  | append_singleton actions a ih =>
    rw [run_concat, message_perform]
    split_ifs
    · exact Or.inr rfl
    · exact ih
    · exact Or.inl rfl

theorem message_perform_ne_nil_iff (s : Session) (a : Action) :
    (s.perform a).message ≠ [] ↔
      a = .equals ∧ s.fails .equals = true ∨ a = .delete ∧ s.message ≠ [] := by
  have hne : failureMessage ≠ [] := by decide
  rw [message_perform]
  cases a with
  | append | clear | delete => simp [fails]
  | equals => simp [hne]

theorem message_run_ne_nil_iff (actions : List Action) :
    (run actions).message ≠ [] ↔ FailedLast actions := by
  induction actions using List.reverseRecOn with
  | nil => simp [run, FailedLast]
  | append_singleton actions a ih =>
    rw [run_concat, message_perform_ne_nil_iff, failedLast_concat_iff, ih]

/-- An evaluation that fails leaves nothing but its message: without it, the same actions lead to
the same entry, steps and calculations remembered. The message is always the same, and it is on
display until the next action that does more than take something away. -/
theorem run_withoutFailures (actions : List Action) :
    let kept := withoutFailures {} actions
    (run kept).entry = (run actions).entry ∧ (run kept).steps = (run actions).steps ∧
      (run kept).recent = (run actions).recent ∧
      (∀ before after, kept = before ++ .equals :: after →
        ∃ c, calculate (run before).entry = .ok c) ∧
      ((run actions).message = [] ∨ (run actions).message = failureMessage) ∧
      ((run actions).message ≠ [] ↔ ∃ before n,
        actions = before ++ .equals :: List.replicate n .delete ∧
        ∃ r, calculate (run before).entry = .error r) := by
  intro kept
  have hfresh : SameMemory {} {} := ⟨rfl, rfl, rfl⟩
  obtain ⟨hentry, hsteps, hrecent⟩ := hfresh.foldl_withoutFailures actions
  refine ⟨hentry.symm, hsteps.symm, hrecent.symm, ?_, ?_, ?_⟩
  · intro before after hkept
    exact not_fails_equals_iff.mp (hfresh.succeeds hkept)
  · exact message_run actions
  · simp only [message_run_ne_nil_iff, FailedLast, fails_equals_iff]

end Stepwise.Session
