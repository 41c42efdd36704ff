import Stepwise.Session

namespace Stepwise.Session

/-- What a user can do, one action after the other. -/
inductive Action where
  | append (text : Text)
  | delete
  | clear
  | equals
  deriving DecidableEq

def perform (s : Session) : Action → Session
  | .append text => s.append text
  | .delete => s.delete
  | .clear => s.clear
  | .equals => s.equals

/-- The session after these actions, from a fresh one on. -/
def run (actions : List Action) : Session :=
  actions.foldl perform {}

theorem run_concat (actions : List Action) (a : Action) :
    run (actions ++ [a]) = (run actions).perform a := by
  rw [run, List.foldl_append]
  rfl

theorem equals_of_ok {s : Session} {c : Calculation} (h : calculate s.entry = .ok c) :
    s.equals = s.record c := by
  rw [equals, evaluate, h]

theorem equals_of_error {s : Session} {r : Refusal} (h : calculate s.entry = .error r) :
    s.equals = s.fail := by
  rw [equals, evaluate, h]

end Stepwise.Session
