import Stepwise.Calculation

namespace Stepwise

/-- What the calculator remembers while it is being used: the entry, the message of an evaluation
that failed, the steps of the last success, and the latest calculations by their last steps, most
recent first. -/
structure Session where
  entry : Text := []
  message : Text := []
  steps : List Step := []
  recent : List Step := []
  deriving DecidableEq

def failureMessage : Text :=
  "Invalid mathematical expression".toList

namespace Session

def capacity : Nat := 5

/-- The symbols of more than one character, which are inserted and deleted as one. -/
def words : List Text :=
  ["sqrt(".toList, "sin(".toList, "cos(".toList, "tan(".toList, "log(".toList, "pi".toList]

def append (s : Session) (text : Text) : Session :=
  { s with entry := s.entry ++ text, message := [] }

/-- Starts afresh, except for the calculations remembered. -/
def clear (s : Session) : Session :=
  { s with entry := [], message := [], steps := [] }

def lastSymbolLength (entry : Text) : Nat :=
  match words.find? (·.isSuffixOf entry) with
  | some word => word.length
  | none => 1

/-- Takes the last symbol away; a message stays on display. -/
def delete (s : Session) : Session :=
  { s with entry := s.entry.take (s.entry.length - lastSymbolLength s.entry) }

/-- Takes in a calculation; its result becomes the entry, to go on from. -/
def record (s : Session) (c : Calculation) : Session where
  entry := numeral c.result
  message := []
  steps := c.steps
  recent := (⟨s.entry, c.result⟩ :: s.recent).take capacity

/-- Every failure has the same message, and changes nothing else. -/
def fail (s : Session) : Session :=
  { s with message := failureMessage }

def evaluate (s : Session) (text : Text) : Session :=
  match calculate text with
  | .ok c => s.record c
  | .error _ => s.fail

def equals (s : Session) : Session :=
  s.evaluate s.entry

def display (s : Session) : Text :=
  if !s.message.isEmpty then s.message else if !s.entry.isEmpty then s.entry else ['0']

end Session

end Stepwise
