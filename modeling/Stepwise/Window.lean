import Stepwise.Session

namespace Stepwise

inductive Button where
  | symbol (label inserted : Text)
  | delete
  | clear
  | equals
  deriving DecidableEq

namespace Button

def char (c : Char) : Button :=
  symbol [c] [c]

/-- The buttons from left to right and from top to bottom. -/
def all : List Button := [
  symbol "sin".toList "sin(".toList, symbol "cos".toList "cos(".toList,
  symbol "tan".toList "tan(".toList, symbol "√".toList "sqrt(".toList,
  symbol "log".toList "log(".toList, symbol "π".toList "pi".toList, delete,
  clear, char '(', char ')', char '^',
  char '7', char '8', char '9', char '/',
  char '4', char '5', char '6', char '*',
  char '1', char '2', char '3', char '-',
  char '0', char '.', equals, char '+']

def label : Button → Text
  | symbol label _ => label
  | delete => "DEL".toList
  | clear => ['C']
  | equals => ['=']

def ofLabel? (label : Text) : Option Button :=
  all.find? (·.label == label)

def press (s : Session) : Button → Session
  | symbol _ inserted => s.append inserted
  | delete => s.delete
  | clear => s.clear
  | equals => s.equals

end Button

inductive Key where
  | enter
  | backspace
  | escape
  | other
  deriving DecidableEq

inductive KeyEvent where
  | text (typed : Text)
  | key (k : Key)
  deriving DecidableEq

namespace KeyEvent

def accepted : Text :=
  "0123456789+-*/.()^".toList

def typed (events : List KeyEvent) : Text :=
  (events.flatMap fun
    | text t => t
    | key _ => []).filter accepted.contains

end KeyEvent

/-- What the window handles before it is drawn again: a button, or the keyboard events since the
last time. -/
inductive Frame where
  | button (b : Button)
  | keyboard (events : List KeyEvent)
  deriving DecidableEq

namespace Session

def when (condition : Bool) (action : Session → Session) (s : Session) : Session :=
  if condition then action s else s

/-- Handles keyboard events in a fixed order: Escape, the characters typed, Backspace, Enter.
Each key counts once. -/
def keyboard (s : Session) (events : List KeyEvent) : Session :=
  let pressed (k : Key) := events.contains (.key k)
  let s := s.when (pressed .escape) clear
  let s := (KeyEvent.typed events).foldl (fun s c => s.append [c]) s
  let s := s.when (pressed .backspace) delete
  s.when (pressed .enter) equals

def handle (s : Session) : Frame → Session
  | .button b => b.press s
  | .keyboard events => s.keyboard events

def lines (s : Session) : List Text :=
  ["Calculatrice à étapes".toList, s.display, "Étapes de calcul :".toList] ++
    s.steps.map Step.line ++ ["Calculs récents :".toList] ++ s.recent.map Step.line

end Session

end Stepwise
