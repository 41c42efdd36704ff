import Stepwise.Text

namespace Stepwise

inductive NamedConstant where
  | pi
  deriving DecidableEq

namespace NamedConstant

/-- The name that steps show. -/
def name : NamedConstant → Text
  | pi => "pi".toList

/-- A constant may also be typed as its Greek letter. -/
def ofName? (name : Text) : Option NamedConstant :=
  if name = pi.name ∨ name = ['π'] then some pi else none

def value : NamedConstant → Float
  | pi => .ofBits 0x400921FB54442D18

end NamedConstant

inductive NamedFunction where
  | sin | cos | tan | sqrt | log
  deriving DecidableEq

namespace NamedFunction

def all : List NamedFunction := [sin, cos, tan, sqrt, log]

def name : NamedFunction → Text
  | sin => "sin".toList
  | cos => "cos".toList
  | tan => "tan".toList
  | sqrt => "sqrt".toList
  | log => "log".toList

def ofName? (name : Text) : Option NamedFunction :=
  all.find? (·.name == name)

theorem ofName?_name (f : NamedFunction) : ofName? f.name = some f := by
  cases f <;> decide

theorem eq_name_of_ofName? {name : Text} {f : NamedFunction} (h : ofName? name = some f) :
    name = f.name := by
  have hf := List.find?_some h
  exact (eq_of_beq hf).symm

end NamedFunction

end Stepwise
