import Stepwise.Expr.Parse
import Stepwise.Expr.Value
import Stepwise.Number.Places
import Stepwise.Token.Scan

namespace Stepwise

/-- A text and its value, rounded. -/
structure Step where
  expression : Text
  result : Float
  deriving DecidableEq

namespace Step

def line (step : Step) : Text :=
  step.expression ++ " = ".toList ++ numeral step.result

end Step

structure Calculation where
  /-- The steps of the composite parts, the whole before its parts. -/
  parts : List Step
  /-- The entry itself. -/
  last : Step
  deriving DecidableEq

namespace Calculation

def steps (c : Calculation) : List Step :=
  c.parts ++ [c.last]

def result (c : Calculation) : Float :=
  c.last.result

end Calculation

def parseText (text : Text) : Except Refusal Expr := do
  Expr.parse Expr.standardLimits (← Token.scan text)

def evaluateText (text : Text) : Except Refusal Float := do
  (← parseText text).value

def roundStep (v : Float) : Float :=
  roundPlaces stepPlaces v

/-- A step is computed from its text alone. -/
def stepOfText (text : Text) : Except Refusal Step := do
  return ⟨text, roundStep (← evaluateText text)⟩

def calculateExpr (e : Expr) (entry : Text) : Except Refusal Calculation := do
  let parts ← e.texts.2.mapM stepOfText
  return ⟨parts, entry, roundStep (← e.value)⟩

/-- The calculation of an entry; one refused step refuses it all. -/
def calculate (entry : Text) : Except Refusal Calculation := do
  calculateExpr (← parseText entry) entry

end Stepwise
