import Stepwise.Calculation

namespace Stepwise

namespace Report

attribute [local instance (high)] instPowNat

def newline : Text := ['\n']

def plain (c : Calculation) : Text :=
  c.steps.flatMap fun step => step.line ++ newline

/-- A character inside a JSON string: quotes, backslashes and controls are escaped. -/
def jsonChar (c : Char) : Text :=
  match c with
  | '"' => ['\\', '"']
  | '\\' => ['\\', '\\']
  | '\x08' => ['\\', 'b']
  | '\x0c' => ['\\', 'f']
  | '\n' => ['\\', 'n']
  | '\r' => ['\\', 'r']
  | '\t' => ['\\', 't']
  | c =>
      if c.toNat < 0x20 then
        "\\u00".toList ++ [Nat.digitChar (c.toNat / 16), Nat.digitChar (c.toNat % 16)]
      else [c]

def jsonString (t : Text) : Text :=
  '"' :: t.flatMap jsonChar ++ ['"']

def withoutTrailingZeros (digits : Text) : Text :=
  (digits.reverse.dropWhile (· == '0')).reverse

/-- Digits with the point after the first of them, and the power of ten that goes with it. -/
def jsonExponential (digits : Text) : Text :=
  let mantissa := match withoutTrailingZeros digits with
    | first :: second :: rest => first :: '.' :: second :: rest
    | few => few
  mantissa ++ "e+".toList ++ Nat.toDigits 10 (digits.length - 1)

/-- The size of a result: positional below `10 ^ 16`, with at least one place after the point.
A rounded result is never between zero and `10 ^ (-4)`, so no exponent is negative. -/
def jsonSize (d : Decimal) : Text :=
  let whole := d.numerator / 10 ^ d.places
  if 10 ^ (16 : Nat) ≤ whole then jsonExponential (Nat.toDigits 10 whole)
  else if d.text.contains '.' then d.text
  else d.text ++ ".0".toList

/-- Of two numerals that are as near, a JSON document has the one that ends in an even digit. -/
def jsonNumber (v : Float) : Text :=
  let size := jsonSize (Decimal.shortest .even (Binary64.index v))
  if Binary64.isNegative v then '-' :: size else size

def jsonStep (step : Step) : Text :=
  "    \x7b\n      \"expression\": ".toList ++ jsonString step.expression ++
    ",\n      \"resultat\": ".toList ++ jsonNumber step.result ++ "\n    \x7d".toList

def json (c : Calculation) : Text :=
  "\x7b\n  \"etapes\": [\n".toList ++ Text.joined ",\n".toList (c.steps.map jsonStep) ++
    "\n  ],\n  \"resultat\": ".toList ++ jsonNumber c.result ++ "\n\x7d\n".toList

def jsonRefusal : Text :=
  "\x7b\"erreur\":\"InvalidExpression\"\x7d\n".toList

end Report

end Stepwise
