import Stepwise.Number.Decimal
import Stepwise.Proofs.Reader

namespace Stepwise

/-- A JSON document by the grammar of RFC 8259; a number is the floating-point number nearest to
it. -/
inductive Json where
  | null
  | bool (b : Bool)
  | number (v : Float)
  | string (t : Text)
  | array (items : List Json)
  | object (members : List (Text × Json))

namespace Json

def isBlank (c : Char) : Bool :=
  c == ' ' || c == '\t' || c == '\n' || c == '\r'

def skipBlanks (t : Text) : Text :=
  t.dropWhile isBlank

def hexDigit? (c : Char) : Option Nat :=
  if '0' ≤ c ∧ c ≤ '9' then some (c.toNat - '0'.toNat)
  else if 'a' ≤ c ∧ c ≤ 'f' then some (c.toNat - 'a'.toNat + 10)
  else if 'A' ≤ c ∧ c ≤ 'F' then some (c.toNat - 'A'.toNat + 10)
  else none

/-- Four hexadecimal digits. -/
def readCodeUnit : Reader Nat
  | a :: b :: c :: d :: rest => do
      let high := (← hexDigit? a) * 16 + (← hexDigit? b)
      let low := (← hexDigit? c) * 16 + (← hexDigit? d)
      some (high * 256 + low, rest)
  | _ => none

/-- The character of one code unit, or of a pair of surrogates. -/
def readCodeUnits : Reader Char := fun t => do
  let (first, rest) ← readCodeUnit t
  if first < 0xD800 ∨ 0xE000 ≤ first then some (Char.ofNat first, rest)
  else match rest with
    | '\\' :: 'u' :: rest => do
        let (second, rest) ← readCodeUnit rest
        if first < 0xDC00 ∧ 0xDC00 ≤ second ∧ second < 0xE000 then
          some (Char.ofNat (0x10000 + (first - 0xD800) * 0x400 + (second - 0xDC00)), rest)
        else none
    | _ => none

/-- What follows a backslash. -/
def readEscape : Reader Char
  | '"' :: rest => some ('"', rest)
  | '\\' :: rest => some ('\\', rest)
  | '/' :: rest => some ('/', rest)
  | 'b' :: rest => some ('\x08', rest)
  | 'f' :: rest => some ('\x0c', rest)
  | 'n' :: rest => some ('\n', rest)
  | 'r' :: rest => some ('\r', rest)
  | 't' :: rest => some ('\t', rest)
  | 'u' :: rest => readCodeUnits rest
  | _ => none

def readCharacter : Reader Char
  | [] => none
  | '\\' :: rest => readEscape rest
  | c :: rest => if c.toNat < 0x20 then none else some (c, rest)

def endOfString? : Text → Option Text
  | '"' :: rest => some rest
  | _ => none

/-- The characters of a string, after the quote that opens it. -/
def readString : Reader Text :=
  Reader.items endOfString? readCharacter

/-- The characters that numbers are made of; none of them can follow a number. -/
def isNumberCharacter (c : Char) : Bool :=
  c.isDigit || c == '-' || c == '+' || c == '.' || c == 'e' || c == 'E'

def startsWithDigit (t : Text) : Bool :=
  t.head?.any Char.isDigit

def isWhole (ds : Text) : Bool :=
  startsWithDigit ds && (ds.head? != some '0' || ds == ['0'])

def isFraction (rest : Text) : Bool :=
  rest.head? != some '.' || startsWithDigit rest.tail

/-- What makes a text a number beyond what makes it one for `Decimal.finite?`: it has no plus sign,
no zero before other digits, and digits on both sides of a point. -/
def isNumber (t : Text) : Bool :=
  let size := if t.head? = some '-' then t.tail else t
  isWhole (size.takeWhile Char.isDigit) && isFraction (size.dropWhile Char.isDigit)

def readNumber : Reader Json := fun t => do
  let lexeme := t.takeWhile isNumberCharacter
  let v ← Decimal.finite? lexeme
  if isNumber lexeme then some (.number v, t.dropWhile isNumberCharacter) else none

section Lists

variable {α : Type} (item : Reader α) (close : Char)

def endOfList? (t : Text) : Option Text :=
  match skipBlanks t with
  | [] => none
  | c :: rest => if c = close then some rest else none

def readAfterComma : Reader α := fun t =>
  match skipBlanks t with
  | ',' :: rest => item rest
  | _ => none

/-- Items with commas between them, after the bracket that opens the list. -/
def readList : Reader (List α) := fun t =>
  match endOfList? close t with
  | some rest => some ([], rest)
  | none => do
      let (x, rest) ← item t
      let (xs, rest) ← Reader.items (endOfList? close) (readAfterComma item) rest
      some (x :: xs, rest)

/-- A name, a colon and what has this name. -/
def readMember : Reader (Text × α) := fun t =>
  match skipBlanks t with
  | '"' :: rest => do
      let (name, rest) ← readString rest
      match skipBlanks rest with
      | ':' :: rest => do
          let (x, rest) ← item rest
          some ((name, x), rest)
      | _ => none
  | _ => none

end Lists

/-- A value that is at most so many levels deep. -/
def readValue : Nat → Reader Json
  | 0, _ => none
  | levels + 1, t =>
      match skipBlanks t with
      | '\x7b' :: rest => do
          let (members, rest) ← readList (readMember (readValue levels)) '\x7d' rest
          some (.object members, rest)
      | '[' :: rest => do
          let (items, rest) ← readList (readValue levels) ']' rest
          some (.array items, rest)
      | '"' :: rest => do
          let (t, rest) ← readString rest
          some (.string t, rest)
      | 'n' :: 'u' :: 'l' :: 'l' :: rest => some (.null, rest)
      | 't' :: 'r' :: 'u' :: 'e' :: rest => some (.bool true, rest)
      | 'f' :: 'a' :: 'l' :: 's' :: 'e' :: rest => some (.bool false, rest)
      | t => readNumber t

/-- A document is one value; each of its levels takes a character. -/
def read (t : Text) : Option Json := do
  let (v, rest) ← readValue t.length t
  if (skipBlanks rest).isEmpty then some v else none

end Json

end Stepwise
