import Stepwise.Refusal
import Stepwise.Unicode.Alphabetic
import Stepwise.Unicode.LowerCase
import Stepwise.Unicode.WhiteSpace

namespace Stepwise.Token

def isNumeric (c : Char) : Bool :=
  c.isDigit || c == '.'

/-- The offending part of a run of digits and points: a point without any digit, or what reaches
up to the second point. -/
def malformedPart? (run : Text) : Option Text :=
  let whole := run.takeWhile (· != '.')
  match run.dropWhile (· != '.') with
  | [] => none
  | _ :: afterPoint =>
      let fraction := afterPoint.takeWhile (· != '.')
      match afterPoint.dropWhile (· != '.') with
      | [] => if whole.isEmpty && fraction.isEmpty then some ['.'] else none
      | _ :: _ => some (whole ++ '.' :: fraction ++ ['.'])

theorem length_dropWhile_lt (p : Char → Bool) (c : Char) (rest : Text) :
    (rest.dropWhile p).length < (c :: rest).length :=
  Nat.lt_succ_of_le (List.dropWhile_sublist p).length_le

def scan : Text → Except Refusal (List Token)
  | [] => .ok []
  | c :: rest =>
      if Unicode.isWhiteSpace c then scan rest
      else match ofSymbol? c with
      | some symbol => (symbol :: ·) <$> scan rest
      | none =>
          if isNumeric c then
            let run := c :: rest.takeWhile isNumeric
            match malformedPart? run with
            | some part => .error (.malformedNumber part)
            | none => (number run :: ·) <$> scan (rest.dropWhile isNumeric)
          else if Unicode.isAlphabetic c then
            let run := c :: rest.takeWhile Unicode.isAlphabetic
            (name (Unicode.lowerCase run) :: ·) <$> scan (rest.dropWhile Unicode.isAlphabetic)
          else .error (.unexpectedCharacter c)
termination_by t => t.length
decreasing_by
  all_goals first
    | exact Nat.lt_succ_self _
    | exact length_dropWhile_lt _ _ _

@[simp]
theorem scan_nil : scan [] = .ok [] := by
  rw [scan]

theorem scan_blank {c : Char} (h : Unicode.isWhiteSpace c = true) (rest : Text) :
    scan (c :: rest) = scan rest := by
  rw [scan, if_pos h]

theorem scan_symbol {c : Char} {symbol : Token} (hc : Unicode.isWhiteSpace c = false)
    (h : ofSymbol? c = some symbol) (rest : Text) :
    scan (c :: rest) = (symbol :: ·) <$> scan rest := by
  rw [scan]
  simp [hc, h]

theorem scan_unexpected {c : Char} (hw : Unicode.isWhiteSpace c = false)
    (hs : ofSymbol? c = none) (hn : isNumeric c = false)
    (ha : Unicode.isAlphabetic c = false) (rest : Text) :
    scan (c :: rest) = .error (.unexpectedCharacter c) := by
  rw [scan]
  simp [hw, hs, hn, ha]

end Stepwise.Token
