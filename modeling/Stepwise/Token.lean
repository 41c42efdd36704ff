import Stepwise.Text

namespace Stepwise

/-- A number keeps the digits it was typed with; a name is in lower case. -/
inductive Token where
  | number (numeral : Text)
  | name (letters : Text)
  | plus
  | minus
  | times
  | divide
  | power
  | opening
  | closing
  deriving DecidableEq

namespace Token

def text : Token → Text
  | number numeral => numeral
  | name letters => letters
  | plus => ['+']
  | minus => ['-']
  | times => ['*']
  | divide => ['/']
  | power => ['^']
  | opening => ['(']
  | closing => [')']

def ofSymbol? : Char → Option Token
  | '+' => some plus
  | '-' => some minus
  | '*' => some times
  | '/' => some divide
  | '^' => some power
  | '(' => some opening
  | ')' => some closing
  | _ => none

/-- One blank between neighbours keeps two numbers, or two names, apart. -/
def listText (tokens : List Token) : Text :=
  Text.joined [' '] (tokens.map text)

end Token

end Stepwise
