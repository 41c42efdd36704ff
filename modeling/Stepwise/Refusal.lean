import Stepwise.Name
import Stepwise.Number.Numeral
import Stepwise.Token

namespace Stepwise

inductive Refusal where
  | emptyEntry
  | unexpectedCharacter (c : Char)
  | malformedNumber (numeral : Text)
  | unknownName (name : Text)
  | missingParenthesis (function : NamedFunction)
  | unclosedParenthesis
  | unexpectedToken (token : Token)
  | unexpectedEnd
  | divisionByZero
  | outsideDomain (function : NamedFunction) (argument : Float)
  | noRealPower (base : Float)
  | notFinite
  | tooDeep (limit : Nat)
  deriving DecidableEq

namespace Refusal

/-- An operation is named as it is typed, and its argument is shown unrounded. -/
def domainCause (operation : Text) (argument : Float) : Text :=
  operation ++ " : argument hors domaine (".toList ++ plainNumeral argument ++ ")".toList

def cause : Refusal → Text
  | emptyEntry => "entrée vide".toList
  | unexpectedCharacter c => "caractère inattendu: '".toList ++ [c] ++ "'".toList
  | malformedNumber numeral => "nombre mal formé: ".toList ++ numeral
  | unknownName name => "identifiant inconnu: ".toList ++ name
  | missingParenthesis function =>
      "fonction ".toList ++ function.name ++ " sans parenthèse ouvrante".toList
  | unclosedParenthesis => "parenthèses non fermées".toList
  | unexpectedToken token => "jeton inattendu: ".toList ++ token.text
  | unexpectedEnd => "fin d’expression inattendue".toList
  | divisionByZero => "division par zéro".toList
  | outsideDomain function argument => domainCause function.name argument
  | noRealPower base => domainCause ['^'] base
  | notFinite => "résultat non fini".toList
  | tooDeep limit =>
      "profondeur maximale dépassée (".toList ++ Nat.toDigits 10 limit ++ ")".toList

def message (refusal : Refusal) : Text :=
  "expression invalide : ".toList ++ refusal.cause

end Refusal

end Stepwise
