import Stepwise.Main
import Stepwise.Proofs.Chaining
import Stepwise.Proofs.Session.Repetition
import Stepwise.Proofs.Session.Symbols
import Stepwise.Proofs.Substitution
import Stepwise.Proofs.Derivation
import Stepwise.Proofs.Session.Failures
import Stepwise.Proofs.Spelling
import Stepwise.Proofs.Json.Reader
import Stepwise.Proofs.Json.Number
import Stepwise.Proofs.Json.Document
import Stepwise.Proofs.CommandLine
import Stepwise.Proofs.Token.Cutting
import Stepwise.Proofs.Expr.Growth
import Stepwise.Proofs.Expr.Fault
import Stepwise.Proofs.Finiteness
import Stepwise.Proofs.Number.Places
import Stepwise.Proofs.Expr.Height
