import Stepwise.Report
import Stepwise.Session

namespace Stepwise

namespace CommandLine

/-- Each option may be given once, and there are no positional arguments. -/
structure Options where
  expression : Option Text := none
  json : Bool := false
  verbose : Bool := false

/-- Why reading stops before the last argument. -/
inductive Stop where
  | wrongUsage
  | version
  | help
  deriving DecidableEq

/-- What the next argument may be. -/
inductive Expects where
  | option
  | value
  | nothing
  deriving DecidableEq

structure Progress where
  options : Options := {}
  expects : Expects := .option

namespace Progress

def takeExpression (p : Progress) (value : Text) : Except Stop Progress :=
  match p.options.expression with
  | none => .ok ⟨{ p.options with expression := some value }, .option⟩
  | some _ => .error .wrongUsage

def takeJson (p : Progress) : Except Stop Progress :=
  if p.options.json then .error .wrongUsage
  else .ok { p with options := { p.options with json := true } }

def takeVerbose (p : Progress) : Except Stop Progress :=
  if p.options.verbose then .error .wrongUsage
  else .ok { p with options := { p.options with verbose := true } }

/-- A long option, with what follows its equals sign if there is one. -/
def takeLong (p : Progress) (name : Text) (value? : Option Text) : Except Stop Progress :=
  match String.ofList name, value? with
  | "expr", some value => p.takeExpression value
  | "expr", none => .ok { p with expects := .value }
  | "json", none => p.takeJson
  | "verbose", none => p.takeVerbose
  | "version", none => .error .version
  | "help", none => .error .help
  | _, _ => .error .wrongUsage

/-- A run of short options. The value of an option is what remains of the run, with or without
an equals sign, or else the next argument. -/
def takeShort (p : Progress) : Text → Except Stop Progress
  | [] => .ok p
  | ['e'] => .ok { p with expects := .value }
  | 'e' :: '=' :: value => p.takeExpression value
  | 'e' :: value => p.takeExpression value
  | 'v' :: rest => do (← p.takeVerbose).takeShort rest
  | 'V' :: _ => .error .version
  | 'h' :: _ => .error .help
  | _ => .error .wrongUsage

def takeOption (p : Progress) (argument : Text) : Except Stop Progress :=
  match argument with
  | ['-', '-'] => .ok { p with expects := .nothing }
  | '-' :: '-' :: long =>
      let name := long.takeWhile (· != '=')
      p.takeLong name (long.dropWhile (· != '=')).tail?
  | '-' :: c :: short => p.takeShort (c :: short)
  | _ => .error .wrongUsage

/-- An argument of its own is a value unless it looks like an option; a lone hyphen does not. -/
def takeValue (p : Progress) (argument : Text) : Except Stop Progress :=
  match argument with
  | '-' :: _ :: _ => .error .wrongUsage
  | value => p.takeExpression value

def take (p : Progress) (argument : Text) : Except Stop Progress :=
  match p.expects with
  | .option => p.takeOption argument
  | .value => p.takeValue argument
  | .nothing => .error .wrongUsage

end Progress

/-- Arguments are read from left to right, and the first that asks for the version or the help, or
that is wrong, decides. -/
def Options.ofArguments (arguments : List Text) : Except Stop Options := do
  let p ← arguments.foldlM Progress.take {}
  if p.expects = .value then .error .wrongUsage else .ok p.options

structure Outcome where
  exitCode : Nat
  stdout : Text := []
  stderr : Text := []

def evaluate (expression : Text) (json : Bool) : Outcome :=
  match calculate expression with
  | .ok c => { exitCode := 0, stdout := if json then Report.json c else Report.plain c }
  | .error _ =>
      { exitCode := 1
        stdout := if json then Report.jsonRefusal else []
        stderr := failureMessage ++ ['\n'] }

def versionText : Text :=
  "calculatrice_etapes 0.1.0\n".toList

/-- What the arguments bring about; `none` asks for the window. Only the exit code stands for the
help and for the complaint about wrong usage, whose texts are left out. -/
def outcome? (arguments : List Text) : Option Outcome :=
  match Options.ofArguments arguments with
  | .error .wrongUsage => some { exitCode := 2 }
  | .error .version => some { exitCode := 0, stdout := versionText }
  | .error .help => some { exitCode := 0 }
  | .ok options => options.expression.map (evaluate · options.json)

end CommandLine

end Stepwise
