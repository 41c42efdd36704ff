import Stepwise.CommandLine
import Stepwise.Window

open Stepwise

/-- Without an expression, the program shows the lines of a fresh window. -/
def main (arguments : List String) : IO UInt32 := do
  match CommandLine.outcome? (arguments.map String.toList) with
  | some outcome =>
      (← IO.getStdout).putStr (String.ofList outcome.stdout)
      (← IO.getStderr).putStr (String.ofList outcome.stderr)
      return UInt32.ofNat outcome.exitCode
  | none =>
      for line in ({} : Session).lines do
        IO.println (String.ofList line)
      return 0
