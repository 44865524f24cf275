import RowQuery.Command.Run

/-!
# The program

Reads the arguments and prints the report of the run. A table is printed as its cells, separated by
tabs, under a title.
-/

set_option autoImplicit false

namespace RowQuery.Program

/-- The text that is printed; lone surrogate halves are replaced. -/
def printable (t : Text) : String :=
  String.ofList (t.map fun c => match c with
    | .scalar c => c
    | .lone _ => Utf8.replacement)

/-- The lines of what is shown. -/
def lines : Command.Shown → List Text
  | .markup t => [t]
  | .table title columns rows => title :: (columns :: rows).map (Text.join [.scalar '\t'])

def errorLine (e : Failure) : Text := e.toRaised.line

end RowQuery.Program

open RowQuery in
def main (args : List String) : IO UInt32 := do
  let report := Command.run .utf8 (Settings.make [] []) (args.map Text.ofString)
  for shown in report.console do
    for line in Program.lines shown do
      IO.println (Program.printable line)
  IO.print (Program.printable (report.output.getD []))
  for e in report.escaped.toList do
    IO.eprintln (Program.printable (Program.errorLine e))
  return UInt32.ofNat report.exitCode
