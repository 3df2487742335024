import GraphGames.CommandLine

/-!
# The program

Prints the report for the arguments: its lines, then what went on at the level asked for and what
failed.
-/

open GraphGames in
/-- The program. -/
def main (arguments : List String) : IO UInt32 := do
  let report := CommandLine.report arguments
  for event in report.events do
    IO.eprintln event.line
  for line in report.lines do
    IO.println line
  if let some failure := report.failure then
    IO.eprintln failure
  if report.code == 2 then
    IO.eprintln "usage: [--max-iterations=N] [-v[=trace|debug|info]]"
  return report.code
