import GraphGames.Example
import GraphGames.Solver

/-!
# The command line

The program solves the example game and prints it with the winning region of player one.

* `Options`, `Options.ofArguments?`: what the arguments ask for, unless they cannot be understood;
* `Report`: what is printed, what was reported on the way, and how the program ends;
* `report`: the program as a function of its arguments.
-/

namespace GraphGames.CommandLine

/-- What the arguments ask for; zero rounds stand for no bound. -/
structure Options where
  maxIterations : Option UInt64 := none
  verbosity : Option Level := none

/-- What a single argument asks for. -/
inductive Request
  | maxIterations (bound : UInt64)
  | verbosity (level : Level)

/-- An unsigned 64-bit integer in decimal digits, with or without a plus sign. -/
def readCount? (cs : List Char) : Option UInt64 :=
  let digits : List Char := match cs with
    | '+' :: rest => rest
    | _ => cs
  let value : Nat := digits.foldl (fun n c => 10 * n + (c.toNat - '0'.toNat)) 0
  if digits ≠ [] ∧ digits.all Char.isDigit ∧ value < UInt64.size then
    some (UInt64.ofNat value)
  else none

/-- A level by its name. -/
def readLevel? : String → Option Level
  | "trace" => some .trace
  | "debug" => some .debug
  | "info" => some .info
  | _ => none

/-- What an argument asks for. A value follows its option after an equals sign. -/
def Request.ofArgument? (argument : String) : Option Request :=
  let cs := argument.toList
  let option := String.ofList (cs.takeWhile (· ≠ '='))
  match option, cs.dropWhile (· ≠ '=') with
  | "-v", [] | "--verbose", [] => some (.verbosity .info)
  | "-v", _ :: value | "--verbose", _ :: value =>
    (readLevel? (String.ofList value)).map .verbosity
  | "--max-iterations", _ :: value => (readCount? value).map .maxIterations
  | _, _ => none

/-- Add a request, unless there is one of its kind already. -/
def Options.add? (options : Options) : Request → Option Options
  | .maxIterations bound =>
    if options.maxIterations.isNone then some { options with maxIterations := some bound } else none
  | .verbosity level =>
    if options.verbosity.isNone then some { options with verbosity := some level } else none

/-- What the arguments ask for, unless one cannot be understood or asks again. Two dashes alone end
the options, so nothing may follow them. -/
def Options.ofArguments? (arguments : List String) : Option Options :=
  let options := if arguments.getLast? = some "--" then arguments.dropLast else arguments
  options.foldlM (fun options argument => do options.add? (← Request.ofArgument? argument)) {}

/-- Lines and events that have come up so far. -/
structure Transcript where
  lines : List String := []
  events : List Event := []

/-- A part of the program, which prints and may fail. -/
abbrev Session := ExceptT Error (StateM Transcript)

/-- Print a line. -/
def say (line : String) : Session Unit :=
  modify fun t => { t with lines := t.lines ++ [line] }

/-- Take the result of a computation and keep its events. -/
def observe {α : Type} (traced : Traced α) : Session α := do
  modify fun t => { t with events := t.events ++ traced.events }
  return traced.value

/-- Go on with an answer, or fail. -/
def answerOf {α : Type} (answer : Except Error α) : Session α := ExceptT.mk (pure answer)

/-- Print the example game, solve it, and print the winning region. -/
def solve (maxIterations : UInt64) : Session Unit := do
  let graph ← answerOf Example.graph
  say graph.summary
  for edge in graph.edges do
    let action ← answerOf (graph.value (.edge edge.id) actProperty)
    say s!"  {edge} act={action.text}"
  let game ← answerOf (← observe (({ kind := .turnBased } : Game).define graph))
  let solver ← answerOf (Solver.ofGame game)
  let solver ← observe (solver.configure true false)
  let solver := if 0 < maxIterations then solver.withMaxIterations maxIterations else solver
  let (answer, solver) ← observe (solver.solve none)
  let win ← answerOf answer
  for v in graph.vertices do
    let turn ← answerOf (graph.value (.vertex v) turnProperty)
    let isFinal ← answerOf (graph.value (.vertex v) isFinalProperty)
    let winning := Value.bool (win.contains v)
    say s!"Vertex {v}: turn={turn.text}, is_final={isFinal.text}, winning={winning.text}"
  let region := ", ".intercalate (win.toList.map toString)
  let iterations := solver.iterations?.getD 0
  say s!"Winning region of player 1 ({iterations} iterations): \x7b{region}\x7d"

/-- What the program prints, whether it fails, and how it ends. -/
structure Report where
  code : UInt32
  lines : List String
  events : List Event
  failure : Option String

/-- The program as a function of its arguments. -/
def report (arguments : List String) : Report :=
  match Options.ofArguments? arguments with
  | none => ⟨2, [], [], none⟩
  | some options =>
    let (answer, transcript) := ((solve (options.maxIterations.getD 0)).run.run {}).run
    let shown := transcript.events.filter fun event =>
      options.verbosity.any fun level => event.level.rank ≤ level.rank
    match answer with
    | .ok () => ⟨0, transcript.lines, shown, none⟩
    | .error e =>
      ⟨1, transcript.lines, shown, some s!"Failed to solve the game: {e.message}"⟩

end GraphGames.CommandLine
