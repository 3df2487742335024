import GraphGames.Attractor.Round

/-!
# Solving a turn-based game

A solver is bound to the graph of a turn-based game, and keeps what its last run has found.

* `Solver`, `Solver.ofGame`: a solver with the marking and the number of rounds of its last run, and
  the solver for a game;
* `configure`, `withMaxIterations`: what the next run does;
* `cleared`, `run`, `solve`: a solver without results, a run, and a run followed by its region;
* `firstRegion`, `secondRegion`: what was found.
-/

namespace GraphGames

/-- A solver for the graph of a turn-based game. -/
structure Solver where
  graph : Graph
  computesFirst : Bool := true
  computesSecond : Bool := true
  maxIterations : UInt64 := 18446744073709551615
  /-- The marking found by the last run. -/
  marking? : Option Marking := none
  /-- The number of rounds of the last run, with the one that confirmed the region. -/
  iterations? : Option UInt64 := none

namespace Solver

/-- Fails on a vertex that belongs to neither player. -/
def requireOwner (g : Graph) (v : VertexId) : Except Error Unit := do
  let value ← g.value (.vertex v) turnProperty
  match value with
  | .int turn =>
    if (Player.ofTurn? turn).isSome then return ()
    else throw (.invalidGame turnProperty (.badTurn v value))
  | _ => throw (.invalidGame turnProperty (.badTurn v value))

/-- A solver for a game, which has to be turn-based and to have a graph in which every vertex belongs
to a player. -/
def ofGame (game : Game) : Except Error Solver := do
  let g ← game.graph
  if game.kind ≠ .turnBased then throw (.unsupported .simultaneousMoves)
  GameKind.turnBased.validate g
  g.vertices.forM fun v => requireOwner g v
  return { graph := g }

/-- Choose the regions that the next run computes. Only that of player one is ever computed. -/
def configure (solver : Solver) (first second : Bool) : Traced Solver := do
  if second then Traced.report .secondRegionIgnored
  return { solver with computesFirst := first, computesSecond := second }

/-- Bound the rounds of the next runs. -/
def withMaxIterations (solver : Solver) (bound : UInt64) : Solver :=
  { solver with maxIterations := bound }

/-- The problem that a run solves, and where it starts. -/
def prepare (solver : Solver) : Except Error (Problem × Progress) := do
  let problem ← Problem.ofGraph solver.graph
  let problem := { problem with maxIterations := solver.maxIterations }
  return (problem, ← Progress.startFree problem)

/-- The solver without what an earlier run has found. -/
def cleared (solver : Solver) : Solver := { solver with marking? := none, iterations? := none }

/-- Run the solver. What an earlier run has found is dropped first, so nothing is left after a run
that fails. -/
def run (allowance : Allowance) (solver : Solver) : Traced (Except Error Unit × Solver) :=
  if solver.computesFirst then
    match solver.prepare with
    | .error e => pure (.error e, solver.cleared)
    | .ok (problem, start) => do
      Traced.report (.solverStarted problem.finals.extent)
      match ← problem.compute .controllable allowance start with
      | (.error cause, _) => return (.error (.cancelled cause), solver.cleared)
      | (.ok marking, last) =>
        Traced.report (.solverFinished last.iteration marking.marked.size)
        return (.ok (), { solver.cleared with marking? := marking, iterations? := last.iteration })
  else do
    Traced.report .nothingToCompute
    return (.ok (), solver.cleared)

/-- The region of player one found by the last run. -/
def firstRegion (solver : Solver) : Except Error VertexSet :=
  match solver.marking? with
  | some marking => .ok marking.marked
  | none => .error (.notReady .winningRegion)

/-- The region of player two, which is never computed. -/
def secondRegion (_ : Solver) : Except Error VertexSet := .error (.unsupported .secondRegion)

/-- Run the solver and answer with the region of player one. -/
def solve (allowance : Allowance) (solver : Solver) : Traced (Except Error VertexSet × Solver) := do
  let (answer, solver) ← solver.run allowance
  return (answer.bind fun _ => solver.firstRegion, solver)

end Solver

end GraphGames
