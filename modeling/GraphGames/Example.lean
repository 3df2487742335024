import GraphGames.Graph.Update
import GraphGames.Game.Basic

/-!
# An example game

* `Example.moves`, `Example.finals`, `Example.firstPlayers`: a turn-based game on eight vertices;
* `Example.graph`: its graph.
-/

namespace GraphGames.Example

/-- The number of vertices. -/
def size : Nat := 8

/-- The moves; the position of a move is its action. -/
def moves : List (Nat × Nat) :=
  [(0, 1), (0, 3), (1, 0), (1, 2), (1, 4), (2, 4), (2, 2), (3, 0), (3, 4), (3, 5), (4, 3), (5, 3),
    (5, 6), (6, 6), (6, 7), (7, 0), (7, 3)]

/-- The final vertices. -/
def finals : List Nat := [3, 4]

/-- The vertices at which player one moves. -/
def firstPlayers : List Nat := [0, 4, 6]

/-- Build the game on an empty graph that declares its properties. -/
def build : Update Unit := do
  let vertices ← Update.addVertices size
  let edges ← Update.addEdges (moves.map fun (source, target) => (⟨source⟩, ⟨target⟩))
  edges.zipIdx.forM fun (e, action) =>
    Update.setValue 0 (.edge e) actProperty (.int (Int64.ofNat action))
  vertices.forM fun v => do
    let turn : Int64 := if firstPlayers.contains v.index then 1 else 2
    Update.setValue 0 (.vertex v) turnProperty (.int turn)
    Update.setValue 0 (.vertex v) isFinalProperty (.bool (finals.contains v.index))

/-- The graph of the example game. -/
def graph : Except Error Graph := do
  let blank ← Graph.withProperties [(isFinalProperty, .bool), (turnProperty, .int)]
    [(actProperty, .int)] []
  let (answer, built) := build.run blank
  answer
  return built

end GraphGames.Example
