import GraphGames.Game.Basic

/-!
# Attraction problems

What the attractor of a game graph is computed from: the graph for its moves, the player who moves
at each vertex, the vertices to be reached, and a bound on the number of rounds. The last three are
read from the graph, but may be replaced freely.

* `Problem`, `Problem.ofGraph`: the problem, and the one that a graph declares;
* `owner?`, `predecessors`, `successors`: what the rounds ask about a vertex.
-/

namespace GraphGames

/-- What an attractor is computed from. -/
structure Problem where
  graph : Graph
  owners : Std.ExtTreeMap VertexId Player
  finals : VertexSet
  maxIterations : UInt64 := 18446744073709551615

namespace Problem

/-- The owner of a vertex and whether it is final, read from the columns that declare them. -/
def role (turn isFinal : Column) (v : VertexId) : Except Error (Player × Bool) := do
  let some value := turn.int? v.index | throw (.invalidGame turnProperty .unreadable)
  let some owner := Player.ofTurn? value | throw (.invalidTurn v value)
  let some final := isFinal.bool? v.index | throw (.invalidGame isFinalProperty .unreadable)
  return (owner, final)

/-- The problem that a graph declares. Vertices are read in ascending order, and the first that
cannot be read fails. -/
def ofGraph (g : Graph) : Except Error Problem := do
  let turn ← g.properties.column .vertex turnProperty
  let isFinal ← g.properties.column .vertex isFinalProperty
  let roles ← g.vertices.mapM fun v => return (v, ← role turn isFinal v)
  return {
    graph := g
    owners := Std.ExtTreeMap.ofList (roles.map fun (v, owner, _) => (v, owner))
    finals := Std.ExtTreeSet.ofList (roles.filterMap fun (v, _, final) =>
      if final then some v else none) }

/-- The player who moves at a vertex, if there is one. -/
def owner? (p : Problem) (v : VertexId) : Option Player := p.owners[v]?

/-- The sources of the moves to a vertex, one for each move. -/
def predecessors (p : Problem) (v : VertexId) : List VertexId := p.graph.sources v

/-- The targets of the moves from a vertex, one for each move. -/
def successors (p : Problem) (v : VertexId) : List VertexId := p.graph.targets v

end Problem

end GraphGames
