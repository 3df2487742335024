import GraphGames.Graph.Properties
import GraphGames.Graph.SlotTable

/-!
# Directed multigraphs with properties

Vertices and edges live in slot tables, so their handles never move. Each vertex keeps its edges in
the order in which they were added. Loops and parallel edges are allowed.

* `Graph`: the two tables and the declared properties; `Graph.empty` has none of them;
* `vertices`, `edges`, `numVertices`, `numEdges`, `containsVertex`, `containsEdge`, `edge`: what is
  in a graph;
* `incoming`, `outgoing`, `sources`, `targets`: the edges at a vertex and their other ends, empty
  for a vertex that is not in the graph;
* `inEdges`, `outEdges`, `predecessors`, `successors`, `inNeighbors`, `outNeighbors`: the same,
  failing for a vertex that is not in the graph;
* `summary`: a graph in one line.
-/

namespace GraphGames

/-- The edges at a vertex, each list in the order in which they were added. -/
structure Incidence where
  incoming : List EdgeId := []
  outgoing : List EdgeId := []
  deriving DecidableEq

/-- The ends of an edge. -/
structure Endpoints where
  source : VertexId
  target : VertexId
  deriving DecidableEq

/-- A directed multigraph with properties. -/
structure Graph where
  vertexTable : SlotTable Incidence := .empty
  edgeTable : SlotTable Endpoints := .empty
  properties : Properties := ∅

namespace Graph

/-- The graph without vertices, edges and properties. -/
def empty : Graph := {}

/-- The vertices in ascending order. -/
def vertices (g : Graph) : List VertexId := g.vertexTable.entries.map fun (i, _) => ⟨i⟩

/-- The edges in ascending order of their handles. -/
def edges (g : Graph) : List Edge :=
  g.edgeTable.entries.map fun (i, ends) => ⟨⟨i⟩, ends.source, ends.target⟩

/-- The number of vertices. -/
def numVertices (g : Graph) : Nat := g.vertexTable.size

/-- The number of edges. -/
def numEdges (g : Graph) : Nat := g.edgeTable.size

/-- A bound above the position of every vertex. -/
def vertexCapacity (g : Graph) : Nat := g.vertexTable.capacity

/-- Whether a vertex is in the graph. -/
def containsVertex (g : Graph) (v : VertexId) : Bool := g.vertexTable.contains v.index

/-- Whether an edge is in the graph. -/
def containsEdge (g : Graph) (e : EdgeId) : Bool := g.edgeTable.contains e.index

/-- The edge with a given handle, if it is in the graph. -/
def edge? (g : Graph) (e : EdgeId) : Option Edge :=
  (g.edgeTable.get? e.index).map fun ends => ⟨e, ends.source, ends.target⟩

/-- The edge with a given handle. -/
def edge (g : Graph) (e : EdgeId) : Except Error Edge :=
  match g.edge? e with
  | some edge => .ok edge
  | none => .error (.edgeNotFound e)

/-- The edges into a vertex, oldest first. -/
def incoming (g : Graph) (v : VertexId) : List EdgeId :=
  ((g.vertexTable.get? v.index).map Incidence.incoming).getD []

/-- The edges out of a vertex, oldest first. -/
def outgoing (g : Graph) (v : VertexId) : List EdgeId :=
  ((g.vertexTable.get? v.index).map Incidence.outgoing).getD []

/-- The sources of the edges into a vertex, one for each edge. -/
def sources (g : Graph) (v : VertexId) : List VertexId :=
  (g.incoming v).filterMap fun e => (g.edge? e).map Edge.source

/-- The targets of the edges out of a vertex, one for each edge. -/
def targets (g : Graph) (v : VertexId) : List VertexId :=
  (g.outgoing v).filterMap fun e => (g.edge? e).map Edge.target

/-- An answer about a vertex, which has to be in the graph. -/
def atVertex {α : Type} (g : Graph) (v : VertexId) (answer : α) : Except Error α :=
  if g.containsVertex v then .ok answer else .error (.vertexNotFound v)

/-- The edges into a vertex of the graph, oldest first. -/
def inEdges (g : Graph) (v : VertexId) : Except Error (List EdgeId) := g.atVertex v (g.incoming v)

/-- The edges out of a vertex of the graph, oldest first. -/
def outEdges (g : Graph) (v : VertexId) : Except Error (List EdgeId) := g.atVertex v (g.outgoing v)

/-- The sources of the edges into a vertex of the graph, one for each edge. -/
def predecessors (g : Graph) (v : VertexId) : Except Error (List VertexId) :=
  g.atVertex v (g.sources v)

/-- The targets of the edges out of a vertex of the graph, one for each edge. -/
def successors (g : Graph) (v : VertexId) : Except Error (List VertexId) :=
  g.atVertex v (g.targets v)

/-- The vertices with an edge into a vertex of the graph. -/
def inNeighbors (g : Graph) (v : VertexId) : Except Error VertexSet :=
  g.atVertex v (Std.ExtTreeSet.ofList (g.sources v))

/-- The vertices that an edge from a vertex of the graph leads to. -/
def outNeighbors (g : Graph) (v : VertexId) : Except Error VertexSet :=
  g.atVertex v (Std.ExtTreeSet.ofList (g.targets v))

/-- The numbers of vertices and edges, and the declared names of each scope. -/
def summary (g : Graph) : String :=
  let listed (scope : Scope) : String :=
    ", ".intercalate ((g.properties.names scope).map fun name => s!"'{name}'")
  let counts := s!"|V|={g.numVertices}, |E|={g.numEdges}"
  s!"Graph({counts}, vprops=[{listed .vertex}], eprops=[{listed .edge}], gprops=[{listed .graph}])"

instance : ToString Graph := ⟨summary⟩

/-! ### Membership -/

theorem mem_vertices {g : Graph} {v : VertexId} : v ∈ g.vertices ↔ g.containsVertex v := by
  rw [containsVertex, SlotTable.contains_iff]
  simp only [vertices, List.mem_map, Prod.exists]
  constructor
  · rintro ⟨i, a, h, rfl⟩
    exact ⟨a, SlotTable.mem_entries.mp h⟩
  · rintro ⟨a, h⟩
    exact ⟨v.index, a, SlotTable.mem_entries.mpr h, rfl⟩

theorem mem_edges {g : Graph} {e : Edge} : e ∈ g.edges ↔ g.edge? e.id = some e := by
  simp only [edges, edge?, List.mem_map, Prod.exists, SlotTable.mem_entries, Option.map_eq_some_iff]
  constructor
  · rintro ⟨i, ends, h, rfl⟩
    exact ⟨ends, h, rfl⟩
  · rintro ⟨ends, h, hmk⟩
    exact ⟨e.id.index, ends, h, hmk⟩

end Graph

end GraphGames
