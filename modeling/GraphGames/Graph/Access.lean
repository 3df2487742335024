import GraphGames.Graph.Basic

/-!
# Reading properties

* `Graph.propertyScope?`, `propertyType`, `hasProperty`: what is declared under a name;
* `Graph.contains`, `Graph.require`: whether a subject is in the graph;
* `Graph.value`, `vertexValues`, `edgeValues`: the values of a property.

Reading fails first on an unknown name, then on a subject that is not in the graph.
-/

namespace GraphGames.Graph

/-- The scope in which a name is declared. -/
def propertyScope? (g : Graph) (name : String) : Option Scope := g.properties.scope? name

/-- The value type of a name that is declared in `scope`. -/
def propertyType (g : Graph) (scope : Scope) (name : String) : Except Error ValueType :=
  (g.properties.column scope name).map Column.type

/-- Whether a name is declared in `scope`, and with the given type if there is one. -/
def hasProperty (g : Graph) (scope : Scope) (name : String) (type : Option ValueType) : Bool :=
  match g.properties.column? scope name with
  | some column => type.all fun t => t == column.type
  | none => false

/-- Whether a subject is in the graph. -/
def contains (g : Graph) : Subject → Bool
  | .vertex v => g.containsVertex v
  | .edge e => g.containsEdge e
  | .graph => true

/-- Fails on a vertex that is not in the graph. -/
def requireVertex (g : Graph) (v : VertexId) : Except Error Unit :=
  if g.containsVertex v then .ok () else .error (.vertexNotFound v)

/-- Fails on a subject that is not in the graph. -/
def require (g : Graph) : Subject → Except Error Unit
  | .vertex v => g.requireVertex v
  | .edge e => if g.containsEdge e then .ok () else .error (.edgeNotFound e)
  | .graph => .ok ()

/-- The value of a property at a subject. -/
def value (g : Graph) (subject : Subject) (name : String) : Except Error Value := do
  let column ← g.properties.column subject.scope name
  g.require subject
  return column.getD subject.slot

/-- The value of a vertex property at every vertex, in ascending order. -/
def vertexValues (g : Graph) (name : String) : Except Error (List (VertexId × Value)) := do
  let column ← g.properties.column .vertex name
  return g.vertices.map fun v => (v, column.getD v.index)

/-- The value of an edge property at every edge, in ascending order. -/
def edgeValues (g : Graph) (name : String) : Except Error (List (EdgeId × Value)) := do
  let column ← g.properties.column .edge name
  return g.edges.map fun e => (e.id, column.getD e.id.index)

end GraphGames.Graph
