import GraphGames.Graph.Access

/-!
# Markings

A marking is a vertex property of truth values that is kept beside a graph instead of in it. It is
read and written as if the graph declared it under a name that the graph leaves free.

* `Marking`, `Marking.create`: a name, the graph, and the column of marks;
* `Marking.freeName`: a name that a graph leaves free;
* `hasProperty`, `value`, `values`, `setValue`: the marking as a property, under its own name only;
* `isMarked`, `marked`, `mark`: the marking as a set.
-/

namespace GraphGames

/-- A vertex property of truth values beside a graph. -/
structure Marking where
  name : String
  graph : Graph
  column : Column

namespace Marking

/-- The name that is tried first for a marking that nobody named. -/
def defaultName : String := "win1"

/-- The names tried for a marking: `base`, then `base` with the numbers up to `n`. -/
def candidates (base : String) (n : Nat) : List String :=
  base :: (List.range n).map fun k => s!"{base}_{k + 1}"

/-- The first candidate that the graph does not declare. There is one more candidate than there are
declared names, so one of them is free. -/
def freeName (g : Graph) (base : String) : String :=
  ((candidates base g.properties.size).find? fun name => (g.propertyScope? name).isNone).getD base

/-- A marking under a name that the graph does not declare, with nothing marked. -/
def create (g : Graph) (name : String) : Except Error Marking :=
  match g.propertyScope? name with
  | some existing => .error (.nameTaken name existing)
  | none => .ok ⟨name, g, Column.defaults .bool g.vertexCapacity⟩

/-- Whether a vertex is marked; positions that no vertex has are unmarked unless they were marked. -/
def isMarked (m : Marking) (v : VertexId) : Bool := (m.column.bool? v.index).getD false

/-- The marked vertices of the graph. -/
def marked (m : Marking) : VertexSet :=
  Std.ExtTreeSet.ofList (m.graph.vertices.filter m.isMarked)

/-- Mark a vertex. -/
def mark (m : Marking) (v : VertexId) : Marking :=
  { m with column := (m.column.setBool v.index true).getD m.column }

/-- Mark the vertices of a list, one after the other. -/
def markAll (m : Marking) (vs : List VertexId) : Marking := vs.foldl mark m

/-- Fails on any name but the marking's own. -/
def requireName (m : Marking) (name : String) : Except Error Unit :=
  if name = m.name then .ok () else .error (.unknownProperty name .vertex)

/-- Whether a name is the marking's own, and a given type that of truth values. -/
def hasProperty (m : Marking) (name : String) (type : Option ValueType) : Bool :=
  name == m.name && type.all fun t => t == .bool

/-- The value of the marking at a vertex. -/
def value (m : Marking) (name : String) (v : VertexId) : Except Error Value := do
  m.requireName name
  m.graph.requireVertex v
  return .bool (m.isMarked v)

/-- The value of the marking at every vertex, in ascending order. -/
def values (m : Marking) (name : String) : Except Error (List (VertexId × Value)) := do
  m.requireName name
  return m.graph.vertices.map fun v => (v, .bool (m.isMarked v))

/-- Set the value of the marking at a vertex, which has to be a truth value. -/
def setValue (m : Marking) (name : String) (v : VertexId) (value : Value) : Except Error Marking := do
  m.requireName name
  m.graph.requireVertex v
  match value with
  | .bool b => return { m with column := (m.column.setBool v.index b).getD m.column }
  | other => throw (.typeMismatch name .bool other.type)

@[simp] theorem graph_mark (m : Marking) (v : VertexId) : (m.mark v).graph = m.graph := rfl

@[simp] theorem name_mark (m : Marking) (v : VertexId) : (m.mark v).name = m.name := rfl

end Marking

end GraphGames
