import GraphGames.Graph.Handle

/-!
# What a property value belongs to

A property is declared for all vertices, for all edges, or for the graph itself; a single value of
it belongs to one vertex, one edge, or the graph.

* `Scope`: what a property is declared for;
* `Subject`: what a value belongs to, with its scope and the slot that the value is kept in. The
  graph has one slot.
-/

namespace GraphGames

/-- What a property is declared for. -/
inductive Scope
  | vertex
  | edge
  | graph
  deriving DecidableEq, Repr

/-- The name of a scope in messages. -/
def Scope.name : Scope → String
  | .vertex => "vertex"
  | .edge => "edge"
  | .graph => "graph"

instance : ToString Scope := ⟨Scope.name⟩

/-- What a property value belongs to. -/
inductive Subject
  | vertex (v : VertexId)
  | edge (e : EdgeId)
  | graph
  deriving DecidableEq, Repr

namespace Subject

/-- The scope of the properties that a subject has. -/
def scope : Subject → Scope
  | vertex _ => .vertex
  | edge _ => .edge
  | graph => .graph

/-- The position of a subject's value in the column of a property. -/
def slot : Subject → Nat
  | vertex v => v.index
  | edge e => e.index
  | graph => 0

/-- A scope and a slot determine the subject. -/
theorem eq_of_scope_of_slot {s t : Subject} (hscope : s.scope = t.scope) (hslot : s.slot = t.slot) :
    s = t := by
  cases s <;> cases t <;> simp_all [scope, slot, VertexId.ext_iff, EdgeId.ext_iff]

end Subject

end GraphGames
