import GraphGames.Graph.Access

/-!
# Changing a graph

An update answers or fails, and leaves a graph behind in either case. It asks the graph whether it
may go on before it changes anything. Only the value that is set is looked at by the column itself, which
is written in place.

* `Update`, `Update.run`: updates, and the answer and the graph that one leaves behind;
* `Graph.addVertex`, `insertEdge`, `removeEdge`, `removeVertex`: the changes themselves, which
  cannot fail;
* `addVertex`, `addVertices`, `addEdge`, `addEdges`: new entities, with every property unset;
* `removeVertex`, `removeVertices`, `removeEdge`, `removeEdges`: removal, of a vertex together with
  its edges; what is not in the graph is left alone;
* `declare`, `setValue`, `setValues`: properties and their values; `run_declare` and `run_setValue` say
  what they leave behind;
* `Graph.withProperties`: an empty graph with declared properties.
-/

namespace GraphGames

/-- An operation that changes a graph, and answers or fails. -/
abbrev Update (α : Type) := ExceptT Error (StateM Graph) α

namespace Update

variable {α β : Type}

/-- The answer of an update to `g`, and the graph that it leaves behind. -/
def run (u : Update α) (g : Graph) : Except Error α × Graph := (StateT.run (ExceptT.run u) g).run

/-- Ask the graph, which is not changed; a question that fails ends the update. -/
def ask (question : Graph → Except Error α) : Update α :=
  ExceptT.mk fun g => (question g, g)

/-- Answer with `answer g` and go on with the graph `next g`. -/
def change (answer : Graph → α) (next : Graph → Graph) : Update α :=
  ExceptT.mk fun g => (.ok (answer g), next g)

/-- Write to a column of the graph in place. What the write makes of the column is kept, also when it
fails. -/
def store (fresh : Nat) (name : String) (column : Column) (slot : Nat) (value : Value) : Update Unit :=
  ExceptT.mk fun g =>
    let (answer, left) := column.store fresh slot value
    (answer.mapError fun found => .typeMismatch name column.type found,
      { g with properties := g.properties.setColumn name left })

@[simp] theorem run_pure (a : α) (g : Graph) : (pure a : Update α).run g = (.ok a, g) := rfl

@[simp] theorem run_ask (question : Graph → Except Error α) (g : Graph) :
    (ask question).run g = (question g, g) := rfl

/-- A write in place has replaced the column by what is answered at once, or by itself. -/
theorem run_store (fresh : Nat) (name : String) (column : Column) (slot : Nat) (value : Value)
    (g : Graph) :
    (store fresh name column slot value).run g =
      match column.set fresh slot value with
      | .ok next => (.ok (), { g with properties := g.properties.setColumn name next })
      | .error found =>
        (.error (.typeMismatch name column.type found),
          { g with properties := g.properties.setColumn name column }) := by
  show (Except.mapError _ (column.store fresh slot value).1,
    { g with properties := g.properties.setColumn name (column.store fresh slot value).2 }) = _
  rw [Column.store_eq]
  cases column.set fresh slot value <;> rfl

@[simp] theorem run_change (answer : Graph → α) (next : Graph → Graph) (g : Graph) :
    (change answer next).run g = (.ok (answer g), next g) := rfl

theorem run_bind (u : Update α) (f : α → Update β) (g : Graph) :
    (u >>= f).run g =
      match u.run g with
      | (.ok a, g') => (f a).run g'
      | (.error e, g') => (.error e, g') := by
  unfold run ExceptT.run StateT.run Id.run
  simp only [bind, ExceptT.bind, ExceptT.mk, StateT.bind, ExceptT.bindCont]
  cases u g with
  | mk answer next => cases answer <;> rfl

/-- Updates that are made one after the other, up to the first that fails. -/
theorem run_mapM_cons (f : α → Update β) (a : α) (xs : List α) (g : Graph) :
    ((a :: xs).mapM f).run g =
      match (f a).run g with
      | (.ok b, mid) =>
        match (xs.mapM f).run mid with
        | (.ok bs, next) => (.ok (b :: bs), next)
        | (.error e, next) => (.error e, next)
      | (.error e, mid) => (.error e, mid) := by
  rw [List.mapM_cons, run_bind]
  cases (f a).run g with
  | mk answer mid =>
    cases answer with
    | error e => rfl
    | ok b =>
      simp only [run_bind]
      cases (xs.mapM f).run mid with
      | mk answers next => cases answers <;> rfl

end Update

namespace Graph

/-- The handle of the next vertex to be added. -/
def nextVertex (g : Graph) : VertexId := ⟨g.vertexTable.nextSlot⟩

/-- The handle of the next edge to be added. -/
def nextEdge (g : Graph) : EdgeId := ⟨g.edgeTable.nextSlot⟩

/-- Add a vertex without edges, in which no property is set. -/
def addVertex (g : Graph) : Graph :=
  let slot := g.vertexTable.nextSlot
  { g with
    vertexTable := g.vertexTable.insert {}
    properties := g.properties.mapColumns .vertex fun c => (c.grow (slot + 1)).reset slot }

/-- Add an edge, in which no property is set, at the end of the lists of its endpoints. -/
def insertEdge (g : Graph) (source target : VertexId) : Graph :=
  let slot := g.edgeTable.nextSlot
  let e : EdgeId := ⟨slot⟩
  { vertexTable :=
      (g.vertexTable.modify source.index fun i => { i with outgoing := i.outgoing ++ [e] }).modify
        target.index fun i => { i with incoming := i.incoming ++ [e] }
    edgeTable := g.edgeTable.insert ⟨source, target⟩
    properties := g.properties.mapColumns .edge fun c => (c.grow (slot + 1)).reset slot }

/-- Remove an edge from its table and from the lists of its endpoints, and unset its properties. -/
def removeEdge (g : Graph) (e : EdgeId) : Graph :=
  match g.edgeTable.get? e.index with
  | none => g
  | some ends =>
    { vertexTable :=
        (g.vertexTable.modify ends.source.index fun i =>
            { i with outgoing := i.outgoing.filter (· ≠ e) }).modify
          ends.target.index fun i => { i with incoming := i.incoming.filter (· ≠ e) }
      edgeTable := g.edgeTable.remove e.index
      properties := g.properties.mapColumns .edge (·.reset e.index) }

/-- The edges at a vertex; a loop occurs once. -/
def incident (g : Graph) (v : VertexId) : EdgeSet :=
  Std.ExtTreeSet.ofList (g.incoming v ++ g.outgoing v)

/-- Remove a vertex and its edges, in ascending order of the edges, and unset its properties. -/
def removeVertex (g : Graph) (v : VertexId) : Graph :=
  if g.containsVertex v then
    let bare := (g.incident v).toList.foldl removeEdge g
    { bare with
      vertexTable := bare.vertexTable.remove v.index
      properties := bare.properties.mapColumns .vertex (·.reset v.index) }
  else g

/-- The number of cells in a column of a new property. -/
def slots (g : Graph) : Scope → Nat
  | .vertex => g.vertexTable.capacity
  | .edge => g.edgeTable.capacity
  | .graph => 1

/-- The graph with one more property. -/
def declared (g : Graph) (scope : Scope) (name : String) (type : ValueType) :
    Except Error Graph := do
  let properties ← g.properties.declare scope name type (g.slots scope)
  return { g with properties }

/-- The graph with a value of a property replaced. A box that has to be made for the value gets the
stamp `fresh`. -/
def withValue (g : Graph) (fresh : Nat) (subject : Subject) (name : String) (value : Value) :
    Except Error Graph := do
  let column ← g.properties.column subject.scope name
  g.require subject
  match column.set fresh subject.slot value with
  | .ok column => return { g with properties := g.properties.setColumn name column }
  | .error found => throw (.typeMismatch name column.type found)

end Graph

namespace Update

/-- Add a vertex. -/
def addVertex : Update VertexId := change Graph.nextVertex Graph.addVertex

/-- Add `count` vertices, of which there has to be one at least. -/
def addVertices (count : Nat) : Update (List VertexId) := do
  if count = 0 then throw (.noVertices count)
  (List.range count).mapM fun _ => addVertex

/-- Add an edge between vertices that are taken to be in the graph. -/
def insertEdge (source target : VertexId) : Update EdgeId :=
  change Graph.nextEdge fun g => g.insertEdge source target

/-- Fails unless both ends of an edge are in the graph. -/
def requireEnds (source target : VertexId) : Update Unit := do
  ask fun g => g.requireVertex source
  ask fun g => g.requireVertex target

/-- Add an edge between vertices of the graph. -/
def addEdge (source target : VertexId) : Update EdgeId := do
  requireEnds source target
  insertEdge source target

/-- Add an edge for each pair. All ends are looked at before any edge is added. -/
def addEdges (pairs : List (VertexId × VertexId)) : Update (List EdgeId) := do
  pairs.forM fun (source, target) => requireEnds source target
  pairs.mapM fun (source, target) => insertEdge source target

/-- Remove a vertex and its edges; answers whether it was in the graph. -/
def removeVertex (v : VertexId) : Update Bool :=
  change (fun g => g.containsVertex v) fun g => g.removeVertex v

/-- Remove those of the given vertices that are in the graph. -/
def removeVertices (vs : List VertexId) : Update Unit :=
  change (fun _ => ()) fun g => vs.foldl Graph.removeVertex g

/-- Remove an edge; answers whether it was in the graph. -/
def removeEdge (e : EdgeId) : Update Bool :=
  change (fun g => g.containsEdge e) fun g => g.removeEdge e

/-- Remove those of the given edges that are in the graph. -/
def removeEdges (es : List EdgeId) : Update Unit :=
  change (fun _ => ()) fun g => es.foldl Graph.removeEdge g

/-- Declare a property. -/
def declare (scope : Scope) (name : String) (type : ValueType) : Update Unit := do
  ask fun g => g.properties.requireFree name
  change (fun _ => ()) fun g =>
    { g with properties := g.properties.insertNew scope name type (g.slots scope) }

/-- Set a value of a property. A box that has to be made for the value gets the stamp `fresh`. -/
def setValue (fresh : Nat) (subject : Subject) (name : String) (value : Value) : Update Unit := do
  let column ← ask fun g => g.properties.column subject.scope name
  ask fun g => g.require subject
  store fresh name column subject.slot value

/-- Set values of a property one after the other, up to the first that fails. Each comes with the
stamp of the box that may have to be made for it. -/
def setValues (name : String) (entries : List (Nat × Subject × Value)) : Update Unit :=
  entries.forM fun (fresh, subject, value) => setValue fresh subject name value

/-- A declaration leaves behind the graph that declares the property, or fails without change. -/
theorem run_declare (scope : Scope) (name : String) (type : ValueType) (g : Graph) :
    (declare scope name type).run g =
      match g.declared scope name type with
      | .ok next => (.ok (), next)
      | .error e => (.error e, g) := by
  unfold declare Graph.declared Properties.declare
  rw [run_bind, run_ask]
  cases g.properties.requireFree name <;> rfl

/-- A setting leaves behind the graph that has the value, or fails without change: a column that rejects
a value is put back as it was. -/
theorem run_setValue (fresh : Nat) (subject : Subject) (name : String) (value : Value) (g : Graph) :
    (setValue fresh subject name value).run g =
      match g.withValue fresh subject name value with
      | .ok next => (.ok (), next)
      | .error e => (.error e, g) := by
  unfold setValue Graph.withValue
  rw [run_bind, run_ask]
  cases hcolumn : g.properties.column subject.scope name with
  | error e => rfl
  | ok column =>
    simp only [run_bind, run_ask, run_store]
    simp only [bind, Except.bind]
    cases g.require subject with
    | error e => rfl
    | ok =>
      have hself := Properties.setColumn_self (Properties.column_eq_ok_iff.mp hcolumn)
      cases column.set fresh subject.slot value with
      | ok next => rfl
      | error found =>
        show (_, { g with properties := g.properties.setColumn name column }) = _
        rw [hself]
        rfl

end Update

/-- A graph without vertices that declares the given vertex, edge and graph properties. -/
def Graph.withProperties (forVertices forEdges forGraph : List (String × ValueType)) :
    Except Error Graph :=
  let declareAll (scope : Scope) (properties : List (String × ValueType)) : Update Unit :=
    properties.forM fun (name, type) => Update.declare scope name type
  let all : Update Graph := do
    declareAll .vertex forVertices
    declareAll .edge forEdges
    declareAll .graph forGraph
    get
  (all.run Graph.empty).1

end GraphGames
