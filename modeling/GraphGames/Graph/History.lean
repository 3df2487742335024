import GraphGames.Graph.Update

/-!
# Histories of graphs

A graph comes about by operations on the empty graph. Each operation leaves a graph behind, also
when it fails.

* `Operation`, `Operation.apply`: the operations, and the graph that one leaves behind;
* `Graph.missingEnd?`, `Update.run_addEdge`, `Update.run_addEdges`: the end on which an edge fails, and
  what adding one edge or several does;
* `Graph.after`: the graph at the end of a history;
* `Graph.Reachable`: the graphs that come about, which are the ends of histories by
  `Graph.reachable_iff_after`;
* `Graph.Stable`, `Graph.Reachable.induction`: what the empty graph has and every single change
  keeps, every reachable graph has;
* `Graph.reachable_withProperties`: a graph that starts with declared properties is reachable.
-/

namespace GraphGames

/-- An operation on a graph, with its arguments. -/
inductive Operation
  | addVertex
  | addVertices (count : Nat)
  | addEdge (source target : VertexId)
  | addEdges (pairs : List (VertexId × VertexId))
  | removeVertex (v : VertexId)
  | removeVertices (vs : List VertexId)
  | removeEdge (e : EdgeId)
  | removeEdges (es : List EdgeId)
  | declare (scope : Scope) (name : String) (type : ValueType)
  | setValue (fresh : Nat) (subject : Subject) (name : String) (value : Value)
  | setValues (name : String) (entries : List (Nat × Subject × Value))

namespace Operation

/-- The update that an operation stands for, without its answer. -/
def update : Operation → Update Unit
  | addVertex => do let _ ← Update.addVertex
  | addVertices count => do let _ ← Update.addVertices count
  | addEdge source target => do let _ ← Update.addEdge source target
  | addEdges pairs => do let _ ← Update.addEdges pairs
  | removeVertex v => do let _ ← Update.removeVertex v
  | removeVertices vs => Update.removeVertices vs
  | removeEdge e => do let _ ← Update.removeEdge e
  | removeEdges es => Update.removeEdges es
  | declare scope name type => Update.declare scope name type
  | setValue fresh subject name value => Update.setValue fresh subject name value
  | setValues name entries => Update.setValues name entries

/-- The graph that an operation leaves behind. -/
def apply (op : Operation) (g : Graph) : Graph := (op.update.run g).2

end Operation

namespace Graph

/-- The graph that a history of operations makes of `g`. -/
def after (history : List Operation) (g : Graph) : Graph :=
  history.foldl (fun g op => op.apply g) g

/-- The graphs that come about by operations on the empty graph. -/
inductive Reachable : Graph → Prop
  | empty : Reachable Graph.empty
  | step {g : Graph} (op : Operation) : Reachable g → Reachable (op.apply g)

theorem after_append (history more : List Operation) (g : Graph) :
    g.after (history ++ more) = (g.after history).after more :=
  List.foldl_append

/-- What can be done to a reachable graph leaves a reachable graph behind. -/
theorem Reachable.after {g : Graph} (h : Reachable g) (history : List Operation) :
    Reachable (g.after history) := by
  induction history generalizing g with
  | nil => exact h
  | cons op history ih => exact ih (h.step op)

/-- A graph is reachable iff it is the end of a history that begins with the empty graph. -/
theorem reachable_iff_after {g : Graph} : Reachable g ↔ ∃ history, empty.after history = g := by
  constructor
  · intro h
    induction h with
    | empty => exact ⟨[], rfl⟩
    | step op _ ih =>
      obtain ⟨history, rfl⟩ := ih
      exact ⟨history ++ [op], after_append history [op] empty⟩
  · rintro ⟨history, rfl⟩
    exact Reachable.empty.after history

/-- Single changes keep the property `P`: a new vertex, a new edge between vertices of the graph, a
removal, and a declaration or a setting that succeeds. -/
structure Stable (P : Graph → Prop) : Prop where
  addVertex : ∀ g, P g → P g.addVertex
  insertEdge : ∀ g source target, g.containsVertex source → g.containsVertex target → P g →
    P (g.insertEdge source target)
  removeVertex : ∀ g v, P g → P (g.removeVertex v)
  removeEdge : ∀ g e, P g → P (g.removeEdge e)
  declare : ∀ g scope name type next, g.declared scope name type = .ok next → P g → P next
  setValue : ∀ g fresh subject name value next, g.withValue fresh subject name value = .ok next →
    P g → P next

theorem containsVertex_insertEdge (g : Graph) (source target v : VertexId) :
    (g.insertEdge source target).containsVertex v = g.containsVertex v := by
  simp only [insertEdge, containsVertex, SlotTable.contains, SlotTable.get?_modify]
  split <;> split <;> simp

/-- The first end of an edge that is not in the graph, if there is one. The source comes first. -/
def missingEnd? (g : Graph) (p : VertexId × VertexId) : Option VertexId :=
  [p.1, p.2].find? fun v => !g.containsVertex v

theorem missingEnd?_eq_none_iff {g : Graph} {p : VertexId × VertexId} :
    g.missingEnd? p = none ↔ g.containsVertex p.1 ∧ g.containsVertex p.2 := by
  simp [missingEnd?, List.find?_eq_none]

/-- None of several edges misses an end. -/
theorem ends_of_findSome?_eq_none {g : Graph} {pairs : List (VertexId × VertexId)}
    (h : pairs.findSome? g.missingEnd? = none) :
    ∀ p ∈ pairs, g.containsVertex p.1 ∧ g.containsVertex p.2 := by
  intro p hp
  exact missingEnd?_eq_none_iff.mp (List.findSome?_eq_none_iff.mp h p hp)

end Graph

/-- Refuses a vertex that is missing. -/
def refuse : Option VertexId → Except Error Unit
  | some v => .error (.vertexNotFound v)
  | none => .ok ()

namespace Update

variable {α β : Type} {P : Graph → Prop}

/-- An update leaves a graph with the property `P` behind when it starts from one. -/
def Keeps (P : Graph → Prop) (u : Update α) : Prop := ∀ g, P g → P (u.run g).2

theorem keeps_pure (a : α) : Keeps P (pure a : Update α) := fun _ h => h

theorem keeps_throw (e : Error) : Keeps P (throw e : Update α) := fun _ h => h

theorem keeps_bind {u : Update α} {f : α → Update β} (hu : Keeps P u) (hf : ∀ a, Keeps P (f a)) :
    Keeps P (u >>= f) := by
  intro g hg
  have hnext := hu g hg
  rw [run_bind]
  cases h : u.run g with
  | mk result next =>
    rw [h] at hnext
    cases result with
    | ok a => exact hf a next hnext
    | error e => exact hnext

/-- What can be said of the answers to graphs with the property `P` can be said of the answer after
an update that keeps it. -/
theorem answer_bind {u : Update α} {f : α → Update β} {Q : β → Prop} (hu : Keeps P u)
    (hf : ∀ a g b, P g → ((f a).run g).1 = .ok b → Q b) {g : Graph} {b : β} (hg : P g)
    (h : ((u >>= f).run g).1 = .ok b) : Q b := by
  have hnext := hu g hg
  rw [run_bind] at h
  cases hrun : u.run g with
  | mk result next =>
    rw [hrun] at h hnext
    cases result with
    | ok a => exact hf a next b hnext h
    | error e => cases h

/-- What is made of the answer does not touch the graph. -/
theorem graph_bind_pure (u : Update α) (f : α → β) (g : Graph) :
    ((u >>= fun a => pure (f a)).run g).2 = (u.run g).2 := by
  rw [run_bind]
  cases u.run g with
  | mk result next => cases result <;> rfl

theorem keeps_forM {xs : List α} {f : α → Update Unit} (hf : ∀ a, Keeps P (f a)) :
    Keeps P (xs.forM f) := by
  induction xs with
  | nil => exact keeps_pure ()
  | cons a xs ih => exact keeps_bind (hf a) fun _ => ih

theorem keeps_mapM {xs : List α} {f : α → Update β} (hf : ∀ a, Keeps P (f a)) :
    Keeps P (xs.mapM f) := by
  induction xs with
  | nil => exact keeps_pure []
  | cons a xs ih =>
    rw [List.mapM_cons]
    exact keeps_bind (hf a) fun _ => keeps_bind ih fun _ => keeps_pure _

/-- What leaves behind the answer of a question, or fails without change, keeps what that answer has. -/
theorem keeps_replace {u : Update Unit} {question : Graph → Except Error Graph}
    (hrun : ∀ g, u.run g =
      match question g with
      | .ok next => (.ok (), next)
      | .error e => (.error e, g))
    (h : ∀ g next, question g = .ok next → P g → P next) : Keeps P u := by
  intro g hg
  rw [hrun]
  cases hq : question g with
  | ok next => exact h g next hq hg
  | error e => exact hg

/-! ### Looking at ends -/

theorem run_requireEnds (g : Graph) (p : VertexId × VertexId) :
    (requireEnds p.1 p.2).run g = (refuse (g.missingEnd? p), g) := by
  rw [requireEnds, run_bind, run_ask]
  unfold Graph.requireVertex Graph.missingEnd?
  by_cases hs : g.containsVertex p.1
  · by_cases ht : g.containsVertex p.2
    · simp [hs, ht, refuse]
    · simp [hs, ht, refuse]
  · simp [hs, refuse]

/-- Of several edges the first that misses an end is refused. -/
theorem run_forM_requireEnds (g : Graph) (pairs : List (VertexId × VertexId)) :
    (pairs.forM fun p => requireEnds p.1 p.2).run g =
      (refuse (pairs.findSome? g.missingEnd?), g) := by
  induction pairs with
  | nil => rfl
  | cons p pairs ih =>
    show (requireEnds p.1 p.2 >>= fun _ => pairs.forM fun p => requireEnds p.1 p.2).run g = _
    rw [run_bind, run_requireEnds, List.findSome?_cons]
    cases g.missingEnd? p with
    | none => exact ih
    | some v => rfl

theorem run_addEdge (g : Graph) (p : VertexId × VertexId) :
    (addEdge p.1 p.2).run g =
      match g.missingEnd? p with
      | none => (.ok g.nextEdge, g.insertEdge p.1 p.2)
      | some v => (.error (.vertexNotFound v), g) := by
  rw [addEdge, run_bind, run_requireEnds]
  cases g.missingEnd? p <;> rfl

theorem run_addEdges (g : Graph) (pairs : List (VertexId × VertexId)) :
    (addEdges pairs).run g =
      match pairs.findSome? g.missingEnd? with
      | none => (pairs.mapM fun p => insertEdge p.1 p.2).run g
      | some v => (.error (.vertexNotFound v), g) := by
  show ((pairs.forM fun p => requireEnds p.1 p.2) >>= fun _ => pairs.mapM _).run g = _
  rw [run_bind, run_forM_requireEnds]
  cases pairs.findSome? g.missingEnd? <;> rfl

theorem keeps_mapM_insertEdge (hP : Graph.Stable P) {pairs : List (VertexId × VertexId)}
    {g : Graph} (hpairs : ∀ p ∈ pairs, g.containsVertex p.1 ∧ g.containsVertex p.2) (hg : P g) :
    P ((pairs.mapM fun (source, target) => insertEdge source target).run g).2 := by
  induction pairs generalizing g with
  | nil => exact hg
  | cons p pairs ih =>
    obtain ⟨hp, hpairs⟩ := List.forall_mem_cons.mp hpairs
    have hrest := ih (g := g.insertEdge p.1 p.2)
      (fun q hq => by simpa only [Graph.containsVertex_insertEdge] using hpairs q hq)
      (hP.insertEdge g p.1 p.2 hp.1 hp.2 hg)
    rw [List.mapM_cons]
    change P ((insertEdge p.1 p.2 >>= fun e => pairs.mapM _ >>= fun es => pure (e :: es)).run g).2
    rw [run_bind, insertEdge, run_change]
    exact (congrArg P (graph_bind_pure _ _ _)).mpr hrest

theorem keeps_addEdges (hP : Graph.Stable P) (pairs : List (VertexId × VertexId)) :
    Keeps P (addEdges pairs) := by
  intro g hg
  rw [run_addEdges]
  cases hmissing : pairs.findSome? g.missingEnd? with
  | none => exact keeps_mapM_insertEdge hP (Graph.ends_of_findSome?_eq_none hmissing) hg
  | some v => exact hg

theorem keeps_addEdge (hP : Graph.Stable P) (source target : VertexId) :
    Keeps P (addEdge source target) := by
  intro g hg
  rw [run_addEdge g (source, target)]
  cases hmissing : g.missingEnd? (source, target) with
  | none =>
    obtain ⟨hs, ht⟩ := Graph.missingEnd?_eq_none_iff.mp hmissing
    exact hP.insertEdge g source target hs ht hg
  | some v => exact hg

theorem keeps_setValue (hP : Graph.Stable P) (fresh : Nat) (subject : Subject) (name : String)
    (value : Value) : Keeps P (setValue fresh subject name value) :=
  keeps_replace (run_setValue fresh subject name value) fun g next h =>
    hP.setValue g fresh subject name value next h

end Update

theorem foldl_keeps {α : Type} {P : Graph → Prop} {f : Graph → α → Graph}
    (hf : ∀ g a, P g → P (f g a)) (xs : List α) {g : Graph} (hg : P g) : P (xs.foldl f g) := by
  induction xs generalizing g with
  | nil => exact hg
  | cons a xs ih => exact ih (hf g a hg)

namespace Graph

variable {P : Graph → Prop}

/-- What single changes keep, operations keep. -/
theorem Stable.update (hP : Stable P) (op : Operation) : Update.Keeps P op.update := by
  cases op with
  | addVertex => exact Update.keeps_bind hP.addVertex fun _ => Update.keeps_pure ()
  | addVertices count =>
    refine Update.keeps_bind ?_ fun _ => Update.keeps_pure ()
    unfold Update.addVertices
    split
    · exact Update.keeps_throw _
    · exact Update.keeps_mapM fun _ => hP.addVertex
  | addEdge source target =>
    exact Update.keeps_bind (Update.keeps_addEdge hP source target) fun _ => Update.keeps_pure ()
  | addEdges pairs =>
    exact Update.keeps_bind (Update.keeps_addEdges hP pairs) fun _ => Update.keeps_pure ()
  | removeVertex v =>
    exact Update.keeps_bind (fun g => hP.removeVertex g v) fun _ => Update.keeps_pure ()
  | removeVertices vs => exact fun g hg => foldl_keeps hP.removeVertex vs hg
  | removeEdge e =>
    exact Update.keeps_bind (fun g => hP.removeEdge g e) fun _ => Update.keeps_pure ()
  | removeEdges es => exact fun g hg => foldl_keeps hP.removeEdge es hg
  | declare scope name type =>
    exact Update.keeps_replace (Update.run_declare scope name type) fun g next h =>
      hP.declare g scope name type next h
  | setValue fresh subject name value => exact Update.keeps_setValue hP fresh subject name value
  | setValues name entries =>
    exact Update.keeps_forM fun (fresh, subject, value) =>
      Update.keeps_setValue hP fresh subject name value

/-- What the empty graph has and every single change keeps, every reachable graph has. -/
theorem Reachable.induction (hempty : P Graph.empty) (hP : Stable P) {g : Graph}
    (h : Reachable g) : P g := by
  induction h with
  | empty => exact hempty
  | step op _ ih => exact hP.update op _ ih

/-- Declaring properties on the empty graph is a history. -/
theorem reachable_withProperties {forVertices forEdges forGraph : List (String × ValueType)}
    {g : Graph} (h : withProperties forVertices forEdges forGraph = .ok g) : Reachable g := by
  have keeps (scope : Scope) (properties : List (String × ValueType)) :
      Update.Keeps Reachable (properties.forM fun p => Update.declare scope p.1 p.2) :=
    Update.keeps_forM fun p _ hg => hg.step (.declare scope p.1 p.2)
  refine Update.answer_bind (keeps .vertex forVertices) (fun _ _ _ hg hrun => ?_) .empty h
  refine Update.answer_bind (keeps .edge forEdges) (fun _ _ _ hg hrun => ?_) hg hrun
  refine Update.answer_bind (keeps .graph forGraph) (fun _ _ _ hg hrun => ?_) hg hrun
  cases hrun
  exact hg

end Graph

end GraphGames
