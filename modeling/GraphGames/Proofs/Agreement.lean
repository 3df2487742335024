import GraphGames.Proofs.Removal
import GraphGames.Proofs.Vacancy

/-!
# Graphs that answer alike

Two graphs may come about in different ways and still answer every question alike. Then they can
differ in two respects only: in how many slots they have, and in the order in which free ones are used
again.

* `Graph.Agrees`: two graphs answer every question alike, and `Graph.Lists.agrees`: what that follows
  from;
* `SlotTable.Reordered`, `Graph.Twins`: tables and graphs that are the same but for the order of their
  free positions;
* `Graph.Reachable.twins`: graphs that answer alike and have as many slots are twins.
-/

namespace GraphGames

namespace Graph

variable {g next : Graph} {es : List Edge} {subject : Subject} {name : String}

/-- Two graphs answer every question alike. How many slots they have is not asked. -/
structure Agrees (g next : Graph) : Prop where
  /-- The same vertices and edges are in the graphs, and edges have the same ends. -/
  vertices : next.vertices = g.vertices
  edges : next.edges = g.edges
  counts : next.numVertices = g.numVertices ∧ next.numEdges = g.numEdges
  contains : next.contains = g.contains
  edge : next.edge = g.edge
  /-- The same edges are listed at every vertex, in the same order. -/
  outEdges : next.outEdges = g.outEdges
  inEdges : next.inEdges = g.inEdges
  successors : next.successors = g.successors
  predecessors : next.predecessors = g.predecessors
  outNeighbors : next.outNeighbors = g.outNeighbors
  inNeighbors : next.inNeighbors = g.inNeighbors
  /-- The same names are declared, for the same scopes and with the same types. -/
  propertyScope? : next.propertyScope? = g.propertyScope?
  propertyType : next.propertyType = g.propertyType
  hasProperty : next.hasProperty = g.hasProperty
  names : next.properties.names = g.properties.names ∧
    next.properties.allNames = g.properties.allNames
  /-- Every subject has the same values, and the same errors are reported where it has none. -/
  value : next.value = g.value
  vertexValues : next.vertexValues = g.vertexValues
  edgeValues : next.edgeValues = g.edgeValues
  /-- They are described in the same words. -/
  summary : next.summary = g.summary

/-! ### Questions about properties -/

/-- Whether there is a property follows from the type of its name. -/
theorem hasProperty_congr (h : next.propertyType = g.propertyType) :
    next.hasProperty = g.hasProperty := by
  funext scope name expected
  rw [Bool.eq_iff_iff]
  cases htype : g.propertyType scope name with
  | ok type => rw [hasProperty_iff htype, hasProperty_iff (h ▸ htype)]
  | error e =>
    have hunknown {g : Graph} (hg : g.propertyType scope name = .error e) :
        g.properties.column? scope name = none := by
      by_contra hsome
      obtain ⟨c, hc⟩ := Option.ne_none_iff_exists'.mp hsome
      rw [propertyType_eq_ok_iff.mpr ⟨c, hc, rfl⟩] at hg
      cases hg
    unfold hasProperty
    rw [hunknown htype, hunknown (h ▸ htype)]

/-- The columns of a name with the same type are both there, or both missing. -/
theorem column?_cases (h : next.propertyType = g.propertyType) (scope : Scope) (name : String) :
    (∃ c d, g.properties.column? scope name = some c ∧
      next.properties.column? scope name = some d ∧ d.type = c.type) ∨
    g.properties.column? scope name = none ∧ next.properties.column? scope name = none := by
  cases hc : g.properties.column? scope name with
  | some c =>
    have htype : next.propertyType scope name = .ok c.type := by
      rw [h]
      exact propertyType_eq_ok_iff.mpr ⟨c, hc, rfl⟩
    obtain ⟨d, hd, hdc⟩ := propertyType_eq_ok_iff.mp htype
    exact .inl ⟨c, d, rfl, hd, hdc⟩
  | none =>
    refine .inr ⟨rfl, ?_⟩
    by_contra hsome
    obtain ⟨d, hd⟩ := Option.ne_none_iff_exists'.mp hsome
    have htype : g.propertyType scope name = .ok d.type := by
      rw [← h]
      exact propertyType_eq_ok_iff.mpr ⟨d, hd, rfl⟩
    obtain ⟨c, hc', -⟩ := propertyType_eq_ok_iff.mp htype
    rw [hc] at hc'
    cases hc'

theorem require_congr (h : next.contains subject = g.contains subject) :
    next.require subject = g.require subject := by
  cases subject with
  | vertex v =>
    show (if next.contains (.vertex v) then _ else _) = if g.contains (.vertex v) then _ else _
    rw [h]
  | edge e =>
    show (if next.contains (.edge e) then _ else _) = if g.contains (.edge e) then _ else _
    rw [h]
  | graph => rfl

/-- What is missing in both graphs has no value in either, for the same reason. -/
theorem value_congr_of_not_contains (htype : next.propertyType = g.propertyType)
    (hcontains : next.contains = g.contains) (hs : ¬ g.contains subject) :
    next.value subject name = g.value subject name := by
  rcases column?_cases htype subject.scope name with ⟨c, d, hc, hd, -⟩ | ⟨hc, hd⟩
  · have hrequire : ∃ e, g.require subject = .error e := by
      cases hg : g.require subject with
      | ok => exact absurd (require_eq_ok_iff.mp hg) hs
      | error e => exact ⟨e, rfl⟩
    obtain ⟨e, he⟩ := hrequire
    have he' : next.require subject = .error e := by
      rw [require_congr (congrFun hcontains subject), he]
    unfold value
    rw [Properties.column_eq_ok_iff.mpr hc, Properties.column_eq_ok_iff.mpr hd]
    show (next.require subject >>= fun _ => _) = (g.require subject >>= fun _ => _)
    rw [he, he']
    rfl
  · rw [value_of_column?_none hc, value_of_column?_none hd]

/-- The values of subjects of both graphs, listed from their columns. -/
theorem map_getD_congr {κ : Type} {keys : List κ} (subjectOf : κ → Subject) {c d : Column}
    (hkeys : ∀ k ∈ keys, g.contains (subjectOf k) ∧ next.contains (subjectOf k))
    (hc : ∀ k, g.properties.column? (subjectOf k).scope name = some c)
    (hd : ∀ k, next.properties.column? (subjectOf k).scope name = some d)
    (hvalue : next.value = g.value) :
    keys.map (fun k => (k, d.getD (subjectOf k).slot)) =
      keys.map fun k => (k, c.getD (subjectOf k).slot) := by
  apply List.map_congr_left
  intro k hk
  obtain ⟨hg, hnext⟩ := hkeys k hk
  have hread := congrFun (congrFun hvalue (subjectOf k)) name
  rw [value_of_column? (hc k) hg, value_of_column? (hd k) hnext] at hread
  rw [Except.ok.inj hread]

theorem vertexValues_congr (htype : next.propertyType = g.propertyType)
    (hvertices : next.vertices = g.vertices) (hvalue : next.value = g.value) :
    next.vertexValues = g.vertexValues := by
  funext name
  unfold vertexValues
  rcases column?_cases htype .vertex name with ⟨c, d, hc, hd, -⟩ | ⟨hc, hd⟩
  · rw [Properties.column_eq_ok_iff.mpr hc, Properties.column_eq_ok_iff.mpr hd, hvertices]
    refine congrArg Except.ok (map_getD_congr .vertex ?_ (fun _ => hc) (fun _ => hd) hvalue)
    intro v hv
    exact ⟨mem_vertices.mp hv, mem_vertices.mp (hvertices ▸ hv)⟩
  · unfold Properties.column
    rw [hc, hd]
    rfl

theorem edgeValues_congr (htype : next.propertyType = g.propertyType)
    (hedges : next.edges = g.edges) (hvalue : next.value = g.value) :
    next.edgeValues = g.edgeValues := by
  funext name
  unfold edgeValues
  rcases column?_cases htype .edge name with ⟨c, d, hc, hd, -⟩ | ⟨hc, hd⟩
  · rw [Properties.column_eq_ok_iff.mpr hc, Properties.column_eq_ok_iff.mpr hd, hedges]
    have hkeys : ∀ e ∈ g.edges.map Edge.id, g.contains (.edge e) ∧ next.contains (.edge e) := by
      intro e he
      exact ⟨mem_map_id_edges.mp he, mem_map_id_edges.mp (hedges ▸ he)⟩
    have hlist := map_getD_congr .edge hkeys (fun _ => hc) (fun _ => hd) hvalue
    rw [List.map_map, List.map_map] at hlist
    exact congrArg Except.ok hlist
  · unfold Properties.column
    rw [hc, hd]
    rfl

/-! ### Graphs with the same edges in the same order -/

namespace Lists

variable (h : g.Lists es) (hnext : next.Lists es)
include h hnext

theorem edge?_congr : next.edge? = g.edge? := by
  funext e
  apply Option.ext
  intro edge
  constructor
  · intro hedge
    obtain rfl := edge?_id hedge
    exact (h.mem_iff edge).mp ((hnext.mem_iff edge).mpr hedge)
  · intro hedge
    obtain rfl := edge?_id hedge
    exact (hnext.mem_iff edge).mp ((h.mem_iff edge).mpr hedge)

theorem contains_congr (hvertex : ∀ v, next.containsVertex v ↔ g.containsVertex v) :
    next.contains = g.contains := by
  funext subject
  rw [Bool.eq_iff_iff]
  cases subject with
  | vertex v => exact hvertex v
  | edge e =>
    show next.containsEdge e ↔ g.containsEdge e
    rw [containsEdge_iff, containsEdge_iff, h.edge?_congr hnext]
  | graph => exact Iff.rfl

/-- Graphs with the same edges in the same order, the same vertices, the same declarations and the same
values agree. -/
theorem agrees (hvertex : ∀ v, next.containsVertex v ↔ g.containsVertex v)
    (htype : next.propertyType = g.propertyType)
    (hvalue : ∀ subject, g.contains subject → ∀ name,
      next.value subject name = g.value subject name) : g.Agrees next := by
  have hcontains := h.contains_congr hnext hvertex
  have hvertices : next.vertices = g.vertices := by
    apply eq_of_pairwise_lt next.pairwise_vertices g.pairwise_vertices
    intro v
    rw [mem_vertices, mem_vertices, hvertex]
  have hedges : next.edges = g.edges := by
    apply eq_of_pairwise_lt next.pairwise_edges g.pairwise_edges
    intro edge
    rw [h.mem_edges_iff, hnext.mem_edges_iff]
  have hnumVertices : next.numVertices = g.numVertices := by
    rw [← h.length_vertices, ← hnext.length_vertices, hvertices]
  have hnumEdges : next.numEdges = g.numEdges := by
    rw [← h.length_eq_numEdges, hnext.length_eq_numEdges]
  have hat {α : Type} (v : VertexId) (answer : α) : next.atVertex v answer = g.atVertex v answer := by
    unfold atVertex
    rw [show next.containsVertex v = g.containsVertex v from Bool.eq_iff_iff.mpr (hvertex v)]
  have hout (v : VertexId) : next.outgoing v = g.outgoing v := by rw [h.outgoing, hnext.outgoing]
  have hin (v : VertexId) : next.incoming v = g.incoming v := by rw [h.incoming, hnext.incoming]
  have htargets (v : VertexId) : next.targets v = g.targets v := by
    rw [h.targets_eq, hnext.targets_eq]
  have hsources (v : VertexId) : next.sources v = g.sources v := by
    rw [h.sources_eq, hnext.sources_eq]
  have hscope := propertyScope?_congr htype
  have hall : next.value = g.value := by
    funext subject name
    by_cases hs : g.contains subject
    · exact hvalue subject hs name
    · exact value_congr_of_not_contains htype hcontains hs
  constructor
  · exact hvertices
  · exact hedges
  · exact ⟨hnumVertices, hnumEdges⟩
  · exact hcontains
  · funext e
    unfold Graph.edge
    rw [h.edge?_congr hnext]
  · funext v
    rw [Graph.outEdges, hat, hout, Graph.outEdges]
  · funext v
    rw [Graph.inEdges, hat, hin, Graph.inEdges]
  · funext v
    rw [Graph.successors, hat, htargets, Graph.successors]
  · funext v
    rw [Graph.predecessors, hat, hsources, Graph.predecessors]
  · funext v
    rw [Graph.outNeighbors, hat, htargets, Graph.outNeighbors]
  · funext v
    rw [Graph.inNeighbors, hat, hsources, Graph.inNeighbors]
  · exact hscope
  · exact htype
  · exact hasProperty_congr htype
  · exact ⟨names_congr hscope, allNames_congr hscope⟩
  · exact hall
  · exact vertexValues_congr htype hvertices hall
  · exact edgeValues_congr htype hedges hall
  · unfold Graph.summary
    rw [hnumVertices, hnumEdges, names_congr hscope]

end Lists

end Graph

/-! ### Tables with the same elements -/

namespace SlotTable

variable {α : Type} {t next : SlotTable α}

/-- Two tables are the same but for the order in which free positions are taken. -/
structure Reordered (t next : SlotTable α) : Prop where
  slots : next.slots = t.slots
  live : next.live = t.live
  free : next.free.Perm t.free

theorem slots_eq_of_get? (hcapacity : next.capacity = t.capacity)
    (hget : ∀ i, next.get? i = t.get? i) : next.slots = t.slots := by
  apply Array.ext hcapacity
  intro i hi hi'
  have hslot := hget i
  unfold get? at hslot
  rwa [Array.getElem?_eq_getElem hi, Array.getElem?_eq_getElem hi', Option.join_some,
    Option.join_some] at hslot

/-- Well-formed tables with the same elements and as many slots have the same free positions. -/
theorem WellFormed.reordered (h : t.WellFormed) (hnext : next.WellFormed)
    (hcapacity : next.capacity = t.capacity) (hget : ∀ i, next.get? i = t.get? i) :
    t.Reordered next := by
  have hfree : next.free.Perm t.free := by
    refine (List.perm_ext_iff_of_nodup hnext.nodup h.nodup).mpr fun i => ?_
    rw [h.mem_free, hnext.mem_free, hcapacity, hget]
  have hlength := hfree.length_eq
  have hlive := h.live_add_free
  have hlive' := hnext.live_add_free
  exact ⟨slots_eq_of_get? hcapacity hget, by omega, hfree⟩

end SlotTable

/-! ### Twins -/

namespace Graph

variable {g next : Graph} {es fs : List Edge}

/-- Two graphs are the same but for the order in which free slots are used again. -/
structure Twins (g next : Graph) : Prop where
  vertexTable : g.vertexTable.Reordered next.vertexTable
  edgeTable : g.edgeTable.Reordered next.edgeTable
  properties : next.properties = g.properties

theorem Twins.vertexCapacity (h : g.Twins next) : next.vertexCapacity = g.vertexCapacity :=
  congrArg Array.size h.vertexTable.slots

theorem Agrees.containsVertex (h : g.Agrees next) (v : VertexId) :
    next.containsVertex v = g.containsVertex v :=
  congrFun h.contains (.vertex v)

/-- What a table holds for a vertex is what is listed at it. -/
theorem get?_vertexTable (g : Graph) (i : Nat) :
    g.vertexTable.get? i =
      if g.containsVertex ⟨i⟩ then some ⟨g.incoming ⟨i⟩, g.outgoing ⟨i⟩⟩ else none := by
  unfold containsVertex SlotTable.contains incoming outgoing
  cases g.vertexTable.get? i <;> rfl

theorem get?_edgeTable (g : Graph) (i : Nat) :
    g.edgeTable.get? i = (g.edge? ⟨i⟩).map fun e => ⟨e.source, e.target⟩ := by
  unfold edge?
  cases g.edgeTable.get? i <;> rfl

theorem Agrees.get?_vertexTable (h : g.Agrees next) (i : Nat) :
    next.vertexTable.get? i = g.vertexTable.get? i := by
  rw [Graph.get?_vertexTable, Graph.get?_vertexTable, h.containsVertex]
  split_ifs with hv
  · have hv' : next.containsVertex ⟨i⟩ := by rwa [h.containsVertex]
    have hout := congrFun h.outEdges ⟨i⟩
    have hin := congrFun h.inEdges ⟨i⟩
    unfold Graph.outEdges at hout
    unfold Graph.inEdges at hin
    rw [atVertex_of_contains hv, atVertex_of_contains hv'] at hout hin
    rw [Except.ok.inj hout, Except.ok.inj hin]
  · rfl

theorem Agrees.get?_edgeTable (h : g.Agrees next) (i : Nat) :
    next.edgeTable.get? i = g.edgeTable.get? i := by
  have hedge := congrFun h.edge ⟨i⟩
  have hedge? : next.edge? ⟨i⟩ = g.edge? ⟨i⟩ := by
    unfold Graph.edge at hedge
    cases hg : g.edge? ⟨i⟩ <;> cases hn : next.edge? ⟨i⟩ <;> simp_all
  rw [Graph.get?_edgeTable, Graph.get?_edgeTable, hedge?]

/-- Every slot is that of a subject. -/
theorem exists_subject {scope : Scope} {i : Nat} (h : i < g.slots scope) :
    ∃ subject : Subject, subject.scope = scope ∧ subject.slot = i := by
  cases scope with
  | vertex => exact ⟨.vertex ⟨i⟩, rfl, rfl⟩
  | edge => exact ⟨.edge ⟨i⟩, rfl, rfl⟩
  | graph => exact ⟨.graph, rfl, (Nat.lt_one_iff.mp h).symm⟩

/-- Columns of the same size that hold the same values, and the defaults in free slots, are the
same. -/
theorem Agrees.column_eq (h : g.Agrees next) (hslots : next.slots = g.slots)
    (haligned : g.Aligned ∧ next.Aligned) (hvacant : g.Vacant ∧ next.Vacant) {scope : Scope}
    {name : String} {c d : Column} (hc : g.properties.column? scope name = some c)
    (hd : next.properties.column? scope name = some d) (htype : d.type = c.type) : d = c := by
  have hsize : d.size = c.size := by
    rw [haligned.1 scope name c hc, haligned.2 scope name d hd, hslots]
  apply Column.ext_get? htype
  intro i
  rcases Nat.lt_or_ge i c.size with hi | hi
  · obtain ⟨subject, rfl, rfl⟩ := exists_subject ((haligned.1 scope name c hc) ▸ hi)
    have hcell : d.getD subject.slot = c.getD subject.slot := by
      by_cases hs : g.contains subject
      · have hs' : next.contains subject := by rwa [h.contains]
        have hread := congrFun (congrFun h.value subject) name
        rw [value_of_column? hc hs, value_of_column? hd hs'] at hread
        exact Except.ok.inj hread
      · have hs' : ¬ next.contains subject := by rwa [h.contains]
        rw [hvacant.1 subject name c hs hc, hvacant.2 subject name d hs' hd, htype]
    rw [Column.get?_eq_getD hi, Column.get?_eq_getD (hsize ▸ hi), hcell]
  · rw [Column.get?_eq_none_iff.mpr hi, Column.get?_eq_none_iff.mpr (hsize ▸ hi)]

/-- Properties with the same columns are the same. -/
theorem properties_ext
    (h : ∀ scope name, next.properties.column? scope name = g.properties.column? scope name) :
    next.properties = g.properties := by
  apply Std.ExtTreeMap.ext_getElem?
  intro name
  cases hg : g.properties[name]? with
  | some p =>
    have hcolumn := h p.scope name
    unfold Properties.column? at hcolumn
    rw [hg, Option.bind_some, if_pos rfl, Option.bind_eq_some_iff] at hcolumn
    obtain ⟨q, hq, hscope⟩ := hcolumn
    obtain ⟨hqp, hsame⟩ := Option.ite_none_right_eq_some.mp hscope
    obtain ⟨scope, column⟩ := q
    obtain ⟨scope', column'⟩ := p
    obtain rfl : scope = scope' := hqp
    obtain rfl : column = column' := Option.some.inj hsame
    exact hq
  | none =>
    by_contra hsome
    obtain ⟨q, hq⟩ := Option.ne_none_iff_exists'.mp hsome
    have hcolumn := h q.scope name
    unfold Properties.column? at hcolumn
    rw [hg, hq, Option.bind_some, if_pos rfl] at hcolumn
    cases hcolumn

/-- **Graphs that answer alike are the same**, but for the order in which free slots are used again, if
they have as many slots. -/
theorem Reachable.twins (h : g.Reachable) (hnext : next.Reachable) (hagrees : g.Agrees next)
    (hslots : next.slots = g.slots) : g.Twins next := by
  obtain ⟨es, hlists⟩ := h.lists
  obtain ⟨fs, hlists'⟩ := hnext.lists
  refine ⟨?_, ?_, ?_⟩
  · exact hlists.vertexTable.reordered hlists'.vertexTable (congrFun hslots .vertex)
      hagrees.get?_vertexTable
  · exact hlists.edgeTable.reordered hlists'.edgeTable (congrFun hslots .edge)
      hagrees.get?_edgeTable
  · apply properties_ext
    intro scope name
    rcases column?_cases hagrees.propertyType scope name with ⟨c, d, hc, hd, htype⟩ | ⟨hc, hd⟩
    · rw [hc, hd, hagrees.column_eq hslots ⟨h.aligned, hnext.aligned⟩ ⟨h.vacant, hnext.vacant⟩
        hc hd htype]
    · rw [hc, hd]

end Graph

end GraphGames
