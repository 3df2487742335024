import GraphGames.Proofs.Change
import GraphGames.Proofs.Success
import GraphGames.Proofs.SlotTable

/-!
# The edges of a graph as one list

The edges of a graph are kept in a table and, once more, in the lists at their ends. A single list
of edges with their ends, oldest first, says all of it: a new edge is put at its end, and a removal
takes edges out of it.

* `Graph.Lists`: a list holds the edges of a graph, and the tables agree with it;
* `Change.relist`: what a change makes of the list;
* `Graph.Lists.becomes`: the list that a change makes holds the edges of the graph that it makes;
* `Graph.lists_ledger`: along a chain of changes.
-/

namespace GraphGames

namespace Graph

/-- The list holds the edges of the graph, each once. Their ends are in the graph, and the edges at
a vertex are those of the list, in its order. -/
structure Lists (g : Graph) (es : List Edge) : Prop where
  vertexTable : g.vertexTable.WellFormed
  edgeTable : g.edgeTable.WellFormed
  nodup : (es.map Edge.id).Nodup
  mem_iff : ∀ e, e ∈ es ↔ g.edge? e.id = some e
  ends : ∀ e ∈ es, g.containsVertex e.source ∧ g.containsVertex e.target
  outgoing : ∀ v, g.outgoing v = (es.filter fun e => e.source = v).map Edge.id
  incoming : ∀ v, g.incoming v = (es.filter fun e => e.target = v).map Edge.id

variable {g next : Graph} {es : List Edge}

theorem edge?_id {e : EdgeId} {edge : Edge} (h : g.edge? e = some edge) : edge.id = e := by
  obtain ⟨ends, -, rfl⟩ := Option.map_eq_some_iff.mp h
  rfl

theorem containsEdge_iff {e : EdgeId} : g.containsEdge e ↔ ∃ edge, g.edge? e = some edge := by
  unfold containsEdge edge?
  rw [SlotTable.contains_iff]
  simp

/-! ### Additions -/

theorem containsVertex_addVertex (h : g.vertexTable.WellFormed) (v : VertexId) :
    g.addVertex.containsVertex v ↔ v = g.nextVertex ∨ g.containsVertex v := by
  unfold containsVertex addVertex nextVertex
  rw [SlotTable.contains_iff, SlotTable.contains_iff]
  simp only [h.get?_insert, VertexId.ext_iff]
  by_cases hv : g.vertexTable.nextSlot = v.index
  · simp [hv]
  · simp [hv, Ne.symm hv]

theorem outgoing_addVertex (h : g.vertexTable.WellFormed) (v : VertexId) :
    g.addVertex.outgoing v = g.outgoing v := by
  unfold outgoing addVertex
  simp only [h.get?_insert]
  split_ifs with hv
  · rw [← hv, h.get?_nextSlot]
    rfl
  · rfl

theorem incoming_addVertex (h : g.vertexTable.WellFormed) (v : VertexId) :
    g.addVertex.incoming v = g.incoming v := by
  unfold incoming addVertex
  simp only [h.get?_insert]
  split_ifs with hv
  · rw [← hv, h.get?_nextSlot]
    rfl
  · rfl

theorem edge?_nextEdge (h : g.edgeTable.WellFormed) : g.edge? g.nextEdge = none := by
  unfold edge? nextEdge
  rw [h.get?_nextSlot]
  rfl

theorem edge?_insertEdge (h : g.edgeTable.WellFormed) (source target : VertexId) (e : EdgeId) :
    (g.insertEdge source target).edge? e =
      if g.nextEdge = e then some ⟨e, source, target⟩ else g.edge? e := by
  unfold edge? insertEdge nextEdge
  simp only [h.get?_insert, EdgeId.ext_iff]
  split_ifs <;> rfl

theorem outgoing_insertEdge {source : VertexId} (hs : g.containsVertex source) (target v : VertexId) :
    (g.insertEdge source target).outgoing v =
      if source = v then g.outgoing v ++ [g.nextEdge] else g.outgoing v := by
  obtain ⟨incidence, hget⟩ := SlotTable.contains_iff.mp hs
  unfold outgoing insertEdge nextEdge
  simp only [SlotTable.get?_modify, ← VertexId.ext_iff]
  by_cases hsv : source = v
  · subst hsv
    split_ifs <;> simp [hget]
  · rw [if_neg hsv, if_neg hsv]
    split_ifs
    · cases g.vertexTable.get? v.index <;> rfl
    · rfl

theorem incoming_insertEdge (source : VertexId) {target : VertexId} (ht : g.containsVertex target)
    (v : VertexId) :
    (g.insertEdge source target).incoming v =
      if target = v then g.incoming v ++ [g.nextEdge] else g.incoming v := by
  obtain ⟨incidence, hget⟩ := SlotTable.contains_iff.mp ht
  unfold incoming insertEdge nextEdge
  simp only [SlotTable.get?_modify, ← VertexId.ext_iff]
  by_cases htv : target = v
  · subst htv
    split_ifs <;> simp [hget]
  · rw [if_neg htv, if_neg htv]
    split_ifs
    · cases g.vertexTable.get? v.index <;> rfl
    · rfl

/-! ### Removals -/

theorem removeEdge_of_none {e : EdgeId} (h : g.edge? e = none) : g.removeEdge e = g := by
  unfold removeEdge
  rw [Option.map_eq_none_iff.mp h]

theorem edge?_removeEdge (e f : EdgeId) :
    (g.removeEdge e).edge? f = if e = f then none else g.edge? f := by
  unfold edge? removeEdge
  cases hget : g.edgeTable.get? e.index with
  | none =>
    split_ifs with hef
    · rw [← hef, hget]
      rfl
    · rfl
  | some ends =>
    simp only [SlotTable.get?_remove, ← EdgeId.ext_iff]
    split_ifs <;> rfl

theorem containsVertex_removeEdge (e : EdgeId) (v : VertexId) :
    (g.removeEdge e).containsVertex v = g.containsVertex v := by
  unfold containsVertex removeEdge SlotTable.contains
  cases g.edgeTable.get? e.index with
  | none => rfl
  | some ends =>
    simp only [SlotTable.get?_modify]
    split_ifs <;> simp

theorem outgoing_removeEdge {e : EdgeId} {edge : Edge} (h : g.edge? e = some edge) (v : VertexId) :
    (g.removeEdge e).outgoing v =
      if edge.source = v then (g.outgoing v).filter (· ≠ e) else g.outgoing v := by
  obtain ⟨ends, hget, rfl⟩ := Option.map_eq_some_iff.mp h
  unfold outgoing removeEdge
  simp only [hget, SlotTable.get?_modify, ← VertexId.ext_iff]
  cases g.vertexTable.get? v.index with
  | none => split_ifs <;> rfl
  | some incidence => split_ifs <;> rfl

theorem incoming_removeEdge {e : EdgeId} {edge : Edge} (h : g.edge? e = some edge) (v : VertexId) :
    (g.removeEdge e).incoming v =
      if edge.target = v then (g.incoming v).filter (· ≠ e) else g.incoming v := by
  obtain ⟨ends, hget, rfl⟩ := Option.map_eq_some_iff.mp h
  unfold incoming removeEdge
  simp only [hget, SlotTable.get?_modify, ← VertexId.ext_iff]
  cases g.vertexTable.get? v.index with
  | none => split_ifs <;> rfl
  | some incidence => split_ifs <;> rfl

theorem mem_incident {v : VertexId} {e : EdgeId} :
    e ∈ g.incident v ↔ e ∈ g.incoming v ∨ e ∈ g.outgoing v := by
  unfold incident
  rw [Std.ExtTreeSet.mem_ofList]
  simp

/-- The graph without the edges at a vertex. -/
def bare (g : Graph) (v : VertexId) : Graph := (g.incident v).toList.foldl removeEdge g

theorem removeVertex_of_contains {v : VertexId} (h : g.containsVertex v) :
    g.removeVertex v =
      { g.bare v with
        vertexTable := (g.bare v).vertexTable.remove v.index
        properties := (g.bare v).properties.mapColumns .vertex (·.reset v.index) } := by
  rw [removeVertex, if_pos h]
  rfl

theorem containsVertex_bare (g : Graph) (v w : VertexId) :
    (g.bare v).containsVertex w = g.containsVertex w :=
  foldl_keeps (P := fun next => next.containsVertex w = g.containsVertex w)
    (fun _ e hmid => (containsVertex_removeEdge e w).trans hmid) _ rfl

theorem containsVertex_removeVertex {v w : VertexId} :
    (g.removeVertex v).containsVertex w ↔ g.containsVertex w ∧ w ≠ v := by
  by_cases hv : g.containsVertex v
  · rw [removeVertex_of_contains hv, ← containsVertex_bare g v w]
    unfold containsVertex SlotTable.contains
    rw [SlotTable.get?_remove, Ne, eq_comm (a := w), VertexId.ext_iff]
    by_cases hvw : v.index = w.index
    · simp [hvw]
    · simp [hvw]
  · rw [removeVertex, if_neg hv]
    refine (and_iff_left_of_imp fun hw => ?_).symm
    rintro rfl
    exact hv hw

/-! ### One list for all changes -/

namespace Lists

theorem unique (h : g.Lists es) {e f : Edge} (he : e ∈ es) (hf : f ∈ es) (hid : e.id = f.id) :
    e = f := by
  have hge := (h.mem_iff e).mp he
  rw [hid, (h.mem_iff f).mp hf] at hge
  exact (Option.some.inj hge).symm

/-- Only the two tables count. -/
theorem of_tables (h : g.Lists es) (hv : next.vertexTable = g.vertexTable)
    (he : next.edgeTable = g.edgeTable) : next.Lists es := by
  have hedge : next.edge? = g.edge? := by
    funext e
    rw [edge?, he, edge?]
  have hcontains : next.containsVertex = g.containsVertex := by
    funext v
    rw [containsVertex, hv, containsVertex]
  have hout : next.outgoing = g.outgoing := by
    funext v
    rw [Graph.outgoing, hv, Graph.outgoing]
  have hin : next.incoming = g.incoming := by
    funext v
    rw [Graph.incoming, hv, Graph.incoming]
  constructor
  · exact hv ▸ h.vertexTable
  · exact he ▸ h.edgeTable
  · exact h.nodup
  · exact hedge ▸ h.mem_iff
  · exact hcontains ▸ h.ends
  · exact hout ▸ h.outgoing
  · exact hin ▸ h.incoming

theorem empty : Graph.empty.Lists [] where
  vertexTable := SlotTable.wellFormed_empty
  edgeTable := SlotTable.wellFormed_empty
  nodup := List.nodup_nil
  mem_iff e := by simp [Graph.empty, edge?]
  ends := by simp
  outgoing v := by simp [Graph.empty, Graph.outgoing]
  incoming v := by simp [Graph.empty, Graph.incoming]

theorem addVertex (h : g.Lists es) : g.addVertex.Lists es where
  vertexTable := h.vertexTable.insert {}
  edgeTable := h.edgeTable
  nodup := h.nodup
  mem_iff := h.mem_iff
  ends e he := by
    simp only [containsVertex_addVertex h.vertexTable]
    exact ⟨.inr (h.ends e he).1, .inr (h.ends e he).2⟩
  outgoing v := by rw [outgoing_addVertex h.vertexTable, h.outgoing]
  incoming v := by rw [incoming_addVertex h.vertexTable, h.incoming]

theorem nextEdge_ne (h : g.Lists es) {e : Edge} (he : e ∈ es) : e.id ≠ g.nextEdge := by
  intro hid
  have := (h.mem_iff e).mp he
  rw [hid, edge?_nextEdge h.edgeTable] at this
  cases this

theorem insertEdge (h : g.Lists es) {source target : VertexId} (hs : g.containsVertex source)
    (ht : g.containsVertex target) :
    (g.insertEdge source target).Lists (es ++ [⟨g.nextEdge, source, target⟩]) where
  vertexTable := (h.vertexTable.modify _ _).modify _ _
  edgeTable := h.edgeTable.insert _
  nodup := by
    rw [List.map_append, List.map_singleton]
    refine h.nodup.append (List.nodup_singleton _) ?_
    intro e he hnew
    obtain ⟨edge, hmem, rfl⟩ := List.mem_map.mp he
    exact h.nextEdge_ne hmem (List.mem_singleton.mp hnew)
  mem_iff e := by
    rw [edge?_insertEdge h.edgeTable, List.mem_append, List.mem_singleton]
    split_ifs with hid
    · rw [Option.some.injEq]
      constructor
      · rintro (he | rfl)
        · exact absurd hid.symm (h.nextEdge_ne he)
        · rfl
      · intro he
        exact .inr (by rw [hid, he])
    · rw [h.mem_iff]
      refine or_iff_left fun he => hid ?_
      rw [he]
  ends e he := by
    simp only [containsVertex_insertEdge]
    rcases List.mem_append.mp he with he | he
    · exact h.ends e he
    · rw [List.mem_singleton.mp he]
      exact ⟨hs, ht⟩
  outgoing v := by
    rw [outgoing_insertEdge hs, h.outgoing, List.filter_append, List.map_append]
    by_cases hv : source = v <;> simp [hv]
  incoming v := by
    rw [incoming_insertEdge source ht, h.incoming, List.filter_append, List.map_append]
    by_cases hv : target = v <;> simp [hv]

/-- Filtering the handles of some edges is filtering the edges. -/
theorem filter_map_id (p : Edge → Bool) (e : EdgeId) (es : List Edge) :
    ((es.filter p).map Edge.id).filter (· ≠ e) =
      ((es.filter (·.id ≠ e)).filter p).map Edge.id := by
  rw [List.filter_map, List.filter_filter, List.filter_filter]
  congr 1
  apply List.filter_congr
  intro edge _
  exact Bool.and_comm ..

/-- An edge that is not of the graph is not in the list. -/
theorem filter_of_none (h : g.Lists es) {e : EdgeId} (hnone : g.edge? e = none) :
    es.filter (·.id ≠ e) = es := by
  apply List.filter_eq_self.mpr
  intro edge hmem
  have hget := (h.mem_iff edge).mp hmem
  apply decide_eq_true
  intro hid
  rw [hid, hnone] at hget
  cases hget

/-- Edges among which one does not count are the same without it. -/
theorem filter_map_id_of_not (h : g.Lists es) {gone : Edge} (hgone : gone ∈ es) (p : Edge → Bool)
    (hp : p gone = false) :
    ((es.filter (·.id ≠ gone.id)).filter p).map Edge.id = (es.filter p).map Edge.id := by
  rw [List.filter_filter]
  congr 1
  apply List.filter_congr
  intro edge hmem
  by_cases hmatch : edge.id = gone.id
  · rw [h.unique hmem hgone hmatch, hp]
    rfl
  · simp [hmatch]

theorem removeEdge (h : g.Lists es) (e : EdgeId) :
    (g.removeEdge e).Lists (es.filter (·.id ≠ e)) := by
  cases hedge : g.edge? e with
  | none =>
    rw [removeEdge_of_none hedge, h.filter_of_none hedge]
    exact h
  | some gone =>
    obtain rfl := edge?_id hedge
    have hgone := (h.mem_iff gone).mpr hedge
    obtain ⟨ends, hget, -⟩ := Option.map_eq_some_iff.mp hedge
    constructor
    · unfold Graph.removeEdge
      rw [hget]
      exact (h.vertexTable.modify _ _).modify _ _
    · unfold Graph.removeEdge
      rw [hget]
      exact h.edgeTable.remove _
    · exact (List.filter_sublist.map Edge.id).nodup h.nodup
    · intro edge
      rw [edge?_removeEdge, List.mem_filter, decide_eq_true_iff, h.mem_iff]
      split_ifs with hmatch
      · simp [hmatch]
      · simp [Ne.symm hmatch]
    · intro edge hmem
      simp only [containsVertex_removeEdge]
      exact h.ends edge (List.mem_filter.mp hmem).1
    · intro v
      rw [outgoing_removeEdge hedge, h.outgoing]
      split_ifs with hv
      · exact filter_map_id _ gone.id es
      · exact (h.filter_map_id_of_not hgone _ (decide_eq_false hv)).symm
    · intro v
      rw [incoming_removeEdge hedge, h.incoming]
      split_ifs with hv
      · exact filter_map_id _ gone.id es
      · exact (h.filter_map_id_of_not hgone _ (decide_eq_false hv)).symm

theorem foldl_removeEdge (h : g.Lists es) (xs : List EdgeId) :
    (xs.foldl Graph.removeEdge g).Lists (es.filter (·.id ∉ xs)) := by
  induction xs generalizing g es with
  | nil => simpa using h
  | cons e xs ih =>
    have hnext := ih (h.removeEdge e)
    rw [List.filter_filter] at hnext
    have hboth : es.filter (·.id ∉ e :: xs) =
        es.filter fun edge => decide (edge.id ∉ xs) && decide (edge.id ≠ e) := by
      apply List.filter_congr
      intro edge _
      simp [Bool.and_comm]
    rw [hboth]
    exact hnext

/-- The edges that touch a vertex are those in its lists. -/
theorem id_mem_incident (h : g.Lists es) {e : Edge} (he : e ∈ es) (v : VertexId) :
    e.id ∈ g.incident v ↔ e.source = v ∨ e.target = v := by
  rw [mem_incident, h.incoming, h.outgoing, List.mem_map, List.mem_map]
  constructor
  · rintro (⟨f, hf, hid⟩ | ⟨f, hf, hid⟩)
    all_goals
      obtain ⟨hmem, hend⟩ := List.mem_filter.mp hf
      obtain rfl := h.unique hmem he hid
    · exact .inr (of_decide_eq_true hend)
    · exact .inl (of_decide_eq_true hend)
  · rintro (rfl | rfl)
    · exact .inr ⟨e, List.mem_filter.mpr ⟨he, decide_eq_true rfl⟩, rfl⟩
    · exact .inl ⟨e, List.mem_filter.mpr ⟨he, decide_eq_true rfl⟩, rfl⟩

theorem bare (h : g.Lists es) (v : VertexId) :
    (g.bare v).Lists (es.filter fun e => e.source ≠ v ∧ e.target ≠ v) := by
  have hfold := h.foldl_removeEdge (g.incident v).toList
  have hkeep : es.filter (·.id ∉ (g.incident v).toList) =
      es.filter fun e => e.source ≠ v ∧ e.target ≠ v := by
    apply List.filter_congr
    intro e he
    rw [decide_eq_decide, Std.ExtTreeSet.mem_toList, h.id_mem_incident he, not_or]
  rw [hkeep] at hfold
  exact hfold

/-- No edge is left at a vertex that was bared. -/
theorem outgoing_bare (h : g.Lists es) (v : VertexId) : (g.bare v).outgoing v = [] := by
  rw [(h.bare v).outgoing, List.filter_filter, List.filter_eq_nil_iff.mpr, List.map_nil]
  intro e _
  simp only [Bool.and_eq_true, decide_eq_true_eq, not_and]
  intro hs hne
  exact absurd hs hne

theorem incoming_bare (h : g.Lists es) (v : VertexId) : (g.bare v).incoming v = [] := by
  rw [(h.bare v).incoming, List.filter_filter, List.filter_eq_nil_iff.mpr, List.map_nil]
  intro e _
  simp only [Bool.and_eq_true, decide_eq_true_eq, not_and]
  intro ht _ hne
  exact hne ht

/-- No edge touches a vertex that is not of the graph. -/
theorem filter_of_not_contains (h : g.Lists es) {v : VertexId} (hv : ¬ g.containsVertex v) :
    (es.filter fun e => e.source ≠ v ∧ e.target ≠ v) = es := by
  apply List.filter_eq_self.mpr
  intro e he
  refine decide_eq_true ⟨?_, ?_⟩
  · rintro rfl
    exact hv (h.ends e he).1
  · rintro rfl
    exact hv (h.ends e he).2

theorem removeVertex (h : g.Lists es) (v : VertexId) :
    (g.removeVertex v).Lists (es.filter fun e => e.source ≠ v ∧ e.target ≠ v) := by
  by_cases hv : g.containsVertex v
  · have hbare := h.bare v
    rw [removeVertex_of_contains hv]
    constructor
    · exact hbare.vertexTable.remove _
    · exact hbare.edgeTable
    · exact hbare.nodup
    · exact hbare.mem_iff
    · intro e he
      obtain ⟨hs, ht⟩ := hbare.ends e he
      obtain ⟨hsv, htv⟩ := of_decide_eq_true (List.mem_filter.mp he).2
      unfold containsVertex SlotTable.contains at hs ht ⊢
      simp only [SlotTable.get?_remove, ← VertexId.ext_iff]
      rw [if_neg (Ne.symm hsv), if_neg (Ne.symm htv)]
      exact ⟨hs, ht⟩
    -- the lists of the vertex are empty before they go
    · intro w
      rw [← hbare.outgoing]
      by_cases hw : v = w
      · rw [← hw, h.outgoing_bare]
        simp [Graph.outgoing]
      · simp [Graph.outgoing, ← VertexId.ext_iff, hw]
    · intro w
      rw [← hbare.incoming]
      by_cases hw : v = w
      · rw [← hw, h.incoming_bare]
        simp [Graph.incoming]
      · simp [Graph.incoming, ← VertexId.ext_iff, hw]
  · rw [Graph.removeVertex, if_neg hv, h.filter_of_not_contains hv]
    exact h

end Lists

/-- A declaration adds a column of unset cells under a name that was free. -/
theorem of_declared {scope : Scope} {name : String} {type : ValueType}
    (h : g.declared scope name type = .ok next) :
    g.propertyScope? name = none ∧ next = { g with
      properties := g.properties.insert name ⟨scope, .defaults type (g.slots scope)⟩ } := by
  unfold declared Properties.declare Properties.requireFree at h
  cases hs : g.properties.scope? name with
  | some existing =>
    rw [hs] at h
    cases h
  | none =>
    rw [hs] at h
    cases h
    exact ⟨hs, rfl⟩

/-- A setting replaces the column of its name, by one in which a cell of a subject of the graph is
set. -/
theorem of_withValue {fresh : Nat} {subject : Subject} {name : String} {value : Value}
    (h : g.withValue fresh subject name value = .ok next) :
    ∃ column datum, g.properties.column subject.scope name = .ok column ∧
      g.require subject = .ok () ∧ value.coerce fresh column.type = .ok datum ∧
      next = { g with
        properties := g.properties.setColumn name (column.put subject.slot datum) } := by
  obtain ⟨column, hc, h⟩ := bind_eq_ok_iff.mp h
  obtain ⟨⟨⟩, hr, h⟩ := bind_eq_ok_iff.mp h
  unfold Column.set at h
  cases hdatum : value.coerce fresh column.type with
  | error found =>
    rw [hdatum] at h
    cases h
  | ok datum =>
    rw [hdatum] at h
    cases h
    exact ⟨column, datum, hc, hr, hdatum, rfl⟩

end Graph

/-- What a change makes of the list of all edges. -/
def Change.relist (es : List Edge) : Change → List Edge
  | insertEdge e => es ++ [e]
  | removeVertex v => es.filter fun e => e.source ≠ v ∧ e.target ≠ v
  | removeEdge e => es.filter (·.id ≠ e)
  | _ => es

namespace Graph

variable {g next : Graph} {es : List Edge}

/-- The list that a change makes holds the edges of the graph that it makes. -/
theorem Lists.becomes (h : g.Lists es) {c : Change} (hc : g.Becomes c next) :
    next.Lists (c.relist es) := by
  cases hc with
  | addVertex => exact h.addVertex
  | insertEdge source target hs ht => exact h.insertEdge hs ht
  | removeVertex v => exact h.removeVertex v
  | removeEdge e => exact h.removeEdge e
  | declare hd =>
    obtain ⟨-, rfl⟩ := of_declared hd
    exact h.of_tables rfl rfl
  | setValue hs =>
    obtain ⟨column, datum, -, -, -, rfl⟩ := of_withValue hs
    exact h.of_tables rfl rfl

theorem Lists.leads {cs : List Change} (h : g.Lists es) (hleads : g.Leads cs next) :
    next.Lists (cs.foldl Change.relist es) := by
  induction hleads with
  | refl => exact h
  | step _ hc ih =>
    rw [List.foldl_concat]
    exact ih.becomes hc

/-- The list of all edges after a chain of changes of the empty graph. -/
def ledger (cs : List Change) : List Edge := cs.foldl Change.relist []

theorem lists_ledger {cs : List Change} (h : Graph.empty.Leads cs g) : g.Lists (ledger cs) :=
  Lists.empty.leads h

/-- A reachable graph has its edges in a list. -/
theorem Reachable.lists (h : Reachable g) : ∃ es, g.Lists es := by
  obtain ⟨history, rfl⟩ := reachable_iff_after.mp h
  exact ⟨_, lists_ledger (leads_after history Graph.empty)⟩

end Graph

end GraphGames
