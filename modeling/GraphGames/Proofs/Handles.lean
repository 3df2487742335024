import GraphGames.Proofs.Ledger
import GraphGames.Proofs.SlotHistory

/-!
# How handles are allocated

The handles of vertices and edges are positions of two slot tables. Every history of a graph is a
history of each of them, so handles are allocated as positions are: the one that was freed last is
taken first, and there are as many slots as there were vertices, or edges, at a time.

* `SlotTable.positions`: a table without what its elements are, since the lists of a vertex change;
* `Change.vertexCalls`, `Graph.edgeCalls`: what changes of a graph do to the tables;
* `Graph.Leads.positions`, `Graph.Leads.edgeTable`: the tables at the end of a chain of changes;
* `Graph.handles_allocated`: the allocation of positions, over all histories of tables and graphs.
-/

namespace GraphGames

/-! ### The positions of a table -/

namespace SlotTable

variable {α : Type} {t : SlotTable α}

/-- The table without what its elements are. -/
def positions (t : SlotTable α) : SlotTable Unit :=
  { slots := t.slots.map (·.map fun _ => ()), free := t.free, live := t.live }

@[simp] theorem get?_positions (t : SlotTable α) (i : Nat) :
    t.positions.get? i = (t.get? i).map fun _ => () := by
  unfold get? positions
  cases h : t.slots[i]? with
  | none => simp [h]
  | some slot => simp [h]

@[simp] theorem contains_positions (t : SlotTable α) (i : Nat) :
    t.positions.contains i = t.contains i := by
  simp [contains]

@[simp] theorem capacity_positions (t : SlotTable α) : t.positions.capacity = t.capacity := by
  simp [positions, capacity]

theorem positions_empty : (empty : SlotTable α).positions = empty := by
  simp [empty, positions]

theorem positions_insert (t : SlotTable α) (a : α) :
    (t.insert a).positions = t.positions.insert () := by
  unfold insert positions
  cases t.free with
  | nil => simp
  | cons i rest => simp

theorem positions_remove (t : SlotTable α) (i : Nat) :
    (t.remove i).positions = t.positions.remove i := by
  by_cases hi : t.contains i
  · unfold remove
    rw [contains_positions, if_pos hi, if_pos hi]
    simp [positions]
  · rw [remove_of_not_contains hi, remove_of_not_contains (by simpa using hi)]

@[simp] theorem positions_modify (t : SlotTable α) (i : Nat) (f : α → α) :
    (t.modify i f).positions = t.positions := by
  have hslots : (t.slots.modify i (·.map f)).map (·.map fun _ => ()) =
      t.slots.map (·.map fun _ => ()) := by
    apply Array.ext_getElem?
    intro j
    rw [Array.getElem?_map, Array.getElem?_map, Array.getElem?_modify]
    split
    · simp [Option.map_map, Function.comp_def]
    · rfl
  unfold modify positions
  rw [hslots]

theorem WellFormed.positions (h : t.WellFormed) : t.positions.WellFormed where
  nodup := h.nodup
  mem_free i := by
    rw [capacity_positions, get?_positions, Option.map_eq_none_iff]
    exact h.mem_free i
  live_add_free := by
    rw [capacity_positions]
    exact h.live_add_free

end SlotTable

open SlotTable (Call)

/-! ### What changes do to the tables -/

/-- The edges of a list that touch a vertex. -/
def touching (es : List Edge) (v : VertexId) : EdgeSet :=
  Std.ExtTreeSet.ofList ((es.filter fun e => e.source = v ∨ e.target = v).map Edge.id)

namespace Change

/-- Whether a change takes something out of the graph. -/
def removes : Change → Bool
  | removeVertex _ => true
  | removeEdge _ => true
  | _ => false

/-- What a change does to the positions of vertices. -/
def vertexCalls : Change → List (Call Unit)
  | addVertex _ => [.insert ()]
  | removeVertex v => [.remove v.index]
  | _ => []

/-- What a change does to the table of edges, when these are the edges of the graph. With a vertex
its edges go, in ascending order. -/
def edgeCalls (es : List Edge) : Change → List (Call Endpoints)
  | insertEdge e => [.insert ⟨e.source, e.target⟩]
  | removeEdge e => [.remove e.index]
  | removeVertex v => (touching es v).toList.map fun e => .remove e.index
  | _ => []

theorem isInsert_of_vertexCalls {c : Change} {call : Call Unit} (h : call ∈ c.vertexCalls) :
    call.isInsert = !c.removes := by
  cases c with
  | addVertex v =>
    rw [List.mem_singleton.mp h]
    rfl
  | removeVertex v =>
    rw [List.mem_singleton.mp h]
    rfl
  | insertEdge => cases h
  | removeEdge => cases h
  | declare => cases h
  | setValue => cases h

theorem isInsert_of_edgeCalls {c : Change} {es : List Edge} {call : Call Endpoints}
    (h : call ∈ c.edgeCalls es) : call.isInsert = !c.removes := by
  cases c with
  | removeVertex v =>
    obtain ⟨e, -, rfl⟩ := List.mem_map.mp h
    rfl
  | insertEdge e =>
    rw [List.mem_singleton.mp h]
    rfl
  | removeEdge e =>
    rw [List.mem_singleton.mp h]
    rfl
  | addVertex => cases h
  | declare => cases h
  | setValue => cases h

end Change

theorem Change.mem_told {α : Type} {tell : α → List Change} {answer : Except Error α} {c : Change}
    (h : c ∈ told tell answer) : ∃ a, answer = .ok a ∧ c ∈ tell a := by
  cases answer with
  | ok a => exact ⟨a, rfl, h⟩
  | error e => cases h

theorem Graph.eq_setValue_of_mem_settings {name : String} {entries : List (Nat × Subject × Value)}
    {g : Graph} {c : Change} (h : c ∈ g.settings name entries) :
    ∃ fresh subject value, c = .setValue fresh subject name value := by
  induction entries generalizing g with
  | nil => cases h
  | cons entry entries ih =>
    obtain ⟨fresh, subject, value⟩ := entry
    unfold Graph.settings at h
    split at h
    · rcases List.mem_cons.mp h with rfl | h
      · exact ⟨fresh, subject, value, rfl⟩
      · exact ih h
    · cases h

/-- An operation takes things out of the graph, or puts something in, but does not do both. -/
theorem Operation.removes_changes (op : Operation) (g : Graph) :
    ∃ b, ∀ c ∈ op.changes g, c.removes = b := by
  cases op with
  | addVertex =>
    refine ⟨false, fun c hc => ?_⟩
    rw [List.mem_singleton.mp hc]
    rfl
  | addEdge | declare | setValue =>
    refine ⟨false, fun c hc => ?_⟩
    obtain ⟨a, -, hc⟩ := Change.mem_told hc
    rw [List.mem_singleton.mp hc]
    rfl
  | addVertices | addEdges =>
    refine ⟨false, fun c hc => ?_⟩
    obtain ⟨as, -, hc⟩ := Change.mem_told hc
    obtain ⟨a, -, rfl⟩ := List.mem_map.mp hc
    rfl
  | setValues =>
    refine ⟨false, fun c hc => ?_⟩
    obtain ⟨fresh, subject, value, rfl⟩ := Graph.eq_setValue_of_mem_settings hc
    rfl
  | removeVertex | removeEdge =>
    refine ⟨true, fun c hc => ?_⟩
    rw [List.mem_singleton.mp hc]
    rfl
  | removeVertices | removeEdges =>
    refine ⟨true, fun c hc => ?_⟩
    obtain ⟨a, -, rfl⟩ := List.mem_map.mp hc
    rfl

namespace Graph

variable {g next : Graph} {es : List Edge} {cs : List Change} {c : Change}

/-- What changes do to the table of edges, when these are the edges of the graph before. -/
def edgeCalls : List Edge → List Change → List (Call Endpoints)
  | _, [] => []
  | es, c :: cs => c.edgeCalls es ++ edgeCalls (c.relist es) cs

theorem edgeCalls_append_singleton (es : List Edge) (cs : List Change) (c : Change) :
    edgeCalls es (cs ++ [c]) = edgeCalls es cs ++ c.edgeCalls (cs.foldl Change.relist es) := by
  induction cs generalizing es with
  | nil => simp [edgeCalls]
  | cons d cs ih => simp [edgeCalls, ih]

theorem positions_removeEdge (g : Graph) (e : EdgeId) :
    (g.removeEdge e).vertexTable.positions = g.vertexTable.positions := by
  unfold removeEdge
  cases g.edgeTable.get? e.index with
  | none => rfl
  | some ends => simp

theorem positions_foldl_removeEdge (g : Graph) (xs : List EdgeId) :
    (xs.foldl removeEdge g).vertexTable.positions = g.vertexTable.positions := by
  induction xs generalizing g with
  | nil => rfl
  | cons e xs ih => rw [List.foldl_cons, ih, positions_removeEdge]

theorem Becomes.positions (h : g.Becomes c next) :
    next.vertexTable.positions = g.vertexTable.positions.after c.vertexCalls := by
  cases h with
  | addVertex => exact SlotTable.positions_insert _ _
  | insertEdge source target =>
    exact (SlotTable.positions_modify ..).trans (SlotTable.positions_modify ..)
  | removeVertex v =>
    show _ = g.vertexTable.positions.remove v.index
    by_cases hv : g.containsVertex v
    · rw [removeVertex_of_contains hv, SlotTable.positions_remove]
      exact congrArg (·.remove v.index) (positions_foldl_removeEdge g _)
    · have hnot : ¬ g.vertexTable.positions.contains v.index := by
        rw [SlotTable.contains_positions]
        exact hv
      rw [SlotTable.remove_of_not_contains hnot, Graph.removeVertex, if_neg hv]
  | removeEdge e => exact positions_removeEdge g e
  | declare hd =>
    obtain ⟨-, rfl⟩ := of_declared hd
    rfl
  | setValue hs =>
    obtain ⟨column, datum, -, -, -, rfl⟩ := of_withValue hs
    rfl

theorem edgeTable_removeEdge (g : Graph) (e : EdgeId) :
    (g.removeEdge e).edgeTable = g.edgeTable.remove e.index := by
  unfold removeEdge
  cases hget : g.edgeTable.get? e.index with
  | none =>
    rw [SlotTable.remove_of_not_contains]
    simp [SlotTable.contains, hget]
  | some ends => rfl

theorem edgeTable_foldl_removeEdge (g : Graph) (xs : List EdgeId) :
    (xs.foldl removeEdge g).edgeTable = g.edgeTable.after (xs.map fun e => .remove e.index) := by
  induction xs generalizing g with
  | nil => rfl
  | cons e xs ih =>
    rw [List.foldl_cons, ih, edgeTable_removeEdge]
    rfl

/-- The edges at a vertex, found in the list of all edges. -/
theorem Lists.incident_eq (h : g.Lists es) (v : VertexId) : g.incident v = touching es v := by
  apply Std.ExtTreeSet.ext_mem
  intro e
  unfold touching
  rw [Std.ExtTreeSet.mem_ofList, List.contains_iff_mem, List.mem_map]
  constructor
  · intro he
    have hmem := mem_incident.mp he
    rw [h.incoming, h.outgoing, List.mem_map, List.mem_map] at hmem
    rcases hmem with ⟨edge, hedge, rfl⟩ | ⟨edge, hedge, rfl⟩
    all_goals
      obtain ⟨hedge, hend⟩ := List.mem_filter.mp hedge
      refine ⟨edge, List.mem_filter.mpr ⟨hedge, ?_⟩, rfl⟩
      simp [of_decide_eq_true hend]
  · rintro ⟨edge, hedge, rfl⟩
    obtain ⟨hedge, hend⟩ := List.mem_filter.mp hedge
    exact (h.id_mem_incident hedge v).mpr (of_decide_eq_true hend)

/-- What is not in the graph has no edges. -/
theorem incident_of_not_contains {v : VertexId} (hv : ¬ g.containsVertex v) :
    (g.incident v).toList = [] := by
  have hget : g.vertexTable.get? v.index = none :=
    SlotTable.contains_eq_false_iff.mp (Bool.eq_false_iff.mpr hv)
  apply Std.ExtTreeSet.toList_eq_nil_iff.mpr
  unfold incident incoming outgoing
  simp [hget]

theorem Becomes.edgeTable (h : g.Becomes c next) (hlists : g.Lists es) :
    next.edgeTable = g.edgeTable.after (c.edgeCalls es) := by
  cases h with
  | addVertex => rfl
  | insertEdge source target => rfl
  | removeVertex v =>
    show _ = g.edgeTable.after ((touching es v).toList.map fun e => .remove e.index)
    rw [← hlists.incident_eq]
    by_cases hv : g.containsVertex v
    · rw [removeVertex_of_contains hv]
      exact edgeTable_foldl_removeEdge g _
    · rw [Graph.removeVertex, if_neg hv, incident_of_not_contains hv]
      rfl
  | removeEdge e => exact edgeTable_removeEdge g e
  | declare hd =>
    obtain ⟨-, rfl⟩ := of_declared hd
    rfl
  | setValue hs =>
    obtain ⟨column, datum, -, -, -, rfl⟩ := of_withValue hs
    rfl

theorem mem_edgeCalls {call : Call Endpoints} (h : call ∈ edgeCalls es cs) :
    ∃ c ∈ cs, call.isInsert = !c.removes := by
  induction cs generalizing es with
  | nil => cases h
  | cons c cs ih =>
    rcases List.mem_append.mp h with h | h
    · exact ⟨c, List.mem_cons_self, Change.isInsert_of_edgeCalls h⟩
    · obtain ⟨d, hd, hinsert⟩ := ih h
      exact ⟨d, List.mem_cons_of_mem c hd, hinsert⟩

theorem Leads.positions (h : g.Leads cs next) :
    next.vertexTable.positions =
      g.vertexTable.positions.after (cs.flatMap Change.vertexCalls) := by
  induction h with
  | refl => rfl
  | step _ hc ih =>
    rw [List.flatMap_append, SlotTable.after_append, ← ih, List.flatMap_singleton]
    exact hc.positions

theorem Leads.edgeTable (h : g.Leads cs next) (hlists : g.Lists es) :
    next.edgeTable = g.edgeTable.after (edgeCalls es cs) := by
  induction h with
  | refl => rfl
  | step hleads hc ih =>
    rw [edgeCalls_append_singleton, SlotTable.after_append, ← ih]
    exact hc.edgeTable (hlists.leads hleads)

theorem Leads.recycles_vertexTable (h : empty.Leads cs g) :
    g.vertexTable.Recycles (SlotTable.empty.freed (cs.flatMap Change.vertexCalls)) := by
  have hlog := SlotTable.Recycles.empty.after SlotTable.wellFormed_empty
    (cs.flatMap Change.vertexCalls)
  have hpositions := h.positions
  rw [show empty.vertexTable.positions = SlotTable.empty from SlotTable.positions_empty]
    at hpositions
  rw [List.append_nil, ← hpositions] at hlog
  exact hlog.of_free (SlotTable.capacity_positions _).symm rfl

theorem Leads.recycles_edgeTable (h : empty.Leads cs g) :
    g.edgeTable.Recycles (SlotTable.empty.freed (edgeCalls [] cs)) := by
  have hlog := SlotTable.Recycles.empty.after SlotTable.wellFormed_empty (edgeCalls [] cs)
  have hedges : g.edgeTable = SlotTable.empty.after (edgeCalls [] cs) := h.edgeTable Lists.empty
  rw [List.append_nil, ← hedges] at hlog
  exact hlog

/-! ### As many slots as there were entities at a time -/

/-- Calls that are insertions iff nothing is taken out are insertions, or removals. -/
theorem insertions_or_removals {α : Type} {calls : List (Call α)} {b : Bool}
    (h : ∀ call ∈ calls, call.isInsert = !b) :
    (∀ call ∈ calls, call.isInsert) ∨ ∀ call ∈ calls, ¬ call.isInsert := by
  cases b with
  | false => exact .inl h
  | true => exact .inr fun call hcall => by simp [h call hcall]

/-- An operation adds slots for vertices when it needs them. -/
theorem Lists.vertexCapacity_apply (h : g.Lists es) (op : Operation) :
    (op.apply g).vertexTable.capacity =
      max g.vertexTable.capacity (op.apply g).vertices.length := by
  obtain ⟨b, hb⟩ := op.removes_changes g
  have hcalls : ∀ call ∈ (op.changes g).flatMap Change.vertexCalls, call.isInsert = !b := by
    intro call hcall
    obtain ⟨c, hc, hcall⟩ := List.mem_flatMap.mp hcall
    rw [Change.isInsert_of_vertexCalls hcall, hb c hc]
  have hafter := h.vertexTable.positions.capacity_after (insertions_or_removals hcalls)
  rw [← (op.leads g).positions, SlotTable.capacity_positions, SlotTable.capacity_positions] at hafter
  rw [vertices, List.length_map, (h.leads (op.leads g)).vertexTable.length_entries]
  exact hafter

/-- An operation adds slots for edges when it needs them. -/
theorem Lists.edgeCapacity_apply (h : g.Lists es) (op : Operation) :
    (op.apply g).edgeTable.capacity = max g.edgeTable.capacity (op.apply g).edges.length := by
  obtain ⟨b, hb⟩ := op.removes_changes g
  have hcalls : ∀ call ∈ edgeCalls es (op.changes g), call.isInsert = !b := by
    intro call hcall
    obtain ⟨c, hc, hinsert⟩ := mem_edgeCalls hcall
    rw [hinsert, hb c hc]
  have hafter := h.edgeTable.capacity_after (insertions_or_removals hcalls)
  rw [← (op.leads g).edgeTable h] at hafter
  rw [edges, List.length_map, (h.leads (op.leads g)).edgeTable.length_entries]
  exact hafter

/-- **Handles are allocated as slots are.** After every sequence of insertions and removals the
positions of a table are allocated: the free ones are the empty slots, each listed once, the number of
elements is right, no insertion touches an element, the position that was freed last is taken first,
and there are as many slots as there were elements at a time. The tables of vertices and of edges at
the end of a history of a graph are such tables, with as many slots as the graph had vertices, or
edges, at a time. -/
theorem handles_allocated :
    (∀ {α : Type} (calls : List (Call α)),
      ((SlotTable.empty : SlotTable α).after calls).Allocated (SlotTable.empty.freed calls)
        {n | ∃ before, before <+: calls ∧
          ((SlotTable.empty : SlotTable α).after before).entries.length = n}) ∧
    ∀ history : List Operation,
      (empty.after history).vertexTable.Allocated
        (SlotTable.empty.freed ((empty.changes history).flatMap Change.vertexCalls))
        {n | ∃ before, before <+: history ∧ (empty.after before).vertices.length = n} ∧
      (empty.after history).edgeTable.Allocated
        (SlotTable.empty.freed (edgeCalls [] (empty.changes history)))
        {n | ∃ before, before <+: history ∧ (empty.after before).edges.length = n} := by
  refine ⟨SlotTable.allocated_after, fun history => ?_⟩
  have hleads := leads_after history empty
  have hlists := Lists.empty.leads hleads
  have hstep (g : Graph) (op : Operation) (h : Reachable g) : Reachable (op.apply g) := h.step op
  constructor
  · apply hlists.vertexTable.allocated hleads.recycles_vertexTable
    refine isGreatest_foldl (fun g op => op.apply g) Reachable (fun g => g.vertexTable.capacity)
      (fun g => g.vertices.length) hstep ?_ .empty rfl history
    intro g op h
    obtain ⟨es, hes⟩ := h.lists
    exact hes.vertexCapacity_apply op
  · apply hlists.edgeTable.allocated hleads.recycles_edgeTable
    refine isGreatest_foldl (fun g op => op.apply g) Reachable (fun g => g.edgeTable.capacity)
      (fun g => g.edges.length) hstep ?_ .empty rfl history
    intro g op h
    obtain ⟨es, hes⟩ := h.lists
    exact hes.edgeCapacity_apply op

end Graph

end GraphGames
