import GraphGames.Proofs.Ledger

/-!
# The edges at a vertex

What is asked about a vertex is answered from the lists that are kept there. The answers are those
that the edge table would give, in the order in which the edges came about.

* `Graph.Lists.perm_edges`, `sources_eq`, `targets_eq`: the answers in terms of the list of all
  edges;
* `latest?`, `age`: the last edge made under a handle, and how many were made since;
* `Change.Drops`, `Lasts`, `Stands`: what a log of changes has made and not taken away again, which is
  what is in the graph by `mem_ledger_iff` and `contains_iff_stands`;
* `Graph.Indexed`, `Graph.indexed_after`: the lists at the vertices against the edge table and
  against the changes that a history reports.
-/

namespace GraphGames

/-- A change that takes an edge away, by itself or with one of its ends. -/
def Change.Drops (c : Change) (e : Edge) : Prop :=
  match c with
  | removeVertex v => e.source = v ∨ e.target = v
  | removeEdge f => e.id = f
  | _ => False

namespace Graph

variable {g : Graph} {es : List Edge}

/-- The vertices are listed in ascending order. -/
theorem pairwise_vertices (g : Graph) : g.vertices.Pairwise fun v w => v.index < w.index :=
  List.pairwise_map.mpr g.vertexTable.pairwise_entries

theorem nodup_vertices (g : Graph) : g.vertices.Nodup := by
  refine g.pairwise_vertices.imp fun hlt heq => ?_
  exact absurd (congrArg VertexId.index heq) (Nat.ne_of_lt hlt)

/-- The edges are listed in ascending order of their handles. -/
theorem pairwise_edges (g : Graph) : g.edges.Pairwise fun e f => e.id.index < f.id.index :=
  List.pairwise_map.mpr g.edgeTable.pairwise_entries

theorem nodup_edges (g : Graph) : g.edges.Nodup := by
  refine g.pairwise_edges.imp fun hlt heq => ?_
  exact absurd (congrArg (fun e => e.id.index) heq) (Nat.ne_of_lt hlt)

namespace Lists

theorem mem_edges_iff (h : g.Lists es) (e : Edge) : e ∈ g.edges ↔ e ∈ es := by
  rw [mem_edges, h.mem_iff]

theorem perm_edges (h : g.Lists es) : es.Perm g.edges :=
  (List.perm_ext_iff_of_nodup h.nodup.of_map g.nodup_edges).mpr fun e => (h.mem_edges_iff e).symm

theorem length_vertices (h : g.Lists es) : g.vertices.length = g.numVertices := by
  unfold vertices
  rw [List.length_map]
  exact h.vertexTable.length_entries

theorem length_eq_numEdges (h : g.Lists es) : es.length = g.numEdges := by
  rw [h.perm_edges.length_eq, edges, List.length_map, h.edgeTable.length_entries]
  rfl

/-- An end of each of the edges in a list. -/
theorem filterMap_edge? (h : g.Lists es) (p : Edge → Bool) (f : Edge → VertexId) :
    (((es.filter p).map Edge.id).filterMap fun e => (g.edge? e).map f) = (es.filter p).map f := by
  rw [List.filterMap_map, ← List.filterMap_eq_map]
  apply List.filterMap_congr
  intro e he
  show (g.edge? e.id).map f = some (f e)
  rw [(h.mem_iff e).mp (List.mem_filter.mp he).1]
  rfl

theorem sources_eq (h : g.Lists es) (v : VertexId) :
    g.sources v = (es.filter fun e => e.target = v).map Edge.source := by
  rw [sources, h.incoming, h.filterMap_edge?]

theorem targets_eq (h : g.Lists es) (v : VertexId) :
    g.targets v = (es.filter fun e => e.source = v).map Edge.target := by
  rw [targets, h.outgoing, h.filterMap_edge?]

theorem mem_sources (h : g.Lists es) {u v : VertexId} :
    u ∈ g.sources v ↔ ∃ e ∈ g.edges, e.source = u ∧ e.target = v := by
  simp only [h.sources_eq, List.mem_map, List.mem_filter, decide_eq_true_eq, h.mem_edges_iff]
  constructor
  · rintro ⟨e, ⟨he, ht⟩, hs⟩
    exact ⟨e, he, hs, ht⟩
  · rintro ⟨e, he, hs, ht⟩
    exact ⟨e, ⟨he, ht⟩, hs⟩

theorem mem_targets (h : g.Lists es) {u v : VertexId} :
    v ∈ g.targets u ↔ ∃ e ∈ g.edges, e.source = u ∧ e.target = v := by
  simp only [h.targets_eq, List.mem_map, List.mem_filter, decide_eq_true_eq, h.mem_edges_iff]
  constructor
  · rintro ⟨e, ⟨he, hs⟩, ht⟩
    exact ⟨e, he, hs, ht⟩
  · rintro ⟨e, he, hs, ht⟩
    exact ⟨e, ⟨he, hs⟩, ht⟩

/-- Both vertices count the parallel edges between them. -/
theorem count_sources (h : g.Lists es) (u w : VertexId) :
    (g.sources w).count u = (g.targets u).count w := by
  rw [h.sources_eq, h.targets_eq, List.count_eq_countP, List.count_eq_countP, List.countP_map,
    List.countP_map, List.countP_filter, List.countP_filter]
  apply List.countP_congr
  intro e _
  simp [and_comm]

/-- The edges, counted at one of their ends. -/
theorem sum_length_filter {f : Edge → VertexId} {vs : List VertexId} (hvs : vs.Nodup)
    (hf : ∀ e ∈ es, f e ∈ vs) :
    (vs.map fun v => (es.filter fun e => f e = v).length).sum = es.length := by
  induction es with
  | nil => simp
  | cons e es ih =>
    obtain ⟨he, hes⟩ := List.forall_mem_cons.mp hf
    have hsplit (v : VertexId) : ((e :: es).filter fun e => f e = v).length =
        (es.filter fun e => f e = v).length + if v = f e then 1 else 0 := by
      by_cases hv : f e = v
      · simp [hv]
      · simp [hv, Ne.symm hv]
    have hone : (vs.map fun v => if v = f e then 1 else 0).sum = 1 := by
      rw [List.sum_map_eq_nsmul_single (f e) _ fun v hv _ => if_neg hv,
        List.count_eq_one_of_mem hvs he]
      simp
    rw [List.map_congr_left fun v _ => hsplit v, List.sum_map_add, ih hes, hone, List.length_cons]

theorem sum_outgoing (h : g.Lists es) :
    (g.vertices.map fun v => (g.outgoing v).length).sum = g.numEdges := by
  rw [← h.length_eq_numEdges, ← sum_length_filter g.nodup_vertices fun e he =>
    mem_vertices.mpr (h.ends e he).1]
  simp only [h.outgoing, List.length_map]

theorem sum_incoming (h : g.Lists es) :
    (g.vertices.map fun v => (g.incoming v).length).sum = g.numEdges := by
  rw [← h.length_eq_numEdges, ← sum_length_filter g.nodup_vertices fun e he =>
    mem_vertices.mpr (h.ends e he).2]
  simp only [h.incoming, List.length_map]

end Lists

/-! ### The time of creation -/

/-- The edges that were made in a chain of changes, oldest first. -/
def made (cs : List Change) : List Edge := cs.filterMap Change.edge?

/-- The edge that was made last under a handle. -/
def latest? (log : List Edge) (e : EdgeId) : Option Edge := log.reverse.find? (·.id = e)

/-- How many edges were made after the last one under a handle. -/
def age (log : List Edge) (e : EdgeId) : Nat := log.reverse.findIdx (·.id = e)

theorem latest?_concat (log : List Edge) (x : Edge) (e : EdgeId) :
    latest? (log ++ [x]) e = if x.id = e then some x else latest? log e := by
  unfold latest?
  rw [List.reverse_concat, List.find?_cons]
  by_cases h : x.id = e <;> simp [h]

theorem age_concat (log : List Edge) (x : Edge) (e : EdgeId) :
    age (log ++ [x]) e = if x.id = e then 0 else age log e + 1 := by
  unfold age
  rw [List.reverse_concat, List.findIdx_cons]
  by_cases h : x.id = e <;> simp [h]

/-- Each edge of the list is the last that was made under its handle, and they are listed in the
order in which they were made. -/
structure Dated (log es : List Edge) : Prop where
  latest : ∀ e ∈ es, latest? log e.id = some e
  pairwise : es.Pairwise fun e f => age log f.id < age log e.id

theorem Dated.sublist {log es fs : List Edge} (h : Dated log es) (hsub : fs.Sublist es) :
    Dated log fs where
  latest e he := h.latest e (hsub.subset he)
  pairwise := h.pairwise.sublist hsub

theorem Dated.concat {log es : List Edge} {x : Edge} (h : Dated log es)
    (hx : ∀ e ∈ es, e.id ≠ x.id) : Dated (log ++ [x]) (es ++ [x]) where
  latest e he := by
    rw [latest?_concat]
    rcases List.mem_append.mp he with he | he
    · rw [if_neg (Ne.symm (hx e he)), h.latest e he]
    · rw [List.mem_singleton.mp he, if_pos rfl]
  pairwise := by
    have hage {e : Edge} (he : e ∈ es) : age (log ++ [x]) e.id = age log e.id + 1 := by
      rw [age_concat, if_neg (Ne.symm (hx e he))]
    refine List.pairwise_append.mpr ⟨?_, List.pairwise_singleton _ _, ?_⟩
    · apply h.pairwise.imp_of_mem
      intro e f he hf hlt
      rw [hage he, hage hf]
      omega
    · intro e he f hf
      rw [List.mem_singleton.mp hf, hage he, age_concat, if_pos rfl]
      omega

theorem made_concat (cs : List Change) (c : Change) :
    made (cs ++ [c]) = made cs ++ c.edge?.toList := by
  unfold made
  rw [List.filterMap_append]
  cases h : c.edge? <;> simp [h]

/-- A change that makes no edge takes edges out of the list at most. -/
theorem relist_sublist {c : Change} (hc : c.edge? = none) (es : List Edge) :
    (c.relist es).Sublist es := by
  cases c with
  | insertEdge e => cases hc
  | removeVertex v => exact List.filter_sublist
  | removeEdge e => exact List.filter_sublist
  | addVertex => exact List.Sublist.refl es
  | declare => exact List.Sublist.refl es
  | setValue => exact List.Sublist.refl es

theorem dated_ledger {cs : List Change} (h : Graph.empty.Leads cs g) :
    Dated (made cs) (ledger cs) := by
  induction h with
  | refl => exact ⟨by simp [ledger], by simp [ledger]⟩
  | @step cs c mid next hmid hc ih =>
    have hledger : ledger (cs ++ [c]) = c.relist (ledger cs) := by
      unfold ledger
      rw [List.foldl_append]
      rfl
    rw [hledger, made_concat]
    cases hedge : c.edge? with
    | none =>
      rw [Option.toList_none, List.append_nil]
      exact ih.sublist (relist_sublist hedge _)
    | some e =>
      cases hc with
      | insertEdge source target hs ht =>
        cases hedge
        exact ih.concat fun e he => (lists_ledger hmid).nextEdge_ne he
      | _ => cases hedge

/-! ### What a log has left in place -/

/-- A change that the log has, and that no later change has undone. -/
def Lasts (log : List Change) (c : Change) (Undone : Change → Prop) : Prop :=
  ∃ before after, log = before ++ c :: after ∧ ∀ d ∈ after, ¬ Undone d

/-- A subject that was made and not taken away since. The graph itself is always there. -/
def Stands (log : List Change) : Subject → Prop
  | .vertex v => Lasts log (.addVertex v) (· = .removeVertex v)
  | .edge e => ∃ edge : Edge, edge.id = e ∧ Lasts log (.insertEdge edge) (·.Drops edge)
  | .graph => True

theorem not_lasts_nil (c : Change) (Undone : Change → Prop) : ¬ Lasts [] c Undone := by
  rintro ⟨before, after, hsplit, -⟩
  simp at hsplit

/-- The last change lasts, and so does every earlier one that it does not undo. -/
theorem lasts_concat {log : List Change} {c d : Change} {Undone : Change → Prop} :
    Lasts (log ++ [d]) c Undone ↔ d = c ∨ Lasts log c Undone ∧ ¬ Undone d := by
  constructor
  · rintro ⟨before, after, hsplit, hafter⟩
    rcases List.eq_nil_or_concat' after with rfl | ⟨after, last, rfl⟩
    · exact .inl (List.cons.inj (List.append_inj' hsplit rfl).2).1
    · rw [← List.cons_append, ← List.append_assoc] at hsplit
      obtain ⟨hlog, hlast⟩ := List.append_inj' hsplit rfl
      obtain rfl := (List.cons.inj hlast).1
      refine .inr ⟨⟨before, after, hlog, ?_⟩, ?_⟩
      · exact fun d' hd' => hafter d' (List.mem_append_left _ hd')
      · exact hafter d (List.mem_append_right _ (List.mem_singleton_self d))
  · rintro (rfl | ⟨⟨before, after, rfl, hafter⟩, hd⟩)
    · exact ⟨log, [], rfl, by simp⟩
    · refine ⟨before, after ++ [d], by simp, ?_⟩
      intro d' hd'
      rcases List.mem_append.mp hd' with hin | hin
      · exact hafter d' hin
      · rwa [List.mem_singleton.mp hin]

theorem mem_relist_iff {c : Change} {e : Edge} :
    e ∈ c.relist es ↔ c = .insertEdge e ∨ e ∈ es ∧ ¬ c.Drops e := by
  cases c with
  | insertEdge f => simp [Change.relist, Change.Drops, or_comm, eq_comm]
  | removeVertex v => simp [Change.relist, Change.Drops]
  | removeEdge f => simp [Change.relist, Change.Drops]
  | addVertex | declare | setValue => simp [Change.relist, Change.Drops]

/-- The list of all edges has those that were made and not taken away since. -/
theorem mem_ledger_iff {cs : List Change} {e : Edge} :
    e ∈ ledger cs ↔ Lasts cs (.insertEdge e) (·.Drops e) := by
  induction cs using List.reverseRecOn with
  | nil => simp [ledger, not_lasts_nil]
  | append_singleton cs c ih =>
    rw [lasts_concat, ← ih, ← mem_relist_iff]
    unfold ledger
    rw [List.foldl_concat]

theorem Becomes.containsVertex_iff {next : Graph} {c : Change} (hlists : g.Lists es)
    (hc : g.Becomes c next) {v : VertexId} :
    next.containsVertex v ↔ c = .addVertex v ∨ g.containsVertex v ∧ c ≠ .removeVertex v := by
  cases hc with
  | addVertex => simp [containsVertex_addVertex hlists.vertexTable, @eq_comm _ v]
  | insertEdge source target => simp [containsVertex_insertEdge]
  | removeVertex w => simp [containsVertex_removeVertex, @eq_comm _ v]
  | removeEdge e => simp [containsVertex_removeEdge]
  | declare hd =>
    obtain ⟨-, rfl⟩ := of_declared hd
    simp [containsVertex]
  | setValue hs =>
    obtain ⟨column, datum, -, -, -, rfl⟩ := of_withValue hs
    simp [containsVertex]

/-- What is in the graph was made, and was not taken away since. -/
theorem contains_iff_stands {cs : List Change} (h : Graph.empty.Leads cs g) (subject : Subject) :
    g.contains subject ↔ Stands cs subject := by
  cases subject with
  | vertex v =>
    show g.containsVertex v ↔ Lasts cs (.addVertex v) (· = .removeVertex v)
    induction h with
    | refl => simp [not_lasts_nil, containsVertex, Graph.empty, SlotTable.contains]
    | step h hc ih => rw [lasts_concat, hc.containsVertex_iff (lists_ledger h), ih]
  | edge e =>
    show g.containsEdge e ↔ ∃ edge : Edge, edge.id = e ∧ Lasts cs (.insertEdge edge) (·.Drops edge)
    simp only [← mem_ledger_iff, ← (lists_ledger h).mem_edges_iff, containsEdge_iff]
    constructor
    · rintro ⟨edge, hedge⟩
      obtain rfl := edge?_id hedge
      exact ⟨edge, rfl, mem_edges.mpr hedge⟩
    · rintro ⟨edge, rfl, hedge⟩
      exact ⟨edge, mem_edges.mp hedge⟩
  | graph => exact iff_of_true rfl trivial

/-! ### Agreement -/

/-- What is in a graph is what the log has made and not taken away since. The lists that the graph keeps
at its vertices agree with its edges, which are the last that the log has under their handles. -/
structure Indexed (g : Graph) (log : List Change) : Prop where
  /-- A vertex is in the graph iff it was made and not removed since. -/
  vertices : ∀ v, g.containsVertex v ↔ Stands log (.vertex v)
  /-- An edge is in the graph iff it was made, and neither it nor one of its ends was removed since. -/
  edges : ∀ e, e ∈ g.edges ↔ Lasts log (.insertEdge e) (·.Drops e)
  /-- An edge leads from a vertex of the graph to a vertex of the graph. -/
  ends : ∀ e ∈ g.edges, g.containsVertex e.source ∧ g.containsVertex e.target
  /-- An edge has the ends that it was last made with. -/
  edge : ∀ e, g.containsEdge e → ∃ last, latest? (made log) e = some last ∧ g.edge e = .ok last
  /-- The edges out of a vertex are listed once each, oldest first. -/
  outEdges : ∀ v, g.containsVertex v → g.outEdges v = .ok (g.outgoing v) ∧ (g.outgoing v).Nodup ∧
    (∀ e, e ∈ g.outgoing v ↔ ∃ edge ∈ g.edges, edge.id = e ∧ edge.source = v) ∧
    (g.outgoing v).Pairwise fun e f => age (made log) f < age (made log) e
  /-- The edges into a vertex are listed once each, oldest first. -/
  inEdges : ∀ v, g.containsVertex v → g.inEdges v = .ok (g.incoming v) ∧ (g.incoming v).Nodup ∧
    (∀ e, e ∈ g.incoming v ↔ ∃ edge ∈ g.edges, edge.id = e ∧ edge.target = v) ∧
    (g.incoming v).Pairwise fun e f => age (made log) f < age (made log) e
  /-- Two vertices count the same edges from one to the other. -/
  count : ∀ u w, g.containsVertex u → g.containsVertex w → ∃ before after,
    g.predecessors w = .ok before ∧ g.successors u = .ok after ∧ before.count u = after.count w
  /-- The neighbours of a vertex are those that the edges give. -/
  neighbors : ∀ v, g.containsVertex v → ∃ before after,
    g.inNeighbors v = .ok before ∧ g.outNeighbors v = .ok after ∧
    (∀ u, u ∈ before ↔ ∃ e ∈ g.edges, e.source = u ∧ e.target = v) ∧
    ∀ w, w ∈ after ↔ ∃ e ∈ g.edges, e.source = v ∧ e.target = w
  /-- Every edge is counted once among those out of a vertex. -/
  outDegrees : (g.vertices.map fun v => (g.outgoing v).length).sum = g.numEdges
  /-- Every edge is counted once among those into a vertex. -/
  inDegrees : (g.vertices.map fun v => (g.incoming v).length).sum = g.numEdges

theorem atVertex_of_contains {α : Type} {v : VertexId} (h : g.containsVertex v) (answer : α) :
    g.atVertex v answer = .ok answer := if_pos h

theorem indexed_of_lists {log : List Change} (hleads : Graph.empty.Leads log g)
    (h : g.Lists (ledger log)) (hlog : Dated (made log) (ledger log)) : g.Indexed log where
  vertices v := contains_iff_stands hleads (.vertex v)
  edges e := by rw [h.mem_edges_iff, mem_ledger_iff]
  ends e he := h.ends e ((h.mem_edges_iff e).mp he)
  edge e he := by
    obtain ⟨edge, hget⟩ := containsEdge_iff.mp he
    have hid := edge?_id hget
    refine ⟨edge, ?_, ?_⟩
    · rw [← hid]
      exact hlog.latest edge ((h.mem_iff edge).mpr (hid ▸ hget))
    · rw [Graph.edge, hget]
  outEdges v hv := by
    have hsub := ((ledger log).filter_sublist (p := fun e => e.source = v)).map Edge.id
    refine ⟨atVertex_of_contains hv _, ?_, fun e => ?_, ?_⟩
    · rw [h.outgoing]
      exact hsub.nodup h.nodup
    · rw [h.outgoing, List.mem_map]
      simp only [List.mem_filter, decide_eq_true_eq, h.mem_edges_iff, and_assoc, and_comm]
    · rw [h.outgoing]
      exact (List.pairwise_map.mpr hlog.pairwise).sublist hsub
  inEdges v hv := by
    have hsub := ((ledger log).filter_sublist (p := fun e => e.target = v)).map Edge.id
    refine ⟨atVertex_of_contains hv _, ?_, fun e => ?_, ?_⟩
    · rw [h.incoming]
      exact hsub.nodup h.nodup
    · rw [h.incoming, List.mem_map]
      simp only [List.mem_filter, decide_eq_true_eq, h.mem_edges_iff, and_assoc, and_comm]
    · rw [h.incoming]
      exact (List.pairwise_map.mpr hlog.pairwise).sublist hsub
  count u w hu hw :=
    ⟨_, _, atVertex_of_contains hw _, atVertex_of_contains hu _, h.count_sources u w⟩
  neighbors v hv := by
    refine ⟨_, _, atVertex_of_contains hv _, atVertex_of_contains hv _, fun u => ?_, fun w => ?_⟩
    · rw [Std.ExtTreeSet.mem_ofList, List.contains_iff_mem, h.mem_sources]
    · rw [Std.ExtTreeSet.mem_ofList, List.contains_iff_mem, h.mem_targets]
  outDegrees := h.sum_outgoing
  inDegrees := h.sum_incoming

/-- **After every history of the empty graph the lists at the vertices agree with the edges**, and what
is in the graph with what the history reports to have made and taken away. -/
theorem indexed_after (history : List Operation) :
    (Graph.empty.after history).Indexed (Graph.empty.changes history) := by
  have hleads := leads_after history Graph.empty
  exact indexed_of_lists hleads (lists_ledger hleads) (dated_ledger hleads)

/-- Three parallel edges, of which the oldest is removed. Its handle is taken by a new one, which is the
youngest and is listed last. -/
theorem indexed_parallel :
    let history := [.addVertices 2, .addEdges [(⟨0⟩, ⟨1⟩), (⟨0⟩, ⟨1⟩), (⟨0⟩, ⟨1⟩)], .removeEdge ⟨0⟩,
      .addEdge ⟨0⟩ ⟨1⟩]
    (Graph.empty.after history).Indexed (Graph.empty.changes history) ∧
      Lasts (Graph.empty.changes history) (.insertEdge ⟨⟨0⟩, ⟨0⟩, ⟨1⟩⟩) (·.Drops ⟨⟨0⟩, ⟨0⟩, ⟨1⟩⟩) ∧
      (Graph.empty.after history).outgoing ⟨0⟩ = [⟨1⟩, ⟨2⟩, ⟨0⟩] := by
  intro history
  have hindexed : (Graph.empty.after history).Indexed (Graph.empty.changes history) :=
    indexed_after history
  refine ⟨hindexed, (hindexed.edges _).mp ?_, ?_⟩
  · decide
  · decide

end Graph

end GraphGames
