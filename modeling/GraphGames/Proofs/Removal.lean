import GraphGames.Proofs.Declarations
import GraphGames.Proofs.Handles

/-!
# What removals leave

A removal takes edges and at most one vertex out of a graph. Everything else that can be asked of the
graph has the answer it had before; only the lists at the vertices lose the edges that went.

* `Graph.Shrinks`: some vertices and some edges of a graph are kept, with `Graph.shrinks_removeVertex`
  and `Graph.shrinks_removeEdge` for one removal and `Graph.Shrinks.foldl` for several;
* `Graph.Leaves`, `Graph.Shrinks.leaves`: what is said of a graph and what is left of it, and that it
  holds then;
* `Graph.Reachable.removal_leaves`: what a removal leaves.
-/

namespace GraphGames

/-- Lists with the same elements are the same when both are in strictly ascending order. -/
theorem eq_of_pairwise_lt {α : Type} {position : α → ℕ} {xs ys : List α}
    (hxs : xs.Pairwise fun a b => position a < position b)
    (hys : ys.Pairwise fun a b => position a < position b) (h : ∀ a, a ∈ xs ↔ a ∈ ys) : xs = ys := by
  have hnodup {zs : List α} (hzs : zs.Pairwise fun a b => position a < position b) : zs.Nodup :=
    hzs.imp fun hlt heq => Nat.ne_of_lt hlt (congrArg position heq)
  have hperm : xs.Perm ys := (List.perm_ext_iff_of_nodup (hnodup hxs) (hnodup hys)).mpr h
  refine hperm.eq_of_pairwise ?_ hxs hys
  intro a b _ _ hab hba
  omega

namespace Graph

variable {g next : Graph} {es : List Edge} {v w : VertexId} {e : EdgeId}
variable {keepsVertex : VertexId → Bool} {keepsEdge : Edge → Bool}

/-! ### Vertices that are left -/

/-- A removal frees slots, but takes none away. -/
theorem slots_removeEdge (g : Graph) (e : EdgeId) : (g.removeEdge e).slots = g.slots := by
  funext scope
  cases scope with
  | vertex =>
    show (g.removeEdge e).vertexTable.capacity = g.vertexTable.capacity
    rw [← SlotTable.capacity_positions, positions_removeEdge, SlotTable.capacity_positions]
  | edge =>
    show (g.removeEdge e).edgeTable.capacity = g.edgeTable.capacity
    rw [edgeTable_removeEdge, SlotTable.capacity_remove]
  | graph => rfl

theorem slots_removeVertex (g : Graph) (v : VertexId) : (g.removeVertex v).slots = g.slots := by
  by_cases hv : g.containsVertex v
  · have hbare : (g.bare v).slots = g.slots :=
      foldl_keeps (P := fun next => next.slots = g.slots)
        (fun mid e hmid => (slots_removeEdge mid e).trans hmid) _ rfl
    rw [removeVertex_of_contains hv, ← hbare]
    funext scope
    cases scope with
    | vertex => exact SlotTable.capacity_remove ..
    | edge => rfl
    | graph => rfl
  · rw [removeVertex, if_neg hv]

/-! ### What is left of a graph -/

/-- What is left of `g` when some vertices and some edges are kept. -/
structure Shrinks (g next : Graph) (keepsVertex : VertexId → Bool) (keepsEdge : Edge → Bool) :
    Prop where
  lists : ∀ es, g.Lists es → next.Lists (es.filter keepsEdge)
  retains : g.Retains next
  containsVertex : ∀ v, next.containsVertex v ↔ g.containsVertex v ∧ keepsVertex v
  slots : next.slots = g.slots

theorem shrinks_removeVertex (g : Graph) (v : VertexId) :
    g.Shrinks (g.removeVertex v) (· ≠ v) fun e => e.source ≠ v ∧ e.target ≠ v where
  lists _ h := h.removeVertex v
  retains := retains_removeVertex g v
  containsVertex w := by rw [containsVertex_removeVertex, decide_eq_true_iff]
  slots := slots_removeVertex g v

theorem shrinks_removeEdge (g : Graph) (e : EdgeId) :
    g.Shrinks (g.removeEdge e) (fun _ => true) (·.id ≠ e) where
  lists _ h := h.removeEdge e
  retains := retains_removeEdge g e
  containsVertex v := by rw [containsVertex_removeEdge, and_iff_left rfl]
  slots := slots_removeEdge g e

namespace Shrinks

theorem refl (g : Graph) : g.Shrinks g (fun _ => true) (fun _ => true) where
  lists es h := by rwa [List.filter_true]
  retains := .refl g
  containsVertex v := (and_iff_left rfl).symm
  slots := rfl

theorem trans {mid : Graph} {keepsVertex' : VertexId → Bool} {keepsEdge' : Edge → Bool}
    (h : g.Shrinks mid keepsVertex keepsEdge) (h' : mid.Shrinks next keepsVertex' keepsEdge') :
    g.Shrinks next (fun v => keepsVertex v && keepsVertex' v)
      (fun e => keepsEdge e && keepsEdge' e) where
  lists es hes := by
    have hnext := h'.lists _ (h.lists es hes)
    rw [List.filter_filter] at hnext
    simpa only [Bool.and_comm] using hnext
  retains := h.retains.trans h'.retains
  containsVertex v := by rw [h'.containsVertex, h.containsVertex, Bool.and_eq_true, and_assoc]
  slots := h'.slots.trans h.slots

/-- Several removals keep what each of them keeps. -/
theorem foldl {α : Type} {f : Graph → α → Graph} {keepsVertex : α → VertexId → Bool}
    {keepsEdge : α → Edge → Bool}
    (hf : ∀ (g : Graph) a, g.Shrinks (f g a) (keepsVertex a) (keepsEdge a)) (xs : List α)
    (g : Graph) :
    g.Shrinks (xs.foldl f g) (fun v => xs.all (keepsVertex · v)) fun e => xs.all (keepsEdge · e) := by
  induction xs generalizing g with
  | nil => exact refl g
  | cons a xs ih => exact (hf g a).trans (ih (f g a))

end Shrinks

/-- What is said of `g` and of what is left of it when some vertices and some edges are kept. -/
structure Leaves (g next : Graph) (keepsVertex : VertexId → Bool) (keepsEdge : Edge → Bool) :
    Prop where
  /-- The vertices and edges are those that are kept. -/
  vertices : next.vertices = g.vertices.filter keepsVertex
  edges : next.edges = g.edges.filter keepsEdge
  counts : next.numVertices = next.vertices.length ∧ next.numEdges = next.edges.length
  /-- They have the handles that they had, and edges have the ends that they had. -/
  edge : ∀ e, next.containsEdge e → next.edge e = g.edge e
  /-- The lists at a vertex have lost the edges that went. -/
  outEdges : ∀ v, next.containsVertex v → ∃ listed, g.outEdges v = .ok listed ∧
    next.outEdges v = .ok (listed.filter next.containsEdge)
  inEdges : ∀ v, next.containsVertex v → ∃ listed, g.inEdges v = .ok listed ∧
    next.inEdges v = .ok (listed.filter next.containsEdge)
  /-- The same names are declared, for the same scopes and with the same types. -/
  propertyScope? : next.propertyScope? = g.propertyScope?
  propertyType : next.propertyType = g.propertyType
  names : next.properties.names = g.properties.names ∧
    next.properties.allNames = g.properties.allNames
  /-- Whatever is left has the values that it had. -/
  value : ∀ subject, next.contains subject → ∀ name,
    next.value subject name = g.value subject name
  /-- There is as much room for vertices as before. -/
  vertexCapacity : next.vertexCapacity = g.vertexCapacity

/-- Names that have types alike are declared for the same scopes. -/
theorem propertyScope?_congr (h : next.propertyType = g.propertyType) :
    next.propertyScope? = g.propertyScope? := by
  funext name
  apply Option.ext
  intro scope
  rw [propertyScope?_eq_some_iff, propertyScope?_eq_some_iff, h]

/-- Names that are declared for the same scopes are listed alike. -/
theorem names_congr (h : next.propertyScope? = g.propertyScope?) :
    next.properties.names = g.properties.names := by
  funext scope
  have hsorted (ps : Properties) : (ps.names scope).Pairwise (· < ·) :=
    ps.pairwise_allNames.sublist (ps.sublist_allNames scope)
  apply (hsorted next.properties).eq_of_mem_iff (hsorted g.properties)
  intro name
  rw [Properties.mem_names, Properties.mem_names]
  exact Eq.congr_left (congrFun h name)

theorem allNames_congr (h : next.propertyScope? = g.propertyScope?) :
    next.properties.allNames = g.properties.allNames := by
  apply next.properties.pairwise_allNames.eq_of_mem_iff g.properties.pairwise_allNames
  intro name
  simp only [Properties.mem_allNames, names_congr h]

namespace Lists

/-- Which edges of the list are left. -/
theorem containsEdge_filter (h : g.Lists es) (hnext : next.Lists (es.filter keepsEdge)) {edge : Edge}
    (hmem : edge ∈ es) : next.containsEdge edge.id = keepsEdge edge := by
  rw [Bool.eq_iff_iff, containsEdge_iff]
  constructor
  · rintro ⟨left, hleft⟩
    have hid := edge?_id hleft
    rw [← hid] at hleft
    obtain ⟨hleftMem, hkeeps⟩ := List.mem_filter.mp ((hnext.mem_iff left).mpr hleft)
    exact h.unique hleftMem hmem hid ▸ hkeeps
  · intro hkeeps
    exact ⟨edge, (hnext.mem_iff edge).mp (List.mem_filter.mpr ⟨hmem, hkeeps⟩)⟩

/-- Some of the edges that are left are what is left of these edges. -/
theorem map_id_filter (h : g.Lists es) (hnext : next.Lists (es.filter keepsEdge))
    (p : Edge → Bool) :
    ((es.filter keepsEdge).filter p).map Edge.id =
      ((es.filter p).map Edge.id).filter next.containsEdge := by
  rw [List.filter_map, List.filter_filter, List.filter_filter]
  congr 1
  apply List.filter_congr
  intro edge hmem
  rw [Function.comp_apply, h.containsEdge_filter hnext hmem, Bool.and_comm]

end Lists

/-- What is left when some vertices and some edges are kept. -/
theorem Shrinks.leaves (hshrinks : g.Shrinks next keepsVertex keepsEdge) (h : g.Lists es) :
    g.Leaves next keepsVertex keepsEdge := by
  have hnext := hshrinks.lists es h
  have hvertex := hshrinks.containsVertex
  have hscope := propertyScope?_congr hshrinks.retains.propertyType
  constructor
  · apply eq_of_pairwise_lt next.pairwise_vertices (g.pairwise_vertices.filter keepsVertex)
    intro v
    rw [mem_vertices, List.mem_filter, mem_vertices, hvertex]
  · apply eq_of_pairwise_lt next.pairwise_edges (g.pairwise_edges.filter keepsEdge)
    intro edge
    rw [hnext.mem_edges_iff, List.mem_filter, List.mem_filter, h.mem_edges_iff]
  · exact ⟨hnext.length_vertices.symm, by rw [← hnext.length_eq_numEdges, hnext.perm_edges.length_eq]⟩
  · intro e he
    obtain ⟨left, hleft⟩ := containsEdge_iff.mp he
    obtain rfl := edge?_id hleft
    have hmem := (List.mem_filter.mp ((hnext.mem_iff left).mpr hleft)).1
    rw [Graph.edge, Graph.edge, hleft, (h.mem_iff left).mp hmem]
  · intro v hv
    refine ⟨_, atVertex_of_contains ((hvertex v).mp hv).1 _, ?_⟩
    rw [Graph.outEdges, atVertex_of_contains hv, hnext.outgoing, h.outgoing, h.map_id_filter hnext]
  · intro v hv
    refine ⟨_, atVertex_of_contains ((hvertex v).mp hv).1 _, ?_⟩
    rw [Graph.inEdges, atVertex_of_contains hv, hnext.incoming, h.incoming, h.map_id_filter hnext]
  · exact hscope
  · exact hshrinks.retains.propertyType
  · exact ⟨names_congr hscope, allNames_congr hscope⟩
  · exact hshrinks.retains.value
  · exact congrFun hshrinks.slots .vertex

namespace Lists

theorem leaves_removeVertex (h : g.Lists es) (v : VertexId) :
    g.Leaves (g.removeVertex v) (· ≠ v) fun e => e.source ≠ v ∧ e.target ≠ v :=
  (shrinks_removeVertex g v).leaves h

theorem leaves_removeEdge (h : g.Lists es) (e : EdgeId) :
    g.Leaves (g.removeEdge e) (fun _ => true) (·.id ≠ e) :=
  (shrinks_removeEdge g e).leaves h

end Lists

/-! ### How much goes -/

/-- What goes and what is left make up what was there. -/
theorem Leaves.counts_add (h : g.Leaves next keepsVertex keepsEdge) (hlists : g.Lists es) :
    next.numVertices + (g.vertices.filter fun v => !keepsVertex v).length = g.numVertices ∧
      next.numEdges + (g.edges.filter fun e => !keepsEdge e).length = g.numEdges := by
  rw [h.counts.1, h.counts.2, h.vertices, h.edges, ← hlists.length_vertices,
    ← hlists.length_eq_numEdges, hlists.perm_edges.length_eq]
  exact ⟨(List.length_eq_length_filter_add keepsVertex).symm,
    (List.length_eq_length_filter_add keepsEdge).symm⟩

theorem length_filter_vertices (hv : g.containsVertex v) :
    (g.vertices.filter (· = v)).length = 1 := by
  have hcount := List.count_eq_one_of_mem g.nodup_vertices (mem_vertices.mpr hv)
  rwa [List.count_eq_countP, List.countP_eq_length_filter] at hcount

theorem length_filter_edges (he : g.containsEdge e) :
    (g.edges.filter (·.id = e)).length = 1 := by
  have hcount := List.count_eq_one_of_mem g.nodup_map_id_edges (mem_map_id_edges.mpr he)
  rwa [List.count_eq_countP, List.countP_map, List.countP_eq_length_filter] at hcount

/-- **A removal takes away what it is asked to, and nothing else.** With a vertex all edges at it go,
each of them once. -/
theorem Reachable.removal_leaves (h : g.Reachable) :
    (∀ v, g.containsVertex v → ∃ next, (Update.removeVertex v).run g = (.ok true, next) ∧
      g.Leaves next (· ≠ v) (fun e => e.source ≠ v ∧ e.target ≠ v) ∧
      next.numVertices + 1 = g.numVertices ∧
      next.numEdges + (g.edges.filter fun e => e.source = v ∨ e.target = v).length = g.numEdges) ∧
    ∀ e, g.containsEdge e → ∃ next, (Update.removeEdge e).run g = (.ok true, next) ∧
      g.Leaves next (fun _ => true) (·.id ≠ e) ∧
      next.numVertices = g.numVertices ∧ next.numEdges + 1 = g.numEdges := by
  obtain ⟨es, hlists⟩ := h.lists
  constructor
  · intro v hv
    have hleaves := hlists.leaves_removeVertex v
    obtain ⟨hvertices, hedges⟩ := hleaves.counts_add hlists
    refine ⟨g.removeVertex v, ?_, hleaves, ?_, ?_⟩
    · rw [Update.removeVertex, Update.run_change, hv]
    · rw [← hvertices, ← length_filter_vertices hv]
      simp
    · rw [← hedges]
      simp [or_iff_not_imp_left]
  · intro e he
    have hleaves := hlists.leaves_removeEdge e
    obtain ⟨hvertices, hedges⟩ := hleaves.counts_add hlists
    refine ⟨g.removeEdge e, ?_, hleaves, ?_, ?_⟩
    · rw [Update.removeEdge, Update.run_change, he]
    · rw [← hvertices]
      simp
    · rw [← hedges, ← length_filter_edges he]
      simp

/-- A loop at `0`, two parallel edges from there to `1` and one back, and an edge that leads on. -/
def bouquet : Graph :=
  empty.after [
    .declare .edge "weight" .int, .addVertices 3,
    .addEdges [(⟨0⟩, ⟨0⟩), (⟨0⟩, ⟨1⟩), (⟨0⟩, ⟨1⟩), (⟨1⟩, ⟨0⟩), (⟨1⟩, ⟨2⟩)],
    .setValue 0 (.edge ⟨4⟩) "weight" (.int 7)]

theorem bouquet_removal_leaves :
    (∃ next, (Update.removeVertex ⟨0⟩).run bouquet = (.ok true, next) ∧
      bouquet.Leaves next (· ≠ ⟨0⟩) (fun e => e.source ≠ ⟨0⟩ ∧ e.target ≠ ⟨0⟩) ∧
      next.vertices = [⟨1⟩, ⟨2⟩] ∧ next.edges = [⟨⟨4⟩, ⟨1⟩, ⟨2⟩⟩] ∧
      next.numEdges + 4 = bouquet.numEdges) ∧
    ∃ next, (Update.removeEdge ⟨1⟩).run bouquet = (.ok true, next) ∧
      bouquet.Leaves next (fun _ => true) (·.id ≠ ⟨1⟩) ∧
      next.outEdges ⟨0⟩ = .ok [⟨0⟩, ⟨2⟩] := by
  obtain ⟨hvertex, hedge⟩ := Reachable.removal_leaves (g := bouquet) (Reachable.empty.after _)
  obtain ⟨next, hrun, hleaves, -, hcount⟩ := hvertex ⟨0⟩ (by decide +kernel)
  obtain ⟨next', hrun', hleaves', -, -⟩ := hedge ⟨1⟩ (by decide +kernel)
  refine ⟨⟨next, hrun, hleaves, ?_, ?_, hcount⟩, next', hrun', hleaves', ?_⟩
  · rw [hleaves.vertices]
    decide +kernel
  · rw [hleaves.edges]
    decide +kernel
  · obtain rfl := congrArg Prod.snd hrun'
    rfl

end Graph

end GraphGames
