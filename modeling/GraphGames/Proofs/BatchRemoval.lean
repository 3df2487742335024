import GraphGames.Proofs.Agreement

/-!
# Removing several vertices or edges

Vertices and edges that are removed together are removed one after the other. An edge between two of
the vertices goes with whichever of them comes first, and what is listed twice is not found again. In
the end the same is left for every order.

* `Graph.Shrinks.agrees`, `Graph.Shrinks.twins`: graphs that keep the same of a graph are the same;
* `Graph.shrinks_foldl_removeVertex`, `Graph.shrinks_foldl_removeEdge`: what a batch keeps;
* `Graph.Reachable.batch_leaves`: a batch takes away what it lists, and only the order in which free
  slots are used again depends on its order.
-/

namespace GraphGames.Graph

variable {g next last : Graph} {es : List Edge}
variable {keepsVertex : VertexId → Bool} {keepsEdge : Edge → Bool}

/-! ### What a batch keeps -/

theorem shrinks_foldl_removeVertex (g : Graph) (vs : List VertexId) :
    g.Shrinks (vs.foldl removeVertex g) (· ∉ vs) fun e => e.source ∉ vs ∧ e.target ∉ vs := by
  have hfold := Shrinks.foldl shrinks_removeVertex vs g
  have hvertex (v : VertexId) : (vs.all fun w => decide (v ≠ w)) = decide (v ∉ vs) := by
    rw [Bool.eq_iff_iff]
    simp only [List.all_eq_true, decide_eq_true_eq]
    exact ⟨fun h hv => h v hv rfl, fun h w hw hvw => h (hvw ▸ hw)⟩
  have hedge (e : Edge) : (vs.all fun w => decide (e.source ≠ w ∧ e.target ≠ w)) =
      decide (e.source ∉ vs ∧ e.target ∉ vs) := by
    rw [Bool.decide_and, ← hvertex, ← hvertex, Bool.eq_iff_iff]
    simp only [Bool.and_eq_true, List.all_eq_true, decide_eq_true_eq]
    exact ⟨fun h => ⟨fun w hw => (h w hw).1, fun w hw => (h w hw).2⟩,
      fun h w hw => ⟨h.1 w hw, h.2 w hw⟩⟩
  simp only [hvertex, hedge] at hfold
  exact hfold

theorem shrinks_foldl_removeEdge (g : Graph) (es : List EdgeId) :
    g.Shrinks (es.foldl removeEdge g) (fun _ => true) (·.id ∉ es) := by
  have hfold := Shrinks.foldl shrinks_removeEdge es g
  have hvertex : (es.all fun _ => true) = true := by simp
  have hedge (e : Edge) : (es.all fun f => decide (e.id ≠ f)) = decide (e.id ∉ es) := by
    rw [Bool.eq_iff_iff]
    simp only [List.all_eq_true, decide_eq_true_eq]
    exact ⟨fun h he => h e.id he rfl, fun h f hf hef => h (hef ▸ hf)⟩
  simp only [hvertex, hedge] at hfold
  exact hfold

/-! ### What is kept says all -/

/-- Graphs that keep the same vertices and edges of a graph agree. -/
theorem Shrinks.agrees (h : g.Shrinks next keepsVertex keepsEdge)
    (h' : g.Shrinks last keepsVertex keepsEdge) (hlists : g.Lists es) : next.Agrees last := by
  have hnext := h.lists es hlists
  have hlast := h'.lists es hlists
  have hvertex (v : VertexId) : last.containsVertex v ↔ next.containsVertex v := by
    rw [h.containsVertex, h'.containsVertex]
  apply hnext.agrees hlast hvertex
  · rw [h.retains.propertyType, h'.retains.propertyType]
  · intro subject hs name
    have hs' : last.contains subject := by rwa [hnext.contains_congr hlast hvertex]
    rw [h.retains.value subject hs, h'.retains.value subject hs']

/-- They are the same but for the order in which free slots are used again. -/
theorem Shrinks.twins (h : g.Shrinks next keepsVertex keepsEdge)
    (h' : g.Shrinks last keepsVertex keepsEdge) (hnext : next.Reachable) (hlast : last.Reachable)
    (hlists : g.Lists es) : next.Twins last :=
  hnext.twins hlast (h.agrees h' hlists) (h'.slots.trans h.slots.symm)

/-! ### Batches -/

/-- **A batch of removals takes away what it lists.** Neither the order of the list nor repetitions
matter, nor does what is not in the graph: batches with the same members leave graphs that answer
alike. They are the same but for the order in which free slots are used again. -/
theorem Reachable.batch_leaves (h : g.Reachable) :
    (∀ vs ws : List VertexId, (∀ v, v ∈ vs ↔ v ∈ ws) → ∃ next last,
      (Update.removeVertices vs).run g = (.ok (), next) ∧
      (Update.removeVertices ws).run g = (.ok (), last) ∧
      g.Leaves next (· ∉ vs) (fun e => e.source ∉ vs ∧ e.target ∉ vs) ∧
      next.Agrees last ∧ last.vertexCapacity = next.vertexCapacity ∧ next.Twins last) ∧
    ∀ es fs : List EdgeId, (∀ e, e ∈ es ↔ e ∈ fs) → ∃ next last,
      (Update.removeEdges es).run g = (.ok (), next) ∧
      (Update.removeEdges fs).run g = (.ok (), last) ∧
      g.Leaves next (fun _ => true) (·.id ∉ es) ∧
      next.Agrees last ∧ last.vertexCapacity = next.vertexCapacity ∧ next.Twins last := by
  obtain ⟨listed, hlists⟩ := h.lists
  constructor
  · intro vs ws hsame
    have hvs := shrinks_foldl_removeVertex g vs
    have hws := shrinks_foldl_removeVertex g ws
    simp only [← hsame] at hws
    have htwins := hvs.twins hws (h.step (.removeVertices vs)) (h.step (.removeVertices ws)) hlists
    exact ⟨_, _, rfl, rfl, hvs.leaves hlists, hvs.agrees hws hlists, htwins.vertexCapacity, htwins⟩
  · intro es fs hsame
    have hes := shrinks_foldl_removeEdge g es
    have hfs := shrinks_foldl_removeEdge g fs
    simp only [← hsame] at hfs
    have htwins := hes.twins hfs (h.step (.removeEdges es)) (h.step (.removeEdges fs)) hlists
    exact ⟨_, _, rfl, rfl, hes.leaves hlists, hes.agrees hfs hlists, htwins.vertexCapacity, htwins⟩

/-- The ends of an edge are removed in either order, one of them twice, along with a vertex that was
never there. The slot that is used next is not the same. -/
theorem bouquet_batch_leaves :
    (∃ next last, (Update.removeVertices [⟨1⟩, ⟨9⟩, ⟨0⟩]).run bouquet = (.ok (), next) ∧
      (Update.removeVertices [⟨0⟩, ⟨1⟩, ⟨9⟩, ⟨0⟩]).run bouquet = (.ok (), last) ∧
      next.vertices = [⟨2⟩] ∧ next.edges = [] ∧ next.Agrees last ∧ next.Twins last ∧
      next.nextVertex = ⟨0⟩ ∧ last.nextVertex = ⟨1⟩) ∧
    ∃ next last, (Update.removeEdges [⟨4⟩, ⟨1⟩]).run bouquet = (.ok (), next) ∧
      (Update.removeEdges [⟨1⟩, ⟨4⟩, ⟨1⟩]).run bouquet = (.ok (), last) ∧
      next.outEdges ⟨0⟩ = .ok [⟨0⟩, ⟨2⟩] ∧ next.Agrees last ∧ next.Twins last := by
  obtain ⟨hvertices, hedges⟩ := Reachable.batch_leaves (g := bouquet) (Reachable.empty.after _)
  obtain ⟨next, last, hrun, hrun', hleaves, hagrees, -, htwins⟩ :=
    hvertices [⟨1⟩, ⟨9⟩, ⟨0⟩] [⟨0⟩, ⟨1⟩, ⟨9⟩, ⟨0⟩] (by simp)
  obtain ⟨next', last', hrunEdges, hrunEdges', -, hagrees', -, htwins'⟩ :=
    hedges [⟨4⟩, ⟨1⟩] [⟨1⟩, ⟨4⟩, ⟨1⟩] (by simp)
  refine ⟨⟨next, last, hrun, hrun', ?_, ?_, hagrees, htwins, ?_, ?_⟩,
    next', last', hrunEdges, hrunEdges', ?_, hagrees', htwins'⟩
  · rw [hleaves.vertices]
    decide +kernel
  · rw [hleaves.edges]
    decide +kernel
  · obtain rfl := congrArg Prod.snd hrun
    rfl
  · obtain rfl := congrArg Prod.snd hrun'
    rfl
  · obtain rfl := congrArg Prod.snd hrunEdges
    rfl

end GraphGames.Graph
