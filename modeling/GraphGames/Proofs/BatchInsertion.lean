import GraphGames.Proofs.Change

/-!
# Adding several edges

Edges can be added one after the other, each after a look at its own ends, or together, after a look
at the ends of all of them. An edge that is added takes no vertex away, so it does not matter when an
end is looked at, and only a failure tells the two ways apart: one by one, the edges before the first
that fails have been added by then.

* `Update.addEach`, `Update.insertEach`: edges that are added one by one, with and without a look;
* `Update.addEdges_one_by_one`: adding edges together is adding them one by one, or nothing.
-/

namespace GraphGames

namespace Graph

variable {g next : Graph} {p : VertexId × VertexId}

theorem missingEnd?_eq_some_iff {v : VertexId} :
    g.missingEnd? p = some v ↔
      v = p.1 ∧ ¬ g.containsVertex p.1 ∨
      v = p.2 ∧ g.containsVertex p.1 ∧ ¬ g.containsVertex p.2 := by
  unfold missingEnd?
  by_cases hs : g.containsVertex p.1
  · by_cases ht : g.containsVertex p.2
    · simp [hs, ht]
    · simp [hs, ht, eq_comm (a := v)]
  · simp [hs, eq_comm (a := v)]

/-- Which end is missing depends on the vertices of the graph only. -/
theorem missingEnd?_congr (h : next.containsVertex = g.containsVertex) :
    next.missingEnd? = g.missingEnd? := by
  funext p
  unfold missingEnd?
  rw [h]

end Graph

namespace Update

variable {g : Graph} {p : VertexId × VertexId} {pairs before rest : List (VertexId × VertexId)}

/-! ### Edges that are added one by one -/

/-- Add an edge for each pair, one after the other, up to the first that fails. -/
def addEach (pairs : List (VertexId × VertexId)) : Update (List EdgeId) :=
  pairs.mapM fun p => addEdge p.1 p.2

/-- Add an edge for each pair, all of whose ends are taken to be in the graph. -/
def insertEach (pairs : List (VertexId × VertexId)) : Update (List EdgeId) :=
  pairs.mapM fun p => insertEdge p.1 p.2

/-- Edges can be added whatever their ends are, and no vertex comes or goes with them. -/
theorem exists_insertEach (g : Graph) (pairs : List (VertexId × VertexId)) :
    ∃ es next, (insertEach pairs).run g = (.ok es, next) ∧
      next.containsVertex = g.containsVertex := by
  induction pairs generalizing g with
  | nil => exact ⟨[], g, rfl, rfl⟩
  | cons p pairs ih =>
    obtain ⟨es, next, hrun, hnext⟩ := ih (g.insertEdge p.1 p.2)
    refine ⟨g.nextEdge :: es, next, ?_, ?_⟩
    · unfold insertEach at hrun ⊢
      simp only [run_mapM_cons, insertEdge, run_change] at hrun ⊢
      rw [hrun]
    · rw [hnext]
      funext v
      exact Graph.containsVertex_insertEdge g p.1 p.2 v

/-- While no end is missing, looking at the ends makes no difference. -/
theorem run_addEach_of_ends (h : ∀ p ∈ pairs, g.missingEnd? p = none) :
    (addEach pairs).run g = (insertEach pairs).run g := by
  induction pairs generalizing g with
  | nil => rfl
  | cons p pairs ih =>
    obtain ⟨hp, hpairs⟩ := List.forall_mem_cons.mp h
    -- the other ends are still there once the first edge has been added
    have hsame : (g.insertEdge p.1 p.2).missingEnd? = g.missingEnd? :=
      Graph.missingEnd?_congr (funext (Graph.containsVertex_insertEdge g p.1 p.2))
    have hrest := ih (g := g.insertEdge p.1 p.2) (hsame ▸ hpairs)
    unfold addEach insertEach at hrest ⊢
    simp only [run_mapM_cons, run_addEdge, hp, insertEdge, run_change] at hrest ⊢
    rw [hrest]

/-- One by one, the edges before the first that fails are added. -/
theorem run_addEach_of_missing {v : VertexId} {es : List EdgeId} {last : Graph}
    (hbefore : (addEach before).run g = (.ok es, last)) (hp : last.missingEnd? p = some v) :
    (addEach (before ++ p :: rest)).run g = (.error (.vertexNotFound v), last) := by
  have hfail : (addEach (p :: rest)).run last = (.error (.vertexNotFound v), last) := by
    rw [addEach, run_mapM_cons, run_addEdge, hp]
  unfold addEach at hbefore hfail ⊢
  simp only [List.mapM_append, run_bind, hbefore, hfail]

/-! ### Edges that are added together -/

/-- **Adding edges together is adding them one by one, or nothing.** If each of the edges can be added
after those before it, the answers and the graphs are the same. Otherwise both ways fail on the first
edge that cannot be added, for the first of its ends that is missing. Together no edge has been added
then, and one by one those before it have been. -/
theorem addEdges_one_by_one (g : Graph) (pairs : List (VertexId × VertexId)) :
    (∃ es next, (addEdges pairs).run g = (.ok es, next) ∧ (addEach pairs).run g = (.ok es, next)) ∨
    ∃ before p rest v es last, pairs = before ++ p :: rest ∧
      (addEach before).run g = (.ok es, last) ∧
      (addEdge p.1 p.2).run last = (.error (.vertexNotFound v), last) ∧
      (v = p.1 ∧ ¬ g.containsVertex p.1 ∨
        v = p.2 ∧ g.containsVertex p.1 ∧ ¬ g.containsVertex p.2) ∧
      (addEach pairs).run g = (.error (.vertexNotFound v), last) ∧
      (addEdges pairs).run g = (.error (.vertexNotFound v), g) := by
  cases hmissing : pairs.findSome? g.missingEnd? with
  | none =>
    obtain ⟨es, next, hrun, -⟩ := exists_insertEach g pairs
    refine .inl ⟨es, next, ?_, ?_⟩
    · rw [run_addEdges, hmissing]
      exact hrun
    · rw [run_addEach_of_ends (List.findSome?_eq_none_iff.mp hmissing)]
      exact hrun
  | some v =>
    obtain ⟨before, p, rest, rfl, hp, hbefore⟩ := List.findSome?_eq_some_iff.mp hmissing
    obtain ⟨es, last, hrun, hlast⟩ := exists_insertEach g before
    rw [← run_addEach_of_ends hbefore] at hrun
    have hp' : last.missingEnd? p = some v := by rwa [Graph.missingEnd?_congr hlast]
    refine .inr ⟨before, p, rest, v, es, last, rfl, hrun, ?_, ?_, ?_, ?_⟩
    · rw [run_addEdge, hp']
    · exact Graph.missingEnd?_eq_some_iff.mp hp
    · exact run_addEach_of_missing hrun hp'
    · rw [run_addEdges, hmissing]

-- one by one the loop is in the graph when the second edge fails
example : ((addEach [(⟨0⟩, ⟨0⟩), (⟨0⟩, ⟨7⟩)]).run (Graph.empty.after [.addVertex])).2.numEdges = 1 ∧
    ((addEdges [(⟨0⟩, ⟨0⟩), (⟨0⟩, ⟨7⟩)]).run (Graph.empty.after [.addVertex])).2.numEdges = 0 := by
  decide

end Update

end GraphGames
