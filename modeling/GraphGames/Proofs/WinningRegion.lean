import GraphGames.Proofs.Answer

/-!
# What a solver finds is the winning region

Player one wins a play that visits a final vertex. From the region that a solver finds player one
wins by one strategy without memory, and from everywhere else player two keeps away from the final
vertices by one strategy without memory.

* `Graph.Solved`: what is said of a region;
* `Solver.exists_ofGraph`: a game that a solver accepts can be read;
* `Graph.Reachable.solved`: solving answers with the winning region.
-/

namespace GraphGames

variable {g : Graph} {es : List Edge} {solver : Solver} {game : Game}

/-! ### What a solver asks of a game -/

theorem Requirement.of_validate {r : Requirement} (h : r.validate g = .ok ()) :
    ∃ column, g.properties.column? r.scope r.name = some column ∧ column.type = r.type := by
  unfold validate at h
  cases hc : g.properties.column? r.scope r.name with
  | none =>
    rw [hc] at h
    cases h
  | some column =>
    rw [hc] at h
    refine ⟨column, rfl, ?_⟩
    by_contra hne
    simp only [if_neg hne] at h
    cases h

/-- What a turn-based game has to declare for its vertices. -/
theorem GameKind.propertyType_of_validate (h : turnBased.validate g = .ok ()) :
    g.propertyType .vertex turnProperty = .ok .int ∧
      g.propertyType .vertex isFinalProperty = .ok .bool := by
  have hrequired := forM_eq_ok_iff.mp h
  rw [Graph.propertyType_eq_ok_iff, Graph.propertyType_eq_ok_iff]
  exact ⟨Requirement.of_validate (hrequired ⟨turnProperty, .vertex, .int⟩ (by simp [requirements])),
    Requirement.of_validate (hrequired ⟨isFinalProperty, .vertex, .bool⟩ (by simp [requirements]))⟩

namespace Solver

/-- A vertex that is not refused has an owner. -/
theorem owner_of_requireOwner {v : VertexId} (h : requireOwner g v = .ok ()) :
    ∃ player, g.owner? v = some player := by
  obtain ⟨value, hvalue, h⟩ := bind_eq_ok_iff.mp h
  unfold Graph.owner?
  rw [hvalue]
  split at h
  · next turn =>
    by_cases hturn : (Player.ofTurn? turn).isSome
    · exact Option.isSome_iff_exists.mp hturn
    · rw [if_neg hturn] at h
      cases h
  · cases h

/-- A solver is bound to the graph of its game, which declares what a turn-based game has to. -/
theorem of_ofGame (h : ofGame game = .ok solver) :
    game.graph = .ok solver.graph ∧ GameKind.turnBased.validate solver.graph = .ok () ∧
      ∀ v ∈ solver.graph.vertices, requireOwner solver.graph v = .ok () := by
  obtain ⟨g, hgraph, h⟩ := bind_eq_ok_iff.mp h
  split at h
  · cases h
  · obtain ⟨⟨⟩, hvalid, h⟩ := bind_eq_ok_iff.mp h
    obtain ⟨⟨⟩, howners, h⟩ := bind_eq_ok_iff.mp h
    cases h
    exact ⟨hgraph, hvalid, forM_eq_ok_iff.mp howners⟩

/-- A new solver has found nothing, and everything but its graph is as it is by default. -/
theorem eq_of_ofGame (h : ofGame game = .ok solver) : solver = { graph := solver.graph } := by
  obtain ⟨g, -, h⟩ := bind_eq_ok_iff.mp h
  split at h
  · cases h
  · obtain ⟨⟨⟩, -, h⟩ := bind_eq_ok_iff.mp h
    obtain ⟨⟨⟩, -, h⟩ := bind_eq_ok_iff.mp h
    cases h
    rfl

/-- A solver for a game with a given graph is a new one for that graph. -/
theorem eq_of_graph (h : ofGame game = .ok solver) (hgame : game.graph = .ok g) :
    solver = { graph := g } := by
  obtain rfl : g = solver.graph := Except.ok.inj (hgame.symm.trans (of_ofGame h).1)
  exact eq_of_ofGame h

/-- A game that a solver accepts can be read. -/
theorem exists_ofGraph (h : ofGame game = .ok solver) (haligned : solver.graph.Aligned) :
    ∃ p, Problem.ofGraph solver.graph = .ok p := by
  obtain ⟨-, hvalid, howners⟩ := of_ofGame h
  obtain ⟨hturn, hfinal⟩ := GameKind.propertyType_of_validate hvalid
  exact Problem.exists_ofGraph haligned hturn hfinal
    fun v hv => owner_of_requireOwner (howners v (Graph.mem_vertices.mpr hv))

end Solver

/-! ### The winning region -/

namespace Graph

variable {region : VertexSet}

/-- The region is where player one wins the game that a graph declares. -/
structure Solved (g : Graph) (region : VertexSet) : Prop where
  contains : ∀ v ∈ region, g.containsVertex v
  /-- By one strategy without memory, player one visits a final vertex from everywhere in the region
  within as many moves as there are vertices that are not final. -/
  wins : ∃ σ : g.arena.Strategy .one, σ.Memoryless ∧
    ∀ (π : g.arena.Play), ∀ v ∈ region, π.position 0 = some v → σ.Governs π →
      π.VisitsWithin (g.numVertices - g.numFinals)
  /-- By one strategy without memory, player two keeps away from the final vertices from everywhere
  else. -/
  avoids : ∃ τ : g.arena.Strategy .two, τ.Memoryless ∧
    ∀ (π : g.arena.Play) v, g.containsVertex v → v ∉ region → π.position 0 = some v →
      τ.Governs π → ¬ π.Visits
  /-- No vertex without moves is in the region unless it is final. -/
  deadEnds : ∀ v, g.isFinal v = false → (∀ w, ¬ g.arena.Moves v w) → v ∉ region

/-- The last layer of the game is where player one wins. -/
theorem Lists.solved_lastLayer (h : g.Lists es) (howned : g.arena.Owned)
    (hregion : ∀ v, v ∈ region ↔ v ∈ g.arena.layer g.arena.depth) : g.Solved region where
  contains v hv := h.contains_of_mem_layer ((hregion v).mp hv)
  wins := by
    obtain ⟨σ, hmemoryless, hσ⟩ := g.arena.exists_approaching
    refine ⟨σ, hmemoryless, ?_⟩
    intro π v hv hstart hπ
    obtain ⟨i, hi, hvisit⟩ := Arena.visits_of_mem_layer hσ hπ hstart ((hregion v).mp hv)
    rw [Nat.zero_add] at hi
    exact ⟨i, hi.trans h.settled.depth_le, hvisit⟩
  avoids := by
    obtain ⟨τ, hmemoryless, hτ⟩ := Arena.exists_delaying h.settled
    refine ⟨τ, hmemoryless, ?_⟩
    intro π v _ hout hstart hπ hvisits
    apply hout
    obtain ⟨k, i, -, w, hw, hfinal⟩ := hvisits
    -- a visit would have begun in some layer, and the region holds all of them
    have hmem := Arena.mem_layer_of_position howned hτ hπ hstart hw (Arena.final_mem_layer hfinal 0)
    exact (hregion v).mpr (h.settled.depth.subset _ hmem)
  deadEnds v hfinal hnone hv := by
    have hlayer := g.arena.layer_mono (Nat.le_succ _) ((hregion v).mp hv)
    obtain ⟨j, -, ⟨-, w, -, hmove⟩ | ⟨-, ⟨w, hmove⟩, -⟩⟩ :=
      Arena.mem_layer_succ_of_not_final hlayer (Bool.eq_false_iff.mp hfinal)
    · exact hnone w hmove
    · exact hnone w hmove

end Graph

/-- **What a solver answers is where player one wins**, for whatever graph that comes about and makes
a game that the solver accepts, and however the solver was configured and run before. It does answer
as long as nothing cancels it and the bound on its rounds exceeds the number of vertices. -/
theorem Graph.Reachable.solved (h : g.Reachable) (hgame : game.graph = .ok g)
    (haccepts : Solver.ofGame game = .ok solver) :
    solver.graph = g ∧ ∀ later : Solver, later.graph = g →
      (∀ allowance region, (later.solve allowance).value.1 = .ok region → g.Solved region) ∧
      (later.computesFirst → g.numVertices < later.maxIterations.toNat →
        ∃ region, (later.solve none).value.1 = .ok region) := by
  obtain ⟨es, hlists⟩ := h.lists
  have hgraph := (Solver.of_ofGame haccepts).1
  obtain rfl : g = solver.graph := Except.ok.inj (hgame.symm.trans hgraph)
  obtain ⟨p, hp⟩ := Solver.exists_ofGraph haccepts h.aligned
  have howned := (Problem.declared_of_ofGraph hp).arena_owned hlists
  refine ⟨rfl, ?_⟩
  intro later hlater
  constructor
  · intro allowance region hsolve
    rw [← hlater] at hlists howned ⊢
    obtain ⟨hfirst, next, hrun, hregion⟩ := Solver.of_solve hsolve
    obtain ⟨region', -, hregion', -, -, hmem⟩ := Solver.firstRegion_of_run hlists hfirst hrun
    obtain rfl := Except.ok.inj (hregion.symm.trans hregion')
    exact hlists.solved_lastLayer howned hmem
  · intro hfirst hbound
    rw [← hlater] at hlists hbound hp
    obtain ⟨region, -, hregion, -⟩ :=
      Solver.solve_of_depth_lt hlists hfirst hp (hlists.depth_le.trans_lt hbound)
    exact ⟨region, hregion⟩

/-- A solver accepts the relay. -/
theorem Solver.exists_relay :
    ∃ solver, ofGame { kind := .turnBased, graph? := some Graph.relay } = .ok solver :=
  exists_ok_of_isSome (by decide +kernel)

theorem Graph.relay_solved :
    ∃ region, (({ graph := relay } : Solver).solve none).value.1 = .ok region ∧
      region.toList = [⟨0⟩, ⟨1⟩, ⟨2⟩] ∧ relay.Solved region := by
  obtain ⟨solver, haccepts⟩ := Solver.exists_relay
  obtain ⟨-, hlater⟩ := Reachable.solved reachable_relay rfl haccepts
  have hsolve : (({ graph := relay } : Solver).solve none).value.1.toOption.map (·.toList) =
      some [⟨0⟩, ⟨1⟩, ⟨2⟩] := by
    decide +kernel
  obtain ⟨region, hregion, hlist⟩ := exists_ok_of_map hsolve
  exact ⟨region, hregion, hlist, (hlater _ (by dsimp only)).1 none region hregion⟩

end GraphGames
