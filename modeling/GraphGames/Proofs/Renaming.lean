import GraphGames.Proofs.WinningRegion

/-!
# Answers do not depend on names

Two graphs may differ in the handles of their vertices and edges, in how they came about, in how
often and in which order a move was added, and in all properties but two. As long as a renaming of
the vertices takes the game of one to the game of the other, a solver takes as many rounds for
either, and its answers are the same up to the renaming.

* `VertexSet.image`: a set of vertices under a renaming;
* `Graph.Renames`: a renaming of the vertices takes one game to another, which can be decided;
* `Renames.mem_attract_iff`, `Renames.mem_layer_iff`, `Renames.depth_eq`: what one round attracts,
  what all rounds attract, and how many there are;
* `Solver.Agrees`, `Graph.Reachable.solve_renamed`: two solvers answer the same up to a renaming.
-/

namespace GraphGames

/-- The vertices of a set under a renaming. -/
def VertexSet.image (f : VertexId → VertexId) (region : VertexSet) : VertexSet :=
  Std.ExtTreeSet.ofList (region.toList.map f)

theorem VertexSet.mem_image {f : VertexId → VertexId} {region : VertexSet} {w : VertexId} :
    w ∈ image f region ↔ ∃ v ∈ region, f v = w := by
  unfold image
  rw [Std.ExtTreeSet.mem_ofList, List.contains_iff_mem, List.mem_map]
  simp only [Std.ExtTreeSet.mem_toList]

namespace Graph

variable {f : VertexId → VertexId} {g g' : Graph} {es es' : List Edge} {v w : VertexId} {k : ℕ}

/-- The vertices of one graph are renamed to those of another, so that the same vertices are final,
the same player moves at each, and there is a move from one to another iff there was one before. -/
structure Renames (f : VertexId → VertexId) (g g' : Graph) : Prop where
  bijOn : Set.BijOn f {v | g.containsVertex v} {v | g'.containsVertex v}
  isFinal : ∀ v, g.containsVertex v → g'.isFinal (f v) = g.isFinal v
  owner : ∀ v, g.containsVertex v → g'.owner? (f v) = g.owner? v
  moves : ∀ v w, g.containsVertex v → g.containsVertex w →
    (g'.arena.Moves (f v) (f w) ↔ g.arena.Moves v w)

namespace Renames

variable (hf : Renames f g g') (hlists : g.Lists es) (hlists' : g'.Lists es')
include hf hlists hlists'

/-- The moves from a renamed vertex. -/
theorem moves_iff (hv : g.containsVertex v) :
    g'.arena.Moves (f v) w ↔ ∃ u, g.arena.Moves v u ∧ f u = w := by
  constructor
  · intro hmove
    obtain ⟨u, hu, rfl⟩ := hf.bijOn.surjOn (hlists'.contains_of_moves hmove).2
    exact ⟨u, (hf.moves v u hv hu).mp hmove, rfl⟩
  · rintro ⟨u, hmove, rfl⟩
    exact (hf.moves v u hv (hlists.contains_of_moves hmove).2).mpr hmove

/-- A renamed vertex is drawn into what corresponds to that into which it was drawn. -/
theorem draws_iff {V W : Set VertexId} (hVW : ∀ u, g.containsVertex u → (f u ∈ W ↔ u ∈ V))
    (hv : g.containsVertex v) (player : Player) :
    g'.arena.Draws player W (f v) ↔ g.arena.Draws player V v := by
  have hmoves (w : VertexId) := hf.moves_iff hlists hlists' hv (w := w)
  have htarget (u : VertexId) (hmove : g.arena.Moves v u) : f u ∈ W ↔ u ∈ V :=
    hVW u (hlists.contains_of_moves hmove).2
  cases player with
  | one =>
    constructor
    · rintro ⟨w, hw, hmove⟩
      obtain ⟨u, hu, rfl⟩ := (hmoves w).mp hmove
      exact ⟨u, (htarget u hu).mp hw, hu⟩
    · rintro ⟨u, hu, hmove⟩
      exact ⟨f u, (htarget u hmove).mpr hu, (hmoves _).mpr ⟨u, hmove, rfl⟩⟩
  | two =>
    constructor
    · rintro ⟨⟨w, hw⟩, hall⟩
      obtain ⟨u, hu, -⟩ := (hmoves w).mp hw
      refine ⟨⟨u, hu⟩, ?_⟩
      intro t ht
      exact (htarget t ht).mp (hall _ ((hmoves _).mpr ⟨t, ht, rfl⟩))
    · rintro ⟨⟨u, hu⟩, hall⟩
      refine ⟨⟨f u, (hmoves _).mpr ⟨u, hu, rfl⟩⟩, ?_⟩
      intro w hw
      obtain ⟨t, ht, rfl⟩ := (hmoves w).mp hw
      exact (htarget t ht).mpr (hall t ht)

/-- One round attracts the renamed vertices to what corresponds to that to which it attracted them
before. -/
theorem mem_attract_iff {V W : Set VertexId} (hVW : ∀ u, g.containsVertex u → (f u ∈ W ↔ u ∈ V))
    (hv : g.containsVertex v) : f v ∈ g'.arena.attract W ↔ v ∈ g.arena.attract V := by
  have howner : g'.arena.owner? (f v) = g.arena.owner? v := hf.owner v hv
  rw [Arena.mem_attract_iff, Arena.mem_attract_iff, hVW v hv]
  refine or_congr_right (exists_congr fun player => and_congr_right fun _ => ?_)
  rw [howner, hf.draws_iff hlists hlists' hVW hv]

/-- The layers correspond. -/
theorem mem_layer_iff (hv : g.containsVertex v) : f v ∈ g'.arena.layer k ↔ v ∈ g.arena.layer k := by
  induction k generalizing v with
  | zero =>
    show g'.isFinal (f v) = true ↔ g.isFinal v = true
    rw [hf.isFinal v hv]
  | succ k ih => exact hf.mem_attract_iff hlists hlists' (fun u hu => ih hu) hv

/-- The layers settle together. -/
theorem settled_iff : g'.arena.Settled k ↔ g.arena.Settled k := by
  rw [Arena.settled_iff_subset, Arena.settled_iff_subset]
  have hlayer (k : ℕ) (v : VertexId) (hv : g.containsVertex v) :=
    hf.mem_layer_iff hlists hlists' (k := k) hv
  -- all that is in a layer of either graph is a vertex there, or the new name of one
  constructor
  · intro hsub v hv
    have hlive := hlists.contains_of_mem_layer hv
    exact (hlayer k v hlive).mp (hsub ((hlayer (k + 1) v hlive).mpr hv))
  · intro hsub w hw
    obtain ⟨v, hlive, rfl⟩ := hf.bijOn.surjOn (hlists'.contains_of_mem_layer hw)
    exact (hlayer k v hlive).mpr (hsub ((hlayer (k + 1) v hlive).mp hw))

theorem depth_eq : g'.arena.depth = g.arena.depth :=
  congrArg sInf (Set.ext fun _ => hf.settled_iff hlists hlists')

/-- The last layers correspond. -/
theorem image_lastLayer {region region' : VertexSet}
    (hregion : ∀ v, v ∈ region ↔ v ∈ g.arena.layer g.arena.depth)
    (hregion' : ∀ v, v ∈ region' ↔ v ∈ g'.arena.layer g'.arena.depth) :
    region' = region.image f := by
  apply VertexSet.ext
  intro w
  rw [hregion', hf.depth_eq hlists hlists', VertexSet.mem_image]
  simp only [hregion]
  constructor
  · intro hw
    obtain ⟨v, hv, rfl⟩ := hf.bijOn.surjOn (hlists'.contains_of_mem_layer hw)
    exact ⟨v, (hf.mem_layer_iff hlists hlists' hv).mp hw, rfl⟩
  · rintro ⟨v, hv, rfl⟩
    exact (hf.mem_layer_iff hlists hlists' (hlists.contains_of_mem_layer hv)).mpr hv

end Renames

/-- Renamings are looked for among the listed vertices and edges. -/
theorem renames_iff : Renames f g g' ↔
    (∀ v ∈ g.vertices, f v ∈ g'.vertices) ∧
    (∀ v ∈ g.vertices, ∀ w ∈ g.vertices, f v = f w → v = w) ∧
    (∀ w ∈ g'.vertices, ∃ v ∈ g.vertices, f v = w) ∧
    (∀ v ∈ g.vertices, g'.isFinal (f v) = g.isFinal v) ∧
    (∀ v ∈ g.vertices, g'.owner? (f v) = g.owner? v) ∧
    ∀ v ∈ g.vertices, ∀ w ∈ g.vertices,
      (∃ e ∈ g'.edges, e.source = f v ∧ e.target = f w) ↔
        ∃ e ∈ g.edges, e.source = v ∧ e.target = w := by
  simp only [mem_vertices]
  constructor
  · intro hf
    exact ⟨fun v hv => hf.bijOn.mapsTo hv, fun v hv w hw => hf.bijOn.injOn hv hw,
      fun w hw => hf.bijOn.surjOn hw, hf.isFinal, hf.owner,
      fun v hv w hw => hf.moves v w hv hw⟩
  · rintro ⟨hmaps, hinj, hsurj, hfinal, howner, hmoves⟩
    exact ⟨⟨hmaps, fun v hv w hw => hinj v hv w hw, hsurj⟩, hfinal, howner,
      fun v w hv hw => hmoves v hv w hw⟩

instance (f : VertexId → VertexId) (g g' : Graph) : Decidable (Renames f g g') :=
  decidable_of_iff' _ renames_iff

end Graph

/-! ### Two solvers -/

namespace Solver

variable {f : VertexId → VertexId} {solver solver' : Solver} {es es' : List Edge}

/-- Two solvers that nothing cancels from outside answer the same up to a renaming, after the same
number of rounds. -/
structure Agrees (f : VertexId → VertexId) (solver solver' : Solver) : Prop where
  answer : (solver'.solve none).value.1 = (solver.solve none).value.1.map (VertexSet.image f)
  iterations : (solver'.solve none).value.2.iterations? = (solver.solve none).value.2.iterations?

theorem agrees_of_renames (hf : Graph.Renames f solver.graph solver'.graph)
    (hlists : solver.graph.Lists es) (hlists' : solver'.graph.Lists es') {q q' : Problem}
    (hq : Problem.ofGraph solver.graph = .ok q) (hq' : Problem.ofGraph solver'.graph = .ok q')
    (hfirst : solver'.computesFirst = solver.computesFirst)
    (hmax : solver'.maxIterations = solver.maxIterations) : Agrees f solver solver' := by
  -- both games have as many layers, so either both solvers have enough rounds or neither has
  have hdepth := hf.depth_eq hlists hlists'
  by_cases hasked : solver.computesFirst
  · have hasked' := hfirst.trans hasked
    rcases Nat.lt_or_ge solver.graph.arena.depth solver.maxIterations.toNat with hbound | hbound
    · obtain ⟨region, iterations, hregion, hiterations, hcount, hmem⟩ :=
        solve_of_depth_lt hlists hasked hq hbound
      obtain ⟨region', iterations', hregion', hiterations', hcount', hmem'⟩ :=
        solve_of_depth_lt hlists' hasked' hq' (hdepth ▸ hmax ▸ hbound)
      have hsame : iterations' = iterations := by
        rw [← UInt64.toNat_inj, hcount', hcount, hdepth]
      constructor
      · rw [hregion', hregion, hf.image_lastLayer hlists hlists' hmem hmem']
        rfl
      · rw [hiterations', hiterations, hsame]
    · obtain ⟨hanswer, hnone⟩ := solve_of_le_depth hlists hasked hq hbound
      obtain ⟨hanswer', hnone'⟩ := solve_of_le_depth hlists' hasked' hq' (hdepth ▸ hmax ▸ hbound)
      constructor
      · rw [hanswer', hanswer]
        rfl
      · rw [hnone', hnone]
  · obtain ⟨hanswer, hnone⟩ := solve_of_not_first hasked
    obtain ⟨hanswer', hnone'⟩ := solve_of_not_first (hfirst ▸ hasked)
    constructor
    · rw [hanswer', hanswer]
      rfl
    · rw [hnone', hnone]

end Solver

/-- **What a solver answers does not depend on names.** Of two graphs that come about in whatever way
and make games that solvers accept, either solver answers, up to a renaming of the vertices that
takes one game to the other, what the other solver answers, and after the same number of rounds. They
do answer when they are asked to and the bound on their rounds exceeds the number of vertices. -/
theorem Graph.Reachable.solve_renamed {f : VertexId → VertexId} {g g' : Graph} {game game' : Game}
    {solver solver' : Solver} (h : g.Reachable) (h' : g'.Reachable) (hgame : game.graph = .ok g)
    (hgame' : game'.graph = .ok g') (haccepts : Solver.ofGame game = .ok solver)
    (haccepts' : Solver.ofGame game' = .ok solver') (hf : Renames f g g') :
    Solver.Agrees f solver solver' ∧
      ∀ later later' : Solver, later.graph = g → later'.graph = g' →
        later'.computesFirst = later.computesFirst → later'.maxIterations = later.maxIterations →
        Solver.Agrees f later later' ∧
          (later.computesFirst → g.numVertices < later.maxIterations.toNat →
            ∃ region, (later.solve none).value.1 = .ok region) := by
  obtain rfl := Solver.eq_of_graph haccepts hgame
  obtain rfl := Solver.eq_of_graph haccepts' hgame'
  obtain ⟨es, hlists⟩ := h.lists
  obtain ⟨es', hlists'⟩ := h'.lists
  obtain ⟨q, hq⟩ := Solver.exists_ofGraph haccepts h.aligned
  obtain ⟨q', hq'⟩ := Solver.exists_ofGraph haccepts' h'.aligned
  refine ⟨Solver.agrees_of_renames hf hlists hlists' hq hq' rfl rfl, ?_⟩
  intro later later' hlater hlater' hfirst hmax
  rw [← hlater] at hf hlists hq ⊢
  rw [← hlater'] at hf hlists' hq'
  refine ⟨Solver.agrees_of_renames hf hlists hlists' hq hq' hfirst hmax, ?_⟩
  intro hasked hbound
  obtain ⟨region, -, hregion, -⟩ :=
    Solver.solve_of_depth_lt hlists hasked hq (hlists.depth_le.trans_lt hbound)
  exact ⟨region, hregion⟩

/-- The relay with its vertices in the opposite order behind a slot that is free, its edges made in
another order, and a double edge in the place of a single one and the other way round. -/
def Graph.mirrored : Graph :=
  Graph.empty.after [
    .declare .vertex isFinalProperty .bool, .declare .vertex "label" .string,
    .declare .edge actProperty .int, .declare .vertex turnProperty .int, .addVertices 6,
    .addEdges [(⟨2⟩, ⟨2⟩), (⟨0⟩, ⟨3⟩), (⟨2⟩, ⟨3⟩), (⟨4⟩, ⟨3⟩)], .removeVertex ⟨0⟩,
    .addEdges [(⟨5⟩, ⟨4⟩), (⟨5⟩, ⟨4⟩)],
    .setValues turnProperty [(0, .vertex ⟨5⟩, .int 1), (0, .vertex ⟨4⟩, .int 2),
      (0, .vertex ⟨3⟩, .int 1), (0, .vertex ⟨2⟩, .int 2), (0, .vertex ⟨1⟩, .int 2)],
    .setValue 0 (.vertex ⟨3⟩) isFinalProperty (.bool true)]

/-- The opposite order of the vertices of the relay. -/
def VertexId.mirror (v : VertexId) : VertexId := ⟨5 - v.index⟩

theorem Graph.relay_solve_renamed :
    Renames VertexId.mirror relay mirrored ∧
    ∃ region region', (({ graph := relay } : Solver).solve none).value.1 = .ok region ∧
      (({ graph := mirrored } : Solver).solve none).value.1 = .ok region' ∧
      region.toList = [⟨0⟩, ⟨1⟩, ⟨2⟩] ∧ region'.toList = [⟨3⟩, ⟨4⟩, ⟨5⟩] ∧
      region' = region.image VertexId.mirror := by
  obtain ⟨solver, haccepts⟩ := Solver.exists_relay
  obtain ⟨solver', haccepts'⟩ : ∃ solver',
      Solver.ofGame { kind := .turnBased, graph? := some mirrored } = .ok solver' :=
    exists_ok_of_isSome (by decide +kernel)
  have hmirrored : mirrored.Reachable := Reachable.empty.after _
  have hrenames : Renames VertexId.mirror relay mirrored := by decide +kernel
  obtain ⟨-, hlater⟩ := Reachable.solve_renamed reachable_relay hmirrored rfl rfl haccepts haccepts'
    hrenames
  obtain ⟨hagrees, -⟩ := hlater { graph := relay } { graph := mirrored } (by dsimp only)
    (by dsimp only) rfl rfl
  have hsolve : (({ graph := relay } : Solver).solve none).value.1.toOption.map (·.toList) =
      some [⟨0⟩, ⟨1⟩, ⟨2⟩] := by
    decide +kernel
  have hsolve' : (({ graph := mirrored } : Solver).solve none).value.1.toOption.map (·.toList) =
      some [⟨3⟩, ⟨4⟩, ⟨5⟩] := by
    decide +kernel
  obtain ⟨region, hregion, hlist⟩ := exists_ok_of_map hsolve
  obtain ⟨region', hregion', hlist'⟩ := exists_ok_of_map hsolve'
  have hanswer := hagrees.answer
  rw [hregion, hregion'] at hanswer
  exact ⟨hrenames, region, region', hregion, hregion', hlist, hlist', Except.ok.inj hanswer⟩

end GraphGames
