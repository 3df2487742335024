import GraphGames.Proofs.Layers

/-!
# What a solver answers

A solver that nothing cancels from outside answers with the last layer of its game when the bound on
its rounds exceeds the number of that layer, and reports the bound otherwise.

* `Solver.of_solve`: an answer is the region that a successful run for player one has found;
* `Solver.solve_of_depth_lt`, `Solver.solve_of_le_depth`, `Solver.solve_of_not_first`: the answer and
  the number of rounds with enough rounds, without, and when no region is asked for;
* `Solver.firstRegion_eq_of_run`, `Solver.solve_eq_of_depth_lt`: the same for a region that is known to
  be the last layer.
-/

namespace GraphGames

namespace Solver

variable {solver next : Solver} {es : List Edge} {allowance : Allowance} {region : VertexSet}

/-- Solving leaves behind what the run leaves behind. -/
theorem value_solve (allowance : Allowance) (solver : Solver) :
    (solver.solve allowance).value =
      ((solver.run allowance).value.1.bind fun _ => (solver.run allowance).value.2.firstRegion,
        (solver.run allowance).value.2) := rfl

/-- A run that asks for no region finds none. -/
theorem run_of_not_first (hfirst : ¬ solver.computesFirst) :
    (solver.run allowance).value = (.ok (), solver.cleared) := by
  unfold run
  rw [if_neg hfirst]
  rfl

/-- A run for player one fails when the computation that it starts is cancelled. -/
theorem run_of_error (hfirst : solver.computesFirst) {p : Problem} {start last : Progress}
    {cause : Cause} (hprepare : solver.prepare = .ok (p, start))
    (hcompute : (p.compute .controllable allowance start).value = (.error cause, last)) :
    (solver.run allowance).value = (.error (.cancelled cause), solver.cleared) := by
  unfold run
  rw [if_pos hfirst, hprepare]
  simp only [Traced.value_bind]
  rw [hcompute]
  rfl

/-- Solving answers with the region that a successful run for player one has found. -/
theorem of_solve (h : (solver.solve allowance).value.1 = .ok region) :
    solver.computesFirst ∧ ∃ next, (solver.run allowance).value = (.ok (), next) ∧
      next.firstRegion = .ok region := by
  rw [value_solve] at h
  cases hrun : (solver.run allowance).value with
  | mk answer next =>
    rw [hrun] at h
    cases answer with
    | error e => cases h
    | ok =>
      refine ⟨?_, next, rfl, h⟩
      by_contra hfirst
      rw [run_of_not_first hfirst] at hrun
      cases hrun
      cases h

/-- The last layer is what a successful run has found. -/
theorem firstRegion_eq_of_run (hlists : solver.graph.Lists es) (hfirst : solver.computesFirst)
    (hregion : ∀ v, v ∈ region ↔ v ∈ solver.graph.arena.layer solver.graph.arena.depth)
    (h : (solver.run allowance).value = (.ok (), next)) :
    next.firstRegion = .ok region ∧ ∃ iterations, next.iterations? = some iterations ∧
      iterations.toNat = solver.graph.arena.depth + 1 := by
  obtain ⟨found, iterations, hfound, hiterations, hcount, hmem⟩ :=
    firstRegion_of_run hlists hfirst h
  obtain rfl : found = region := VertexSet.ext fun v => (hmem v).trans (hregion v).symm
  exact ⟨hfound, iterations, hiterations, hcount⟩

/-- With enough rounds, a solver answers with the last layer, in one round more than its number. -/
theorem solve_of_depth_lt (hlists : solver.graph.Lists es) (hfirst : solver.computesFirst)
    {q : Problem} (hq : Problem.ofGraph solver.graph = .ok q)
    (hbound : solver.graph.arena.depth < solver.maxIterations.toNat) :
    ∃ region iterations, (solver.solve none).value.1 = .ok region ∧
      (solver.solve none).value.2.iterations? = some iterations ∧
      iterations.toNat = solver.graph.arena.depth + 1 ∧
      ∀ v, v ∈ region ↔ v ∈ solver.graph.arena.layer solver.graph.arena.depth := by
  obtain ⟨next, hrun⟩ := exists_run hlists hfirst hq hbound
  obtain ⟨region, iterations, hregion, hiterations, hcount, hmem⟩ :=
    firstRegion_of_run hlists hfirst hrun
  refine ⟨region, iterations, ?_, ?_, hcount, hmem⟩
  · rw [value_solve, hrun]
    exact hregion
  · rw [value_solve, hrun]
    exact hiterations

/-- The last layer is what a solver with enough rounds answers. -/
theorem solve_eq_of_depth_lt (hlists : solver.graph.Lists es) (hfirst : solver.computesFirst)
    {q : Problem} (hq : Problem.ofGraph solver.graph = .ok q)
    (hregion : ∀ v, v ∈ region ↔ v ∈ solver.graph.arena.layer solver.graph.arena.depth)
    (hbound : solver.graph.arena.depth < solver.maxIterations.toNat) :
    (solver.solve none).value.1 = .ok region ∧
      ∃ iterations, (solver.solve none).value.2.iterations? = some iterations ∧
        iterations.toNat = solver.graph.arena.depth + 1 := by
  obtain ⟨next, hrun⟩ := exists_run hlists hfirst hq hbound
  rw [value_solve, hrun]
  exact firstRegion_eq_of_run hlists hfirst hregion hrun

/-- Without enough rounds, a solver reports the bound. -/
theorem solve_of_le_depth (hlists : solver.graph.Lists es) (hfirst : solver.computesFirst)
    {q : Problem} (hq : Problem.ofGraph solver.graph = .ok q)
    (hbound : solver.maxIterations.toNat ≤ solver.graph.arena.depth) :
    (solver.solve none).value.1 = .error (.cancelled .iterationBound) ∧
      (solver.solve none).value.2.iterations? = none := by
  obtain ⟨p, start, hprepare⟩ := exists_prepare hq
  obtain ⟨hp, hmax, hstart⟩ := of_prepare hprepare
  cases hcompute : (p.compute .controllable none start).value with
  | mk answer last =>
  cases answer with
  | ok marking =>
    have henough := hp.depth_lt_of_answer hlists (hp.atLayer_start hstart) hcompute
    rw [hmax] at henough
    omega
  | error cause =>
    obtain ⟨rfl, -⟩ := Problem.polls_of_error hcompute
    rw [value_solve, run_of_error hfirst hprepare hcompute]
    exact ⟨rfl, rfl⟩

/-- A solver that is not asked for the region of player one has no answer. -/
theorem solve_of_not_first (hfirst : ¬ solver.computesFirst) :
    (solver.solve none).value.1 = .error (.notReady .winningRegion) ∧
      (solver.solve none).value.2.iterations? = none := by
  rw [value_solve, run_of_not_first hfirst]
  exact ⟨rfl, rfl⟩

end Solver

end GraphGames
