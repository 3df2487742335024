import GraphGames.Proofs.Attraction
import GraphGames.Proofs.Marking
import GraphGames.Proofs.Resumption
import GraphGames.Solver

/-!
# Rounds compute layers

A computation for both players that starts with the final vertices of a graph has reached the
vertices of the `k`-th layer of its game after `k` rounds, and completes in the round that finds the
layers settled.

* `Progress.AtLayer`: a computation has reached a layer;
* `Problem.poll_of_settled`, `Problem.poll_of_not_settled`: what the next round does there;
* `Problem.compute_layers`: what the whole computation does;
* `Problem.Layered`, `Solver.Counts`, `Graph.Reachable.layered`: the rounds of a computation, and the
  number of rounds that a solver reports, in terms of what player one can force.
-/

namespace GraphGames

variable {g : Graph} {es : List Edge} {p : Problem} {s next : Progress} {k n : ℕ}

/-- The computation has begun `k` rounds and reached the `k`-th layer of the game of the graph. -/
structure Progress.AtLayer (g : Graph) (p : Problem) (k : ℕ) (s : Progress) : Prop where
  iteration : s.iteration.toNat = k
  win : ∀ v, v ∈ s.win ↔ v ∈ g.arena.layer k
  mirrors : s.Mirrors p

/-- Counting a round does not touch the marking. -/
theorem Progress.Mirrors.begun (h : s.Mirrors p) : (Problem.begun s).Mirrors p :=
  ⟨h.graph, h.type, h.isMarked_iff⟩

namespace Problem

/-- The bound on rounds does not change what is declared. -/
theorem Declared.bounded (h : p.Declared g) (bound : UInt64) :
    ({ p with maxIterations := bound } : Problem).Declared g :=
  ⟨h.graph, h.owner, h.final, h.owned⟩

theorem Declared.atLayer_start (h : p.Declared g) {name : String}
    (hstart : Progress.start p name = .ok s) : s.AtLayer g p 0 := by
  obtain ⟨hmirrors, hiteration, hwin⟩ := Progress.mirrors_start hstart
  refine ⟨?_, ?_, hmirrors⟩
  · rw [hiteration]
    rfl
  · intro v
    rw [hwin]
    exact h.final v

/-- Every vertex with a move has an owner. -/
theorem Declared.arena_owned (h : p.Declared g) (hlists : g.Lists es) : g.arena.Owned :=
  fun v _ hmove => h.owned v (hlists.contains_of_moves hmove).1

/-! ### One round -/

/-- Joining what a round finds takes a layer to the next. -/
theorem Declared.mem_next (h : p.Declared g) (hlists : g.Lists es) (hs : s.AtLayer g p k)
    (v : VertexId) :
    v ∈ s.win ∪ (Operator.controllable.predecessors p s.win).value ↔
      v ∈ g.arena.layer (k + 1) := by
  have hwin : {w | w ∈ s.win} = g.arena.layer k := Set.ext hs.win
  rw [h.mem_join hlists, hwin]
  rfl

/-- A round finds nothing iff the layers are settled. -/
theorem Declared.isEmpty_iff_settled (h : p.Declared g) (hlists : g.Lists es)
    (hs : s.AtLayer g p k) :
    (Operator.controllable.predecessors p s.win).value.isEmpty ↔ g.arena.Settled k := by
  have hwin : {w | w ∈ s.win} = g.arena.layer k := Set.ext hs.win
  rw [h.isEmpty_iff_closed hlists, hwin, Arena.settled_iff_closed]

/-- The round that finds the layers settled completes the computation. -/
theorem Declared.poll_of_settled (h : p.Declared g) (hlists : g.Lists es) (hs : s.AtLayer g p k)
    (hbound : k < p.maxIterations.toNat) (hsettled : g.arena.Settled k) :
    (p.poll .controllable none s).value = (.completed s.marking, begun s) := by
  have hb : ¬ p.maxIterations ≤ s.iteration := by
    rw [UInt64.le_iff_toNat_le, hs.iteration]
    omega
  rw [poll_none, if_neg hb, if_pos ((h.isEmpty_iff_settled hlists hs).mpr hsettled)]

/-- Any other round reaches the next layer. -/
theorem Declared.poll_of_not_settled (h : p.Declared g) (hlists : g.Lists es)
    (hs : s.AtLayer g p k) (hbound : k < p.maxIterations.toNat)
    (hsettled : ¬ g.arena.Settled k) :
    ∃ next, (p.poll .controllable none s).value = (.suspended, next) ∧
      next.AtLayer g p (k + 1) := by
  have hb : s.iteration < p.maxIterations := by
    rw [UInt64.lt_iff_toNat_lt, hs.iteration]
    exact hbound
  have hfound := mt (h.isEmpty_iff_settled hlists hs).mp hsettled
  refine ⟨(begun s).join (Operator.controllable.predecessors p s.win).value, ?_, ?_, ?_, ?_⟩
  · rw [poll_none, if_neg (UInt64.not_le.mpr hb), if_neg hfound]
  · rw [← hs.iteration]
    exact toNat_begun hb
  · intro v
    exact h.mem_next hlists hs v
  · exact hs.mirrors.begun.join _

/-- A poll that suspends reaches the next layer. -/
theorem Declared.atLayer_poll (h : p.Declared g) (hlists : g.Lists es) (hs : s.AtLayer g p k)
    (hsuspended : (p.poll .controllable none s).value.1.isSuspended) :
    (p.poll .controllable none s).value.2.AtLayer g p (k + 1) := by
  have hbound : k < p.maxIterations.toNat := by
    rw [← hs.iteration, ← UInt64.lt_iff_toNat_lt]
    exact (iteration_poll hsuspended).1
  by_cases hsettled : g.arena.Settled k
  · rw [h.poll_of_settled hlists hs hbound hsettled] at hsuspended
    cases hsuspended
  · obtain ⟨next, hnext, hlayer⟩ := h.poll_of_not_settled hlists hs hbound hsettled
    rw [hnext]
    exact hlayer

/-! ### Many rounds -/

/-- Polls that suspend go up one layer each. -/
theorem Declared.atLayer_resumed (h : p.Declared g) (hlists : g.Lists es) (hs : s.AtLayer g p k)
    (hsuspended : ∀ polled ∈ p.polls .controllable (.replicate n none) s, polled.1.isSuspended) :
    (p.resumed .controllable (.replicate n none) s).AtLayer g p (k + n) := by
  induction n generalizing s k with
  | zero => exact hs
  | succ n ih =>
    obtain ⟨hfirst, hrest⟩ := List.forall_mem_cons.mp hsuspended
    have hlast := ih (h.atLayer_poll hlists hs hfirst) hrest
    have hsum : k + 1 + n = k + (n + 1) := by omega
    rwa [hsum] at hlast

/-- With enough rounds, the computation goes on up to the last layer and completes there. -/
theorem Declared.compute_layers (h : p.Declared g) (hlists : g.Lists es) (hs : s.AtLayer g p k)
    (hk : k ≤ g.arena.depth) (hbound : g.arena.depth < p.maxIterations.toNat) :
    ∃ last, (p.compute .controllable none s).value = (.ok last.marking, last) ∧
      last.iteration.toNat = g.arena.depth + 1 ∧ last.Mirrors p ∧
      ∀ v, v ∈ last.win ↔ v ∈ g.arena.layer g.arena.depth := by
  -- the induction is on the number of layers above the one that was reached
  generalize hleft : g.arena.depth - k = left
  induction left generalizing s k with
  | zero =>
    obtain rfl : k = g.arena.depth := by omega
    have hpoll := h.poll_of_settled hlists hs hbound hlists.settled.depth
    have hb : s.iteration < p.maxIterations := by
      rw [UInt64.lt_iff_toNat_lt, hs.iteration]
      exact hbound
    refine ⟨begun s, compute_none_of_completed hpoll, ?_, hs.mirrors.begun, hs.win⟩
    rw [toNat_begun hb, hs.iteration]
  | succ left ih =>
    have hlt : k < g.arena.depth := by omega
    obtain ⟨next, hnext, hlayer⟩ := h.poll_of_not_settled hlists hs (hlt.trans hbound)
      (Arena.not_settled_of_lt_depth hlt)
    rw [compute_none_of_suspended hnext]
    exact ih hlayer hlt (by omega)

/-- Without enough rounds, the computation does not answer. -/
theorem Declared.depth_lt_of_answer (h : p.Declared g) (hlists : g.Lists es)
    (hs : s.AtLayer g p k) {marking : Marking} {last : Progress}
    (hanswer : (p.compute .controllable none s).value = (.ok marking, last)) :
    g.arena.depth < p.maxIterations.toNat := by
  obtain ⟨n, hsuspended, hlast, -⟩ := polls_of_compute hanswer
  have hlayer := h.atLayer_resumed hlists hs hsuspended
  obtain ⟨-, -, hbound, hempty⟩ := of_completed hlast
  have hdepth := ((h.isEmpty_iff_settled hlists hlayer).mp hempty).depth_le
  rw [UInt64.lt_iff_toNat_lt, hlayer.iteration] at hbound
  exact hdepth.trans_lt hbound

end Problem

/-! ### Runs of a solver -/

namespace Solver

variable {solver next : Solver} {allowance : Allowance}

/-- A run leaves nothing behind, or was asked for the region of player one and keeps the answer of the
computation that it starts. -/
theorem run_cases (allowance : Allowance) (solver : Solver) :
    ((solver.run allowance).value.2 = solver.cleared ∧
      ((solver.run allowance).value.1 = .ok () → ¬ solver.computesFirst)) ∨
    (solver.computesFirst ∧ ∃ p start marking last, solver.prepare = .ok (p, start) ∧
      (p.compute .controllable allowance start).value = (.ok marking, last) ∧
      (solver.run allowance).value =
        (.ok (), { solver with marking? := marking, iterations? := last.iteration })) := by
  unfold run
  by_cases hfirst : solver.computesFirst
  · rw [if_pos hfirst]
    cases hprepare : solver.prepare with
    | error e =>
      refine Or.inl ⟨rfl, ?_⟩
      intro h
      cases h
    | ok prepared =>
      obtain ⟨p, start⟩ := prepared
      simp only [Traced.value_bind]
      cases hcompute : (p.compute .controllable allowance start).value with
      | mk answer last =>
        cases answer with
        | error cause =>
          refine Or.inl ⟨rfl, ?_⟩
          intro h
          cases h
        | ok marking => exact Or.inr ⟨hfirst, p, start, marking, last, rfl, hcompute, rfl⟩
  · rw [if_neg hfirst]
    exact Or.inl ⟨rfl, fun _ => hfirst⟩

/-- A successful run for player one keeps the answer of the computation that it starts. -/
theorem of_run (hfirst : solver.computesFirst)
    (h : (solver.run allowance).value = (.ok (), next)) :
    ∃ p start marking last, solver.prepare = .ok (p, start) ∧
      (p.compute .controllable allowance start).value = (.ok marking, last) ∧
      next = { solver with marking? := marking, iterations? := last.iteration } := by
  rcases run_cases allowance solver with
    ⟨-, hnot⟩ | ⟨-, p, start, marking, last, hprepare, hcompute, hrun⟩
  · rw [h] at hnot
    exact absurd hfirst (hnot rfl)
  · rw [h] at hrun
    exact ⟨p, start, marking, last, hprepare, hcompute, congrArg Prod.snd hrun⟩

/-- A run for player one succeeds when the computation that it starts answers. -/
theorem run_of_compute (hfirst : solver.computesFirst) {p : Problem} {start last : Progress}
    {marking : Marking} (hprepare : solver.prepare = .ok (p, start))
    (hcompute : (p.compute .controllable allowance start).value = (.ok marking, last)) :
    (solver.run allowance).value =
      (.ok (), { solver with marking? := marking, iterations? := last.iteration }) := by
  unfold run
  rw [if_pos hfirst, hprepare]
  simp only [Traced.value_bind]
  rw [hcompute]
  rfl

/-- A run starts with the problem of its graph, under the bound of the solver. -/
theorem of_prepare {p : Problem} {start : Progress} (h : solver.prepare = .ok (p, start)) :
    p.Declared solver.graph ∧ p.maxIterations = solver.maxIterations ∧
      Progress.startFree p = .ok start := by
  obtain ⟨q, hq, h⟩ := bind_eq_ok_iff.mp h
  obtain ⟨start', hstart, h⟩ := bind_eq_ok_iff.mp h
  cases h
  exact ⟨(Problem.declared_of_ofGraph hq).bounded _, rfl, hstart⟩

/-- A run can start when the problem can be read, as there is a free name for the marking. -/
theorem exists_prepare {q : Problem} (h : Problem.ofGraph solver.graph = .ok q) :
    ∃ p start, solver.prepare = .ok (p, start) := by
  obtain ⟨start, hstart⟩ :=
    Progress.exists_startFree { q with maxIterations := solver.maxIterations }
  exact ⟨_, start, bind_eq_ok_iff.mpr ⟨q, h, bind_eq_ok_iff.mpr ⟨start, hstart, rfl⟩⟩⟩

/-- A successful run has found the last layer of the game, in one round more than its number. -/
theorem firstRegion_of_run (hlists : solver.graph.Lists es) (hfirst : solver.computesFirst)
    (h : (solver.run allowance).value = (.ok (), next)) :
    ∃ region iterations, next.firstRegion = .ok region ∧ next.iterations? = some iterations ∧
      iterations.toNat = solver.graph.arena.depth + 1 ∧
      ∀ v, v ∈ region ↔ v ∈ solver.graph.arena.layer solver.graph.arena.depth := by
  obtain ⟨p, start, marking, last, hprepare, hcompute, rfl⟩ := of_run hfirst h
  obtain ⟨hp, -, hstart⟩ := of_prepare hprepare
  have hlayer := hp.atLayer_start hstart
  have hnone := Problem.compute_none_of_answer hcompute
  have hbound := hp.depth_lt_of_answer hlists hlayer hnone
  obtain ⟨last', hlast, hiteration, hmirrors, hwin⟩ :=
    hp.compute_layers hlists hlayer (Nat.zero_le _) hbound
  rw [hnone] at hlast
  cases hlast
  refine ⟨_, _, rfl, rfl, hiteration, ?_⟩
  intro v
  rw [Marking.mem_marked, hmirrors.isMarked_iff, hwin, hmirrors.graph, hp.graph]
  exact and_iff_right_of_imp hlists.contains_of_mem_layer

/-- A run succeeds when the problem can be read and there are enough rounds. -/
theorem exists_run (hlists : solver.graph.Lists es) (hfirst : solver.computesFirst) {q : Problem}
    (hq : Problem.ofGraph solver.graph = .ok q)
    (hbound : solver.graph.arena.depth < solver.maxIterations.toNat) :
    ∃ next, (solver.run none).value = (.ok (), next) := by
  obtain ⟨p, start, hprepare⟩ := exists_prepare hq
  obtain ⟨hp, hmax, hstart⟩ := of_prepare hprepare
  obtain ⟨last, hcompute, -⟩ := hp.compute_layers hlists (hp.atLayer_start hstart) (Nat.zero_le _)
    (hmax ▸ hbound)
  exact ⟨_, run_of_compute hfirst hprepare hcompute⟩

end Solver

/-! ### What player one can force -/

/-- The rounds of a computation that starts with the final vertices of a graph, in terms of the moves
within which player one can force a visit of a final vertex. -/
structure Problem.Layered (g : Graph) (p : Problem) (start : Progress) : Prop where
  /-- After `k` polls that suspended, `k` rounds were counted, and the region is what can be forced
  within `k` moves. -/
  suspended : ∀ k,
    (∀ polled ∈ p.polls .controllable (.replicate k none) start, polled.1.isSuspended) →
    (p.resumed .controllable (.replicate k none) start).iteration.toNat = k ∧
      ∀ v, v ∈ (p.resumed .controllable (.replicate k none) start).win ↔ g.arena.Forces k v
  /-- Within the bound, the next poll completes iff no more can be forced with one more move, and
  suspends otherwise. -/
  completed : ∀ k,
    (∀ polled ∈ p.polls .controllable (.replicate k none) start, polled.1.isSuspended) →
    k < p.maxIterations.toNat →
    ((p.poll .controllable none (p.resumed .controllable (.replicate k none) start)).value.1.isCompleted
      ↔ ∀ v, g.arena.Forces (k + 1) v → g.arena.Forces k v) ∧
    ((p.poll .controllable none (p.resumed .controllable (.replicate k none) start)).value.1.isSuspended
      ↔ ∃ v, g.arena.Forces (k + 1) v ∧ ¬ g.arena.Forces k v)

/-- The runs of a solver, in terms of the moves within which player one can force a visit of a final
vertex. -/
structure Solver.Counts (solver : Solver) : Prop where
  /-- A successful run reports one round more than the greatest distance in the region that it has
  found, which is all that can be forced. -/
  iterations : ∀ allowance next, (solver.run allowance).value = (.ok (), next) →
    ∃ region iterations, next.firstRegion = .ok region ∧ next.iterations? = some iterations ∧
      (∀ v, v ∈ region ↔ ∃ k, solver.graph.arena.Forces k v) ∧
      iterations.toNat = 1 + region.toList.toFinset.sup solver.graph.arena.distance
  /-- A run succeeds if no distance reaches the bound. -/
  succeeds : 0 < solver.maxIterations.toNat →
    (∀ v k, solver.graph.arena.Forces k v →
      solver.graph.arena.distance v < solver.maxIterations.toNat) →
    ∃ next, (solver.run none).value = (.ok (), next)

theorem Problem.Declared.layered_start (h : p.Declared g) (hlists : g.Lists es) {name : String}
    (hstart : Progress.start p name = .ok s) : p.Layered g s := by
  have howned := h.arena_owned hlists
  have hreached (k : ℕ)
      (hk : ∀ polled ∈ p.polls .controllable (.replicate k none) s, polled.1.isSuspended) :
      (p.resumed .controllable (.replicate k none) s).AtLayer g p k := by
    have hlayer := h.atLayer_resumed hlists (h.atLayer_start hstart) hk
    rwa [Nat.zero_add] at hlayer
  constructor
  · intro k hk
    refine ⟨(hreached k hk).iteration, ?_⟩
    intro v
    rw [(hreached k hk).win, Arena.mem_layer_iff howned hlists.settled]
  · intro k hk hbound
    -- there is more to be forced iff the layers are not settled
    rw [← not_forall_not]
    simp only [not_and, not_not]
    rw [← Arena.settled_iff howned hlists.settled]
    by_cases hsettled : g.arena.Settled k
    · rw [h.poll_of_settled hlists (hreached k hk) hbound hsettled]
      exact ⟨iff_of_true rfl hsettled, iff_of_false Bool.false_ne_true (not_not.mpr hsettled)⟩
    · obtain ⟨next, hnext, -⟩ := h.poll_of_not_settled hlists (hreached k hk) hbound hsettled
      rw [hnext]
      exact ⟨iff_of_false Bool.false_ne_true hsettled, iff_of_true rfl hsettled⟩

/-- The vertices of the last layer, as a set that can be listed. -/
theorem Graph.Lists.exists_lastLayer (h : g.Lists es) :
    ∃ region : VertexSet, ∀ v, v ∈ region ↔ v ∈ g.arena.layer g.arena.depth := by
  classical
  refine ⟨.ofList (g.vertices.filter fun v => v ∈ g.arena.layer g.arena.depth), ?_⟩
  intro v
  rw [Std.ExtTreeSet.mem_ofList, List.contains_iff_mem, List.mem_filter, decide_eq_true_iff,
    Graph.mem_vertices]
  exact and_iff_right_of_imp h.contains_of_mem_layer

/-- The greatest distance in the last layer is its number. -/
theorem Graph.Lists.sup_distance (h : g.Lists es) (howned : g.arena.Owned) {region : VertexSet}
    (hregion : ∀ v, v ∈ region ↔ v ∈ g.arena.layer g.arena.depth) :
    region.toList.toFinset.sup g.arena.distance = g.arena.depth := by
  apply Arena.sup_distance howned h.settled
  intro v
  rw [List.mem_toFinset, Std.ExtTreeSet.mem_toList, hregion]

theorem Solver.counts {solver : Solver} (hlists : solver.graph.Lists es)
    (hfirst : solver.computesFirst) {q : Problem} (hq : Problem.ofGraph solver.graph = .ok q) :
    solver.Counts := by
  have hdeclared := Problem.declared_of_ofGraph hq
  have howned := hdeclared.arena_owned hlists
  have hsettled := hlists.settled
  constructor
  · intro allowance next hrun
    obtain ⟨region, iterations, hregion, hiterations, hcount, hmem⟩ :=
      firstRegion_of_run hlists hfirst hrun
    refine ⟨region, iterations, hregion, hiterations, ?_, ?_⟩
    · intro v
      rw [hmem, Arena.mem_layer_depth_iff howned hsettled]
    · rw [hlists.sup_distance howned hmem, hcount, Nat.add_comm]
  · intro hpos hdistance
    apply exists_run hlists hfirst hq
    -- the bound exceeds all distances in the last layer, hence its number
    obtain ⟨region, hregion⟩ := hlists.exists_lastLayer
    rw [← hlists.sup_distance howned hregion, Finset.sup_lt_iff hpos]
    intro v hv
    rw [List.mem_toFinset, Std.ExtTreeSet.mem_toList, hregion] at hv
    obtain ⟨k, hk⟩ := (Arena.mem_layer_depth_iff howned hsettled).mp hv
    exact hdistance v k hk

/-- **The rounds compute what player one can force**, one move after the other, and a solver reports
how many it took. -/
theorem Graph.Reachable.layered (h : g.Reachable) (hp : Problem.ofGraph g = .ok p) :
    (∀ bound name start, Progress.start { p with maxIterations := bound } name = .ok start →
      Problem.Layered g { p with maxIterations := bound } start) ∧
    ∀ solver : Solver, solver.graph = g → solver.computesFirst → solver.Counts := by
  obtain ⟨es, hlists⟩ := h.lists
  constructor
  · intro bound name start hstart
    exact ((Problem.declared_of_ofGraph hp).bounded bound).layered_start hlists hstart
  · intro solver hgraph hfirst
    subst hgraph
    exact Solver.counts hlists hfirst hp

/-- A game on five vertices. Player one wins from `0` by moving to `1`, whence both moves of player
two lead to the final vertex `2`; from `3` player two stays where they are, and `4` has no moves. Its
slot was freed before, together with that of the edge from `0`. -/
def Graph.relay : Graph :=
  Graph.empty.after [
    .declare .vertex turnProperty .int, .declare .vertex isFinalProperty .bool,
    .declare .edge actProperty .int, .addVertices 5, .addEdge ⟨4⟩ ⟨0⟩, .removeVertex ⟨4⟩,
    .addVertex, .addEdges [(⟨0⟩, ⟨1⟩), (⟨1⟩, ⟨2⟩), (⟨1⟩, ⟨2⟩), (⟨3⟩, ⟨2⟩), (⟨3⟩, ⟨3⟩)],
    .setValues turnProperty [(0, .vertex ⟨0⟩, .int 1), (0, .vertex ⟨1⟩, .int 2),
      (0, .vertex ⟨2⟩, .int 1), (0, .vertex ⟨3⟩, .int 2), (0, .vertex ⟨4⟩, .int 2)],
    .setValue 0 (.vertex ⟨2⟩) isFinalProperty (.bool true)]

theorem Graph.reachable_relay : relay.Reachable := Reachable.empty.after _

theorem Problem.exists_relay : ∃ p, ofGraph Graph.relay = .ok p :=
  exists_ok_of_isSome (by decide +kernel)

theorem Graph.relay_layered :
    (∃ p start, Problem.ofGraph relay = .ok p ∧
      Progress.startFree { p with maxIterations := 3 } = .ok start ∧
      Problem.Layered relay { p with maxIterations := 3 } start) ∧
    ({ graph := relay } : Solver).Counts ∧
    (({ graph := relay } : Solver).run none).value.2.iterations? = some 3 := by
  obtain ⟨p, hp⟩ := Problem.exists_relay
  obtain ⟨start, hstart⟩ := Progress.exists_startFree { p with maxIterations := 3 }
  obtain ⟨hlayered, hcounts⟩ := Reachable.layered reachable_relay hp
  refine ⟨⟨p, start, hp, hstart, hlayered 3 _ start hstart⟩, hcounts _ ?_ ?_, ?_⟩
  · dsimp only
  · rfl
  · decide +kernel

end GraphGames
