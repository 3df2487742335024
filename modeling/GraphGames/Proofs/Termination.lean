import GraphGames.Proofs.Checkpoints
import GraphGames.Proofs.Closure
import GraphGames.Proofs.WinningRegion

/-!
# Computations end

Nothing in a computation says how long it takes. Each poll that suspends has taken vertices into the
region, from a fixed stock: the vertices of the graph outside whose owner the operator accepts. So
there are at most as many such polls as there are vertices in that stock, wherever the computation
starts.

* `Problem.Enlarges`, `Problem.enlarges_of_suspended`: what a poll that suspends adds to the region;
* `Problem.add_length_candidates_le`: several polls that suspend use up the stock;
* `Problem.EndsAfter`, `Problem.exists_endsAfter`: how a computation ends, and that it does;
* `Problem.Declared.length_candidates`: the stock of a computation that starts with the final vertices;
* `Problem.Terminates`, `Solver.EndsWithin`, `Graph.Reachable.terminates`: how long a computation and
  the run of a solver take.
-/

namespace GraphGames

/-- What a computation makes of a poll that does not suspend. -/
def Outcome.answer? : Outcome → Option (Except Cause Marking)
  | completed marking => some (.ok marking)
  | suspended => none
  | cancelled cause => some (.error cause)

namespace Problem

variable {p : Problem} {operator : Operator} {s next last : Progress} {es : List Edge}
variable {n : ℕ}

/-! ### Polls that suspend -/

/-- A region has grown, by vertices of the graph whose owner the operator accepts. -/
structure Enlarges (p : Problem) (operator : Operator) (region larger : VertexSet) : Prop where
  kept : ∀ v ∈ region, v ∈ larger
  grown : ∃ v ∈ larger, v ∉ region
  joined : ∀ v ∈ larger, v ∉ region → p.graph.containsVertex v ∧
    ∃ player, operator.accepts player ∧ p.owner? v = some player

/-- A poll that suspends has enlarged the region. -/
theorem enlarges_of_suspended (hlists : p.graph.Lists es) {allowance : Allowance}
    (h : (p.poll operator allowance s).value = (.suspended, next)) :
    p.Enlarges operator s.win next.win := by
  have hnone : (p.poll operator none s).value = (.suspended, next) := by
    rw [← h]
    apply (poll_eq_of_kept _).symm
    simp [h, Outcome.isCancelled]
  obtain ⟨rfl, -, hfound⟩ := of_suspended hnone
  refine ⟨?_, ?_, ?_⟩
  · intro v hv
    exact Std.ExtTreeSet.mem_union_iff.mpr (.inl hv)
  · obtain ⟨v, hv⟩ := VertexSet.exists_mem hfound
    exact ⟨v, Std.ExtTreeSet.mem_union_iff.mpr (.inr hv), ((mem_predecessors_iff hlists).mp hv).1⟩
  · intro v hv hout
    have hjoined := (Std.ExtTreeSet.mem_union_iff.mp hv).resolve_left hout
    obtain ⟨hcontains, -, howner⟩ :=
      mem_candidates.mp (mem_candidates_of_mem_predecessors hlists hjoined)
    exact ⟨hcontains, howner⟩

/-- Polls that suspend take a vertex each at least from those that may join. -/
theorem add_length_candidates_le (hlists : p.graph.Lists es)
    (h : ∀ polled ∈ p.polls operator (.replicate n none) s, polled.1.isSuspended) :
    n + (p.candidates operator (p.resumed operator (.replicate n none) s).win).length ≤
      (p.candidates operator s.win).length := by
  induction n generalizing s with
  | zero => simp [resumed]
  | succ n ih =>
    obtain ⟨hfirst, hrest⟩ := List.forall_mem_cons.mp h
    have hfewer := length_candidates_lt hlists (value_of_isSuspended hfirst)
    have hlast := ih hrest
    rw [List.replicate_succ, resumed, List.foldl_cons]
    show n + 1 + (p.candidates operator (p.resumed operator (.replicate n none) _).win).length ≤ _
    omega

/-! ### The end -/

/-- After so many polls that suspend, the next one does not, and its outcome is that of the whole
computation. -/
structure EndsAfter (p : Problem) (operator : Operator) (s : Progress) (n : ℕ)
    (answer : Except Cause Marking) (last : Progress) : Prop where
  suspended : ∀ polled ∈ p.polls operator (.replicate n none) s, polled.1.isSuspended
  ended : ∃ outcome, (p.poll operator none (p.resumed operator (.replicate n none) s)).value =
    (outcome, last) ∧ outcome.answer? = some answer
  compute : (p.compute operator none s).value = (answer, last)
  /-- The computation has taken the steps of these polls, and no others. -/
  steps : (p.compute operator none s).steps = (List.range (n + 1)).flatMap fun i =>
    (p.poll operator none (p.resumed operator (.replicate i none) s)).steps

/-- A computation ends with its marking or at the bound, before the vertices that may join run out. -/
theorem exists_endsAfter (hlists : p.graph.Lists es) (operator : Operator) (s : Progress) :
    ∃ n answer last, n ≤ (p.candidates operator s.win).length ∧
      p.EndsAfter operator s n answer last ∧
      (answer = .ok last.marking ∨ answer = .error .iterationBound) := by
  obtain ⟨n, hsuspended, hend⟩ := exists_polls p operator s
  have hcandidates := add_length_candidates_le hlists hsuspended
  have hsteps := steps_compute hsuspended hend
  have hcompute := compute_of_polls hsuspended
  cases hvalue : (p.poll operator none (p.resumed operator (.replicate n none) s)).value with
  | mk outcome last =>
  cases outcome with
  | completed marking =>
    rw [compute_none_of_completed hvalue] at hcompute
    obtain ⟨rfl, rfl, -⟩ := of_completed hvalue
    exact ⟨n, _, _, by omega, ⟨hsuspended, ⟨_, hvalue, rfl⟩, hcompute, hsteps⟩, .inl rfl⟩
  | cancelled cause =>
    rw [compute_of_cancelled (Traced.eq_mk hvalue)] at hcompute
    obtain ⟨rfl, -⟩ := of_cancelled hvalue
    exact ⟨n, _, _, by omega, ⟨hsuspended, ⟨_, hvalue, rfl⟩, hcompute, hsteps⟩, .inr rfl⟩
  | suspended =>
    rw [hvalue] at hend
    exact absurd rfl hend

/-- A computation that answers has counted one round for each poll, one that reached the bound one for
each poll but the last. -/
theorem EndsAfter.iteration {answer : Except Cause Marking}
    (h : p.EndsAfter operator s n answer last) :
    last.iteration.toNat = s.iteration.toNat + n + answer.isOk.toNat := by
  have hcount := iteration_resumed h.suspended
  obtain ⟨outcome, hvalue, hanswer⟩ := h.ended
  cases outcome with
  | completed marking =>
    cases hanswer
    obtain ⟨rfl, -, hbound, -⟩ := of_completed hvalue
    rw [toNat_begun hbound, hcount]
    rfl
  | cancelled cause =>
    cases hanswer
    obtain ⟨-, rfl, -⟩ := of_cancelled hvalue
    exact hcount
  | suspended => cases hanswer

/-! ### Computations that start with the final vertices -/

/-- All vertices but the final ones may join. -/
theorem Declared.length_candidates {g : Graph} (h : p.Declared g) (hlists : g.Lists es)
    (hwin : s.win = p.finals) :
    (p.candidates .controllable s.win).length = g.numVertices - g.numFinals := by
  have hcandidates : p.candidates .controllable s.win =
      g.vertices.filter fun v => !g.isFinal v := by
    unfold candidates
    rw [h.graph, hwin]
    apply List.filter_congr
    intro v hv
    obtain ⟨player, howner⟩ := h.owned v (Graph.mem_vertices.mp hv)
    have hfinal : p.finals.contains v = g.isFinal v := by
      rw [Bool.eq_iff_iff, Std.ExtTreeSet.contains_iff_mem, h.final]
    simp [hfinal, h.owner, howner, Operator.accepts]
  have hsplit := List.length_eq_length_filter_add g.isFinal (l := g.vertices)
  rw [hlists.length_vertices, ← hcandidates] at hsplit
  unfold Graph.numFinals
  omega

/-- How long computations take, whatever they start with. -/
structure Terminates (p : Problem) (operator : Operator) : Prop where
  /-- A poll that suspends enlarges the region, by vertices of the graph whose owner the operator
  accepts. -/
  enlarges : ∀ allowance s next, (p.poll operator allowance s).value = (.suspended, next) →
    p.Enlarges operator s.win next.win
  /-- A computation ends with its marking or at the bound, after one poll more at most than there are
  vertices of the graph outside the region at the start whose owner the operator accepts. -/
  ends : ∀ s, ∃ n answer last,
    n + 1 ≤ (p.graph.vertices.filter fun v =>
      !s.win.contains v && (p.owner? v).any operator.accepts).length + 1 ∧
    p.EndsAfter operator s n answer last ∧
    (answer = .ok last.marking ∨ answer = .error .iterationBound)

theorem terminates_of_lists (hlists : p.graph.Lists es) (operator : Operator) : p.Terminates operator where
  enlarges _ _ _ h := enlarges_of_suspended hlists h
  ends s := by
    obtain ⟨n, answer, last, hn, hend, hanswer⟩ := exists_endsAfter hlists operator s
    exact ⟨n, answer, last, Nat.succ_le_succ hn, hend, hanswer⟩

end Problem

/-! ### Runs of a solver -/

namespace Solver

variable {solver : Solver} {es : List Edge} {p : Problem} {start last : Progress}

/-- A run ends within so many rounds, with an answer, unless the bound allows for fewer. -/
structure EndsWithin (solver : Solver) (rounds : ℕ) : Prop where
  /-- A run that nothing cancels from outside succeeds, or reports a bound of fewer rounds. -/
  ends : (solver.run none).value.1 = .ok () ∨
    ((solver.run none).value.1 = .error (.cancelled .iterationBound) ∧
      solver.maxIterations.toNat < rounds)
  /-- Every run that succeeds reports so many rounds at most. -/
  iterations : ∀ allowance, (solver.run allowance).value.1 = .ok () → ∃ iterations,
    (solver.run allowance).value.2.iterations? = some iterations ∧ iterations.toNat ≤ rounds

/-- The computation of a run has counted a round for each vertex that is not final at most, and one
more if it answers. -/
theorem iteration_le (hlists : solver.graph.Lists es) (hprepare : solver.prepare = .ok (p, start))
    {answer : Except Cause Marking}
    (hcompute : (p.compute .controllable none start).value = (answer, last)) :
    last.iteration.toNat ≤
      solver.graph.numVertices - solver.graph.numFinals + answer.isOk.toNat := by
  obtain ⟨hp, -, hstart⟩ := of_prepare hprepare
  obtain ⟨-, hiteration, hwin⟩ := Progress.mirrors_start hstart
  have hlists' : p.graph.Lists es := hp.graph ▸ hlists
  obtain ⟨n, answer', last', hn, hends, -⟩ := Problem.exists_endsAfter hlists' .controllable start
  rw [hp.length_candidates hlists hwin] at hn
  obtain ⟨rfl, rfl⟩ := Prod.mk.inj (hends.compute.symm.trans hcompute)
  have hzero : start.iteration.toNat = 0 := congrArg UInt64.toNat hiteration
  have hcount := hends.iteration
  omega

/-- A run takes one round more at most than there are vertices that are not final. -/
theorem endsWithin (hlists : solver.graph.Lists es) (hfirst : solver.computesFirst) {q : Problem}
    (hq : Problem.ofGraph solver.graph = .ok q) :
    solver.EndsWithin (solver.graph.numVertices - solver.graph.numFinals + 1) := by
  constructor
  · obtain ⟨p, start, hprepare⟩ := exists_prepare hq
    obtain ⟨-, hmax, -⟩ := of_prepare hprepare
    cases hcompute : (p.compute .controllable none start).value with
    | mk answer last =>
    cases answer with
    | ok marking => exact .inl (by rw [run_of_compute hfirst hprepare hcompute])
    | error cause =>
      have hcount : last.iteration.toNat ≤ _ := iteration_le hlists hprepare hcompute
      obtain ⟨rfl, hbound, -⟩ := Problem.polls_of_error hcompute
      rw [UInt64.le_iff_toNat_le, hmax] at hbound
      refine .inr ⟨by rw [run_of_error hfirst hprepare hcompute], ?_⟩
      exact Nat.lt_succ_of_le (hbound.trans hcount)
  · intro allowance hrun
    have hvalue : (solver.run allowance).value = (.ok (), (solver.run allowance).value.2) :=
      Prod.ext hrun rfl
    obtain ⟨p, start, marking, last, hprepare, hcompute, hnext⟩ := of_run hfirst hvalue
    have hcount := iteration_le hlists hprepare (Problem.compute_none_of_answer hcompute)
    exact ⟨last.iteration, congrArg iterations? hnext, hcount⟩

end Solver

/-- **Computations end**, whatever the owners, the region and the rounds that were counted before:
every poll that suspends takes vertices into the region for good, and only so many may join. So a
solver takes one round more at most than its graph has vertices that are not final. -/
theorem Graph.Reachable.terminates {p : Problem} (h : p.graph.Reachable) :
    (∀ operator, p.Terminates operator) ∧
    ∀ game solver, game.graph = .ok p.graph → Solver.ofGame game = .ok solver →
      ∀ later : Solver, later.graph = p.graph → later.computesFirst →
        later.EndsWithin (p.graph.numVertices - p.graph.numFinals + 1) := by
  obtain ⟨es, hlists⟩ := h.lists
  constructor
  · exact Problem.terminates_of_lists hlists
  · intro game solver hgame haccepts later hlater hfirst
    obtain rfl := Solver.eq_of_graph haccepts hgame
    obtain ⟨q, hq⟩ := Solver.exists_ofGraph haccepts h.aligned
    rw [← hlater] at hlists hq ⊢
    exact Solver.endsWithin hlists hfirst hq

/-- The relay has five vertices, one of them final, and a solver takes three rounds. With other owners
and without final vertices, all polls of a computation that starts elsewhere end as well. -/
theorem Graph.relay_terminates :
    (∀ operator, Problem.reassigned.Terminates operator) ∧
    ({ graph := relay } : Solver).EndsWithin (relay.numVertices - relay.numFinals + 1) ∧
    relay.numVertices - relay.numFinals + 1 = 5 ∧
    (({ graph := relay } : Solver).run none).value.2.iterations? = some 3 := by
  have hgraph : Problem.reassigned.graph = relay := by
    dsimp only [Problem.reassigned]
  obtain ⟨hcomputations, hsolvers⟩ :=
    Reachable.terminates (p := Problem.reassigned) (hgraph ▸ reachable_relay)
  rw [hgraph] at hsolvers
  obtain ⟨solver, haccepts⟩ := Solver.exists_relay
  refine ⟨hcomputations, hsolvers _ solver rfl haccepts _ ?_ rfl, ?_, ?_⟩
  · dsimp only
  · decide +kernel
  · decide +kernel

end GraphGames
