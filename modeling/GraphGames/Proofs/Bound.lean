import GraphGames.Proofs.WinningRegion

/-!
# The bound on rounds is exact

A solver notices the bound on its rounds iff its game takes more of them. The computation then stops
with what as many rounds have reached, and stays there however often it is polled.

* `Problem.begins`, `Problem.roundsBegun`: whether a poll begins a round, and how many of several
  polls do; `Problem.counted` says that all of these are counted, without overflow;
* `Problem.polls_bounded`: up to the bound, a bounded computation does what an unbounded one does;
* `Problem.Stops`: what becomes of a computation whose bound is too small;
* `Solver.Threshold`, `Graph.Reachable.bound_exact`: what the bound decides, and that it does.
-/

namespace GraphGames

namespace Problem

variable {g : Graph} {es : List Edge} {p : Problem} {operator : Operator} {s start : Progress}
variable {bound : UInt64} {n : ℕ}

/-! ### Counting rounds -/

/-- Whether a poll begins a round: its first checkpoint may be passed, and the bound is not reached. -/
def begins (p : Problem) (allowance : Allowance) (s : Progress) : Bool :=
  allowance.covers 1 && decide (s.iteration < p.maxIterations)

/-- How many of several polls begin a round. -/
def roundsBegun (p : Problem) (operator : Operator) : List Allowance → Progress → ℕ
  | [], _ => 0
  | allowance :: allowances, s =>
    (if p.begins allowance s then 1 else 0) +
      p.roundsBegun operator allowances (p.poll operator allowance s).value.2

theorem lt_of_begins {allowance : Allowance} (h : p.begins allowance s) :
    s.iteration < p.maxIterations := by
  unfold begins at h
  rw [Bool.and_eq_true, decide_eq_true_eq] at h
  exact h.2

/-- A round that begins is counted. The bound is not reached then, so there is a number left. -/
theorem toNat_iteration_poll (p : Problem) (operator : Operator) (allowance : Allowance)
    (s : Progress) :
    (p.poll operator allowance s).value.2.iteration.toNat =
      s.iteration.toNat + if p.begins allowance s then 1 else 0 := by
  unfold poll begins
  by_cases hc : allowance.covers 1
  · rw [if_pos hc, Traced.value_bind]
    unfold round
    by_cases hb : p.maxIterations ≤ s.iteration
    · rw [if_pos hb]
      simp [hc, UInt64.not_lt.mpr hb]
    · have hlt := UInt64.not_le.mp hb
      rw [if_neg hb, Traced.value_bind, iteration_conclude]
      simp only [hc, hlt, decide_true, Bool.and_self, if_true]
      exact toNat_begun hlt
  · simp [hc]

theorem toNat_iteration_resumed (p : Problem) (operator : Operator) (allowances : List Allowance)
    (s : Progress) :
    (p.resumed operator allowances s).iteration.toNat =
      s.iteration.toNat + p.roundsBegun operator allowances s := by
  induction allowances generalizing s with
  | nil => rfl
  | cons allowance allowances ih =>
    have hrest := ih (p.poll operator allowance s).value.2
    rw [toNat_iteration_poll, Nat.add_assoc] at hrest
    exact hrest

/-- No poll counts beyond the bound. -/
theorem toNat_iteration_poll_le (p : Problem) (operator : Operator) (allowance : Allowance)
    (s : Progress) :
    (p.poll operator allowance s).value.2.iteration.toNat ≤
      max s.iteration.toNat p.maxIterations.toNat := by
  rw [toNat_iteration_poll]
  by_cases hbegins : p.begins allowance s
  · have hlt := UInt64.lt_iff_toNat_lt.mp (lt_of_begins hbegins)
    rw [if_pos hbegins]
    omega
  · rw [if_neg hbegins]
    omega

theorem toNat_iteration_resumed_le (p : Problem) (operator : Operator)
    (allowances : List Allowance) (s : Progress) :
    (p.resumed operator allowances s).iteration.toNat ≤
      max s.iteration.toNat p.maxIterations.toNat := by
  induction allowances generalizing s with
  | nil => exact Nat.le_max_left _ _
  | cons allowance allowances ih =>
    have hfirst := toNat_iteration_poll_le p operator allowance s
    have hrest := ih (p.poll operator allowance s).value.2
    exact hrest.trans (by omega)

/-- A computation counts the rounds that its polls begin, wherever its count starts. -/
structure Counted (p : Problem) (operator : Operator) (s : Progress) : Prop where
  /-- A round that begins has a number left to be counted with. -/
  room : ∀ allowance, p.begins allowance s → s.iteration.toNat + 1 < UInt64.size
  /-- A poll counts the round that it begins. -/
  poll : ∀ allowance, (p.poll operator allowance s).value.2.iteration.toNat =
    s.iteration.toNat + if p.begins allowance s then 1 else 0
  /-- Several polls count the rounds that they begin, and go up to the bound at most. -/
  resumed : ∀ allowances, (p.resumed operator allowances s).iteration.toNat =
      s.iteration.toNat + p.roundsBegun operator allowances s ∧
    (p.resumed operator allowances s).iteration.toNat ≤ max s.iteration.toNat p.maxIterations.toNat

theorem counted (p : Problem) (operator : Operator) (s : Progress) : p.Counted operator s where
  room allowance hbegins := by
    have hcount := toNat_iteration_poll p operator allowance s
    rw [if_pos hbegins] at hcount
    rw [← hcount]
    exact UInt64.toNat_lt_size _
  poll allowance := toNat_iteration_poll p operator allowance s
  resumed allowances :=
    ⟨toNat_iteration_resumed p operator allowances s,
      toNat_iteration_resumed_le p operator allowances s⟩

/-! ### Under another bound -/

/-- What a round finds does not depend on the bound. -/
theorem predecessors_bounded (p : Problem) (bound : UInt64) (operator : Operator)
    (region : VertexSet) :
    operator.predecessors { p with maxIterations := bound } region =
      operator.predecessors p region := by
  cases operator <;> rfl

/-- Below two bounds, a poll does the same under either. -/
theorem poll_bounded (hbound : s.iteration < bound) (hmax : s.iteration < p.maxIterations) :
    (({ p with maxIterations := bound } : Problem).poll operator none s).value =
      (p.poll operator none s).value := by
  rw [poll_none, poll_none, if_neg (UInt64.not_le.mpr hbound), if_neg (UInt64.not_le.mpr hmax),
    predecessors_bounded]

/-- Polls that suspend do the same under a bound that allows for as many rounds. -/
theorem polls_bounded
    (hsuspended : ∀ polled ∈ p.polls operator (.replicate n none) s, polled.1.isSuspended)
    (hbound : s.iteration.toNat + n ≤ bound.toNat) :
    ({ p with maxIterations := bound } : Problem).polls operator (.replicate n none) s =
        p.polls operator (.replicate n none) s ∧
      ({ p with maxIterations := bound } : Problem).resumed operator (.replicate n none) s =
        p.resumed operator (.replicate n none) s := by
  induction n generalizing s with
  | zero => exact ⟨rfl, rfl⟩
  | succ n ih =>
    obtain ⟨hfirst, hrest⟩ := List.forall_mem_cons.mp hsuspended
    obtain ⟨hmax, hiteration⟩ := iteration_poll hfirst
    have hlt : s.iteration < bound := by
      rw [UInt64.lt_iff_toNat_lt]
      omega
    have hnext : (p.poll operator none s).value.2.iteration.toNat + n ≤ bound.toNat := by
      rw [hiteration, show (s.iteration + 1).toNat = _ from toNat_begun hmax]
      omega
    obtain ⟨hpolls, hresumed⟩ := ih hrest hnext
    rw [List.replicate_succ, polls, polls, resumed, resumed, List.foldl_cons, List.foldl_cons,
      poll_bounded hlt hmax]
    exact ⟨congrArg _ hpolls, hresumed⟩

/-- At the bound, every poll is refused and changes nothing. -/
theorem polls_of_le (hbound : p.maxIterations ≤ s.iteration) (operator : Operator) (n : ℕ) :
    p.polls operator (.replicate n none) s =
      .replicate n (.cancelled .iterationBound, s) := by
  induction n with
  | zero => rfl
  | succ n ih =>
    have hpoll : (p.poll operator none s).value = (.cancelled .iterationBound, s) := by
      rw [poll_none, if_pos hbound]
    rw [List.replicate_succ, List.replicate_succ, polls, hpoll, ih]

/-- What becomes of the computation of `p` under a bound that is too small. -/
structure Stops (g : Graph) (p : Problem) (bound : UInt64) (start stopped : Progress) : Prop where
  /-- Without the bound, as many polls suspend, and lead to where the computation stops. -/
  suspended : ∀ polled ∈ p.polls .controllable (.replicate bound.toNat none) start,
    polled.1.isSuspended
  reached : stopped = p.resumed .controllable (.replicate bound.toNat none) start
  /-- Under the bound, these polls are the same. -/
  polls : ({ p with maxIterations := bound } : Problem).polls .controllable
    (.replicate bound.toNat none) start = p.polls .controllable (.replicate bound.toNat none) start
  /-- The computation stops there for the bound. -/
  compute : (({ p with maxIterations := bound } : Problem).compute .controllable none start).value =
    (.error .iterationBound, stopped)
  iteration : stopped.iteration = bound
  /-- The region is what can be forced within as many moves. -/
  win : ∀ v, v ∈ stopped.win ↔ g.arena.Forces bound.toNat v
  /-- All further polls are refused for the bound, and change nothing. -/
  refused : ∀ n, ({ p with maxIterations := bound } : Problem).polls .controllable
    (.replicate n none) stopped = .replicate n (.cancelled .iterationBound, stopped)

/-- As many polls as there are layers below the last suspend, if the bound allows for them. -/
theorem Declared.isSuspended_of_le_depth (h : p.Declared g) (hlists : g.Lists es)
    (hstart : start.AtLayer g p 0) (hn : n ≤ g.arena.depth) (hmax : n ≤ p.maxIterations.toNat) :
    ∀ polled ∈ p.polls .controllable (.replicate n none) start, polled.1.isSuspended := by
  -- each poll finds its layer unsettled, so the induction is on the polls, from any layer
  suffices hall : ∀ k (s : Progress), s.AtLayer g p k → k + n ≤ g.arena.depth →
      k + n ≤ p.maxIterations.toNat →
      ∀ polled ∈ p.polls .controllable (.replicate n none) s, polled.1.isSuspended from
    hall 0 start hstart (by omega) (by omega)
  clear hstart hn hmax
  induction n with
  | zero => simp [polls]
  | succ n ih =>
    intro k s hs hdepth hmax
    obtain ⟨next, hnext, hlayer⟩ := h.poll_of_not_settled hlists hs (by omega)
      (Arena.not_settled_of_lt_depth (by omega))
    refine List.forall_mem_cons.mpr ⟨?_, ?_⟩
    · rw [hnext]
      rfl
    · rw [hnext]
      exact ih (k + 1) next hlayer (by omega) (by omega)

/-- A bound that is too small stops the computation. -/
theorem Declared.stops (h : p.Declared g) (hlists : g.Lists es) (hstart : start.AtLayer g p 0)
    (hbound : bound.toNat ≤ g.arena.depth) (hmax : bound ≤ p.maxIterations) :
    Stops g p bound start (p.resumed .controllable (.replicate bound.toNat none) start) := by
  have hsuspended := h.isSuspended_of_le_depth hlists hstart hbound (UInt64.le_iff_toNat_le.mp hmax)
  have hstopped := h.atLayer_resumed hlists hstart hsuspended
  rw [Nat.zero_add] at hstopped
  have hrounds : start.iteration.toNat + bound.toNat ≤ bound.toNat := by
    rw [hstart.iteration, Nat.zero_add]
  obtain ⟨hpolls, hresumed⟩ := polls_bounded hsuspended hrounds
  have hiteration := UInt64.toNat_inj.mp hstopped.iteration
  have hbounded : ({ p with maxIterations := bound } : Problem).maxIterations ≤
      (p.resumed .controllable (.replicate bound.toNat none) start).iteration :=
    UInt64.le_of_eq hiteration.symm
  have hrefused := polls_of_le hbounded .controllable
  refine ⟨hsuspended, rfl, hpolls, ?_, hiteration, ?_, hrefused⟩
  · rw [← hpolls] at hsuspended
    rw [compute_of_polls hsuspended, hresumed]
    -- the next poll is the first that is refused
    exact congrArg Traced.value (compute_of_cancelled (Traced.eq_mk (List.cons.inj (hrefused 1)).1))
  · intro v
    rw [hstopped.win, Arena.mem_layer_iff (h.arena_owned hlists) hlists.settled]

end Problem

namespace Solver

variable {solver : Solver} {es : List Edge} {region : VertexSet} {rounds : ℕ}

/-- Solving answers with a region after so many rounds, if nothing cancels it from outside. -/
def AnswersIn (solver : Solver) (rounds : ℕ) (region : VertexSet) : Prop :=
  (solver.solve none).value.1 = .ok region ∧
    ∃ iterations, (solver.solve none).value.2.iterations? = some iterations ∧
      iterations.toNat = rounds

/-- A solver answers with a region under every bound that allows for so many rounds, and reports the
bound under every other. -/
structure Threshold (solver : Solver) (rounds : ℕ) (region : VertexSet) : Prop where
  enough : ∀ bound : UInt64, rounds ≤ bound.toNat →
    (solver.withMaxIterations bound).AnswersIn rounds region
  short : ∀ bound : UInt64, bound.toNat < rounds →
    ((solver.withMaxIterations bound).solve none).value.1 = .error (.cancelled .iterationBound) ∧
      ((solver.withMaxIterations bound).solve none).value.2.iterations? = none

/-- The threshold is one round more than the number of the last layer. -/
theorem threshold (hlists : solver.graph.Lists es) (hfirst : solver.computesFirst) {q : Problem}
    (hq : Problem.ofGraph solver.graph = .ok q)
    (hregion : ∀ v, v ∈ region ↔ v ∈ solver.graph.arena.layer solver.graph.arena.depth) :
    solver.Threshold (solver.graph.arena.depth + 1) region where
  enough bound hbound := by
    have hlists' : (solver.withMaxIterations bound).graph.Lists es := hlists
    exact solve_eq_of_depth_lt hlists' hfirst hq hregion hbound
  short bound hbound := by
    have hlists' : (solver.withMaxIterations bound).graph.Lists es := hlists
    exact solve_of_le_depth hlists' hfirst hq (Nat.le_of_lt_succ hbound)

end Solver

/-- A problem that is read from a graph has the largest bound there is. -/
theorem Problem.maxIterations_of_ofGraph {g : Graph} {p : Problem} (h : ofGraph g = .ok p) :
    p.maxIterations = 18446744073709551615 := by
  obtain ⟨turn, -, h⟩ := bind_eq_ok_iff.mp h
  obtain ⟨isFinal, -, h⟩ := bind_eq_ok_iff.mp h
  obtain ⟨roles, -, h⟩ := bind_eq_ok_iff.mp h
  rw [← Except.ok.inj h]

/-- **The bound on rounds is exact.** A solver answers the same, after the same number of rounds,
under every bound that allows for so many, and reports the bound under every other. The computation
then stops at the bound with what as many rounds have reached, and no further poll changes that. The
rounds are counted without overflow, wherever the count starts. -/
theorem Graph.Reachable.bound_exact {g : Graph} {game : Game} {solver : Solver} (h : g.Reachable)
    (hgame : game.graph = .ok g) (haccepts : Solver.ofGame game = .ok solver) :
    ∃ region rounds, (∀ v, v ∈ region ↔ ∃ k, g.arena.Forces k v) ∧ rounds ≤ g.numVertices + 1 ∧
      (rounds < UInt64.size → solver.AnswersIn rounds region) ∧
      (∀ later : Solver, later.graph = g → later.computesFirst → later.Threshold rounds region) ∧
      (∃ p, Problem.ofGraph g = .ok p ∧ ∀ (bound : UInt64) name start, bound.toNat < rounds →
        Progress.start { p with maxIterations := bound } name = .ok start →
        ∃ stopped, Problem.Stops g p bound start stopped) ∧
      ∀ (p : Problem) operator s, p.Counted operator s := by
  obtain rfl := Solver.eq_of_graph haccepts hgame
  obtain ⟨es, hlists⟩ := h.lists
  obtain ⟨p, hp⟩ := Solver.exists_ofGraph haccepts h.aligned
  have hdeclared := Problem.declared_of_ofGraph hp
  obtain ⟨region, hregion⟩ := hlists.exists_lastLayer
  have hthreshold (later : Solver) (hlater : later.graph = g) (hfirst : later.computesFirst) :
      later.Threshold (g.arena.depth + 1) region := by
    subst hlater
    exact Solver.threshold hlists hfirst hp hregion
  refine ⟨region, g.arena.depth + 1, ?_, Nat.succ_le_succ hlists.depth_le, ?_, hthreshold,
    ⟨p, hp, ?_⟩, Problem.counted⟩
  · intro v
    rw [hregion, Arena.mem_layer_depth_iff (hdeclared.arena_owned hlists) hlists.settled]
  · -- a new solver has the largest bound there is
    intro hrounds
    exact (hthreshold { graph := g } rfl rfl).enough 18446744073709551615 (Nat.le_of_lt_succ hrounds)
  · intro bound name start hbound hstart
    have hlayer := hdeclared.atLayer_start (show Progress.start p name = .ok start from hstart)
    have hmax : bound ≤ p.maxIterations := by
      rw [Problem.maxIterations_of_ofGraph hp, UInt64.le_iff_toNat_le]
      exact Nat.le_of_lt_succ bound.toNat_lt
    exact ⟨_, hdeclared.stops hlists hlayer (Nat.le_of_lt_succ hbound) hmax⟩

theorem Graph.relay_bound_exact :
    ∃ region, region.toList = [⟨0⟩, ⟨1⟩, ⟨2⟩] ∧
      ({ graph := relay } : Solver).Threshold 3 region ∧
      ∃ p start stopped, Problem.ofGraph relay = .ok p ∧
        Progress.startFree { p with maxIterations := 1 } = .ok start ∧
        Problem.Stops relay p 1 start stopped := by
  obtain ⟨solver, haccepts⟩ := Solver.exists_relay
  obtain ⟨region, rounds, -, -, -, hthreshold, ⟨p, hp, hstops⟩, -⟩ :=
    Reachable.bound_exact reachable_relay rfl haccepts
  have hlater := hthreshold { graph := relay } (by dsimp only) rfl
  have hsolve : ((({ graph := relay } : Solver).withMaxIterations 3).solve none).value.1.toOption.map
      (·.toList) = some [⟨0⟩, ⟨1⟩, ⟨2⟩] := by
    decide +kernel
  have hcount : ((({ graph := relay } : Solver).withMaxIterations 3).solve none).value.2.iterations? =
      some 3 := by
    decide +kernel
  obtain ⟨found, hfound, hlist⟩ := exists_ok_of_map hsolve
  -- the bound of three rounds is not too small, so it allows for as many as are needed
  have henough : rounds ≤ (3 : UInt64).toNat := by
    by_contra hshort
    rw [(hlater.short 3 (Nat.lt_of_not_le hshort)).1] at hfound
    cases hfound
  obtain ⟨hanswer, iterations, hiterations, rfl⟩ := hlater.enough 3 henough
  obtain rfl : found = region := Except.ok.inj (hfound.symm.trans hanswer)
  obtain rfl : iterations = 3 := Option.some.inj (hiterations.symm.trans hcount)
  obtain ⟨start, hstart⟩ := Progress.exists_startFree { p with maxIterations := 1 }
  obtain ⟨stopped, hstopped⟩ := hstops 1 _ start (by decide) hstart
  exact ⟨found, hlist, hlater, p, start, stopped, hp, hstart, hstopped⟩

end GraphGames
