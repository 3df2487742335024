import GraphGames.Proofs.Bound

/-!
# Checkpoints are counted exactly

A sweep passes one checkpoint for each vertex of the region, so the region at the start of a round
tells how many checkpoints the round passes. A computation that may not pass one of them stops there,
after the same steps.

* `Traced.Cut`: a computation without limit and the same one under an allowance;
* `Problem.checks_sweep`, `Operator.checks_predecessors`, `Problem.checks_poll`: the checkpoints of a
  sweep, of an operator and of a round;
* `Problem.steps_compute`, `Problem.checks_compute`: the steps of a computation are those of its
  rounds, and so are its checkpoints;
* `Solver.checksMade`, `Solver.Prompt`, `Graph.Reachable.checks_exact`: how many checkpoints a solver
  passes, and what it does when one of them fails.
-/

namespace GraphGames

/-! ### Steps up to a checkpoint -/

theorem stepsUpTo_append_of_lt {k : ℕ} {xs : List Step} (h : k < xs.count .check) (ys : List Step) :
    stepsUpTo k (xs ++ ys) = stepsUpTo k xs := by
  fun_induction stepsUpTo k xs with
  | case1 => simp at h
  | case2 => rfl
  | case3 k rest ih =>
    rw [List.count_cons_self] at h
    rw [List.cons_append, stepsUpTo, ih (by omega)]
  | case4 k event rest ih =>
    rw [List.count_cons_of_ne (by simp)] at h
    rw [List.cons_append, stepsUpTo, ih h]

theorem stepsUpTo_append_of_le {k : ℕ} {xs : List Step} (h : xs.count .check ≤ k) (ys : List Step) :
    stepsUpTo k (xs ++ ys) = xs ++ stepsUpTo (k - xs.count .check) ys := by
  fun_induction stepsUpTo k xs with
  | case1 => simp
  | case2 rest =>
    rw [List.count_cons_self] at h
    omega
  | case3 k rest ih =>
    rw [List.count_cons_self] at h ⊢
    rw [List.cons_append, stepsUpTo, ih (by omega), Nat.succ_sub_succ, List.cons_append]
  | case4 k event rest ih =>
    rw [List.count_cons_of_ne (by simp)] at h ⊢
    rw [List.cons_append, stepsUpTo, ih h, List.cons_append]

namespace Traced

variable {α β : Type} {k : ℕ} {full part : Traced α} {stopped : α → Prop}

/-- What an allowance of `k` checkpoints makes of a computation: all of it, or its steps before the
first checkpoint that may not be passed, with a result that tells that it was stopped. -/
structure Cut (k : ℕ) (full part : Traced α) (stopped : α → Prop) : Prop where
  enough : full.checks ≤ k → part = full
  short : k < full.checks → stopped part.value ∧ part.steps = stepsUpTo k full.steps

namespace Cut

/-- A computation that was stopped has passed what it may pass. -/
theorem checks_eq (h : Cut k full part stopped) (hk : k < full.checks) : part.checks = k := by
  unfold checks at hk ⊢
  rw [(h.short hk).2, count_stepsUpTo]
  omega

theorem refl (h : full.checks ≤ k) : Cut k full full stopped :=
  ⟨fun _ => rfl, fun hk => absurd h (Nat.not_le_of_lt hk)⟩

/-- A computation under an allowance has no result when it was stopped. -/
theorem under (t : Traced α) (k : ℕ) :
    Cut k (t.under none) (t.under (some k)) fun result => result = none := by
  by_cases h : t.checks ≤ k
  · have heq : t.under (some k) = t.under none := if_pos h
    rw [heq]
    exact refl h
  · have heq : t.under (some k) = ⟨none, stepsUpTo k t.steps⟩ := if_neg h
    rw [heq]
    exact ⟨fun hk => absurd hk h, fun _ => ⟨rfl, rfl⟩⟩

/-- The checkpoints of a first part are spent before a second one starts. -/
theorem append (steps : List Step) (hsteps : steps.count .check ≤ k)
    (h : Cut (k - steps.count .check) full part stopped) :
    Cut k ⟨full.value, steps ++ full.steps⟩ ⟨part.value, steps ++ part.steps⟩ stopped := by
  have hchecks : (⟨full.value, steps ++ full.steps⟩ : Traced α).checks =
      steps.count .check + full.checks := List.count_append
  constructor
  · intro hk
    rw [h.enough (by omega)]
  · intro hk
    obtain ⟨hstopped, heq⟩ := h.short (by omega)
    refine ⟨hstopped, ?_⟩
    show steps ++ part.steps = stepsUpTo k (steps ++ full.steps)
    rw [stepsUpTo_append_of_le hsteps, heq]

/-- What comes after the last checkpoint is left out when a computation is stopped. -/
theorem bind {f : α → Traced β} {stopped' : β → Prop} (h : Cut k full part stopped)
    (hf : ∀ a, (f a).checks = 0)
    (hstopped : ∀ a, stopped a → stopped' (f a).value ∧ (f a).steps = []) :
    Cut k (full >>= f) (part >>= f) stopped' := by
  have hchecks : (full >>= f).checks = full.checks := by rw [checks_bind, hf, Nat.add_zero]
  constructor
  · intro hk
    rw [h.enough (by omega)]
  · intro hk
    obtain ⟨hpart, heq⟩ := h.short (by omega)
    obtain ⟨hvalue, hsteps⟩ := hstopped part.value hpart
    refine ⟨hvalue, ?_⟩
    have hcount : k < full.steps.count .check := by
      unfold checks at hchecks hk
      omega
    rw [steps_bind, steps_bind, hsteps, List.append_nil, heq, stepsUpTo_append_of_lt hcount]

end Cut

end Traced

namespace Problem

variable {p : Problem} {operator : Operator} {player : Player} {region found : VertexSet}
variable {s next start : Progress} {v : VertexId} {n k : ℕ}

/-! ### One sweep -/

/-- A walk passes the checkpoints of its steps. -/
theorem checks_foldlM {α : Type} {f : VertexSet → α → Traced VertexSet} {c : ℕ}
    (h : ∀ found a, (f found a).checks = c) (xs : List α) (found : VertexSet) :
    (xs.foldlM f found).checks = c * xs.length := by
  induction xs generalizing found with
  | nil => simp
  | cons a xs ih =>
    rw [List.foldlM_cons, Traced.checks_bind, h, ih, List.length_cons, Nat.mul_succ, Nat.add_comm]

/-- No checkpoint is passed at a source. -/
theorem checks_visitAfresh (target : VertexId) (found : VertexSet) (v : VertexId) :
    (p.visitAfresh player region target found v).checks = 0 := by
  unfold visitAfresh
  split <;> simp

theorem checks_visitSources (found : VertexSet) (target : VertexId) :
    (p.visitSources (p.visitAfresh player region) found target).checks = 1 := by
  unfold visitSources
  rw [Traced.checks_bind, Traced.checks_check, checks_foldlM (checks_visitAfresh target)]
  omega

/-- A sweep passes one checkpoint for each vertex of the region. -/
theorem checks_sweep (p : Problem) (player : Player) (region : VertexSet) :
    (p.sweep player region).checks = region.size := by
  rw [sweep_eq, checks_foldlM checks_visitSources, Std.ExtTreeSet.length_toList]
  omega

/-- The operator for both players sweeps twice, and passes one checkpoint in between. -/
theorem checks_controllable (p : Problem) (region : VertexSet) :
    (Operator.controllable.predecessors p region).checks = 2 * region.size + 1 := by
  unfold Operator.predecessors
  simp only [Traced.checks_bind, Traced.checks_check, Traced.checks_report, Traced.checks_pure,
    checks_sweep]
  omega

/-! ### One round -/

/-- No checkpoint is passed after the sweep of a round. -/
theorem checks_conclude (operator : Operator) (s : Progress) (found : Option VertexSet) :
    (conclude operator s found).checks = 0 := by
  cases found with
  | none => rfl
  | some found => by_cases hf : found.isEmpty <;> simp [conclude, hf]

/-- A round passes the checkpoints of its operator, and one before. -/
theorem checks_poll (operator : Operator) (h : s.iteration < p.maxIterations) :
    (p.poll operator none s).checks = (operator.predecessors p s.win).checks + 1 := by
  have hb : ¬ p.maxIterations ≤ s.iteration := UInt64.not_le.mpr h
  show (Traced.check >>= fun _ => p.round operator none s).checks = _
  unfold round
  rw [Traced.checks_bind, Traced.checks_check, if_neg hb, Traced.checks_bind, checks_conclude]
  show 1 + ((operator.predecessors p s.win).checks + 0) = _
  omega

/-- A round under an allowance stops at the first checkpoint that it may not pass. -/
theorem cut_round (p : Problem) (operator : Operator) (s : Progress) (k : ℕ) :
    Traced.Cut k (p.round operator none s) (p.round operator (some k) s)
      fun polled => polled.1 = .cancelled .trigger := by
  unfold round
  by_cases hb : p.maxIterations ≤ s.iteration
  · rw [if_pos hb, if_pos hb]
    exact Traced.Cut.refl (Nat.zero_le k)
  · rw [if_neg hb, if_neg hb]
    refine (Traced.Cut.under _ k).bind (checks_conclude operator _) ?_
    rintro found rfl
    exact ⟨rfl, rfl⟩

/-- A poll under an allowance stops at the first checkpoint that it may not pass. -/
theorem cut_poll (p : Problem) (operator : Operator) (s : Progress) (k : ℕ) :
    Traced.Cut k (p.poll operator none s) (p.poll operator (some k) s)
      fun polled => polled.1 = .cancelled .trigger := by
  cases k with
  | zero =>
    have hchecks : (p.poll operator none s).checks = 1 + (p.round operator none s).checks :=
      Traced.checks_bind Traced.check fun _ => p.round operator none s
    refine ⟨?_, fun _ => ⟨rfl, rfl⟩⟩
    intro hk
    omega
  | succ k =>
    -- the first checkpoint is passed, which leaves one less for the round
    have hpart : p.poll operator (some (k + 1)) s =
        ⟨(p.round operator (some k) s).value, [.check] ++ (p.round operator (some k) s).steps⟩ := by
      unfold poll
      rw [if_pos (by simp [Allowance.covers])]
      rfl
    rw [hpart]
    exact Traced.Cut.append [.check] (by simp) (cut_round p operator s k)

/-! ### The whole computation -/

/-- A computation begins with the steps of its first poll. -/
theorem exists_steps_compute (p : Problem) (operator : Operator) (s : Progress) :
    ∃ steps, (p.compute operator none s).steps = (p.poll operator none s).steps ++ steps := by
  cases hvalue : (p.poll operator none s).value with
  | mk outcome next =>
  have hpoll := Traced.eq_mk hvalue
  cases outcome with
  | completed marking =>
    rw [compute_of_completed hpoll]
    exact ⟨[], (List.append_nil _).symm⟩
  | cancelled cause =>
    rw [compute_of_cancelled hpoll]
    exact ⟨[], (List.append_nil _).symm⟩
  | suspended =>
    rw [compute_of_suspended hpoll]
    exact ⟨_, rfl⟩

/-- A computation under an allowance stops at the first checkpoint that it may not pass. -/
theorem cut_compute (p : Problem) (operator : Operator) (s : Progress) (k : ℕ) :
    Traced.Cut k (p.compute operator none s) (p.compute operator (some k) s)
      fun result => result.1 = .error .trigger := by
  -- each poll that suspends leaves fewer rounds up to the bound
  generalize hleft : (p.maxIterations - s.iteration).toNat = left
  induction left using Nat.strongRecOn generalizing s k with
  | ind left ih =>
  have hcut := cut_poll p operator s k
  by_cases hk : (p.poll operator none s).checks ≤ k
  · have hsame := hcut.enough hk
    cases hvalue : (p.poll operator none s).value with
    | mk outcome next =>
    have hpoll := Traced.eq_mk hvalue
    have hpart := hsame.trans hpoll
    cases outcome with
    | completed marking =>
      rw [compute_of_completed hpoll, compute_of_completed hpart]
      exact Traced.Cut.refl hk
    | cancelled cause =>
      rw [compute_of_cancelled hpoll, compute_of_cancelled hpart]
      exact Traced.Cut.refl hk
    | suspended =>
      rw [compute_of_suspended hpoll, compute_of_suspended hpart]
      exact Traced.Cut.append _ hk (ih _ (hleft ▸ roundsLeft_lt hpoll) next _ rfl)
  · have hlt := Nat.lt_of_not_le hk
    obtain ⟨hstopped, hsteps⟩ := hcut.short hlt
    obtain ⟨more, hmore⟩ := exists_steps_compute p operator s
    cases hvalue : (p.poll operator (some k) s).value with
    | mk outcome next =>
    rw [hvalue] at hstopped
    obtain rfl : outcome = .cancelled .trigger := hstopped
    rw [compute_of_cancelled (Traced.eq_mk hvalue)]
    constructor
    · intro hall
      unfold Traced.checks at hall hlt
      rw [hmore, List.count_append] at hall
      omega
    · intro _
      refine ⟨rfl, ?_⟩
      rw [hmore, stepsUpTo_append_of_lt hlt]
      exact hsteps

/-- A poll that does not suspend is the whole computation. -/
theorem steps_compute_of_not (h : ¬ (p.poll operator none s).value.1.isSuspended) :
    (p.compute operator none s).steps = (p.poll operator none s).steps := by
  cases hvalue : (p.poll operator none s).value with
  | mk outcome next =>
  cases outcome with
  | completed marking => rw [compute_of_completed (Traced.eq_mk hvalue)]
  | cancelled cause => rw [compute_of_cancelled (Traced.eq_mk hvalue)]
  | suspended =>
    rw [hvalue] at h
    exact absurd rfl h

/-- The steps of a computation are those of its polls, one after the other. -/
theorem steps_compute
    (hsuspended : ∀ polled ∈ p.polls operator (.replicate n none) s, polled.1.isSuspended)
    (hlast : ¬ (p.poll operator none (p.resumed operator (.replicate n none) s)).value.1.isSuspended) :
    (p.compute operator none s).steps = (List.range (n + 1)).flatMap fun i =>
      (p.poll operator none (p.resumed operator (.replicate i none) s)).steps := by
  induction n generalizing s with
  | zero =>
    rw [List.range_one, List.flatMap_singleton]
    exact steps_compute_of_not hlast
  | succ n ih =>
    obtain ⟨hfirst, hrest⟩ := List.forall_mem_cons.mp hsuspended
    rw [List.range_succ_eq_map, List.flatMap_cons, List.flatMap_map,
      compute_of_suspended (Traced.eq_mk (value_of_isSuspended hfirst))]
    exact congrArg (_ ++ ·) (ih hrest hlast)

/-- A computation passes the checkpoints of its polls. -/
theorem checks_compute
    (hsuspended : ∀ polled ∈ p.polls operator (.replicate n none) s, polled.1.isSuspended)
    (hlast : ¬ (p.poll operator none (p.resumed operator (.replicate n none) s)).value.1.isSuspended) :
    (p.compute operator none s).checks =
      ∑ i ∈ Finset.range (n + 1),
        (p.poll operator none (p.resumed operator (.replicate i none) s)).checks := by
  rw [Traced.checks, steps_compute hsuspended hlast, List.count_flatMap]
  exact (Multiset.sum_coe _).symm

/-- The checkpoints of so many rounds for both players: one before each round, two for each vertex of
the region at its start, and one between the sweeps. -/
def checksWithin (p : Problem) (start : Progress) (rounds : ℕ) : ℕ :=
  ∑ i ∈ Finset.range rounds, (2 * (p.resumed .controllable (.replicate i none) start).win.size + 2)

/-- A computation for both players takes so many rounds when nothing cancels it: all but the last
suspend, and the last completes. -/
structure Takes (p : Problem) (start : Progress) (rounds : ℕ) : Prop where
  pos : 0 < rounds
  suspended : ∀ polled ∈ p.polls .controllable (.replicate (rounds - 1) none) start,
    polled.1.isSuspended
  completed : (p.poll .controllable none
    (p.resumed .controllable (.replicate (rounds - 1) none) start)).value.1.isCompleted

section Declared

variable {g : Graph} {es : List Edge} {bound : UInt64}

/-- With enough rounds, a computation takes one more than the number of the last layer. -/
theorem Declared.takes (h : p.Declared g) (hlists : g.Lists es) (hstart : start.AtLayer g p 0)
    (hbound : g.arena.depth < p.maxIterations.toNat) : p.Takes start (g.arena.depth + 1) := by
  have hsuspended := h.isSuspended_of_le_depth hlists hstart (Nat.le_refl _) hbound.le
  have hlayer := h.atLayer_resumed hlists hstart hsuspended
  rw [Nat.zero_add] at hlayer
  refine ⟨Nat.succ_pos _, hsuspended, ?_⟩
  rw [Nat.add_sub_cancel, h.poll_of_settled hlists hlayer hbound hlists.settled.depth]
  rfl

/-- The checkpoints of a computation are those of its rounds. -/
theorem Declared.checks_compute (h : p.Declared g) (hlists : g.Lists es)
    (hstart : start.AtLayer g p 0) (hbound : g.arena.depth < p.maxIterations.toNat) :
    (p.compute .controllable none start).checks = p.checksWithin start (g.arena.depth + 1) := by
  obtain ⟨-, hsuspended, hcompleted⟩ := h.takes hlists hstart hbound
  rw [Nat.add_sub_cancel] at hsuspended hcompleted
  have hlast : ¬ (p.poll .controllable none (p.resumed .controllable
      (.replicate g.arena.depth none) start)).value.1.isSuspended := by
    intro hs
    rw [Outcome.eq_suspended hs] at hcompleted
    cases hcompleted
  rw [Problem.checks_compute hsuspended hlast]
  apply Finset.sum_congr rfl
  intro i hi
  have hi := Finset.mem_range.mp hi
  have hlayer := h.atLayer_resumed hlists hstart
    (h.isSuspended_of_le_depth hlists hstart (Nat.le_of_lt_succ hi) (by omega))
  have hlt : (p.resumed .controllable (.replicate i none) start).iteration < p.maxIterations := by
    rw [UInt64.lt_iff_toNat_lt, hlayer.iteration]
    omega
  rw [checks_poll .controllable hlt, checks_controllable]

/-- The bound does not change the checkpoints of a computation that stays below it. -/
theorem Declared.checksWithin_bounded (h : p.Declared g) (hlists : g.Lists es)
    (hstart : start.AtLayer g p 0) (hbound : g.arena.depth < bound.toNat)
    (hmax : bound ≤ p.maxIterations) :
    ({ p with maxIterations := bound } : Problem).checksWithin start (g.arena.depth + 1) =
      p.checksWithin start (g.arena.depth + 1) := by
  have hle := UInt64.le_iff_toNat_le.mp hmax
  apply Finset.sum_congr rfl
  intro i hi
  have hi := Finset.mem_range.mp hi
  have hsuspended := h.isSuspended_of_le_depth hlists hstart (Nat.le_of_lt_succ hi) (by omega)
  have hrounds : start.iteration.toNat + i ≤ bound.toNat := by
    rw [hstart.iteration]
    omega
  rw [(polls_bounded hsuspended hrounds).2]

end Declared

end Problem

namespace Solver

variable {solver : Solver} {k : ℕ}

/-- A run under an allowance stops at the first checkpoint that it may not pass, and leaves nothing
behind then. -/
theorem cut_run (solver : Solver) (k : ℕ) :
    Traced.Cut k (solver.run none) (solver.run (some k))
      fun result => result = (.error (.cancelled .trigger), solver.cleared) := by
  unfold run
  by_cases hfirst : solver.computesFirst
  · rw [if_pos hfirst, if_pos hfirst]
    cases solver.prepare with
    | error e => exact Traced.Cut.refl (Nat.zero_le k)
    | ok prepared =>
      obtain ⟨p, start⟩ := prepared
      refine Traced.Cut.append [.report _] (by simp)
        ((p.cut_compute .controllable start k).bind ?_ ?_)
      · rintro ⟨answer, last⟩
        cases answer with
        | error cause => rfl
        | ok marking => rfl
      · rintro ⟨answer, last⟩ hanswer
        obtain rfl : answer = .error .trigger := hanswer
        exact ⟨rfl, rfl⟩
  · rw [if_neg hfirst, if_neg hfirst]
    exact Traced.Cut.refl (Nat.zero_le k)

/-- So does solving. -/
theorem cut_solve (solver : Solver) (k : ℕ) :
    Traced.Cut k (solver.solve none) (solver.solve (some k))
      fun result => result = (.error (.cancelled .trigger), solver.cleared) := by
  refine (solver.cut_run k).bind (fun _ => rfl) ?_
  rintro result rfl
  exact ⟨rfl, rfl⟩

/-- Solving passes the checkpoints of the computation that it starts. -/
theorem checks_solve (hfirst : solver.computesFirst) {p : Problem} {start : Progress}
    (hprepare : solver.prepare = .ok (p, start)) :
    (solver.solve none).checks = (p.compute .controllable none start).checks := by
  unfold solve run
  rw [if_pos hfirst, hprepare]
  simp only [Traced.checks_bind, Traced.checks_report, Traced.checks_pure]
  split <;> simp

/-- How many checkpoints solving comes to: those that it passes, and the one that it may not pass. -/
def checksMade (solver : Solver) (allowance : Allowance) : ℕ :=
  (solver.solve allowance).checks +
    match (solver.solve allowance).value.1 with
    | .error (.cancelled .trigger) => 1
    | _ => 0

/-- Solving comes to so many checkpoints when nothing cancels it. Whichever of them is the first to
fail, solving fails there, comes to no other, has taken the same steps before, and leaves nothing
behind. If only later ones fail, it does not notice. -/
structure Prompt (solver : Solver) (total : ℕ) : Prop where
  uncancelled : solver.checksMade none = total
  cancelled : ∀ j, 1 ≤ j → j ≤ total →
    (solver.solve (some (j - 1))).value.1 = .error (.cancelled .trigger) ∧
      solver.checksMade (some (j - 1)) = j ∧
      (solver.solve (some (j - 1))).steps = stepsUpTo (j - 1) (solver.solve none).steps ∧
      (solver.solve (some (j - 1))).value.2.firstRegion = .error (.notReady .winningRegion) ∧
      (solver.solve (some (j - 1))).value.2.iterations? = none
  unaffected : ∀ j, total < j → solver.solve (some (j - 1)) = solver.solve none

theorem prompt {region : VertexSet} (hanswer : (solver.solve none).value.1 = .ok region) :
    solver.Prompt (solver.solve none).checks where
  uncancelled := by
    unfold checksMade
    rw [hanswer]
    rfl
  cancelled j hpos hj := by
    have hcut := solver.cut_solve (j - 1)
    have hlt : j - 1 < (solver.solve none).checks := by omega
    obtain ⟨hstopped, hsteps⟩ := hcut.short hlt
    have hchecks := hcut.checks_eq hlt
    refine ⟨by rw [hstopped], ?_, hsteps, by rw [hstopped]; rfl, by rw [hstopped]; rfl⟩
    unfold checksMade
    rw [hstopped, hchecks]
    show j - 1 + 1 = j
    omega
  unaffected j hj := (solver.cut_solve (j - 1)).enough (by omega)

/-- A run starts where the problem of its graph starts, whatever the bound is. -/
theorem prepare_eq {p : Problem} {start : Progress} (hp : Problem.ofGraph solver.graph = .ok p)
    (hstart : Progress.startFree p = .ok start) :
    solver.prepare = .ok ({ p with maxIterations := solver.maxIterations }, start) :=
  bind_eq_ok_iff.mpr ⟨p, hp, bind_eq_ok_iff.mpr ⟨start, hstart, rfl⟩⟩

/-- With enough rounds, a solver is prompt, with the checkpoints of the rounds that it takes. -/
theorem prompt_of_depth_lt {es : List Edge} (hlists : solver.graph.Lists es)
    (hfirst : solver.computesFirst) {p : Problem} {start : Progress}
    (hp : Problem.ofGraph solver.graph = .ok p) (hstart : Progress.startFree p = .ok start)
    (hbound : solver.graph.arena.depth < solver.maxIterations.toNat) :
    solver.Prompt (p.checksWithin start (solver.graph.arena.depth + 1)) := by
  have hdeclared := Problem.declared_of_ofGraph hp
  have hmax : solver.maxIterations ≤ p.maxIterations := by
    rw [Problem.maxIterations_of_ofGraph hp, UInt64.le_iff_toNat_le]
    exact Nat.le_of_lt_succ solver.maxIterations.toNat_lt
  have hlayer := (hdeclared.bounded solver.maxIterations).atLayer_start hstart
  have hchecks := (hdeclared.bounded solver.maxIterations).checks_compute hlists hlayer hbound
  rw [hdeclared.checksWithin_bounded hlists (hdeclared.atLayer_start hstart) hbound hmax] at hchecks
  obtain ⟨region, -, hanswer, -⟩ := solve_of_depth_lt hlists hfirst hp hbound
  have hprompt := prompt hanswer
  rw [checks_solve hfirst (prepare_eq hp hstart), hchecks] at hprompt
  exact hprompt

end Solver

/-- **Cancellation is checked exactly and promptly.** Solving a game comes to one checkpoint before
each round, two for each vertex of the region at its start, and one between the sweeps. Whichever of
them fails first, solving fails right there, with nothing left behind; a failure after the last one is
not noticed. An operator for one player comes to a checkpoint for each vertex of the region that it is
given, and the operator for both to two for each, and one in between. -/
theorem Graph.Reachable.checks_exact {g : Graph} {game : Game} {solver : Solver} (h : g.Reachable)
    (hgame : game.graph = .ok g) (haccepts : Solver.ofGame game = .ok solver) :
    (∃ p start region rounds, Problem.ofGraph g = .ok p ∧ Progress.startFree p = .ok start ∧
      rounds ≤ g.numVertices + 1 ∧
      (rounds < UInt64.size → p.Takes start rounds ∧ solver.AnswersIn rounds region ∧
        solver.Prompt (p.checksWithin start rounds)) ∧
      ∀ later : Solver, later.graph = g → later.computesFirst →
        rounds ≤ later.maxIterations.toNat →
        later.AnswersIn rounds region ∧ later.Prompt (p.checksWithin start rounds)) ∧
    ∀ (p : Problem) (region : VertexSet),
      (∀ player, ((Operator.player player).predecessors p region).checks = region.size) ∧
        (Operator.controllable.predecessors p region).checks = 2 * region.size + 1 := by
  obtain rfl := Solver.eq_of_graph haccepts hgame
  obtain ⟨es, hlists⟩ := h.lists
  obtain ⟨p, hp⟩ := Solver.exists_ofGraph haccepts h.aligned
  obtain ⟨start, hstart⟩ := Progress.exists_startFree p
  have hdeclared := Problem.declared_of_ofGraph hp
  obtain ⟨region, hregion⟩ := hlists.exists_lastLayer
  have hlater (later : Solver) (hgraph : later.graph = g) (hfirst : later.computesFirst)
      (hbound : g.arena.depth + 1 ≤ later.maxIterations.toNat) :
      later.AnswersIn (g.arena.depth + 1) region ∧
        later.Prompt (p.checksWithin start (g.arena.depth + 1)) := by
    subst hgraph
    exact ⟨Solver.solve_eq_of_depth_lt hlists hfirst hp hregion hbound,
      Solver.prompt_of_depth_lt hlists hfirst hp hstart hbound⟩
  refine ⟨⟨p, start, region, g.arena.depth + 1, hp, hstart, Nat.succ_le_succ hlists.depth_le, ?_,
    hlater⟩, fun p region => ⟨fun player => p.checks_sweep player region, p.checks_controllable region⟩⟩
  intro hrounds
  -- a new solver has the largest bound there is, and so has the problem of the graph
  have hbound : g.arena.depth < (18446744073709551615 : UInt64).toNat := Nat.lt_of_succ_lt_succ hrounds
  have hmax : g.arena.depth < p.maxIterations.toNat := by
    rw [Problem.maxIterations_of_ofGraph hp]
    exact hbound
  exact ⟨hdeclared.takes hlists (hdeclared.atLayer_start hstart) hmax,
    hlater { graph := g } rfl rfl hbound⟩

theorem Graph.relay_checks_exact :
    (({ graph := relay } : Solver).withMaxIterations 8).Prompt 18 := by
  obtain ⟨solver, haccepts⟩ := Solver.exists_relay
  obtain ⟨⟨p, start, region, rounds, -, -, hrounds, -, hlater⟩, -⟩ :=
    Reachable.checks_exact reachable_relay rfl haccepts
  have hvertices : relay.numVertices = 5 := by decide +kernel
  have hbound : rounds ≤ (8 : UInt64).toNat := by
    rw [hvertices] at hrounds
    exact hrounds.trans (by decide)
  obtain ⟨-, hprompt⟩ := hlater (({ graph := relay } : Solver).withMaxIterations 8)
    (by dsimp only [Solver.withMaxIterations]) rfl hbound
  have htotal : (({ graph := relay } : Solver).withMaxIterations 8).checksMade none = 18 := by
    decide +kernel
  rw [hprompt.uncancelled] at htotal
  rw [← htotal]
  exact hprompt

end GraphGames
