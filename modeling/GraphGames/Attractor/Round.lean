import GraphGames.Attractor.Predecessors
import GraphGames.Marking

/-!
# Rounds

An attractor is computed in rounds. A round adds the predecessors of the region reached so far, and
the round that finds none completes the computation.

Rounds are driven and cancelled by libraries from outside, of which this much is taken over. To poll a
computation is to ask first whether it was cancelled and, if not, to make one step of it, here a round,
on the state that it owns. The step answers, suspends or is cancelled, and what it has made of the state
stays in any case. A computation that is to be completed is polled for as long as it suspends, and ends
with the first other outcome. A checkpoint asks a trigger, and a computation leaves off at the first
checkpoint at which the trigger has fired: what it did before stands, and nothing follows. Within one
poll, and within one computation that is to be completed, a trigger that has fired stays so. It is told
by the number of checkpoints that are passed before, an `Allowance`, and `Traced.under` is what is left
of a sweep.

* `Progress`: the number of rounds begun, the region, and its marking; `Progress.start` begins with
  the final vertices;
* `Outcome`: how a round ends;
* `Problem.round`: a round that nothing cancels from outside;
* `Problem.poll`: a checkpoint and a round, under an allowance of checkpoints;
* `Problem.compute`: polls until one does not suspend.
-/

namespace GraphGames

/-- How far a computation has come. -/
structure Progress where
  iteration : UInt64
  win : VertexSet
  marking : Marking

namespace Progress

/-- The final vertices, marked under a name that the graph leaves free. -/
def start (p : Problem) (name : String) : Except Error Progress := do
  let marking ← Marking.create p.graph name
  return ⟨0, p.finals, marking.markAll p.finals.toList⟩

/-- The final vertices, marked under a free name. -/
def startFree (p : Problem) : Except Error Progress :=
  start p (Marking.freeName p.graph Marking.defaultName)

/-- Add vertices to the region and to its marking. -/
def join (s : Progress) (found : VertexSet) : Progress :=
  { s with
    win := s.win ∪ found
    marking := s.marking.markAll found.toList }

end Progress

/-- How a poll ends. -/
inductive Outcome
  | completed (marking : Marking)
  | suspended
  | cancelled (cause : Cause)

/-- Whether there are rounds left. -/
def Outcome.isSuspended : Outcome → Bool
  | suspended => true
  | _ => false

/-- The wording of an outcome without an answer. -/
def Outcome.message : Outcome → String
  | completed _ => "Operation completed"
  | suspended => "Operation suspended"
  | cancelled cause => cause.message

namespace Problem

/-- Use the predecessors found in a round that has begun, if its sweep was not cut off. -/
def conclude (operator : Operator) (s : Progress) : Option VertexSet → Traced (Outcome × Progress)
  | none => pure (.cancelled .trigger, s)
  | some found =>
    if found.isEmpty then do
      Traced.report (.completed s.iteration operator s.win.extent)
      return (.completed s.marking, s)
    else do
      let joined := s.join found
      Traced.report (.enlarged joined.iteration operator joined.win.extent)
      return (.suspended, joined)

/-- One round, whose sweep may pass as many checkpoints as allowed. A round is refused once the
bound is reached; otherwise it is counted before its sweep. -/
def round (p : Problem) (operator : Operator) (allowance : Allowance) (s : Progress) :
    Traced (Outcome × Progress) :=
  if p.maxIterations ≤ s.iteration then do
    Traced.report (.boundReached s.iteration operator)
    return (.cancelled .iterationBound, s)
  else do
    let begun := { s with iteration := s.iteration + 1 }
    let found ← (operator.predecessors p begun.win).under allowance
    conclude operator begun found

/-- A checkpoint, and one round if it may be passed. -/
def poll (p : Problem) (operator : Operator) (allowance : Allowance) (s : Progress) :
    Traced (Outcome × Progress) :=
  if allowance.covers 1 then do
    Traced.check
    p.round operator (allowance.spend 1) s
  else pure (.cancelled .trigger, s)

/-- A round that suspends was counted. -/
theorem iteration_conclude {operator : Operator} {s : Progress} {found : Option VertexSet} :
    (conclude operator s found).value.2.iteration = s.iteration := by
  cases found with
  | none => rfl
  | some found => by_cases hf : found.isEmpty <;> simp [conclude, hf, Progress.join]

/-- A round that suspends was below the bound. -/
theorem iteration_round {p : Problem} {operator : Operator} {allowance : Allowance} {s : Progress}
    (h : (p.round operator allowance s).value.1.isSuspended) :
    s.iteration < p.maxIterations ∧
      (p.round operator allowance s).value.2.iteration = s.iteration + 1 := by
  by_cases hb : p.maxIterations ≤ s.iteration
  · simp [round, hb, Outcome.isSuspended] at h
  · refine ⟨UInt64.not_le.mp hb, ?_⟩
    simp only [round, hb, if_false, Traced.value_bind, iteration_conclude]

/-- A poll that suspends has begun a round below the bound. -/
theorem iteration_poll {p : Problem} {operator : Operator} {allowance : Allowance} {s : Progress}
    (h : (p.poll operator allowance s).value.1.isSuspended) :
    s.iteration < p.maxIterations ∧
      (p.poll operator allowance s).value.2.iteration = s.iteration + 1 := by
  by_cases hc : allowance.covers 1
  · simp only [poll, hc, if_true, Traced.value_bind] at h ⊢
    exact iteration_round h
  · simp [poll, hc, Outcome.isSuspended] at h

/-- A poll that suspends leaves fewer rounds up to the bound. -/
theorem roundsLeft_lt {p : Problem} {operator : Operator} {allowance : Allowance}
    {s next : Progress} {steps : List Step}
    (h : p.poll operator allowance s = ⟨(.suspended, next), steps⟩) :
    (p.maxIterations - next.iteration).toNat < (p.maxIterations - s.iteration).toNat := by
  have hpoll : (p.poll operator allowance s).value.1.isSuspended := by rw [h]; rfl
  obtain ⟨hlt, hnext⟩ := iteration_poll hpoll
  rw [h] at hnext
  change next.iteration = _ at hnext
  have hone : (1 : UInt64).toNat = 1 := rfl
  have hbound := p.maxIterations.toNat_lt
  rw [UInt64.lt_iff_toNat_lt] at hlt
  have hsum : (s.iteration + 1).toNat = s.iteration.toNat + 1 := by
    rw [UInt64.toNat_add, hone]
    omega
  rw [hnext, UInt64.toNat_sub_of_le _ _ (UInt64.le_iff_toNat_le.mpr (by omega)),
    UInt64.toNat_sub_of_le _ _ (UInt64.le_iff_toNat_le.mpr (by omega))]
  omega

/-- Poll until the computation completes or is cancelled. -/
def compute (p : Problem) (operator : Operator) (allowance : Allowance) (s : Progress) :
    Traced (Except Cause Marking × Progress) :=
  match _ : p.poll operator allowance s with
  | ⟨(.completed marking, next), steps⟩ => ⟨(.ok marking, next), steps⟩
  | ⟨(.cancelled cause, next), steps⟩ => ⟨(.error cause, next), steps⟩
  | ⟨(.suspended, next), steps⟩ =>
    let rest := p.compute operator (allowance.spend (steps.count .check)) next
    ⟨rest.value, steps ++ rest.steps⟩
termination_by (p.maxIterations - s.iteration).toNat
decreasing_by exact roundsLeft_lt ‹_›

/-- A poll that completes is the whole computation. -/
theorem compute_of_completed {p : Problem} {operator : Operator} {allowance : Allowance}
    {s next : Progress} {marking : Marking} {steps : List Step}
    (h : p.poll operator allowance s = ⟨(.completed marking, next), steps⟩) :
    p.compute operator allowance s = ⟨(.ok marking, next), steps⟩ := by
  rw [compute]
  split <;> simp_all

/-- A poll that is cancelled is the whole computation. -/
theorem compute_of_cancelled {p : Problem} {operator : Operator} {allowance : Allowance}
    {s next : Progress} {cause : Cause} {steps : List Step}
    (h : p.poll operator allowance s = ⟨(.cancelled cause, next), steps⟩) :
    p.compute operator allowance s = ⟨(.error cause, next), steps⟩ := by
  rw [compute]
  split <;> simp_all

/-- After a poll that suspends the computation goes on with what is left of the allowance. -/
theorem compute_of_suspended {p : Problem} {operator : Operator} {allowance : Allowance}
    {s next : Progress} {steps : List Step}
    (h : p.poll operator allowance s = ⟨(.suspended, next), steps⟩) :
    p.compute operator allowance s =
      let rest := p.compute operator (allowance.spend (steps.count .check)) next
      ⟨rest.value, steps ++ rest.steps⟩ := by
  rw [compute]
  split <;> simp_all

end Problem

end GraphGames
