import GraphGames.Attractor.Round
import GraphGames.Graph.Update
import Mathlib.Data.List.Basic
import Mathlib.Tactic.Common

/-!
# Cancelled polls can be resumed

A poll is cancelled at its first checkpoint, inside its sweep, or by the bound on rounds. In each
case it has found nothing yet, so the computation can be polled again. Only the number of rounds
tells the difference: a round that is cancelled inside its sweep has been counted already.

* `Problem.polls`, `Problem.resumed`: the outcomes of polls under given allowances with the states
  that they leave behind, and the last of these states;
* `Problem.kept`, `Problem.cuts`: the polls that were not cancelled, and the number of those that
  were cancelled inside their rounds;
* `Progress.Ahead`: one computation has found what another has, and counted more rounds;
* `Problem.poll_ahead`, `Problem.polls_ahead`: a cancelled poll leaves a computation ahead, any other
  takes both on together;
* `Problem.exists_polls`, `Problem.compute_induction`: a computation consists of polls that suspend
  and one that does not, and keeps what every poll that suspends keeps;
* `Problem.Resumable`, `Problem.resumable`: what cancellations change, and what they do not.
-/

namespace GraphGames

namespace Outcome

/-- Whether something cancelled the poll. -/
def isCancelled : Outcome → Bool
  | cancelled _ => true
  | _ => false

/-- Whether the trigger cancelled the poll. -/
def isTriggered : Outcome → Bool
  | cancelled .trigger => true
  | _ => false

/-- Whether the poll answered. -/
def isCompleted : Outcome → Bool
  | completed _ => true
  | _ => false

theorem eq_suspended {outcome : Outcome} (h : outcome.isSuspended) : outcome = .suspended := by
  cases outcome with
  | completed marking => cases h
  | suspended => rfl
  | cancelled cause => cases h

theorem isSuspended_of_not {outcome : Outcome} (hcancelled : ¬ outcome.isCancelled)
    (hcompleted : ¬ outcome.isCompleted) : outcome.isSuspended := by
  cases outcome with
  | completed marking => exact absurd rfl hcompleted
  | suspended => rfl
  | cancelled cause => exact absurd rfl hcancelled

end Outcome

/-- What is left of a computation under an allowance is its result. -/
theorem Traced.eq_of_value_under {α : Type} {allowance : Allowance} {t : Traced α} {a : α}
    (h : (t.under allowance).value = some a) : a = t.value := by
  rw [value_under, Option.ite_none_right_eq_some] at h
  exact (Option.some.inj h.2).symm

/-- One checkpoint is passed before others. -/
theorem Allowance.covers_succ (allowance : Allowance) (n : Nat) :
    allowance.covers (n + 1) = (allowance.covers 1 && (allowance.spend 1).covers n) := by
  cases allowance with
  | none => rfl
  | some k =>
    rw [Bool.eq_iff_iff]
    simp only [covers, spend, Option.map_some, Option.all_some, Bool.and_eq_true, decide_eq_true_eq]
    omega

theorem Traced.eq_mk {α : Type} {t : Traced α} {a : α} (h : t.value = a) : t = ⟨a, t.steps⟩ := by
  rw [← h]

/-- One computation has found what another has, and counted `d` more rounds. -/
structure Progress.Ahead (d : Nat) (s t : Progress) : Prop where
  win : s.win = t.win
  marking : s.marking = t.marking
  iteration : s.iteration.toNat = t.iteration.toNat + d

theorem Progress.ahead_self (s : Progress) : s.Ahead 0 s := ⟨rfl, rfl, rfl⟩

namespace Problem

/-- The outcomes of polls, with the states that they leave behind. -/
def polls (p : Problem) (operator : Operator) :
    List Allowance → Progress → List (Outcome × Progress)
  | [], _ => []
  | allowance :: allowances, s =>
    let polled := (p.poll operator allowance s).value
    polled :: p.polls operator allowances polled.2

/-- The state that polls leave behind. -/
def resumed (p : Problem) (operator : Operator) (allowances : List Allowance) (s : Progress) :
    Progress :=
  allowances.foldl (fun s allowance => (p.poll operator allowance s).value.2) s

/-- The polls that are not cancelled. -/
def kept (p : Problem) (operator : Operator) (allowances : List Allowance) (s : Progress) :
    List (Outcome × Progress) :=
  (p.polls operator allowances s).filter fun polled => !polled.1.isCancelled

/-- Whether a poll under an allowance was cancelled inside its round. -/
def isCut (allowance : Allowance) (outcome : Outcome) : Bool :=
  allowance.covers 1 && outcome.isTriggered

/-- The number of polls that are cancelled inside their rounds. -/
def cuts (p : Problem) (operator : Operator) (allowances : List Allowance) (s : Progress) : Nat :=
  (allowances.zip (p.polls operator allowances s)).countP fun (allowance, outcome, _) =>
    isCut allowance outcome

/-- The outcome of a poll, the region and its marking, without the number of rounds. -/
def view (polled : Outcome × Progress) : Outcome × VertexSet × Marking :=
  (polled.1, polled.2.win, polled.2.marking)

variable {p : Problem} {operator : Operator} {allowance : Allowance} {s t next : Progress} {d : Nat}

/-! ### One poll -/

/-- The state in which one more round is counted. -/
def begun (s : Progress) : Progress := { s with iteration := s.iteration + 1 }

/-- A round that has not been cut off completes the computation, or adds what it has found. -/
theorem value_conclude (operator : Operator) (s : Progress) (found : VertexSet) :
    (conclude operator s (some found)).value =
      if found.isEmpty then (.completed s.marking, s) else (.suspended, s.join found) := by
  unfold conclude
  by_cases hfound : found.isEmpty
  · simp [hfound]
  · simp [hfound]

/-- What a poll does when nothing cancels it from outside. -/
theorem poll_none (p : Problem) (operator : Operator) (s : Progress) :
    (p.poll operator none s).value =
      if p.maxIterations ≤ s.iteration then (.cancelled .iterationBound, s)
      else if (operator.predecessors p s.win).value.isEmpty then (.completed s.marking, begun s)
      else (.suspended, (begun s).join (operator.predecessors p s.win).value) := by
  show (p.round operator none s).value = _
  unfold round
  split
  · rfl
  · exact value_conclude operator (begun s) _

/-- A poll is cancelled by the trigger, before or inside its round, or not at all. -/
theorem poll_cases (p : Problem) (operator : Operator) (allowance : Allowance) (s : Progress) :
    (allowance.covers 1 = false ∧ (p.poll operator allowance s).value = (.cancelled .trigger, s)) ∨
    (allowance.covers 1 ∧ s.iteration < p.maxIterations ∧
      (p.poll operator allowance s).value = (.cancelled .trigger, begun s)) ∨
    (p.poll operator allowance s).value = (p.poll operator none s).value := by
  rw [poll_none]
  unfold poll
  by_cases hc : allowance.covers 1
  · rw [if_pos hc, Traced.value_bind]
    unfold round
    by_cases hb : p.maxIterations ≤ s.iteration
    · rw [if_pos hb, if_pos hb]
      exact Or.inr (Or.inr rfl)
    · rw [if_neg hb, if_neg hb]
      cases hvalue : ((operator.predecessors p s.win).under (allowance.spend 1)).value with
      | none =>
        refine Or.inr (Or.inl ⟨hc, UInt64.not_le.mp hb, ?_⟩)
        rw [Traced.value_bind, hvalue]
        rfl
      | some found =>
        refine Or.inr (Or.inr ?_)
        obtain rfl := Traced.eq_of_value_under hvalue
        rw [Traced.value_bind, hvalue]
        exact value_conclude operator (begun s) _
  · rw [if_neg hc]
    exact Or.inl ⟨Bool.not_eq_true _ ▸ hc, rfl⟩

/-- A poll is cancelled by the bound, or by the trigger unless it may pass the checkpoints of its sweep
and the one before. -/
theorem isCancelled_poll_iff (p : Problem) (operator : Operator) (allowance : Allowance)
    (s : Progress) :
    (p.poll operator allowance s).value.1.isCancelled ↔
      p.maxIterations ≤ s.iteration ∨
        ¬ allowance.covers ((operator.predecessors p s.win).checks + 1) := by
  rw [Allowance.covers_succ]
  unfold poll
  by_cases hc : allowance.covers 1
  · rw [if_pos hc, Traced.value_bind, hc, Bool.true_and]
    unfold round
    by_cases hb : p.maxIterations ≤ s.iteration
    · rw [if_pos hb]
      exact iff_of_true rfl (.inl hb)
    rw [if_neg hb, Traced.value_bind, Traced.value_under]
    by_cases hrest : (allowance.spend 1).covers (operator.predecessors p s.win).checks
    · rw [if_pos hrest, value_conclude]
      refine iff_of_false ?_ (not_or.mpr ⟨hb, not_not.mpr hrest⟩)
      split <;> exact Bool.false_ne_true
    · rw [if_neg hrest]
      exact iff_of_true rfl (.inr hrest)
  · rw [if_neg hc]
    refine iff_of_true rfl (.inr ?_)
    simp [hc]

/-- A poll that is not cancelled does what it does when nothing can cancel it from outside. -/
theorem poll_eq_of_kept (h : ¬ (p.poll operator allowance s).value.1.isCancelled) :
    (p.poll operator allowance s).value = (p.poll operator none s).value := by
  rcases p.poll_cases operator allowance s with ⟨-, hpoll⟩ | ⟨-, -, hpoll⟩ | hpoll
  · rw [hpoll] at h
    exact absurd rfl h
  · rw [hpoll] at h
    exact absurd rfl h
  · exact hpoll

/-- Counting one more round. -/
theorem toNat_begun (h : s.iteration < p.maxIterations) :
    (begun s).iteration.toNat = s.iteration.toNat + 1 := by
  have hone : (1 : UInt64).toNat = 1 := rfl
  have hbound := p.maxIterations.toNat_lt
  rw [UInt64.lt_iff_toNat_lt] at h
  show (s.iteration + 1).toNat = _
  rw [UInt64.toNat_add, hone]
  omega

/-- A poll that nothing cancels from outside takes both computations on together, unless the bound
refuses it. -/
theorem poll_none_ahead (p : Problem) (operator : Operator) (h : s.Ahead d t) :
    (p.poll operator none s).value = (.cancelled .iterationBound, s) ∨
      ((p.poll operator none s).value.1.isCancelled = false ∧
        ∃ next, (p.poll operator none t).value = ((p.poll operator none s).value.1, next) ∧
          (p.poll operator none s).value.2.Ahead d next) := by
  rw [poll_none, poll_none]
  by_cases hb : p.maxIterations ≤ s.iteration
  · rw [if_pos hb]
    exact Or.inl rfl
  have hs := UInt64.not_le.mp hb
  -- the other computation has counted no more rounds, so it is below the bound as well
  have ht : t.iteration < p.maxIterations := by
    have hcount := h.iteration
    rw [UInt64.lt_iff_toNat_lt] at hs ⊢
    omega
  have hiteration : (begun s).iteration.toNat = (begun t).iteration.toNat + d := by
    rw [toNat_begun hs, toNat_begun ht, h.iteration]
    omega
  rw [if_neg hb, if_neg (UInt64.not_le.mpr ht), h.win]
  refine Or.inr ?_
  by_cases hfound : (operator.predecessors p t.win).value.isEmpty
  · rw [if_pos hfound, if_pos hfound, h.marking]
    exact ⟨rfl, _, rfl, h.win, h.marking, hiteration⟩
  · rw [if_neg hfound, if_neg hfound]
    refine ⟨rfl, _, rfl, ?_, ?_, hiteration⟩
    · exact congrArg (· ∪ _) h.win
    · exact congrArg (Marking.markAll · _) h.marking

/-- A poll that is cancelled leaves what has been found; it is one round ahead if it was cancelled
inside its round. Any other takes both computations on together. -/
theorem poll_ahead (p : Problem) (operator : Operator) (h : s.Ahead d t) (allowance : Allowance) :
    ((p.poll operator allowance s).value.1.isCancelled ∧
      (p.poll operator allowance s).value.2.Ahead
        (d + if isCut allowance (p.poll operator allowance s).value.1 then 1 else 0) t) ∨
    ((p.poll operator allowance s).value.1.isCancelled = false ∧
      ∃ next, (p.poll operator none t).value = ((p.poll operator allowance s).value.1, next) ∧
        (p.poll operator allowance s).value.2.Ahead d next) := by
  rcases p.poll_cases operator allowance s with ⟨hc, hpoll⟩ | ⟨hc, hb, hpoll⟩ | hpoll
  · rw [hpoll, isCut, hc]
    exact Or.inl ⟨rfl, h⟩
  · rw [hpoll, isCut, hc]
    refine Or.inl ⟨rfl, h.win, h.marking, ?_⟩
    show (begun s).iteration.toNat = t.iteration.toNat + (d + 1)
    rw [toNat_begun hb, h.iteration]
    omega
  · rw [hpoll]
    rcases poll_none_ahead p operator h with hbound | htogether
    · rw [hbound, isCut]
      refine Or.inl ⟨rfl, ?_⟩
      simpa [Outcome.isTriggered] using h
    · exact Or.inr htogether

/-! ### Several polls -/

theorem kept_cons (p : Problem) (operator : Operator) (allowance : Allowance)
    (allowances : List Allowance) (s : Progress) :
    p.kept operator (allowance :: allowances) s =
      if (p.poll operator allowance s).value.1.isCancelled then
        p.kept operator allowances (p.poll operator allowance s).value.2
      else (p.poll operator allowance s).value ::
        p.kept operator allowances (p.poll operator allowance s).value.2 := by
  rw [kept, polls, List.filter_cons]
  by_cases hc : (p.poll operator allowance s).value.1.isCancelled
  · rw [if_pos hc, if_neg (by simp [hc])]
    rfl
  · rw [if_neg hc, if_pos (by simp [hc])]
    rfl

theorem cuts_cons (p : Problem) (operator : Operator) (allowance : Allowance)
    (allowances : List Allowance) (s : Progress) :
    p.cuts operator (allowance :: allowances) s =
      p.cuts operator allowances (p.poll operator allowance s).value.2 +
        if isCut allowance (p.poll operator allowance s).value.1 then 1 else 0 :=
  List.countP_cons

theorem isCut_of_kept (allowance : Allowance) {outcome : Outcome}
    (h : outcome.isCancelled = false) : isCut allowance outcome = false := by
  unfold isCut
  cases outcome with
  | cancelled cause => cases h
  | completed marking => exact Bool.and_false _
  | suspended => exact Bool.and_false _

/-- The polls that are not cancelled see what as many uninterrupted polls see, and at the end are
ahead by the rounds that were cut off. -/
theorem polls_ahead (p : Problem) (operator : Operator) (h : s.Ahead d t)
    (allowances : List Allowance) :
    (p.kept operator allowances s).map view =
        (p.polls operator (.replicate (p.kept operator allowances s).length none) t).map view ∧
      (p.resumed operator allowances s).Ahead (d + p.cuts operator allowances s)
        (p.resumed operator (.replicate (p.kept operator allowances s).length none) t) := by
  induction allowances generalizing s t d with
  | nil => exact ⟨rfl, h⟩
  | cons allowance allowances ih =>
    rw [kept_cons, cuts_cons]
    rcases poll_ahead p operator h allowance with
      ⟨hcancelled, hahead⟩ | ⟨hkept, next, hnext, hahead⟩
    · rw [if_pos hcancelled, Nat.add_comm (p.cuts _ _ _), ← Nat.add_assoc]
      exact ih hahead
    · have hcut : isCut allowance (p.poll operator allowance s).value.1 = false :=
        isCut_of_kept allowance hkept
      obtain ⟨hview, hlast⟩ := ih hahead
      have hhead : view (p.poll operator allowance s).value =
          view (p.poll operator none t).value := by
        rw [hnext]
        exact congrArg₂ (fun win marking => (_, win, marking)) hahead.win hahead.marking
      rw [hkept, hcut, if_neg Bool.false_ne_true, if_neg Bool.false_ne_true, List.length_cons,
        List.replicate_succ, polls, List.map_cons, List.map_cons, hhead, resumed, resumed,
        List.foldl_cons, List.foldl_cons, hnext]
      exact ⟨congrArg _ hview, hlast⟩

/-! ### Uninterrupted computations -/

theorem of_completed {marking : Marking}
    (h : (p.poll operator allowance s).value = (.completed marking, next)) :
    next = begun s ∧ marking = s.marking ∧ s.iteration < p.maxIterations ∧
      (operator.predecessors p s.win).value.isEmpty := by
  have hkept : ¬ (p.poll operator allowance s).value.1.isCancelled := by
    rw [h]
    exact Bool.false_ne_true
  rw [poll_eq_of_kept hkept, poll_none] at h
  by_cases hb : p.maxIterations ≤ s.iteration
  · rw [if_pos hb] at h
    cases h
  rw [if_neg hb] at h
  by_cases hempty : (operator.predecessors p s.win).value.isEmpty
  · rw [if_pos hempty] at h
    cases h
    exact ⟨rfl, rfl, UInt64.not_le.mp hb, hempty⟩
  · rw [if_neg hempty] at h
    cases h

/-- A poll that suspends has found something, and joins it. -/
theorem of_suspended (h : (p.poll operator none s).value = (.suspended, next)) :
    next = (begun s).join (operator.predecessors p s.win).value ∧
      s.iteration < p.maxIterations ∧ ¬ (operator.predecessors p s.win).value.isEmpty := by
  rw [poll_none] at h
  by_cases hb : p.maxIterations ≤ s.iteration
  · rw [if_pos hb] at h
    cases h
  rw [if_neg hb] at h
  by_cases hempty : (operator.predecessors p s.win).value.isEmpty
  · rw [if_pos hempty] at h
    cases h
  · rw [if_neg hempty] at h
    cases h
    exact ⟨rfl, UInt64.not_le.mp hb, hempty⟩

/-- Only the bound cancels a poll that nothing cancels from outside, and it changes nothing. -/
theorem of_cancelled {cause : Cause} (h : (p.poll operator none s).value = (.cancelled cause, next)) :
    cause = .iterationBound ∧ next = s ∧ p.maxIterations ≤ s.iteration := by
  rw [poll_none] at h
  by_cases hb : p.maxIterations ≤ s.iteration
  · rw [if_pos hb] at h
    cases h
    exact ⟨rfl, rfl, hb⟩
  rw [if_neg hb] at h
  by_cases hempty : (operator.predecessors p s.win).value.isEmpty
  · rw [if_pos hempty] at h
    cases h
  · rw [if_neg hempty] at h
    cases h

theorem value_of_isSuspended (h : (p.poll operator allowance s).value.1.isSuspended) :
    (p.poll operator allowance s).value = (.suspended, (p.poll operator allowance s).value.2) :=
  Prod.ext (Outcome.eq_suspended h) rfl

theorem compute_none_of_suspended (h : (p.poll operator none s).value = (.suspended, next)) :
    (p.compute operator none s).value = (p.compute operator none next).value := by
  rw [compute_of_suspended (Traced.eq_mk h)]
  rfl

theorem compute_none_of_completed {marking : Marking}
    (h : (p.poll operator none s).value = (.completed marking, next)) :
    (p.compute operator none s).value = (.ok marking, next) := by
  rw [compute_of_completed (Traced.eq_mk h)]

/-- A computation goes on from where uninterrupted polls have taken it. -/
theorem compute_of_polls {n : Nat} {s : Progress}
    (h : ∀ polled ∈ p.polls operator (.replicate n none) s, polled.1.isSuspended) :
    (p.compute operator none s).value =
      (p.compute operator none (p.resumed operator (.replicate n none) s)).value := by
  induction n generalizing s with
  | zero => rfl
  | succ n ih =>
    obtain ⟨hfirst, hrest⟩ := List.forall_mem_cons.mp h
    rw [compute_none_of_suspended (value_of_isSuspended hfirst)]
    exact ih hrest

/-- Uninterrupted polls that suspend count one round each. -/
theorem iteration_resumed {n : Nat} {s : Progress}
    (h : ∀ polled ∈ p.polls operator (.replicate n none) s, polled.1.isSuspended) :
    (p.resumed operator (.replicate n none) s).iteration.toNat = s.iteration.toNat + n := by
  induction n generalizing s with
  | zero => rfl
  | succ n ih =>
    obtain ⟨hfirst, hrest⟩ := List.forall_mem_cons.mp h
    obtain ⟨hbound, hiteration⟩ := iteration_poll hfirst
    have hlast := ih hrest
    rw [hiteration, show (s.iteration + 1).toNat = _ from toNat_begun hbound] at hlast
    rw [List.replicate_succ, resumed, List.foldl_cons]
    show (p.resumed operator (.replicate n none) _).iteration.toNat = _
    omega

/-- A computation consists of uninterrupted polls that suspend, and one that does not. -/
theorem exists_polls (p : Problem) (operator : Operator) (s : Progress) :
    ∃ n, (∀ polled ∈ p.polls operator (.replicate n none) s, polled.1.isSuspended) ∧
      ¬ (p.poll operator none (p.resumed operator (.replicate n none) s)).value.1.isSuspended := by
  -- each poll that suspends leaves fewer rounds up to the bound
  generalize hleft : (p.maxIterations - s.iteration).toNat = left
  induction left using Nat.strongRecOn generalizing s with
  | ind left ih =>
  by_cases hpoll : (p.poll operator none s).value.1.isSuspended
  · have hvalue := Traced.eq_mk (value_of_isSuspended hpoll)
    obtain ⟨n, hrest, hlast⟩ := ih _ (hleft ▸ roundsLeft_lt hvalue) _ rfl
    exact ⟨n + 1, List.forall_mem_cons.mpr ⟨hpoll, hrest⟩, hlast⟩
  · exact ⟨0, by simp [polls], hpoll⟩

/-- A computation that answers consists of uninterrupted polls, each of which counts one round. -/
theorem polls_of_compute {marking : Marking} {s last : Progress}
    (h : (p.compute operator none s).value = (.ok marking, last)) :
    ∃ n, (∀ polled ∈ p.polls operator (.replicate n none) s, polled.1.isSuspended) ∧
      (p.poll operator none (p.resumed operator (.replicate n none) s)).value =
        (.completed marking, last) ∧
      last.iteration.toNat = s.iteration.toNat + (n + 1) := by
  obtain ⟨n, hsuspended, hend⟩ := exists_polls p operator s
  rw [compute_of_polls hsuspended] at h
  refine ⟨n, hsuspended, ?_⟩
  cases hvalue : (p.poll operator none (p.resumed operator (.replicate n none) s)).value with
  | mk outcome next =>
  cases outcome with
  | completed marking' =>
    rw [compute_none_of_completed hvalue] at h
    cases h
    obtain ⟨hlast, -, hbound, -⟩ := of_completed hvalue
    refine ⟨rfl, ?_⟩
    rw [hlast, toNat_begun hbound, iteration_resumed hsuspended, Nat.add_assoc]
  | cancelled cause =>
    rw [compute_of_cancelled (Traced.eq_mk hvalue)] at h
    cases h
  | suspended =>
    rw [hvalue] at hend
    exact absurd rfl hend

/-- A computation that nothing cancels from outside fails only at the bound, where it stops with what
the polls before have reached. -/
theorem polls_of_error {cause : Cause} {s last : Progress}
    (h : (p.compute operator none s).value = (.error cause, last)) :
    cause = .iterationBound ∧ p.maxIterations ≤ last.iteration ∧
      ∃ n, (∀ polled ∈ p.polls operator (.replicate n none) s, polled.1.isSuspended) ∧
        last = p.resumed operator (.replicate n none) s := by
  obtain ⟨n, hsuspended, hend⟩ := exists_polls p operator s
  rw [compute_of_polls hsuspended] at h
  cases hvalue : (p.poll operator none (p.resumed operator (.replicate n none) s)).value with
  | mk outcome next =>
  cases outcome with
  | completed marking =>
    rw [compute_none_of_completed hvalue] at h
    cases h
  | cancelled cause' =>
    rw [compute_of_cancelled (Traced.eq_mk hvalue)] at h
    cases h
    obtain ⟨hcause, rfl, hbound⟩ := of_cancelled hvalue
    exact ⟨hcause, hbound, n, hsuspended, rfl⟩
  | suspended =>
    rw [hvalue] at hend
    exact absurd rfl hend

/-- A computation that answers under an allowance answers the same without one. -/
theorem compute_none_of_answer {allowance : Allowance} {marking : Marking} {s last : Progress}
    (h : (p.compute operator allowance s).value = (.ok marking, last)) :
    (p.compute operator none s).value = (.ok marking, last) := by
  generalize hleft : (p.maxIterations - s.iteration).toNat = left
  induction left using Nat.strongRecOn generalizing s allowance with
  | ind left ih =>
  -- a computation that answers was never cancelled
  have hnone : ¬ (p.poll operator allowance s).value.1.isCancelled →
      (p.poll operator none s).value = (p.poll operator allowance s).value := by
    intro hkept
    exact (poll_eq_of_kept hkept).symm
  cases hvalue : (p.poll operator allowance s).value with
  | mk outcome next =>
  have hpoll := Traced.eq_mk hvalue
  rw [hvalue] at hnone
  cases outcome with
  | completed marking' =>
    rw [compute_of_completed hpoll] at h
    rw [compute_none_of_completed (hnone Bool.false_ne_true)]
    exact h
  | cancelled cause =>
    rw [compute_of_cancelled hpoll] at h
    cases h
  | suspended =>
    rw [compute_of_suspended hpoll] at h
    rw [compute_none_of_suspended (hnone Bool.false_ne_true)]
    exact ih _ (hleft ▸ roundsLeft_lt hpoll) h rfl

/-- What every round that suspends keeps holds where the last round begins. -/
theorem compute_induction {P : Progress → Prop} {marking : Marking} {s last : Progress}
    (hround : ∀ s next, P s → (p.poll operator none s).value = (.suspended, next) → P next)
    (hs : P s) (h : (p.compute operator allowance s).value = (.ok marking, last)) :
    ∃ t, P t ∧ (p.poll operator none t).value = (.completed marking, last) := by
  obtain ⟨n, hsuspended, hlast, -⟩ := polls_of_compute (compute_none_of_answer h)
  refine ⟨_, ?_, hlast⟩
  clear hlast h
  induction n generalizing s with
  | zero => exact hs
  | succ n ih =>
    obtain ⟨hfirst, hrest⟩ := List.forall_mem_cons.mp hsuspended
    exact ih (hround s _ hs (value_of_isSuspended hfirst)) hrest

/-- Each of several uninterrupted polls is among them. -/
theorem poll_mem_polls (p : Problem) (operator : Operator) {m n : Nat} (h : n < m) (s : Progress) :
    (p.poll operator none (p.resumed operator (.replicate n none) s)).value ∈
      p.polls operator (.replicate m none) s := by
  induction n generalizing m s with
  | zero =>
    obtain ⟨m, rfl⟩ : ∃ m', m = m' + 1 := ⟨m - 1, by omega⟩
    exact List.mem_cons_self
  | succ n ih =>
    obtain ⟨m, rfl⟩ : ∃ m', m = m' + 1 := ⟨m - 1, by omega⟩
    exact List.mem_cons_of_mem _ (ih (by omega) _)

/-- A poll that has nothing to find keeps the region and its marking. -/
theorem win_poll_of_isEmpty (h : (operator.predecessors p s.win).value.isEmpty)
    (allowance : Allowance) :
    (p.poll operator allowance s).value.2.win = s.win ∧
      (p.poll operator allowance s).value.2.marking = s.marking := by
  rcases p.poll_cases operator allowance s with ⟨-, hpoll⟩ | ⟨-, -, hpoll⟩ | hpoll
  · rw [hpoll]
    exact ⟨rfl, rfl⟩
  · rw [hpoll]
    exact ⟨rfl, rfl⟩
  · rw [hpoll, poll_none, if_pos h]
    split
    · exact ⟨rfl, rfl⟩
    · exact ⟨rfl, rfl⟩

/-- Once there is nothing to find, no poll finds anything. -/
theorem win_of_isEmpty (h : (operator.predecessors p s.win).value.isEmpty)
    (allowances : List Allowance) :
    (p.resumed operator allowances s).win = s.win ∧
      (p.resumed operator allowances s).marking = s.marking := by
  induction allowances generalizing s with
  | nil => exact ⟨rfl, rfl⟩
  | cons allowance allowances ih =>
    obtain ⟨hwin, hmarking⟩ := win_poll_of_isEmpty h allowance
    have hempty : (operator.predecessors p
        (p.poll operator allowance s).value.2.win).value.isEmpty := by
      rw [hwin]
      exact h
    obtain ⟨hlast, hlastMarking⟩ := ih hempty
    exact ⟨hlast.trans hwin, hlastMarking.trans hmarking⟩

/-! ### What cancellations change -/

/-- A computation that was polled under the given allowances has lost nothing by the polls that were
cancelled. -/
structure Resumable (p : Problem) (operator : Operator) (allowances : List Allowance)
    (s : Progress) : Prop where
  /-- A further poll is cancelled only at the bound, or when it may not pass the checkpoints of its sweep
  and the one before. -/
  isCancelled : ∀ allowance,
    (p.poll operator allowance (p.resumed operator allowances s)).value.1.isCancelled ↔
      p.maxIterations ≤ (p.resumed operator allowances s).iteration ∨
        ¬ allowance.covers
          ((operator.predecessors p (p.resumed operator allowances s).win).checks + 1)
  /-- A further poll that is cancelled leaves the region and its marking as they are. -/
  cancelled : ∀ allowance,
    (p.poll operator allowance (p.resumed operator allowances s)).value.1.isCancelled →
      (p.poll operator allowance (p.resumed operator allowances s)).value.2.win =
          (p.resumed operator allowances s).win ∧
        (p.poll operator allowance (p.resumed operator allowances s)).value.2.marking =
          (p.resumed operator allowances s).marking
  /-- Without the polls that were cancelled, the outcomes, the regions and their markings are those of
  an uninterrupted computation. -/
  kept : (p.kept operator allowances s).map view =
    (p.polls operator (.replicate (p.kept operator allowances s).length none) s).map view
  /-- The first poll that completes answers what an uninterrupted computation answers, with the same
  region, and has counted one more round for each that was cut off. -/
  completed : ∀ allowance marking next,
    (∀ polled ∈ p.polls operator allowances s, ¬ polled.1.isCompleted) →
    (p.poll operator allowance (p.resumed operator allowances s)).value =
      (.completed marking, next) →
    ∃ last, (p.compute operator none s).value = (.ok marking, last) ∧ next.win = last.win ∧
      next.marking = marking ∧ last.marking = marking ∧
      next.iteration.toNat = last.iteration.toNat + p.cuts operator allowances s
  /-- A poll completes once as many were kept as an uninterrupted computation takes. -/
  completes : ∀ marking last, (p.compute operator none s).value = (.ok marking, last) →
    last.iteration.toNat ≤ s.iteration.toNat + (p.kept operator allowances s).length →
    ∃ polled ∈ p.kept operator allowances s, polled.1 = .completed marking
  /-- After a poll that completed, every poll that is not cancelled completes with the same answer and
  the same region. -/
  again : ∀ before allowance marking next,
    (p.poll operator before s).value = (.completed marking, next) →
    ¬ (p.poll operator allowance (p.resumed operator allowances next)).value.1.isCancelled →
    ∃ last, (p.poll operator allowance (p.resumed operator allowances next)).value =
      (.completed marking, last) ∧ last.win = next.win ∧ last.marking = marking

/-- An uninterrupted poll has the outcome of one that was kept. -/
theorem exists_kept {allowances : List Allowance} {polled : Outcome × Progress}
    (h : polled ∈ p.polls operator (.replicate (p.kept operator allowances s).length none) s) :
    ∃ original ∈ p.kept operator allowances s, original.1 = polled.1 := by
  have hmem : view polled ∈ (p.polls operator (.replicate _ none) s).map view :=
    List.mem_map_of_mem h
  rw [← (polls_ahead p operator s.ahead_self allowances).1] at hmem
  obtain ⟨original, horiginal, heq⟩ := List.mem_map.mp hmem
  exact ⟨original, horiginal, (Prod.ext_iff.mp heq).1⟩

/-- As long as no poll completes, as many uninterrupted polls as were kept suspend. -/
theorem isSuspended_of_kept {allowances : List Allowance}
    (h : ∀ polled ∈ p.polls operator allowances s, ¬ polled.1.isCompleted) :
    ∀ polled ∈ p.polls operator (.replicate (p.kept operator allowances s).length none) s,
      polled.1.isSuspended := by
  intro polled hpolled
  obtain ⟨original, horiginal, houtcome⟩ := exists_kept hpolled
  obtain ⟨hin, hkept⟩ := List.mem_filter.mp horiginal
  rw [← houtcome]
  exact Outcome.isSuspended_of_not (by simpa using hkept) (h original hin)

/-- **Cancelled polls change nothing but the number of rounds.** -/
theorem resumable (p : Problem) (operator : Operator) (allowances : List Allowance)
    (s : Progress) : p.Resumable operator allowances s where
  isCancelled allowance := isCancelled_poll_iff p operator allowance _
  cancelled allowance hcancelled := by
    rcases poll_ahead p operator (Progress.ahead_self _) allowance with ⟨-, hahead⟩ | ⟨hkept, -⟩
    · exact ⟨hahead.win, hahead.marking⟩
    · rw [hkept] at hcancelled
      cases hcancelled
  kept := (polls_ahead p operator s.ahead_self allowances).1
  completed allowance marking next hnone hpoll := by
    obtain ⟨-, hahead⟩ := polls_ahead p operator s.ahead_self allowances
    rcases poll_ahead p operator hahead allowance with
      ⟨hcancelled, -⟩ | ⟨-, last, hlast, hnext⟩
    · rw [hpoll] at hcancelled
      cases hcancelled
    rw [hpoll] at hlast hnext
    have hcompute := compute_of_polls (isSuspended_of_kept hnone)
    rw [compute_none_of_completed hlast] at hcompute
    obtain ⟨rfl, hmarking, -⟩ := of_completed hpoll
    refine ⟨last, hcompute, hnext.win, hmarking.symm, hnext.marking.symm.trans hmarking.symm, ?_⟩
    rw [hnext.iteration, Nat.zero_add]
  completes marking last hcompute hlength := by
    obtain ⟨n, -, hlast, hcount⟩ := polls_of_compute hcompute
    have hmem := poll_mem_polls p operator
      (show n < (p.kept operator allowances s).length by omega) s
    rw [hlast] at hmem
    exact exists_kept hmem
  again before allowance marking next hbefore hkept := by
    obtain ⟨rfl, rfl, -, hempty⟩ := of_completed hbefore
    change (operator.predecessors p (begun s).win).value.isEmpty at hempty
    obtain ⟨hwin, hmarking⟩ := win_of_isEmpty hempty allowances
    have hpoll := poll_eq_of_kept hkept
    rw [hpoll, poll_none] at hkept ⊢
    by_cases hb : p.maxIterations ≤ (p.resumed operator allowances (begun s)).iteration
    · rw [if_pos hb] at hkept
      exact absurd rfl hkept
    · rw [if_neg hb, hwin, if_pos hempty, hmarking]
      exact ⟨_, rfl, hwin, hmarking⟩

/-- One move of player one to a final vertex. -/
def hop : Problem where
  graph := Graph.empty.addVertex.addVertex.insertEdge ⟨0⟩ ⟨1⟩
  owners := .ofList [(VertexId.mk 0, Player.one), (VertexId.mk 1, Player.two)]
  finals := .ofList [VertexId.mk 1]

/-- The final vertex of the hop, before the first round. -/
def hopStart : Progress where
  iteration := 0
  win := hop.finals
  marking := ⟨"reached", hop.graph, .defaults .bool 2⟩

/-- The first poll is cut off inside its sweep for player two, after that for player one has attracted a
vertex. The vertex is not in the region until the second poll attracts it again, and the third completes
one round later than it would have without the first. -/
theorem hop_resumable :
    hop.Resumable .controllable [some 3, none] hopStart ∧
      (hop.poll .controllable (some 3) hopStart).events = [.attracted .one ⟨1⟩ ⟨0⟩] ∧
      hop.cuts .controllable [some 3, none] hopStart = 1 ∧
      ((hop.polls .controllable [some 3, none, none] hopStart).map fun polled =>
          (polled.1.isTriggered, polled.1.isCompleted, polled.2.win.toList, polled.2.iteration)) =
        [(true, false, [⟨1⟩], 1), (false, false, [⟨0⟩, ⟨1⟩], 2), (false, true, [⟨0⟩, ⟨1⟩], 3)] ∧
      (hop.resumed .controllable [none, none] hopStart).iteration = 2 := by
  refine ⟨resumable hop .controllable [some 3, none] hopStart, ?_, ?_, ?_, ?_⟩
  · decide +kernel
  · decide +kernel
  · decide +kernel
  · decide +kernel

end Problem

end GraphGames
