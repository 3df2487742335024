import GraphGames.Event

/-!
# Computations with checkpoints and events

A computation that can be cancelled passes checkpoints on its way, and reports events between them.
What it computes does not depend on either, so both are kept in a list beside the result, and a
cancellation cuts that list short.

* `Step`: a checkpoint that was passed, or an event;
* `Traced`: a result and the steps on the way to it, in order; `checks` counts the checkpoints and
  `events` lists the events;
* `Allowance`: how many checkpoints may be passed, and `Traced.under`, which cuts a computation off
  at the first checkpoint beyond them.
-/

namespace GraphGames

/-- A step of a computation that can be seen from outside. -/
inductive Step
  | check
  | report (event : Event)
  deriving DecidableEq

/-- A result with the steps on the way to it. -/
structure Traced (α : Type) where
  value : α
  steps : List Step

namespace Traced

variable {α β : Type}

instance : Monad Traced where
  pure a := ⟨a, []⟩
  bind t f := ⟨(f t.value).value, t.steps ++ (f t.value).steps⟩

/-- Pass a checkpoint. -/
def check : Traced Unit := ⟨(), [.check]⟩

/-- Report an event. -/
def report (event : Event) : Traced Unit := ⟨(), [.report event]⟩

/-- The number of checkpoints on the way. -/
def checks (t : Traced α) : Nat := t.steps.count .check

/-- The events on the way, in order. -/
def events (t : Traced α) : List Event :=
  t.steps.filterMap fun
    | .check => none
    | .report event => some event

@[simp] theorem value_pure (a : α) : (pure a : Traced α).value = a := rfl

@[simp] theorem steps_pure (a : α) : (pure a : Traced α).steps = [] := rfl

@[simp] theorem value_bind (t : Traced α) (f : α → Traced β) :
    (t >>= f).value = (f t.value).value := rfl

@[simp] theorem steps_bind (t : Traced α) (f : α → Traced β) :
    (t >>= f).steps = t.steps ++ (f t.value).steps := rfl

@[simp] theorem steps_check : check.steps = [.check] := rfl

@[simp] theorem steps_report (event : Event) : (report event).steps = [.report event] := rfl

@[simp] theorem checks_pure (a : α) : (pure a : Traced α).checks = 0 := rfl

@[simp] theorem checks_bind (t : Traced α) (f : α → Traced β) :
    (t >>= f).checks = t.checks + (f t.value).checks :=
  List.count_append

@[simp] theorem checks_check : check.checks = 1 := rfl

@[simp] theorem checks_report (event : Event) : (report event).checks = 0 := rfl

@[simp] theorem events_pure (a : α) : (pure a : Traced α).events = [] := rfl

@[simp] theorem events_bind (t : Traced α) (f : α → Traced β) :
    (t >>= f).events = t.events ++ (f t.value).events :=
  List.filterMap_append

@[simp] theorem events_check : check.events = [] := rfl

@[simp] theorem events_report (event : Event) : (report event).events = [event] := rfl

end Traced

/-- How many checkpoints may be passed; `none` stands for no limit. -/
abbrev Allowance := Option Nat

/-- What is left of an allowance after `n` checkpoints. -/
def Allowance.spend (allowance : Allowance) (n : Nat) : Allowance := allowance.map (· - n)

/-- Whether `n` checkpoints may be passed. -/
def Allowance.covers (allowance : Allowance) (n : Nat) : Bool := allowance.all fun k => decide (n ≤ k)

/-- The steps before the checkpoint that follows the first `k` ones. -/
def stepsUpTo : Nat → List Step → List Step
  | _, [] => []
  | 0, .check :: _ => []
  | k + 1, .check :: rest => .check :: stepsUpTo k rest
  | k, .report event :: rest => .report event :: stepsUpTo k rest

/-- A computation under an allowance: all of it, or the steps before the first checkpoint that may
not be passed, without a result. -/
def Traced.under {α : Type} (allowance : Allowance) (t : Traced α) : Traced (Option α) :=
  match allowance with
  | none => ⟨some t.value, t.steps⟩
  | some k => if t.checks ≤ k then ⟨some t.value, t.steps⟩ else ⟨none, stepsUpTo k t.steps⟩

/-- A computation has its result iff it may pass all its checkpoints. -/
theorem Traced.value_under {α : Type} (allowance : Allowance) (t : Traced α) :
    (t.under allowance).value = if allowance.covers t.checks then some t.value else none := by
  cases allowance with
  | none => rfl
  | some k => by_cases h : t.checks ≤ k <;> simp [under, Allowance.covers, h]

/-- No more checkpoints are passed than allowed. -/
theorem count_stepsUpTo (k : Nat) (steps : List Step) :
    (stepsUpTo k steps).count .check = min k (steps.count .check) := by
  fun_induction stepsUpTo k steps with
  | case1 => simp
  | case2 => simp
  | case3 k rest ih => simp [ih]
  | case4 k event rest ih => simpa using ih

end GraphGames
