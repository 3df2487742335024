import Mathlib.Data.List.Forall2
import Mathlib.Tactic.Common

/-!
# Success of computations that may fail

A computation made of parts succeeds iff its parts do, each with an answer that the next part goes
on with.

* `bind_eq_ok_iff`, `bind_eq_error_iff`: one computation after the other;
* `mapM_eq_ok_iff`, `forM_eq_ok_iff`: one computation for each member of a list;
* `mapM_eq_error`, `forM_eq_error`, `exists_of_mapM_eq_error`: the first member for which the computation
  fails, and that there is one;
* `exists_ok_of_isSome`, `exists_ok_of_map`: success seen from outside.
-/

namespace GraphGames

variable {ε α β : Type}

/-- One computation after the other succeeds iff both do. -/
theorem bind_eq_ok_iff {t : Except ε α} {f : α → Except ε β} {b : β} :
    t >>= f = .ok b ↔ ∃ a, t = .ok a ∧ f a = .ok b := by
  cases t with
  | error e =>
    constructor
    · intro h
      cases h
    · rintro ⟨a, h, -⟩
      cases h
  | ok a =>
    constructor
    · intro h
      exact ⟨a, rfl, h⟩
    · rintro ⟨a', ha, h⟩
      obtain rfl := Except.ok.inj ha
      exact h

/-- One computation after the other fails iff the first does, or the second after it. -/
theorem bind_eq_error_iff {t : Except ε α} {f : α → Except ε β} {e : ε} :
    t >>= f = .error e ↔ t = .error e ∨ ∃ a, t = .ok a ∧ f a = .error e := by
  cases t with
  | error e' =>
    constructor
    · intro h
      exact .inl (congrArg Except.error (Except.error.inj h))
    · rintro (h | ⟨a, h, -⟩)
      · exact congrArg Except.error (Except.error.inj h)
      · cases h
  | ok a =>
    constructor
    · intro h
      exact .inr ⟨a, rfl, h⟩
    · rintro (h | ⟨a', ha, h⟩)
      · cases h
      · obtain rfl := Except.ok.inj ha
        exact h

/-- A list is mapped without failure iff every member is. -/
theorem mapM_eq_ok_iff {f : α → Except ε β} {xs : List α} {ys : List β} :
    xs.mapM f = .ok ys ↔ List.Forall₂ (fun x y => f x = .ok y) xs ys := by
  induction xs generalizing ys with
  | nil =>
    rw [List.mapM_nil, List.forall₂_nil_left_iff]
    exact ⟨fun h => (Except.ok.inj h).symm, fun h => h ▸ rfl⟩
  | cons x xs ih =>
    rw [List.mapM_cons, List.forall₂_cons_left_iff, bind_eq_ok_iff]
    constructor
    · rintro ⟨y, hx, h⟩
      obtain ⟨rest, hrest, h⟩ := bind_eq_ok_iff.mp h
      exact ⟨y, rest, hx, ih.mp hrest, (Except.ok.inj h).symm⟩
    · rintro ⟨y, rest, hx, hrest, rfl⟩
      exact ⟨y, hx, bind_eq_ok_iff.mpr ⟨rest, ih.mpr hrest, rfl⟩⟩

/-- A list is mapped without failure if something can be answered for every member. -/
theorem exists_mapM {f : α → Except ε β} {xs : List α} (h : ∀ x ∈ xs, ∃ y, f x = .ok y) :
    ∃ ys, xs.mapM f = .ok ys := by
  induction xs with
  | nil => exact ⟨[], rfl⟩
  | cons x xs ih =>
    obtain ⟨⟨y, hx⟩, hxs⟩ := List.forall_mem_cons.mp h
    obtain ⟨ys, hys⟩ := ih hxs
    exact ⟨y :: ys, mapM_eq_ok_iff.mpr (.cons hx (mapM_eq_ok_iff.mp hys))⟩

/-- A list is gone through without failure iff nothing fails for a member. -/
theorem forM_eq_ok_iff {f : α → Except ε Unit} {xs : List α} :
    xs.forM f = .ok () ↔ ∀ x ∈ xs, f x = .ok () := by
  induction xs with
  | nil => exact ⟨fun _ => by simp, fun _ => rfl⟩
  | cons x xs ih =>
    rw [List.forall_mem_cons, ← ih]
    show (f x >>= fun _ => xs.forM f) = .ok () ↔ _
    rw [bind_eq_ok_iff]
    exact ⟨fun ⟨_, h⟩ => h, fun h => ⟨(), h⟩⟩

/-- A list is mapped up to the first member for which that fails. -/
theorem mapM_eq_error {f : α → Except ε β} {before after : List α} {x : α} {e : ε}
    (hbefore : ∀ y ∈ before, ∃ b, f y = .ok b) (hx : f x = .error e) :
    (before ++ x :: after).mapM f = .error e := by
  induction before with
  | nil =>
    rw [List.nil_append, List.mapM_cons, hx]
    rfl
  | cons y before ih =>
    obtain ⟨⟨b, hy⟩, hrest⟩ := List.forall_mem_cons.mp hbefore
    rw [List.cons_append, List.mapM_cons, hy, ih hrest]
    rfl

/-- Mapping a list fails as it does for a member. -/
theorem exists_of_mapM_eq_error {f : α → Except ε β} {xs : List α} {e : ε}
    (h : xs.mapM f = .error e) : ∃ x ∈ xs, f x = .error e := by
  induction xs with
  | nil => cases h
  | cons x xs ih =>
    rw [List.mapM_cons] at h
    rcases bind_eq_error_iff.mp h with hx | ⟨y, -, h⟩
    · exact ⟨x, List.mem_cons_self, hx⟩
    rcases bind_eq_error_iff.mp h with hxs | ⟨ys, -, h⟩
    · obtain ⟨x', hmem, hx'⟩ := ih hxs
      exact ⟨x', List.mem_cons_of_mem x hmem, hx'⟩
    · cases h

/-- A list is gone through up to the first member for which something fails. -/
theorem forM_eq_error {f : α → Except ε Unit} {before after : List α} {x : α} {e : ε}
    (hbefore : ∀ y ∈ before, f y = .ok ()) (hx : f x = .error e) :
    (before ++ x :: after).forM f = .error e := by
  induction before with
  | nil =>
    show (f x >>= fun _ => after.forM f) = .error e
    rw [hx]
    rfl
  | cons y before ih =>
    obtain ⟨hy, hrest⟩ := List.forall_mem_cons.mp hbefore
    show (f y >>= fun _ => (before ++ x :: after).forM f) = .error e
    rw [hy]
    exact ih hrest

/-- A computation that has an answer succeeds. -/
theorem exists_ok_of_isSome {t : Except ε α} (h : t.toOption.isSome) : ∃ a, t = .ok a := by
  cases t with
  | error e => cases h
  | ok a => exact ⟨a, rfl⟩

/-- What is told of an answer is told of one. -/
theorem exists_ok_of_map {t : Except ε α} {f : α → β} {b : β} (h : t.toOption.map f = some b) :
    ∃ a, t = .ok a ∧ f a = b := by
  cases t with
  | error e => cases h
  | ok a => exact ⟨a, rfl, Option.some.inj h⟩

end GraphGames
