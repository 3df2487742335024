import GraphGames.Proofs.Rational
import GraphGames.Value.Coercion

/-!
# Coercion is exact

A floating point number becomes an integer if it denotes one that has 64 bits, and then it becomes that
integer. The greatest integer is no floating point number, so the bound that is compared with is the one
after it, and has to be excluded.

* `Binary64.rational?_minValue`, `Binary64.rational?_maxValue`: the bounds that are compared with;
* `Binary64.toInt64?_of_rational?`, `Binary64.toInt64?_eq_some_iff`: what becomes of an integer, and that
  nothing else becomes one;
* `Value.type_of_coerceTo`, `Value.coerceTo_self`: the type of a value that was coerced, and that it is
  not changed when it is coerced to its own type;
* `Value.coerce_exact`: all of it.
-/

namespace GraphGames

namespace Binary64

variable {x : Binary64} {i : Int64} {n : ℤ}

/-- The least integer is not rounded. -/
theorem rational?_minValue :
    (ofInt64 Int64.minValue).rational? = some ((-2 ^ 63 : ℤ) : ℚ) :=
  toInt?_eq_some_iff.mp (by decide)

/-- The greatest integer is rounded up. -/
theorem rational?_maxValue :
    (ofInt64 Int64.maxValue).rational? = some ((2 ^ 63 : ℤ) : ℚ) :=
  toInt?_eq_some_iff.mp (by decide)

/-- The bounds let an integer pass iff it has 64 bits. -/
theorem toInt64?_of_rational? (h : x.rational? = some (n : ℚ)) :
    x.toInt64? = if -2 ^ 63 ≤ n ∧ n < 2 ^ 63 then some (Int64.ofInt n) else none := by
  have hbounds : ((ofInt64 Int64.minValue).atMost x && x.below (ofInt64 Int64.maxValue)) = true ↔
      -2 ^ 63 ≤ n ∧ n < 2 ^ 63 := by
    rw [Bool.and_eq_true, atMost_iff rational?_minValue h, below_iff h rational?_maxValue, Int.cast_le,
      Int.cast_lt]
  unfold toInt64?
  rw [toInt?_eq_some_iff.mpr h, Option.bind_eq_bind, Option.bind_some]
  simp only [hbounds]

/-- Nothing else passes. -/
theorem toInt64?_of_forall_ne (h : ∀ n : ℤ, x.rational? ≠ some (n : ℚ)) : x.toInt64? = none := by
  have hnone : x.toInt? = none := by
    rw [Option.eq_none_iff_forall_ne_some]
    intro n hn
    exact h n (toInt?_eq_some_iff.mp hn)
  unfold toInt64?
  rw [hnone]
  rfl

theorem toInt64?_eq_some_iff : x.toInt64? = some i ↔ x.rational? = some (i.toInt : ℚ) := by
  constructor
  · intro h
    by_cases hinteger : ∃ n : ℤ, x.rational? = some (n : ℚ)
    · obtain ⟨n, hn⟩ := hinteger
      rw [toInt64?_of_rational? hn, Option.ite_none_right_eq_some] at h
      obtain ⟨⟨hlow, hhigh⟩, hi⟩ := h
      rw [← Option.some.inj hi, Int64.toInt_ofInt_of_le hlow hhigh]
      exact hn
    · rw [toInt64?_of_forall_ne fun n hn => hinteger ⟨n, hn⟩] at h
      cases h
  · intro h
    rw [toInt64?_of_rational? h, if_pos ⟨i.le_toInt, i.toInt_lt⟩, Int64.ofInt_toInt]

/-- The number after the greatest integer is rejected, the one before is not. -/
example : (⟨0x43e0000000000000⟩ : Binary64).toInt64? = none ∧
    (⟨0x43dfffffffffffff⟩ : Binary64).toInt64? = some 9223372036854774784 := by
  decide +kernel

end Binary64

namespace Value

variable {fresh : ℕ} {x : Binary64} {i : Int64} {value result : Value} {target found : ValueType}

/-- A number becomes an integer as its pattern does. -/
theorem coerce_float_int (fresh : ℕ) (x : Binary64) : (float x).coerce fresh .int =
    match x.toInt64? with
    | some i => .ok i
    | none => .error .float := rfl

theorem coerce_float_int_eq_ok_iff :
    (float x).coerce fresh .int = .ok i ↔ x.rational? = some (i.toInt : ℚ) := by
  rw [← Binary64.toInt64?_eq_some_iff, coerce_float_int]
  cases x.toInt64? with
  | none =>
    constructor
    · intro h
      cases h
    · intro h
      cases h
  | some j =>
    constructor
    · intro h
      exact congrArg some (Except.ok.inj h)
    · intro h
      exact congrArg Except.ok (Option.some.inj h)

/-- A number that does not become an integer is rejected. -/
theorem coerce_float_int_eq_error (h : ∀ i : Int64, x.rational? ≠ some (i.toInt : ℚ)) :
    (float x).coerce fresh .int = .error .float := by
  cases hcoerce : (float x).coerce fresh .int with
  | error found => rw [type_of_coerce_eq_error hcoerce]; rfl
  | ok i => exact absurd (coerce_float_int_eq_ok_iff.mp hcoerce) (h i)

/-- What a value is coerced to has the target type. -/
theorem type_of_coerceTo (h : value.coerceTo fresh target = .ok result) : result.type = target := by
  cases hcoerce : value.coerce fresh target with
  | error found =>
    rw [coerceTo_of_coerce_error hcoerce] at h
    cases h
  | ok datum =>
    rw [coerceTo_of_coerce hcoerce] at h
    rw [← Except.ok.inj h]

/-- A value is not changed when it is coerced to its own type: a box stays the same box. -/
theorem coerceTo_self (fresh : ℕ) (value : Value) : value.coerceTo fresh value.type = .ok value :=
  coerceTo_of_coerce (coerce_self fresh value)

theorem eq_type_of_coerceTo (h : value.coerceTo fresh target = .error found) : found = value.type := by
  cases hcoerce : value.coerce fresh target with
  | error found' =>
    rw [coerceTo_of_coerce_error hcoerce] at h
    rw [← Except.error.inj h]
    exact type_of_coerce_eq_error hcoerce
  | ok datum =>
    rw [coerceTo_of_coerce hcoerce] at h
    cases h

/-- **Coercion is exact.** A floating point number becomes an integer iff it denotes one that has 64
bits, and becomes just that integer; every other is rejected as a floating point number. An integer
that is at most `2 ^ 53`, on either side of zero, comes back from its floating point number. Whatever is
coerced then has the type that was asked for, and is not changed by being coerced to it again, later on;
whatever is rejected is rejected with its own type. -/
theorem coerce_exact (fresh : ℕ) :
    (∀ (x : Binary64) (i : Int64),
      (float x).coerce fresh .int = .ok i ↔ x.rational? = some (i.toInt : ℚ)) ∧
    (∀ x : Binary64, (∃ i : Int64, (float x).coerce fresh .int = .ok i) ↔
      ∃ n : ℤ, x.rational? = some (n : ℚ) ∧ -2 ^ 63 ≤ n ∧ n < 2 ^ 63) ∧
    (∀ x : Binary64, (¬ ∃ n : ℤ, x.rational? = some (n : ℚ) ∧ -2 ^ 63 ≤ n ∧ n < 2 ^ 63) →
      (float x).coerce fresh .int = .error .float) ∧
    (∀ i : Int64, |i.toInt| ≤ 2 ^ 53 → ∃ x : Binary64,
      (int i).coerce fresh .float = .ok x ∧ (float x).coerce fresh .int = .ok i) ∧
    ∀ (value : Value) (target : ValueType),
      (∀ result, value.coerceTo fresh target = .ok result →
        result.type = target ∧ ∀ later, result.coerceTo later target = .ok result) ∧
      ∀ found, value.coerceTo fresh target = .error found → found = value.type := by
  refine ⟨fun x i => coerce_float_int_eq_ok_iff, ?_, ?_, ?_, fun value target => ⟨?_, ?_⟩⟩
  · intro x
    constructor
    · rintro ⟨i, hi⟩
      exact ⟨i.toInt, coerce_float_int_eq_ok_iff.mp hi, i.le_toInt, i.toInt_lt⟩
    · rintro ⟨n, hn, hlow, hhigh⟩
      refine ⟨Int64.ofInt n, coerce_float_int_eq_ok_iff.mpr ?_⟩
      rw [Int64.toInt_ofInt_of_le hlow hhigh]
      exact hn
  · intro x hnone
    refine coerce_float_int_eq_error fun i hi => hnone ⟨i.toInt, hi, i.le_toInt, i.toInt_lt⟩
  · intro i hi
    have habs : i.toInt.natAbs ≤ 2 ^ 53 := by
      rw [Int.abs_eq_natAbs] at hi
      exact_mod_cast hi
    exact ⟨_, rfl, coerce_float_int_eq_ok_iff.mpr (Binary64.rational?_ofInt64 habs)⟩
  · intro result hresult
    obtain rfl := type_of_coerceTo hresult
    exact ⟨rfl, fun later => coerceTo_self later result⟩
  · intro found hfound
    exact eq_type_of_coerceTo hfound

end Value

end GraphGames
