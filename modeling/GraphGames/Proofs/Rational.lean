import Mathlib
import GraphGames.Number.Binary64

/-!
# The rational numbers behind floating point patterns

A pattern with a number denotes a rational number. Without the sign bit, the patterns with a number are
the places `0`, `1`, `2` and so on, and what they denote grows with the place. So patterns are compared
by comparing places, on both sides of zero, and the comparison is that of the rational numbers.

* `Binary64.rational?`: the rational number that a pattern denotes;
* `Binary64.toInt?_eq_some_iff`: the integers among these are found;
* `Binary64.units`, `Binary64.scale`: the number at a place, in units of the least positive one, and
  that it grows with the place;
* `Binary64.rational?_eq_some_iff`: what is denoted, by the rank of the pattern;
* `Binary64.atMost_iff`, `Binary64.below_iff`: patterns are ordered as what they denote;
* `Binary64.rational?_ofInt64`: integers up to `2 ^ 53` are not rounded.
-/

namespace GraphGames

namespace Binary64

variable {x y : Binary64}

/-- The rational number that an absolute value denotes, unless it is infinite or undefined. -/
def Magnitude.rational? : Magnitude → Option ℚ
  | .finite m q => some (m * 2 ^ q)
  | .infinite => none
  | .undefined => none

/-- The rational number that a pattern denotes, if it denotes one. -/
def rational? (x : Binary64) : Option ℚ :=
  x.magnitude.rational?.map fun r => if x.isNegative then -r else r

/-! ### Integers -/

/-- An absolute value is an integer if its rational number is. -/
theorem Magnitude.toNat?_eq_some_iff {magnitude : Magnitude} {n : ℕ} :
    magnitude.toNat? = some n ↔ magnitude.rational? = some (n : ℚ) := by
  match magnitude with
  | .infinite => simp [toNat?, rational?]
  | .undefined => simp [toNat?, rational?]
  | .finite m (.ofNat k) =>
    have hvalue : (m : ℚ) * 2 ^ (Int.ofNat k) = ((m * 2 ^ k : ℕ) : ℚ) := by
      rw [Int.ofNat_eq_natCast, zpow_natCast]
      push_cast
      rfl
    rw [toNat?, rational?, hvalue, Option.some_inj, Option.some_inj, Nat.cast_inj]
    rfl
  | .finite m (.negSucc k) =>
    have hpos : (0 : ℚ) < 2 ^ (k + 1) := by positivity
    have hvalue : (m : ℚ) * 2 ^ (Int.negSucc k) = m / 2 ^ (k + 1) := by
      rw [zpow_negSucc, div_eq_mul_inv]
    rw [toNat?, rational?, hvalue, Option.some_inj, div_eq_iff hpos.ne']
    show (if m % 2 ^ (k + 1) = 0 then some (m / 2 ^ (k + 1)) else none) = some n ↔ _
    rw [Option.ite_none_right_eq_some, Option.some_inj]
    constructor
    · rintro ⟨hmod, rfl⟩
      have hdiv := Nat.div_add_mod' m (2 ^ (k + 1))
      rw [hmod, Nat.add_zero] at hdiv
      exact_mod_cast hdiv.symm
    · intro heq
      obtain rfl : m = n * 2 ^ (k + 1) := by exact_mod_cast heq
      exact ⟨Nat.mul_mod_left n _, Nat.mul_div_cancel n (by positivity)⟩

theorem Magnitude.rational?_nonneg {magnitude : Magnitude} {r : ℚ} (h : magnitude.rational? = some r) :
    0 ≤ r := by
  match magnitude with
  | .finite m q =>
    obtain rfl := Option.some.inj h
    positivity

theorem toInt?_eq (x : Binary64) :
    x.toInt? = x.magnitude.toNat?.map fun n : ℕ => if x.isNegative then -(n : ℤ) else n := by
  unfold toInt?
  cases x.magnitude.toNat? <;> rfl

/-- A pattern denotes an integer if its rational number is one. -/
theorem toInt?_eq_some_iff {n : ℤ} : x.toInt? = some n ↔ x.rational? = some (n : ℚ) := by
  rw [toInt?_eq, rational?, Option.map_eq_some_iff, Option.map_eq_some_iff]
  constructor
  · rintro ⟨k, hk, rfl⟩
    refine ⟨k, Magnitude.toNat?_eq_some_iff.mp hk, ?_⟩
    split <;> simp
  · rintro ⟨r, hr, heq⟩
    have hnonneg := Magnitude.rational?_nonneg hr
    -- the absolute value of the integer is what the magnitude denotes
    have habs : r = (n.natAbs : ℚ) := by
      rw [Nat.cast_natAbs, Int.cast_abs, ← heq]
      split
      · rw [abs_neg, abs_of_nonneg hnonneg]
      · rw [abs_of_nonneg hnonneg]
    refine ⟨n.natAbs, Magnitude.toNat?_eq_some_iff.mpr (habs ▸ hr), ?_⟩
    by_cases hnegative : x.isNegative
    · rw [if_pos hnegative] at heq ⊢
      have hle : n ≤ 0 := by exact_mod_cast heq ▸ neg_nonpos.mpr hnonneg
      omega
    · rw [if_neg hnegative] at heq ⊢
      have hge : 0 ≤ n := by exact_mod_cast heq ▸ hnonneg
      omega

/-! ### Places -/

/-- The pattern without its sign bit. -/
def place (x : Binary64) : ℕ := x.bits.toNat % 2 ^ 63

theorem isNegative_iff : x.isNegative ↔ 2 ^ 63 ≤ x.bits.toNat := decide_eq_true_iff

theorem exponentField_eq (x : Binary64) : x.exponentField = x.place / 2 ^ 52 := by
  show x.bits.toNat / 2 ^ 52 % 2048 = x.bits.toNat % 2 ^ 63 / 2 ^ 52
  omega

theorem fractionField_eq (x : Binary64) : x.fractionField = x.place % 2 ^ 52 := by
  show x.bits.toNat % 2 ^ 52 = x.bits.toNat % 2 ^ 63 % 2 ^ 52
  omega

theorem rank_eq (x : Binary64) : x.rank = if x.isNegative then -(x.place : ℤ) else x.place := rfl

/-- The absolute value at a place, in units of the least positive one. -/
def units (place : ℕ) : ℕ :=
  if place / 2 ^ 52 = 0 then place else (2 ^ 52 + place % 2 ^ 52) * 2 ^ (place / 2 ^ 52 - 1)

/-- Below the least exponent there is no hidden bit. -/
theorem units_of_lt {place : ℕ} (h : place < 2 ^ 52) : units place = place :=
  if_pos (Nat.div_eq_of_lt h)

/-- A place by its exponent and its fraction. -/
theorem units_mul_add {exponent fraction : ℕ} (h : fraction < 2 ^ 52) :
    units ((exponent + 1) * 2 ^ 52 + fraction) = (2 ^ 52 + fraction) * 2 ^ exponent := by
  have hdiv : ((exponent + 1) * 2 ^ 52 + fraction) / 2 ^ 52 = exponent + 1 := by omega
  have hmod : ((exponent + 1) * 2 ^ 52 + fraction) % 2 ^ 52 = fraction := by omega
  unfold units
  rw [hdiv, hmod, if_neg (Nat.succ_ne_zero exponent), Nat.add_sub_cancel]

/-- The next place has a greater absolute value, also where the exponent changes. -/
theorem units_lt_succ (place : ℕ) : units place < units (place + 1) := by
  obtain ⟨exponent, fraction, hfraction, rfl⟩ : ∃ exponent fraction,
      fraction < 2 ^ 52 ∧ place = exponent * 2 ^ 52 + fraction :=
    ⟨place / 2 ^ 52, place % 2 ^ 52, Nat.mod_lt _ (by decide), by omega⟩
  by_cases hlast : fraction + 1 < 2 ^ 52
  · cases exponent with
    | zero =>
      rw [Nat.zero_mul, Nat.zero_add, units_of_lt hfraction, units_of_lt hlast]
      exact Nat.lt_succ_self fraction
    | succ exponent =>
      rw [Nat.add_assoc, units_mul_add hfraction, units_mul_add hlast]
      exact Nat.mul_lt_mul_of_pos_right (by omega) (by positivity)
  · -- the fraction starts again at zero, and the exponent is one more
    have hnext : exponent * 2 ^ 52 + fraction + 1 = (exponent + 1) * 2 ^ 52 + 0 := by omega
    rw [hnext, units_mul_add (by decide)]
    cases exponent with
    | zero =>
      rw [Nat.zero_mul, Nat.zero_add, units_of_lt hfraction, pow_zero]
      omega
    | succ exponent =>
      have hpos : 0 < 2 ^ exponent := by positivity
      rw [units_mul_add hfraction, pow_succ 2 exponent]
      generalize 2 ^ exponent = power at hpos
      have hlt : (2 ^ 52 + fraction) * power < 2 ^ 53 * power :=
        Nat.mul_lt_mul_of_pos_right (by omega) hpos
      omega

/-- The number of a rank, in the same units. -/
def scale : ℤ → ℤ
  | .ofNat place => units place
  | .negSucc place => -units (place + 1)

theorem scale_natCast (place : ℕ) : scale place = units place := rfl

theorem scale_neg_natCast (place : ℕ) : scale (-(place : ℤ)) = -units place := by
  cases place with
  | zero => rfl
  | succ place => rfl

/-- What is denoted grows with the rank, on both sides of zero. -/
theorem scale_strictMono : StrictMono scale := by
  apply strictMono_int_of_lt_succ
  intro rank
  match rank with
  | .ofNat place =>
    show (units place : ℤ) < units (place + 1)
    exact_mod_cast units_lt_succ place
  | .negSucc 0 =>
    have hlt : units 0 < units 1 := units_lt_succ 0
    show -(units 1 : ℤ) < units 0
    omega
  | .negSucc (place + 1) =>
    have hlt : units (place + 1) < units (place + 2) := units_lt_succ (place + 1)
    show -(units (place + 2) : ℤ) < -units (place + 1)
    omega

/-! ### What is denoted -/

theorem units_place_of_exponentField (h : x.exponentField = 0) : units x.place = x.fractionField := by
  rw [exponentField_eq] at h
  rw [fractionField_eq, units_of_lt (by omega)]
  omega

theorem units_place_of_ne (h : x.exponentField ≠ 0) :
    units x.place = (2 ^ 52 + x.fractionField) * 2 ^ (x.exponentField - 1) := by
  rw [exponentField_eq] at h ⊢
  rw [fractionField_eq, units, if_neg h]

/-- The greatest exponent is not that of a number. -/
theorem rational?_magnitude_of_eq (h : x.exponentField = 2047) : x.magnitude.rational? = none := by
  unfold magnitude
  rw [if_pos h]
  by_cases hfraction : x.fractionField = 0
  · rw [if_pos hfraction]
    rfl
  · rw [if_neg hfraction]
    rfl

/-- The absolute value of a pattern with a number, by its place. -/
theorem rational?_magnitude (h : x.exponentField ≠ 2047) :
    x.magnitude.rational? = some ((units x.place : ℚ) * 2 ^ (-1074 : ℤ)) := by
  unfold magnitude
  rw [if_neg h]
  by_cases hzero : x.exponentField = 0
  · rw [if_pos hzero, Magnitude.rational?, units_place_of_exponentField hzero]
  · obtain ⟨exponent, hexponent⟩ := Nat.exists_eq_succ_of_ne_zero hzero
    have hvalue : (2 : ℚ) ^ ((x.exponentField : ℤ) - 1075) = 2 ^ exponent * 2 ^ (-1074 : ℤ) := by
      rw [hexponent, ← zpow_natCast, ← zpow_add₀ two_ne_zero]
      congr 1
      push_cast
      omega
    rw [if_neg hzero]
    show some (((2 ^ 52 + x.fractionField : ℕ) : ℚ) * 2 ^ ((x.exponentField : ℤ) - 1075)) = _
    rw [hvalue, units_place_of_ne hzero, hexponent, Nat.succ_sub_one, Nat.cast_mul, Nat.cast_pow,
      Nat.cast_two, mul_assoc]

/-- A pattern has a number unless its exponent is the greatest, and the number is that of its rank. -/
theorem rational?_eq (x : Binary64) : x.rational? =
    if x.exponentField = 2047 then none else some ((scale x.rank : ℚ) * 2 ^ (-1074 : ℤ)) := by
  unfold rational?
  by_cases h : x.exponentField = 2047
  · rw [if_pos h, rational?_magnitude_of_eq h, Option.map_none]
  · rw [if_neg h, rational?_magnitude h, Option.map_some, rank_eq]
    by_cases hnegative : x.isNegative
    · rw [if_pos hnegative, if_pos hnegative, scale_neg_natCast, Int.cast_neg, Int.cast_natCast, neg_mul]
    · rw [if_neg hnegative, if_neg hnegative, scale_natCast, Int.cast_natCast]

theorem rational?_eq_some_iff {r : ℚ} : x.rational? = some r ↔
    x.exponentField ≠ 2047 ∧ r = (scale x.rank : ℚ) * 2 ^ (-1074 : ℤ) := by
  rw [rational?_eq, Option.ite_none_left_eq_some, Option.some_inj, @eq_comm _ r]

/-- A pattern with a number is not undefined. -/
theorem isUndefined_of_rational? {r : ℚ} (h : x.rational? = some r) : x.isUndefined = false := by
  have hexponent := (rational?_eq_some_iff.mp h).1
  unfold isUndefined magnitude
  rw [if_neg hexponent]
  split <;> rfl

section Order

variable {a b : ℚ} (hx : x.rational? = some a) (hy : y.rational? = some b)
include hx hy

/-- Ranks are ordered as the numbers that are denoted. -/
theorem rank_le_iff : x.rank ≤ y.rank ↔ a ≤ b := by
  obtain ⟨-, rfl⟩ := rational?_eq_some_iff.mp hx
  obtain ⟨-, rfl⟩ := rational?_eq_some_iff.mp hy
  have hunit : (0 : ℚ) < 2 ^ (-1074 : ℤ) := by positivity
  rw [mul_le_mul_iff_left₀ hunit, Int.cast_le, scale_strictMono.le_iff_le]

theorem rank_lt_iff : x.rank < y.rank ↔ a < b := by
  rw [← not_le, rank_le_iff hy hx, not_le]

/-- Patterns are ordered as the numbers that they denote. -/
theorem atMost_iff : x.atMost y ↔ a ≤ b := by
  unfold atMost
  rw [isUndefined_of_rational? hx, isUndefined_of_rational? hy, ← rank_le_iff hx hy]
  exact decide_eq_true_iff

theorem below_iff : x.below y ↔ a < b := by
  unfold below
  rw [isUndefined_of_rational? hx, isUndefined_of_rational? hy, ← rank_lt_iff hx hy]
  exact decide_eq_true_iff

end Order

/-! ### Integers that are not rounded -/

/-- The bits of a positive number of at most 53 bits: the leading bit is hidden in the exponent. -/
theorem natBits_of_lt {n : ℕ} (hpos : n ≠ 0) (h : n < 2 ^ 53) :
    n.log2 ≤ 52 ∧ ∃ fraction < 2 ^ 52, natBits n = (n.log2 + 1023) * 2 ^ 52 + fraction ∧
      2 ^ 52 + fraction = n * 2 ^ (52 - n.log2) := by
  have htop : n.log2 ≤ 52 := by
    have hlt := (Nat.log2_lt hpos).mpr h
    omega
  have hsum : n.log2 + (52 - n.log2) = 52 := by omega
  have hlow : 2 ^ 52 ≤ n * 2 ^ (52 - n.log2) := calc
    2 ^ 52 = 2 ^ n.log2 * 2 ^ (52 - n.log2) := by rw [← pow_add, hsum]
    _ ≤ n * 2 ^ (52 - n.log2) := Nat.mul_le_mul_right _ (Nat.log2_self_le hpos)
  have hhigh : n * 2 ^ (52 - n.log2) < 2 ^ 53 := calc
    n * 2 ^ (52 - n.log2) < 2 ^ (n.log2 + 1) * 2 ^ (52 - n.log2) :=
      Nat.mul_lt_mul_of_pos_right Nat.lt_log2_self (by positivity)
    _ = 2 ^ 53 := by rw [← pow_add, Nat.add_right_comm, hsum]
  refine ⟨htop, n * 2 ^ (52 - n.log2) - 2 ^ 52, ?_, ?_, ?_⟩
  · omega
  · unfold natBits
    rw [if_neg hpos]
    show (n.log2 + 1022) * 2 ^ 52 +
      (if n.log2 ≤ 52 then n * 2 ^ (52 - n.log2) else roundShift n (n.log2 - 52)) = _
    rw [if_pos htop]
    omega
  · omega

/-- The bits of a number of at most 53 bits, and of the next one, are the place where it stands. -/
theorem units_natBits {n : ℕ} (h : n ≤ 2 ^ 53) :
    natBits n < 2047 * 2 ^ 52 ∧ units (natBits n) = n * 2 ^ 1074 := by
  rcases Nat.eq_zero_or_pos n with rfl | hpos
  · exact ⟨by decide, (Nat.zero_mul _).symm⟩
  rcases Nat.lt_or_eq_of_le h with hlt | rfl
  · obtain ⟨htop, fraction, hfraction, hbits, hsignificand⟩ := natBits_of_lt hpos.ne' hlt
    have hsum : 52 - n.log2 + (n.log2 + 1022) = 1074 := by omega
    have hpower : 2 ^ (52 - n.log2) * 2 ^ (n.log2 + 1022) = 2 ^ 1074 := by rw [← pow_add, hsum]
    rw [hbits]
    refine ⟨by omega, ?_⟩
    rw [units_mul_add hfraction, hsignificand, Nat.mul_assoc, hpower]
  · have hbits : natBits (2 ^ 53) = (1075 + 1) * 2 ^ 52 + 0 := by decide
    rw [hbits]
    refine ⟨by decide, ?_⟩
    rw [units_mul_add (by decide), pow_succ' 2 1074]
    generalize 2 ^ 1074 = power
    omega

section OfInt64

variable {i : Int64}

/-- The sign bit does not touch the others. -/
theorem toNat_bits_ofInt64 (h : natBits i.toInt.natAbs < 2 ^ 63) :
    (ofInt64 i).bits.toNat = (if i.toInt < 0 then 2 ^ 63 else 0) + natBits i.toInt.natAbs := by
  have hlt : (if i.toInt < 0 then 2 ^ 63 else 0) + natBits i.toInt.natAbs < 2 ^ 64 := by
    split <;> omega
  exact (UInt64.toNat_ofNat' ..).trans (Nat.mod_eq_of_lt hlt)

theorem place_ofInt64 (h : natBits i.toInt.natAbs < 2 ^ 63) :
    (ofInt64 i).place = natBits i.toInt.natAbs := by
  unfold place
  rw [toNat_bits_ofInt64 h]
  split <;> omega

theorem isNegative_ofInt64 (h : natBits i.toInt.natAbs < 2 ^ 63) :
    (ofInt64 i).isNegative ↔ i.toInt < 0 := by
  rw [isNegative_iff, toNat_bits_ofInt64 h]
  split <;> omega

/-- An integer of at most 53 bits, or the next one on either side, stands at its own place. -/
theorem scale_rank_ofInt64 (h : i.toInt.natAbs ≤ 2 ^ 53) :
    (ofInt64 i).exponentField ≠ 2047 ∧ scale (ofInt64 i).rank = i.toInt * 2 ^ 1074 := by
  obtain ⟨hbits, hunits⟩ := units_natBits h
  have hplace : natBits i.toInt.natAbs < 2 ^ 63 := by omega
  constructor
  · rw [exponentField_eq, place_ofInt64 hplace]
    omega
  · rw [rank_eq, place_ofInt64 hplace]
    by_cases hneg : i.toInt < 0
    · have habs : (i.toInt.natAbs : ℤ) = -i.toInt := by omega
      rw [if_pos ((isNegative_ofInt64 hplace).mpr hneg), scale_neg_natCast, hunits, Nat.cast_mul, habs,
        neg_mul, neg_neg, Nat.cast_pow, Nat.cast_two]
    · have habs : (i.toInt.natAbs : ℤ) = i.toInt := by omega
      rw [if_neg (mt (isNegative_ofInt64 hplace).mp hneg), scale_natCast, hunits, Nat.cast_mul, habs,
        Nat.cast_pow, Nat.cast_two]

/-- Such an integer is not rounded. -/
theorem rational?_ofInt64 (h : i.toInt.natAbs ≤ 2 ^ 53) :
    (ofInt64 i).rational? = some (i.toInt : ℚ) := by
  obtain ⟨hexponent, hscale⟩ := scale_rank_ofInt64 h
  have hunit : (2 : ℚ) ^ 1074 * 2 ^ (-1074 : ℤ) = 1 := by
    rw [zpow_neg]
    exact mul_inv_cancel₀ (by positivity)
  refine rational?_eq_some_iff.mpr ⟨hexponent, ?_⟩
  rw [hscale, Int.cast_mul, Int.cast_pow, Int.cast_ofNat, mul_assoc, hunit, mul_one]

end OfInt64

end Binary64

end GraphGames
