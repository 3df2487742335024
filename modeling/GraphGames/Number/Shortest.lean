import GraphGames.Number.Binary64

/-!
# The shortest decimal that reads back

Among the decimals that round to a given binary number, the shortest ones have the fewest digits,
and of those the nearest to the number is taken; a tie between two goes to the larger.

* `Decimal`: `digits * 10 ^ exponent`;
* `RoundingInterval`: the numbers that round to a given `m * 2 ^ q`, over a common denominator;
* `RoundingInterval.shortest`: the shortest decimal in the interval. On the grid of numbers with
  `n` digits only the two neighbours of the number itself have to be looked at, and seventeen
  digits always suffice.
-/

namespace GraphGames

/-- The number `digits * 10 ^ exponent`. -/
structure Decimal where
  digits : Nat
  exponent : Int
  deriving DecidableEq, Repr

/-- The number `middle / denominator` with the bounds between which numbers round to it. The bounds
themselves belong to the interval iff `closed`. -/
structure RoundingInterval where
  low : Nat
  middle : Nat
  high : Nat
  denominator : Nat
  closed : Bool

namespace RoundingInterval

/-- The interval around `m * 2 ^ q`. The number below the least significand of an exponent is only
half as far away as the one above. -/
def around (m : Nat) (q : Int) : RoundingInterval :=
  let below := if m = Nat.pow 2 52 ∧ -1074 < q then 1 else 2
  let scale := Nat.pow 2 (q - 2).toNat
  { low := (4 * m - below) * scale
    middle := 4 * m * scale
    high := (4 * m + 2) * scale
    denominator := Nat.pow 2 (2 - q).toNat
    closed := m % 2 == 0 }

/-- The number of decimal digits of `n`. -/
def digitCount (n : Nat) : Nat := (Nat.toDigits 10 n).length

/-- The least `k` such that the middle is below `10 ^ k`. -/
def magnitude (r : RoundingInterval) : Int :=
  if r.denominator ≤ r.middle then digitCount (r.middle / r.denominator)
  else 1 - (digitCount (r.denominator / r.middle) : Int)

/-- Whether `d * 10 ^ e` lies in the interval. -/
def contains (r : RoundingInterval) (d : Nat) (e : Int) : Bool :=
  let point := d * Nat.pow 10 e.toNat * r.denominator
  let low := r.low * Nat.pow 10 (-e).toNat
  let high := r.high * Nat.pow 10 (-e).toNat
  if r.closed then decide (low ≤ point ∧ point ≤ high) else decide (low < point ∧ point < high)

/-- The multiple of `10 ^ e` in the interval that is nearest to the middle, if there is one. -/
def nearest? (r : RoundingInterval) (e : Int) : Option Decimal :=
  let unit := Nat.pow 10 e.toNat * r.denominator
  let middle := r.middle * Nat.pow 10 (-e).toNat
  let d := middle / unit
  let rest := middle % unit
  match r.contains d e, r.contains (d + 1) e with
  | true, true => if 2 * rest < unit then some ⟨d, e⟩ else some ⟨d + 1, e⟩
  | true, false => some ⟨d, e⟩
  | false, true => some ⟨d + 1, e⟩
  | false, false => none

/-- The shortest decimal in the interval. The search goes from coarse grids to fine ones, so what it
finds has no trailing zero; the coarsest grid holds the power of ten above the middle. -/
def shortest (r : RoundingInterval) : Decimal :=
  ((List.range 18).findSome? fun n : Nat => r.nearest? (r.magnitude - n)).getD ⟨0, 0⟩

example : (around 4503599627370496 (-52)).shortest = ⟨1, 0⟩ := by decide +kernel
example : (around 7205759403792794 (-56)).shortest = ⟨1, -1⟩ := by decide +kernel
example : (around 7555786372591432 (-76)).shortest = ⟨1, -7⟩ := by decide +kernel
example : (around 1 (-1074)).shortest = ⟨5, -324⟩ := by decide +kernel

end RoundingInterval

end GraphGames
