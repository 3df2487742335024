/-!
# Binary floating point numbers as bit patterns

A 64-bit pattern stands for a number `± m * 2 ^ q`, an infinity, or no number. Everything here is
exact integer arithmetic on the fields of the pattern.

* `Binary64`: the pattern;
* `Binary64.Magnitude`, `Binary64.magnitude`: what the pattern denotes, up to sign;
* `Binary64.toInt?`: the integer that a pattern denotes, if it denotes one;
* `Binary64.ofInt64`: the number nearest to an integer, a tie going to the even significand;
* `Binary64.equals`: equality of numbers, for which no pattern without a number equals anything;
* `Binary64.atMost`, `Binary64.below`: their order.
-/

namespace GraphGames

/-- A double precision number, given by its bits: sign, eleven exponent bits, 52 fraction bits. -/
structure Binary64 where
  bits : UInt64
  deriving DecidableEq, Repr

namespace Binary64

/-- Positive zero. -/
def zero : Binary64 := ⟨0⟩

instance : Inhabited Binary64 := ⟨zero⟩

/-- Whether the sign bit is set. -/
def isNegative (x : Binary64) : Bool := decide (Nat.pow 2 63 ≤ x.bits.toNat)

/-- The exponent field. -/
def exponentField (x : Binary64) : Nat := x.bits.toNat / Nat.pow 2 52 % Nat.pow 2 11

/-- The fraction field. -/
def fractionField (x : Binary64) : Nat := x.bits.toNat % Nat.pow 2 52

/-- An absolute value: `significand * 2 ^ exponent`, infinite, or undefined. -/
inductive Magnitude
  | finite (significand : Nat) (exponent : Int)
  | infinite
  | undefined
  deriving DecidableEq, Repr

/-- The absolute value that a pattern denotes. Exponent field zero has no hidden leading bit, and
the largest exponent field is kept for infinities and for patterns without a number. -/
def magnitude (x : Binary64) : Magnitude :=
  if x.exponentField = 2047 then
    if x.fractionField = 0 then .infinite else .undefined
  else if x.exponentField = 0 then .finite x.fractionField (-1074)
  else .finite (Nat.pow 2 52 + x.fractionField) (x.exponentField - 1075)

/-- Whether the pattern denotes no number. -/
def isUndefined (x : Binary64) : Bool := x.magnitude == .undefined

/-- Whether the pattern denotes zero, of either sign. -/
def isZero (x : Binary64) : Bool := x.exponentField == 0 && x.fractionField == 0

/-- Equality of numbers: the two zeros are equal, and an undefined pattern equals nothing. -/
def equals (x y : Binary64) : Bool :=
  !x.isUndefined && !y.isUndefined && (x == y || (x.isZero && y.isZero))

/-- The place of a number among all numbers. Without the sign bit, patterns ascend with the absolute
values that they denote, and the two zeros share their place. -/
def rank (x : Binary64) : Int :=
  let place := x.bits.toNat % Nat.pow 2 63
  if x.isNegative then -(place : Int) else place

/-- Whether one number is at most another. An undefined pattern is not compared with anything. -/
def atMost (x y : Binary64) : Bool :=
  !x.isUndefined && !y.isUndefined && decide (x.rank ≤ y.rank)

/-- Whether one number is less than another. -/
def below (x y : Binary64) : Bool :=
  !x.isUndefined && !y.isUndefined && decide (x.rank < y.rank)

/-- The integer `m * 2 ^ q`, if that is an integer. -/
def Magnitude.toNat? : Magnitude → Option Nat
  | .finite m (.ofNat k) => some (m * Nat.pow 2 k)
  | .finite m (.negSucc k) =>
    if m % Nat.pow 2 (k + 1) = 0 then some (m / Nat.pow 2 (k + 1)) else none
  | .infinite => none
  | .undefined => none

/-- The integer that the pattern denotes, if it denotes one. -/
def toInt? (x : Binary64) : Option Int :=
  x.magnitude.toNat?.map fun n => if x.isNegative then -(n : Int) else n

/-- The quotient `n / 2 ^ k` rounded to the nearest integer, a tie going to the even one. -/
def roundShift (n k : Nat) : Nat :=
  let quotient := n / Nat.pow 2 k
  let twice := 2 * (n % Nat.pow 2 k)
  if twice < Nat.pow 2 k then quotient
  else if Nat.pow 2 k < twice then quotient + 1
  else quotient + quotient % 2

/-- The bits of the number nearest to `n`. A significand rounded up to `2 ^ 53` carries into the
exponent field, which is what the sum needs. -/
def natBits (n : Nat) : Nat :=
  if n = 0 then 0
  else
    let top := n.log2
    let significand :=
      if top ≤ 52 then n * Nat.pow 2 (52 - top) else roundShift n (top - 52)
    (top + 1022) * Nat.pow 2 52 + significand

/-- The number nearest to `i`, a tie going to the even significand. -/
def ofInt64 (i : Int64) : Binary64 :=
  let sign := if i.toInt < 0 then Nat.pow 2 63 else 0
  ⟨UInt64.ofNat (sign + natBits i.toInt.natAbs)⟩

example : (ofInt64 1).bits = 0x3ff0000000000000 := by decide
example : (ofInt64 (-3)).bits = 0xc008000000000000 := by decide
example : (ofInt64 9007199254740993).bits = 0x4340000000000000 := by decide
example : (ofInt64 Int64.maxValue).bits = 0x43e0000000000000 := by decide
example : (ofInt64 Int64.minValue).bits = 0xc3e0000000000000 := by decide
example : toInt? ⟨0xc3e0000000000000⟩ = some (-9223372036854775808) := by decide
example : toInt? ⟨0x3ff8000000000000⟩ = none := by decide
example : toInt? ⟨0x8000000000000000⟩ = some 0 := by decide +kernel

end Binary64

end GraphGames
