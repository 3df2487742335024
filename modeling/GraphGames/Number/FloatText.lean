import GraphGames.Number.Shortest

/-!
# The text of a floating point number

A number is written with the digits of its shortest decimal, either with a decimal point among
zeros or as a significand with a power of ten.

* `FloatStyle`: which powers of ten are written out, and how an integral value ends;
* `FloatStyle.plain`, `FloatStyle.marked`: the two styles in use;
* `Binary64.text`: the text of a number in a style.
-/

namespace GraphGames

/-- How a number is written. The leading digit of a number stands for a multiple of `10 ^ k`;
`positional k` says whether the number is then written without an exponent, and `marksIntegral`
whether an integral value without an exponent ends in `.0`. -/
structure FloatStyle where
  positional : Int → Bool
  marksIntegral : Bool

namespace FloatStyle

/-- Never an exponent, and no mark on integral values. -/
def plain : FloatStyle := ⟨fun _ => true, false⟩

/-- Exponents below `10 ^ -4` and from `10 ^ 16` on, and a mark on integral values. -/
def marked : FloatStyle := ⟨fun k => decide (-4 ≤ k ∧ k < 16), true⟩

end FloatStyle

namespace Decimal

/-- The power of ten of the leading digit. -/
def leading (d : Decimal) : Int := (Nat.toDigits 10 d.digits).length + d.exponent - 1

/-- The digits with a decimal point. -/
def positionalText (d : Decimal) (marksIntegral : Bool) : String :=
  let digits := Nat.toDigits 10 d.digits
  let point := digits.length + d.exponent
  if 0 ≤ d.exponent then
    String.ofList (digits ++ List.replicate d.exponent.toNat '0') ++
      if marksIntegral then ".0" else ""
  else if 0 < point then
    String.ofList (digits.take point.toNat ++ '.' :: digits.drop point.toNat)
  else
    String.ofList ('0' :: '.' :: List.replicate (-point).toNat '0' ++ digits)

/-- The first digit, a point before further digits, and the power of ten. -/
def exponentText (d : Decimal) : String :=
  let significand := match Nat.toDigits 10 d.digits with
    | first :: second :: rest => first :: '.' :: second :: rest
    | digits => digits
  s!"{String.ofList significand}e{d.leading}"

/-- The text of a decimal in a style. -/
def text (style : FloatStyle) (d : Decimal) : String :=
  if style.positional d.leading then d.positionalText style.marksIntegral else d.exponentText

end Decimal

namespace Binary64

/-- The shortest decimal of a finite absolute value; zero is no exponent's leading digit and is
written as itself. -/
def shortestDecimal (significand : Nat) (exponent : Int) : Decimal :=
  if significand = 0 then ⟨0, 0⟩ else (RoundingInterval.around significand exponent).shortest

/-- The text of a number. Undefined patterns have no sign. -/
def text (style : FloatStyle) (x : Binary64) : String :=
  let sign := if x.isNegative then "-" else ""
  match x.magnitude with
  | .undefined => "NaN"
  | .infinite => sign ++ "inf"
  | .finite m q => sign ++ (shortestDecimal m q).text style

example : text .plain ⟨0x3ff8000000000000⟩ = "1.5" := by decide +kernel
example : text .plain ⟨0x8000000000000000⟩ = "-0" := by decide +kernel
example : text .marked ⟨0x8000000000000000⟩ = "-0.0" := by decide +kernel
example : text .marked ⟨0x4341c37937e08000⟩ = "1e16" := by decide +kernel
example : text .plain ⟨0x4341c37937e08000⟩ = "10000000000000000" := by decide +kernel
example : text .marked ⟨0x3ee4f8b588e368f1⟩ = "1e-5" := by decide +kernel
example : text .plain ⟨0x3ee4f8b588e368f1⟩ = "0.00001" := by decide +kernel

end Binary64

end GraphGames
