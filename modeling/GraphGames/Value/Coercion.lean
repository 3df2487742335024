import GraphGames.Value.Basic

/-!
# Coercion

A value that is stored under a declared type is first turned into a datum of that type. Truth
values become integers, integers and integral floating point numbers become each other, and
everything goes into a box; nothing else changes its type.

* `Value.coerce`: the datum of the target type, or the type of the value that was rejected;
* `Value.coerceTo`: the same with the datum as a value.

Putting a scalar into a box makes a new box, so the caller names the stamp that a new box gets.
-/

namespace GraphGames

/-- The 64-bit integer that a floating point number without a fractional part denotes. The bounds are
compared as floating point numbers: the least integer is one of them, but the greatest is not, and is
rounded up to the number after it. -/
def Binary64.toInt64? (x : Binary64) : Option Int64 := do
  let n ← x.toInt?
  if (ofInt64 Int64.minValue).atMost x && x.below (ofInt64 Int64.maxValue) then some (Int64.ofInt n)
  else none

namespace Value

/-- The datum of type `target` that `value` stands for, or the type of `value`. A box that has to be
made gets the stamp `fresh`. -/
def coerce (fresh : Nat) : (value : Value) → (target : ValueType) →
    Except ValueType target.Carrier
  | bool b, .bool => .ok b
  | int i, .int => .ok i
  | float x, .float => .ok x
  | string s, .string => .ok s
  | object o, .object => .ok o
  | bool b, .int => .ok (if b then (1 : Int64) else (0 : Int64))
  | int i, .float => .ok (Binary64.ofInt64 i)
  | float x, .int =>
    match x.toInt64? with
    | some i => .ok i
    | none => .error .float
  | bool b, .object => .ok (some ⟨fresh, .bool b⟩)
  | int i, .object => .ok (some ⟨fresh, .int i⟩)
  | float x, .object => .ok (some ⟨fresh, .float x⟩)
  | string s, .object => .ok (some ⟨fresh, .string s⟩)
  | value, _ => .error value.type

/-- The value of type `target` that `value` stands for, or the type of `value`. -/
def coerceTo (fresh : Nat) (value : Value) (target : ValueType) : Except ValueType Value :=
  (value.coerce fresh target).map fun datum => ⟨target, datum⟩

@[simp] theorem coerce_self (fresh : Nat) (value : Value) :
    value.coerce fresh value.type = .ok value.datum := by
  obtain ⟨type, datum⟩ := value
  cases type <;> rfl

/-- A rejected value is reported with its own type. -/
theorem type_of_coerce_eq_error {fresh : Nat} {value : Value} {target found : ValueType}
    (h : value.coerce fresh target = .error found) : found = value.type := by
  obtain ⟨type, datum⟩ := value
  cases type <;> cases target <;> simp only [coerce] at h <;> try cases h <;> rfl
  split at h <;> simp_all

section CoerceTo

variable {fresh : Nat} {value : Value} {target found : ValueType}

theorem coerceTo_of_coerce {datum : target.Carrier} (h : value.coerce fresh target = .ok datum) :
    value.coerceTo fresh target = .ok ⟨target, datum⟩ := by
  unfold coerceTo
  rw [h]
  rfl

theorem coerceTo_of_coerce_error (h : value.coerce fresh target = .error found) :
    value.coerceTo fresh target = .error found := by
  unfold coerceTo
  rw [h]
  rfl

end CoerceTo

end Value

end GraphGames
