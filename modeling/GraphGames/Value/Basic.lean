import GraphGames.Number.Binary64

/-!
# Property values

A property has one of five value types. A value is a datum of a type's carrier together with that
type, so a container that knows its type can keep bare data.

* `ValueType`, `ValueType.Carrier`, `ValueType.default`: the types, what they hold, and what an
  entity holds before a value is set;
* `Object`: a box that holds data of any kind, or nothing. Boxes are told apart by the stamp they
  were given when they were made, not by their content;
* `Value`, `Value.equals`: a typed datum, and the equality of data.
-/

namespace GraphGames

/-- The value type of a property. -/
inductive ValueType
  | bool
  | int
  | float
  | string
  | object
  deriving DecidableEq, Repr, Inhabited

/-- What a box holds: a scalar, or something that this library does not look into. -/
inductive Content
  | bool (b : Bool)
  | int (i : Int64)
  | float (x : Binary64)
  | string (s : String)
  | foreign
  deriving DecidableEq

/-- A box and the stamp it was given when it was made. No two boxes are made with one stamp. -/
structure Box where
  stamp : Nat
  content : Content
  deriving DecidableEq

/-- A box, or nothing. -/
abbrev Object := Option Box

namespace ValueType

/-- All value types. -/
def all : List ValueType := [.bool, .int, .float, .string, .object]

/-- The name by which a type is declared. -/
def name : ValueType → String
  | .bool => "bool"
  | .int => "int"
  | .float => "float"
  | .string => "string"
  | .object => "object"

instance : ToString ValueType := ⟨name⟩

/-- The type with a given name. -/
def ofName? (name : String) : Option ValueType := all.find? fun t => t.name == name

theorem ofName?_name (t : ValueType) : ofName? t.name = some t := by
  cases t <;> rfl

/-- The data of a type. -/
def Carrier : ValueType → Type
  | .bool => Bool
  | .int => Int64
  | .float => Binary64
  | .string => String
  | .object => Object

/-- The datum that stands where nothing was set: false, zero, the empty text, no box. -/
def default : (t : ValueType) → t.Carrier
  | .bool => false
  | .int => (0 : Int64)
  | .float => Binary64.zero
  | .string => ""
  | .object => none

end ValueType

/-- Two objects are equal when both are empty or both are the same box. -/
def Object.equals : Object → Object → Bool
  | none, none => true
  | some a, some b => a.stamp == b.stamp
  | _, _ => false

/-- A datum together with its type. -/
structure Value where
  type : ValueType
  datum : type.Carrier

namespace Value

/-- A truth value. -/
@[match_pattern] def bool (b : Bool) : Value := ⟨.bool, b⟩

/-- A signed 64-bit integer. -/
@[match_pattern] def int (i : Int64) : Value := ⟨.int, i⟩

/-- A floating point number. -/
@[match_pattern] def float (x : Binary64) : Value := ⟨.float, x⟩

/-- A text. -/
@[match_pattern] def string (s : String) : Value := ⟨.string, s⟩

/-- A box, or nothing. -/
@[match_pattern] def object (o : Object) : Value := ⟨.object, o⟩

/-- What an entity holds before a value of type `t` is set. -/
def default (t : ValueType) : Value := ⟨t, t.default⟩

@[simp] theorem type_default (t : ValueType) : (default t).type = t := rfl

/-- A value of a type is a datum of that type. -/
theorem exists_of_type {value : Value} {type : ValueType} (h : value.type = type) :
    ∃ datum, value = ⟨type, datum⟩ := by
  obtain ⟨found, datum⟩ := value
  obtain rfl : found = type := h
  exact ⟨datum, rfl⟩

/-- Equality of values: of one type, numbers as numbers, and boxes by their stamps. -/
def equals : Value → Value → Bool
  | bool a, bool b => a == b
  | int a, int b => a == b
  | float a, float b => a.equals b
  | string a, string b => a == b
  | object a, object b => Object.equals a b
  | _, _ => false

/-- The truth value held, if it is one. -/
def bool? : Value → Option Bool
  | bool b => some b
  | _ => none

/-- The integer held, if it is one. -/
def int? : Value → Option Int64
  | int i => some i
  | _ => none

/-- The floating point number held, if it is one. -/
def float? : Value → Option Binary64
  | float x => some x
  | _ => none

/-- The text held, if it is one. -/
def string? : Value → Option String
  | string s => some s
  | _ => none

/-- The object held, if it is one. -/
def object? : Value → Option Object
  | object o => some o
  | _ => none

end Value

end GraphGames
