import GraphGames.Value.Basic
import GraphGames.Number.FloatText
import GraphGames.Text.Quoted

/-!
# The text of a value

* `Value.text`: a value as it is shown to a reader;
* `Value.description`: a value with the name of its type, for messages about the value itself;
* `ValueType.label`, `Object.description`: the names used there.
-/

namespace GraphGames

/-- The name of a type in the description of a value. -/
def ValueType.label : ValueType → String
  | .bool => "Bool"
  | .int => "Int"
  | .float => "Float"
  | .string => "String"
  | .object => "Opaque"

/-- What is shown of a box: whether there is one. -/
def Object.description : Object → String
  | none => "Opaque(None)"
  | some _ => "Opaque(..)"

namespace Value

/-- The text of a value: strings are quoted, and the content of a box is not shown. -/
def text : Value → String
  | bool b => if b then "true" else "false"
  | int i => toString i.toInt
  | float x => x.text .plain
  | string s => Text.quoted s
  | object none => "none"
  | object (some _) => "<object>"

/-- The text of a value together with the name of its type. -/
def description (value : Value) : String :=
  let datum := match value with
    | float x => x.text .marked
    | object o => Object.description o
    | other => other.text
  s!"{value.type.label}({datum})"

end Value

end GraphGames
