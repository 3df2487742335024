import GraphGames.Graph.Subject
import GraphGames.Value.Text

/-!
# Errors

Each way in which an operation on graphs, games and solvers can fail, with what it failed on.

* `Cause`: what cancelled a computation;
* `Requirement`, `Flaw`: what a game expects of its graph, and how a graph falls short of it;
* `Error`, `Error.message`: the errors and their wording.
-/

namespace GraphGames

/-- What cancelled a computation. -/
inductive Cause
  | iterationBound
  | trigger
  deriving DecidableEq, Repr

/-- The wording of a cancellation. -/
def Cause.message (cause : Cause) : String :=
  let name := match cause with
    | .iterationBound => "AttractorConfig::max_iterations"
    | .trigger => "CancelAfterChecks"
  s!"Operation cancelled (caused by `{name}`)"

/-- A property that the graph of a game has to declare. -/
structure Requirement where
  name : String
  scope : Scope
  type : ValueType
  deriving DecidableEq, Repr

/-- How a graph fails to be the graph of a game. -/
inductive Flaw
  | undeclared (scope : Scope) (expected : ValueType)
  | declaredAs (scope : Scope) (expected found : ValueType)
  | unreadable
  | badTurn (vertex : VertexId) (value : Value)

/-- The wording of a flaw. -/
def Flaw.message : Flaw → String
  | undeclared scope expected => s!"missing {scope} property of type {expected}"
  | declaredAs scope expected found =>
    s!"expected a {scope} property of type {expected}, found {found}"
  | unreadable => "vertex property has the wrong type"
  | badTurn vertex value => s!"vertex {vertex} has value {value.description}, expected 1 or 2"

/-- What is asked for before it exists. -/
inductive Pending
  | gameGraph
  | winningRegion
  deriving DecidableEq, Repr

/-- What is never provided. -/
inductive Unsupported
  | simultaneousMoves
  | secondRegion
  deriving DecidableEq, Repr

/-- The ways in which an operation can fail. -/
inductive Error
  | noVertices (count : Nat)
  | nameTaken (name : String) (existing : Scope)
  | unknownType (name : String)
  | unknownProperty (name : String) (scope : Scope)
  | typeMismatch (name : String) (expected found : ValueType)
  | vertexNotFound (vertex : VertexId)
  | edgeNotFound (edge : EdgeId)
  | invalidGame (property : String) (flaw : Flaw)
  | invalidTurn (vertex : VertexId) (value : Int64)
  | notReady (what : Pending)
  | unsupported (what : Unsupported)
  | cancelled (cause : Cause)

/-- The wording of an error. -/
def Error.message : Error → String
  | noVertices count => s!"Vertex count must be positive, got {count}"
  | nameTaken name existing => s!"Property `{name}` is already declared (as a {existing} property)"
  | unknownType name =>
    s!"Invalid property type `{name}` (expected one of bool, int, float, string, object)"
  | unknownProperty name scope => s!"Unknown {scope} property `{name}`"
  | typeMismatch name expected found =>
    s!"Property `{name}` has type {expected}, cannot store a {found} value"
  | vertexNotFound vertex => s!"Vertex {vertex} is not in the graph"
  | edgeNotFound edge => s!"Edge {edge} is not in the graph"
  | invalidGame property flaw =>
    s!"Game validation failed on property `{property}`: {flaw.message}"
  | invalidTurn vertex value => s!"Vertex {vertex} has turn value {value} (expected 1 or 2)"
  | notReady .gameGraph => "Not ready: game graph is not defined"
  | notReady .winningRegion => "Not ready: winning region of player 1 is not computed"
  | unsupported .simultaneousMoves =>
    "Unsupported: only turn-based games can be solved by the attractor solver"
  | unsupported .secondRegion => "Unsupported: winning region of player 2"
  | cancelled cause => s!"Computation cancelled: {cause.message}"

/-- The value type with a given name. -/
def ValueType.ofName (name : String) : Except Error ValueType :=
  match ofName? name with
  | some type => .ok type
  | none => .error (.unknownType name)

end GraphGames
