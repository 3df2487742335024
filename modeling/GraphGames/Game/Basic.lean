import GraphGames.Graph.Access
import GraphGames.Traced

/-!
# Games on graphs

A game is played on a graph that declares which vertices are final, which player moves at a vertex
(in turn-based games), and the action of a move.

* `isFinalProperty`, `turnProperty`, `actProperty`: the names under which a graph declares them;
* `GameKind.requirements`, `GameKind.validate`: what a kind of game asks of its graph;
* `Game`: a kind, and the graph once it is known; `Game.define`, `Game.graph`.
-/

namespace GraphGames

/-- The vertex property that marks final vertices. -/
def isFinalProperty : String := "is_final"

/-- The vertex property that names the player who moves. -/
def turnProperty : String := "turn"

/-- The edge property that names the action of a move. -/
def actProperty : String := "act"

/-- The properties that a graph has to declare, in the order in which they are looked at. -/
def GameKind.requirements (kind : GameKind) : List Requirement :=
  let both : List Requirement :=
    [⟨isFinalProperty, .vertex, .bool⟩, ⟨actProperty, .edge, .int⟩]
  match kind with
  | .concurrent => both
  | .turnBased => ⟨turnProperty, .vertex, .int⟩ :: both

/-- Fails on a graph that does not declare a property as required. -/
def Requirement.validate (r : Requirement) (g : Graph) : Except Error Unit :=
  match g.properties.column? r.scope r.name with
  | none => .error (.invalidGame r.name (.undeclared r.scope r.type))
  | some column =>
    if column.type = r.type then .ok ()
    else .error (.invalidGame r.name (.declaredAs r.scope r.type column.type))

/-- Fails on a graph that is not the graph of a game of this kind, for the first requirement that is
not met. -/
def GameKind.validate (kind : GameKind) (g : Graph) : Except Error Unit :=
  kind.requirements.forM fun r => r.validate g

/-- A game, with its graph once that is known. -/
structure Game where
  kind : GameKind
  graph? : Option Graph := none

namespace Game

/-- A concurrent game without a graph. -/
instance : Inhabited Game := ⟨{ kind := default }⟩

/-- Whether the graph is known. -/
def isDefined (game : Game) : Bool := game.graph?.isSome

/-- The graph of a game. -/
def graph (game : Game) : Except Error Graph :=
  match game.graph? with
  | some g => .ok g
  | none => .error (.notReady .gameGraph)

/-- Give a game its graph, which has to declare what this kind of game asks for. -/
def define (game : Game) (g : Graph) : Traced (Except Error Game) :=
  match game.kind.validate g with
  | .error e => pure (.error e)
  | .ok () => do
    Traced.report (.gameDefined game.kind g.numVertices g.numEdges)
    return .ok { game with graph? := some g }

end Game

end GraphGames
