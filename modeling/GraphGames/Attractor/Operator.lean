import GraphGames.Game.Player

/-!
# Predecessor operators

* `Operator`: which vertices are attracted to a region in one round: those of one player, or of
  both;
* `Operator.accepts`: the owners of attracted vertices.
-/

namespace GraphGames

/-- Which vertices outside of a region are attracted to it: those of one player, or of both. Player
one is attracted by one move into the region, player two by having no other moves. -/
inductive Operator
  | player (p : Player)
  | controllable
  deriving DecidableEq, Repr

namespace Operator

/-- The owners whose vertices are attracted. -/
def accepts : Operator → Player → Bool
  | player p, q => p == q
  | controllable, _ => true

/-- The name of an operator in messages. -/
def label : Operator → String
  | player .one => "Player1Predecessors"
  | player .two => "Player2Predecessors"
  | controllable => "ControllablePredecessors"

end Operator

end GraphGames
