/-!
# Players and kinds of game

* `Player`: the two players, and the integers that name them as owners of vertices;
* `GameKind`: whether the players move one at a time.
-/

namespace GraphGames

/-- A player of a two-player game. -/
inductive Player
  | one
  | two
  deriving DecidableEq, Repr

namespace Player

/-- The integer that names a player. -/
def turn : Player → Int64
  | one => 1
  | two => 2

/-- The player named by an integer. -/
def ofTurn? (turn : Int64) : Option Player :=
  if turn = 1 then some one else if turn = 2 then some two else none

/-- The name of a player. -/
def label : Player → String
  | one => "One"
  | two => "Two"

theorem ofTurn?_turn (p : Player) : ofTurn? p.turn = some p := by cases p <;> rfl

theorem ofTurn?_eq_some_iff {turn : Int64} {p : Player} : ofTurn? turn = some p ↔ turn = p.turn := by
  unfold ofTurn?
  cases p <;> simp only [Player.turn] <;> split <;> simp_all

theorem ofTurn?_eq_none_iff {turn : Int64} : ofTurn? turn = none ↔ turn ≠ 1 ∧ turn ≠ 2 := by
  unfold ofTurn?
  split <;> simp_all

end Player

/-- Whether the players move at once or one at a time. -/
inductive GameKind
  | concurrent
  | turnBased
  deriving DecidableEq, Repr

/-- A game is concurrent unless it is said to be turn-based. -/
instance : Inhabited GameKind := ⟨.concurrent⟩

/-- The name of a kind of game in messages. -/
def GameKind.text : GameKind → String
  | concurrent => "Concurrent"
  | turnBased => "Turn-based"

instance : ToString GameKind := ⟨GameKind.text⟩

end GraphGames
