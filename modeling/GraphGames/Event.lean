import GraphGames.Attractor.Operator
import GraphGames.Graph.Handle

/-!
# Events

What a game or a solver reports while it works, apart from its answers.

* `Extent`, `VertexSet.extent`: the size and the bounds of a region;
* `Event`: the events; `Event.level` says for whom one is meant, and `Event.message` words it.
-/

namespace GraphGames

/-- The number of members of a region, with the least and the greatest unless it is empty. -/
structure Extent where
  size : Nat
  bounds : Option (VertexId × VertexId)
  deriving DecidableEq

/-- The extent of a set of vertices. -/
def VertexSet.extent (region : VertexSet) : Extent :=
  { size := region.size
    bounds := do return (← region.min?, ← region.max?) }

/-- The wording of an extent. -/
def Extent.text (extent : Extent) : String :=
  match extent.bounds with
  | some (least, greatest) => s!"elements={extent.size}; range={least}..={greatest}"
  | none => "elements=0"

/-- For whom an event is meant, from the most pressing to the most detailed. -/
inductive Level
  | warn
  | info
  | debug
  | trace
  deriving DecidableEq, Repr

/-- The name of a level. -/
def Level.name : Level → String
  | warn => "WARN"
  | info => "INFO"
  | debug => "DEBUG"
  | trace => "TRACE"

/-- The place of a level in the order from pressing to detailed. -/
def Level.rank : Level → Nat
  | warn => 0
  | info => 1
  | debug => 2
  | trace => 3

/-- What is reported. -/
inductive Event
  /-- A game was bound to a graph with these numbers of vertices and edges. -/
  | gameDefined (kind : GameKind) (vertices edges : Nat)
  /-- A vertex of a player was attracted by a move to a vertex of the region. -/
  | attracted (player : Player) (target vertex : VertexId)
  /-- The operator for both players found a set of this extent. -/
  | controllableFound (found : Extent)
  /-- A round was refused because the bound on rounds is reached. -/
  | boundReached (iteration : UInt64) (operator : Operator)
  /-- A round found nothing new. -/
  | completed (iteration : UInt64) (operator : Operator) (region : Extent)
  /-- A round enlarged the region. -/
  | enlarged (iteration : UInt64) (operator : Operator) (region : Extent)
  /-- The region of player two was asked for. -/
  | secondRegionIgnored
  /-- The solver was run with no region asked for. -/
  | nothingToCompute
  /-- The solver starts with these final vertices. -/
  | solverStarted (finals : Extent)
  /-- The solver has found a region of this size in so many rounds. -/
  | solverFinished (iterations : UInt64) (winning : Nat)
  deriving DecidableEq

namespace Event

/-- For whom an event is meant. -/
def level : Event → Level
  | gameDefined .. => .debug
  | attracted .. => .trace
  | controllableFound .. => .trace
  | boundReached .. => .debug
  | completed .. => .debug
  | enlarged .. => .debug
  | secondRegionIgnored => .warn
  | nothingToCompute => .info
  | solverStarted .. => .info
  | solverFinished .. => .info

/-- The wording of an event. -/
def message : Event → String
  | gameDefined kind vertices edges =>
    s!"{kind} game defined on graph with {vertices} vertices and {edges} edges."
  | attracted .one target vertex => s!"Player 1 attracted to `{target}` from `{vertex}`."
  | attracted .two target vertex => s!"Player 2 forced into `{target}` from `{vertex}`."
  | controllableFound found => s!"Controllable predecessors computed ({found.text})."
  | boundReached iteration operator =>
    s!"[iteration:{iteration}] Union<{operator.label}> canceled (exceeded iteration count)."
  | completed iteration operator region =>
    s!"[iteration:{iteration}] Union<{operator.label}> finished with ({region.text})."
  | enlarged iteration operator region =>
    s!"[iteration:{iteration}] Union<{operator.label}> increased to ({region.text})."
  | secondRegionIgnored =>
    "Winning region of player 2 is not supported; the option is ignored."
  | nothingToCompute => "Attractor solver has nothing to compute."
  | solverStarted finals =>
    s!"Attractor solver started with {finals.size} final vertices ({finals.text})."
  | solverFinished iterations winning =>
    s!"Attractor solver finished after {iterations} iterations with {winning} winning vertices."

/-- An event as a line: its level and its wording. -/
def line (event : Event) : String := s!"{event.level.name} {event.message}"

end Event

end GraphGames
