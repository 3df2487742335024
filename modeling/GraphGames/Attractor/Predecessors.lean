import GraphGames.Attractor.Problem

/-!
# Predecessors of a region

The vertices outside of a region that are attracted to it. They are searched backwards: for each
vertex of the region in ascending order, the sources of the moves to it are met in the order in which
the moves were added. A vertex of player one is attracted by any of its moves into the region. Whether
a vertex of player two is attracted depends on its other moves, so a search for these keeps in mind
what it has decided.

* `Problem.visitOne`: meeting a vertex in search of those of player one;
* `Problem.isForced`, `Search`, `Problem.visitTwo`: meeting a vertex in search of those of player two;
* `Problem.visitSources`, `Problem.sweep`: the attracted vertices of one player, with a checkpoint for
  each vertex of the region and an event for each attracted vertex;
* `Operator.predecessors`: the same for an operator. For both players there is one more checkpoint,
  between the two sweeps of the same region.
-/

namespace GraphGames

/-- What a search for vertices of player two has decided: those that are attracted, and those that are
not. -/
structure Search where
  found : VertexSet := ∅
  rejected : VertexSet := ∅

/-- Whether a search has decided about a vertex. -/
def Search.decided (search : Search) (v : VertexId) : Bool :=
  search.found.contains v || search.rejected.contains v

namespace Problem

/-- Meet the source `v` of a move to `target` in search of vertices of player one. -/
def visitOne (p : Problem) (region : VertexSet) (target : VertexId) (found : VertexSet)
    (v : VertexId) : Traced VertexSet :=
  if region.contains v || p.owner? v != some .one then pure found
  else if found.contains v then pure found
  else do
    Traced.report (.attracted .one target v)
    return found.insert v

/-- Whether every move from a vertex leads into the region, and there is one. -/
def isForced (p : Problem) (region : VertexSet) (v : VertexId) : Bool :=
  !(p.successors v).isEmpty && (p.successors v).all fun w => region.contains w

/-- Meet the source `v` of a move to `target` in search of vertices of player two. Its moves are looked
at unless the search has decided about it before. -/
def visitTwo (p : Problem) (region : VertexSet) (target : VertexId) (search : Search)
    (v : VertexId) : Traced Search :=
  if region.contains v || search.decided v || p.owner? v != some .two then pure search
  else if p.isForced region v then do
    Traced.report (.attracted .two target v)
    return { search with found := search.found.insert v }
  else return { search with rejected := search.rejected.insert v }

/-- Pass a checkpoint and meet the sources of all moves to `target`. -/
def visitSources {σ : Type} (p : Problem) (visit : VertexId → σ → VertexId → Traced σ) (state : σ)
    (target : VertexId) : Traced σ := do
  Traced.check
  (p.predecessors target).foldlM (visit target) state

/-- The vertices of `player` that are attracted to the region. -/
def sweep (p : Problem) (player : Player) (region : VertexSet) : Traced VertexSet :=
  match player with
  | .one => region.toList.foldlM (p.visitSources (p.visitOne region)) ∅
  | .two => do
    let search ← region.toList.foldlM (p.visitSources (p.visitTwo region)) {}
    return search.found

end Problem

/-- The vertices that an operator attracts to the region. -/
def Operator.predecessors (operator : Operator) (p : Problem) (region : VertexSet) :
    Traced VertexSet :=
  match operator with
  | .player owner => p.sweep owner region
  | .controllable => do
    let one ← p.sweep .one region
    Traced.check
    let two ← p.sweep .two region
    let found := one ∪ two
    Traced.report (.controllableFound found.extent)
    return found

end GraphGames
