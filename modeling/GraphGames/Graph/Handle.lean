import Std.Data.ExtTreeSet

/-!
# Handles of vertices and edges

A vertex or an edge is named by the position of the slot that holds it. Positions of different
kinds do not mix, so each kind has a type of its own, ordered by position.

* `VertexId`, `EdgeId`: the two kinds of handle, with `toString` as the text of a handle;
* `VertexSet`, `EdgeSet`: finite sets of handles; `toList` lists them in ascending order, and two
  sets with the same members are equal;
* `Edge`: an edge handle together with its endpoints.
-/

namespace GraphGames

/-- The handle of a vertex. -/
@[ext] structure VertexId where
  index : Nat
  deriving DecidableEq, Repr, Inhabited

/-- The handle of an edge; parallel edges have distinct handles. -/
@[ext] structure EdgeId where
  index : Nat
  deriving DecidableEq, Repr, Inhabited

namespace VertexId

instance : Ord VertexId := ⟨compareOn VertexId.index⟩

instance : Std.TransOrd VertexId :=
  inferInstanceAs (Std.TransCmp (compareOn VertexId.index))

instance : Std.LawfulEqOrd VertexId where
  eq_of_compare {v w} h := by
    cases v; cases w
    exact congrArg VertexId.mk (Nat.compare_eq_eq.mp h)

/-- A vertex is written as its position. -/
instance : ToString VertexId := ⟨fun v => toString v.index⟩

theorem compare_def (v w : VertexId) : compare v w = compare v.index w.index := rfl

end VertexId

namespace EdgeId

instance : Ord EdgeId := ⟨compareOn EdgeId.index⟩

instance : Std.TransOrd EdgeId :=
  inferInstanceAs (Std.TransCmp (compareOn EdgeId.index))

instance : Std.LawfulEqOrd EdgeId where
  eq_of_compare {e f} h := by
    cases e; cases f
    exact congrArg EdgeId.mk (Nat.compare_eq_eq.mp h)

/-- An edge is written as its position after the letter `e`. -/
instance : ToString EdgeId := ⟨fun e => s!"e{e.index}"⟩

theorem compare_def (e f : EdgeId) : compare e f = compare e.index f.index := rfl

end EdgeId

/-- A finite set of vertices. -/
abbrev VertexSet := Std.ExtTreeSet VertexId

/-- A finite set of edges. -/
abbrev EdgeSet := Std.ExtTreeSet EdgeId

/-- Two sets of vertices with the same members are equal. -/
theorem VertexSet.ext {s t : VertexSet} (h : ∀ v, v ∈ s ↔ v ∈ t) : s = t :=
  Std.ExtTreeSet.ext_mem h

/-- The members of a set of vertices are listed in ascending order. -/
theorem VertexSet.pairwise_toList (s : VertexSet) :
    s.toList.Pairwise fun v w => v.index < w.index :=
  (Std.ExtTreeSet.ordered_toList (t := s)).imp fun h => Nat.compare_eq_lt.mp h

/-- An edge with its endpoints. -/
structure Edge where
  id : EdgeId
  source : VertexId
  target : VertexId
  deriving DecidableEq, Repr

/-- An edge is described by its endpoints. -/
instance : ToString Edge := ⟨fun e => s!"Edge(source={e.source}, target={e.target})"⟩

end GraphGames
