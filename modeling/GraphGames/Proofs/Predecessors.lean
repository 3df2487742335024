import GraphGames.Proofs.Closure

/-!
# What an operator finds, vertex by vertex

An operator searches backwards: it follows the moves into a region, meets a vertex once for each of
them, and passes over those of player two that it has decided about. What it finds can be told forwards,
for each vertex on its own, by the moves from that vertex.

* `Problem.mem_player_one_iff`, `Problem.mem_player_two_iff`: what the operators for one player find;
* `Problem.controllable_eq_union`: the operator for both players finds what the two find;
* `Problem.Foretold`, `Graph.Reachable.foretold`: what is said of the operators, and that it holds.
-/

namespace GraphGames

namespace Problem

variable {p : Problem} {es : List Edge} {operator : Operator} {region : VertexSet} {v : VertexId}

/-- A region draws player one by one successor in it. -/
theorem draws_one_iff (hlists : p.graph.Lists es) :
    p.arena.Draws .one {w | w ∈ region} v ↔ ∃ w ∈ p.successors v, w ∈ region := by
  simp only [mem_successors hlists]
  constructor
  · rintro ⟨w, hw, hmove⟩
    exact ⟨w, hmove, hw⟩
  · rintro ⟨w, hmove, hw⟩
    exact ⟨w, hw, hmove⟩

/-- A region draws player two by having all successors in it, of which there is one at least. -/
theorem draws_two_iff (hlists : p.graph.Lists es) :
    p.arena.Draws .two {w | w ∈ region} v ↔
      (∃ w, w ∈ p.successors v) ∧ ∀ w ∈ p.successors v, w ∈ region := by
  simp only [mem_successors hlists]
  rfl

/-- The operator for player one finds the vertices of theirs with a move into the region. -/
theorem mem_player_one_iff (hlists : p.graph.Lists es) :
    v ∈ ((Operator.player .one).predecessors p region).value ↔
      v ∉ region ∧ p.owner? v = some .one ∧ ∃ w ∈ p.successors v, w ∈ region := by
  rw [← draws_one_iff hlists]
  exact mem_sweep_iff hlists

/-- The operator for player two finds the vertices of theirs that have moves, all into the region. -/
theorem mem_player_two_iff (hlists : p.graph.Lists es) :
    v ∈ ((Operator.player .two).predecessors p region).value ↔
      v ∉ region ∧ p.owner? v = some .two ∧
        (∃ w, w ∈ p.successors v) ∧ ∀ w ∈ p.successors v, w ∈ region := by
  rw [← draws_two_iff hlists]
  exact mem_sweep_iff hlists

/-- The operator for both players sweeps the same region twice, and finds what both sweeps find. -/
theorem controllable_eq_union (p : Problem) (region : VertexSet) :
    (Operator.controllable.predecessors p region).value =
      ((Operator.player .one).predecessors p region).value ∪
        ((Operator.player .two).predecessors p region).value := by
  apply VertexSet.ext
  intro v
  rw [Operator.mem_controllable, Std.ExtTreeSet.mem_union_iff]
  rfl

/-- A vertex has one owner, so no vertex is found for both players. -/
theorem not_mem_player_two (hlists : p.graph.Lists es)
    (h : v ∈ ((Operator.player .one).predecessors p region).value) :
    v ∉ ((Operator.player .two).predecessors p region).value := by
  intro htwo
  obtain ⟨-, hone, -⟩ := (mem_player_one_iff hlists).mp h
  obtain ⟨-, htwo, -⟩ := (mem_player_two_iff hlists).mp htwo
  rw [hone] at htwo
  cases htwo

/-- What the operators find around a region, told by the moves from each vertex. -/
structure Foretold (p : Problem) (region : VertexSet) : Prop where
  /-- As long as its checkpoints may be passed, an operator has a result. -/
  answers : ∀ (operator : Operator) (allowance : Allowance),
    allowance.covers (operator.predecessors p region).checks →
    ((operator.predecessors p region).under allowance).value =
      some (operator.predecessors p region).value
  /-- Wherever a search for player two has come, what it has decided is right. -/
  decisions : ∀ targets : List VertexId,
    (targets.foldlM (p.visitSources (p.visitTwo region)) {}).value.Sound p region
  /-- Each vertex that it has met so far is passed over from then on. -/
  once : ∀ targets : List VertexId, ∀ target ∈ targets, ∀ v ∈ p.predecessors target,
    (targets.foldlM (p.visitSources (p.visitTwo region)) {}).value.Passes p region v
  /-- What is kept in mind changes nothing: a sweep does, step by step, what it would do if it decided
  about a vertex every time it is met. -/
  afresh : ∀ player, p.sweep player region =
    region.toList.foldlM (p.visitSources (p.visitAfresh player region)) ∅
  /-- The successors of a vertex are the targets of the edges from it. -/
  successors : ∀ v w, w ∈ p.successors v ↔ ∃ e ∈ p.graph.edges, e.source = v ∧ e.target = w
  /-- For player one: the vertices of theirs outside that have a successor in the region. -/
  one : ∀ v, v ∈ ((Operator.player .one).predecessors p region).value ↔
    v ∉ region ∧ p.owner? v = some .one ∧ ∃ w ∈ p.successors v, w ∈ region
  /-- For player two: the vertices of theirs outside that have successors, all in the region. -/
  two : ∀ v, v ∈ ((Operator.player .two).predecessors p region).value ↔
    v ∉ region ∧ p.owner? v = some .two ∧
      (∃ w, w ∈ p.successors v) ∧ ∀ w ∈ p.successors v, w ∈ region
  /-- For both players: what is found for one of them around the same region. -/
  union : (Operator.controllable.predecessors p region).value =
    ((Operator.player .one).predecessors p region).value ∪
      ((Operator.player .two).predecessors p region).value
  disjoint : ∀ v ∈ ((Operator.player .one).predecessors p region).value,
    v ∉ ((Operator.player .two).predecessors p region).value
  /-- Whatever is found is a vertex of the graph outside the region. -/
  outside : ∀ (operator : Operator), ∀ v ∈ (operator.predecessors p region).value,
    p.graph.containsVertex v ∧ v ∉ region
  /-- Nothing is found iff the region is closed. -/
  closed : ∀ operator : Operator, (operator.predecessors p region).value.isEmpty ↔
    p.arena.Closed operator {v | v ∈ region}

end Problem

/-- **Operators find what the moves from each vertex tell**, whatever the owners and the region are. -/
theorem Graph.Reachable.foretold {p : Problem} (h : p.graph.Reachable) (region : VertexSet) :
    p.Foretold region := by
  obtain ⟨es, hlists⟩ := h.lists
  constructor
  · intro operator allowance hcovers
    rw [Traced.value_under, if_pos hcovers]
  · exact p.sound_targets region
  · exact fun targets target htarget v hv => Problem.passes_targets {} htarget hv
  · exact fun player => p.sweep_eq player region
  · exact fun v w => Problem.mem_successors hlists
  · exact fun v => Problem.mem_player_one_iff hlists
  · exact fun v => Problem.mem_player_two_iff hlists
  · exact p.controllable_eq_union region
  · exact fun v => Problem.not_mem_player_two hlists
  · intro operator v hv
    obtain ⟨hcontains, hout, -⟩ :=
      Problem.mem_candidates.mp (Problem.mem_candidates_of_mem_predecessors hlists hv)
    exact ⟨hcontains, hout⟩
  · exact fun operator => Problem.isEmpty_predecessors_iff hlists

/-- The two parallel edges from `1` count once, the loop at `3` is no way out for player one, and the
handle `7`, which no vertex has, attracts nothing. -/
theorem Graph.relay_foretold :
    Problem.reassigned.Foretold (.ofList [VertexId.mk 2, VertexId.mk 7]) ∧
      (Operator.controllable.predecessors Problem.reassigned
        (.ofList [VertexId.mk 2, VertexId.mk 7])).value.toList = [⟨1⟩, ⟨3⟩] := by
  have hreachable : Problem.reassigned.graph.Reachable := by
    dsimp only [Problem.reassigned]
    exact reachable_relay
  refine ⟨Reachable.foretold hreachable _, ?_⟩
  decide +kernel

end GraphGames
