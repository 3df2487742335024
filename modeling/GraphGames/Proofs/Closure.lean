import GraphGames.Proofs.Attraction
import GraphGames.Proofs.Layers

/-!
# A computation ends with the least closed set

The owners and the region to start with need not be those that a graph declares. Whatever they are,
a computation that answers ends with the least set that holds the region it started with and is
closed under its operator, and it does answer once it has a round for each vertex that may join.

* `Problem.isLeast_win`: the region at the end;
* `Problem.candidates`, `Problem.exists_answer`: the vertices that may join, and a computation that
  has a round for each of them;
* `Problem.Attractor`, `Graph.Reachable.attractor`: what is said of the region at the end, and that
  it holds.
-/

namespace GraphGames

/-- Something is in a set that is not empty. -/
theorem VertexSet.exists_mem {region : VertexSet} (h : ¬ region.isEmpty) : ∃ v, v ∈ region := by
  by_contra hnone
  push Not at hnone
  exact h (Std.ExtTreeSet.isEmpty_iff.mpr
    (VertexSet.ext fun v => iff_of_false (hnone v) Std.ExtTreeSet.not_mem_empty))

namespace Problem

variable {p : Problem} {operator : Operator} {region : VertexSet} {v : VertexId}
variable {es : List Edge} {allowance : Allowance} {s next last : Progress} {marking : Marking}

/-! ### One round -/

/-- What a poll that suspends has reached: the region, and what is pulled into it. -/
theorem mem_win_of_suspended (hlists : p.graph.Lists es)
    (h : (p.poll operator none s).value = (.suspended, next)) (v : VertexId) :
    v ∈ next.win ↔ v ∈ s.win ∨ p.arena.Pulls operator {w | w ∈ s.win} v := by
  obtain ⟨rfl, -⟩ := of_suspended h
  show v ∈ s.win ∪ (operator.predecessors p s.win).value ↔ _
  rw [Std.ExtTreeSet.mem_union_iff, mem_predecessors_iff hlists]
  by_cases hv : v ∈ s.win <;> simp [hv]

/-! ### Many rounds -/

/-- The region at the start is kept. -/
theorem mem_win_of_mem_start (hlists : p.graph.Lists es)
    (h : (p.compute operator allowance s).value = (.ok marking, last)) (hv : v ∈ s.win) :
    v ∈ last.win := by
  have hround (t next : Progress) (ht : v ∈ t.win)
      (hpoll : (p.poll operator none t).value = (.suspended, next)) : v ∈ next.win :=
    (mem_win_of_suspended hlists hpoll v).mpr (Or.inl ht)
  obtain ⟨t, ht, hlast⟩ := compute_induction hround hv h
  obtain ⟨rfl, -⟩ := of_completed hlast
  exact ht

/-- The region at the end is closed. -/
theorem closed_win (hlists : p.graph.Lists es)
    (h : (p.compute operator allowance s).value = (.ok marking, last)) :
    p.arena.Closed operator {v | v ∈ last.win} := by
  obtain ⟨n, -, hlast, -⟩ := polls_of_compute (compute_none_of_answer h)
  obtain ⟨rfl, -, -, hempty⟩ := of_completed hlast
  exact (isEmpty_predecessors_iff hlists).mp hempty

/-- The region at the end is part of every closed set that holds the region at the start. -/
theorem win_subset_of_closed (hlists : p.graph.Lists es)
    (h : (p.compute operator allowance s).value = (.ok marking, last)) {W : Set VertexId}
    (hstart : {v | v ∈ s.win} ⊆ W) (hclosed : p.arena.Closed operator W) :
    {v | v ∈ last.win} ⊆ W := by
  have hround (t next : Progress) (ht : {v | v ∈ t.win} ⊆ W)
      (hpoll : (p.poll operator none t).value = (.suspended, next)) :
      {v | v ∈ next.win} ⊆ W := by
    intro v hv
    rcases (mem_win_of_suspended hlists hpoll v).mp hv with hbefore | hpulls
    · exact ht hbefore
    · exact hclosed v (hpulls.mono ht)
  obtain ⟨t, ht, hlast⟩ := compute_induction hround hstart h
  obtain ⟨rfl, -⟩ := of_completed hlast
  exact ht

/-- The region at the end is the least closed set that holds the region at the start. -/
theorem isLeast_win (hlists : p.graph.Lists es)
    (h : (p.compute operator allowance s).value = (.ok marking, last)) :
    IsLeast {W : Set VertexId | {v | v ∈ s.win} ⊆ W ∧ p.arena.Closed operator W}
      {v | v ∈ last.win} :=
  ⟨⟨fun _ hv => mem_win_of_mem_start hlists h hv, closed_win hlists h⟩,
    fun _ hW => win_subset_of_closed hlists h hW.1 hW.2⟩

/-! ### Enough rounds -/

/-- The vertices that may still join a region: those outside whose owner the operator accepts. -/
def candidates (p : Problem) (operator : Operator) (region : VertexSet) : List VertexId :=
  p.graph.vertices.filter fun v => !region.contains v && (p.owner? v).any operator.accepts

theorem mem_candidates :
    v ∈ p.candidates operator region ↔ p.graph.containsVertex v ∧ v ∉ region ∧
      ∃ player, operator.accepts player ∧ p.owner? v = some player := by
  unfold candidates
  rw [List.mem_filter, Graph.mem_vertices]
  simp [← Bool.not_eq_true, Option.any_eq_true, and_comm]

/-- Whatever an operator finds was a candidate. -/
theorem mem_candidates_of_mem_predecessors (hlists : p.graph.Lists es)
    (h : v ∈ (operator.predecessors p region).value) : v ∈ p.candidates operator region := by
  obtain ⟨hout, player, haccepts, howner, hdraws⟩ := (mem_predecessors_iff hlists).mp h
  obtain ⟨w, -, hmove⟩ := hdraws.exists_moves
  exact mem_candidates.mpr ⟨(hlists.contains_of_moves hmove).1, hout, player, haccepts, howner⟩

/-- A round that suspends leaves fewer candidates. -/
theorem length_candidates_lt (hlists : p.graph.Lists es)
    (h : (p.poll operator none s).value = (.suspended, next)) :
    (p.candidates operator next.win).length < (p.candidates operator s.win).length := by
  have hwin := mem_win_of_suspended hlists h
  obtain ⟨rfl, -, hfound⟩ := of_suspended h
  -- the candidates that are left are those that did not join
  have hleft : p.candidates operator ((begun s).join (operator.predecessors p s.win).value).win =
      (p.candidates operator s.win).filter fun v =>
        !((begun s).join (operator.predecessors p s.win).value).win.contains v := by
    unfold candidates
    rw [List.filter_filter]
    apply List.filter_congr
    intro v _
    have hkept : v ∈ s.win → v ∈ ((begun s).join (operator.predecessors p s.win).value).win :=
      fun hv => (hwin v).mpr (Or.inl hv)
    rw [Bool.eq_iff_iff]
    simp only [Bool.and_eq_true, Bool.not_eq_true', ← Bool.not_eq_true, Std.ExtTreeSet.contains_iff_mem]
    tauto
  obtain ⟨v, hv⟩ := VertexSet.exists_mem hfound
  rw [hleft, List.length_filter_lt_length_iff_exists]
  refine ⟨v, mem_candidates_of_mem_predecessors hlists hv, ?_⟩
  have hjoined := (hwin v).mpr (Or.inr ((mem_predecessors_iff hlists).mp hv).2)
  simpa using hjoined

/-- With a round for each candidate, and one more, a computation answers. -/
theorem exists_answer (hlists : p.graph.Lists es)
    (hbound : s.iteration.toNat + (p.candidates operator s.win).length < p.maxIterations.toNat) :
    ∃ marking last, (p.compute operator none s).value = (.ok marking, last) ∧
      last.iteration.toNat ≤ s.iteration.toNat + (p.candidates operator s.win).length + 1 := by
  generalize hleft : (p.candidates operator s.win).length = left at hbound
  induction left using Nat.strongRecOn generalizing s with
  | ind left ih =>
  have hb : s.iteration < p.maxIterations := by
    rw [UInt64.lt_iff_toNat_lt]
    omega
  have hpoll := poll_none p operator s
  rw [if_neg (UInt64.not_le.mpr hb)] at hpoll
  by_cases hempty : (operator.predecessors p s.win).value.isEmpty
  · rw [if_pos hempty] at hpoll
    refine ⟨_, _, compute_none_of_completed hpoll, ?_⟩
    rw [toNat_begun hb]
    omega
  · rw [if_neg hempty] at hpoll
    have hfewer := length_candidates_lt hlists hpoll
    have hcount : ((begun s).join (operator.predecessors p s.win).value).iteration.toNat =
        s.iteration.toNat + 1 := toNat_begun hb
    obtain ⟨marking, last, hanswer, hlast⟩ := ih _ (hleft ▸ hfewer) rfl (by omega)
    refine ⟨marking, last, ?_, by omega⟩
    rw [compute_none_of_suspended hpoll]
    exact hanswer

/-! ### The region at the end -/

/-- The region that a computation ends with, compared with the region that it starts with. -/
structure Attractor (p : Problem) (operator : Operator) (start last : VertexSet) : Prop where
  /-- It is the least closed set that holds the region at the start. -/
  least : IsLeast {W : Set VertexId | {v | v ∈ start} ⊆ W ∧ p.arena.Closed operator W}
    {v | v ∈ last}
  /-- For player one, it is where a path into the region at the start begins that only leaves vertices
  of player one. -/
  paths : operator = .player .one → ∀ v, v ∈ last ↔ ∃ w ∈ start,
    Relation.ReflTransGen (fun u w => p.owner? u = some .one ∧ p.arena.Moves u w) v w
  /-- What joined has an owner whom the operator accepts, so vertices without an owner are there only
  if they were at the start. -/
  joined : ∀ v ∈ last, v ∈ start ∨ ∃ player, operator.accepts player ∧ p.owner? v = some player

/-- A set is closed for player one iff it holds every vertex of theirs with a move into it. -/
theorem closed_one_iff {W : Set VertexId} :
    p.arena.Closed (.player .one) W ↔
      ∀ v w, p.owner? v = some .one → p.arena.Moves v w → w ∈ W → v ∈ W := by
  constructor
  · intro hclosed v w howner hmove hw
    exact hclosed v ⟨.one, rfl, howner, w, hw, hmove⟩
  · rintro h v ⟨player, haccepts, howner, hdraws⟩
    obtain rfl : Player.one = player := beq_iff_eq.mp haccepts
    obtain ⟨w, hw, hmove⟩ := hdraws
    exact h v w howner hmove hw

/-- The least set that is closed for player one is made of paths. -/
theorem mem_iff_of_isLeast_one {start last : VertexSet}
    (h : IsLeast {W : Set VertexId | {v | v ∈ start} ⊆ W ∧ p.arena.Closed (.player .one) W}
      {v | v ∈ last}) (v : VertexId) :
    v ∈ last ↔ ∃ w ∈ start,
      Relation.ReflTransGen (fun u w => p.owner? u = some .one ∧ p.arena.Moves u w) v w := by
  constructor
  · -- the vertices from which there is a path are closed themselves
    have hpaths : p.arena.Closed (.player .one) {v | ∃ w ∈ start, Relation.ReflTransGen
        (fun u w => p.owner? u = some .one ∧ p.arena.Moves u w) v w} := by
      rw [closed_one_iff]
      rintro u w howner hmove ⟨t, ht, hpath⟩
      exact ⟨t, ht, .head ⟨howner, hmove⟩ hpath⟩
    have hleast : {v | v ∈ last} ⊆ {v | ∃ w ∈ start, Relation.ReflTransGen
        (fun u w => p.owner? u = some .one ∧ p.arena.Moves u w) v w} :=
      h.2 ⟨fun w hw => ⟨w, hw, .refl⟩, hpaths⟩
    exact fun hv => hleast hv
  · rintro ⟨w, hw, hpath⟩
    have hclosed := closed_one_iff.mp h.1.2
    induction hpath using Relation.ReflTransGen.head_induction_on with
    | refl => exact h.1.1 hw
    | head hstep _ ih => exact hclosed _ _ hstep.1 hstep.2 ih

theorem attractor_of_isLeast {start last : VertexSet}
    (h : IsLeast {W : Set VertexId | {v | v ∈ start} ⊆ W ∧ p.arena.Closed operator W}
      {v | v ∈ last}) : p.Attractor operator start last where
  least := h
  paths hone := by
    subst hone
    exact mem_iff_of_isLeast_one h
  joined := by
    -- the start with all vertices of accepted owners is closed
    have hclosed : p.arena.Closed operator {v | v ∈ start ∨
        ∃ player, operator.accepts player ∧ p.owner? v = some player} := by
      rintro v ⟨player, haccepts, howner, -⟩
      exact Or.inr ⟨player, haccepts, howner⟩
    have hleast : {v | v ∈ last} ⊆ {v | v ∈ start ∨
        ∃ player, operator.accepts player ∧ p.owner? v = some player} :=
      h.2 ⟨fun v hv => Or.inl hv, hclosed⟩
    exact fun v hv => hleast hv

end Problem

/-- **A computation that answers ends with the least closed set that holds the region it started
with**, whatever the owners, the region and the rounds that were counted before. It does answer when
nothing cancels it and there is a round for each vertex that may join. -/
theorem Graph.Reachable.attractor {p : Problem} (h : p.graph.Reachable) (operator : Operator) :
    (∀ allowance s marking last,
      (p.compute operator allowance s).value = (.ok marking, last) →
      p.Attractor operator s.win last.win) ∧
    ∀ s : Progress,
      s.iteration.toNat + (p.candidates operator s.win).length < p.maxIterations.toNat →
      ∃ marking last, (p.compute operator none s).value = (.ok marking, last) := by
  obtain ⟨es, hlists⟩ := h.lists
  constructor
  · intro allowance s marking last hanswer
    exact Problem.attractor_of_isLeast (Problem.isLeast_win hlists hanswer)
  · intro s hbound
    obtain ⟨marking, last, hanswer, -⟩ := Problem.exists_answer hlists hbound
    exact ⟨marking, last, hanswer⟩

/-- The relay with other owners, and none at `0`. -/
def Problem.reassigned : Problem where
  graph := Graph.relay
  owners := Std.ExtTreeMap.ofList [(VertexId.mk 1, Player.two), (VertexId.mk 3, Player.one)]
  finals := ∅
  maxIterations := 8

/-- A region of the relay with a handle that no vertex has, after five rounds. -/
def Progress.strayed : Progress where
  iteration := 5
  win := Std.ExtTreeSet.ofList [VertexId.mk 2, VertexId.mk 7]
  marking := ⟨"reached", Graph.relay, .defaults .bool 0⟩

theorem Graph.relay_attractor :
    ∃ marking last, (Problem.reassigned.compute .controllable none .strayed).value =
        (.ok marking, last) ∧
      last.win.toList = [⟨1⟩, ⟨2⟩, ⟨3⟩, ⟨7⟩] ∧
      Problem.reassigned.Attractor .controllable Progress.strayed.win last.win := by
  have hreachable : Problem.reassigned.graph.Reachable := by
    dsimp only [Problem.reassigned]
    exact reachable_relay
  obtain ⟨hattractor, hanswers⟩ := Reachable.attractor hreachable .controllable
  have hbound : Progress.strayed.iteration.toNat +
      (Problem.reassigned.candidates .controllable Progress.strayed.win).length <
        Problem.reassigned.maxIterations.toNat := by
    decide +kernel
  obtain ⟨marking, last, hanswer⟩ := hanswers .strayed hbound
  have hwin : (Problem.reassigned.compute .controllable none .strayed).value.2.win.toList =
      [⟨1⟩, ⟨2⟩, ⟨3⟩, ⟨7⟩] := by
    decide +kernel
  rw [hanswer] at hwin
  exact ⟨marking, last, hanswer, hwin, hattractor none _ marking last hanswer⟩

end GraphGames
