import GraphGames.Proofs.GraphArena
import GraphGames.Proofs.Search

/-!
# What a sweep finds

A sweep walks over the moves into a region and collects their sources. As the decisions that it keeps
in mind are right, what it finds does not depend on the order in which the moves are looked at, nor on
how often a source is met.

* `Arena.Draws`, `Arena.Pulls`, `Arena.Closed`: what draws a player into a set, the positions that
  an operator pulls into it, and the sets into which it pulls nothing new;
* `mem_foldlM`: a walk that adds vertices holds what each of its steps adds;
* `Problem.arena`, `Problem.mem_predecessors_iff`: the game of a problem, and what an operator finds
  in it;
* `Problem.Declared.mem_join`: the operator for both players adds to a region what the game of the
  graph attracts to it.
-/

namespace GraphGames

namespace Arena

variable {A : Arena} {operator : Operator} {player : Player} {V W : Set VertexId} {v : VertexId}

/-- Player one is drawn into a set by a move into it, player two by having moves of which none leads
elsewhere. -/
def Draws (A : Arena) : Player → Set VertexId → VertexId → Prop
  | .one, W, v => ∃ w ∈ W, A.Moves v w
  | .two, W, v => (∃ w, A.Moves v w) ∧ ∀ w, A.Moves v w → w ∈ W

/-- The position belongs to a player whom the operator accepts and who is drawn into the set. -/
def Pulls (A : Arena) (operator : Operator) (W : Set VertexId) (v : VertexId) : Prop :=
  ∃ player, operator.accepts player ∧ A.owner? v = some player ∧ A.Draws player W v

/-- The operator pulls nothing into the set that is not in it. -/
def Closed (A : Arena) (operator : Operator) (W : Set VertexId) : Prop :=
  ∀ v, A.Pulls operator W v → v ∈ W

theorem Draws.mono (h : A.Draws player V v) (hVW : V ⊆ W) : A.Draws player W v := by
  cases player with
  | one =>
    obtain ⟨w, hw, hmove⟩ := h
    exact ⟨w, hVW hw, hmove⟩
  | two => exact ⟨h.1, fun w hmove => hVW (h.2 w hmove)⟩

theorem Pulls.mono (h : A.Pulls operator V v) (hVW : V ⊆ W) : A.Pulls operator W v := by
  obtain ⟨player, haccepts, howner, hdraws⟩ := h
  exact ⟨player, haccepts, howner, hdraws.mono hVW⟩

/-- Some move leads into a set that draws a player. -/
theorem Draws.exists_moves (h : A.Draws player W v) : ∃ w ∈ W, A.Moves v w := by
  cases player with
  | one => exact h
  | two =>
    obtain ⟨w, hmove⟩ := h.1
    exact ⟨w, h.2 w hmove, hmove⟩

/-- What is attracted to a set is what the operator for both players pulls into it. -/
theorem mem_attract_iff : v ∈ A.attract W ↔ v ∈ W ∨ A.Pulls .controllable W v := by
  refine or_congr_right ?_
  constructor
  · rintro (⟨howner, hdraws⟩ | ⟨howner, hdraws⟩)
    · exact ⟨.one, rfl, howner, hdraws⟩
    · exact ⟨.two, rfl, howner, hdraws⟩
  · rintro ⟨player, -, howner, hdraws⟩
    cases player with
    | one => exact Or.inl ⟨howner, hdraws⟩
    | two => exact Or.inr ⟨howner, hdraws⟩

/-- The layers are settled iff the last of them is closed. -/
theorem settled_iff_closed {k : ℕ} : A.Settled k ↔ A.Closed .controllable (A.layer k) := by
  rw [settled_iff_subset]
  constructor
  · intro hsub v hpulls
    exact hsub (mem_attract_iff.mpr (Or.inr hpulls))
  · intro hclosed v hv
    rcases mem_attract_iff.mp hv with hin | hpulls
    · exact hin
    · exact hclosed v hpulls

end Arena

variable {p : Problem} {player : Player} {region found : VertexSet} {v w target : VertexId}

/-- A walk whose steps only add vertices holds what it began with and what each step adds. -/
theorem mem_foldlM {α : Type} {f : VertexSet → α → Traced VertexSet} {Adds : α → VertexId → Prop}
    (h : ∀ found a v, v ∈ (f found a).value ↔ v ∈ found ∨ Adds a v) (xs : List α)
    (found : VertexSet) (v : VertexId) :
    v ∈ (xs.foldlM f found).value ↔ v ∈ found ∨ ∃ a ∈ xs, Adds a v := by
  induction xs generalizing found with
  | nil => simp
  | cons a xs ih =>
    rw [List.foldlM_cons, Traced.value_bind, ih, h]
    simp [or_assoc]

namespace Problem

theorem mem_visitAfresh (found : VertexSet) (v w : VertexId) :
    w ∈ (p.visitAfresh player region target found v).value ↔
      w ∈ found ∨ p.attracts player region v ∧ v = w := by
  unfold visitAfresh
  split
  · next h =>
    rw [Bool.and_eq_true] at h
    rw [Traced.value_bind, Traced.value_pure, Std.ExtTreeSet.mem_insert, Std.compare_eq_iff_eq]
    constructor
    · rintro (rfl | hw)
      · exact Or.inr ⟨h.1, rfl⟩
      · exact Or.inl hw
    · rintro (hw | ⟨-, rfl⟩)
      · exact Or.inr hw
      · exact Or.inl rfl
  · next h =>
    rw [Traced.value_pure]
    refine ⟨Or.inl, ?_⟩
    rintro (hw | ⟨hattracts, rfl⟩)
    · exact hw
    · -- the vertex was attracted by another move already
      simpa [hattracts] using h

theorem mem_visitSources (found : VertexSet) (target w : VertexId) :
    w ∈ (p.visitSources (p.visitAfresh player region) found target).value ↔
      w ∈ found ∨ p.attracts player region w ∧ w ∈ p.predecessors target := by
  unfold visitSources
  rw [Traced.value_bind, mem_foldlM mem_visitAfresh]
  constructor
  · rintro (hw | ⟨v, hv, hattracts, rfl⟩)
    · exact Or.inl hw
    · exact Or.inr ⟨hattracts, hv⟩
  · rintro (hw | ⟨hattracts, hw⟩)
    · exact Or.inl hw
    · exact Or.inr ⟨w, hw, hattracts, rfl⟩

/-- A sweep finds the attracted vertices with a move into the region. -/
theorem mem_sweep :
    v ∈ (p.sweep player region).value ↔
      p.attracts player region v ∧ ∃ target ∈ region, v ∈ p.predecessors target := by
  rw [sweep_eq, mem_foldlM mem_visitSources]
  constructor
  · rintro (hv | ⟨target, htarget, hattracts, hv⟩)
    · exact absurd hv Std.ExtTreeSet.not_mem_empty
    · exact ⟨hattracts, target, Std.ExtTreeSet.mem_toList.mp htarget, hv⟩
  · rintro ⟨hattracts, target, htarget, hv⟩
    exact Or.inr ⟨target, Std.ExtTreeSet.mem_toList.mpr htarget, hattracts, hv⟩

/-- A vertex of player one is attracted from outside of the region by one move. -/
theorem attracts_one : p.attracts .one region v ↔ v ∉ region ∧ p.owner? v = some .one := by
  simp [attracts, ← Bool.not_eq_true]

/-- A vertex of player two is attracted from outside of the region when it has moves, and all of
them lead there. -/
theorem attracts_two :
    p.attracts .two region v ↔ v ∉ region ∧ p.owner? v = some .two ∧
      (∃ w, w ∈ p.successors v) ∧ ∀ w ∈ p.successors v, w ∈ region := by
  simp [attracts, isForced, ← Bool.not_eq_true, and_assoc, List.eq_nil_iff_forall_not_mem]

end Problem

/-- The operator for both players finds what the sweeps of both find. -/
theorem Operator.mem_controllable :
    v ∈ (Operator.controllable.predecessors p region).value ↔
      v ∈ (p.sweep .one region).value ∨ v ∈ (p.sweep .two region).value := by
  simp [Operator.predecessors]

/-! ### The game of a problem -/

namespace Problem

variable {g : Graph} {es : List Edge} {operator : Operator}

/-- The moves of the graph, with the owners and the final vertices of the problem. -/
def arena (p : Problem) : Arena where
  Moves := p.graph.arena.Moves
  owner? := p.owner?
  Final v := v ∈ p.finals

theorem mem_successors (hlists : p.graph.Lists es) {w : VertexId} :
    w ∈ p.successors v ↔ p.arena.Moves v w :=
  hlists.mem_targets_iff_moves

theorem mem_predecessors (hlists : p.graph.Lists es) {w : VertexId} :
    v ∈ p.predecessors w ↔ p.arena.Moves v w :=
  hlists.mem_sources_iff_moves

/-- A sweep finds the vertices of its player that are drawn into the region from outside. -/
theorem mem_sweep_iff (hlists : p.graph.Lists es) :
    v ∈ (p.sweep player region).value ↔
      v ∉ region ∧ p.owner? v = some player ∧ p.arena.Draws player {w | w ∈ region} v := by
  simp only [mem_sweep, mem_predecessors hlists]
  cases player with
  | one =>
    rw [attracts_one, and_assoc]
    rfl
  | two =>
    rw [attracts_two]
    simp only [mem_successors hlists]
    constructor
    · rintro ⟨⟨hout, howner, hmoves⟩, -⟩
      exact ⟨hout, howner, hmoves⟩
    · rintro ⟨hout, howner, hmoves⟩
      have hdraws : p.arena.Draws .two {w | w ∈ region} v := hmoves
      obtain ⟨w, hw, hmove⟩ := hdraws.exists_moves
      exact ⟨⟨hout, howner, hmoves⟩, w, hw, hmove⟩

/-- An operator finds what it pulls into the region from outside. -/
theorem mem_predecessors_iff (hlists : p.graph.Lists es) :
    v ∈ (operator.predecessors p region).value ↔
      v ∉ region ∧ p.arena.Pulls operator {w | w ∈ region} v := by
  cases operator with
  | player owner =>
    have haccepts (q : Player) : (Operator.player owner).accepts q ↔ owner = q := beq_iff_eq
    refine (mem_sweep_iff hlists).trans (and_congr_right fun _ => ?_)
    constructor
    · rintro ⟨howner, hdraws⟩
      exact ⟨owner, (haccepts owner).mpr rfl, howner, hdraws⟩
    · rintro ⟨q, hq, howner, hdraws⟩
      obtain rfl := (haccepts q).mp hq
      exact ⟨howner, hdraws⟩
  | controllable =>
    rw [Operator.mem_controllable, mem_sweep_iff hlists, mem_sweep_iff hlists]
    constructor
    · rintro (⟨hout, hfound⟩ | ⟨hout, hfound⟩)
      · exact ⟨hout, .one, rfl, hfound⟩
      · exact ⟨hout, .two, rfl, hfound⟩
    · rintro ⟨hout, player, -, hfound⟩
      cases player with
      | one => exact Or.inl ⟨hout, hfound⟩
      | two => exact Or.inr ⟨hout, hfound⟩

/-- An operator finds nothing iff the region is closed under it. -/
theorem isEmpty_predecessors_iff (hlists : p.graph.Lists es) :
    (operator.predecessors p region).value.isEmpty ↔
      p.arena.Closed operator {v | v ∈ region} := by
  rw [Std.ExtTreeSet.isEmpty_iff]
  constructor
  · intro hempty v hpulls
    by_contra hout
    have hmem := (mem_predecessors_iff hlists).mpr ⟨hout, hpulls⟩
    rw [hempty] at hmem
    exact Std.ExtTreeSet.not_mem_empty hmem
  · intro hclosed
    refine VertexSet.ext fun v => iff_of_false ?_ Std.ExtTreeSet.not_mem_empty
    intro hmem
    obtain ⟨hout, hpulls⟩ := (mem_predecessors_iff hlists).mp hmem
    exact hout (hclosed v hpulls)

/-! ### Problems that a graph declares -/

/-- The game of a problem that a graph declares is the game of the graph. -/
theorem Declared.arena_eq (h : p.Declared g) : p.arena = g.arena := by
  have howner : p.owner? = g.owner? := funext h.owner
  have hfinal : (fun v => v ∈ p.finals) = fun v => (g.isFinal v : Prop) :=
    funext fun v => propext (h.final v)
  unfold arena
  rw [h.graph, howner, hfinal]
  rfl

/-- A region together with what the operator for both players finds is the region with what the game
of the graph attracts to it. -/
theorem Declared.mem_join (h : p.Declared g) (hlists : g.Lists es) :
    v ∈ region ∪ (Operator.controllable.predecessors p region).value ↔
      v ∈ g.arena.attract {w | w ∈ region} := by
  have hlists' : p.graph.Lists es := h.graph ▸ hlists
  rw [Std.ExtTreeSet.mem_union_iff, mem_predecessors_iff hlists', Arena.mem_attract_iff, h.arena_eq]
  by_cases hv : v ∈ region <;> simp [hv]

/-- The operator for both players finds nothing iff the game of the graph attracts nothing to the
region. -/
theorem Declared.isEmpty_iff_closed (h : p.Declared g) (hlists : g.Lists es) :
    (Operator.controllable.predecessors p region).value.isEmpty ↔
      g.arena.Closed .controllable {v | v ∈ region} := by
  have hlists' : p.graph.Lists es := h.graph ▸ hlists
  rw [isEmpty_predecessors_iff hlists', h.arena_eq]

end Problem

end GraphGames
