import GraphGames.Proofs.WinningRegion

/-!
# The winning region is monotone

With more final vertices, more moves of player one, fewer of player two, and vertices of player two
given to player one, player one wins from wherever that was possible before. Player two must not be
left without a move, as the token would stop there. The moves from a vertex that is final afterwards
do not matter. When only vertices of the winning region become final, player one wins from nowhere
else.

* `Arena.Closed.layer_subset`: a closed set that holds the final positions holds all layers;
* `Arena.Eases`, `Arena.Eases.closed`: a game is at least as easy for player one as another, so what is
  closed there is closed here;
* `Arena.Retargets`: two games differ in their final positions only;
* `Solver.Finds`, `Graph.Reachable.solve_mono`: a solver can find one region only, and these regions
  are compared.
-/

namespace GraphGames

namespace Arena

variable {A B : Arena} {W : Set VertexId} {v w : VertexId}

/-- A closed set holds everything that is attracted to the final positions, if it holds these. -/
theorem Closed.layer_subset (hclosed : A.Closed .controllable W) (hfinal : ∀ v, A.Final v → v ∈ W)
    (k : ℕ) : A.layer k ⊆ W := by
  induction k with
  | zero => exact hfinal
  | succ k ih =>
    intro v hv
    rcases mem_attract_iff.mp hv with hbefore | hpulls
    · exact ih hbefore
    · exact hclosed v (hpulls.mono ih)

/-- The second of two games is at least as easy for player one. -/
structure Eases (A B : Arena) : Prop where
  final : ∀ v, A.Final v → B.Final v
  /-- No position of player one goes to player two. -/
  owner : ∀ v, A.owner? v = some .one → B.owner? v ≠ some .two
  /-- From a position that is not final, player one keeps all moves. -/
  one : ∀ v w, ¬ B.Final v → B.owner? v = some .one → A.Moves v w → B.Moves v w
  /-- Player two gets no new moves. -/
  two : ∀ v w, ¬ B.Final v → B.owner? v = some .two → B.Moves v w → A.Moves v w
  /-- Player two does not lose the last move. -/
  goesOn : ∀ v w, ¬ B.Final v → B.owner? v = some .two → A.Moves v w → ∃ u, B.Moves v u

/-- The two games differ in their final positions only. -/
structure Retargets (A B : Arena) : Prop where
  owner : ∀ v, B.owner? v = A.owner? v
  moves : ∀ v w, B.Moves v w ↔ A.Moves v w

namespace Eases

variable (h : A.Eases B) (howned : ∀ v w, A.Moves v w → ∃ player, B.owner? v = some player)
include h howned

/-- What is pulled into a set in the harder game is pulled into it in the easier one. -/
theorem pulls (hfinal : ¬ B.Final v) (hpulls : A.Pulls .controllable W v) :
    B.Pulls .controllable W v := by
  obtain ⟨player, -, howner, hdraws⟩ := hpulls
  obtain ⟨w, hw, hmove⟩ := hdraws.exists_moves
  obtain ⟨player', howner'⟩ := howned v w hmove
  refine ⟨player', rfl, howner', ?_⟩
  cases player' with
  | one => exact ⟨w, hw, h.one v w hfinal howner' hmove⟩
  | two =>
    cases player with
    | one => exact absurd howner' (h.owner v howner)
    | two =>
      refine ⟨h.goesOn v w hfinal howner' hmove, ?_⟩
      intro u hu
      exact hdraws.2 u (h.two v u hfinal howner' hu)

theorem closed (hfinal : ∀ v, B.Final v → v ∈ W) (hclosed : B.Closed .controllable W) :
    A.Closed .controllable W := by
  intro v hpulls
  by_cases hv : B.Final v
  · exact hfinal v hv
  · exact hclosed v (h.pulls howned hv hpulls)

/-- No layer of the harder game goes beyond the last layer of the easier one. -/
theorem layer_subset {n : ℕ} (hsettled : B.Settled n) (k : ℕ) : A.layer k ⊆ B.layer n := by
  have hfinal (v : VertexId) (hv : B.Final v) : v ∈ B.layer n := final_mem_layer hv n
  have hclosed := h.closed howned hfinal (settled_iff_closed.mp hsettled)
  exact hclosed.layer_subset (fun v hv => hfinal v (h.final v hv)) k

end Eases

namespace Retargets

theorem refl (A : Arena) : A.Retargets A := ⟨fun _ => rfl, fun _ _ => Iff.rfl⟩

variable (h : A.Retargets B)
include h

theorem trans {C : Arena} (h' : B.Retargets C) : A.Retargets C where
  owner v := (h'.owner v).trans (h.owner v)
  moves v w := (h'.moves v w).trans (h.moves v w)

theorem pulls_iff : B.Pulls .controllable W v ↔ A.Pulls .controllable W v := by
  unfold Pulls
  refine exists_congr fun player => and_congr_right fun _ => ?_
  rw [h.owner]
  cases player with
  | one => simp only [Draws, h.moves]
  | two => simp only [Draws, h.moves]

/-- With more final positions a game is at least as easy. -/
theorem eases (hfinal : ∀ v, A.Final v → B.Final v) : A.Eases B where
  final := hfinal
  owner v howner := by
    rw [h.owner, howner]
    simp
  one v w _ _ hmove := (h.moves v w).mpr hmove
  two v w _ _ hmove := (h.moves v w).mp hmove
  goesOn v w _ _ hmove := ⟨w, (h.moves v w).mpr hmove⟩

/-- When all final positions of one game are in the last layer of the other, its layers stay there. -/
theorem layer_subset {n : ℕ} (hsettled : A.Settled n) (hfinal : ∀ v, B.Final v → v ∈ A.layer n)
    (k : ℕ) : B.layer k ⊆ A.layer n := by
  have hclosed : B.Closed .controllable (A.layer n) := by
    intro v hpulls
    exact settled_iff_closed.mp hsettled v (h.pulls_iff.mp hpulls)
  exact hclosed.layer_subset hfinal k

end Retargets

end Arena

/-! ### Games of graphs -/

namespace Graph

variable {g g' : Graph}

/-- Which of two games is easier is decided by looking at the listed vertices and edges. -/
theorem eases_iff : g.arena.Eases g'.arena ↔
    (∀ v ∈ g.vertices, g.isFinal v → g'.isFinal v) ∧
    (∀ v ∈ g.vertices, g.owner? v = some .one → g'.owner? v ≠ some .two) ∧
    (∀ e ∈ g.edges, ¬ g'.isFinal e.source → g'.owner? e.source = some .one →
      ∃ e' ∈ g'.edges, e'.source = e.source ∧ e'.target = e.target) ∧
    (∀ e' ∈ g'.edges, ¬ g'.isFinal e'.source → g'.owner? e'.source = some .two →
      ∃ e ∈ g.edges, e.source = e'.source ∧ e.target = e'.target) ∧
    ∀ e ∈ g.edges, ¬ g'.isFinal e.source → g'.owner? e.source = some .two →
      ∃ e' ∈ g'.edges, e'.source = e.source := by
  constructor
  · intro h
    refine ⟨fun v _ => h.final v, fun v _ => h.owner v, ?_, ?_, ?_⟩
    · intro e he hfinal howner
      exact h.one _ _ hfinal howner ⟨e, he, rfl, rfl⟩
    · intro e' he' hfinal howner
      exact h.two _ _ hfinal howner ⟨e', he', rfl, rfl⟩
    · intro e he hfinal howner
      obtain ⟨u, e', he', hsource, -⟩ := h.goesOn _ _ hfinal howner ⟨e, he, rfl, rfl⟩
      exact ⟨e', he', hsource⟩
  · rintro ⟨hfinal, howner, hone, htwo, hgoesOn⟩
    constructor
    · intro v hv
      exact hfinal v (mem_vertices.mpr (contains_of_isFinal hv)) hv
    · intro v hv
      exact howner v (mem_vertices.mpr (contains_of_owner hv)) hv
    · rintro v w hv howner' ⟨e, he, rfl, rfl⟩
      exact hone e he hv howner'
    · rintro v w hv howner' ⟨e', he', rfl, rfl⟩
      exact htwo e' he' hv howner'
    · rintro v w hv howner' ⟨e, he, rfl, rfl⟩
      obtain ⟨e', he', hsource⟩ := hgoesOn e he hv howner'
      exact ⟨e'.target, e', he', hsource, rfl⟩

instance (g g' : Graph) : Decidable (g.arena.Eases g'.arena) := decidable_of_iff' _ eases_iff

theorem retargets_withValue {fresh : Nat} {subject : Subject} {value : Value}
    (h : g.withValue fresh subject isFinalProperty value = .ok g') : g.arena.Retargets g'.arena where
  owner v := by
    show g'.owner? v = g.owner? v
    by_cases hv : g.contains (.vertex v)
    · have hne : isFinalProperty ≠ turnProperty := by decide
      unfold owner?
      rw [value_withValue_of_ne h (fun hsame => hne hsame.2) hv]
    · -- neither graph has the vertex, so it has no owner
      have hv' : ¬ g'.contains (.vertex v) := by
        rw [contains_withValue h]
        exact hv
      rw [Option.eq_none_iff_forall_ne_some.mpr fun _ howner => hv (contains_of_owner howner),
        Option.eq_none_iff_forall_ne_some.mpr fun _ howner => hv' (contains_of_owner howner)]
  moves v w := by
    obtain ⟨column, datum, -, -, -, rfl⟩ := of_withValue h
    rfl

/-- To declare other vertices final does not change who moves where. -/
theorem retargets_apply (g : Graph) (fresh : Nat) (subject : Subject) (value : Value) :
    g.arena.Retargets ((Operation.setValue fresh subject isFinalProperty value).apply g).arena :=
  Update.keeps_replace (P := fun next => g.arena.Retargets next.arena)
    (Update.run_setValue fresh subject isFinalProperty value)
    (fun _ _ hnext h => h.trans (retargets_withValue hnext)) g (Arena.Retargets.refl g.arena)

end Graph

namespace Solver

variable {solver : Solver} {es : List Edge} {region : VertexSet}

/-- The solver has one region to find. It does find it when it is asked to, the bound on its rounds
exceeds the number of vertices, and nothing cancels it. -/
structure Finds (solver : Solver) (region : VertexSet) : Prop where
  eq : ∀ allowance found, (solver.solve allowance).value.1 = .ok found → found = region
  answers : solver.computesFirst → solver.graph.numVertices < solver.maxIterations.toNat →
    (solver.solve none).value.1 = .ok region

/-- A solver has the last layer of its game to find. -/
theorem finds_lastLayer (hlists : solver.graph.Lists es) {q : Problem}
    (hq : Problem.ofGraph solver.graph = .ok q)
    (hregion : ∀ v, v ∈ region ↔ v ∈ solver.graph.arena.layer solver.graph.arena.depth) :
    solver.Finds region where
  eq allowance found hsolve := by
    obtain ⟨hfirst, next, hrun, hfound⟩ := of_solve hsolve
    rw [(firstRegion_eq_of_run hlists hfirst hregion hrun).1] at hfound
    exact (Except.ok.inj hfound).symm
  answers hfirst hbound :=
    (solve_eq_of_depth_lt hlists hfirst hq hregion (hlists.depth_le.trans_lt hbound)).1

end Solver

/-- **The winning region is monotone.** Of two graphs that come about in whatever way, have the same
vertices, and make games that solvers accept, the region found for the second holds the one found for
the first if the second game is at least as easy for player one. If the games differ only in that the
second has more final vertices, and has them in the region found for the first, the same region is
found for both. -/
theorem Graph.Reachable.solve_mono {g g' : Graph} {game game' : Game} {solver solver' : Solver}
    (h : g.Reachable) (h' : g'.Reachable) (hgame : game.graph = .ok g)
    (hgame' : game'.graph = .ok g') (haccepts : Solver.ofGame game = .ok solver)
    (haccepts' : Solver.ofGame game' = .ok solver')
    (hsame : ∀ v, g'.containsVertex v ↔ g.containsVertex v) :
    ∃ region region', (∀ later : Solver, later.graph = g → later.Finds region) ∧
      (∀ later : Solver, later.graph = g' → later.Finds region') ∧
      (g.arena.Eases g'.arena → ∀ v ∈ region, v ∈ region') ∧
      (g.arena.Retargets g'.arena → (∀ v, g.isFinal v → g'.isFinal v) →
        (∀ v, g'.isFinal v → v ∈ region) → region' = region) := by
  obtain rfl := Solver.eq_of_graph haccepts hgame
  obtain rfl := Solver.eq_of_graph haccepts' hgame'
  obtain ⟨es, hlists⟩ := h.lists
  obtain ⟨es', hlists'⟩ := h'.lists
  obtain ⟨q, hq⟩ := Solver.exists_ofGraph haccepts h.aligned
  obtain ⟨q', hq'⟩ := Solver.exists_ofGraph haccepts' h'.aligned
  obtain ⟨region, hregion⟩ := hlists.exists_lastLayer
  obtain ⟨region', hregion'⟩ := hlists'.exists_lastLayer
  have howned (v w : VertexId) (hmove : g.arena.Moves v w) :
      ∃ player, g'.arena.owner? v = some player :=
    (Problem.declared_of_ofGraph hq').owned v ((hsame v).mpr (hlists.contains_of_moves hmove).1)
  have hsubset (heases : g.arena.Eases g'.arena) (v : VertexId) (hv : v ∈ region) : v ∈ region' := by
    rw [hregion']
    exact heases.layer_subset howned hlists'.settled.depth _ ((hregion v).mp hv)
  refine ⟨region, region', ?_, ?_, hsubset, ?_⟩
  · intro later hlater
    subst hlater
    exact Solver.finds_lastLayer hlists hq hregion
  · intro later hlater
    subst hlater
    exact Solver.finds_lastLayer hlists' hq' hregion'
  · intro hretargets hfinal hbetween
    apply VertexSet.ext
    intro v
    constructor
    · intro hv
      have hlayer := hretargets.layer_subset hlists.settled.depth fun v hv =>
        (hregion v).mp (hbetween v hv)
      exact (hregion v).mpr (hlayer _ ((hregion' v).mp hv))
    · exact hsubset (hretargets.eases hfinal) v

/-- The relay in which player two can no longer stay at `3`, player one moves at `1` and has one more
move there, and `4` is final. -/
def Graph.eased : Graph :=
  relay.after [.removeEdge ⟨4⟩, .setValue 0 (.vertex ⟨1⟩) turnProperty (.int 1),
    .addEdge ⟨1⟩ ⟨3⟩, .setValue 0 (.vertex ⟨4⟩) isFinalProperty (.bool true)]

theorem Graph.reachable_eased : eased.Reachable := reachable_relay.after _

/-- The relay in which `0` is final, too. -/
def Graph.retargeted : Graph :=
  relay.after [.setValue 0 (.vertex ⟨0⟩) isFinalProperty (.bool true)]

theorem Graph.reachable_retargeted : retargeted.Reachable := reachable_relay.after _

theorem Graph.relay_solve_mono :
    (relay.arena.Eases eased.arena ∧
      ∃ region region', (({ graph := relay } : Solver).solve none).value.1 = .ok region ∧
        (({ graph := eased } : Solver).solve none).value.1 = .ok region' ∧
        (∀ v ∈ region, v ∈ region') ∧ region'.toList = [⟨0⟩, ⟨1⟩, ⟨2⟩, ⟨3⟩, ⟨4⟩]) ∧
    ∃ region, (({ graph := relay } : Solver).solve none).value.1 = .ok region ∧
      (({ graph := retargeted } : Solver).solve none).value.1 = .ok region := by
  obtain ⟨solver, haccepts⟩ := Solver.exists_relay
  constructor
  · obtain ⟨solver', haccepts'⟩ : ∃ solver',
        Solver.ofGame { kind := .turnBased, graph? := some eased } = .ok solver' :=
      exists_ok_of_isSome (by decide +kernel)
    have hvertices : eased.vertices = relay.vertices := by decide +kernel
    have heases : relay.arena.Eases eased.arena := by decide +kernel
    obtain ⟨region, region', hfinds, hfinds', hmono, -⟩ :=
      Reachable.solve_mono reachable_relay reachable_eased rfl rfl haccepts haccepts'
        fun v => by rw [← mem_vertices, hvertices, mem_vertices]
    have hanswer := (hfinds { graph := relay } (by dsimp only)).answers rfl (by decide +kernel)
    have hanswer' := (hfinds' { graph := eased } (by dsimp only)).answers rfl (by decide +kernel)
    have hlist : (({ graph := eased } : Solver).solve none).value.1.toOption.map (·.toList) =
        some [⟨0⟩, ⟨1⟩, ⟨2⟩, ⟨3⟩, ⟨4⟩] := by
      decide +kernel
    rw [hanswer'] at hlist
    exact ⟨heases, region, region', hanswer, hanswer', hmono heases, Option.some.inj hlist⟩
  · obtain ⟨solver', haccepts'⟩ : ∃ solver',
        Solver.ofGame { kind := .turnBased, graph? := some retargeted } = .ok solver' :=
      exists_ok_of_isSome (by decide +kernel)
    have hvertices : retargeted.vertices = relay.vertices := by decide +kernel
    have hretargets : relay.arena.Retargets retargeted.arena := retargets_apply relay _ _ _
    obtain ⟨region, region', hfinds, hfinds', -, hsame⟩ :=
      Reachable.solve_mono reachable_relay reachable_retargeted rfl rfl haccepts haccepts'
        fun v => by rw [← mem_vertices, hvertices, mem_vertices]
    have hanswer := (hfinds { graph := relay } (by dsimp only)).answers rfl (by decide +kernel)
    have hanswer' := (hfinds' { graph := retargeted } (by dsimp only)).answers rfl (by decide +kernel)
    have hfinal : ∀ v ∈ relay.vertices, relay.isFinal v → retargeted.isFinal v := by decide +kernel
    have hbetween : ∀ v ∈ retargeted.vertices, retargeted.isFinal v →
        ((({ graph := relay } : Solver).solve none).value.1.toOption.map (·.contains v)) =
          some true := by
      decide +kernel
    rw [hanswer] at hbetween
    obtain rfl : region' = region := by
      apply hsame hretargets
      · intro v hv
        exact hfinal v (mem_vertices.mpr (contains_of_isFinal hv)) hv
      · intro v hv
        exact Option.some.inj (hbetween v (mem_vertices.mpr (contains_of_isFinal hv)) hv)
    exact ⟨_, hanswer, hanswer'⟩

end GraphGames
