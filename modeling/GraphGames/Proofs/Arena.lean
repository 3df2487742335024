import Mathlib
import GraphGames.Game.Player
import GraphGames.Graph.Handle

/-!
# Reachability games

Two players move a token along the moves of an arena. Player one wants it to visit a final position,
player two to prevent that. The token stops only where there is no move.

* `Arena`: the moves, who moves where, and the final positions;
* `Arena.Play`, `Arena.Strategy`, `Strategy.Governs`: plays, what a player may plan, and the plays
  in which the plan is followed. A plan may look at the whole past, unless it is `Memoryless`;
* `Arena.exists_play`: the play between two plans;
* `Arena.Forces`, `Arena.distance`: player one can visit a final position within so many moves;
* `Arena.attract`, `Arena.layer`: the positions from which this is found backwards;
* `Arena.Approaches`, `Arena.Delays`: the moves that the players want to make, judged by the layers;
* `Arena.mem_layer_iff`: the layers are what player one can force, if they are `Settled` some time;
* `Arena.depth`, `Arena.sup_distance`: the number of the last layer is the greatest distance.
-/

namespace GraphGames

/-- A game of reaching a final position. -/
structure Arena where
  Moves : VertexId → VertexId → Prop
  owner? : VertexId → Option Player
  Final : VertexId → Prop

namespace Arena

variable {A : Arena} {player : Player} {v w : VertexId} {k n : ℕ}

/-! ### Plays and strategies -/

/-- The positions of a token that stops only where there is no move. -/
structure Play (A : Arena) where
  position : ℕ → Option VertexId
  moves : ∀ i v w, position i = some v → position (i + 1) = some w → A.Moves v w
  goesOn : ∀ i v w, position i = some v → A.Moves v w → ∃ u, position (i + 1) = some u
  ended : ∀ i, position i = none → position (i + 1) = none

namespace Play

/-- The positions before time `i`. -/
def past (π : A.Play) (i : ℕ) : List VertexId := (List.range i).filterMap π.position

/-- A final position is visited within `k` moves. -/
def VisitsWithin (π : A.Play) (k : ℕ) : Prop := ∃ i ≤ k, ∃ v, π.position i = some v ∧ A.Final v

/-- A final position is visited. -/
def Visits (π : A.Play) : Prop := ∃ k, π.VisitsWithin k

end Play

/-- What a player plans to do at each position after each past; where the player can move, the plan
is a move. -/
structure Strategy (A : Arena) (player : Player) where
  choose : List VertexId → VertexId → VertexId
  legal : ∀ past v w, A.owner? v = some player → A.Moves v w → A.Moves v (choose past v)

namespace Strategy

/-- The past does not matter. -/
def Memoryless (σ : A.Strategy player) : Prop :=
  ∀ past past' v, σ.choose past v = σ.choose past' v

/-- The player moves as planned. -/
def Governs (σ : A.Strategy player) (π : A.Play) : Prop :=
  ∀ i v w, π.position i = some v → A.owner? v = some player → π.position (i + 1) = some w →
    w = σ.choose (π.past i) v

end Strategy

/-- Wherever there is a move, some player makes it. -/
def Owned (A : Arena) : Prop := ∀ v w, A.Moves v w → ∃ player, A.owner? v = some player

/-- Player one can visit a final position within `k` moves. -/
def Forces (A : Arena) (k : ℕ) (v : VertexId) : Prop :=
  ∃ σ : A.Strategy .one, ∀ π : A.Play, π.position 0 = some v → σ.Governs π → π.VisitsWithin k

/-- The least number of moves within which player one can visit a final position. -/
noncomputable def distance (A : Arena) (v : VertexId) : ℕ := sInf {k | A.Forces k v}

/-- Some choice of good moves is a strategy without memory, if there is a good move wherever the
player moves. -/
theorem exists_memoryless (Good : VertexId → VertexId → Prop)
    (h : ∀ v u, A.owner? v = some player → A.Moves v u → ∃ w, A.Moves v w ∧ Good v w) :
    ∃ σ : A.Strategy player, σ.Memoryless ∧
      ∀ past v u, A.owner? v = some player → A.Moves v u → Good v (σ.choose past v) := by
  -- where the player cannot move, any choice will do
  have hgood (v : VertexId) : ∃ w, ∀ u, A.owner? v = some player → A.Moves v u →
      A.Moves v w ∧ Good v w := by
    by_cases hv : A.owner? v = some player ∧ ∃ u, A.Moves v u
    · obtain ⟨howner, u, hu⟩ := hv
      obtain ⟨w, hw⟩ := h v u howner hu
      exact ⟨w, fun _ _ _ => hw⟩
    · exact ⟨v, fun u howner hu => absurd ⟨howner, u, hu⟩ hv⟩
  choose best hbest using hgood
  exact ⟨⟨fun _ v => best v, fun _ v u howner hu => (hbest v u howner hu).1⟩,
    fun _ _ _ => rfl, fun _ v u howner hu => (hbest v u howner hu).2⟩

/-! ### The play between two strategies -/

section Outcome

variable (σ : A.Strategy .one) (τ : A.Strategy .two)

/-- What the player whose turn it is plans. -/
def planned (past : List VertexId) (v : VertexId) : VertexId :=
  match A.owner? v with
  | some .one => σ.choose past v
  | some .two => τ.choose past v
  | none => v

open Classical in
/-- The past and the position at each time, when both players move as planned. -/
noncomputable def outcome (start : VertexId) : ℕ → List VertexId × Option VertexId
  | 0 => ([], some start)
  | i + 1 =>
    match outcome start i with
    | (past, none) => (past, none)
    | (past, some v) =>
      (past ++ [v], if ∃ w, A.Moves v w then some (planned σ τ past v) else none)

theorem outcome_succ_of_none {start : VertexId} {i : ℕ} (h : (outcome σ τ start i).2 = none) :
    outcome σ τ start (i + 1) = outcome σ τ start i := by
  rw [outcome]
  cases hi : outcome σ τ start i with
  | mk past position =>
    rw [hi] at h
    obtain rfl : position = none := h
    rfl

open Classical in
theorem outcome_succ_of_some {start : VertexId} {i : ℕ} (h : (outcome σ τ start i).2 = some v) :
    outcome σ τ start (i + 1) =
      ((outcome σ τ start i).1 ++ [v],
        if ∃ w, A.Moves v w then some (planned σ τ (outcome σ τ start i).1 v) else none) := by
  rw [outcome]
  cases hi : outcome σ τ start i with
  | mk past position =>
    rw [hi] at h
    obtain rfl : position = some v := h
    rfl

/-- The past of the outcome is the list of its earlier positions. -/
theorem outcome_past (start : VertexId) (i : ℕ) :
    (List.range i).filterMap (fun j => (outcome σ τ start j).2) = (outcome σ τ start i).1 := by
  induction i with
  | zero => rfl
  | succ i ih =>
    rw [List.range_succ, List.filterMap_append, ih]
    cases hi : (outcome σ τ start i).2 with
    | none => simp [outcome_succ_of_none σ τ hi, hi]
    | some v => simp [outcome_succ_of_some σ τ hi, hi]

variable {σ τ} in
/-- What is planned where there is a move is a move. -/
theorem moves_planned (howned : A.Owned) (past : List VertexId) (h : A.Moves v w) :
    A.Moves v (planned σ τ past v) := by
  obtain ⟨player, hplayer⟩ := howned v w h
  unfold planned
  rw [hplayer]
  cases player with
  | one => exact σ.legal past v w hplayer h
  | two => exact τ.legal past v w hplayer h

/-- Two strategies make a play from any position. -/
theorem exists_play (howned : A.Owned) (start : VertexId) :
    ∃ π : A.Play, π.position 0 = some start ∧ σ.Governs π ∧ τ.Governs π := by
  classical
  let π : A.Play :=
    { position := fun i => (outcome σ τ start i).2
      moves := by
        intro i v w hv hw
        rw [outcome_succ_of_some σ τ hv] at hw
        obtain ⟨⟨u, hu⟩, hw⟩ := Option.ite_none_right_eq_some.mp hw
        obtain rfl := Option.some.inj hw
        exact moves_planned howned _ hu
      goesOn := by
        intro i v w hv hw
        rw [outcome_succ_of_some σ τ hv]
        exact ⟨_, if_pos ⟨w, hw⟩⟩
      ended := by
        intro i hi
        rw [outcome_succ_of_none σ τ hi]
        exact hi }
  -- each move is the planned one, hence that of the player whose turn it is
  have hplanned (i : ℕ) (v w : VertexId) (hv : π.position i = some v)
      (hw : π.position (i + 1) = some w) : w = planned σ τ (π.past i) v := by
    have hpast : π.past i = (outcome σ τ start i).1 := outcome_past σ τ start i
    change (outcome σ τ start (i + 1)).2 = some w at hw
    rw [outcome_succ_of_some σ τ hv] at hw
    obtain ⟨-, hw⟩ := Option.ite_none_right_eq_some.mp hw
    rw [hpast, ← Option.some.inj hw]
  refine ⟨π, rfl, fun i v w hv howner hw => ?_, fun i v w hv howner hw => ?_⟩
  · rw [hplanned i v w hv hw, planned, howner]
  · rw [hplanned i v w hv hw, planned, howner]

end Outcome

/-! ### Layers -/

/-- A set of positions with those from which the player who moves there cannot but lead into it, as
player two, or may do so, as player one. -/
def attract (A : Arena) (S : Set VertexId) : Set VertexId :=
  S ∪ {v | (A.owner? v = some .one ∧ ∃ w ∈ S, A.Moves v w) ∨
    (A.owner? v = some .two ∧ (∃ w, A.Moves v w) ∧ ∀ w, A.Moves v w → w ∈ S)}

/-- The positions attracted in `k` rounds, beginning with the final ones. -/
def layer (A : Arena) : ℕ → Set VertexId
  | 0 => {v | A.Final v}
  | k + 1 => A.attract (A.layer k)

/-- No position is attracted after `n` rounds. -/
def Settled (A : Arena) (n : ℕ) : Prop := A.layer (n + 1) = A.layer n

/-- A move that takes player one a layer down. -/
def Approaches (A : Arena) (v w : VertexId) : Prop :=
  ∀ k, v ∈ A.layer (k + 1) → ¬ A.Final v → w ∈ A.layer k

/-- A move that does not take player two more than one layer down. -/
def Delays (A : Arena) (v w : VertexId) : Prop := ∀ k, w ∈ A.layer k → v ∈ A.layer (k + 1)

theorem layer_subset_succ (A : Arena) (k : ℕ) : A.layer k ⊆ A.layer (k + 1) :=
  Set.subset_union_left

theorem layer_mono (A : Arena) : Monotone A.layer := monotone_nat_of_le_succ A.layer_subset_succ

theorem final_mem_layer (h : A.Final v) (k : ℕ) : v ∈ A.layer k := A.layer_mono (Nat.zero_le k) h

/-- A position of a layer that is not final was attracted to an earlier one. -/
theorem mem_layer_succ_of_not_final (h : v ∈ A.layer (k + 1)) (hfinal : ¬ A.Final v) :
    ∃ j ≤ k, (A.owner? v = some .one ∧ ∃ w ∈ A.layer j, A.Moves v w) ∨
      (A.owner? v = some .two ∧ (∃ w, A.Moves v w) ∧ ∀ w, A.Moves v w → w ∈ A.layer j) := by
  induction k with
  | zero => exact ⟨0, le_refl 0, h.resolve_left hfinal⟩
  | succ k ih =>
    rcases h with h | h
    · obtain ⟨j, hj, hattracted⟩ := ih h
      exact ⟨j, by omega, hattracted⟩
    · exact ⟨k + 1, le_refl _, h⟩

/-- The layers are settled iff the next one is no larger. -/
theorem settled_iff_subset : A.Settled k ↔ A.layer (k + 1) ⊆ A.layer k :=
  ⟨fun h => h.subset, fun h => Set.Subset.antisymm h (A.layer_subset_succ k)⟩

theorem Settled.add (h : A.Settled n) (d : ℕ) : A.layer (n + d) = A.layer n := by
  induction d with
  | zero => rfl
  | succ d ih =>
    show A.attract (A.layer (n + d)) = A.layer n
    rw [ih]
    exact h

theorem Settled.subset (h : A.Settled n) (k : ℕ) : A.layer k ⊆ A.layer n := by
  rw [← h.add k]
  exact A.layer_mono (Nat.le_add_left k n)

/-- Layers that grow inside a finite set settle after as many rounds as there are positions of the
set that are not final. -/
theorem settled_of_subset {S : Set VertexId} (hfinite : S.Finite) (h : ∀ k, A.layer k ⊆ S) :
    A.Settled (S.ncard - (A.layer 0).ncard) := by
  have hlayer (k : ℕ) : (A.layer k).Finite := hfinite.subset (h k)
  have hcard {j k : ℕ} (hjk : j ≤ k) : (A.layer j).ncard ≤ (A.layer k).ncard :=
    Set.ncard_le_ncard (A.layer_mono hjk) (hlayer k)
  have heq {k : ℕ} (hk : (A.layer (k + 1)).ncard = (A.layer k).ncard) : A.Settled k :=
    (Set.eq_of_subset_of_ncard_le (A.layer_subset_succ k) (Nat.le_of_eq hk) (hlayer _)).symm
  have hbound (k : ℕ) :
      (A.layer k).ncard - (A.layer 0).ncard ≤ S.ncard - (A.layer 0).ncard :=
    Nat.sub_le_sub_right (Set.ncard_le_ncard (h k) hfinite) _
  -- the number of positions that were attracted grows up to the bound, then stays as it is
  have hmono : Monotone fun k => (A.layer k).ncard - (A.layer 0).ncard :=
    fun j k hjk => Nat.sub_le_sub_right (hcard hjk) _
  have hsame {k : ℕ} (hk : (A.layer k).ncard - (A.layer 0).ncard =
      (A.layer (k + 1)).ncard - (A.layer 0).ncard) : A.Settled k := by
    have h0 := hcard (Nat.zero_le k)
    have h1 := hcard (Nat.zero_le (k + 1))
    exact heq (by omega)
  have hstable (k : ℕ) (hk : (A.layer k).ncard - (A.layer 0).ncard =
      (A.layer (k + 1)).ncard - (A.layer 0).ncard) :
      (A.layer (k + 1)).ncard - (A.layer 0).ncard =
        (A.layer (k + 2)).ncard - (A.layer 0).ncard := by
    rw [(hsame hk).add 2, (hsame hk).add 1]
  exact hsame (Nat.stabilises_of_monotone hmono hbound hstable (Nat.le_succ _)).symm

/-! ### Good moves -/

/-- Where player one can move, some move approaches the final positions. -/
theorem exists_approaches (howner : A.owner? v = some .one) (h : A.Moves v w) :
    ∃ u, A.Moves v u ∧ A.Approaches v u := by
  by_cases hv : ∃ k, v ∈ A.layer (k + 1) ∧ ¬ A.Final v
  · -- the best move leads into the least layer that attracts the position
    classical
    let n := Nat.find hv
    obtain ⟨hmem, hfinal⟩ : v ∈ A.layer (n + 1) ∧ ¬ A.Final v := Nat.find_spec hv
    obtain ⟨j, hj, hattracted⟩ := mem_layer_succ_of_not_final hmem hfinal
    rcases hattracted with ⟨-, u, hu, hmove⟩ | ⟨htwo, -⟩
    · refine ⟨u, hmove, ?_⟩
      intro k hk hnot
      have hleast : n ≤ k := Nat.find_min' hv ⟨hk, hnot⟩
      exact A.layer_mono (hj.trans hleast) hu
    · rw [howner] at htwo
      cases htwo
  · exact ⟨w, h, fun k hk hnot => absurd ⟨k, hk, hnot⟩ hv⟩

/-- Where player two can move, some move delays the visit of a final position, once the layers are
settled. -/
theorem exists_delays (hsettled : A.Settled n) (howner : A.owner? v = some .two)
    (h : A.Moves v w) : ∃ u, A.Moves v u ∧ A.Delays v u := by
  by_cases hall : ∃ m, ∀ u, A.Moves v u → u ∈ A.layer m
  · classical
    let m := Nat.find hall
    have hm : ∀ u, A.Moves v u → u ∈ A.layer m := Nat.find_spec hall
    have hv : v ∈ A.layer (m + 1) := Or.inr (Or.inr ⟨howner, ⟨w, h⟩, hm⟩)
    -- some move leads into no layer before the one that all moves lead into
    have hfar : ∃ u, A.Moves v u ∧ ∀ k, u ∈ A.layer k → m ≤ k := by
      by_contra hnone
      push Not at hnone
      obtain ⟨k, -, hk⟩ := hnone w h
      have hlt : m - 1 < m := by omega
      apply Nat.find_min hall hlt
      intro u hu
      obtain ⟨k', hmem, hk'⟩ := hnone u hu
      have hle : k' ≤ m - 1 := by omega
      exact A.layer_mono hle hmem
    obtain ⟨u, hu, hleast⟩ := hfar
    refine ⟨u, hu, ?_⟩
    intro k hk
    have hle : m + 1 ≤ k + 1 := by
      have hm := hleast k hk
      omega
    exact A.layer_mono hle hv
  · push Not at hall
    obtain ⟨u, hu, hout⟩ := hall n
    exact ⟨u, hu, fun k hk => absurd (hsettled.subset k hk) hout⟩

/-- A strategy of player one without memory that always approaches the final positions. -/
theorem exists_approaching (A : Arena) :
    ∃ σ : A.Strategy .one, σ.Memoryless ∧
      ∀ past v u, A.owner? v = some .one → A.Moves v u → A.Approaches v (σ.choose past v) :=
  exists_memoryless A.Approaches fun _ _ => exists_approaches

/-- A strategy of player two without memory that always delays the visit of a final position. -/
theorem exists_delaying (hsettled : A.Settled n) :
    ∃ τ : A.Strategy .two, τ.Memoryless ∧
      ∀ past v u, A.owner? v = some .two → A.Moves v u → A.Delays v (τ.choose past v) :=
  exists_memoryless A.Delays fun _ _ => exists_delays hsettled

/-! ### What layers mean -/

/-- A play in which player one approaches the final positions visits one within as many moves as
the number of its layer. -/
theorem visits_of_mem_layer {σ : A.Strategy .one} {π : A.Play}
    (hσ : ∀ past v u, A.owner? v = some .one → A.Moves v u → A.Approaches v (σ.choose past v))
    (hπ : σ.Governs π) {i : ℕ} (hv : π.position i = some v) (hk : v ∈ A.layer k) :
    π.VisitsWithin (i + k) := by
  induction k generalizing i v with
  | zero => exact ⟨i, by omega, v, hv, hk⟩
  | succ k ih =>
    by_cases hfinal : A.Final v
    · exact ⟨i, by omega, v, hv, hfinal⟩
    -- the play goes on, and leads a layer down whoever moves
    have hnext : ∃ u, π.position (i + 1) = some u ∧ u ∈ A.layer k := by
      obtain ⟨j, hj, ⟨howner, w, -, hmove⟩ | ⟨-, ⟨w, hmove⟩, hall⟩⟩ :=
        mem_layer_succ_of_not_final hk hfinal
      · obtain ⟨u, hu⟩ := π.goesOn i v w hv hmove
        rw [hπ i v u hv howner hu] at hu
        exact ⟨_, hu, hσ (π.past i) v w howner hmove k hk hfinal⟩
      · obtain ⟨u, hu⟩ := π.goesOn i v w hv hmove
        exact ⟨u, hu, A.layer_mono hj (hall u (π.moves i v u hv hu))⟩
    obtain ⟨u, hu, hlayer⟩ := hnext
    -- what is left is a play from the next position, one move later
    have hwithin := ih hu hlayer
    have hsum : i + 1 + k = i + (k + 1) := by omega
    rwa [hsum] at hwithin

/-- A play in which player two delays the visit comes to a layer only from as many layers above it
as it has taken moves. -/
theorem mem_layer_of_position (howned : A.Owned) {τ : A.Strategy .two} {π : A.Play}
    (hτ : ∀ past v u, A.owner? v = some .two → A.Moves v u → A.Delays v (τ.choose past v))
    (hπ : τ.Governs π) (hv : π.position 0 = some v) {i : ℕ} (hw : π.position i = some w)
    (hk : w ∈ A.layer k) : v ∈ A.layer (k + i) := by
  induction i generalizing w k with
  | zero =>
    rw [hv] at hw
    exact (Option.some.inj hw) ▸ hk
  | succ i ih =>
    obtain ⟨u, hu⟩ : ∃ u, π.position i = some u := by
      apply Option.ne_none_iff_exists'.mp
      intro hnone
      rw [π.ended i hnone] at hw
      cases hw
    have hmove := π.moves i u w hu hw
    have hup : u ∈ A.layer (k + 1) := by
      obtain ⟨player, hplayer⟩ := howned u w hmove
      cases player with
      | one => exact Or.inr (Or.inl ⟨hplayer, w, hk, hmove⟩)
      | two =>
        have hchosen := hπ i u w hu hplayer hw
        exact hτ (π.past i) u w hplayer hmove k (hchosen ▸ hk)
    have hstart := ih hu hup
    have hsum : k + 1 + i = k + (i + 1) := by omega
    rwa [hsum] at hstart

/-- **The layers are what player one can force.** -/
theorem mem_layer_iff (howned : A.Owned) (hsettled : A.Settled n) :
    v ∈ A.layer k ↔ A.Forces k v := by
  constructor
  · intro hk
    obtain ⟨σ, -, hσ⟩ := A.exists_approaching
    refine ⟨σ, ?_⟩
    intro π hv hπ
    have hwithin := visits_of_mem_layer hσ hπ hv hk
    rwa [Nat.zero_add] at hwithin
  · rintro ⟨σ, hσ⟩
    obtain ⟨τ, -, hτ⟩ := exists_delaying hsettled
    obtain ⟨π, hstart, hone, htwo⟩ := exists_play σ τ howned v
    obtain ⟨i, hi, u, hu, hfinal⟩ := hσ π hstart hone
    -- the final position that is visited at time `i` is in layer `0`
    have hmem := mem_layer_of_position howned hτ htwo hstart hu (final_mem_layer hfinal 0)
    rw [Nat.zero_add] at hmem
    exact A.layer_mono hi hmem

/-- The layers are settled iff one more move does not let player one force more. -/
theorem settled_iff (howned : A.Owned) (hsettled : A.Settled n) :
    A.Settled k ↔ ∀ v, A.Forces (k + 1) v → A.Forces k v := by
  simp only [← mem_layer_iff howned hsettled]
  exact settled_iff_subset

/-! ### The last layer -/

/-- The number of rounds after which no position is attracted. -/
noncomputable def depth (A : Arena) : ℕ := sInf {n | A.Settled n}

theorem Settled.depth (h : A.Settled n) : A.Settled A.depth :=
  Nat.sInf_mem (s := {n | A.Settled n}) ⟨n, h⟩

theorem Settled.depth_le (h : A.Settled n) : A.depth ≤ n := Nat.sInf_le h

theorem not_settled_of_lt_depth (h : n < A.depth) : ¬ A.Settled n := Nat.notMem_of_lt_sInf h

/-- The last layer is all that player one can force. -/
theorem mem_layer_depth_iff (howned : A.Owned) (h : A.Settled n) :
    v ∈ A.layer A.depth ↔ ∃ k, A.Forces k v := by
  simp only [← mem_layer_iff howned h]
  constructor
  · intro hv
    exact ⟨A.depth, hv⟩
  · rintro ⟨k, hv⟩
    exact h.depth.subset k hv

/-- The distance is the number of the first layer. -/
theorem distance_eq (howned : A.Owned) (h : A.Settled n) (v : VertexId) :
    A.distance v = sInf {k | v ∈ A.layer k} := by
  unfold distance
  congr 1
  ext k
  exact (mem_layer_iff howned h).symm

/-- The greatest distance is the number of the last layer. -/
theorem sup_distance (howned : A.Owned) (h : A.Settled n) {S : Finset VertexId}
    (hS : ∀ v, v ∈ S ↔ v ∈ A.layer A.depth) : S.sup A.distance = A.depth := by
  apply le_antisymm
  · apply Finset.sup_le
    intro v hv
    rw [distance_eq howned h]
    exact Nat.sInf_le ((hS v).mp hv)
  · rcases Nat.eq_zero_or_pos A.depth with hzero | hpos
    · rw [hzero]
      exact Nat.zero_le _
    -- the last layer holds a vertex that is in none before
    obtain ⟨d, hd⟩ : ∃ d, A.depth = d + 1 := ⟨A.depth - 1, by omega⟩
    have hgrows : ¬ A.Settled d := not_settled_of_lt_depth (by omega)
    obtain ⟨v, hv, hout⟩ : ∃ v ∈ A.layer (d + 1), v ∉ A.layer d := by
      by_contra hnone
      push Not at hnone
      exact hgrows (settled_iff_subset.mpr hnone)
    have hmem : v ∈ S := (hS v).mpr (hd ▸ hv)
    refine le_trans ?_ (Finset.le_sup hmem)
    rw [distance_eq howned h, hd]
    refine le_csInf ⟨d + 1, hv⟩ ?_
    intro k hk
    by_contra hlt
    have hle : k ≤ d := by omega
    exact hout (A.layer_mono hle hk)

end Arena

end GraphGames
