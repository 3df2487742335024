import GraphGames.Attractor.Problem
import GraphGames.Proofs.Adjacency
import GraphGames.Proofs.Arena
import GraphGames.Proofs.Frame

/-!
# The game that a graph declares

A graph declares a game by its edges and two vertex properties. What an attractor is computed from
is read from the columns of these properties; here it is compared with their values.

* `Graph.isFinal`, `Graph.owner?`, `Graph.arena`: the game, read from the values;
* `Graph.Lists.contains_of_mem_layer`, `Graph.Lists.settled`: the layers of the game stay within the
  graph, so they settle;
* `Problem.Declared`, `Problem.declared_of_ofGraph`: the problem that is read from a graph is about
  its game, and every vertex has an owner;
* `Problem.exists_ofGraph`: the problem can be read wherever the values are as they should be.
-/

namespace GraphGames

namespace Graph

variable {g : Graph} {es : List Edge} {u v w : VertexId}

/-- Whether a vertex of the graph is declared to be final. -/
def isFinal (g : Graph) (v : VertexId) : Bool :=
  match g.value (.vertex v) isFinalProperty with
  | .ok (.bool b) => b
  | _ => false

/-- The player who is declared to move at a vertex of the graph. -/
def owner? (g : Graph) (v : VertexId) : Option Player :=
  match g.value (.vertex v) turnProperty with
  | .ok (.int turn) => Player.ofTurn? turn
  | _ => none

/-- The game that a graph declares. -/
def arena (g : Graph) : Arena where
  Moves v w := ∃ e ∈ g.edges, e.source = v ∧ e.target = w
  owner? := g.owner?
  Final v := g.isFinal v

/-- The value at a vertex of the graph is that in its cell. -/
theorem value_of_contains {name : String} {c : Column}
    (hc : g.properties.column? .vertex name = some c) (hv : g.containsVertex v) :
    g.value (.vertex v) name = .ok (c.getD v.index) := value_of_column? hc hv

theorem isFinal_iff : g.isFinal v ↔ g.value (.vertex v) isFinalProperty = .ok (.bool true) := by
  constructor
  · intro h
    unfold isFinal at h
    split at h
    · next b hvalue =>
      obtain rfl : b = true := h
      exact hvalue
    · cases h
  · intro h
    unfold isFinal
    rw [h]

theorem owner?_of_value {turn : Int64} (h : g.value (.vertex v) turnProperty = .ok (.int turn)) :
    g.owner? v = Player.ofTurn? turn := by
  unfold owner?
  rw [h]

theorem owner?_eq_some_iff {player : Player} :
    g.owner? v = some player ↔ g.value (.vertex v) turnProperty = .ok (.int player.turn) := by
  constructor
  · intro h
    unfold owner? at h
    split at h
    · next turn hvalue =>
      rw [hvalue, Player.ofTurn?_eq_some_iff.mp h]
      rfl
    · cases h
  · intro h
    rw [owner?_of_value h, Player.ofTurn?_turn]

theorem contains_of_isFinal (h : g.isFinal v) : g.containsVertex v :=
  contains_of_value_eq_ok (isFinal_iff.mp h)

theorem contains_of_owner {player : Player} (h : g.owner? v = some player) :
    g.containsVertex v :=
  contains_of_value_eq_ok (owner?_eq_some_iff.mp h)

/-! ### The layers of a graph -/

/-- The number of final vertices. -/
def numFinals (g : Graph) : Nat := (g.vertices.filter g.isFinal).length

theorem Lists.contains_of_moves (h : g.Lists es) (hmove : g.arena.Moves v w) :
    g.containsVertex v ∧ g.containsVertex w := by
  obtain ⟨e, he, rfl, rfl⟩ := hmove
  exact h.ends e ((h.mem_edges_iff e).mp he)

theorem Lists.mem_sources_iff_moves (h : g.Lists es) : v ∈ g.sources w ↔ g.arena.Moves v w :=
  h.mem_sources

theorem Lists.mem_targets_iff_moves (h : g.Lists es) : w ∈ g.targets v ↔ g.arena.Moves v w :=
  h.mem_targets

/-- Only vertices of the graph are attracted. -/
theorem Lists.contains_of_mem_layer (h : g.Lists es) {k : ℕ} (hv : v ∈ g.arena.layer k) :
    g.containsVertex v := by
  induction k with
  | zero => exact contains_of_isFinal hv
  | succ k ih =>
    rcases hv with hv | ⟨-, w, -, hmove⟩ | ⟨-, ⟨w, hmove⟩, -⟩
    · exact ih hv
    · exact (h.contains_of_moves hmove).1
    · exact (h.contains_of_moves hmove).1

/-- No vertex is attracted after as many rounds as there are vertices that are not final. -/
theorem Lists.settled (h : g.Lists es) : g.arena.Settled (g.numVertices - g.numFinals) := by
  have hmem (k : ℕ) : g.arena.layer k ⊆ (g.vertices.toFinset : Set VertexId) := by
    intro v hv
    rw [List.coe_toFinset]
    exact mem_vertices.mpr (h.contains_of_mem_layer hv)
  have hfinals : g.arena.layer 0 = ((g.vertices.filter g.isFinal).toFinset : Set VertexId) := by
    ext v
    rw [List.coe_toFinset]
    show g.isFinal v = true ↔ v ∈ g.vertices.filter g.isFinal
    rw [List.mem_filter, mem_vertices]
    exact ⟨fun hv => ⟨contains_of_isFinal hv, hv⟩, fun hv => hv.2⟩
  have hsettled := Arena.settled_of_subset (Finset.finite_toSet _) hmem
  rw [hfinals, Set.ncard_coe_finset, Set.ncard_coe_finset,
    List.toFinset_card_of_nodup g.nodup_vertices,
    List.toFinset_card_of_nodup (g.nodup_vertices.filter _), h.length_vertices] at hsettled
  exact hsettled

/-- There are no more layers than vertices. -/
theorem Lists.depth_le (h : g.Lists es) : g.arena.depth ≤ g.numVertices :=
  h.settled.depth_le.trans (Nat.sub_le _ _)

end Graph

/-! ### Problems -/

namespace Problem

variable {g : Graph} {p : Problem} {v : VertexId}

/-- The problem is about the game of a graph, in which every vertex has an owner. -/
structure Declared (g : Graph) (p : Problem) : Prop where
  graph : p.graph = g
  owner : ∀ v, p.owner? v = g.owner? v
  final : ∀ v, v ∈ p.finals ↔ g.isFinal v
  owned : ∀ v, g.containsVertex v → ∃ player, g.owner? v = some player

theorem role_eq_ok_iff {turn isFinal : Column} {owner : Player} {final : Bool} :
    role turn isFinal v = .ok (owner, final) ↔
      (∃ value, turn.int? v.index = some value ∧ Player.ofTurn? value = some owner) ∧
        isFinal.bool? v.index = some final := by
  unfold role
  cases ht : turn.int? v.index with
  | none => simp
  | some value =>
    cases ho : Player.ofTurn? value with
    | none => simp [ho]
    | some owner' =>
      cases hf : isFinal.bool? v.index with
      | none => simp [ho, throw, throwThe, MonadExceptOf.throw]
      | some final' => simp [ho, pure, Except.pure]

/-- A vertex is refused for a column that cannot be read, or for its turn. -/
theorem of_role_eq_error {turn isFinal : Column} {e : Error} (h : role turn isFinal v = .error e) :
    (e = .invalidGame turnProperty .unreadable ∧ turn.int? v.index = none) ∨
      (∃ value, e = .invalidTurn v value) ∨
      (e = .invalidGame isFinalProperty .unreadable ∧ isFinal.bool? v.index = none) := by
  unfold role at h
  cases hturn : turn.int? v.index with
  | none =>
    rw [hturn] at h
    exact .inl ⟨(Except.error.inj h).symm, rfl⟩
  | some value =>
  cases howner : Player.ofTurn? value with
  | none =>
    simp only [hturn, howner] at h
    exact .inr (.inl ⟨value, (Except.error.inj h).symm⟩)
  | some owner =>
  cases hfinal : isFinal.bool? v.index with
  | none =>
    simp only [hturn, howner, hfinal] at h
    exact .inr (.inr ⟨(Except.error.inj h).symm, rfl⟩)
  | some final =>
    simp only [hturn, howner, hfinal] at h
    cases h

end Problem

theorem Value.eq_int_of_int? {value : Value} {i : Int64} (h : value.int? = some i) :
    value = .int i := by
  unfold Value.int? at h
  split at h
  · rw [Option.some.inj h]
    rfl
  · cases h

theorem Value.eq_bool_of_bool? {value : Value} {b : Bool} (h : value.bool? = some b) :
    value = .bool b := by
  unfold Value.bool? at h
  split at h
  · rw [Option.some.inj h]
    rfl
  · cases h

namespace Problem

variable {g : Graph} {p : Problem} {v : VertexId} {turn isFinal : Column}

/-- What is read for a vertex of the graph is declared for it. -/
theorem declared_of_role {owner : Player} {final : Bool}
    (hturn : g.properties.column? .vertex turnProperty = some turn)
    (hfinal : g.properties.column? .vertex isFinalProperty = some isFinal)
    (hv : g.containsVertex v) (h : role turn isFinal v = .ok (owner, final)) :
    g.owner? v = some owner ∧ g.isFinal v = final := by
  obtain ⟨⟨value, hvalue, howner⟩, hb⟩ := role_eq_ok_iff.mp h
  constructor
  · obtain ⟨cell, hcell, hint⟩ := Option.bind_eq_some_iff.mp hvalue
    obtain rfl := Value.eq_int_of_int? hint
    rw [Graph.owner?, Graph.value_of_contains hturn hv, Column.getD, hcell, Option.getD_some]
    exact howner
  · obtain ⟨cell, hcell, hbool⟩ := Option.bind_eq_some_iff.mp hb
    obtain rfl := Value.eq_bool_of_bool? hbool
    rw [Graph.isFinal, Graph.value_of_contains hfinal hv, Column.getD, hcell, Option.getD_some]

/-- The roles that are read, one for each vertex. -/
theorem role_of_mapM {vs : List VertexId} {roles : List (VertexId × Player × Bool)}
    (h : vs.mapM (fun v => return (v, ← role turn isFinal v)) = .ok roles) :
    roles.map Prod.fst = vs ∧ ∀ r ∈ roles, role turn isFinal r.1 = .ok r.2 := by
  have hall := mapM_eq_ok_iff.mp h
  clear h
  induction hall with
  | nil => exact ⟨rfl, by simp⟩
  | @cons v r vs roles hr _ ih =>
    obtain ⟨role', hrole, hpair⟩ := bind_eq_ok_iff.mp hr
    obtain rfl := Except.ok.inj hpair
    exact ⟨congrArg (v :: ·) ih.1, List.forall_mem_cons.mpr ⟨hrole, ih.2⟩⟩

/-- The roles are what the graph declares for its vertices, one for each. -/
structure Roles (g : Graph) (roles : List (VertexId × Player × Bool)) : Prop where
  vertices : roles.map Prod.fst = g.vertices
  owner : ∀ r ∈ roles, g.owner? r.1 = some r.2.1
  final : ∀ r ∈ roles, g.isFinal r.1 = r.2.2

theorem roles_of_mapM {roles : List (VertexId × Player × Bool)}
    (hturn : g.properties.column? .vertex turnProperty = some turn)
    (hfinal : g.properties.column? .vertex isFinalProperty = some isFinal)
    (h : g.vertices.mapM (fun v => return (v, ← role turn isFinal v)) = .ok roles) :
    Roles g roles := by
  obtain ⟨hfst, hrole⟩ := role_of_mapM h
  have hdeclared (r : VertexId × Player × Bool) (hr : r ∈ roles) :
      g.owner? r.1 = some r.2.1 ∧ g.isFinal r.1 = r.2.2 := by
    have hv : g.containsVertex r.1 := by
      rw [← Graph.mem_vertices, ← hfst]
      exact List.mem_map_of_mem hr
    exact declared_of_role hturn hfinal hv (hrole r hr)
  exact ⟨hfst, fun r hr => (hdeclared r hr).1, fun r hr => (hdeclared r hr).2⟩

namespace Roles

variable {roles : List (VertexId × Player × Bool)}

theorem exists_mem (h : Roles g roles) (hv : g.containsVertex v) : ∃ r ∈ roles, r.1 = v := by
  rw [← Graph.mem_vertices, ← h.vertices] at hv
  exact List.mem_map.mp hv

/-- The owners that are kept are those that are declared. -/
theorem getElem?_owners (h : Roles g roles) (v : VertexId) :
    (Std.ExtTreeMap.ofList (roles.map fun r => (r.1, r.2.1)))[v]? = g.owner? v := by
  by_cases hv : g.containsVertex v
  · obtain ⟨r, hr, rfl⟩ := h.exists_mem hv
    rw [h.owner r hr]
    refine Std.ExtTreeMap.getElem?_ofList_of_mem Std.ReflCmp.compare_self ?_
      (List.mem_map_of_mem hr)
    -- a vertex is listed once, so no other entry has its key
    rw [List.pairwise_map]
    have hnodup := List.pairwise_map.mp (h.vertices ▸ g.nodup_vertices : (roles.map Prod.fst).Nodup)
    exact hnodup.imp fun hne heq => hne (Std.LawfulEqOrd.eq_of_compare heq)
  · have hnone : g.owner? v = none := by
      by_contra hsome
      obtain ⟨player, hplayer⟩ := Option.ne_none_iff_exists'.mp hsome
      exact hv (Graph.contains_of_owner hplayer)
    rw [hnone]
    apply Std.ExtTreeMap.getElem?_ofList_of_contains_eq_false
    rw [List.map_map]
    show (roles.map Prod.fst).contains v = false
    rw [h.vertices, ← Bool.not_eq_true, List.contains_iff_mem, Graph.mem_vertices]
    exact hv

/-- The final vertices that are kept are those that are declared. -/
theorem mem_finals (h : Roles g roles) (v : VertexId) :
    v ∈ Std.ExtTreeSet.ofList (roles.filterMap fun r => if r.2.2 then some r.1 else none) ↔
      g.isFinal v := by
  rw [Std.ExtTreeSet.mem_ofList, List.contains_iff_mem, List.mem_filterMap]
  constructor
  · rintro ⟨r, hr, hsome⟩
    obtain ⟨hfinal, hv⟩ := Option.ite_none_right_eq_some.mp hsome
    rw [← Option.some.inj hv, h.final r hr, hfinal]
  · intro hv
    obtain ⟨r, hr, rfl⟩ := h.exists_mem (Graph.contains_of_isFinal hv)
    rw [h.final r hr] at hv
    exact ⟨r, hr, if_pos hv⟩

end Roles

/-- The problem that is read from a graph is about its game. -/
theorem declared_of_ofGraph (h : ofGraph g = .ok p) : p.Declared g := by
  obtain ⟨turn, hturn, h⟩ := bind_eq_ok_iff.mp h
  obtain ⟨isFinal, hfinal, h⟩ := bind_eq_ok_iff.mp h
  obtain ⟨roles, hmapM, h⟩ := bind_eq_ok_iff.mp h
  obtain rfl := Except.ok.inj h
  have hroles := roles_of_mapM (Properties.column_eq_ok_iff.mp hturn)
    (Properties.column_eq_ok_iff.mp hfinal) hmapM
  refine ⟨rfl, hroles.getElem?_owners, hroles.mem_finals, ?_⟩
  intro v hv
  obtain ⟨r, hr, rfl⟩ := hroles.exists_mem hv
  exact ⟨r.2.1, hroles.owner r hr⟩

/-- What is declared for a vertex can be read, as every vertex has its cells. -/
theorem exists_role (h : g.Aligned)
    (hturn : g.properties.column? .vertex turnProperty = some turn)
    (hfinal : g.properties.column? .vertex isFinalProperty = some isFinal)
    (htype : isFinal.type = .bool) {player : Player} (howner : g.owner? v = some player) :
    ∃ r, role turn isFinal v = .ok r := by
  have hvalue := Graph.owner?_eq_some_iff.mp howner
  obtain ⟨b, hb⟩ := h.exists_bool? (Graph.contains_of_value_eq_ok hvalue) hfinal htype
  exact ⟨(player, b), role_eq_ok_iff.mpr
    ⟨⟨player.turn, h.int?_of_value hvalue hturn, player.ofTurn?_turn⟩, hb⟩⟩

/-- The problem can be read from a graph that declares turns and final vertices, if every vertex has an
owner. -/
theorem exists_ofGraph (h : g.Aligned) (hturn : g.propertyType .vertex turnProperty = .ok .int)
    (hfinal : g.propertyType .vertex isFinalProperty = .ok .bool)
    (howned : ∀ v, g.containsVertex v → ∃ player, g.owner? v = some player) :
    ∃ p, ofGraph g = .ok p := by
  obtain ⟨turn, hturn, -⟩ := Graph.propertyType_eq_ok_iff.mp hturn
  obtain ⟨isFinal, hfinal, htype⟩ := Graph.propertyType_eq_ok_iff.mp hfinal
  obtain ⟨roles, hroles⟩ : ∃ roles,
      g.vertices.mapM (fun v => return (v, ← role turn isFinal v)) = .ok roles := by
    apply exists_mapM
    intro v hv
    have hv := Graph.mem_vertices.mp hv
    obtain ⟨player, hplayer⟩ := howned v hv
    obtain ⟨r, hr⟩ := exists_role h hturn hfinal htype hplayer
    exact ⟨(v, r), bind_eq_ok_iff.mpr ⟨r, hr, rfl⟩⟩
  exact ⟨_, bind_eq_ok_iff.mpr ⟨turn, Properties.column_eq_ok_iff.mpr hturn,
    bind_eq_ok_iff.mpr ⟨isFinal, Properties.column_eq_ok_iff.mpr hfinal,
      bind_eq_ok_iff.mpr ⟨roles, hroles, rfl⟩⟩⟩⟩

end Problem

end GraphGames
