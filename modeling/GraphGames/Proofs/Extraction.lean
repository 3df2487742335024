import GraphGames.Proofs.Acceptance

/-!
# What is read of a graph for a problem

A problem is read from the columns of a graph, slot by slot, without the checks that come with reading
a value. Columns have as many cells as there are slots, so nothing is missed, and slots of vertices
that are gone are passed over. What is read is what the graph answers.

The types of the columns are looked at for each vertex, not once for the graph. A graph that declares
them with other types is refused for its lowest vertex, and for nothing else.

* `Problem.Reads`: what a problem says of the turns and the final vertices of a graph;
* `Problem.exists_ofGraph_iff`, `Problem.ofGraph_eq_error_iff`: when a problem can be read, and which
  error there is otherwise;
* `Graph.Reachable.problem_read`: all of it, after every history;
* `Problem.refusal`, `Problem.role_eq_refusal`: how a vertex is refused when the columns have other
  types;
* `Graph.Lowest`, `Problem.ofGraph_of_role`: which vertex it is that a graph is refused for;
* `Graph.Reachable.problem_mistyped`: when a graph with such columns is refused.
-/

namespace GraphGames

namespace Problem

variable {g : Graph} {p : Problem}

/-- What a problem says of a graph: the player that is given by the turn of a vertex, for the vertices
of the graph and no others, and the vertices that are marked as final. -/
structure Reads (g : Graph) (p : Problem) : Prop where
  graph : p.graph = g
  owned : ∀ v, (∃ player, p.owner? v = some player) ↔ g.containsVertex v
  owner : ∀ v player,
    p.owner? v = some player ↔ g.value (.vertex v) turnProperty = .ok (.int player.turn)
  final : ∀ v, v ∈ p.finals ↔ g.value (.vertex v) isFinalProperty = .ok (.bool true)

theorem Declared.reads (h : p.Declared g) : p.Reads g where
  graph := h.graph
  owned v := by
    rw [h.owner]
    constructor
    · rintro ⟨player, howner⟩
      exact Graph.contains_of_owner howner
    · exact h.owned v
  owner v player := by rw [h.owner, Graph.owner?_eq_some_iff]
  final v := by rw [h.final, Graph.isFinal_iff]

section

variable (haligned : g.Aligned) (hturn : g.propertyType .vertex turnProperty = .ok .int)
  (hfinal : g.propertyType .vertex isFinalProperty = .ok .bool)
include haligned hturn hfinal

/-- A problem can be read iff every vertex belongs to a player. -/
theorem exists_ofGraph_iff : (∃ p, ofGraph g = .ok p) ↔ ∀ v, g.containsVertex v →
    ∃ turn, g.value (.vertex v) turnProperty = .ok (.int turn) ∧ (turn = 1 ∨ turn = 2) := by
  constructor
  · rintro ⟨p, hp⟩ v hv
    obtain ⟨player, howner⟩ := (declared_of_ofGraph hp).owned v hv
    refine ⟨player.turn, Graph.owner?_eq_some_iff.mp howner, ?_⟩
    cases player with
    | one => exact .inl rfl
    | two => exact .inr rfl
  · intro howned
    apply exists_ofGraph haligned hturn hfinal
    intro v hv
    obtain ⟨turn, hvalue, rfl | rfl⟩ := howned v hv
    · exact ⟨.one, Graph.owner?_of_value hvalue⟩
    · exact ⟨.two, Graph.owner?_of_value hvalue⟩

/-- Otherwise the first vertex that belongs to neither player is reported. -/
theorem ofGraph_eq_error_iff {e : Error} :
    ofGraph g = .error e ↔ ∃ v turn, g.FirstStray v turn ∧ e = .invalidTurn v turn := by
  constructor
  · intro he
    rcases Graph.owned_or_stray hturn with howned | ⟨v, turn, hstray⟩
    · obtain ⟨p, hp⟩ := exists_ofGraph haligned hturn hfinal howned
      rw [hp] at he
      cases he
    · rw [ofGraph_of_stray haligned hturn hfinal hstray] at he
      exact ⟨v, turn, hstray, (Except.error.inj he).symm⟩
  · rintro ⟨v, turn, hstray, rfl⟩
    exact ofGraph_of_stray haligned hturn hfinal hstray

end

end Problem

namespace Graph

variable {g : Graph}

/-- **What is read of a graph for a problem is what the graph answers**, whatever its history, if turns
are declared as integers and final vertices by truth values. It can be read iff every vertex has turn
`1` or `2`. Otherwise the lowest vertex that has not is named, with its turn, and there is no other
error. -/
theorem Reachable.problem_read (h : g.Reachable)
    (hturn : g.propertyType .vertex turnProperty = .ok .int)
    (hfinal : g.propertyType .vertex isFinalProperty = .ok .bool) :
    ((∃ p, Problem.ofGraph g = .ok p) ↔ ∀ v, g.containsVertex v →
      ∃ turn, g.value (.vertex v) turnProperty = .ok (.int turn) ∧ (turn = 1 ∨ turn = 2)) ∧
    (∀ p, Problem.ofGraph g = .ok p → p.Reads g) ∧
    ∀ e, Problem.ofGraph g = .error e ↔
      ∃ v turn, g.FirstStray v turn ∧ e = .invalidTurn v turn := by
  refine ⟨?_, ?_, ?_⟩
  · exact Problem.exists_ofGraph_iff h.aligned hturn hfinal
  · intro p hp
    exact (Problem.declared_of_ofGraph hp).reads
  · intro e
    exact Problem.ofGraph_eq_error_iff h.aligned hturn hfinal

/-- Turns and final vertices are declared after the vertices, and one of the vertices is gone. -/
def late : Graph :=
  empty.after [.addVertices 3, .declare .vertex turnProperty .int,
    .declare .vertex isFinalProperty .bool, .removeVertex ⟨1⟩,
    .setValue 0 (.vertex ⟨0⟩) turnProperty (.int 1), .setValue 0 (.vertex ⟨2⟩) turnProperty (.int 2),
    .setValue 0 (.vertex ⟨2⟩) isFinalProperty (.bool true)]

/-- The slot of the vertex that is gone has no turn that could be read. Once it is used again, it has to
have one. -/
theorem late_problem_read :
    (∃ p, Problem.ofGraph late = .ok p ∧ p.Reads late ∧ p.owner? ⟨0⟩ = some .one ∧
      p.owner? ⟨1⟩ = none ∧ p.owner? ⟨2⟩ = some .two ∧ ⟨0⟩ ∉ p.finals ∧ ⟨2⟩ ∈ p.finals) ∧
    Problem.ofGraph (late.after [.addVertex]) = .error (.invalidTurn ⟨1⟩ 0) := by
  have hlate : late.Reachable := Reachable.empty.after _
  obtain ⟨-, hreads, -⟩ := hlate.problem_read rfl rfl
  obtain ⟨-, -, herror⟩ := (hlate.after [.addVertex]).problem_read rfl rfl
  constructor
  · obtain ⟨p, hp⟩ := exists_ok_of_isSome (show (Problem.ofGraph late).toOption.isSome by decide +kernel)
    have hp' := hreads p hp
    refine ⟨p, hp, hp', ?_, ?_, ?_, ?_, ?_⟩
    · exact (hp'.owner ⟨0⟩ .one).mpr rfl
    · rw [Option.eq_none_iff_forall_ne_some]
      intro player howner
      exact absurd ((hp'.owned ⟨1⟩).mp ⟨player, howner⟩) (by decide +kernel)
    · exact (hp'.owner ⟨2⟩ .two).mpr rfl
    · rw [hp'.final]
      intro hfinal
      cases hfinal
    · exact (hp'.final ⟨2⟩).mpr rfl
  · refine (herror _).mpr ⟨⟨1⟩, 0, ⟨?_, ?_, ?_, ?_⟩, rfl⟩
    · decide +kernel
    · rfl
    · decide
    · rintro ⟨i⟩ hw hlt
      obtain rfl : i = 0 := by simpa using hlt
      exact ⟨.one, rfl⟩

end Graph

/-! ### Columns of other types -/

namespace Graph

variable {g : Graph} {v w : VertexId}

/-- No vertex is below this one. -/
structure Lowest (g : Graph) (v : VertexId) : Prop where
  contains : g.containsVertex v
  le : ∀ w, g.containsVertex w → v.index ≤ w.index

theorem Lowest.unique (h : g.Lowest v) (h' : g.Lowest w) : v = w := by
  have hle := h.le w h'.contains
  have hge := h'.le v h.contains
  exact VertexId.ext (Nat.le_antisymm hle hge)

/-- The first of the vertices is the lowest, as they are listed in ascending order. -/
theorem lowest_of_vertices {rest : List VertexId} (h : g.vertices = v :: rest) : g.Lowest v where
  contains := by
    rw [← mem_vertices, h]
    exact List.mem_cons_self
  le w hw := by
    have hpairwise := g.pairwise_vertices
    rw [← mem_vertices, h] at hw
    rw [h] at hpairwise
    rcases List.mem_cons.mp hw with rfl | hmem
    · exact Nat.le_refl _
    · exact Nat.le_of_lt (List.rel_of_pairwise_cons hpairwise hmem)

end Graph

namespace Column

variable {c : Column}

/-- A column of another type holds no integers. -/
theorem int?_eq_none (h : c.type ≠ .int) (i : Nat) : c.int? i = none := by
  by_contra hsome
  obtain ⟨n, hn⟩ := Option.ne_none_iff_exists'.mp hsome
  obtain ⟨value, hvalue, hint⟩ := Option.bind_eq_some_iff.mp hn
  obtain rfl := Value.eq_int_of_int? hint
  exact h (type_of_get? hvalue).symm

/-- A column of another type holds no truth values. -/
theorem bool?_eq_none (h : c.type ≠ .bool) (i : Nat) : c.bool? i = none := by
  by_contra hsome
  obtain ⟨b, hb⟩ := Option.ne_none_iff_exists'.mp hsome
  obtain ⟨value, hvalue, hbool⟩ := Option.bind_eq_some_iff.mp hb
  obtain rfl := Value.eq_bool_of_bool? hbool
  exact h (type_of_get? hvalue).symm

end Column

namespace Problem

variable {g : Graph} {v : VertexId} {turns isFinal : Column} {turn : Value} {e : Error}

/-- The error for a vertex with this turn, if turns are no integers or final vertices are not declared
by truth values. The turn is looked at first. -/
def refusal (v : VertexId) : Value → Error
  | .int turn =>
    if turn = 1 ∨ turn = 2 then .invalidGame isFinalProperty .unreadable else .invalidTurn v turn
  | _ => .invalidGame turnProperty .unreadable

theorem refusal_of_owned {i : Int64} (h : i = 1 ∨ i = 2) :
    refusal v (.int i) = .invalidGame isFinalProperty .unreadable := if_pos h

theorem refusal_of_stray {i : Int64} (h : i ≠ 1 ∧ i ≠ 2) :
    refusal v (.int i) = .invalidTurn v i := if_neg (not_or.mpr h)

theorem refusal_of_type (h : turn.type ≠ .int) :
    refusal v turn = .invalidGame turnProperty .unreadable := by
  obtain ⟨type, datum⟩ := turn
  cases type with
  | int => exact absurd rfl h
  | bool => rfl
  | float => rfl
  | string => rfl
  | object => rfl

/-- A vertex whose columns have other types is refused. -/
theorem role_eq_refusal (haligned : g.Aligned)
    (hturns : g.properties.column? .vertex turnProperty = some turns)
    (htypes : turns.type ≠ .int ∨ isFinal.type ≠ .bool)
    (hvalue : g.value (.vertex v) turnProperty = .ok turn) :
    role turns isFinal v = .error (refusal v turn) := by
  have hread := hvalue
  rw [Graph.value_of_contains hturns (Graph.contains_of_value_eq_ok hvalue)] at hread
  have htype : turn.type = turns.type := by
    rw [← Except.ok.inj hread, Column.type_getD]
  unfold role
  by_cases hint : turns.type = .int
  · have hfinal := Column.bool?_eq_none (htypes.resolve_left (not_not.mpr hint)) v.index
    obtain ⟨i, rfl⟩ : ∃ i : Int64, turn = .int i := Value.exists_of_type (htype.trans hint)
    have hcell : turns.int? v.index = some i := haligned.int?_of_value hvalue hturns
    rw [hcell]
    cases howner : Player.ofTurn? i with
    | none =>
      rw [refusal_of_stray (Player.ofTurn?_eq_none_iff.mp howner)]
      simp only [howner]
      rfl
    | some player =>
      have howned : i = 1 ∨ i = 2 := by
        rw [Player.ofTurn?_eq_some_iff.mp howner]
        cases player with
        | one => exact .inl rfl
        | two => exact .inr rfl
      rw [refusal_of_owned howned]
      simp only [howner, hfinal]
      rfl
  · rw [Column.int?_eq_none hint, refusal_of_type (htype ▸ hint)]
    rfl

/-- A graph is refused for the first vertex that is. -/
theorem ofGraph_of_role {rest : List VertexId}
    (hturns : g.properties.column? .vertex turnProperty = some turns)
    (hfinal : g.properties.column? .vertex isFinalProperty = some isFinal)
    (hvertices : g.vertices = v :: rest) (h : role turns isFinal v = .error e) :
    ofGraph g = .error e := by
  have hroles : (g.vertices.mapM fun v => return (v, ← role turns isFinal v)) = .error e := by
    rw [hvertices, ← List.nil_append (v :: rest)]
    refine mapM_eq_error (fun w hw => absurd hw List.not_mem_nil) ?_
    rw [h]
    rfl
  unfold ofGraph
  rw [Properties.column_eq_ok_iff.mpr hturns, Properties.column_eq_ok_iff.mpr hfinal]
  show (g.vertices.mapM (fun v => return (v, ← role turns isFinal v)) >>= fun _ => _) = _
  rw [hroles]
  rfl

/-- A graph without vertices is not refused, whatever the types of its columns. -/
theorem exists_ofGraph_of_vertices_eq_nil
    (hturns : g.properties.column? .vertex turnProperty = some turns)
    (hfinal : g.properties.column? .vertex isFinalProperty = some isFinal)
    (hvertices : g.vertices = []) : ∃ p, ofGraph g = .ok p := by
  unfold ofGraph
  rw [Properties.column_eq_ok_iff.mpr hturns, Properties.column_eq_ok_iff.mpr hfinal, hvertices]
  exact ⟨_, rfl⟩

end Problem

/-- **A graph whose turns are no integers, or whose final vertices are not declared by truth values, is
refused iff it has a vertex**, whatever its history. The types are looked at with the lowest vertex, and
its turn decides on the error. Without a vertex nothing looks at them, and the problem that is read has
neither owners nor final vertices. -/
theorem Graph.Reachable.problem_mistyped {g : Graph} (h : g.Reachable)
    {turnType finalType : ValueType}
    (hturn : g.propertyType .vertex turnProperty = .ok turnType)
    (hfinal : g.propertyType .vertex isFinalProperty = .ok finalType)
    (htypes : turnType ≠ .int ∨ finalType ≠ .bool) :
    ((∃ e, Problem.ofGraph g = .error e) ↔ ∃ v, g.containsVertex v) ∧
    (∀ e, Problem.ofGraph g = .error e ↔ ∃ v turn, g.Lowest v ∧
      g.value (.vertex v) turnProperty = .ok turn ∧ e = Problem.refusal v turn) ∧
    ∀ p, Problem.ofGraph g = .ok p →
      p.graph = g ∧ (∀ v, p.owner? v = none) ∧ ∀ v, v ∉ p.finals := by
  obtain ⟨turns, hturns, rfl⟩ := propertyType_eq_ok_iff.mp hturn
  obtain ⟨isFinal, hisFinal, rfl⟩ := propertyType_eq_ok_iff.mp hfinal
  cases hvertices : g.vertices with
  | nil =>
    have hnone (v : VertexId) : ¬ g.containsVertex v := by
      rw [← mem_vertices, hvertices]
      exact List.not_mem_nil
    obtain ⟨p, hp⟩ := Problem.exists_ofGraph_of_vertices_eq_nil hturns hisFinal hvertices
    have hdeclared := Problem.declared_of_ofGraph hp
    rw [hp]
    refine ⟨iff_of_false ?_ ?_, fun e => iff_of_false ?_ ?_, ?_⟩
    · rintro ⟨e, he⟩
      cases he
    · rintro ⟨v, hv⟩
      exact hnone v hv
    · intro he
      cases he
    · rintro ⟨v, turn, hlowest, -⟩
      exact hnone v hlowest.contains
    · rintro q hq
      obtain rfl := Except.ok.inj hq
      refine ⟨hdeclared.graph, fun v => ?_, fun v hv => ?_⟩
      · rw [hdeclared.owner, Option.eq_none_iff_forall_ne_some]
        intro player howner
        exact hnone v (contains_of_owner howner)
      · exact hnone v (contains_of_isFinal ((hdeclared.final v).mp hv))
  | cons v rest =>
    have hlowest := lowest_of_vertices hvertices
    have hvalue := value_of_contains hturns hlowest.contains
    have herror := Problem.ofGraph_of_role hturns hisFinal hvertices
      (Problem.role_eq_refusal h.aligned hturns htypes hvalue)
    rw [herror]
    refine ⟨iff_of_true ⟨_, rfl⟩ ⟨v, hlowest.contains⟩, fun e => ⟨?_, ?_⟩, ?_⟩
    · intro he
      exact ⟨v, _, hlowest, hvalue, (Except.error.inj he).symm⟩
    · rintro ⟨w, turn, hw, hturn, rfl⟩
      obtain rfl := hlowest.unique hw
      rw [Except.ok.inj (hvalue.symm.trans hturn)]
    · intro p hp
      cases hp

namespace Graph

/-- Turns are declared as texts, and the only vertex there was is gone. -/
def deserted : Graph :=
  empty.after [.declare .vertex turnProperty .string, .declare .vertex isFinalProperty .bool,
    .addVertex, .removeVertex ⟨0⟩]

/-- A graph whose turns are texts is not refused when it has no vertices. -/
theorem deserted_problem : deserted.Reachable ∧
    deserted.propertyType .vertex turnProperty = .ok .string ∧
    deserted.propertyType .vertex isFinalProperty = .ok .bool ∧
    ∃ p, Problem.ofGraph deserted = .ok p := by
  refine ⟨Reachable.empty.after _, rfl, rfl, ?_⟩
  exact exists_ok_of_isSome (by decide +kernel)

/-- Turns are as they should be, but final vertices are declared by integers. -/
def graded : Graph :=
  empty.after [.addVertices 2, .declare .vertex turnProperty .int,
    .declare .vertex isFinalProperty .int, .setValue 0 (.vertex ⟨0⟩) turnProperty (.int 2)]

/-- With a vertex, a graph is refused, for the type of the turns or for that of the final vertices. -/
theorem refused_problem_mistyped :
    Problem.ofGraph (deserted.after [.addVertex]) =
      .error (.invalidGame turnProperty .unreadable) ∧
    Problem.ofGraph graded = .error (.invalidGame isFinalProperty .unreadable) := by
  have hdeserted : deserted.Reachable := Reachable.empty.after _
  have hgraded : graded.Reachable := Reachable.empty.after _
  obtain ⟨-, hturns, -⟩ := (hdeserted.after [.addVertex]).problem_mistyped rfl rfl
    (.inl (by decide))
  obtain ⟨-, hfinals, -⟩ := hgraded.problem_mistyped rfl rfl (.inr (by decide))
  constructor
  · refine (hturns _).mpr ⟨⟨0⟩, .string "", ⟨?_, fun w _ => Nat.zero_le _⟩, rfl, rfl⟩
    decide +kernel
  · refine (hfinals _).mpr ⟨⟨0⟩, .int 2, ⟨?_, fun w _ => Nat.zero_le _⟩, rfl, rfl⟩
    decide +kernel

end Graph

end GraphGames
