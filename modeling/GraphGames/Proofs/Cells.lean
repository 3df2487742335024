import GraphGames.Proofs.Recall
import GraphGames.Proofs.GraphArena
import GraphGames.Proofs.Vacancy

/-!
# Every slot has its cell

Columns are read and written as if they could be too short: reading falls back on the default, writing
adds cells first, and a problem is refused where there is nothing to read. After a history of the empty
graph none of this comes about, as columns have just as many cells as there are slots, and those of free
slots are unset.

* `Column.grow_of_le`: no cells are added where there are enough;
* `Graph.Aligned.column?_size_setValue`: a setting adds no cells;
* `Graph.Aligned.turn_readable`, `Graph.Aligned.isFinal_readable`: a problem is not refused for a column
  of the right type;
* `Graph.Fitted`, `Graph.fitted_after`: all of it;
* `Graph.kept?`, `Graph.Keeps`, `Graph.keeps_after`: the column of a property of the graph itself is one
  value, which has the type of the property and is replaced as a whole.
-/

namespace GraphGames

namespace Column

variable {c : Column} {n : Nat}

/-- No cells are added where there are enough. -/
theorem grow_of_le (h : n ≤ c.size) : c.grow n = c := by
  refine ext_get? rfl fun i => ?_
  rw [get?_grow]
  by_cases hi : i < c.size
  · rw [if_pos hi]
  · rw [if_neg hi, if_neg (by omega), get?_eq_none_iff.mpr (by omega)]

/-- A column of one cell. -/
def single (value : Value) : Column := ⟨value.type, #[value.datum]⟩

theorem getD_single (value : Value) : (single value).getD 0 = value := rfl

theorem eq_single_of_size (h : c.size = 1) : c = single (c.getD 0) := by
  obtain ⟨type, cells⟩ := c
  have hsize : cells.size = 1 := h
  obtain ⟨datum, rfl⟩ := Array.size_eq_one_iff.mp hsize
  rfl

/-- To store a value in a column of one cell is to replace the one that it has. -/
theorem set_single (fresh : ℕ) (current value : Value) :
    (single current).set fresh 0 value = (value.coerceTo fresh current.type).map single := by
  unfold set
  show (value.coerce fresh current.type).map _ = _
  cases hcoerce : value.coerce fresh current.type with
  | error found =>
    rw [Value.coerceTo_of_coerce_error hcoerce]
    rfl
  | ok datum =>
    rw [Value.coerceTo_of_coerce hcoerce]
    rfl

end Column

namespace Graph

variable {g : Graph} {turns isFinal : Column} {v : VertexId}

namespace Aligned

/-- A setting adds no cells, whether it succeeds or not. -/
theorem column?_size_setValue (h : g.Aligned) (fresh : Nat) (subject : Subject) (name : String)
    (value : Value) (scope : Scope) (other : String) :
    (((Update.setValue fresh subject name value).run g).2.properties.column? scope other).map
      Column.size = (g.properties.column? scope other).map Column.size := by
  rw [Update.run_setValue]
  cases hnext : g.withValue fresh subject name value with
  | error e => rfl
  | ok next =>
    obtain ⟨column, datum, hcolumn, hsubject, -, rfl⟩ := of_withValue hnext
    have hc := Properties.column_eq_ok_iff.mp hcolumn
    show ((g.properties.setColumn name _).column? scope other).map Column.size = _
    rw [column?_setColumn_of_column? hc]
    split_ifs with hsame
    · obtain ⟨rfl, rfl⟩ := hsame
      rw [hc, Option.map_some, Option.map_some, Column.size_put,
        Nat.max_eq_left (h.slot_lt_size hsubject hc)]
    · rfl

/-- Turns that are declared as integers can be read at every vertex. -/
theorem turn_readable (h : g.Aligned) (hv : g.containsVertex v)
    (hturn : g.properties.column? .vertex turnProperty = some turns) (htype : turns.type = .int) :
    Problem.role turns isFinal v ≠ .error (.invalidGame turnProperty .unreadable) := by
  intro hrole
  have hs : g.contains (.vertex v) := hv
  obtain ⟨i, hi⟩ := h.exists_int? hs hturn htype
  rcases Problem.of_role_eq_error hrole with ⟨-, hnone⟩ | ⟨value, he⟩ | ⟨he, -⟩
  · exact Option.some_ne_none i (hi.symm.trans hnone)
  · cases he
  · exact absurd (Error.invalidGame.inj he).1 (by decide)

/-- Final vertices that are declared by truth values can be read at every vertex. -/
theorem isFinal_readable (h : g.Aligned) (hv : g.containsVertex v)
    (hfinal : g.properties.column? .vertex isFinalProperty = some isFinal)
    (htype : isFinal.type = .bool) :
    Problem.role turns isFinal v ≠ .error (.invalidGame isFinalProperty .unreadable) := by
  intro hrole
  have hs : g.contains (.vertex v) := hv
  obtain ⟨b, hb⟩ := h.exists_bool? hs hfinal htype
  rcases Problem.of_role_eq_error hrole with ⟨he, -⟩ | ⟨value, he⟩ | ⟨-, hnone⟩
  · exact absurd (Error.invalidGame.inj he).1 (by decide)
  · cases he
  · exact Option.some_ne_none b (hb.symm.trans hnone)

end Aligned

/-! ### After a history -/

/-- The columns of a graph are fitted to its tables, so the precautions against short columns are never
needed for what is in the graph. -/
structure Fitted (g : Graph) : Prop where
  /-- A vertex property has a cell for each slot of the vertices. -/
  vertex : ∀ name c, g.properties.column? .vertex name = some c → c.size = g.vertexTable.capacity
  /-- An edge property has a cell for each slot of the edges. -/
  edge : ∀ name c, g.properties.column? .edge name = some c → c.size = g.edgeTable.capacity
  /-- The cell of a free slot holds the default. -/
  free : ∀ subject name c, g.properties.column? subject.scope name = some c →
    subject.slot < c.size → ¬ g.contains subject →
    c.get? subject.slot = some (Value.default c.type)
  /-- No cells have to be added for what is in the graph. -/
  room : ∀ subject name c, g.properties.column? subject.scope name = some c →
    g.contains subject → c.grow (subject.slot + 1) = c
  /-- Setting a value, whether that succeeds or not, leaves every column its size. -/
  setValue : ∀ fresh subject name value scope other,
    (((Update.setValue fresh subject name value).run g).2.properties.column? scope other).map
      Column.size = (g.properties.column? scope other).map Column.size
  /-- What is read of a subject is what is in its cell, not the default beyond the end. -/
  value : ∀ subject name c, g.properties.column? subject.scope name = some c →
    g.contains subject → ∃ value, c.get? subject.slot = some value ∧ g.value subject name = .ok value
  /-- All values of a vertex property are what is in the cells of the vertices. -/
  vertexValues : ∀ name c, g.properties.column? .vertex name = some c →
    ∃ entries, g.vertexValues name = .ok entries ∧ entries.map Prod.fst = g.vertices ∧
      ∀ v value, (v, value) ∈ entries → c.get? v.index = some value
  /-- All values of an edge property are what is in the cells of the edges. -/
  edgeValues : ∀ name c, g.properties.column? .edge name = some c →
    ∃ entries, g.edgeValues name = .ok entries ∧ entries.map Prod.fst = g.edges.map Edge.id ∧
      ∀ e value, (e, value) ∈ entries → c.get? e.index = some value
  /-- Reading an integer of a subject does not fail in a column of integers. -/
  int : ∀ subject name c, g.properties.column? subject.scope name = some c → c.type = .int →
    g.contains subject → ∃ i, c.int? subject.slot = some i
  /-- Reading a truth value of a subject does not fail in a column of truth values. -/
  bool : ∀ subject name c, g.properties.column? subject.scope name = some c → c.type = .bool →
    g.contains subject → ∃ b, c.bool? subject.slot = some b
  /-- No vertex of the graph is refused for turns that are declared as integers. -/
  turn : ∀ turns isFinal v, g.properties.column? .vertex turnProperty = some turns →
    turns.type = .int → g.containsVertex v →
    Problem.role turns isFinal v ≠ .error (.invalidGame turnProperty .unreadable)
  /-- No vertex of the graph is refused for final vertices that are declared by truth values. -/
  isFinal : ∀ turns isFinal v, g.properties.column? .vertex isFinalProperty = some isFinal →
    isFinal.type = .bool → g.containsVertex v →
    Problem.role turns isFinal v ≠ .error (.invalidGame isFinalProperty .unreadable)

/-- **After every history of the empty graph, every slot has its cell.** Columns have as many cells as
there are slots and those of free slots hold the default, so nothing that is in the graph is beyond the
end of a column: no cells are added when its values are set, no default stands in for its values when
they are read, and it is never refused for a column of the right type. -/
theorem fitted_after (history : List Operation) : (Graph.empty.after history).Fitted := by
  have hreachable : (Graph.empty.after history).Reachable := Reachable.empty.after history
  have h := hreachable.aligned
  constructor
  case vertex => exact h .vertex
  case edge => exact h .edge
  case free =>
    intro subject name c hc hslot hfree
    rw [Column.get?_eq_getD hslot, hreachable.vacant subject name c hfree hc]
  case room =>
    intro subject name c hc hs
    exact Column.grow_of_le (h.slot_lt_size (require_eq_ok_iff.mpr hs) hc)
  case setValue => exact h.column?_size_setValue
  case value =>
    intro subject name c hc hs
    obtain ⟨datum, hget, hvalue⟩ := h.exists_value hs hc rfl
    exact ⟨_, hget, hvalue⟩
  case vertexValues =>
    intro name c hc
    obtain ⟨entries, hentries, hkeys, hvalues⟩ :=
      exists_vertexValues (propertyType_eq_ok_iff.mpr ⟨c, hc, rfl⟩)
    refine ⟨entries, hentries, hkeys, fun v value hmem => ?_⟩
    exact h.get?_of_value ((hvalues v value).mp hmem) hc
  case edgeValues =>
    intro name c hc
    obtain ⟨entries, hentries, hkeys, hvalues⟩ :=
      exists_edgeValues (propertyType_eq_ok_iff.mpr ⟨c, hc, rfl⟩)
    refine ⟨entries, hentries, hkeys, fun e value hmem => ?_⟩
    exact h.get?_of_value ((hvalues e value).mp hmem) hc
  case int =>
    intro subject name c hc htype hs
    exact h.exists_int? hs hc htype
  case bool =>
    intro subject name c hc htype hs
    exact h.exists_bool? hs hc htype
  case turn =>
    intro turns isFinal v hc htype hv
    exact h.turn_readable hv hc htype
  case isFinal =>
    intro turns isFinal v hc htype hv
    exact h.isFinal_readable hv hc htype

/-- A vertex is gone, and a property is declared after that: both columns have cells for its slot. -/
example :
    let g := Graph.empty.after [.declare .vertex "weight" .int, .addVertices 2,
      .setValue 0 (.vertex ⟨0⟩) "weight" (.int 5), .removeVertex ⟨0⟩, .declare .vertex "late" .bool]
    (g.properties.column? .vertex "weight").map (fun c => (c.size, c.int? 0)) = some (2, some 0) ∧
      (g.properties.column? .vertex "late").map Column.size = some 2 := by
  decide +kernel

/-! ### The values of the graph itself -/

/-- The value that is kept under a name that is declared for the graph itself. -/
def kept? (g : Graph) (name : String) : Option Value :=
  (g.properties.column? .graph name).map fun c => c.getD Subject.graph.slot

/-- A property of the graph itself is no more than the value that is kept for it: the value is what is
read, its type is that of the property, and another one takes its place when it is coerced to that
type. -/
structure Keeps (g : Graph) : Prop where
  /-- The column of such a property is the value that is kept. -/
  column : ∀ name, g.properties.column? .graph name = (g.kept? name).map Column.single
  /-- The type of the property is that of the value. -/
  propertyType : ∀ name, g.propertyType .graph name =
    match g.kept? name with
    | some current => .ok current.type
    | none => .error (.unknownProperty name .graph)
  /-- What is read is the value. -/
  value : ∀ name, g.value .graph name =
    match g.kept? name with
    | some current => .ok current
    | none => .error (.unknownProperty name .graph)
  /-- After a declaration the default is kept. -/
  declared : ∀ name type next, g.declared .graph name type = .ok next →
    next.kept? name = some (Value.default type)
  /-- A value that is set is coerced to the type of the one that is kept, and replaces it. -/
  setValue : ∀ fresh name value, (Update.setValue fresh .graph name value).run g =
    match g.kept? name with
    | some current =>
      match value.coerceTo fresh current.type with
      | .ok coerced =>
        (.ok (), { g with properties := g.properties.setColumn name (Column.single coerced) })
      | .error found => (.error (.typeMismatch name current.type found), g)
    | none => (.error (.unknownProperty name .graph), g)

theorem kept?_eq_some_iff {name : String} {current : Value} (h : g.Aligned) :
    g.kept? name = some current ↔
      g.properties.column? .graph name = some (Column.single current) := by
  unfold kept?
  rw [Option.map_eq_some_iff]
  constructor
  · rintro ⟨c, hc, rfl⟩
    exact hc.trans (congrArg some (Column.eq_single_of_size (h .graph name c hc)))
  · intro hc
    exact ⟨_, hc, Column.getD_single current⟩

theorem kept?_eq_none_iff {name : String} :
    g.kept? name = none ↔ g.properties.column? .graph name = none :=
  Option.map_eq_none_iff

/-- To set a value of the graph itself is to replace the one that it has. -/
theorem withValue_single {fresh : ℕ} {name : String} {current value : Value}
    (hc : g.properties.column? .graph name = some (Column.single current)) :
    g.withValue fresh .graph name value =
      match value.coerceTo fresh current.type with
      | .ok coerced =>
        .ok { g with properties := g.properties.setColumn name (Column.single coerced) }
      | .error found => .error (.typeMismatch name current.type found) := by
  have hcolumn : g.properties.column Subject.graph.scope name = .ok (Column.single current) :=
    Properties.column_eq_ok_iff.mpr hc
  have hset : (Column.single current).set fresh Subject.graph.slot value =
      (value.coerceTo fresh current.type).map Column.single := Column.set_single fresh current value
  unfold withValue
  rw [hcolumn]
  simp only [bind, Except.bind, require, hset]
  cases value.coerceTo fresh current.type <;> rfl

theorem Aligned.keeps (h : g.Aligned) : g.Keeps where
  column name := by
    cases hkept : g.kept? name with
    | none => exact kept?_eq_none_iff.mp hkept
    | some current => exact (kept?_eq_some_iff h).mp hkept
  propertyType name := by
    unfold Graph.propertyType Properties.column
    cases hkept : g.kept? name with
    | none =>
      rw [kept?_eq_none_iff.mp hkept]
      rfl
    | some current =>
      rw [(kept?_eq_some_iff h).mp hkept]
      rfl
  value name := by
    have hs : g.contains .graph := rfl
    cases hkept : g.kept? name with
    | none =>
      have hnone : g.properties.column? Subject.graph.scope name = none :=
        kept?_eq_none_iff.mp hkept
      exact value_of_column?_none hnone
    | some current => exact value_of_column? ((kept?_eq_some_iff h).mp hkept) hs
  declared name type next hnext := by
    unfold kept?
    rw [column?_declared hnext, if_pos rfl, if_pos rfl]
    rfl
  setValue fresh name value := by
    rw [Update.run_setValue]
    cases hkept : g.kept? name with
    | none =>
      unfold Graph.withValue Properties.column
      rw [show g.properties.column? Subject.graph.scope name = none from kept?_eq_none_iff.mp hkept]
      rfl
    | some current =>
      show _ = match value.coerceTo fresh current.type with
        | .ok coerced => (Except.ok (), _)
        | .error found => (Except.error (Error.typeMismatch name current.type found), g)
      rw [withValue_single ((kept?_eq_some_iff h).mp hkept)]
      cases value.coerceTo fresh current.type <;> rfl

/-- **After every history of the empty graph, a property of the graph itself is a value.** -/
theorem keeps_after (history : List Operation) : (Graph.empty.after history).Keeps :=
  (Reachable.empty.after history).aligned.keeps

end Graph

end GraphGames
