import GraphGames.Proofs.Frame
import GraphGames.Proofs.Marking

/-!
# A marking is as good as a declared property

A marking is read and written beside a graph. A copy of the graph could declare the marking as a
vertex property instead: a marking can be created when the copy can declare one, and from then on the
marking and the copy answer alike.

* `PropertyCall`, `PropertyReply`: what can be asked of a vertex property, and what is answered;
* `Marking.answer`, `Graph.answer`, `PropertyCall.run`: the answer of a marking to a call, that of a
  graph, and those to several calls;
* `Marking.DeclaredBy`: a graph declares the marking as it is. One call keeps this by
  `DeclaredBy.answer`, and several do by `DeclaredBy.run`;
* `Marking.StandsFor`, `Marking.create_standsFor`: what is said of a marking and the copy, and that it
  holds.
-/

namespace GraphGames

/-- A call on a vertex property. -/
inductive PropertyCall
  | hasProperty (type : Option ValueType)
  | value (v : VertexId)
  | values
  | setValue (fresh : Nat) (v : VertexId) (value : Value)

/-- What is answered to a call. -/
inductive PropertyReply
  | has (answer : Bool)
  | value (answer : Except Error Value)
  | values (answer : Except Error (List (VertexId × Value)))
  | done (answer : Except Error Unit)

/-- What is answered to a call under a name that no vertex property has. -/
def PropertyCall.unknown (name : String) : PropertyCall → PropertyReply
  | hasProperty _ => .has false
  | value _ => .value (.error (.unknownProperty name .vertex))
  | values => .values (.error (.unknownProperty name .vertex))
  | setValue _ _ _ => .done (.error (.unknownProperty name .vertex))

/-- The answers to several calls, one after the other, and what is left behind. -/
def PropertyCall.run {σ : Type} (answer : σ → PropertyCall → PropertyReply × σ) :
    List PropertyCall → σ → List PropertyReply × σ
  | [], s => ([], s)
  | call :: calls, s =>
    let (reply, s) := answer s call
    let (replies, s) := run answer calls s
    (reply :: replies, s)

/-- What a marking answers to a call under a name, and the marking that is left. -/
def Marking.answer (name : String) (m : Marking) : PropertyCall → PropertyReply × Marking
  | .hasProperty type => (.has (m.hasProperty name type), m)
  | .value v => (.value (m.value name v), m)
  | .values => (.values (m.values name), m)
  | .setValue _ v value =>
    match m.setValue name v value with
    | .ok next => (.done (.ok ()), next)
    | .error e => (.done (.error e), m)

/-- What a graph answers to a call under a name, and the graph that is left. -/
def Graph.answer (name : String) (g : Graph) : PropertyCall → PropertyReply × Graph
  | .hasProperty type => (.has (g.hasProperty .vertex name type), g)
  | .value v => (.value (g.value (.vertex v) name), g)
  | .values => (.values (g.vertexValues name), g)
  | .setValue fresh v value =>
    let (answer, next) := (Update.setValue fresh (.vertex v) name value).run g
    (.done answer, next)

theorem Graph.answer_setValue (name : String) (g : Graph) (fresh : Nat) (v : VertexId)
    (value : Value) :
    g.answer name (.setValue fresh v value) =
      match g.withValue fresh (.vertex v) name value with
      | .ok next => (.done (.ok ()), next)
      | .error e => (.done (.error e), g) := by
  rw [answer, Update.run_setValue]
  cases g.withValue fresh (.vertex v) name value with
  | error e => rfl
  | ok next => rfl

/-! ### Columns of truth values -/

namespace Column

variable {c next : Column} {fresh slot : Nat} {value : Value}

/-- A cell of a column of truth values, read with the default beyond the end. -/
theorem getD_eq_flag (h : c.type = .bool) (i : Nat) : c.getD i = .bool (c.flag i) := by
  obtain ⟨type, cells⟩ := c
  obtain rfl : type = .bool := h
  unfold getD flag bool?
  cases hget : get? ⟨.bool, cells⟩ i with
  | none => rfl
  | some value =>
    obtain ⟨type, datum⟩ := value
    obtain rfl : type = .bool := type_of_get? hget
    rfl

theorem type_of_set (h : c.set fresh slot value = .ok next) : next.type = c.type := by
  unfold set at h
  cases hdatum : value.coerce fresh c.type with
  | error found =>
    rw [hdatum] at h
    cases h
  | ok datum =>
    rw [hdatum] at h
    obtain rfl := Except.ok.inj h
    rfl

/-- Only truth values can be stored in a column of truth values. -/
theorem set_eq_setBool (h : c.type = .bool) (fresh slot : Nat) (value : Value) :
    c.set fresh slot value =
      match value with
      | .bool b => .ok ((c.setBool slot b).getD c)
      | other => .error other.type := by
  obtain ⟨type, cells⟩ := c
  obtain rfl : type = .bool := h
  obtain ⟨type, datum⟩ := value
  cases type <;> rfl

end Column

namespace Marking

variable {m next : Marking} {g copy : Graph} {name : String} {v : VertexId} {value : Value}

/-! ### Under another name -/

/-- A marking knows no name but its own. -/
theorem answer_of_ne (hne : name ≠ m.name) (call : PropertyCall) :
    m.answer name call = (call.unknown name, m) := by
  have hname : m.requireName name = .error (.unknownProperty name .vertex) := if_neg hne
  cases call with
  | hasProperty type =>
    unfold answer hasProperty
    rw [beq_eq_false_iff_ne.mpr hne]
    rfl
  | value v =>
    unfold answer Marking.value
    rw [hname]
    rfl
  | values =>
    unfold answer Marking.values
    rw [hname]
    rfl
  | setValue fresh v value =>
    unfold answer setValue
    rw [hname]
    rfl

/-! ### Under its own name -/

/-- A marking stores what its column does. -/
theorem setValue_eq_set (hname : m.name = name) (htype : m.column.type = .bool) (fresh : Nat)
    (v : VertexId) (value : Value) :
    m.setValue name v value = (do
      m.graph.requireVertex v
      match m.column.set fresh v.index value with
      | .ok column => return { m with column }
      | .error found => throw (.typeMismatch name m.column.type found)) := by
  unfold setValue requireName
  rw [if_pos hname.symm, Column.set_eq_setBool htype, htype]
  obtain ⟨type, datum⟩ := value
  cases type <;> rfl

/-- A marking that was set is as before but for its column, which is one of truth values still. -/
theorem of_setValue (hname : m.name = name) (htype : m.column.type = .bool)
    (h : m.setValue name v value = .ok next) :
    next = { m with column := next.column } ∧ next.column.type = .bool := by
  -- no box is made for a truth value, so any stamp will do
  rw [setValue_eq_set hname htype 0] at h
  obtain ⟨⟨⟩, -, h⟩ := bind_eq_ok_iff.mp h
  split at h
  · next column hset =>
    obtain rfl := Except.ok.inj h
    exact ⟨rfl, (Column.type_of_set hset).trans htype⟩
  · cases h

/-- A marking of `g` under a name, and a copy of `g` that declares it as it is. -/
structure DeclaredBy (g : Graph) (name : String) (m : Marking) (copy : Graph) : Prop where
  named : m.name = name
  graph : m.graph = g
  vertexTable : copy.vertexTable = g.vertexTable
  column : copy.properties.column? .vertex name = some m.column
  type : m.column.type = .bool

namespace DeclaredBy

variable (h : DeclaredBy g name m copy)
include h

theorem requireVertex (v : VertexId) : m.graph.requireVertex v = copy.requireVertex v := by
  unfold Graph.requireVertex Graph.containsVertex
  rw [h.vertexTable, h.graph]

theorem column_eq_ok (v : VertexId) :
    copy.properties.column (Subject.vertex v).scope name = .ok m.column :=
  Properties.column_eq_ok_iff.mpr h.column

theorem hasProperty_eq (type : Option ValueType) :
    m.hasProperty name type = copy.hasProperty .vertex name type := by
  unfold Marking.hasProperty Graph.hasProperty
  rw [h.column, h.named, ← h.type, beq_self_eq_true, Bool.true_and]

theorem value_eq (v : VertexId) : m.value name v = copy.value (.vertex v) name := by
  unfold Marking.value Graph.value requireName
  rw [if_pos h.named.symm, h.requireVertex, h.column_eq_ok v]
  show (copy.requireVertex v >>= fun _ => pure (Value.bool (m.column.flag v.index))) =
    (copy.requireVertex v >>= fun _ => pure (m.column.getD v.index))
  rw [Column.getD_eq_flag h.type]

theorem values_eq : m.values name = copy.vertexValues name := by
  unfold Marking.values Graph.vertexValues Graph.vertices requireName
  rw [if_pos h.named.symm, Properties.column_eq_ok_iff.mpr h.column, h.vertexTable, h.graph]
  show Except.ok (g.vertices.map fun v => (v, Value.bool (m.column.flag v.index))) =
    .ok (g.vertices.map fun v => (v, m.column.getD v.index))
  simp only [Column.getD_eq_flag h.type]

/-- To set a mark is to replace the column of the copy by that of the marking. -/
theorem withValue_eq (fresh : Nat) (v : VertexId) (value : Value) :
    copy.withValue fresh (.vertex v) name value =
      (m.setValue name v value).map fun next =>
        { copy with properties := copy.properties.setColumn name next.column } := by
  rw [setValue_eq_set h.named h.type fresh, h.requireVertex]
  unfold Graph.withValue
  rw [h.column_eq_ok v]
  show (copy.requireVertex v >>= fun _ => _) = (copy.requireVertex v >>= fun _ => _).map _
  cases copy.requireVertex v with
  | error e => rfl
  | ok =>
    show (match m.column.set fresh v.index value with | .ok _ => _ | .error _ => _) =
      (match m.column.set fresh v.index value with | .ok _ => _ | .error _ => _ : Except _ _).map _
    cases m.column.set fresh v.index value with
    | error found => rfl
    | ok column => rfl

/-- A call is answered alike, and the copy declares the marking that is left. -/
theorem answer (call : PropertyCall) :
    (m.answer name call).1 = (copy.answer name call).1 ∧
      DeclaredBy g name (m.answer name call).2 (copy.answer name call).2 := by
  cases call with
  | hasProperty type => exact ⟨congrArg PropertyReply.has (h.hasProperty_eq type), h⟩
  | value v => exact ⟨congrArg PropertyReply.value (h.value_eq v), h⟩
  | values => exact ⟨congrArg PropertyReply.values h.values_eq, h⟩
  | setValue fresh v value =>
    rw [Marking.answer, Graph.answer_setValue, h.withValue_eq]
    cases hset : m.setValue name v value with
    | error e => exact ⟨rfl, h⟩
    | ok next =>
      obtain ⟨hnext, htype⟩ := of_setValue h.named h.type hset
      refine ⟨rfl, ?_, ?_, h.vertexTable, ?_, htype⟩
      · rw [hnext]
        exact h.named
      · rw [hnext]
        exact h.graph
      · show (copy.properties.setColumn name next.column).column? .vertex name = some next.column
        rw [Properties.column?_setColumn, if_pos rfl, h.column]
        rfl

/-- Several calls are answered alike. -/
theorem run (calls : List PropertyCall) :
    (PropertyCall.run (Marking.answer name) calls m).1 =
        (PropertyCall.run (Graph.answer name) calls copy).1 ∧
      DeclaredBy g name (PropertyCall.run (Marking.answer name) calls m).2
        (PropertyCall.run (Graph.answer name) calls copy).2 := by
  induction calls generalizing m copy with
  | nil => exact ⟨rfl, h⟩
  | cons call calls ih =>
    obtain ⟨hreply, hnext⟩ := h.answer call
    obtain ⟨hreplies, hlast⟩ := ih hnext
    exact ⟨congrArg₂ List.cons hreply hreplies, hlast⟩

theorem mem_marked_iff :
    v ∈ m.marked ↔ g.containsVertex v ∧ copy.value (.vertex v) name = .ok (.bool true) := by
  rw [mem_marked, h.graph]
  refine and_congr_right fun hv => ?_
  have hcontains : copy.contains (.vertex v) := by
    show copy.vertexTable.contains v.index
    rw [h.vertexTable]
    exact hv
  rw [Graph.value_of_column? h.column hcontains, Column.getD_eq_flag h.type]
  show m.column.flag v.index = true ↔
    Except.ok (Value.bool (m.column.flag v.index)) = .ok (.bool true)
  cases m.column.flag v.index with
  | true => exact iff_of_true rfl rfl
  | false =>
    refine iff_of_false Bool.false_ne_true ?_
    intro hvalue
    cases hvalue

end DeclaredBy

/-! ### A new marking -/

/-- A marking cannot be created under a name that is declared, in whatever scope. -/
theorem create_eq_error_iff {e : Error} :
    create g name = .error e ↔
      ∃ existing, g.propertyScope? name = some existing ∧ e = .nameTaken name existing := by
  unfold create
  cases g.propertyScope? name with
  | none => simp
  | some existing => simp [eq_comm]

/-- A marking can be created when a property of truth values can be declared, and fails alike. -/
theorem create_eq_declare (g : Graph) (name : String) :
    ((create g name).map fun _ => ()) = ((Update.declare .vertex name .bool).run g).1 := by
  unfold create Graph.propertyScope?
  rw [Update.run_declare, Graph.declared, Properties.declare, Properties.requireFree]
  cases g.properties.scope? name with
  | none => rfl
  | some existing => rfl

/-- A new marking is one that a copy has just declared. -/
theorem declaredBy_create (h : create g name = .ok m) :
    DeclaredBy g name m ((Update.declare .vertex name .bool).run g).2 := by
  have hfree := (name_of_create h).2
  obtain ⟨next, hnext⟩ : ∃ next, g.declared .vertex name .bool = .ok next := by
    unfold Graph.declared Properties.declare Properties.requireFree
    rw [show g.properties.scope? name = none from hfree]
    exact ⟨_, rfl⟩
  have hrun : (Update.declare .vertex name .bool).run g = (.ok (), next) := by
    rw [Update.run_declare, hnext]
  unfold create at h
  rw [hfree] at h
  obtain rfl := Except.ok.inj h
  rw [hrun]
  refine ⟨rfl, rfl, ?_, ?_, rfl⟩
  · rw [(Graph.of_declared hnext).2]
  · rw [Graph.column?_declared hnext, if_pos rfl, if_pos rfl]
    rfl

/-- However a marking of `g` is asked under its name, it answers as a copy of `g` does, and marks the
vertices that have the value on the copy. The graph stays as it is, and no other name is known. -/
structure StandsFor (g : Graph) (name : String) (m : Marking) (copy : Graph) : Prop where
  replies : ∀ calls, (PropertyCall.run (Marking.answer name) calls m).1 =
    (PropertyCall.run (Graph.answer name) calls copy).1
  marked : ∀ calls v, v ∈ (PropertyCall.run (Marking.answer name) calls m).2.marked ↔
    g.containsVertex v ∧ (PropertyCall.run (Graph.answer name) calls copy).2.value (.vertex v) name =
      .ok (.bool true)
  graph : ∀ calls, (PropertyCall.run (Marking.answer name) calls m).2.graph = g
  unknown : ∀ calls other, other ≠ name → ∀ call,
    (PropertyCall.run (Marking.answer name) calls m).2.answer other call =
      (call.unknown other, (PropertyCall.run (Marking.answer name) calls m).2)

theorem DeclaredBy.standsFor (h : DeclaredBy g name m copy) : StandsFor g name m copy where
  replies calls := (h.run calls).1
  marked calls v := (h.run calls).2.mem_marked_iff
  graph calls := (h.run calls).2.graph
  unknown calls other hother call := by
    apply answer_of_ne
    rw [(h.run calls).2.named]
    exact hother

/-- **A marking is as good as a declared property of truth values.** Under a name, a marking can be
created beside a graph iff a copy of the graph can declare the name as such a property, with the same
error otherwise, and the marking then stands for what the copy declares. -/
theorem create_standsFor (g : Graph) (name : String) :
    ((create g name).map fun _ => ()) = ((Update.declare .vertex name .bool).run g).1 ∧
      (∀ e, create g name = .error e ↔
        ∃ existing, g.propertyScope? name = some existing ∧ e = .nameTaken name existing) ∧
      ∀ m, create g name = .ok m →
        StandsFor g name m ((Update.declare .vertex name .bool).run g).2 :=
  ⟨create_eq_declare g name, fun _ => create_eq_error_iff,
    fun _ h => (declaredBy_create h).standsFor⟩

/-- On a graph with a free slot between two vertices, under a name that is free and under one that is
not. -/
theorem exists_create_standsFor :
    let g := Graph.empty.after
      [.declare .edge actProperty .int, .addVertices 3, .removeVertex ⟨1⟩]
    let calls : List PropertyCall :=
      [.setValue 0 ⟨2⟩ (.bool true), .setValue 0 ⟨1⟩ (.bool true), .setValue 0 ⟨0⟩ (.int 1), .values]
    create g actProperty = .error (.nameTaken actProperty .edge) ∧
      ∃ m, create g defaultName = .ok m ∧
        StandsFor g defaultName m ((Update.declare .vertex defaultName .bool).run g).2 ∧
        (PropertyCall.run (Marking.answer defaultName) calls m).2.marked.toList = [⟨2⟩] := by
  intro g calls
  have hmarked : ((create g defaultName).toOption.map fun m =>
      (PropertyCall.run (Marking.answer defaultName) calls m).2.marked.toList) = some [⟨2⟩] := by
    decide +kernel
  obtain ⟨m, hcreate, hlist⟩ := exists_ok_of_map hmarked
  obtain ⟨-, -, hstandsFor⟩ := create_standsFor g defaultName
  obtain ⟨-, htaken, -⟩ := create_standsFor g actProperty
  exact ⟨(htaken _).mpr ⟨.edge, by decide +kernel, rfl⟩, m, hcreate, hstandsFor m hcreate, hlist⟩

end Marking

end GraphGames
