import GraphGames.Proofs.Alignment

/-!
# What changes leave alone

A change touches one entity or one property. Everything else that can be read of a graph stays as it
is: the declarations, the subjects, and their values.

* `Graph.value_of_column?`, `Graph.Aligned.exists_value`: a value is what is in a cell;
* `Graph.Retains`: one graph has nothing that another has not, and `Graph.retains_removeEdge`,
  `Graph.retains_removeVertex`: a removal takes things away at most;
* `Graph.Gains`: one graph has one subject more than another, and `Graph.gains_addVertex`,
  `Graph.gains_insertEdge`: an addition makes one subject, which has the defaults;
* `Graph.propertyType_declared`, `Graph.value_declared_of_ne`, `Graph.value_withValue_of_ne`: a
  declaration adds one name, and a setting changes one value.
-/

namespace GraphGames

namespace Graph

variable {g next : Graph} {subject : Subject} {name : String}

/-! ### Reading a cell -/

theorem require_eq_ok_iff : g.require subject = .ok () ↔ g.contains subject := by
  cases subject with
  | vertex v => simp [require, requireVertex, contains]
  | edge e => simp [require, contains]
  | graph => simp [require, contains]

/-- The value of a subject of the graph is what is in its cell. -/
theorem value_of_column? {c : Column} (hc : g.properties.column? subject.scope name = some c)
    (hs : g.contains subject) : g.value subject name = .ok (c.getD subject.slot) := by
  refine bind_eq_ok_iff.mpr ⟨c, Properties.column_eq_ok_iff.mpr hc, ?_⟩
  exact bind_eq_ok_iff.mpr ⟨(), require_eq_ok_iff.mpr hs, rfl⟩

theorem value_of_column?_none (hc : g.properties.column? subject.scope name = none) :
    g.value subject name = .error (.unknownProperty name subject.scope) := by
  unfold value Properties.column
  rw [hc]
  rfl

/-- Only subjects of the graph have values. -/
theorem contains_of_value_eq_ok {value : Value} (h : g.value subject name = .ok value) :
    g.contains subject := by
  obtain ⟨c, -, h⟩ := bind_eq_ok_iff.mp h
  obtain ⟨⟨⟩, hrequire, -⟩ := bind_eq_ok_iff.mp h
  exact require_eq_ok_iff.mp hrequire

/-- Subjects of two graphs have the same value where their cells hold the same. -/
theorem value_congr (hs : g.contains subject) (hs' : next.contains subject)
    (h : (next.properties.column? subject.scope name).map (·.getD subject.slot) =
      (g.properties.column? subject.scope name).map (·.getD subject.slot)) :
    next.value subject name = g.value subject name := by
  cases hc : g.properties.column? subject.scope name with
  | none =>
    rw [hc, Option.map_none, Option.map_eq_none_iff] at h
    rw [value_of_column?_none hc, value_of_column?_none h]
  | some c =>
    rw [hc, Option.map_some, Option.map_eq_some_iff] at h
    obtain ⟨c', hc', hcell⟩ := h
    rw [value_of_column? hc hs, value_of_column? hc' hs', hcell]

namespace Aligned

variable {c : Column}

/-- The value of a subject is a datum of the declared type, and is what is in its cell. -/
theorem exists_value (h : g.Aligned) (hs : g.contains subject)
    (hc : g.properties.column? subject.scope name = some c) {type : ValueType}
    (htype : c.type = type) :
    ∃ datum, c.get? subject.slot = some ⟨type, datum⟩ ∧
      g.value subject name = .ok ⟨type, datum⟩ := by
  obtain ⟨datum, hdatum⟩ := Value.exists_of_type ((Column.type_getD c subject.slot).trans htype)
  refine ⟨datum, ?_, ?_⟩
  · rw [h.get? (require_eq_ok_iff.mpr hs) hc, hdatum]
  · rw [value_of_column? hc hs, hdatum]

/-- What is read of a subject is what is in its cell. -/
theorem get?_of_value (h : g.Aligned) {value : Value} (hvalue : g.value subject name = .ok value)
    (hc : g.properties.column? subject.scope name = some c) : c.get? subject.slot = some value := by
  obtain ⟨datum, hget, hdatum⟩ := h.exists_value (contains_of_value_eq_ok hvalue) hc rfl
  rw [hget, Except.ok.inj (hvalue.symm.trans hdatum)]

theorem int?_of_value (h : g.Aligned) {i : Int64} (hvalue : g.value subject name = .ok (.int i))
    (hc : g.properties.column? subject.scope name = some c) : c.int? subject.slot = some i :=
  Option.bind_eq_some_iff.mpr ⟨_, h.get?_of_value hvalue hc, rfl⟩

theorem exists_int? (h : g.Aligned) (hs : g.contains subject)
    (hc : g.properties.column? subject.scope name = some c) (htype : c.type = .int) :
    ∃ i, c.int? subject.slot = some i := by
  obtain ⟨i, hget, -⟩ := h.exists_value hs hc htype
  exact ⟨i, Option.bind_eq_some_iff.mpr ⟨_, hget, rfl⟩⟩

theorem exists_bool? (h : g.Aligned) (hs : g.contains subject)
    (hc : g.properties.column? subject.scope name = some c) (htype : c.type = .bool) :
    ∃ b, c.bool? subject.slot = some b := by
  obtain ⟨b, hget, -⟩ := h.exists_value hs hc htype
  exact ⟨b, Option.bind_eq_some_iff.mpr ⟨_, hget, rfl⟩⟩

end Aligned

theorem propertyType_eq_ok_iff {scope : Scope} {type : ValueType} :
    g.propertyType scope name = .ok type ↔
      ∃ c, g.properties.column? scope name = some c ∧ c.type = type := by
  unfold propertyType Properties.column
  cases g.properties.column? scope name with
  | none => simp [Except.map]
  | some c => simp [Except.map]

/-- Types are declared alike where the columns have the same types. -/
theorem propertyType_congr {scope : Scope}
    (h : (next.properties.column? scope name).map Column.type =
      (g.properties.column? scope name).map Column.type) :
    next.propertyType scope name = g.propertyType scope name := by
  unfold propertyType Properties.column
  cases hc : g.properties.column? scope name with
  | none =>
    rw [hc, Option.map_none, Option.map_eq_none_iff] at h
    rw [h]
  | some c =>
    rw [hc, Option.map_some, Option.map_eq_some_iff] at h
    obtain ⟨c', hc', htype⟩ := h
    rw [hc']
    exact congrArg Except.ok htype

/-! ### Changes of the columns of a scope -/

section Columns

variable {scope : Scope} {f : Column → Column}

theorem propertyType_mapColumns (hnext : next.properties = g.properties.mapColumns scope f)
    (hf : ∀ c : Column, (f c).type = c.type) : next.propertyType = g.propertyType := by
  funext scope' name
  apply propertyType_congr
  rw [hnext, Properties.column?_mapColumns]
  split_ifs with hscope
  · rw [Option.map_map]
    congr 1
    funext c
    exact hf c
  · rfl

theorem value_mapColumns (hnext : next.properties = g.properties.mapColumns scope f)
    (hs : g.contains subject) (hs' : next.contains subject)
    (hf : scope = subject.scope → ∀ c : Column, (f c).getD subject.slot = c.getD subject.slot)
    (name : String) : next.value subject name = g.value subject name := by
  apply value_congr hs hs'
  rw [hnext, Properties.column?_mapColumns]
  split_ifs with hscope
  · rw [Option.map_map]
    congr 1
    funext c
    exact hf hscope c
  · rfl

/-- Where cells are unset, values are the defaults of the declared types. -/
theorem value_mapColumns_default (hnext : next.properties = g.properties.mapColumns subject.scope f)
    (hs : next.contains subject)
    (hf : ∀ c : Column, (f c).getD subject.slot = Value.default c.type) (name : String) :
    next.value subject name = (g.propertyType subject.scope name).map Value.default := by
  have hcolumn := Properties.column?_mapColumns g.properties subject.scope f subject.scope name
  rw [if_pos rfl, ← hnext] at hcolumn
  cases hc : g.properties.column? subject.scope name with
  | none =>
    rw [hc] at hcolumn
    rw [value_of_column?_none hcolumn, propertyType, Properties.column, hc]
    rfl
  | some c =>
    rw [hc] at hcolumn
    rw [value_of_column? hcolumn hs, propertyType_eq_ok_iff.mpr ⟨c, hc, rfl⟩, hf]
    rfl

end Columns

/-- A cell of another subject of the scope is another cell. -/
theorem getD_reset_of_ne {other : Subject} (hscope : other.scope = subject.scope)
    (hne : subject ≠ other) (c : Column) :
    (c.reset other.slot).getD subject.slot = c.getD subject.slot := by
  rw [Column.getD_reset, if_neg]
  intro hslot
  exact hne (Subject.eq_of_scope_of_slot hscope hslot).symm

/-! ### Additions -/

@[simp] theorem propertyType_addVertex (g : Graph) : g.addVertex.propertyType = g.propertyType := by
  have hnext : g.addVertex.properties = g.properties.mapColumns .vertex fun c =>
      (c.grow (g.nextVertex.index + 1)).reset g.nextVertex.index := rfl
  exact propertyType_mapColumns hnext fun _ => rfl

@[simp] theorem propertyType_insertEdge (g : Graph) (source target : VertexId) :
    (g.insertEdge source target).propertyType = g.propertyType := by
  have hnext : (g.insertEdge source target).properties = g.properties.mapColumns .edge fun c =>
      (c.grow (g.nextEdge.index + 1)).reset g.nextEdge.index := rfl
  exact propertyType_mapColumns hnext fun _ => rfl

/-- What is in `next` is as in `g`, but for one new subject, all of whose cells are unset. -/
structure Gains (g next : Graph) (made : Subject) : Prop where
  new : ¬ g.contains made
  contains : ∀ subject, next.contains subject ↔ subject = made ∨ g.contains subject
  properties : next.properties = g.properties.mapColumns made.scope fun c =>
    (c.grow (made.slot + 1)).reset made.slot

namespace Gains

variable {made : Subject}

theorem propertyType (h : g.Gains next made) : next.propertyType = g.propertyType :=
  propertyType_mapColumns h.properties fun _ => rfl

/-- A new subject changes no value of another. -/
theorem value (h : g.Gains next made) (hs : g.contains subject) (name : String) :
    next.value subject name = g.value subject name := by
  apply value_mapColumns h.properties hs ((h.contains subject).mpr (.inr hs))
  intro hscope c
  have hne : subject ≠ made := by
    rintro rfl
    exact h.new hs
  rw [getD_reset_of_ne hscope hne, Column.getD_grow]

/-- A new subject has the defaults. -/
theorem value_made (h : g.Gains next made) (name : String) :
    next.value made name = (g.propertyType made.scope name).map Value.default := by
  apply value_mapColumns_default h.properties ((h.contains made).mpr (.inl rfl))
  intro c
  rw [Column.getD_reset, if_pos rfl, Column.type_grow]

end Gains

theorem gains_addVertex (h : g.vertexTable.WellFormed) :
    g.Gains g.addVertex (.vertex g.nextVertex) where
  new := by
    show ¬ g.vertexTable.contains g.vertexTable.nextSlot
    rw [Bool.not_eq_true, SlotTable.contains_eq_false_iff]
    exact h.get?_nextSlot
  contains subject := by
    cases subject with
    | vertex v =>
      rw [Subject.vertex.injEq]
      exact containsVertex_addVertex h v
    | edge e => simp [contains, containsEdge, addVertex]
    | graph => simp [contains]
  properties := rfl

theorem gains_insertEdge (h : g.edgeTable.WellFormed) (source target : VertexId) :
    g.Gains (g.insertEdge source target) (.edge g.nextEdge) where
  new := by
    show ¬ g.containsEdge g.nextEdge
    rw [containsEdge_iff, edge?_nextEdge h]
    simp
  contains subject := by
    cases subject with
    | vertex v =>
      show (g.insertEdge source target).containsVertex v ↔ _
      rw [containsVertex_insertEdge]
      simp [contains]
    | edge e =>
      show (g.insertEdge source target).containsEdge e ↔ _ ∨ g.containsEdge e
      rw [containsEdge_iff, containsEdge_iff, edge?_insertEdge h, Subject.edge.injEq]
      by_cases he : g.nextEdge = e
      · simp [he]
      · simp [he, Ne.symm he]
    | graph => simp [contains]
  properties := rfl

/-! ### Removals -/

/-- What is left in `next` is as in `g`. -/
structure Retains (g next : Graph) : Prop where
  contains : ∀ subject, next.contains subject → g.contains subject
  propertyType : next.propertyType = g.propertyType
  value : ∀ subject, next.contains subject → ∀ name,
    next.value subject name = g.value subject name

theorem Retains.refl (g : Graph) : g.Retains g := ⟨fun _ h => h, rfl, fun _ _ _ => rfl⟩

theorem Retains.trans {mid : Graph} (h : g.Retains mid) (h' : mid.Retains next) :
    g.Retains next where
  contains subject hs := h.contains subject (h'.contains subject hs)
  propertyType := h'.propertyType.trans h.propertyType
  value subject hs name :=
    (h'.value subject hs name).trans (h.value subject (h'.contains subject hs) name)

/-- A removal unsets the cells of a subject that goes. -/
theorem retains_of_reset (gone : Subject)
    (hnext : next.properties = g.properties.mapColumns gone.scope (·.reset gone.slot))
    (hcontains : ∀ subject, next.contains subject → subject ≠ gone ∧ g.contains subject) :
    g.Retains next where
  contains subject hs := (hcontains subject hs).2
  propertyType := propertyType_mapColumns hnext fun _ => rfl
  value subject hs name := by
    obtain ⟨hne, hg⟩ := hcontains subject hs
    exact value_mapColumns hnext hg hs (fun hscope c => getD_reset_of_ne hscope hne c) name

theorem contains_removeEdge {e : EdgeId} :
    (g.removeEdge e).contains subject ↔ subject ≠ .edge e ∧ g.contains subject := by
  cases subject with
  | vertex v =>
    show (g.removeEdge e).containsVertex v ↔ _
    rw [containsVertex_removeEdge]
    simp [contains]
  | edge f =>
    show (g.removeEdge e).containsEdge f ↔ _ ∧ g.containsEdge f
    rw [containsEdge_iff, containsEdge_iff, edge?_removeEdge, Ne, Subject.edge.injEq]
    by_cases he : e = f
    · simp [he]
    · simp [he, Ne.symm he]
  | graph => simp [contains]

theorem properties_removeEdge {e : EdgeId} {edge : Edge} (h : g.edge? e = some edge) :
    (g.removeEdge e).properties =
      g.properties.mapColumns (Subject.edge e).scope (·.reset (Subject.edge e).slot) := by
  obtain ⟨ends, hget, -⟩ := Option.map_eq_some_iff.mp h
  unfold removeEdge
  rw [hget]
  rfl

/-- Without an edge a graph is as before otherwise. -/
theorem retains_removeEdge (g : Graph) (e : EdgeId) : g.Retains (g.removeEdge e) := by
  cases hedge : g.edge? e with
  | none =>
    rw [removeEdge_of_none hedge]
    exact .refl g
  | some edge =>
    apply retains_of_reset (.edge e) (properties_removeEdge hedge)
    intro subject hs
    exact contains_removeEdge.mp hs

theorem retains_foldl_removeEdge (es : List EdgeId) (g : Graph) :
    g.Retains (es.foldl removeEdge g) := by
  induction es generalizing g with
  | nil => exact .refl g
  | cons e es ih => exact (retains_removeEdge g e).trans (ih (g.removeEdge e))

/-- A slot of a vertex that is freed is the only one. -/
theorem contains_remove_vertexTable {v : VertexId} {properties : Properties} :
    contains { g with vertexTable := g.vertexTable.remove v.index, properties } subject ↔
      subject ≠ .vertex v ∧ g.contains subject := by
  cases subject with
  | vertex w =>
    show SlotTable.contains _ w.index ↔ _ ∧ g.vertexTable.contains w.index
    rw [SlotTable.contains, SlotTable.get?_remove, Ne, Subject.vertex.injEq, VertexId.ext_iff]
    by_cases hw : v.index = w.index
    · simp [hw]
    · simp [hw, Ne.symm hw, SlotTable.contains]
  | edge e => simp [contains, containsEdge]
  | graph => simp [contains]

/-- Without a vertex and its edges a graph is as before otherwise. -/
theorem retains_removeVertex (g : Graph) (v : VertexId) : g.Retains (g.removeVertex v) := by
  by_cases hv : g.containsVertex v
  · rw [removeVertex_of_contains hv]
    refine (retains_foldl_removeEdge (g.incident v).toList g).trans ?_
    apply retains_of_reset (.vertex v) rfl
    intro subject hs
    exact contains_remove_vertexTable.mp hs
  · rw [removeVertex, if_neg hv]
    exact .refl g

/-! ### Declarations and settings -/

section Declared

variable {scope : Scope} {declaredName : String} {type : ValueType}

theorem column?_declared (h : g.declared scope declaredName type = .ok next) (scope' : Scope)
    (name : String) :
    next.properties.column? scope' name =
      if declaredName = name then
        if scope = scope' then some (.defaults type (g.slots scope)) else none
      else g.properties.column? scope' name := by
  obtain ⟨-, rfl⟩ := of_declared h
  unfold Properties.column?
  by_cases hname : declaredName = name
  · subst hname
    rw [Std.ExtTreeMap.getElem?_insert_self, if_pos rfl]
    rfl
  · rw [Std.ExtTreeMap.getElem?_insert, if_neg (by simpa using hname), if_neg hname]

theorem contains_declared (h : g.declared scope declaredName type = .ok next) (subject : Subject) :
    next.contains subject = g.contains subject := by
  obtain ⟨-, rfl⟩ := of_declared h
  cases subject with
  | vertex v => rfl
  | edge e => rfl
  | graph => rfl

/-- A name that is free has no column in any scope. -/
theorem column?_of_free (h : g.propertyScope? name = none) (scope : Scope) :
    g.properties.column? scope name = none := by
  unfold propertyScope? Properties.scope? at h
  unfold Properties.column?
  rw [Option.map_eq_none_iff.mp h]
  rfl

/-- A declaration adds its name to the declared ones. -/
theorem propertyType_declared (h : g.declared scope declaredName type = .ok next) (scope' : Scope)
    (name : String) (type' : ValueType) :
    next.propertyType scope' name = .ok type' ↔
      (scope = scope' ∧ declaredName = name ∧ type = type') ∨
        g.propertyType scope' name = .ok type' := by
  rw [propertyType_eq_ok_iff, propertyType_eq_ok_iff, column?_declared h]
  by_cases hname : declaredName = name
  · subst hname
    rw [if_pos rfl, column?_of_free (of_declared h).1]
    by_cases hscope : scope = scope'
    · simp [hscope]
    · simp [hscope]
  · simp [hname]

/-- A declaration changes no value of another name. -/
theorem value_declared_of_ne (h : g.declared scope declaredName type = .ok next)
    (hname : declaredName ≠ name) (hs : g.contains subject) :
    next.value subject name = g.value subject name := by
  apply value_congr hs
  · rw [contains_declared h]
    exact hs
  · rw [column?_declared h, if_neg hname]

/-- A name that was declared now has the default everywhere. -/
theorem value_declared_self (h : g.declared subject.scope declaredName type = .ok next)
    (hs : g.contains subject) :
    next.value subject declaredName = .ok (Value.default type) := by
  have hcolumn := column?_declared h subject.scope declaredName
  rw [if_pos rfl, if_pos rfl] at hcolumn
  rw [value_of_column? hcolumn (by rw [contains_declared h]; exact hs), Column.getD_defaults]

end Declared

section Settings

variable {fresh : Nat} {target : Subject} {setName : String} {value : Value}

theorem contains_withValue (h : g.withValue fresh target setName value = .ok next)
    (subject : Subject) : next.contains subject = g.contains subject := by
  obtain ⟨column, datum, -, -, -, rfl⟩ := of_withValue h
  cases subject with
  | vertex v => rfl
  | edge e => rfl
  | graph => rfl

/-- Replacing the column of a declared name changes no other column. -/
theorem column?_setColumn_of_column? {column : Column}
    (hc : g.properties.column? target.scope setName = some column) (replaced : Column)
    (scope : Scope) (name : String) :
    (g.properties.setColumn setName replaced).column? scope name =
      if setName = name ∧ target.scope = scope then some replaced
      else g.properties.column? scope name := by
  rw [Properties.column?_setColumn]
  by_cases hname : setName = name
  · subst hname
    rw [if_pos rfl]
    cases hother : g.properties.column? scope setName with
    | none =>
      have hne : target.scope ≠ scope := by
        rintro rfl
        rw [hc] at hother
        cases hother
      rw [if_neg (fun h => hne h.2)]
      rfl
    | some other =>
      rw [if_pos ⟨rfl, column?_scope hc hother⟩]
      rfl
  · rw [if_neg hname, if_neg (fun h => hname h.1)]

theorem propertyType_withValue (h : g.withValue fresh target setName value = .ok next) :
    next.propertyType = g.propertyType := by
  obtain ⟨column, datum, hcolumn, -, -, rfl⟩ := of_withValue h
  have hc := Properties.column_eq_ok_iff.mp hcolumn
  funext scope name
  apply propertyType_congr
  rw [column?_setColumn_of_column? hc]
  split_ifs with hsame
  · obtain ⟨rfl, rfl⟩ := hsame
    rw [hc]
    rfl
  · rfl

/-- A setting changes no value of another subject or another name. -/
theorem value_withValue_of_ne (h : g.withValue fresh target setName value = .ok next)
    (hne : ¬ (target = subject ∧ setName = name)) (hs : g.contains subject) :
    next.value subject name = g.value subject name := by
  have hs' : next.contains subject := by
    rw [contains_withValue h]
    exact hs
  obtain ⟨column, datum, hcolumn, -, -, rfl⟩ := of_withValue h
  have hc := Properties.column_eq_ok_iff.mp hcolumn
  apply value_congr hs hs'
  rw [column?_setColumn_of_column? hc]
  split_ifs with hsame
  · obtain ⟨rfl, hscope⟩ := hsame
    rw [← hscope, hc, Option.map_some, Option.map_some, Column.getD_put, if_neg]
    intro hslot
    exact hne ⟨Subject.eq_of_scope_of_slot hscope hslot, rfl⟩
  · rfl

/-- A value that was set is read, turned into one of the declared type. -/
theorem value_withValue_self (h : g.withValue fresh target setName value = .ok next)
    {type : ValueType} (htype : g.propertyType target.scope setName = .ok type) :
    ∃ stored, next.value target setName = .ok stored ∧ value.coerceTo fresh type = .ok stored := by
  have hs := contains_withValue h target
  obtain ⟨column, datum, hcolumn, hrequire, hdatum, rfl⟩ := of_withValue h
  have hc := Properties.column_eq_ok_iff.mp hcolumn
  obtain ⟨c, hc', rfl⟩ := propertyType_eq_ok_iff.mp htype
  obtain rfl : column = c := Option.some.inj (hc.symm.trans hc')
  have hnext := column?_setColumn_of_column? hc (column.put target.slot datum) target.scope setName
  rw [if_pos ⟨rfl, rfl⟩] at hnext
  refine ⟨⟨column.type, datum⟩, ?_, ?_⟩
  · rw [value_of_column? hnext (by rw [hs]; exact require_eq_ok_iff.mp hrequire), Column.getD_put,
      if_pos rfl]
  · rw [Value.coerceTo, hdatum]
    rfl

end Settings

end Graph

end GraphGames
