import GraphGames.Proofs.Adjacency
import GraphGames.Proofs.Frame

/-!
# Values are what was set last

Values are kept in columns whose cells are used again by later vertices and edges. What is read of a
graph can be told from the changes that were made to it, without the columns: it is the value that
was set last, among the changes since the property was declared and the vertex or edge came about,
or the default if there was none.

* `Change.makes`, `Change.declares`, `Change.setting?`: what a change does to a subject and a name;
* `Graph.lastSetting?`: the last setting since a subject came about and a name was declared;
* `Graph.Recalls`, `Graph.recalls_of_leads`: values are the last settings, along every chain of
  changes;
* `Graph.Remembers`, `Graph.remembers_after`: what can be read after a history, one value at a time
  or all values of a property, in terms of the changes that the history reports.
-/

namespace GraphGames

namespace Change

/-- Whether a change made a subject. The graph itself was never made. -/
def makes : Change → Subject → Bool
  | addVertex v, .vertex w => v = w
  | insertEdge e, .edge f => e.id = f
  | _, _ => false

theorem makes_addVertex {v : VertexId} {subject : Subject} :
    (addVertex v).makes subject ↔ subject = .vertex v := by
  cases subject <;> simp [makes, eq_comm]

theorem makes_insertEdge {e : Edge} {subject : Subject} :
    (insertEdge e).makes subject ↔ subject = .edge e.id := by
  cases subject <;> simp [makes, eq_comm]

/-- Whether a change declared a name. -/
def declares (name : String) : Change → Bool
  | declare _ declared _ => declared = name
  | _ => false

/-- What a change set a property of a subject to, with the stamp for a new box. -/
def setting? (subject : Subject) (name : String) : Change → Option (Nat × Value)
  | setValue fresh target set value =>
    if target = subject ∧ set = name then some (fresh, value) else none
  | _ => none

end Change

/-- The value that the last setting leaves in a property of a given type; the default if there was
none. -/
def ValueType.recalled (type : ValueType) : Option (Nat × Value) → Except ValueType Value
  | some (fresh, value) => value.coerceTo fresh type
  | none => .ok (Value.default type)

namespace Graph

/-- The changes since a subject came about and a name was declared, the latest first. -/
def since (log : List Change) (subject : Subject) (name : String) : List Change :=
  log.reverse.takeWhile fun c => !(c.makes subject || c.declares name)

/-- The last setting of a property of a subject since both came about. -/
def lastSetting? (log : List Change) (subject : Subject) (name : String) : Option (Nat × Value) :=
  (since log subject name).findSome? fun c => c.setting? subject name

variable {g next : Graph} {log : List Change} {c : Change} {subject : Subject} {name : String}

theorem lastSetting?_concat (log : List Change) (c : Change) (subject : Subject) (name : String) :
    lastSetting? (log ++ [c]) subject name =
      if c.makes subject || c.declares name then none
      else (c.setting? subject name).or (lastSetting? log subject name) := by
  unfold lastSetting? since
  rw [List.reverse_concat, List.takeWhile_cons]
  by_cases h : c.makes subject || c.declares name
  · simp [h]
  · simp only [h, Bool.not_false, if_true, List.findSome?_cons, Bool.false_eq_true, if_false]
    cases c.setting? subject name <;> rfl

/-- A change that has to do with neither the subject nor the name does not count. -/
theorem lastSetting?_concat_of_not (hmakes : c.makes subject = false)
    (hdeclares : c.declares name = false) (hset : c.setting? subject name = none) :
    lastSetting? (log ++ [c]) subject name = lastSetting? log subject name := by
  rw [lastSetting?_concat, hmakes, hdeclares, hset]
  rfl

/-! ### One change after the other -/

/-- Every declared property of every subject of the graph has the value that the log recalls. -/
def Recalls (g : Graph) (log : List Change) : Prop :=
  ∀ subject name type, g.contains subject → g.propertyType subject.scope name = .ok type →
    ∃ value, g.value subject name = .ok value ∧
      type.recalled (lastSetting? log subject name) = .ok value

namespace Recalls

/-- What a change leaves alone is recalled as before. -/
theorem keep (h : g.Recalls log) {type : ValueType} (hs : g.contains subject)
    (htype : g.propertyType subject.scope name = .ok type)
    (hvalue : next.value subject name = g.value subject name)
    (hlog : lastSetting? (log ++ [c]) subject name = lastSetting? log subject name) :
    ∃ value, next.value subject name = .ok value ∧
      type.recalled (lastSetting? (log ++ [c]) subject name) = .ok value := by
  rw [hvalue, hlog]
  exact h subject name type hs htype

/-- A new subject has nothing to recall. -/
theorem gains (h : g.Recalls log) {made : Subject} (hgains : g.Gains next made)
    (hmakes : ∀ subject, c.makes subject ↔ subject = made)
    (hdeclares : ∀ name, c.declares name = false)
    (hset : ∀ subject name, c.setting? subject name = none) : next.Recalls (log ++ [c]) := by
  intro subject name type hs htype
  rw [hgains.propertyType] at htype
  by_cases hmade : subject = made
  · subst hmade
    refine ⟨Value.default type, ?_, ?_⟩
    · rw [hgains.value_made, htype]
      rfl
    · rw [lastSetting?_concat, (hmakes subject).mpr rfl]
      rfl
  · have hg := ((hgains.contains subject).mp hs).resolve_left hmade
    refine h.keep hg htype (hgains.value hg name) ?_
    apply lastSetting?_concat_of_not _ (hdeclares name) (hset subject name)
    exact Bool.eq_false_iff.mpr (mt (hmakes subject).mp hmade)

/-- What a removal leaves is recalled as before, as removals do not count. -/
theorem retains (h : g.Recalls log) (hretains : g.Retains next)
    (hmakes : ∀ subject, c.makes subject = false) (hdeclares : ∀ name, c.declares name = false)
    (hset : ∀ subject name, c.setting? subject name = none) : next.Recalls (log ++ [c]) := by
  intro subject name type hs htype
  rw [hretains.propertyType] at htype
  exact h.keep (hretains.contains subject hs) htype (hretains.value subject hs name)
    (lastSetting?_concat_of_not (hmakes subject) (hdeclares name) (hset subject name))

theorem declared (h : g.Recalls log) {scope : Scope} {declaredName : String} {type : ValueType}
    (hnext : g.declared scope declaredName type = .ok next) :
    next.Recalls (log ++ [.declare scope declaredName type]) := by
  intro subject name type' hs htype
  rw [contains_declared hnext] at hs
  rcases (propertyType_declared hnext subject.scope name type').mp htype with
    ⟨rfl, rfl, rfl⟩ | hbefore
  · refine ⟨Value.default type, value_declared_self hnext hs, ?_⟩
    rw [lastSetting?_concat]
    simp [Change.declares, ValueType.recalled]
  · -- the name was free, so the property is another one
    have hne : declaredName ≠ name := by
      rintro rfl
      obtain ⟨column, hcolumn, -⟩ := propertyType_eq_ok_iff.mp hbefore
      rw [column?_of_free (of_declared hnext).1] at hcolumn
      cases hcolumn
    refine h.keep hs hbefore (value_declared_of_ne hnext hne hs) ?_
    exact lastSetting?_concat_of_not rfl (decide_eq_false hne) rfl

theorem withValue (h : g.Recalls log) {fresh : Nat} {target : Subject} {set : String}
    {value : Value} (hnext : g.withValue fresh target set value = .ok next) :
    next.Recalls (log ++ [.setValue fresh target set value]) := by
  intro subject name type hs htype
  rw [contains_withValue hnext] at hs
  rw [propertyType_withValue hnext] at htype
  by_cases hsame : target = subject ∧ set = name
  · obtain ⟨rfl, rfl⟩ := hsame
    obtain ⟨stored, hstored, hcoerce⟩ := value_withValue_self hnext htype
    refine ⟨stored, hstored, ?_⟩
    rw [lastSetting?_concat]
    simpa [Change.makes, Change.declares, Change.setting?, ValueType.recalled] using hcoerce
  · refine h.keep hs htype (value_withValue_of_ne hnext hsame hs) ?_
    exact lastSetting?_concat_of_not rfl rfl (if_neg hsame)

theorem becomes {es : List Edge} (h : g.Recalls log) (hlists : g.Lists es)
    (hc : g.Becomes c next) : next.Recalls (log ++ [c]) := by
  cases hc with
  | addVertex =>
    exact h.gains (gains_addVertex hlists.vertexTable) (fun _ => Change.makes_addVertex)
      (fun _ => rfl) fun _ _ => rfl
  | insertEdge source target hs ht =>
    exact h.gains (gains_insertEdge hlists.edgeTable source target) (fun _ => Change.makes_insertEdge)
      (fun _ => rfl) fun _ _ => rfl
  | removeVertex v =>
    exact h.retains (retains_removeVertex g v) (fun _ => rfl) (fun _ => rfl) fun _ _ => rfl
  | removeEdge e =>
    exact h.retains (retains_removeEdge g e) (fun _ => rfl) (fun _ => rfl) fun _ _ => rfl
  | declare hd => exact h.declared hd
  | setValue hs => exact h.withValue hs

end Recalls

/-- **Values are the last settings**, along every chain of changes of the empty graph. -/
theorem recalls_of_leads (h : Graph.empty.Leads log g) : g.Recalls log := by
  induction h with
  | refl =>
    intro subject name type _ htype
    obtain ⟨c, hc, -⟩ := propertyType_eq_ok_iff.mp htype
    simp [Properties.column?, Graph.empty] at hc
  | step h hc ih => exact ih.becomes (lists_ledger h) hc

/-! ### Declarations and subjects -/

/-- Only a declaration adds to the declared names, and nothing takes one away. -/
theorem Becomes.propertyType_iff (hc : g.Becomes c next) {scope : Scope} {type : ValueType} :
    next.propertyType scope name = .ok type ↔
      c = .declare scope name type ∨ g.propertyType scope name = .ok type := by
  cases hc with
  | addVertex => simp
  | insertEdge source target => simp
  | removeVertex v => simp [(retains_removeVertex g v).propertyType]
  | removeEdge e => simp [(retains_removeEdge g e).propertyType]
  | declare hd => rw [propertyType_declared hd, Change.declare.injEq]
  | setValue hs => simp [propertyType_withValue hs]

/-- The declared names are those that the log declares. -/
theorem propertyType_iff_of_leads (h : Graph.empty.Leads log g) (scope : Scope) (name : String)
    (type : ValueType) :
    g.propertyType scope name = .ok type ↔ .declare scope name type ∈ log := by
  induction h with
  | refl => simp [propertyType_eq_ok_iff, Properties.column?, Graph.empty]
  | step _ hc ih =>
    rw [hc.propertyType_iff, ih, List.mem_append, List.mem_singleton, or_comm, eq_comm]

/-- What a change adds to the subjects of a graph it has made. -/
theorem Becomes.makes_of_contains {es : List Edge} (hlists : g.Lists es) (hc : g.Becomes c next)
    (hs : next.contains subject) : g.contains subject ∨ c.makes subject := by
  cases hc with
  | addVertex =>
    rcases ((gains_addVertex hlists.vertexTable).contains subject).mp hs with hmade | hg
    · exact .inr (Change.makes_addVertex.mpr hmade)
    · exact .inl hg
  | insertEdge source target =>
    rcases ((gains_insertEdge hlists.edgeTable source target).contains subject).mp hs with hmade | hg
    · exact .inr (Change.makes_insertEdge.mpr hmade)
    · exact .inl hg
  | removeVertex v => exact .inl ((retains_removeVertex g v).contains subject hs)
  | removeEdge e => exact .inl ((retains_removeEdge g e).contains subject hs)
  | declare hd =>
    rw [contains_declared hd] at hs
    exact .inl hs
  | setValue hset =>
    rw [contains_withValue hset] at hs
    exact .inl hs

/-- Every subject but the graph itself was made. -/
theorem exists_makes_of_leads (h : Graph.empty.Leads log g) (hs : g.contains subject) :
    subject = .graph ∨ ∃ c ∈ log, c.makes subject := by
  induction h with
  | refl =>
    cases subject with
    | vertex v => simp [contains, containsVertex, Graph.empty, SlotTable.contains] at hs
    | edge e => simp [contains, containsEdge, Graph.empty, SlotTable.contains] at hs
    | graph => exact .inl rfl
  | @step log c mid next h hc ih =>
    rcases hc.makes_of_contains (lists_ledger h) hs with hbefore | hmakes
    · refine (ih hbefore).imp_right ?_
      rintro ⟨c', hc', hmakes⟩
      exact ⟨c', List.mem_append_left _ hc', hmakes⟩
    · exact .inr ⟨c, List.mem_append_right _ (List.mem_singleton_self c), hmakes⟩

/-! ### All values of a property -/

/-- The values of some subjects, listed from a column, are those that are read one at a time. -/
theorem mem_map_getD_iff {κ : Type} {keys : List κ} (subjectOf : κ → Subject) {column : Column}
    (hkeys : ∀ k, k ∈ keys ↔ g.contains (subjectOf k))
    (hcolumn : ∀ k, g.properties.column? (subjectOf k).scope name = some column) (k : κ)
    (value : Value) :
    (k, value) ∈ keys.map (fun k => (k, column.getD (subjectOf k).slot)) ↔
      g.value (subjectOf k) name = .ok value := by
  rw [List.mem_map]
  constructor
  · rintro ⟨k', hk', heq⟩
    obtain ⟨rfl, rfl⟩ := Prod.mk.inj heq
    exact value_of_column? (hcolumn k') ((hkeys k').mp hk')
  · intro hvalue
    have hs := contains_of_value_eq_ok hvalue
    rw [value_of_column? (hcolumn k) hs] at hvalue
    exact ⟨k, (hkeys k).mpr hs, Prod.ext rfl (Except.ok.inj hvalue)⟩

/-- The values of a vertex property, one for each vertex of the graph. -/
theorem exists_vertexValues {type : ValueType} (htype : g.propertyType .vertex name = .ok type) :
    ∃ entries, g.vertexValues name = .ok entries ∧ entries.map Prod.fst = g.vertices ∧
      ∀ v value, (v, value) ∈ entries ↔ g.value (.vertex v) name = .ok value := by
  obtain ⟨column, hcolumn, -⟩ := propertyType_eq_ok_iff.mp htype
  refine ⟨_, bind_eq_ok_iff.mpr ⟨column, Properties.column_eq_ok_iff.mpr hcolumn, rfl⟩, ?_, ?_⟩
  · rw [List.map_map, Function.comp_def, List.map_id']
  · exact mem_map_getD_iff .vertex (fun v => mem_vertices) fun _ => hcolumn

theorem nodup_map_id_edges (g : Graph) : (g.edges.map Edge.id).Nodup := by
  refine List.pairwise_map.mpr (g.pairwise_edges.imp fun hlt heq => ?_)
  exact absurd (congrArg EdgeId.index heq) (Nat.ne_of_lt hlt)

theorem mem_map_id_edges {e : EdgeId} : e ∈ g.edges.map Edge.id ↔ g.containsEdge e := by
  rw [containsEdge_iff, List.mem_map]
  constructor
  · rintro ⟨edge, hedge, rfl⟩
    exact ⟨edge, mem_edges.mp hedge⟩
  · rintro ⟨edge, hedge⟩
    obtain rfl := edge?_id hedge
    exact ⟨edge, mem_edges.mpr hedge, rfl⟩

/-- The values of an edge property, one for each edge of the graph. -/
theorem exists_edgeValues {type : ValueType} (htype : g.propertyType .edge name = .ok type) :
    ∃ entries, g.edgeValues name = .ok entries ∧ entries.map Prod.fst = g.edges.map Edge.id ∧
      ∀ e value, (e, value) ∈ entries ↔ g.value (.edge e) name = .ok value := by
  obtain ⟨column, hcolumn, -⟩ := propertyType_eq_ok_iff.mp htype
  refine ⟨_, bind_eq_ok_iff.mpr ⟨column, Properties.column_eq_ok_iff.mpr hcolumn, rfl⟩, ?_, ?_⟩
  · rw [List.map_map, Function.comp_def]
  · have hlist : g.edges.map (fun e => (e.id, column.getD e.id.index)) =
        (g.edges.map Edge.id).map fun e => (e, column.getD (Subject.edge e).slot) := by
      rw [List.map_map]
      rfl
    rw [hlist]
    exact mem_map_getD_iff .edge (fun e => mem_map_id_edges) fun _ => hcolumn

/-! ### Reading after a history -/

/-- What can be read of a graph is what the log of its changes remembers. -/
structure Remembers (g : Graph) (log : List Change) : Prop where
  /-- The declared names, scopes and types are those of the declarations. -/
  propertyType : ∀ scope name type,
    g.propertyType scope name = .ok type ↔ .declare scope name type ∈ log
  /-- What was made and not taken away since is in the graph, and nothing else is. -/
  contains : ∀ subject, g.contains subject ↔ Stands log subject
  /-- A vertex or edge of the graph was made. -/
  makes : ∀ subject, g.contains subject → subject = .graph ∨ ∃ c ∈ log, c.makes subject
  /-- A declared property of a subject of the graph has the value to which it was set last since the
  subject was made and the property declared, turned into one of the declared type; if it was not set
  since, it has the default. -/
  value : ∀ subject name type, g.contains subject →
    g.propertyType subject.scope name = .ok type →
    ∃ value, g.value subject name = .ok value ∧
      type.recalled (lastSetting? log subject name) = .ok value
  /-- The values of a vertex property are listed once for each vertex of the graph. -/
  vertexValues : ∀ name type, g.propertyType .vertex name = .ok type →
    ∃ entries, g.vertexValues name = .ok entries ∧ (entries.map Prod.fst).Nodup ∧
      (∀ v, v ∈ entries.map Prod.fst ↔ g.containsVertex v) ∧
      ∀ v value, (v, value) ∈ entries ↔ g.value (.vertex v) name = .ok value
  /-- The values of an edge property are listed once for each edge of the graph. -/
  edgeValues : ∀ name type, g.propertyType .edge name = .ok type →
    ∃ entries, g.edgeValues name = .ok entries ∧ (entries.map Prod.fst).Nodup ∧
      (∀ e, e ∈ entries.map Prod.fst ↔ g.containsEdge e) ∧
      ∀ e value, (e, value) ∈ entries ↔ g.value (.edge e) name = .ok value

/-- **After every history of the empty graph, what is read is what was set last**, according to the
changes that the history reports. -/
theorem remembers_after (history : List Operation) :
    (Graph.empty.after history).Remembers (Graph.empty.changes history) := by
  have hleads := leads_after history Graph.empty
  constructor
  · exact propertyType_iff_of_leads hleads
  · exact contains_iff_stands hleads
  · exact fun _ => exists_makes_of_leads hleads
  · exact recalls_of_leads hleads
  · intro name type htype
    obtain ⟨entries, hentries, hkeys, hvalues⟩ := exists_vertexValues htype
    refine ⟨entries, hentries, hkeys ▸ nodup_vertices _, ?_, hvalues⟩
    intro v
    rw [hkeys, mem_vertices]
  · intro name type htype
    obtain ⟨entries, hentries, hkeys, hvalues⟩ := exists_edgeValues htype
    refine ⟨entries, hentries, hkeys ▸ nodup_map_id_edges _, ?_, hvalues⟩
    intro e
    rw [hkeys, mem_map_id_edges]

/-- A vertex is removed after its weight was set, and its handle is taken by a new one, which has the
default. What was set at the other vertex is kept, as the integer that it was turned into. -/
theorem remembers_reused :
    let history := [.declare .vertex "weight" .int, .addVertices 2,
      .setValue 0 (.vertex ⟨0⟩) "weight" (.int 5), .setValue 0 (.vertex ⟨1⟩) "weight" (.bool true),
      .removeVertex ⟨0⟩, .addVertex]
    (Graph.empty.after history).Remembers (Graph.empty.changes history) ∧
      Stands (Graph.empty.changes history) (.vertex ⟨0⟩) ∧
      (lastSetting? (Graph.empty.changes history) (.vertex ⟨0⟩) "weight").isNone ∧
      ((Graph.empty.after history).value (.vertex ⟨0⟩) "weight").toOption.bind Value.int? = some 0 ∧
      ((Graph.empty.after history).value (.vertex ⟨1⟩) "weight").toOption.bind Value.int? = some 1 := by
  intro history
  have hremembers : (Graph.empty.after history).Remembers (Graph.empty.changes history) :=
    remembers_after history
  refine ⟨hremembers, (hremembers.contains _).mp ?_, ?_, ?_, ?_⟩
  · decide +kernel
  · decide +kernel
  · decide +kernel
  · decide +kernel

end Graph

end GraphGames
