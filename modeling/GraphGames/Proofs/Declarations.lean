import GraphGames.Proofs.Recall

/-!
# Declarations are for good

A name is declared once. From then on it belongs to one scope and has values of one type, whatever is
done to the graph. So the names of the three scopes never overlap, and all of them are listed in
order.

* `Graph.Declares`, `Graph.declares_of_propertyType`: what is said of a name with a scope and a
  type, all of which follows from its type;
* `Graph.propertyType_after`: no operation takes a declaration back;
* `Graph.Named`, `Graph.named`: how names are listed;
* `Graph.declares_after`: what can be said of all names after every history.
-/

namespace GraphGames

namespace Properties

variable {ps : Properties} {scope : Scope} {name : String}

/-- All names are listed in strictly ascending order. -/
theorem pairwise_allNames (ps : Properties) : ps.allNames.Pairwise (· < ·) :=
  Std.ExtTreeMap.ordered_keys.imp fun hlt => compare_lt_iff_lt.mp hlt

/-- The names of a scope are listed in the order of all names. -/
theorem sublist_allNames (ps : Properties) (scope : Scope) :
    (ps.names scope).Sublist ps.allNames := by
  unfold allNames names
  rw [← Std.ExtTreeMap.map_fst_toList_eq_keys]
  generalize ps.toList = entries
  induction entries with
  | nil => exact .slnil
  | cons entry entries ih =>
    by_cases hscope : entry.2.scope = scope
    · simpa [hscope] using ih
    · simpa [hscope] using ih.cons entry.1

/-- The names of a scope are those that are declared there. -/
theorem mem_names : name ∈ ps.names scope ↔ ps.scope? name = some scope := by
  unfold names scope?
  rw [List.mem_filterMap, Option.map_eq_some_iff]
  constructor
  · rintro ⟨⟨declared, p⟩, hentry, hname⟩
    obtain ⟨hscope, hsome⟩ := Option.ite_none_right_eq_some.mp hname
    obtain rfl := Option.some.inj hsome
    exact ⟨p, Std.ExtTreeMap.mem_toList_iff_getElem?_eq_some.mp hentry, hscope⟩
  · rintro ⟨p, hp, rfl⟩
    exact ⟨(name, p), Std.ExtTreeMap.mem_toList_iff_getElem?_eq_some.mpr hp, if_pos rfl⟩

theorem mem_allNames : name ∈ ps.allNames ↔ ∃ scope, name ∈ ps.names scope := by
  unfold allNames
  simp only [mem_names, scope?, Std.ExtTreeMap.mem_keys, Std.ExtTreeMap.mem_iff_isSome_getElem?,
    Option.map_eq_some_iff, Option.isSome_iff_exists]
  constructor
  · rintro ⟨p, hp⟩
    exact ⟨p.scope, p, hp, rfl⟩
  · rintro ⟨scope, p, hp, -⟩
    exact ⟨p, hp⟩

end Properties

namespace Graph

variable {g : Graph} {scope other : Scope} {name : String} {type : ValueType}
variable {subject : Subject} {value : Value}

/-! ### What a declaration settles -/

/-- What is said of a name that belongs to a scope and has values of a type. -/
structure Declares (g : Graph) (scope : Scope) (name : String) (type : ValueType) : Prop where
  /-- The graph reports the scope and the type. -/
  reported : g.propertyScope? name = some scope ∧ g.propertyType scope name = .ok type
  /-- The name is unknown in the other scopes. -/
  unknown : ∀ other, other ≠ scope →
    g.propertyType other name = .error (.unknownProperty name other)
  /-- There is a property of that name in its scope only, and with its type only. -/
  hasProperty : ∀ other expected, g.hasProperty other name expected ↔
    other = scope ∧ ∀ t ∈ expected, t = type
  /-- The name cannot be declared again. -/
  taken : ∀ other type', (Update.declare other name type').run g = (.error (.nameTaken name scope), g)
  /-- Every subject of the scope has a value, and every value that is read has the type. -/
  readable : ∀ subject, subject.scope = scope → g.contains subject →
    ∃ value, g.value subject name = .ok value
  value : ∀ subject value, g.value subject name = .ok value →
    subject.scope = scope ∧ value.type = type
  /-- The values of all vertices or of all edges can be listed, and have the type. -/
  vertexValues : scope = .vertex → ∃ entries, g.vertexValues name = .ok entries ∧
    ∀ entry ∈ entries, entry.2.type = type
  edgeValues : scope = .edge → ∃ entries, g.edgeValues name = .ok entries ∧
    ∀ entry ∈ entries, entry.2.type = type
  /-- They cannot be listed for other scopes. -/
  unlisted : (scope ≠ .vertex → g.vertexValues name = .error (.unknownProperty name .vertex)) ∧
    (scope ≠ .edge → g.edgeValues name = .error (.unknownProperty name .edge))

/-- A name is declared for the scope in which it has a type. -/
theorem propertyScope?_eq_some_iff :
    g.propertyScope? name = some scope ↔ ∃ type, g.propertyType scope name = .ok type := by
  constructor
  · intro h
    obtain ⟨p, hp, rfl⟩ := Option.map_eq_some_iff.mp h
    refine ⟨p.column.type, propertyType_eq_ok_iff.mpr ⟨p.column, ?_, rfl⟩⟩
    simp [Properties.column?, hp]
  · rintro ⟨type, htype⟩
    obtain ⟨column, hcolumn, -⟩ := propertyType_eq_ok_iff.mp htype
    obtain ⟨p, hp, hscope⟩ := Option.bind_eq_some_iff.mp hcolumn
    obtain ⟨rfl, -⟩ := Option.ite_none_right_eq_some.mp hscope
    exact Option.map_eq_some_iff.mpr ⟨p, hp, rfl⟩

/-- A name has no column outside its scope. -/
theorem column?_of_ne (h : g.propertyScope? name = some scope) (hne : other ≠ scope) :
    g.properties.column? other name = none := by
  obtain ⟨p, hp, rfl⟩ := Option.map_eq_some_iff.mp h
  unfold Properties.column?
  rw [hp]
  exact if_neg hne.symm

theorem column_of_ne (h : g.propertyScope? name = some scope) (hne : other ≠ scope) :
    g.properties.column other name = .error (.unknownProperty name other) := by
  unfold Properties.column
  rw [column?_of_ne h hne]

/-- There is a property of a name in one scope only, and with one type only. -/
theorem hasProperty_iff (h : g.propertyType scope name = .ok type) (other : Scope)
    (expected : Option ValueType) :
    g.hasProperty other name expected ↔ other = scope ∧ ∀ t ∈ expected, t = type := by
  unfold hasProperty
  by_cases hother : other = scope
  · obtain ⟨column, hcolumn, rfl⟩ := propertyType_eq_ok_iff.mp h
    rw [hother, hcolumn]
    cases expected <;> simp
  · rw [column?_of_ne (propertyScope?_eq_some_iff.mpr ⟨type, h⟩) hother]
    simp [hother]

theorem run_declare_of_taken (h : g.propertyScope? name = some scope) (other : Scope)
    (type : ValueType) :
    (Update.declare other name type).run g = (.error (.nameTaken name scope), g) := by
  have hdeclared : g.declared other name type = .error (.nameTaken name scope) := by
    unfold propertyScope? at h
    unfold declared Properties.declare Properties.requireFree
    rw [h]
    rfl
  rw [Update.run_declare, hdeclared]

/-- A value that is read has the type of its property. -/
theorem propertyType_of_value (h : g.value subject name = .ok value) :
    g.propertyType subject.scope name = .ok value.type := by
  obtain ⟨column, hcolumn, -⟩ := bind_eq_ok_iff.mp h
  have hc := Properties.column_eq_ok_iff.mp hcolumn
  rw [value_of_column? hc (contains_of_value_eq_ok h)] at h
  obtain rfl := Except.ok.inj h
  exact propertyType_eq_ok_iff.mpr ⟨column, hc, (Column.type_getD ..).symm⟩

/-- Values are read in the scope of the name, and have its type. -/
theorem type_of_value (h : g.propertyType scope name = .ok type)
    (hread : g.value subject name = .ok value) : subject.scope = scope ∧ value.type = type := by
  have hread := propertyType_of_value hread
  have hscope := propertyScope?_eq_some_iff.mpr ⟨type, h⟩
  rw [propertyScope?_eq_some_iff.mpr ⟨value.type, hread⟩, Option.some.injEq] at hscope
  subst hscope
  exact ⟨rfl, Except.ok.inj (hread.symm.trans h)⟩

/-- All that is said of a name follows from its type. -/
theorem declares_of_propertyType (h : g.propertyType scope name = .ok type) :
    g.Declares scope name type := by
  have hscope := propertyScope?_eq_some_iff.mpr ⟨type, h⟩
  obtain ⟨column, hcolumn, -⟩ := propertyType_eq_ok_iff.mp h
  constructor
  · exact ⟨hscope, h⟩
  · intro other hne
    rw [propertyType, column_of_ne hscope hne]
    rfl
  · exact hasProperty_iff h
  · exact run_declare_of_taken hscope
  · rintro subject rfl hs
    exact ⟨_, value_of_column? hcolumn hs⟩
  · exact fun _ _ => type_of_value h
  · rintro rfl
    obtain ⟨entries, hentries, -, hmem⟩ := exists_vertexValues h
    exact ⟨entries, hentries, fun entry hentry => (type_of_value h ((hmem _ _).mp hentry)).2⟩
  · rintro rfl
    obtain ⟨entries, hentries, -, hmem⟩ := exists_edgeValues h
    exact ⟨entries, hentries, fun entry hentry => (type_of_value h ((hmem _ _).mp hentry)).2⟩
  · constructor
    · intro hne
      rw [Graph.vertexValues, column_of_ne hscope hne.symm]
      rfl
    · intro hne
      rw [Graph.edgeValues, column_of_ne hscope hne.symm]
      rfl

/-! ### Declarations last -/

/-- A declaration that succeeds settles the type of its name. -/
theorem propertyType_of_run_declare (h : ((Update.declare scope name type).run g).1 = .ok ()) :
    ((Update.declare scope name type).run g).2.propertyType scope name = .ok type := by
  rw [Update.run_declare] at h ⊢
  cases hd : g.declared scope name type with
  | error e =>
    rw [hd] at h
    cases h
  | ok next => exact (propertyType_declared hd scope name type).mpr (.inl ⟨rfl, rfl, rfl⟩)

/-- No operation takes a declaration back. -/
theorem propertyType_after (h : g.propertyType scope name = .ok type) (history : List Operation) :
    (g.after history).propertyType scope name = .ok type := by
  have hleads := leads_after history g
  generalize g.changes history = log, g.after history = last at hleads ⊢
  induction hleads with
  | refl => exact h
  | step _ hc ih => exact hc.propertyType_iff.mpr (.inr ih)

/-! ### Lists of names -/

/-- What is said of the lists of names. -/
structure Named (g : Graph) : Prop where
  /-- All names are listed in strictly ascending order. -/
  sorted : g.properties.allNames.Pairwise (· < ·)
  /-- They are the names of the scopes, which are listed in the same order and share none. -/
  union : ∀ name, name ∈ g.properties.allNames ↔ ∃ scope, name ∈ g.properties.names scope
  ordered : ∀ scope, (g.properties.names scope).Sublist g.properties.allNames
  disjoint : ∀ scope other, scope ≠ other →
    (g.properties.names scope).Disjoint (g.properties.names other)
  /-- The names of a scope are those that the graph reports for it. -/
  reported : ∀ scope name, name ∈ g.properties.names scope ↔ g.propertyScope? name = some scope

theorem named (g : Graph) : g.Named where
  sorted := g.properties.pairwise_allNames
  union _ := Properties.mem_allNames
  ordered := g.properties.sublist_allNames
  disjoint scope other hne name hname hother := by
    rw [Properties.mem_names] at hname hother
    exact hne (Option.some.inj (hname.symm.trans hother))
  reported _ _ := Properties.mem_names

/-! ### After every history -/

/-- **Declarations are for good.** Once a declaration has succeeded, or a name has a type, all later
graphs say so, and the lists of names of every graph agree with that. -/
theorem declares_after (g : Graph) (history : List Operation) :
    (∀ scope name type, ((Update.declare scope name type).run g).1 = .ok () →
      (((Update.declare scope name type).run g).2.after history).Declares scope name type) ∧
    (∀ scope name type, g.propertyType scope name = .ok type →
      (g.after history).Declares scope name type) ∧
    (g.after history).Named := by
  refine ⟨?_, ?_, named _⟩
  · intro scope name type hrun
    exact declares_of_propertyType (propertyType_after (propertyType_of_run_declare hrun) history)
  · intro scope name type htype
    exact declares_of_propertyType (propertyType_after htype history)

/-- The name stays with the vertices when it is declared for edges, and when a vertex goes and another
comes in its place. A value that is set to an integer is read as one of the declared type. -/
theorem declares_weight :
    let g := ((Update.declare .vertex "weight" .float).run empty).2.after
      [.declare .graph "owner" .string, .addVertex, .declare .edge "weight" .int, .removeVertex ⟨0⟩,
        .addVertex, .setValue 0 (.vertex ⟨0⟩) "weight" (.int 1)]
    g.Declares .vertex "weight" .float ∧ g.Named ∧
      g.properties.allNames = ["owner", "weight"] ∧
      (g.value (.vertex ⟨0⟩) "weight").toOption.bind Value.float? = some (Binary64.ofInt64 1) := by
  obtain ⟨hdeclares, -, -⟩ := declares_after empty
    [.declare .graph "owner" .string, .addVertex, .declare .edge "weight" .int, .removeVertex ⟨0⟩,
      .addVertex, .setValue 0 (.vertex ⟨0⟩) "weight" (.int 1)]
  refine ⟨hdeclares .vertex "weight" .float rfl, named _, ?_, ?_⟩
  · decide +kernel
  · decide +kernel

end Graph

end GraphGames
