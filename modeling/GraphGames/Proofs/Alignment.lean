import GraphGames.Proofs.Ledger

/-!
# Columns have a cell for each slot

The values of a property are kept apart from the tables of vertices and edges, in a column with one
cell for each slot. Both grow together, so what is in the graph always has a cell.

* `Graph.Aligned`: every column has as many cells as its scope has slots;
* `Graph.Aligned.becomes`: every change keeps this, and `Graph.Reachable.aligned` has it;
* `Graph.Aligned.get?`: a subject of the graph has a cell in every column of its scope.
-/

namespace GraphGames

/-- A cell is read with the default beyond the end, which does not matter before it. -/
theorem Column.get?_eq_getD {c : Column} {i : Nat} (h : i < c.size) : c.get? i = some (c.getD i) := by
  unfold getD
  cases hget : c.get? i with
  | none => exact absurd (get?_eq_none_iff.mp hget) (Nat.not_le_of_lt h)
  | some value => rfl

namespace Graph

variable {g next : Graph} {es : List Edge}

/-- Every column has as many cells as its scope has slots. -/
def Aligned (g : Graph) : Prop :=
  ∀ scope name c, g.properties.column? scope name = some c → c.size = g.slots scope

/-- A subject of the graph has a slot. -/
theorem slot_lt_slots {subject : Subject} (h : g.require subject = .ok ()) :
    subject.slot < g.slots subject.scope := by
  cases subject with
  | vertex v =>
    by_cases hv : g.containsVertex v
    · exact SlotTable.lt_capacity_of_contains hv
    · simp [require, requireVertex, hv] at h
  | edge e =>
    by_cases he : g.containsEdge e
    · exact SlotTable.lt_capacity_of_contains he
    · simp [require, he] at h
  | graph => exact Nat.one_pos

/-- A name is declared in one scope only. -/
theorem column?_scope {scope scope' : Scope} {name : String} {c c' : Column}
    (h : g.properties.column? scope name = some c)
    (h' : g.properties.column? scope' name = some c') : scope = scope' := by
  unfold Properties.column? at h h'
  obtain ⟨p, hp, h⟩ := Option.bind_eq_some_iff.mp h
  rw [hp] at h'
  obtain ⟨hscope, -⟩ := Option.ite_none_right_eq_some.mp h
  obtain ⟨hscope', -⟩ := Option.ite_none_right_eq_some.mp h'
  exact hscope.symm.trans hscope'

namespace Aligned

theorem slot_lt_size (h : g.Aligned) {subject : Subject} (hsubject : g.require subject = .ok ())
    {name : String} {c : Column} (hc : g.properties.column? subject.scope name = some c) :
    subject.slot < c.size := by
  rw [h _ _ _ hc]
  exact slot_lt_slots hsubject

/-- A subject of the graph has a cell in every column of its scope. -/
theorem get? (h : g.Aligned) {subject : Subject} (hsubject : g.require subject = .ok ())
    {name : String} {c : Column} (hc : g.properties.column? subject.scope name = some c) :
    c.get? subject.slot = some (c.getD subject.slot) :=
  Column.get?_eq_getD (h.slot_lt_size hsubject hc)

theorem empty : Graph.empty.Aligned := by
  intro scope name c hc
  simp [Properties.column?, Graph.empty] at hc

/-- Changing the columns of a scope together with its slots. -/
theorem mapColumns (h : g.Aligned) (scope : Scope) (f : Column → Column)
    (hproperties : next.properties = g.properties.mapColumns scope f)
    (hscope : ∀ c : Column, c.size = g.slots scope → (f c).size = next.slots scope)
    (hother : ∀ other, scope ≠ other → next.slots other = g.slots other) : next.Aligned := by
  intro scope' name c hc
  rw [hproperties, Properties.column?_mapColumns] at hc
  by_cases hs : scope = scope'
  · subst hs
    rw [if_pos rfl] at hc
    obtain ⟨before, hbefore, rfl⟩ := Option.map_eq_some_iff.mp hc
    exact hscope before (h _ _ _ hbefore)
  · rw [if_neg hs] at hc
    rw [hother scope' hs]
    exact h _ _ _ hc

theorem addVertex (h : g.Aligned) (hwell : g.vertexTable.WellFormed) : g.addVertex.Aligned := by
  apply h.mapColumns .vertex (fun c => (c.grow (_ + 1)).reset _) rfl
  · intro c hc
    rw [Column.size_reset, Column.size_grow, hc]
    exact (hwell.capacity_insert {}).symm
  · intro other hne
    cases other with
    | vertex => exact absurd rfl hne
    | edge => rfl
    | graph => rfl

theorem insertEdge (h : g.Aligned) (hwell : g.edgeTable.WellFormed) (source target : VertexId) :
    (g.insertEdge source target).Aligned := by
  apply h.mapColumns .edge (fun c => (c.grow (_ + 1)).reset _) rfl
  · intro c hc
    rw [Column.size_reset, Column.size_grow, hc]
    exact (hwell.capacity_insert _).symm
  · intro other hne
    cases other with
    | vertex => simp [Graph.insertEdge, slots]
    | edge => exact absurd rfl hne
    | graph => rfl

theorem removeEdge (h : g.Aligned) (e : EdgeId) : (g.removeEdge e).Aligned := by
  unfold Graph.removeEdge
  cases g.edgeTable.get? e.index with
  | none => exact h
  | some ends =>
    apply h.mapColumns .edge (·.reset e.index) rfl
    · intro c hc
      rw [Column.size_reset, hc]
      exact (SlotTable.capacity_remove g.edgeTable e.index).symm
    · intro other hne
      cases other with
      | vertex => simp [slots]
      | edge => exact absurd rfl hne
      | graph => rfl

theorem removeVertex (h : g.Aligned) (v : VertexId) : (g.removeVertex v).Aligned := by
  by_cases hv : g.containsVertex v
  · have hbare : (g.bare v).Aligned := foldl_keeps (fun _ e h => h.removeEdge e) _ h
    rw [removeVertex_of_contains hv]
    apply hbare.mapColumns .vertex (·.reset v.index) rfl
    · intro c hc
      rw [Column.size_reset, hc]
      exact (SlotTable.capacity_remove (g.bare v).vertexTable v.index).symm
    · intro other hne
      cases other with
      | vertex => exact absurd rfl hne
      | edge => rfl
      | graph => rfl
  · rw [Graph.removeVertex, if_neg hv]
    exact h

theorem declared (h : g.Aligned) {scope : Scope} {name : String} {type : ValueType}
    (hnext : g.declared scope name type = .ok next) : next.Aligned := by
  obtain ⟨-, rfl⟩ := of_declared hnext
  intro scope' other c hc
  unfold Properties.column? at hc
  by_cases hname : name = other
  · subst hname
    rw [Std.ExtTreeMap.getElem?_insert_self, Option.bind_some] at hc
    obtain ⟨rfl, hcells⟩ := Option.ite_none_right_eq_some.mp hc
    rw [← Option.some.inj hcells]
    exact Column.size_defaults type _
  · rw [Std.ExtTreeMap.getElem?_insert, if_neg (by simpa using hname)] at hc
    exact h scope' other c hc

theorem withValue (h : g.Aligned) {fresh : Nat} {subject : Subject} {name : String} {value : Value}
    (hnext : g.withValue fresh subject name value = .ok next) : next.Aligned := by
  obtain ⟨column, datum, hcolumn, hsubject, -, rfl⟩ := of_withValue hnext
  have hcolumn := Properties.column_eq_ok_iff.mp hcolumn
  intro scope other c hc
  rw [Properties.column?_setColumn] at hc
  by_cases hname : name = other
  · subst hname
    rw [if_pos rfl, Option.map_eq_some_iff] at hc
    obtain ⟨before, hbefore, rfl⟩ := hc
    obtain rfl := column?_scope hcolumn hbefore
    rw [Column.size_put, Nat.max_eq_left (h.slot_lt_size hsubject hcolumn)]
    exact h _ _ _ hcolumn
  · rw [if_neg hname] at hc
    exact h scope other c hc

theorem becomes (h : g.Aligned) (hlists : g.Lists es) {c : Change} (hc : g.Becomes c next) :
    next.Aligned := by
  cases hc with
  | addVertex => exact h.addVertex hlists.vertexTable
  | insertEdge source target hs ht => exact h.insertEdge hlists.edgeTable source target
  | removeVertex v => exact h.removeVertex v
  | removeEdge e => exact h.removeEdge e
  | declare hd => exact h.declared hd
  | setValue hs => exact h.withValue hs

end Aligned

theorem aligned_of_leads {cs : List Change} (h : Graph.empty.Leads cs g) : g.Aligned := by
  induction h with
  | refl => exact Aligned.empty
  | step h hc ih => exact ih.becomes (lists_ledger h) hc

theorem Reachable.aligned (h : Reachable g) : g.Aligned := by
  obtain ⟨history, rfl⟩ := reachable_iff_after.mp h
  exact aligned_of_leads (leads_after history Graph.empty)

end Graph

end GraphGames
