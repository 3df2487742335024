import GraphGames.Proofs.Frame

/-!
# Free slots are unset

A column has a cell for each slot, free ones included. A removal unsets the cells of what goes, and
only what is in the graph has its values set, so the cells of free slots hold the defaults at all
times.

* `Graph.Vacant`: the cells of what is not in the graph are unset;
* `Graph.Vacant.gains`, `Graph.Vacant.reset`, `Graph.Vacant.declared`, `Graph.Vacant.withValue`: one
  lemma for each kind of change;
* `Graph.Vacant.becomes`: every change keeps this, and `Graph.Reachable.vacant` has it.
-/

namespace GraphGames.Graph

variable {g next : Graph} {es : List Edge}

/-- The cells of what is not in the graph are unset. -/
def Vacant (g : Graph) : Prop :=
  ∀ subject name c, ¬ g.contains subject → g.properties.column? subject.scope name = some c →
    c.getD subject.slot = Value.default c.type

namespace Vacant

theorem empty : Graph.empty.Vacant := by
  intro subject name c _ hc
  simp [Properties.column?, Graph.empty] at hc

/-- A new subject takes a free slot, and leaves the others as they are. -/
theorem gains (h : g.Vacant) {made : Subject} (hgains : g.Gains next made) : next.Vacant := by
  intro subject name c hs hc
  have hfree : ¬ g.contains subject := fun hin => hs ((hgains.contains subject).mpr (.inr hin))
  rw [hgains.properties, Properties.column?_mapColumns] at hc
  split_ifs at hc with hscope
  · obtain ⟨before, hbefore, rfl⟩ := Option.map_eq_some_iff.mp hc
    rw [Column.getD_reset]
    split_ifs
    · rfl
    · rw [Column.getD_grow]
      exact h subject name before hfree hbefore
  · exact h subject name c hfree hc

/-- What goes has its cells unset. -/
theorem reset (h : g.Vacant) (gone : Subject)
    (hnext : next.properties = g.properties.mapColumns gone.scope (·.reset gone.slot))
    (hcontains : ∀ subject, subject ≠ gone → g.contains subject → next.contains subject) :
    next.Vacant := by
  intro subject name c hs hc
  rw [hnext, Properties.column?_mapColumns] at hc
  by_cases hgone : subject = gone
  · subst hgone
    rw [if_pos rfl] at hc
    obtain ⟨before, -, rfl⟩ := Option.map_eq_some_iff.mp hc
    rw [Column.getD_reset, if_pos rfl]
    rfl
  · have hfree : ¬ g.contains subject := fun hin => hs (hcontains subject hgone hin)
    split_ifs at hc with hscope
    · obtain ⟨before, hbefore, rfl⟩ := Option.map_eq_some_iff.mp hc
      rw [getD_reset_of_ne hscope hgone]
      exact h subject name before hfree hbefore
    · exact h subject name c hfree hc

theorem removeEdge (h : g.Vacant) (e : EdgeId) : (g.removeEdge e).Vacant := by
  cases hedge : g.edge? e with
  | none =>
    rw [removeEdge_of_none hedge]
    exact h
  | some edge =>
    apply h.reset (.edge e) (properties_removeEdge hedge)
    intro subject hne hin
    exact contains_removeEdge.mpr ⟨hne, hin⟩

theorem removeVertex (h : g.Vacant) (v : VertexId) : (g.removeVertex v).Vacant := by
  by_cases hv : g.containsVertex v
  · have hbare : (g.bare v).Vacant := foldl_keeps (fun _ e h => h.removeEdge e) _ h
    rw [removeVertex_of_contains hv]
    apply hbare.reset (.vertex v) rfl
    intro subject hne hin
    exact contains_remove_vertexTable.mpr ⟨hne, hin⟩
  · rw [Graph.removeVertex, if_neg hv]
    exact h

/-- A new column is unset everywhere. -/
theorem declared (h : g.Vacant) {scope : Scope} {name : String} {type : ValueType}
    (hnext : g.declared scope name type = .ok next) : next.Vacant := by
  intro subject other c hs hc
  rw [contains_declared hnext] at hs
  rw [column?_declared hnext] at hc
  split_ifs at hc with hname hscope
  · obtain rfl := Option.some.inj hc
    exact Column.getD_defaults ..
  · exact h subject other c hs hc

/-- Values are set for what is in the graph. -/
theorem withValue (h : g.Vacant) {fresh : Nat} {target : Subject} {name : String} {value : Value}
    (hnext : g.withValue fresh target name value = .ok next) : next.Vacant := by
  intro subject other c hs hc
  rw [contains_withValue hnext] at hs
  obtain ⟨column, datum, hcolumn, hrequire, -, rfl⟩ := of_withValue hnext
  have hset := Properties.column_eq_ok_iff.mp hcolumn
  rw [column?_setColumn_of_column? hset] at hc
  split_ifs at hc with hsame
  · obtain ⟨rfl, hscope⟩ := hsame
    obtain rfl := Option.some.inj hc
    have hslot : target.slot ≠ subject.slot := by
      intro hslot
      rw [← Subject.eq_of_scope_of_slot hscope hslot] at hs
      exact hs (require_eq_ok_iff.mp hrequire)
    rw [Column.getD_put, if_neg hslot]
    exact h subject name column hs (hscope ▸ hset)
  · exact h subject other c hs hc

theorem becomes (h : g.Vacant) (hlists : g.Lists es) {c : Change} (hc : g.Becomes c next) :
    next.Vacant := by
  cases hc with
  | addVertex => exact h.gains (gains_addVertex hlists.vertexTable)
  | insertEdge source target hs ht => exact h.gains (gains_insertEdge hlists.edgeTable source target)
  | removeVertex v => exact h.removeVertex v
  | removeEdge e => exact h.removeEdge e
  | declare hd => exact h.declared hd
  | setValue hs => exact h.withValue hs

end Vacant

theorem vacant_of_leads {cs : List Change} (h : Graph.empty.Leads cs g) : g.Vacant := by
  induction h with
  | refl => exact Vacant.empty
  | step h hc ih => exact ih.becomes (lists_ledger h) hc

theorem Reachable.vacant (h : g.Reachable) : g.Vacant := by
  obtain ⟨history, rfl⟩ := reachable_iff_after.mp h
  exact vacant_of_leads (leads_after history Graph.empty)

end GraphGames.Graph
