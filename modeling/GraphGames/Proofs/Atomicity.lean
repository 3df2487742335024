import GraphGames.Proofs.Frame

/-!
# Failed operations change nothing

An operation asks all its questions before it changes anything, and what it does then cannot fail, but
for the write of a value: a column is written in place, and may reject the value, but then it is as it
was. So an operation that fails leaves the graph as it was, and a history goes on as if it had not been
tried.

* `Update.Silent`, `Update.Total`, `Update.Atomic`: updates that change nothing, that never fail, and
  that change nothing when they fail; `Update.Silent.bind_atomic` and `Update.Atomic.bind_total` put
  them together;
* `Graph.Rejects`: why a value cannot be set, with the error that says so;
* `Operation.Idle`, `Graph.failures_change_nothing`: operations that fail, and removals that find
  nothing to remove.
-/

namespace GraphGames

namespace Update

variable {α β : Type} {u : Update α} {f : α → Update β} {xs : List α}

/-- An update that changes nothing. -/
def Silent (u : Update α) : Prop := ∀ g, (u.run g).2 = g

/-- An update that never fails. -/
def Total (u : Update α) : Prop := ∀ g, ∃ a, (u.run g).1 = .ok a

/-- An update that changes nothing when it fails. -/
def Atomic (u : Update α) : Prop := ∀ g e, (u.run g).1 = .error e → (u.run g).2 = g

theorem silent_pure (a : α) : Silent (pure a) := fun _ => rfl

theorem silent_ask (question : Graph → Except Error α) : Silent (ask question) := fun _ => rfl

theorem total_pure (a : α) : Total (pure a) := fun _ => ⟨a, rfl⟩

theorem total_change (answer : Graph → α) (next : Graph → Graph) : Total (change answer next) :=
  fun g => ⟨answer g, rfl⟩

theorem Total.atomic (h : Total u) : Atomic u := by
  intro g e he
  obtain ⟨a, ha⟩ := h g
  rw [ha] at he
  cases he

theorem Silent.bind (hu : Silent u) (hf : ∀ a, Silent (f a)) : Silent (u >>= f) := by
  intro g
  have hnext := hu g
  rw [run_bind]
  cases hrun : u.run g with
  | mk answer next =>
    rw [hrun] at hnext
    cases answer with
    | ok a => exact (hf a next).trans hnext
    | error e => exact hnext

theorem Silent.forM {f : α → Update Unit} (hf : ∀ a, Silent (f a)) (xs : List α) :
    Silent (xs.forM f) := by
  induction xs with
  | nil => exact silent_pure ()
  | cons a xs ih => exact (hf a).bind fun _ => ih

theorem Total.bind (hu : Total u) (hf : ∀ a, Total (f a)) : Total (u >>= f) := by
  intro g
  obtain ⟨a, ha⟩ := hu g
  rw [run_bind]
  cases hrun : u.run g with
  | mk answer next =>
    rw [hrun] at ha
    obtain rfl : answer = .ok a := ha
    exact hf a next

theorem Total.mapM (hf : ∀ a, Total (f a)) (xs : List α) : Total (xs.mapM f) := by
  induction xs with
  | nil => exact total_pure []
  | cons a xs ih =>
    rw [List.mapM_cons]
    exact (hf a).bind fun b => ih.bind fun bs => total_pure (b :: bs)

/-- Questions may come before an update. -/
theorem Silent.bind_atomic (hu : Silent u) (hf : ∀ a, Atomic (f a)) : Atomic (u >>= f) := by
  intro g e he
  have hnext := hu g
  rw [run_bind] at he ⊢
  cases hrun : u.run g with
  | mk answer next =>
    rw [hrun] at he hnext
    obtain rfl : next = g := hnext
    cases answer with
    | ok a => exact hf a next e he
    | error e' => rfl

/-- What cannot fail may come after an update. -/
theorem Atomic.bind_total (hu : Atomic u) (hf : ∀ a, Total (f a)) : Atomic (u >>= f) := by
  intro g e he
  have hnext := hu g
  rw [run_bind] at he ⊢
  cases hrun : u.run g with
  | mk answer next =>
    rw [hrun] at he hnext
    cases answer with
    | ok a =>
      obtain ⟨b, hb⟩ := hf a next
      have herror : Except.ok b = Except.error e := hb.symm.trans he
      cases herror
    | error e' => exact hnext e' rfl

/-! ### The operations -/

theorem silent_requireEnds (source target : VertexId) : Silent (requireEnds source target) :=
  (silent_ask _).bind fun _ => silent_ask _

theorem total_addVertex : Total addVertex := total_change _ _

theorem total_insertEdge (source target : VertexId) : Total (insertEdge source target) :=
  total_change _ _

theorem atomic_addVertices (count : Nat) : Atomic (addVertices count) := by
  by_cases hcount : count = 0
  · subst hcount
    intro g e _
    rfl
  · have hvertices : Total ((List.range count).mapM fun _ => addVertex) :=
      Total.mapM (fun _ => total_addVertex) _
    have hrun : addVertices count = (List.range count).mapM fun _ => addVertex := by
      rw [addVertices, if_neg hcount]
    rw [hrun]
    exact hvertices.atomic

theorem atomic_addEdge (source target : VertexId) : Atomic (addEdge source target) :=
  (silent_requireEnds source target).bind_atomic fun _ => (total_insertEdge source target).atomic

theorem atomic_addEdges (pairs : List (VertexId × VertexId)) : Atomic (addEdges pairs) := by
  unfold addEdges
  refine Silent.bind_atomic ?_ fun _ => Total.atomic ?_
  · refine Silent.forM ?_ pairs
    rintro ⟨source, target⟩
    exact silent_requireEnds source target
  · refine Total.mapM ?_ pairs
    rintro ⟨source, target⟩
    exact total_insertEdge source target

theorem atomic_declare (scope : Scope) (name : String) (type : ValueType) :
    Atomic (declare scope name type) :=
  (silent_ask _).bind_atomic fun _ => (total_change _ _).atomic

/-- A column that rejects a value has not changed, though it is written in place. -/
theorem atomic_setValue (fresh : Nat) (subject : Subject) (name : String) (value : Value) :
    Atomic (setValue fresh subject name value) := by
  intro g e he
  rw [run_setValue] at he ⊢
  cases hnext : g.withValue fresh subject name value with
  | ok next =>
    rw [hnext] at he
    cases he
  | error e' => rfl

/-- A removal that finds nothing changes nothing. -/
theorem run_removeVertex_of_false {g : Graph} {v : VertexId}
    (h : ((removeVertex v).run g).1 = .ok false) : ((removeVertex v).run g).2 = g := by
  have hv : g.containsVertex v = false := Except.ok.inj h
  show g.removeVertex v = g
  unfold Graph.removeVertex
  simp [hv]

theorem run_removeEdge_of_false {g : Graph} {e : EdgeId}
    (h : ((removeEdge e).run g).1 = .ok false) : ((removeEdge e).run g).2 = g := by
  have he : g.containsEdge e = false := Except.ok.inj h
  have hget := SlotTable.contains_eq_false_iff.mp he
  show g.removeEdge e = g
  unfold Graph.removeEdge
  rw [hget]

end Update

/-- An operation that fails leaves the graph as it was. Only values that are set one after the other
may stop halfway. -/
theorem Operation.atomic {op : Operation} (hop : ∀ name entries, op ≠ .setValues name entries) :
    Update.Atomic op.update := by
  cases op with
  | addVertex => exact ((Update.total_change _ _).bind fun _ => Update.total_pure ()).atomic
  | addVertices count => exact (Update.atomic_addVertices count).bind_total fun _ => Update.total_pure ()
  | addEdge source target =>
    exact (Update.atomic_addEdge source target).bind_total fun _ => Update.total_pure ()
  | addEdges pairs => exact (Update.atomic_addEdges pairs).bind_total fun _ => Update.total_pure ()
  | removeVertex v => exact ((Update.total_change _ _).bind fun _ => Update.total_pure ()).atomic
  | removeVertices vs => exact (Update.total_change _ _).atomic
  | removeEdge e => exact ((Update.total_change _ _).bind fun _ => Update.total_pure ()).atomic
  | removeEdges es => exact (Update.total_change _ _).atomic
  | declare scope name type => exact Update.atomic_declare scope name type
  | setValue fresh subject name value => exact Update.atomic_setValue fresh subject name value
  | setValues name entries => exact absurd rfl (hop name entries)

namespace Graph

variable {g : Graph} {fresh : Nat} {subject : Subject} {name : String} {value : Value} {e : Error}

/-- Why a value cannot be set: the name is not declared in the scope of the subject; or it is, but the
subject is not in the graph; or both are as they should be, but the value is not one of the declared
type and does not become one. -/
inductive Rejects (g : Graph) (fresh : Nat) : Subject → String → Value → Error → Prop
  | unknown {subject : Subject} {name : String} {value : Value}
      (hname : ∀ type, g.propertyType subject.scope name ≠ .ok type) :
      Rejects g fresh subject name value (.unknownProperty name subject.scope)
  | noVertex {v : VertexId} {name : String} {value : Value} {type : ValueType}
      (hname : g.propertyType .vertex name = .ok type) (hv : ¬ g.containsVertex v) :
      Rejects g fresh (.vertex v) name value (.vertexNotFound v)
  | noEdge {e : EdgeId} {name : String} {value : Value} {type : ValueType}
      (hname : g.propertyType .edge name = .ok type) (he : ¬ g.containsEdge e) :
      Rejects g fresh (.edge e) name value (.edgeNotFound e)
  | mismatch {subject : Subject} {name : String} {value : Value} {type : ValueType}
      (hname : g.propertyType subject.scope name = .ok type) (hsubject : g.contains subject)
      (hvalue : ∀ datum, value.coerce fresh type ≠ .ok datum) :
      Rejects g fresh subject name value (.typeMismatch name type value.type)

theorem withValue_of_unknown (hname : ∀ type, g.propertyType subject.scope name ≠ .ok type) :
    g.withValue fresh subject name value = .error (.unknownProperty name subject.scope) := by
  have hcolumn : g.properties.column? subject.scope name = none := by
    by_contra hsome
    obtain ⟨c, hc⟩ := Option.ne_none_iff_exists'.mp hsome
    exact hname c.type (propertyType_eq_ok_iff.mpr ⟨c, hc, rfl⟩)
  unfold withValue Properties.column
  rw [hcolumn]
  rfl

/-- Where the name is declared, the subject is looked for. -/
theorem withValue_of_require {type : ValueType}
    (hname : g.propertyType subject.scope name = .ok type) (hrequire : g.require subject = .error e) :
    g.withValue fresh subject name value = .error e := by
  obtain ⟨c, hc, -⟩ := propertyType_eq_ok_iff.mp hname
  unfold withValue
  rw [Properties.column_eq_ok_iff.mpr hc]
  show (g.require subject >>= fun _ => _) = _
  rw [hrequire]
  rfl

/-- Where the subject is in the graph as well, the value is turned into one of the declared type. -/
theorem withValue_of_contains (fresh : Nat) (value : Value) {type : ValueType}
    (hname : g.propertyType subject.scope name = .ok type) (hsubject : g.contains subject) :
    (∃ datum next, value.coerce fresh type = .ok datum ∧
      g.withValue fresh subject name value = .ok next) ∨
    (∀ datum, value.coerce fresh type ≠ .ok datum) ∧
      g.withValue fresh subject name value = .error (.typeMismatch name type value.type) := by
  obtain ⟨c, hc, rfl⟩ := propertyType_eq_ok_iff.mp hname
  unfold withValue
  rw [Properties.column_eq_ok_iff.mpr hc]
  show (∃ datum next, _ ∧ (g.require subject >>= fun _ => _) = _) ∨
    _ ∧ (g.require subject >>= fun _ => _) = _
  rw [require_eq_ok_iff.mpr hsubject]
  cases hvalue : value.coerce fresh c.type with
  | ok datum =>
    unfold Column.set
    rw [hvalue]
    exact .inl ⟨datum, _, rfl, rfl⟩
  | error found =>
    obtain rfl := Value.type_of_coerce_eq_error hvalue
    refine .inr ⟨by simp, ?_⟩
    unfold Column.set
    rw [hvalue]
    rfl

/-- A value is rejected for one of the reasons, and the error says which. -/
theorem withValue_eq_error_iff :
    g.withValue fresh subject name value = .error e ↔ g.Rejects fresh subject name value e := by
  constructor
  · intro h
    by_cases hname : ∀ type, g.propertyType subject.scope name ≠ .ok type
    · rw [withValue_of_unknown hname] at h
      rw [← Except.error.inj h]
      exact .unknown hname
    push Not at hname
    obtain ⟨type, hname⟩ := hname
    by_cases hsubject : g.contains subject
    · rcases withValue_of_contains fresh value hname hsubject with
        ⟨datum, next, -, hok⟩ | ⟨hvalue, herror⟩
      · rw [hok] at h
        cases h
      · rw [herror] at h
        rw [← Except.error.inj h]
        exact .mismatch hname hsubject hvalue
    · cases subject with
      | vertex v =>
        have hrequire : g.require (.vertex v) = .error (.vertexNotFound v) := if_neg hsubject
        rw [withValue_of_require hname hrequire] at h
        rw [← Except.error.inj h]
        exact .noVertex hname hsubject
      | edge edge =>
        have hrequire : g.require (.edge edge) = .error (.edgeNotFound edge) := if_neg hsubject
        rw [withValue_of_require hname hrequire] at h
        rw [← Except.error.inj h]
        exact .noEdge hname hsubject
      | graph => exact absurd rfl hsubject
  · intro h
    cases h with
    | unknown hname => exact withValue_of_unknown hname
    | noVertex hname hv => exact withValue_of_require hname (if_neg hv)
    | noEdge hname he => exact withValue_of_require hname (if_neg he)
    | mismatch hname hsubject hvalue =>
      rcases withValue_of_contains fresh value hname hsubject with ⟨datum, next, hdatum, -⟩ | ⟨-, herror⟩
      · exact absurd hdatum (hvalue datum)
      · exact herror

theorem answer_setValue_eq_error_iff :
    ((Update.setValue fresh subject name value).run g).1 = .error e ↔
      g.Rejects fresh subject name value e := by
  rw [← withValue_eq_error_iff, Update.run_setValue]
  cases g.withValue fresh subject name value with
  | ok next => simp
  | error e' => simp

end Graph

/-- An operation that fails, or a removal that finds nothing to remove. -/
def Operation.Idle (op : Operation) (g : Graph) : Prop :=
  match op with
  | removeVertex v => ((Update.removeVertex v).run g).1 = .ok false
  | removeEdge e => ((Update.removeEdge e).run g).1 = .ok false
  | op => ∃ e, (op.update.run g).1 = .error e

/-- What fails, and what finds nothing to remove, leaves the graph as it was. -/
theorem Operation.apply_of_idle {op : Operation} {g : Graph}
    (hop : ∀ name entries, op ≠ .setValues name entries) (h : op.Idle g) : op.apply g = g := by
  cases op with
  | removeVertex v => exact Update.run_removeVertex_of_false h
  | removeEdge e => exact Update.run_removeEdge_of_false h
  | addVertex | addVertices | addEdge | addEdges | removeVertices | removeEdges | declare | setValue
  | setValues =>
    obtain ⟨e, he⟩ := h
    exact atomic hop g e he

/-- **Operations that fail change nothing**: new vertices, new edges, one or many, declarations, and
values that are set, in every scope. Nor does a removal that finds nothing to remove. So a history
goes on as if what failed had not been tried. A value is not set only if its name is not declared in
the scope, or else its subject is not in the graph, or else it does not become a value of the declared
type, and the error says which of these it was. -/
theorem Graph.failures_change_nothing :
    ((∀ count, Update.Atomic (Update.addVertices count)) ∧
      (∀ source target, Update.Atomic (Update.addEdge source target)) ∧
      (∀ pairs, Update.Atomic (Update.addEdges pairs)) ∧
      (∀ scope name type, Update.Atomic (Update.declare scope name type)) ∧
      ∀ fresh subject name value, Update.Atomic (Update.setValue fresh subject name value)) ∧
    ((∀ g v, ((Update.removeVertex v).run g).1 = .ok false → ((Update.removeVertex v).run g).2 = g) ∧
      ∀ g e, ((Update.removeEdge e).run g).1 = .ok false → ((Update.removeEdge e).run g).2 = g) ∧
    (∀ before op later, (∀ name entries, op ≠ .setValues name entries) →
      op.Idle (empty.after before) →
      empty.after (before ++ op :: later) = empty.after (before ++ later)) ∧
    ∀ g fresh subject name value e,
      ((Update.setValue fresh subject name value).run g).1 = .error e ↔
        g.Rejects fresh subject name value e := by
  refine ⟨⟨?_, ?_, ?_, ?_, ?_⟩, ⟨?_, ?_⟩, ?_, ?_⟩
  · exact Update.atomic_addVertices
  · exact Update.atomic_addEdge
  · exact Update.atomic_addEdges
  · exact Update.atomic_declare
  · exact Update.atomic_setValue
  · exact fun _ _ => Update.run_removeVertex_of_false
  · exact fun _ _ => Update.run_removeEdge_of_false
  · intro before op later hop hidle
    rw [after_append, after_append]
    show (op.apply (empty.after before)).after later = _
    rw [Operation.apply_of_idle hop hidle]
  · intro g fresh subject name value e
    exact answer_setValue_eq_error_iff

/-- One end is missing, so no edge is added. -/
example : Operation.Idle (.addEdges [(⟨0⟩, ⟨0⟩), (⟨0⟩, ⟨1⟩)]) (Graph.empty.after [.addVertex]) :=
  ⟨.vertexNotFound ⟨1⟩, rfl⟩

end GraphGames
