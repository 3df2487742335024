import GraphGames.Proofs.Agreement

/-!
# Taking back a vertex

When a vertex is removed, the edges at it go as well, and with them all values that were set. So a
vertex that was added can be taken back, whatever was built on it in the meantime: the graph answers
as if the vertex had never been there, though slots that were used again may have come free in another
order.

* `Graph.Reachable.value_made`: whatever an operation makes has the defaults;
* `Graph.Grafts`: a vertex is added, and edges and values at it;
* `Graph.Rests`, `Graph.Grafts.rests`: what is said of a graph on which a vertex was built up, one case
  for each kind of step;
* `Graph.Reachable.agrees_without_graft`: the vertex can be taken back.
-/

namespace GraphGames

/-- An operation makes something with each of its changes, or with none. -/
theorem Operation.makes_changes (op : Operation) (g : Graph) {c : Change} {subject : Subject}
    (hc : c ∈ op.changes g) (hmakes : c.makes subject) :
    ∀ d ∈ op.changes g, ∃ made, d.makes made := by
  intro d hd
  cases op with
  | addVertex =>
    rw [List.mem_singleton.mp hd]
    exact ⟨.vertex g.nextVertex, Change.makes_addVertex.mpr rfl⟩
  | addEdge =>
    obtain ⟨e, -, hd⟩ := Change.mem_told hd
    rw [List.mem_singleton.mp hd]
    exact ⟨.edge e, Change.makes_insertEdge.mpr rfl⟩
  | addVertices =>
    obtain ⟨vs, -, hd⟩ := Change.mem_told hd
    obtain ⟨v, -, rfl⟩ := List.mem_map.mp hd
    exact ⟨.vertex v, Change.makes_addVertex.mpr rfl⟩
  | addEdges =>
    obtain ⟨es, -, hd⟩ := Change.mem_told hd
    obtain ⟨⟨e, ends⟩, -, rfl⟩ := List.mem_map.mp hd
    exact ⟨.edge e, Change.makes_insertEdge.mpr rfl⟩
  -- the others make nothing
  | removeVertex | removeEdge =>
    rw [List.mem_singleton.mp hc] at hmakes
    cases hmakes
  | removeVertices | removeEdges =>
    obtain ⟨a, -, rfl⟩ := List.mem_map.mp hc
    cases hmakes
  | declare | setValue =>
    obtain ⟨a, -, hc⟩ := Change.mem_told hc
    rw [List.mem_singleton.mp hc] at hmakes
    cases hmakes
  | setValues =>
    obtain ⟨fresh, target, value, rfl⟩ := Graph.eq_setValue_of_mem_settings hc
    cases hmakes

namespace Graph

variable {g mid next last : Graph} {v : VertexId} {made : List EdgeId} {es : List Edge}
variable {c : Change} {cs : List Change} {subject : Subject}

/-! ### What is new has the defaults -/

/-- A subject is made by an addition. -/
theorem Becomes.gains (hc : g.Becomes c next) (hmakes : c.makes subject) (h : g.Lists es) :
    g.Gains next subject := by
  cases hc with
  | addVertex =>
    obtain rfl := Change.makes_addVertex.mp hmakes
    exact gains_addVertex h.vertexTable
  | insertEdge source target =>
    obtain rfl := Change.makes_insertEdge.mp hmakes
    exact gains_insertEdge h.edgeTable source target
  | removeVertex => cases hmakes
  | removeEdge => cases hmakes
  | declare => cases hmakes
  | setValue => cases hmakes

/-- Additions leave declarations alone, and what they make has the defaults. -/
theorem Leads.value_made (hleads : g.Leads cs next) (h : g.Lists es)
    (hcs : ∀ c ∈ cs, ∃ made, c.makes made) :
    next.propertyType = g.propertyType ∧ ∀ c ∈ cs, ∀ subject, c.makes subject →
      next.contains subject ∧
      ∀ name, next.value subject name = (g.propertyType subject.scope name).map Value.default := by
  induction hleads with
  | refl => exact ⟨rfl, by simp⟩
  | @step cs last mid next hmid hlast ih =>
    obtain ⟨htype, hmade⟩ := ih fun c hc => hcs c (List.mem_append_left _ hc)
    obtain ⟨new, hnew⟩ := hcs last (List.mem_append_right _ (List.mem_singleton_self last))
    have hlists := h.leads hmid
    refine ⟨(hlast.gains hnew hlists).propertyType.trans htype, ?_⟩
    intro c hc subject hmakes
    rcases List.mem_append.mp hc with hc | hc
    · -- what came earlier keeps its values
      obtain ⟨hs, hvalue⟩ := hmade c hc subject hmakes
      have hgains := hlast.gains hnew hlists
      refine ⟨(hgains.contains subject).mpr (.inr hs), ?_⟩
      intro name
      rw [hgains.value hs, hvalue]
    · obtain rfl := List.mem_singleton.mp hc
      have hgains := hlast.gains hmakes hlists
      refine ⟨(hgains.contains subject).mpr (.inl rfl), ?_⟩
      intro name
      rw [hgains.value_made, htype]

/-- Whatever an operation makes has the defaults. -/
theorem Reachable.value_made (h : g.Reachable) (op : Operation) (hc : c ∈ op.changes g)
    (hmakes : c.makes subject) (name : String) :
    (op.apply g).value subject name = (g.propertyType subject.scope name).map Value.default := by
  obtain ⟨es, hlists⟩ := h.lists
  obtain ⟨-, hmade⟩ := (op.leads g).value_made hlists (op.makes_changes g hc hmakes)
  exact (hmade c hc subject hmakes).2 name

/-! ### Building on a new vertex -/

/-- A vertex is added and built on: edges are added that have it as an end, and values are set of it
and of these edges. -/
inductive Grafts (g : Graph) (v : VertexId) : List EdgeId → Graph → Prop
  | addVertex {next : Graph} (h : Update.addVertex.run g = (.ok v, next)) : Grafts g v [] next
  | addEdge {made : List EdgeId} {mid next : Graph} {source target : VertexId} {e : EdgeId}
      (hmid : Grafts g v made mid) (hend : source = v ∨ target = v)
      (h : (Update.addEdge source target).run mid = (.ok e, next)) : Grafts g v (made ++ [e]) next
  | setValue {made : List EdgeId} {mid next : Graph} {fresh : Nat} {subject : Subject}
      {name : String} {value : Value} (hmid : Grafts g v made mid)
      (hsubject : subject = .vertex v ∨ ∃ e ∈ made, subject = .edge e)
      (h : (Update.setValue fresh subject name value).run mid = (.ok (), next)) :
      Grafts g v made next

/-- What `g` has is in `mid` as well, under a vertex that `g` has not, and under edges at it. -/
structure Rests (g mid : Graph) (v : VertexId) (made : List EdgeId) (es : List Edge) : Prop where
  retains : mid.Retains g
  containsVertex : ∀ w, mid.containsVertex w ↔ w = v ∨ g.containsVertex w
  newVertex : ¬ g.containsVertex v
  newEdges : ∀ e ∈ made, ¬ g.containsEdge e
  lists : ∃ grafted, mid.Lists (es ++ grafted) ∧ ∀ e ∈ grafted, e.source = v ∨ e.target = v

theorem Gains.retains (h : g.Gains next subject) : next.Retains g where
  contains other hs := (h.contains other).mpr (.inr hs)
  propertyType := h.propertyType.symm
  value _ hs name := (h.value hs name).symm

/-- Values that are set of something else do not count. -/
theorem Retains.withValue (h : mid.Retains g) {fresh : Nat} {name : String} {value : Value}
    (hs : ¬ g.contains subject) (hset : mid.withValue fresh subject name value = .ok next) :
    next.Retains g where
  contains other hother := by
    rw [contains_withValue hset]
    exact h.contains other hother
  propertyType := by rw [propertyType_withValue hset, h.propertyType]
  value other hother name' := by
    have hne : ¬ (subject = other ∧ name = name') := by
      rintro ⟨rfl, -⟩
      exact hs hother
    rw [value_withValue_of_ne hset hne (h.contains other hother), h.value other hother]

theorem of_run_addEdge {source target : VertexId} {e : EdgeId}
    (h : (Update.addEdge source target).run g = (.ok e, next)) :
    (g.containsVertex source ∧ g.containsVertex target) ∧ e = g.nextEdge ∧
      next = g.insertEdge source target := by
  rw [Update.run_addEdge g (source, target)] at h
  cases hmissing : g.missingEnd? (source, target) with
  | none =>
    rw [hmissing] at h
    cases h
    exact ⟨missingEnd?_eq_none_iff.mp hmissing, rfl, rfl⟩
  | some v =>
    rw [hmissing] at h
    cases h

theorem of_run_setValue {fresh : Nat} {name : String} {value : Value}
    (h : (Update.setValue fresh subject name value).run g = (.ok (), next)) :
    g.withValue fresh subject name value = .ok next := by
  rw [Update.run_setValue] at h
  cases hset : g.withValue fresh subject name value with
  | ok last =>
    rw [hset] at h
    cases h
    rfl
  | error e =>
    rw [hset] at h
    cases h

namespace Rests

theorem addVertex (h : g.Lists es) : g.Rests g.addVertex g.nextVertex [] es where
  retains := (gains_addVertex h.vertexTable).retains
  containsVertex := containsVertex_addVertex h.vertexTable
  newVertex := (gains_addVertex h.vertexTable).new
  newEdges := by simp
  lists := ⟨[], by simpa using h.addVertex, by simp⟩

theorem insertEdge (h : g.Rests mid v made es) {source target : VertexId}
    (hs : mid.containsVertex source) (ht : mid.containsVertex target)
    (hend : source = v ∨ target = v) :
    g.Rests (mid.insertEdge source target) v (made ++ [mid.nextEdge]) es := by
  obtain ⟨grafted, hlists, hgrafted⟩ := h.lists
  have hgains := gains_insertEdge hlists.edgeTable source target
  refine ⟨hgains.retains.trans h.retains, ?_, h.newVertex, ?_, ?_⟩
  · intro w
    rw [containsVertex_insertEdge, h.containsVertex]
  · intro e he
    rcases List.mem_append.mp he with he | he
    · exact h.newEdges e he
    · -- the handle is free in `mid`, and so it is in `g`
      rw [List.mem_singleton.mp he]
      intro hold
      exact hgains.new (h.retains.contains (.edge mid.nextEdge) hold)
  · refine ⟨grafted ++ [⟨mid.nextEdge, source, target⟩], ?_, ?_⟩
    · rw [← List.append_assoc]
      exact hlists.insertEdge hs ht
    · intro e he
      rcases List.mem_append.mp he with he | he
      · exact hgrafted e he
      · rw [List.mem_singleton.mp he]
        exact hend

theorem withValue (h : g.Rests mid v made es) {fresh : Nat} {name : String} {value : Value}
    (hsubject : subject = .vertex v ∨ ∃ e ∈ made, subject = .edge e)
    (hset : mid.withValue fresh subject name value = .ok next) : g.Rests next v made es := by
  have hnew : ¬ g.contains subject := by
    rcases hsubject with rfl | ⟨e, he, rfl⟩
    · exact h.newVertex
    · exact h.newEdges e he
  obtain ⟨grafted, hlists, hgrafted⟩ := h.lists
  refine ⟨h.retains.withValue hnew hset, ?_, h.newVertex, h.newEdges, grafted, ?_, hgrafted⟩
  · intro w
    rw [← h.containsVertex]
    exact Eq.congr_left (contains_withValue hset (.vertex w))
  · obtain ⟨column, datum, -, -, -, rfl⟩ := of_withValue hset
    exact hlists.of_tables rfl rfl

/-- Without the vertex only the edges of `g` are left. -/
theorem lists_removeVertex (h : g.Rests mid v made es) (hlists : g.Lists es) :
    (mid.removeVertex v).Lists es := by
  obtain ⟨grafted, hmid, hgrafted⟩ := h.lists
  have hnext := hmid.removeVertex v
  have hgone : grafted.filter (fun e => e.source ≠ v ∧ e.target ≠ v) = [] := by
    apply List.filter_eq_nil_iff.mpr
    intro e he
    have hend := hgrafted e he
    simp only [decide_eq_true_eq]
    tauto
  rw [List.filter_append, hlists.filter_of_not_contains h.newVertex, hgone, List.append_nil] at hnext
  exact hnext

/-- Without the vertex the graph is `g` again. -/
theorem agrees_removeVertex (h : g.Rests mid v made es) (hlists : g.Lists es) :
    g.Agrees (mid.removeVertex v) := by
  have hnext := h.lists_removeVertex hlists
  have hkeeps := retains_removeVertex mid v
  have hvertex (w : VertexId) : (mid.removeVertex v).containsVertex w ↔ g.containsVertex w := by
    rw [containsVertex_removeVertex, h.containsVertex]
    constructor
    · rintro ⟨rfl | hw, hne⟩
      · exact absurd rfl hne
      · exact hw
    · intro hw
      refine ⟨.inr hw, ?_⟩
      rintro rfl
      exact h.newVertex hw
  apply hlists.agrees hnext hvertex
  · rw [hkeeps.propertyType, h.retains.propertyType]
  · intro subject hs name
    have hs' : (mid.removeVertex v).contains subject := by
      rwa [hlists.contains_congr hnext hvertex]
    rw [hkeeps.value subject hs', h.retains.value subject hs]

end Rests

namespace Grafts

/-- Each step leaves what `g` has alone. -/
theorem rests (hgrafts : g.Grafts v made last) (h : g.Lists es) : g.Rests last v made es := by
  induction hgrafts with
  | addVertex hrun =>
    cases hrun
    exact .addVertex h
  | addEdge _ hend hrun ih =>
    obtain ⟨⟨hs, ht⟩, rfl, rfl⟩ := of_run_addEdge hrun
    exact ih.insertEdge hs ht hend
  | setValue _ hsubject hrun ih => exact ih.withValue hsubject (of_run_setValue hrun)

theorem reachable (hgrafts : g.Grafts v made last) (h : g.Reachable) : last.Reachable := by
  induction hgrafts with
  | addVertex hrun =>
    cases hrun
    exact h.step .addVertex
  | @addEdge made mid next source target e _ _ hrun ih =>
    have hstep := ih.step (.addEdge source target)
    rw [Operation.apply, Operation.update, Update.graph_bind_pure, hrun] at hstep
    exact hstep
  | @setValue made mid next fresh subject name value _ _ hrun ih =>
    have hstep := ih.step (.setValue fresh subject name value)
    rw [Operation.apply, Operation.update, hrun] at hstep
    exact hstep

end Grafts

/-- **A vertex that was added can be taken back**, whatever edges and values were built on it. The graph
that is left answers every question as it did before, and whatever is made of it later has the
defaults. -/
theorem Reachable.agrees_without_graft (h : g.Reachable) (hgrafts : g.Grafts v made last) :
    ∃ next, (Update.removeVertex v).run last = (.ok true, next) ∧ g.Agrees next ∧
      ∀ history (op : Operation) (c : Change) subject, c ∈ op.changes (next.after history) →
        c.makes subject → ∀ name, (op.apply (next.after history)).value subject name =
          ((next.after history).propertyType subject.scope name).map Value.default := by
  obtain ⟨es, hlists⟩ := h.lists
  have hrests := hgrafts.rests hlists
  have hlast := hgrafts.reachable h
  refine ⟨last.removeVertex v, ?_, hrests.agrees_removeVertex hlists, ?_⟩
  · rw [Update.removeVertex, Update.run_change, (hrests.containsVertex v).mpr (.inl rfl)]
  · intro history op c subject hc hmakes name
    exact ((hlast.step (.removeVertex v)).after history).value_made op hc hmakes name

/-- A vertex takes the slot of one that is gone, and a loop and an edge from an old vertex take slots
of edges that are gone. The loop is given a weight. The edge that is made next takes its slot, but not
its weight. -/
theorem bouquet_agrees_without_graft :
    let g := bouquet.after [.removeVertex ⟨1⟩]
    ∃ last next, g.Grafts ⟨1⟩ [⟨4⟩, ⟨3⟩] last ∧
      (Update.removeVertex ⟨1⟩).run last = (.ok true, next) ∧ g.Agrees next ∧
      last.incoming ⟨1⟩ = [⟨4⟩, ⟨3⟩] ∧ last.outgoing ⟨0⟩ = [⟨0⟩, ⟨3⟩] ∧
      next.outEdges ⟨0⟩ = .ok [⟨0⟩] ∧
      (last.value (.edge ⟨4⟩) "weight").toOption.bind Value.int? = some 9 ∧
      ((next.after [.addEdge ⟨0⟩ ⟨2⟩]).value (.edge ⟨4⟩) "weight").toOption.bind Value.int? = some 0 := by
  intro g
  have hvertex : Update.addVertex.run g = (.ok ⟨1⟩, g.addVertex) := rfl
  have hloop : (Update.addEdge ⟨1⟩ ⟨1⟩).run g.addVertex =
      (.ok ⟨4⟩, g.addVertex.insertEdge ⟨1⟩ ⟨1⟩) := rfl
  have hedge : (Update.addEdge ⟨0⟩ ⟨1⟩).run (g.addVertex.insertEdge ⟨1⟩ ⟨1⟩) =
      (.ok ⟨3⟩, (g.addVertex.insertEdge ⟨1⟩ ⟨1⟩).insertEdge ⟨0⟩ ⟨1⟩) := rfl
  obtain ⟨last, hset⟩ : ∃ last, (Update.setValue 0 (.edge ⟨4⟩) "weight" (.int 9)).run
      ((g.addVertex.insertEdge ⟨1⟩ ⟨1⟩).insertEdge ⟨0⟩ ⟨1⟩) = (.ok (), last) := ⟨_, rfl⟩
  have hgrafts : g.Grafts ⟨1⟩ [⟨4⟩, ⟨3⟩] last :=
    (((Grafts.addVertex hvertex).addEdge (.inl rfl) hloop).addEdge (.inr rfl) hedge).setValue
      (.inr ⟨⟨4⟩, by simp, rfl⟩) hset
  obtain ⟨next, hrun, hagrees, hmade⟩ :=
    Reachable.agrees_without_graft ((Reachable.empty.after _).after _) hgrafts
  refine ⟨last, next, hgrafts, hrun, hagrees, ?_, ?_, ?_, ?_, ?_⟩
  · obtain rfl := congrArg Prod.snd hset
    decide +kernel
  · obtain rfl := congrArg Prod.snd hset
    decide +kernel
  · rw [hagrees.outEdges]
    rfl
  · obtain rfl := congrArg Prod.snd hset
    decide +kernel
  · have hanswer : (Update.addEdge ⟨0⟩ ⟨2⟩).run next = (.ok ⟨4⟩, next.insertEdge ⟨0⟩ ⟨2⟩) := by
      rw [Update.run_addEdge next (⟨0⟩, ⟨2⟩)]
      obtain rfl := congrArg Prod.snd hrun
      obtain rfl := congrArg Prod.snd hset
      rw [show missingEnd? _ _ = none by decide +kernel, show nextEdge _ = ⟨4⟩ by decide +kernel]
    have hmem : .insertEdge ⟨⟨4⟩, ⟨0⟩, ⟨2⟩⟩ ∈ (Operation.addEdge ⟨0⟩ ⟨2⟩).changes next := by
      show _ ∈ Change.told _ ((Update.addEdge ⟨0⟩ ⟨2⟩).run next).1
      rw [hanswer]
      exact List.mem_singleton_self _
    have hnew := hmade [] (.addEdge ⟨0⟩ ⟨2⟩) _ (.edge ⟨4⟩) hmem rfl "weight"
    rw [after, List.foldl_cons, List.foldl_nil]
    rw [after, List.foldl_nil, hagrees.propertyType] at hnew
    rw [hnew]
    decide +kernel

end Graph

end GraphGames
