import Mathlib
import GraphGames.Graph.History

/-!
# Histories as chains of single changes

An operation changes a graph in small steps, and its answer tells which. So a history is a chain of
single changes, each of them named after what it did to which entity, and what holds along all such
chains holds of every history.

* `Change`: what a single change did, with the handle of the entity that it made or removed;
* `Graph.Becomes`: the single changes of a graph, and what each makes of it;
* `Graph.Leads`: chains of changes;
* `Operation.changes`, `Graph.changes`: the changes that an operation or a history reports;
* `Operation.leads`, `Graph.leads_after`: the changes that are reported are those that were made.
-/

namespace GraphGames

/-- What a single change did. -/
inductive Change
  | addVertex (v : VertexId)
  | insertEdge (e : Edge)
  | removeVertex (v : VertexId)
  | removeEdge (e : EdgeId)
  | declare (scope : Scope) (name : String) (type : ValueType)
  | setValue (fresh : Nat) (subject : Subject) (name : String) (value : Value)

namespace Graph

/-- What a single change makes of a graph. -/
inductive Becomes : Graph → Change → Graph → Prop
  | addVertex (g : Graph) : Becomes g (.addVertex g.nextVertex) g.addVertex
  | insertEdge (g : Graph) (source target : VertexId) (hs : g.containsVertex source)
      (ht : g.containsVertex target) :
      Becomes g (.insertEdge ⟨g.nextEdge, source, target⟩) (g.insertEdge source target)
  | removeVertex (g : Graph) (v : VertexId) : Becomes g (.removeVertex v) (g.removeVertex v)
  | removeEdge (g : Graph) (e : EdgeId) : Becomes g (.removeEdge e) (g.removeEdge e)
  | declare {g next : Graph} {scope : Scope} {name : String} {type : ValueType}
      (h : g.declared scope name type = .ok next) : Becomes g (.declare scope name type) next
  | setValue {g next : Graph} {fresh : Nat} {subject : Subject} {name : String} {value : Value}
      (h : g.withValue fresh subject name value = .ok next) :
      Becomes g (.setValue fresh subject name value) next

/-- What changes make of a graph, one after the other. -/
inductive Leads (g : Graph) : List Change → Graph → Prop
  | refl : Leads g [] g
  | step {cs : List Change} {c : Change} {mid next : Graph} (h : Leads g cs mid)
      (hc : Becomes mid c next) : Leads g (cs ++ [c]) next

variable {g mid next : Graph} {c : Change} {cs ds : List Change}

theorem Becomes.leads (h : g.Becomes c next) : g.Leads [c] next := Leads.refl.step h

theorem Leads.trans (h : g.Leads cs mid) (h' : mid.Leads ds next) : g.Leads (cs ++ ds) next := by
  induction h' with
  | refl =>
    rw [List.append_nil]
    exact h
  | step _ hc ih =>
    rw [← List.append_assoc]
    exact ih.step hc

theorem leads_foldl {α : Type} {f : Graph → α → Graph} {label : α → Change}
    (h : ∀ g a, Becomes g (label a) (f g a)) (xs : List α) (g : Graph) :
    g.Leads (xs.map label) (xs.foldl f g) := by
  induction xs generalizing g with
  | nil => exact .refl
  | cons a xs ih => exact (h g a).leads.trans (ih (f g a))

end Graph

namespace Change

/-- The edge that a change made. -/
def edge? : Change → Option Edge
  | insertEdge e => some e
  | _ => none

/-- What an answer tells, if there is one. -/
def told {α : Type} (tell : α → List Change) : Except Error α → List Change
  | .ok a => tell a
  | .error _ => []

end Change

/-! ### What operations report -/

/-- The settings of several entries that succeed, up to the first that fails. -/
def Graph.settings (name : String) : Graph → List (Nat × Subject × Value) → List Change
  | _, [] => []
  | g, (fresh, subject, value) :: entries =>
    match (Update.setValue fresh subject name value).run g with
    | (.ok _, next) => .setValue fresh subject name value :: settings name next entries
    | (.error _, _) => []

/-- The changes that the answer of an operation on `g` reports, in the order in which they were
made. -/
def Operation.changes (g : Graph) : Operation → List Change
  | addVertex => Change.told (fun v => [.addVertex v]) (Update.addVertex.run g).1
  | addVertices count =>
    Change.told (fun vs => vs.map .addVertex) ((Update.addVertices count).run g).1
  | addEdge source target =>
    Change.told (fun e => [.insertEdge ⟨e, source, target⟩]) ((Update.addEdge source target).run g).1
  | addEdges pairs =>
    Change.told (fun es => (es.zip pairs).map fun (e, source, target) =>
      .insertEdge ⟨e, source, target⟩) ((Update.addEdges pairs).run g).1
  | removeVertex v => [.removeVertex v]
  | removeVertices vs => vs.map .removeVertex
  | removeEdge e => [.removeEdge e]
  | removeEdges es => es.map .removeEdge
  | declare scope name type =>
    Change.told (fun _ => [.declare scope name type]) ((Update.declare scope name type).run g).1
  | setValue fresh subject name value =>
    Change.told (fun _ => [.setValue fresh subject name value])
      ((Update.setValue fresh subject name value).run g).1
  | setValues name entries => g.settings name entries

/-- The changes that a history reports on its way from `g`. -/
def Graph.changes : List Operation → Graph → List Change
  | [], _ => []
  | op :: history, g => op.changes g ++ changes history (op.apply g)

/-! ### What operations do -/

namespace Update

variable {α β : Type}

/-- What an update does is what its answer tells. -/
def Reports (u : Update α) (tell : α → List Change) : Prop :=
  ∀ g : Graph, g.Leads (Change.told tell (u.run g).1) (u.run g).2

/-- Updates that succeed as long as `P` holds, and keep it, do one after the other what their
answers tell. -/
theorem leads_mapM (P : Graph → Prop) (f : α → Update β) (label : β × α → Change) (xs : List α)
    (h : ∀ a ∈ xs, ∀ g : Graph, P g →
      ∃ b next, (f a).run g = (.ok b, next) ∧ g.Becomes (label (b, a)) next ∧ P next)
    {g : Graph} (hg : P g) :
    ∃ bs next, (xs.mapM f).run g = (.ok bs, next) ∧ bs.length = xs.length ∧
      g.Leads ((bs.zip xs).map label) next := by
  induction xs generalizing g with
  | nil => exact ⟨[], g, rfl, rfl, .refl⟩
  | cons a xs ih =>
    obtain ⟨ha, hxs⟩ := List.forall_mem_cons.mp h
    obtain ⟨b, mid, hrun, hbecomes, hmid⟩ := ha g hg
    obtain ⟨bs, next, hruns, hlength, hleads⟩ := ih hxs hmid
    refine ⟨b :: bs, next, ?_, congrArg (· + 1) hlength, hbecomes.leads.trans hleads⟩
    simp only [run_mapM_cons, hrun, hruns]

theorem reports_addVertices (count : Nat) : Reports (addVertices count) (List.map .addVertex) := by
  intro g
  by_cases hcount : count = 0
  · subst hcount
    exact .refl
  · have hrun : (addVertices count).run g =
        ((List.range count).mapM fun _ => addVertex).run g := by
      rw [addVertices, if_neg hcount]
    obtain ⟨vs, next, hmap, hlength, hleads⟩ :=
      leads_mapM (fun _ => True) (fun _ => addVertex) (fun p => .addVertex p.1) (List.range count)
        (fun _ _ g _ => ⟨_, _, rfl, .addVertex g, trivial⟩) (g := g) trivial
    have hfst : (vs.zip (List.range count)).map (fun p => Change.addVertex p.1) =
        vs.map .addVertex := by
      rw [← Function.comp_def Change.addVertex, ← List.map_map,
        List.map_fst_zip (Nat.le_of_eq hlength)]
    rw [hrun, hmap]
    show Graph.Leads g (vs.map .addVertex) next
    rw [← hfst]
    exact hleads

theorem reports_addEdge (source target : VertexId) :
    Reports (addEdge source target) fun e => [.insertEdge ⟨e, source, target⟩] := by
  intro g
  rw [run_addEdge g (source, target)]
  cases hmissing : g.missingEnd? (source, target) with
  | none =>
    obtain ⟨hs, ht⟩ := Graph.missingEnd?_eq_none_iff.mp hmissing
    exact (Graph.Becomes.insertEdge g source target hs ht).leads
  | some v => exact .refl

theorem reports_addEdges (pairs : List (VertexId × VertexId)) :
    Reports (addEdges pairs) fun es =>
      (es.zip pairs).map fun q => .insertEdge ⟨q.1, q.2.1, q.2.2⟩ := by
  intro g
  rw [run_addEdges]
  cases hmissing : pairs.findSome? g.missingEnd? with
  | none =>
    -- no edge that is added takes a vertex away, so the ends stay in the graph
    obtain ⟨es, last, hmap, -, hleads⟩ :=
      leads_mapM (fun g => ∀ p ∈ pairs, g.containsVertex p.1 ∧ g.containsVertex p.2)
        (fun p => insertEdge p.1 p.2) (fun q => .insertEdge ⟨q.1, q.2.1, q.2.2⟩) pairs
        (fun p hp g hg => ⟨_, _, rfl, .insertEdge g p.1 p.2 (hg p hp).1 (hg p hp).2,
          fun q hq => by simpa only [Graph.containsVertex_insertEdge] using hg q hq⟩)
        (Graph.ends_of_findSome?_eq_none hmissing)
    rw [hmap]
    exact hleads
  | some v => exact .refl

/-- An update that leaves behind the answer of a question, or fails without change, reports one
change. -/
theorem reports_replace {u : Update Unit} {question : Graph → Except Error Graph} {c : Change}
    (hrun : ∀ g, u.run g =
      match question g with
      | .ok next => (.ok (), next)
      | .error e => (.error e, g))
    (h : ∀ g next, question g = .ok next → g.Becomes c next) : Reports u fun _ => [c] := by
  intro g
  rw [hrun]
  cases hq : question g with
  | ok next => exact (h g next hq).leads
  | error e => exact .refl

theorem reports_setValue (fresh : Nat) (subject : Subject) (name : String) (value : Value) :
    Reports (setValue fresh subject name value) fun _ => [.setValue fresh subject name value] :=
  reports_replace (run_setValue fresh subject name value) fun _ _ => .setValue

theorem leads_setValues (name : String) (entries : List (Nat × Subject × Value)) (g : Graph) :
    g.Leads (g.settings name entries) ((setValues name entries).run g).2 := by
  induction entries generalizing g with
  | nil => exact .refl
  | cons entry entries ih =>
    obtain ⟨fresh, subject, value⟩ := entry
    have hset := reports_setValue fresh subject name value g
    show Graph.Leads g _
      ((setValue fresh subject name value >>= fun _ => setValues name entries).run g).2
    rw [run_bind, Graph.settings]
    cases hrun : (setValue fresh subject name value).run g with
    | mk result next =>
      rw [hrun] at hset
      cases result with
      | ok => exact hset.trans (ih next)
      | error e => exact hset

end Update

/-- An operation makes the changes that it reports. -/
theorem Operation.leads (op : Operation) (g : Graph) : g.Leads (op.changes g) (op.apply g) := by
  unfold apply
  cases op with
  | addVertex => exact (Graph.Becomes.addVertex g).leads
  | addVertices count =>
    rw [update, Update.graph_bind_pure]
    exact Update.reports_addVertices count g
  | addEdge source target =>
    rw [update, Update.graph_bind_pure]
    exact Update.reports_addEdge source target g
  | addEdges pairs =>
    rw [update, Update.graph_bind_pure]
    exact Update.reports_addEdges pairs g
  | removeVertex v => exact (Graph.Becomes.removeVertex g v).leads
  | removeVertices vs => exact Graph.leads_foldl Graph.Becomes.removeVertex vs g
  | removeEdge e => exact (Graph.Becomes.removeEdge g e).leads
  | removeEdges es => exact Graph.leads_foldl Graph.Becomes.removeEdge es g
  | declare scope name type =>
    exact Update.reports_replace (Update.run_declare scope name type) (fun _ _ => .declare) g
  | setValue fresh subject name value => exact Update.reports_setValue fresh subject name value g
  | setValues name entries => exact Update.leads_setValues name entries g

/-- A history makes the changes that it reports. -/
theorem Graph.leads_after (history : List Operation) (g : Graph) :
    g.Leads (g.changes history) (g.after history) := by
  induction history generalizing g with
  | nil => exact .refl
  | cons op history ih => exact (op.leads g).trans (ih (op.apply g))

end GraphGames
