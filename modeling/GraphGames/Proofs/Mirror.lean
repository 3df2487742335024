import GraphGames.Proofs.Closure

/-!
# The marking of a computation is its region

What a computation has reached is kept twice: as a region, and as marks beside the graph. Both are
written in two places, at the start and when a round has found something, and whatever cancels a poll,
neither is written without the other. A handle that no vertex has is marked like any other if the
computation starts with it, but it is not listed among the marked vertices.

* `Problem.next_cases`, `Problem.resumed_induction`: what a poll leaves behind, and what several do;
* `Progress.Fits`: a region within the graph, with a mark for each slot and no more;
* `Problem.Mirrored`, `Graph.Reachable.mirrored`: what is said of the region and its marking, and that
  it holds in every state that a computation reaches.
-/

namespace GraphGames

/-- A mark beyond the end of a column adds cells to it. -/
theorem Column.size_setBool {c next : Column} {slot : Nat} {b : Bool}
    (h : c.setBool slot b = some next) : next.size = max c.size (slot + 1) := by
  unfold setBool at h
  split at h
  · rw [← Option.some.inj h]
    exact Column.size_put ⟨.bool, _⟩ slot b
  · cases h

namespace Marking

variable {m : Marking} {v : VertexId} {vs : List VertexId}

/-- Marking a vertex that has a cell adds none. -/
theorem size_column_mark (h : v.index < m.column.size) :
    (m.mark v).column.size = m.column.size := by
  unfold mark
  cases hset : m.column.setBool v.index true with
  | none => rfl
  | some next =>
    have hsize := Column.size_setBool hset
    show next.size = m.column.size
    omega

theorem size_column_markAll (h : ∀ v ∈ vs, v.index < m.column.size) :
    (m.markAll vs).column.size = m.column.size := by
  induction vs generalizing m with
  | nil => rfl
  | cons v vs ih =>
    obtain ⟨hv, hvs⟩ := List.forall_mem_cons.mp h
    have hsize := size_column_mark hv
    have hrest := ih (m := m.mark v) (fun w hw => by rw [hsize]; exact hvs w hw)
    show ((m.mark v).markAll vs).column.size = m.column.size
    omega

/-- A new marking has a cell for each slot of the graph. -/
theorem size_column_of_create {g : Graph} {name : String} (h : create g name = .ok m) :
    m.column.size = g.vertexCapacity := by
  unfold create at h
  split at h
  · cases h
  · rw [← Except.ok.inj h, Column.size_defaults]

end Marking

/-- The region lies within the graph, and the marking has a cell for each of its slots. -/
structure Progress.Fits (p : Problem) (s : Progress) : Prop where
  contains : ∀ v ∈ s.win, p.graph.containsVertex v
  size : s.marking.column.size = p.graph.vertexCapacity

theorem Progress.Fits.join {p : Problem} {s : Progress} {found : VertexSet} (h : s.Fits p)
    (hfound : ∀ v ∈ found, p.graph.containsVertex v) : (s.join found).Fits p where
  contains v hv := by
    rcases Std.ExtTreeSet.mem_union_iff.mp hv with hv | hv
    · exact h.contains v hv
    · exact hfound v hv
  size := by
    rw [← h.size]
    apply Marking.size_column_markAll
    intro v hv
    rw [h.size]
    exact SlotTable.lt_capacity_of_contains (hfound v (Std.ExtTreeSet.mem_toList.mp hv))

/-- A computation that starts with vertices of the graph fits it. -/
theorem Progress.fits_start {p : Problem} {name : String} {start : Progress}
    (h : Progress.start p name = .ok start) (hfinals : ∀ v ∈ p.finals, p.graph.containsVertex v) :
    start.Fits p := by
  obtain ⟨marking, hcreate, h⟩ := bind_eq_ok_iff.mp h
  obtain rfl := Except.ok.inj h
  have hsize := Marking.size_column_of_create hcreate
  refine ⟨hfinals, ?_⟩
  show (marking.markAll p.finals.toList).column.size = _
  rw [Marking.size_column_markAll, hsize]
  intro v hv
  rw [hsize]
  exact SlotTable.lt_capacity_of_contains (hfinals v (Std.ExtTreeSet.mem_toList.mp hv))

namespace Problem

variable {p : Problem} {operator : Operator} {allowance : Allowance} {s : Progress} {v : VertexId}
variable {es : List Edge} {P : Progress → Prop}

/-- A poll leaves the state as it is, counts a round, or joins what a round has found. -/
theorem next_cases (p : Problem) (operator : Operator) (allowance : Allowance) (s : Progress) :
    (p.poll operator allowance s).value.2 = s ∨
      (p.poll operator allowance s).value.2 = begun s ∨
      (p.poll operator allowance s).value.2 =
        (begun s).join (operator.predecessors p s.win).value := by
  rcases p.poll_cases operator allowance s with ⟨-, hpoll⟩ | ⟨-, -, hpoll⟩ | hpoll
  · exact .inl (by rw [hpoll])
  · exact .inr (.inl (by rw [hpoll]))
  · rw [hpoll, poll_none]
    split_ifs
    · exact .inl rfl
    · exact .inr (.inl rfl)
    · exact .inr (.inr rfl)

/-- What every poll keeps, several polls keep. -/
theorem resumed_induction
    (hpoll : ∀ s allowance, P s → P (p.poll operator allowance s).value.2) (hs : P s)
    (allowances : List Allowance) : P (p.resumed operator allowances s) := by
  induction allowances generalizing s with
  | nil => exact hs
  | cons allowance allowances ih => exact ih (hpoll s allowance hs)

/-- What counting a round keeps, and joining the vertices that it finds, several polls keep. -/
theorem resumed_keeps (hbegun : ∀ s, P s → P (begun s))
    (hjoin : ∀ s, P s → P ((begun s).join (operator.predecessors p s.win).value)) (hs : P s)
    (allowances : List Allowance) : P (p.resumed operator allowances s) := by
  refine resumed_induction ?_ hs allowances
  intro s allowance hs
  rcases p.next_cases operator allowance s with hnext | hnext | hnext
  · rw [hnext]
    exact hs
  · rw [hnext]
    exact hbegun s hs
  · rw [hnext]
    exact hjoin s hs

theorem mirrors_resumed (h : s.Mirrors p) (operator : Operator) (allowances : List Allowance) :
    (p.resumed operator allowances s).Mirrors p :=
  resumed_keeps (fun _ hs => hs.begun) (fun _ hs => hs.begun.join _) h allowances

/-- No poll takes a vertex out of the region. -/
theorem mem_win_resumed (hv : v ∈ s.win) (allowances : List Allowance) :
    v ∈ (p.resumed operator allowances s).win :=
  resumed_keeps (P := fun s => v ∈ s.win) (fun _ hs => hs)
    (fun _ hs => Std.ExtTreeSet.mem_union_iff.mpr (.inl hs)) hv allowances

theorem fits_resumed (hlists : p.graph.Lists es) (h : s.Fits p) (operator : Operator)
    (allowances : List Allowance) :
    (p.resumed operator allowances s).Fits p := by
  refine resumed_keeps (fun s hs => ⟨hs.contains, hs.size⟩) (fun s hs => ?_) h allowances
  refine Progress.Fits.join ⟨hs.contains, hs.size⟩ fun v hv => ?_
  exact (mem_candidates.mp (mem_candidates_of_mem_predecessors hlists hv)).1

/-- What a poll adds to a region are vertices of the graph that lie outside, and whose owner the
operator accepts. -/
theorem exists_found (hlists : p.graph.Lists es) (operator : Operator) (allowance : Allowance)
    (s : Progress) :
    ∃ found : VertexSet, (p.poll operator allowance s).value.2.win = s.win ∪ found ∧
      ∀ v ∈ found, v ∈ p.candidates operator s.win := by
  have hempty : s.win = s.win ∪ ∅ := by
    apply VertexSet.ext
    simp
  rcases p.next_cases operator allowance s with hnext | hnext | hnext
  · rw [hnext]
    exact ⟨∅, hempty, by simp⟩
  · rw [hnext]
    exact ⟨∅, hempty, by simp⟩
  · rw [hnext]
    exact ⟨_, rfl, fun v hv => mem_candidates_of_mem_predecessors hlists hv⟩

/-- The marking of a computation is its region, in a state from which it can be polled on. -/
structure Mirrored (p : Problem) (operator : Operator) (s : Progress) : Prop where
  /-- A handle is marked iff it is in the region. -/
  isMarked_iff : ∀ v, s.marking.isMarked v ↔ v ∈ s.win
  /-- The marked vertices are those of the region that are in the graph. -/
  mem_marked_iff : ∀ v, v ∈ s.marking.marked ↔ v ∈ s.win ∧ p.graph.containsVertex v
  /-- A poll adds vertices of the graph that lie outside of the region, and whose owner the operator
  accepts. -/
  exists_found : ∀ allowance, ∃ found : VertexSet,
    (p.poll operator allowance s).value.2.win = s.win ∪ found ∧
      ∀ v ∈ found, v ∉ s.win ∧ p.graph.containsVertex v ∧
        ∃ player, operator.accepts player ∧ p.owner? v = some player
  /-- No poll takes a vertex out of the region, or a mark away. -/
  mem_win : ∀ allowances, ∀ v ∈ s.win, v ∈ (p.resumed operator allowances s).win
  isMarked : ∀ allowances v, s.marking.isMarked v →
    (p.resumed operator allowances s).marking.isMarked v

theorem mirrored_of_mirrors (hlists : p.graph.Lists es) (h : s.Mirrors p) (operator : Operator) :
    p.Mirrored operator s where
  isMarked_iff := h.isMarked_iff
  mem_marked_iff v := by
    rw [Marking.mem_marked, h.graph, h.isMarked_iff, and_comm]
  exists_found allowance := by
    obtain ⟨found, hwin, hfound⟩ := exists_found hlists operator allowance s
    refine ⟨found, hwin, fun v hv => ?_⟩
    obtain ⟨hcontains, hout, howner⟩ := mem_candidates.mp (hfound v hv)
    exact ⟨hout, hcontains, howner⟩
  mem_win allowances _ hv := mem_win_resumed hv allowances
  isMarked allowances v hv := by
    rw [(mirrors_resumed h operator allowances).isMarked_iff]
    exact mem_win_resumed ((h.isMarked_iff v).mp hv) allowances

end Problem

/-- **The marking of a computation is its region**, in every state that polls reach, whatever owners
and final vertices the problem has, whatever cancels the polls and wherever the bound is. For the
problem that the graph declares, the marked vertices are the region, and the marking keeps one cell
for each slot. -/
theorem Graph.Reachable.mirrored {p : Problem} (h : p.graph.Reachable) {name : String}
    (hfree : p.graph.propertyScope? name = none) :
    ∃ start, Progress.start p name = .ok start ∧
      ∀ operator allowances,
        p.Mirrored operator (p.resumed operator allowances start) ∧
        ∀ bound, Problem.ofGraph p.graph = .ok { p with maxIterations := bound } →
          (p.resumed operator allowances start).marking.marked =
            (p.resumed operator allowances start).win ∧
          (p.resumed operator allowances start).marking.column.size = p.graph.vertexCapacity := by
  obtain ⟨es, hlists⟩ := h.lists
  obtain ⟨start, hstart⟩ : ∃ start, Progress.start p name = .ok start := by
    unfold Progress.start Marking.create
    rw [hfree]
    exact ⟨_, rfl⟩
  refine ⟨start, hstart, fun operator allowances => ?_⟩
  have hmirrors := Problem.mirrors_resumed (Progress.mirrors_start hstart).1 operator allowances
  have hmirrored := Problem.mirrored_of_mirrors hlists hmirrors operator
  refine ⟨hmirrored, fun bound hdeclared => ?_⟩
  have hfinals (v : VertexId) (hv : v ∈ p.finals) : p.graph.containsVertex v :=
    contains_of_isFinal (((Problem.declared_of_ofGraph hdeclared).final v).mp hv)
  have hfits := Problem.fits_resumed hlists (Progress.fits_start hstart hfinals) operator allowances
  refine ⟨VertexSet.ext fun v => ?_, hfits.size⟩
  rw [hmirrored.mem_marked_iff]
  exact and_iff_left_of_imp (hfits.contains v)

/-- The relay with other owners, none at `0`, and a final handle that no vertex has. -/
def Problem.strayed : Problem :=
  { Problem.reassigned with finals := Std.ExtTreeSet.ofList [VertexId.mk 2, VertexId.mk 7] }

theorem Graph.relay_mirrored :
    (∃ start, Progress.start Problem.strayed "reached" = .ok start ∧
      let last := Problem.strayed.resumed .controllable [some 2, none, some 0, none] start
      last.win.toList = [⟨1⟩, ⟨2⟩, ⟨3⟩, ⟨7⟩] ∧
        last.marking.marked.toList = [⟨1⟩, ⟨2⟩, ⟨3⟩] ∧
        Problem.strayed.Mirrored .controllable last) ∧
    ∃ p start, Problem.ofGraph relay = .ok p ∧ Progress.start p "reached" = .ok start ∧
      (p.resumed .controllable [none] start).marking.marked =
        (p.resumed .controllable [none] start).win ∧
      (p.resumed .controllable [none] start).marking.column.size = 5 := by
  constructor
  · have hreachable : Problem.strayed.graph.Reachable := by
      dsimp only [Problem.strayed, Problem.reassigned]
      exact reachable_relay
    have hfree : Problem.strayed.graph.propertyScope? "reached" = none := by decide +kernel
    obtain ⟨start, hstart, hmirrored⟩ := Reachable.mirrored hreachable hfree
    have hreached : (Progress.start Problem.strayed "reached").toOption.map (fun start =>
        let last := Problem.strayed.resumed .controllable [some 2, none, some 0, none] start
        (last.win.toList, last.marking.marked.toList)) =
          some ([⟨1⟩, ⟨2⟩, ⟨3⟩, ⟨7⟩], [⟨1⟩, ⟨2⟩, ⟨3⟩]) := by
      decide +kernel
    rw [hstart] at hreached
    obtain ⟨hwin, hmarked⟩ := Prod.mk.inj (Option.some.inj hreached)
    exact ⟨start, hstart, hwin, hmarked, (hmirrored .controllable _).1⟩
  · obtain ⟨p, hp⟩ := Problem.exists_relay
    have hgraph := (Problem.declared_of_ofGraph hp).graph
    have hfree : p.graph.propertyScope? "reached" = none := by
      rw [hgraph]
      decide +kernel
    have hreachable : p.graph.Reachable := by
      rw [hgraph]
      exact reachable_relay
    have hdeclared : Problem.ofGraph p.graph = .ok { p with maxIterations := p.maxIterations } := by
      rw [hgraph]
      exact hp
    obtain ⟨start, hstart, hmirrored⟩ := Reachable.mirrored hreachable hfree
    obtain ⟨hmarked, hsize⟩ := (hmirrored .controllable [none]).2 p.maxIterations hdeclared
    refine ⟨p, start, hp, hstart, hmarked, hsize.trans ?_⟩
    rw [hgraph]
    decide +kernel

end GraphGames
