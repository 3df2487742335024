import GraphGames.Proofs.Checkpoints

/-!
# What is reported explains what is found

A sweep reports each vertex that it attracts, with the player who moves there and the move by which it
was met first. A vertex is met once for every move into the region, and by both sweeps, but it is
reported once. So the reports of a whole computation give each attracted vertex of player one a move,
which takes it to a layer below its own, and these moves win.

* `Attraction`, `Traced.attractions`: an attraction, and those that are reported on the way;
* `Reports`: the vertices that have joined a region are those that are reported, each once;
* `Traced.Logs`, `Problem.logs_sweep`, `Operator.reports_controllable`: it is so for every walk whose
  steps report what they add, for a sweep, and for the operator for both players;
* `Problem.exists_split_of_mem_foldlM`, `Problem.explained_of_mem_sweep`: the targets that are reported;
* `Problem.Recounts`, `Problem.recounts`: all that is reported by the operator for both players;
* `Problem.Declared.reports_compute`: the reports of a computation;
* `Graph.Explains`, `Graph.Reachable.attractions_reported`: what they tell of the region that is found.
-/

namespace GraphGames

/-- A vertex of a player that is attracted by a move to a target. -/
structure Attraction where
  player : Player
  target : VertexId
  vertex : VertexId
  deriving DecidableEq

/-- The event that reports an attraction. -/
def Attraction.event (a : Attraction) : Event := .attracted a.player a.target a.vertex

/-- The attraction that an event reports. -/
def Event.attraction? : Event → Option Attraction
  | attracted player target vertex => some ⟨player, target, vertex⟩
  | _ => none

namespace Traced

variable {α β : Type}

/-- The attractions that are reported on the way, in order. -/
def attractions (t : Traced α) : List Attraction := t.events.filterMap Event.attraction?

@[simp] theorem attractions_pure (a : α) : (pure a : Traced α).attractions = [] := rfl

@[simp] theorem attractions_check : check.attractions = [] := rfl

@[simp] theorem attractions_report (event : Event) :
    (report event).attractions = event.attraction?.toList := by
  cases event <;> rfl

@[simp] theorem attractions_bind (t : Traced α) (f : α → Traced β) :
    (t >>= f).attractions = t.attractions ++ (f t.value).attractions := by
  unfold attractions
  rw [events_bind, List.filterMap_append]

end Traced

/-! ### Walks that report what they add -/

/-- No member of a set of vertices is listed twice. -/
theorem VertexSet.nodup_toList (s : VertexSet) : s.toList.Nodup := by
  refine s.pairwise_toList.imp ?_
  rintro v w hlt rfl
  exact Nat.lt_irrefl _ hlt

section Reports

variable {U V W found : VertexSet} {xs ys : List Attraction}

/-- A region grows by the vertices that are reported, and each of them is reported once. -/
structure Reports (U V : VertexSet) (xs : List Attraction) : Prop where
  keeps : ∀ v ∈ U, v ∈ V
  nodup : (xs.map Attraction.vertex).Nodup
  mem_iff : ∀ v, v ∈ xs.map Attraction.vertex ↔ v ∈ V ∧ v ∉ U

namespace Reports

theorem refl (U : VertexSet) : Reports U U [] where
  keeps _ hv := hv
  nodup := List.nodup_nil
  mem_iff v := by simp

/-- Reports of one growth after the other. -/
theorem trans (h : Reports U V xs) (h' : Reports V W ys) : Reports U W (xs ++ ys) where
  keeps v hv := h'.keeps v (h.keeps v hv)
  nodup := by
    rw [List.map_append, List.nodup_append']
    refine ⟨h.nodup, h'.nodup, ?_⟩
    intro v hv hv'
    exact ((h'.mem_iff v).mp hv').2 ((h.mem_iff v).mp hv).1
  mem_iff v := by
    rw [List.map_append, List.mem_append, h.mem_iff, h'.mem_iff]
    constructor
    · rintro (⟨hV, hU⟩ | ⟨hW, hV⟩)
      · exact ⟨h'.keeps v hV, hU⟩
      · exact ⟨hW, fun hU => hV (h.keeps v hU)⟩
    · rintro ⟨hW, hU⟩
      by_cases hV : v ∈ V
      · exact .inl ⟨hV, hU⟩
      · exact .inr ⟨hW, hV⟩

/-- Reports about vertices outside of a region are reports of what joins it. -/
theorem union (h : Reports ∅ V xs) (hout : ∀ v ∈ V, v ∉ U) : Reports U (U ∪ V) xs where
  keeps v hv := Std.ExtTreeSet.mem_union_iff.mpr (.inl hv)
  nodup := h.nodup
  mem_iff v := by
    rw [h.mem_iff, Std.ExtTreeSet.mem_union_iff]
    constructor
    · rintro ⟨hV, -⟩
      exact ⟨.inr hV, hout v hV⟩
    · rintro ⟨hU | hV, hnot⟩
      · exact absurd hU hnot
      · exact ⟨hV, Std.ExtTreeSet.not_mem_empty⟩

/-- The vertices that are reported are those that have joined, up to their order. -/
theorem perm (h : Reports U V xs) :
    (xs.map Attraction.vertex).Perm (V.toList.filter fun v => !U.contains v) := by
  rw [List.perm_ext_iff_of_nodup h.nodup (V.nodup_toList.filter _)]
  intro v
  rw [h.mem_iff, List.mem_filter, Std.ExtTreeSet.mem_toList]
  simp [← Bool.not_eq_true]

/-- A vertex is not reported twice. -/
theorem eq_of_vertex_eq (h : Reports U V xs) {a b : Attraction} (ha : a ∈ xs) (hb : b ∈ xs)
    (heq : a.vertex = b.vertex) : a = b :=
  List.inj_on_of_nodup_map h.nodup ha hb heq

end Reports

/-- A walk reports the vertices that it adds, and nothing else. -/
structure Traced.Logs (found : VertexSet) (t : Traced VertexSet) : Prop where
  events : t.events = t.attractions.map Attraction.event
  reports : Reports found t.value t.attractions

namespace Traced.Logs

theorem pure (found : VertexSet) : Traced.Logs found (Pure.pure found) := ⟨rfl, .refl found⟩

theorem bind {t : Traced VertexSet} {f : VertexSet → Traced VertexSet} (ht : t.Logs found)
    (hf : (f t.value).Logs t.value) : (t >>= f).Logs found where
  events := by
    rw [Traced.events_bind, Traced.attractions_bind, List.map_append, ← ht.events, ← hf.events]
  reports := by
    rw [Traced.value_bind, Traced.attractions_bind]
    exact ht.reports.trans hf.reports

/-- What each step of a walk reports, the walk reports. -/
theorem foldlM {α : Type} {f : VertexSet → α → Traced VertexSet}
    (h : ∀ found a, (f found a).Logs found) (as : List α) (found : VertexSet) :
    (as.foldlM f found).Logs found := by
  induction as generalizing found with
  | nil => exact .pure found
  | cons a as ih =>
    rw [List.foldlM_cons]
    exact (h found a).bind (ih _)

end Traced.Logs

/-- What a walk reports, one of its steps reports. -/
theorem mem_attractions_foldlM {α : Type} {f : VertexSet → α → Traced VertexSet} {a : Attraction}
    {as : List α} (h : a ∈ (as.foldlM f found).attractions) :
    ∃ x ∈ as, ∃ found, a ∈ (f found x).attractions := by
  induction as generalizing found with
  | nil => cases h
  | cons x as ih =>
    rw [List.foldlM_cons, Traced.attractions_bind, List.mem_append] at h
    rcases h with h | h
    · exact ⟨x, List.mem_cons_self, found, h⟩
    · obtain ⟨y, hy, hfound⟩ := ih h
      exact ⟨y, List.mem_cons_of_mem x hy, hfound⟩

end Reports

/-! ### Sweeps -/

namespace Problem

variable {p : Problem} {player : Player} {region found : VertexSet} {v target : VertexId}
variable {a : Attraction}

theorem logs_visitAfresh (found : VertexSet) (v : VertexId) :
    (p.visitAfresh player region target found v).Logs found := by
  unfold visitAfresh
  split
  · next h =>
    have hout : v ∉ found := by
      simp only [Bool.and_eq_true, Bool.not_eq_true'] at h
      simp [← Std.ExtTreeSet.contains_iff_mem, h.2]
    refine ⟨rfl, ⟨?_, List.nodup_singleton v, ?_⟩⟩
    · intro w hw
      exact Std.ExtTreeSet.mem_insert.mpr (.inr hw)
    · intro w
      show w ∈ [v] ↔ w ∈ found.insert v ∧ w ∉ found
      rw [List.mem_singleton, Std.ExtTreeSet.mem_insert, Std.compare_eq_iff_eq]
      constructor
      · rintro rfl
        exact ⟨.inl rfl, hout⟩
      · rintro ⟨rfl | hw, hnot⟩
        · rfl
        · exact absurd hw hnot
  · exact .pure found

theorem logs_visitSources (found : VertexSet) (target : VertexId) :
    (p.visitSources (p.visitAfresh player region) found target).Logs found := by
  have hwalk :
      ((p.predecessors target).foldlM (p.visitAfresh player region target) found).Logs found :=
    .foldlM logs_visitAfresh _ found
  exact ⟨hwalk.events, hwalk.reports⟩

/-- Looking at several targets reports what it finds. -/
theorem logs_foldlM (p : Problem) (player : Player) (region : VertexSet) (targets : List VertexId)
    (found : VertexSet) :
    (targets.foldlM (p.visitSources (p.visitAfresh player region)) found).Logs found :=
  .foldlM logs_visitSources targets found

/-- A sweep reports what it finds. -/
theorem logs_sweep (p : Problem) (player : Player) (region : VertexSet) :
    (p.sweep player region).Logs ∅ := by
  rw [sweep_eq]
  exact p.logs_foldlM player region region.toList ∅

/-- The source of a move that is looked at is reported with the move, if it is attracted. -/
theorem of_mem_visitAfresh (h : a ∈ (p.visitAfresh player region target found v).attractions) :
    p.attracts player region v ∧ a = ⟨player, target, v⟩ := by
  unfold visitAfresh at h
  split at h
  · next hv =>
    rw [Bool.and_eq_true] at hv
    exact ⟨hv.1, List.mem_singleton.mp h⟩
  · cases h

/-- For a target, sources of moves to it are reported. -/
theorem of_mem_visitSources
    (h : a ∈ (p.visitSources (p.visitAfresh player region) found target).attractions) :
    p.attracts player region a.vertex ∧ a.player = player ∧ a.target = target ∧
      a.vertex ∈ p.predecessors target := by
  unfold visitSources at h
  rw [Traced.attractions_bind, Traced.attractions_check, List.nil_append] at h
  obtain ⟨v, hv, found, hvisit⟩ := mem_attractions_foldlM h
  obtain ⟨hattracts, rfl⟩ := of_mem_visitAfresh hvisit
  exact ⟨hattracts, rfl, rfl, hv⟩

/-- The target that is reported for a vertex is the first of the targets to which it has a move. -/
theorem exists_split_of_mem_foldlM {targets : List VertexId}
    (h : a ∈ (targets.foldlM (p.visitSources (p.visitAfresh player region)) found).attractions) :
    p.attracts player region a.vertex ∧ a.player = player ∧ ∃ before after,
      targets = before ++ a.target :: after ∧ a.vertex ∈ p.predecessors a.target ∧
        ∀ w ∈ before, a.vertex ∉ p.predecessors w := by
  induction targets generalizing found with
  | nil => cases h
  | cons target targets ih =>
    have hrest := p.logs_foldlM player region targets
      (p.visitSources (p.visitAfresh player region) found target).value
    rw [List.foldlM_cons, Traced.attractions_bind, List.mem_append] at h
    rcases h with h | h
    · obtain ⟨hattracts, hplayer, rfl, hsource⟩ := of_mem_visitSources h
      exact ⟨hattracts, hplayer, [], targets, rfl, hsource, fun w hw => absurd hw List.not_mem_nil⟩
    · obtain ⟨hattracts, hplayer, before, after, rfl, hsource, hbefore⟩ := ih h
      refine ⟨hattracts, hplayer, target :: before, after, rfl, hsource, ?_⟩
      rw [List.forall_mem_cons]
      refine ⟨?_, hbefore⟩
      -- a vertex with a move to the first target would have been found before
      intro hfirst
      have hnew := ((hrest.reports.mem_iff a.vertex).mp (List.mem_map_of_mem h)).2
      exact hnew ((mem_visitSources found target a.vertex).mpr (.inr ⟨hattracts, hfirst⟩))

/-- An attracted vertex lies outside of the region, and its player moves there. -/
theorem of_attracts (h : p.attracts player region v) : v ∉ region ∧ p.owner? v = some player := by
  cases player with
  | one => exact attracts_one.mp h
  | two =>
    obtain ⟨hout, howner, -⟩ := attracts_two.mp h
    exact ⟨hout, howner⟩

/-- What is reported of an attraction to a region: the player who moves at the vertex, and the first
vertex of the region to which there is a move. -/
structure Explained (p : Problem) (region : VertexSet) (a : Attraction) : Prop where
  owner : p.owner? a.vertex = some a.player
  target : a.target ∈ region
  move : a.target ∈ p.successors a.vertex
  first : ∀ w ∈ p.successors a.vertex, w ∈ region → a.target.index ≤ w.index

/-- What a sweep reports is explained, as it looks at the region in ascending order. -/
theorem explained_of_mem_sweep {es : List Edge} (hlists : p.graph.Lists es)
    (h : a ∈ (p.sweep player region).attractions) : p.Explained region a := by
  rw [sweep_eq] at h
  obtain ⟨hattracts, hplayer, before, after, hsplit, hsource, hbefore⟩ :=
    exists_split_of_mem_foldlM h
  have hpairwise := region.pairwise_toList
  have hmem (w : VertexId) : w ∈ region ↔ w ∈ before ++ a.target :: after := by
    rw [← hsplit, Std.ExtTreeSet.mem_toList]
  rw [hsplit] at hpairwise
  have howner := (of_attracts hattracts).2
  rw [← hplayer] at howner
  refine ⟨howner, (hmem _).mpr ?_, ?_, ?_⟩
  · exact List.mem_append_right before List.mem_cons_self
  · exact (mem_successors hlists).mpr ((mem_predecessors hlists).mp hsource)
  · intro w hw hregion
    have hmove := (mem_predecessors hlists).mpr ((mem_successors hlists).mp hw)
    rcases List.mem_append.mp ((hmem w).mp hregion) with hin | hin
    · exact absurd hmove (hbefore w hin)
    rcases List.mem_cons.mp hin with rfl | hin
    · exact Nat.le_refl _
    · have hafter := (List.pairwise_append.mp hpairwise).2.1
      exact Nat.le_of_lt (List.rel_of_pairwise_cons hafter hin)

end Problem

/-! ### The operator for both players -/

namespace Operator

variable {p : Problem} {region : VertexSet} {v : VertexId} {a : Attraction}

/-- The attractions of the operator for both players are those of the two sweeps. -/
theorem attractions_controllable (p : Problem) (region : VertexSet) :
    (controllable.predecessors p region).attractions =
      (p.sweep .one region).attractions ++ (p.sweep .two region).attractions := by
  simp [predecessors, Event.attraction?]

/-- The sweeps find different vertices, as a vertex has one owner. -/
theorem not_mem_sweep_one (h : v ∈ (p.sweep .two region).value) : v ∉ (p.sweep .one region).value := by
  intro h'
  have htwo := (Problem.of_attracts (Problem.mem_sweep.mp h).1).2
  have hone := (Problem.of_attracts (Problem.mem_sweep.mp h').1).2
  rw [hone] at htwo
  cases htwo

/-- The operator for both players reports what it finds. -/
theorem reports_controllable (p : Problem) (region : VertexSet) :
    Reports ∅ (controllable.predecessors p region).value
      (controllable.predecessors p region).attractions := by
  rw [attractions_controllable]
  exact (p.logs_sweep .one region).reports.trans
    ((p.logs_sweep .two region).reports.union fun v hv => not_mem_sweep_one hv)

/-- Its events are these reports, and the set that is found at the end. -/
theorem events_controllable (p : Problem) (region : VertexSet) :
    (controllable.predecessors p region).events =
      (controllable.predecessors p region).attractions.map Attraction.event ++
        [.controllableFound (controllable.predecessors p region).value.extent] := by
  rw [attractions_controllable, List.map_append, ← (p.logs_sweep .one region).events,
    ← (p.logs_sweep .two region).events, List.append_assoc]
  simp [predecessors]

theorem explained_of_mem_controllable {es : List Edge} (hlists : p.graph.Lists es)
    (h : a ∈ (controllable.predecessors p region).attractions) : p.Explained region a := by
  rw [attractions_controllable, List.mem_append] at h
  rcases h with h | h
  · exact Problem.explained_of_mem_sweep hlists h
  · exact Problem.explained_of_mem_sweep hlists h

end Operator

/-- All that the operator for both players reports: each vertex that it finds, once and explained, and
at the end how many it has found. -/
structure Problem.Recounts (p : Problem) (region : VertexSet) : Prop where
  events : (Operator.controllable.predecessors p region).events =
    (Operator.controllable.predecessors p region).attractions.map Attraction.event ++
      [.controllableFound (Operator.controllable.predecessors p region).value.extent]
  once : ((Operator.controllable.predecessors p region).attractions.map Attraction.vertex).Perm
    (Operator.controllable.predecessors p region).value.toList
  explained : ∀ a ∈ (Operator.controllable.predecessors p region).attractions, p.Explained region a

theorem Problem.recounts {p : Problem} {es : List Edge} (hlists : p.graph.Lists es)
    (region : VertexSet) : p.Recounts region where
  events := Operator.events_controllable p region
  once := by
    have hperm := (Operator.reports_controllable p region).perm
    rwa [List.filter_eq_self.mpr (by simp)] at hperm
  explained _ := Operator.explained_of_mem_controllable hlists

/-! ### Computations -/

namespace Arena

variable {A : Arena} {v w : VertexId} {k : ℕ}

/-- A move into a layer from outside of it takes player one a layer down. -/
theorem approaches_of_mem_layer (hw : w ∈ A.layer k) (hv : v ∉ A.layer k) : A.Approaches v w := by
  intro j hj _
  have hlt : k < j + 1 := by
    by_contra hle
    exact hv (A.layer_mono (Nat.le_of_not_lt hle) hj)
  exact A.layer_mono (Nat.le_of_lt_succ hlt) hw

end Arena

namespace Problem

variable {g : Graph} {p : Problem} {es : List Edge} {operator : Operator} {s last : Progress}
variable {marking : Marking} {k : ℕ}

theorem attractions_conclude (operator : Operator) (s : Progress) (found : VertexSet) :
    (conclude operator s (some found)).attractions = [] := by
  by_cases hfound : found.isEmpty <;> simp [conclude, hfound, Event.attraction?]

/-- A poll below the bound reports the attractions of its operator. -/
theorem attractions_poll (operator : Operator) (h : s.iteration < p.maxIterations) :
    (p.poll operator none s).attractions = (operator.predecessors p s.win).attractions := by
  have hb : ¬ p.maxIterations ≤ s.iteration := UInt64.not_le.mpr h
  show (Traced.check >>= fun _ => p.round operator none s).attractions = _
  unfold round
  rw [Traced.attractions_bind, Traced.attractions_check, if_neg hb, Traced.attractions_bind]
  show [] ++ ((operator.predecessors p s.win).attractions ++
    (conclude operator _ (some (operator.predecessors p s.win).value)).attractions) = _
  rw [attractions_conclude, List.append_nil, List.nil_append]

/-- A poll below the bound reports the vertices that join the region. -/
theorem reports_poll {es : List Edge} (hlists : p.graph.Lists es) (h : s.iteration < p.maxIterations) :
    Reports s.win (s.win ∪ (Operator.controllable.predecessors p s.win).value)
      (p.poll .controllable none s).attractions := by
  rw [attractions_poll .controllable h]
  refine (Operator.reports_controllable p s.win).union fun v hv => ?_
  exact ((mem_predecessors_iff hlists).mp hv).1

/-- The attraction is by a move of the owner that goes on into the region, and takes player one a layer
down. -/
structure Descends (g : Graph) (region : VertexSet) (a : Attraction) : Prop where
  owner : g.owner? a.vertex = some a.player
  move : g.arena.Moves a.vertex a.target
  target : a.target ∈ region
  approaches : g.arena.Approaches a.vertex a.target

theorem Declared.descends_of_mem_poll (h : p.Declared g) (hlists : g.Lists es)
    (hs : s.AtLayer g p k) (hbound : s.iteration < p.maxIterations) {a : Attraction}
    (ha : a ∈ (p.poll .controllable none s).attractions) : Descends g s.win a := by
  have hlists' : p.graph.Lists es := h.graph ▸ hlists
  have hout : a.vertex ∉ s.win :=
    (((reports_poll hlists' hbound).mem_iff a.vertex).mp (List.mem_map_of_mem ha)).2
  rw [attractions_poll .controllable hbound] at ha
  have hexplained := Operator.explained_of_mem_controllable hlists' ha
  have hmove := (mem_successors hlists').mp hexplained.move
  rw [h.arena_eq] at hmove
  refine ⟨?_, hmove, hexplained.target, ?_⟩
  · rw [← h.owner]
    exact hexplained.owner
  · exact Arena.approaches_of_mem_layer ((hs.win _).mp hexplained.target) (mt (hs.win _).mpr hout)

theorem Descends.mono {region region' : VertexSet} {a : Attraction} (h : Descends g region a)
    (hsub : ∀ v ∈ region, v ∈ region') : Descends g region' a :=
  ⟨h.owner, h.move, hsub _ h.target, h.approaches⟩

/-- The poll that completes a computation reports no attraction. -/
theorem attractions_of_completed {next : Progress}
    (h : (p.poll .controllable none s).value = (.completed marking, next)) :
    (p.poll .controllable none s).attractions = [] := by
  obtain ⟨-, -, hbound, hempty⟩ := of_completed h
  rw [attractions_poll .controllable hbound, List.eq_nil_iff_forall_not_mem]
  intro a ha
  have hfound := ((Operator.reports_controllable p s.win).mem_iff a.vertex).mp (List.mem_map_of_mem ha)
  rw [Std.ExtTreeSet.isEmpty_iff.mp hempty] at hfound
  exact Std.ExtTreeSet.not_mem_empty hfound.1

/-- After a poll that suspends, what the rest of the computation reports follows. -/
theorem attractions_of_suspended {next : Progress}
    (h : (p.poll .controllable none s).value = (.suspended, next)) :
    (p.compute .controllable none s).attractions =
      (p.poll .controllable none s).attractions ++ (p.compute .controllable none next).attractions := by
  rw [compute_of_suspended (Traced.eq_mk h)]
  unfold Traced.attractions Traced.events
  rw [← List.filterMap_append, ← List.filterMap_append]
  rfl

/-- A computation that answers reports the vertices that join the region, each with a move that goes on
into the region and takes player one a layer down. -/
theorem Declared.reports_compute (h : p.Declared g) (hlists : g.Lists es) (hs : s.AtLayer g p k)
    (hanswer : (p.compute .controllable none s).value = (.ok marking, last)) :
    Reports s.win last.win (p.compute .controllable none s).attractions ∧
      ∀ a ∈ (p.compute .controllable none s).attractions, Descends g last.win a := by
  have hlists' : p.graph.Lists es := h.graph ▸ hlists
  -- each poll that suspends leaves fewer rounds up to the bound
  generalize hleft : (p.maxIterations - s.iteration).toNat = left
  induction left using Nat.strongRecOn generalizing s k with
  | ind left ih =>
  cases hvalue : (p.poll .controllable none s).value with
  | mk outcome next =>
  have hpoll := Traced.eq_mk hvalue
  cases outcome with
  | cancelled cause =>
    rw [compute_of_cancelled hpoll] at hanswer
    cases hanswer
  | completed marking' =>
    rw [compute_of_completed hpoll] at hanswer ⊢
    obtain ⟨-, rfl⟩ := Prod.mk.inj hanswer
    obtain ⟨rfl, -⟩ := of_completed hvalue
    have hnone : (⟨(.ok marking', begun s), (p.poll .controllable none s).steps⟩ :
        Traced (Except Cause Marking × Progress)).attractions = [] := attractions_of_completed hvalue
    rw [hnone]
    exact ⟨.refl s.win, fun a ha => absurd ha List.not_mem_nil⟩
  | suspended =>
    obtain ⟨rfl, hbound, -⟩ := of_suspended hvalue
    have hlayer := h.atLayer_poll hlists hs (by rw [hvalue]; rfl)
    rw [hvalue] at hlayer
    rw [compute_none_of_suspended hvalue] at hanswer
    obtain ⟨hrest, hdescends⟩ := ih _ (hleft ▸ roundsLeft_lt hpoll) hlayer hanswer rfl
    rw [attractions_of_suspended hvalue]
    refine ⟨(reports_poll hlists' hbound).trans hrest, ?_⟩
    rw [List.forall_mem_append]
    refine ⟨?_, hdescends⟩
    intro a ha
    have hkeeps : ∀ v ∈ s.win, v ∈ last.win := fun v hv =>
      hrest.keeps v (Std.ExtTreeSet.mem_union_iff.mpr (.inl hv))
    exact (h.descends_of_mem_poll hlists hs hbound ha).mono hkeeps

end Problem

/-! ### Strategies that follow the reports -/

namespace Arena

variable {A : Arena} {log : List Attraction}

/-- At the vertices of player one that are reported, the player moves as reported. -/
def Strategy.Follows (σ : A.Strategy .one) (log : List Attraction) : Prop :=
  ∀ a ∈ log, a.player = .one → ∀ past, σ.choose past a.vertex = a.target

/-- The reported moves make a strategy without memory, if they are moves and no vertex is reported
twice. -/
theorem exists_follows (hmoves : ∀ a ∈ log, A.Moves a.vertex a.target)
    (howner : ∀ a ∈ log, A.owner? a.vertex = some a.player)
    (hunique : ∀ a ∈ log, ∀ b ∈ log, a.vertex = b.vertex → a = b) :
    ∃ σ : A.Strategy .one, σ.Memoryless ∧ σ.Follows log := by
  have hgood (v u : VertexId) (_ : A.owner? v = some .one) (hu : A.Moves v u) :
      ∃ w, A.Moves v w ∧ ∀ a ∈ log, a.vertex = v → w = a.target := by
    by_cases hlogged : ∃ a ∈ log, a.vertex = v
    · obtain ⟨a, ha, rfl⟩ := hlogged
      exact ⟨a.target, hmoves a ha, fun b hb heq => by rw [hunique a ha b hb heq.symm]⟩
    · exact ⟨u, hu, fun a ha heq => absurd ⟨a, ha, heq⟩ hlogged⟩
  obtain ⟨σ, hmemoryless, hσ⟩ := exists_memoryless _ hgood
  refine ⟨σ, hmemoryless, ?_⟩
  intro a ha hplayer past
  have hone := howner a ha
  rw [hplayer] at hone
  exact hσ past a.vertex a.target hone (hmoves a ha) a ha rfl

end Arena

namespace Graph

variable {g : Graph} {es : List Edge} {finals region : VertexSet} {log : List Attraction}

/-- The reports of a computation tell how its region came about, from these final vertices. -/
structure Explains (g : Graph) (finals region : VertexSet) (log : List Attraction) : Prop where
  /-- Each vertex of the region that is not final is reported once, and no other is. -/
  once : (log.map Attraction.vertex).Perm (region.toList.filter fun v => !finals.contains v)
  /-- It is reported with the player who moves there, and a move that goes on into the region. -/
  moves : ∀ a ∈ log, g.owner? a.vertex = some a.player ∧ g.arena.Moves a.vertex a.target ∧
    a.target ∈ region
  /-- Player one can move as reported, without memory. -/
  followed : ∃ σ : g.arena.Strategy .one, σ.Memoryless ∧ σ.Follows log
  /-- Whoever does so visits a final vertex from everywhere in the region, within as many moves as there
  are vertices that are not final. -/
  wins : ∀ σ : g.arena.Strategy .one, σ.Follows log → ∀ (π : g.arena.Play), ∀ v ∈ region,
    π.position 0 = some v → σ.Governs π → π.VisitsWithin (g.numVertices - g.numFinals)

/-- Moves that take player one a layer down explain the last layer. -/
theorem Lists.explains (h : g.Lists es) (hfinals : ∀ v, v ∈ finals ↔ g.isFinal v)
    (hregion : ∀ v, v ∈ region ↔ v ∈ g.arena.layer g.arena.depth) (hreports : Reports finals region log)
    (hdescends : ∀ a ∈ log, Problem.Descends g region a) : g.Explains finals region log where
  once := hreports.perm
  moves a ha := ⟨(hdescends a ha).owner, (hdescends a ha).move, (hdescends a ha).target⟩
  followed := Arena.exists_follows (fun a ha => (hdescends a ha).move)
    (fun a ha => (hdescends a ha).owner) fun a ha b hb => hreports.eq_of_vertex_eq ha hb
  wins := by
    intro σ hσ π v hv hstart hπ
    have happroaches (past : List VertexId) (v u : VertexId) (howner : g.arena.owner? v = some .one)
        (hmove : g.arena.Moves v u) : g.arena.Approaches v (σ.choose past v) := by
      intro k hk hnot
      -- a vertex of some layer is in the region, so it is reported unless it is final
      have hlogged : v ∈ log.map Attraction.vertex := (hreports.mem_iff v).mpr
        ⟨(hregion v).mpr (h.settled.depth.subset _ hk), mt (hfinals v).mp hnot⟩
      obtain ⟨a, ha, rfl⟩ := List.mem_map.mp hlogged
      have hplayer : a.player = .one :=
        Option.some.inj ((hdescends a ha).owner.symm.trans howner)
      rw [hσ a ha hplayer past]
      exact (hdescends a ha).approaches k hk hnot
    obtain ⟨i, hi, hvisit⟩ := Arena.visits_of_mem_layer happroaches hπ hstart ((hregion v).mp hv)
    rw [Nat.zero_add] at hi
    exact ⟨i, hi.trans h.settled.depth_le, hvisit⟩

/-- **What is reported is exact, and shows how to win.** In one round, for whatever owners and region, each
vertex that is found is reported once, with its owner and the first of its successors in the region, and
nothing else is reported but the set that is found. So over a computation for a graph, whatever its
history, each vertex of the region is reported once unless it is final, and player one wins from the
whole region by making the reported moves, whatever else the player does. -/
theorem Reachable.attractions_reported (h : g.Reachable) :
    (∀ (p : Problem) region, p.graph = g → p.Recounts region) ∧
    ∀ p, Problem.ofGraph g = .ok p → ∀ bound name start,
      Progress.start { p with maxIterations := bound } name = .ok start →
      let run := ({ p with maxIterations := bound } : Problem).compute .controllable none start
      (g.numVertices < bound.toNat → ∃ marking last, run.value = (.ok marking, last)) ∧
      ∀ marking last, run.value = (.ok marking, last) →
        marking.marked = last.win ∧ g.Explains p.finals last.win run.attractions := by
  obtain ⟨es, hlists⟩ := h.lists
  constructor
  · rintro p region rfl
    exact Problem.recounts hlists region
  · intro p hp bound name start hstart
    have hdeclared := (Problem.declared_of_ofGraph hp).bounded bound
    have hlayer := hdeclared.atLayer_start hstart
    constructor
    · intro hbound
      obtain ⟨last, hlast, -⟩ :=
        hdeclared.compute_layers hlists hlayer (Nat.zero_le _) (hlists.depth_le.trans_lt hbound)
      exact ⟨last.marking, last, hlast⟩
    · intro marking last hanswer
      obtain ⟨hreports, hdescends⟩ := hdeclared.reports_compute hlists hlayer hanswer
      obtain ⟨last', hlast, -, hmirrors, hwin⟩ := hdeclared.compute_layers hlists hlayer
        (Nat.zero_le _) (hdeclared.depth_lt_of_answer hlists hlayer hanswer)
      rw [hanswer] at hlast
      obtain ⟨rfl, rfl⟩ : marking = last'.marking ∧ last = last' := by
        obtain ⟨hmarking, rfl⟩ := Prod.mk.inj hlast
        exact ⟨Except.ok.inj hmarking, rfl⟩
      refine ⟨?_, hlists.explains hdeclared.final hwin ?_ hdescends⟩
      · refine VertexSet.ext fun v => ?_
        rw [Marking.mem_marked, hmirrors.isMarked_iff, hmirrors.graph, hdeclared.graph]
        exact and_iff_right_of_imp fun hv => hlists.contains_of_mem_layer ((hwin v).mp hv)
      · have hfinals : start.win = p.finals := (Progress.mirrors_start hstart).2.2
        rwa [hfinals] at hreports

/-- Player two cannot but move to the final vertex, and player one can move there through player two. -/
theorem relay_attractions_reported :
    ∃ p start marking last, Problem.ofGraph relay = .ok p ∧ Progress.startFree p = .ok start ∧
      (p.compute .controllable none start).value = (.ok marking, last) ∧
      (p.compute .controllable none start).attractions = [⟨.two, ⟨2⟩, ⟨1⟩⟩, ⟨.one, ⟨1⟩, ⟨0⟩⟩] ∧
      relay.Explains p.finals last.win [⟨.two, ⟨2⟩, ⟨1⟩⟩, ⟨.one, ⟨1⟩, ⟨0⟩⟩] ∧
      p.Recounts last.win := by
  obtain ⟨hrecounts, hruns⟩ := Reachable.attractions_reported reachable_relay
  obtain ⟨p, hp⟩ := Problem.exists_relay
  obtain ⟨start, hstart⟩ := Progress.exists_startFree p
  obtain ⟨hanswers, hexplains⟩ := hruns p hp p.maxIterations _ start hstart
  obtain ⟨marking, last, hanswer⟩ := hanswers (by
    rw [Problem.maxIterations_of_ofGraph hp]
    decide +kernel)
  have hlog : (Problem.ofGraph relay).toOption.bind (fun p => (Progress.startFree p).toOption.map
      fun start => (p.compute .controllable none start).attractions) =
        some [⟨.two, ⟨2⟩, ⟨1⟩⟩, ⟨.one, ⟨1⟩, ⟨0⟩⟩] := by
    decide +kernel
  simp only [hp, hstart, Except.toOption, Option.bind_some, Option.map_some, Option.some.injEq] at hlog
  have hexplained := (hexplains marking last hanswer).2
  rw [← hlog]
  exact ⟨p, start, marking, last, hp, hstart, hanswer, rfl, hexplained,
    hrecounts p last.win (Problem.declared_of_ofGraph hp).graph⟩

end Graph

end GraphGames
