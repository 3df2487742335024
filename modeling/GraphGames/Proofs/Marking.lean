import GraphGames.Attractor.Round
import GraphGames.Proofs.Success
import Mathlib.Data.List.Nodup
import Mathlib.Data.List.Perm.Subperm
import Mathlib.Data.Nat.Find
import Mathlib.Order.Bounds.Basic

/-!
# Markings as sets, and free names for them

* `Marking.isMarked_markAll`: what is marked after several vertices have been marked;
* `Progress.Mirrors`: the marking of a computation is its region. It is so at the start, and stays
  so when vertices join;
* `Marking.exists_free`, `Marking.exists_isLeast_free`: the name that is chosen for a marking is the
  first of those tried that is free. One of them is, as no two are the same and one more is tried than
  there are declared names.
-/

namespace GraphGames

namespace Column

variable {c : Column} {slot i : Nat}

/-- A cell of a column of truth values, read as false where there is none. -/
def flag (c : Column) (i : Nat) : Bool := (c.bool? i).getD false

theorem exists_setBool (h : c.type = .bool) (slot : Nat) (b : Bool) :
    ∃ next, c.setBool slot b = some next ∧ next.type = .bool ∧
      ∀ i, next.flag i = if slot = i then b else c.flag i := by
  obtain ⟨type, cells⟩ := c
  obtain rfl : type = .bool := h
  refine ⟨put ⟨.bool, cells⟩ slot b, rfl, rfl, ?_⟩
  intro i
  have hget := get?_put ⟨.bool, cells⟩ slot b i
  have hgrow := get?_grow ⟨.bool, cells⟩ (slot + 1) i
  unfold flag bool?
  rw [hget, hgrow]
  by_cases hslot : slot = i
  · rw [if_pos hslot, if_pos hslot]
    rfl
  rw [if_neg hslot, if_neg hslot]
  by_cases hi : i < (⟨.bool, cells⟩ : Column).size
  · rw [if_pos hi]
  -- a cell that had to be added reads as before
  rw [if_neg hi, get?_eq_none_iff.mpr (Nat.le_of_not_lt hi)]
  split <;> rfl

end Column

namespace Marking

variable {m : Marking} {v w : VertexId} {vs : List VertexId}

theorem type_column_mark (h : m.column.type = .bool) (v : VertexId) :
    (m.mark v).column.type = .bool := by
  obtain ⟨next, hset, htype, -⟩ := Column.exists_setBool h v.index true
  show ((m.column.setBool v.index true).getD m.column).type = .bool
  rw [hset]
  exact htype

theorem isMarked_mark (h : m.column.type = .bool) (v w : VertexId) :
    (m.mark v).isMarked w ↔ v = w ∨ m.isMarked w := by
  obtain ⟨next, hset, -, hflag⟩ := Column.exists_setBool h v.index true
  show ((m.column.setBool v.index true).getD m.column).flag w.index ↔ v = w ∨ m.column.flag w.index
  rw [hset, Option.getD_some, hflag, VertexId.ext_iff]
  by_cases hslot : v.index = w.index <;> simp [hslot]

theorem type_column_markAll (h : m.column.type = .bool) (vs : List VertexId) :
    (m.markAll vs).column.type = .bool := by
  induction vs generalizing m with
  | nil => exact h
  | cons v vs ih => exact ih (type_column_mark h v)

theorem graph_markAll (m : Marking) (vs : List VertexId) : (m.markAll vs).graph = m.graph := by
  induction vs generalizing m with
  | nil => rfl
  | cons v vs ih => exact (ih (m.mark v)).trans (graph_mark m v)

theorem name_markAll (m : Marking) (vs : List VertexId) : (m.markAll vs).name = m.name := by
  induction vs generalizing m with
  | nil => rfl
  | cons v vs ih => exact (ih (m.mark v)).trans (name_mark m v)

theorem isMarked_markAll (h : m.column.type = .bool) (vs : List VertexId) (w : VertexId) :
    (m.markAll vs).isMarked w ↔ w ∈ vs ∨ m.isMarked w := by
  induction vs generalizing m with
  | nil => simp [markAll]
  | cons v vs ih =>
    have hrest := ih (type_column_mark h v)
    rw [isMarked_mark h] at hrest
    rwa [or_left_comm, ← or_assoc, @eq_comm _ v, ← List.mem_cons] at hrest

theorem mem_marked : v ∈ m.marked ↔ m.graph.containsVertex v ∧ m.isMarked v := by
  unfold marked
  rw [Std.ExtTreeSet.mem_ofList, List.contains_iff_mem, List.mem_filter, Graph.mem_vertices]

/-- A new marking has the name that was asked for, which is free. -/
theorem name_of_create {g : Graph} {name : String} (h : create g name = .ok m) :
    m.name = name ∧ g.propertyScope? name = none := by
  unfold create at h
  cases hs : g.propertyScope? name with
  | some existing =>
    rw [hs] at h
    cases h
  | none =>
    rw [hs] at h
    obtain rfl := Except.ok.inj h
    exact ⟨rfl, rfl⟩

/-- A new marking is one of truth values, and marks nothing. -/
theorem of_create {g : Graph} {name : String} (h : create g name = .ok m) :
    m.graph = g ∧ m.column.type = .bool ∧ ∀ v, ¬ m.isMarked v := by
  unfold create at h
  cases hs : g.propertyScope? name with
  | some existing =>
    rw [hs] at h
    cases h
  | none =>
    rw [hs] at h
    obtain rfl := Except.ok.inj h
    refine ⟨rfl, rfl, ?_⟩
    intro v
    unfold isMarked Column.bool?
    rw [Column.get?_defaults]
    split <;> simp [Value.default, ValueType.default, Value.bool?]

end Marking

/-! ### Free names -/

namespace Marking

/-- The characters of a numbered candidate. -/
theorem toList_numbered (base : String) (k : Nat) :
    (s!"{base}_{k + 1}").toList = base.toList ++ '_' :: Nat.toDigits 10 (k + 1) := by
  show (base ++ "_" ++ toString (k + 1)).toList = _
  simp

/-- The name that is tried after `k` others: the base itself, then the base with the number `k`. -/
def numbered (base : String) : ℕ → String
  | 0 => base
  | k + 1 => s!"{base}_{k + 1}"

theorem candidates_eq (base : String) (n : ℕ) :
    candidates base n = (List.range (n + 1)).map (numbered base) := by
  rw [List.range_succ_eq_map, List.map_cons, List.map_map]
  rfl

/-- No name is tried twice. -/
theorem numbered_injective (base : String) : Function.Injective (numbered base) := by
  have hbase (k : ℕ) : numbered base 0 ≠ numbered base (k + 1) := by
    intro heq
    have hlength := congrArg List.length ((congrArg String.toList heq).trans (toList_numbered base k))
    simp [numbered] at hlength
  intro j k heq
  cases j with
  | zero =>
    cases k with
    | zero => rfl
    | succ k => exact absurd heq (hbase k)
  | succ j =>
    cases k with
    | zero => exact absurd heq.symm (hbase j)
    | succ k =>
      have hlist := (toList_numbered base j).symm.trans
        ((congrArg String.toList heq).trans (toList_numbered base k))
      have hdigits := (List.cons.inj (List.append_cancel_left hlist)).2
      have hnumber := congrArg (fun digits => Nat.ofDigitChars 10 digits 0) hdigits
      simpa using hnumber

/-- There are fewer declared names than names that are tried, so one of these is free. -/
theorem exists_free (g : Graph) (base : String) :
    ∃ k ≤ g.properties.size, g.propertyScope? (numbered base k) = none := by
  by_contra hnone
  push Not at hnone
  have hnodup := (List.nodup_range (n := g.properties.size + 1)).map (numbered_injective base)
  have hall : (List.range (g.properties.size + 1)).map (numbered base) ⊆ g.properties.keys := by
    intro name hname
    obtain ⟨k, hk, rfl⟩ := List.mem_map.mp hname
    have hdeclared := hnone k (Nat.le_of_lt_succ (List.mem_range.mp hk))
    rw [Std.ExtTreeMap.mem_keys, ← Std.ExtTreeMap.isSome_getElem?_iff_mem]
    simpa [Graph.propertyScope?, Properties.scope?, ← Option.ne_none_iff_isSome] using hdeclared
  have hlength := (List.subperm_of_subset hnodup hall).length_le
  rw [Std.ExtTreeMap.length_keys, List.length_map, List.length_range] at hlength
  omega

/-- The first of the names that are tried and that are free is chosen. -/
theorem exists_isLeast_free (g : Graph) (base : String) :
    ∃ k ≤ g.properties.size, IsLeast {k | g.propertyScope? (numbered base k) = none} k ∧
      freeName g base = numbered base k := by
  have hfree : ∃ k, g.propertyScope? (numbered base k) = none := by
    obtain ⟨k, -, hk⟩ := exists_free g base
    exact ⟨k, hk⟩
  have hle : Nat.find hfree ≤ g.properties.size := by
    obtain ⟨k, hle, hk⟩ := exists_free g base
    exact (Nat.find_le hk).trans hle
  refine ⟨Nat.find hfree, hle, ⟨Nat.find_spec hfree, fun k hk => Nat.find_le hk⟩, ?_⟩
  have hfound : (List.range (g.properties.size + 1)).find?
      ((fun name => (g.propertyScope? name).isNone) ∘ numbered base) = some (Nat.find hfree) := by
    rw [List.find?_range_eq_some]
    refine ⟨?_, List.mem_range.mpr (Nat.lt_succ_of_le hle), ?_⟩
    · exact Option.isNone_iff_eq_none.mpr (Nat.find_spec hfree)
    · intro k hk
      simpa [← Option.ne_none_iff_isSome] using Nat.find_min hfree hk
  unfold freeName
  rw [candidates_eq, List.find?_map, hfound]
  rfl

/-- A name that is free is found. -/
theorem propertyScope?_freeName (g : Graph) (base : String) :
    g.propertyScope? (freeName g base) = none := by
  obtain ⟨k, -, hleast, hname⟩ := exists_isLeast_free g base
  rw [hname]
  exact hleast.1

/-- A marking under a free name can be created. -/
theorem exists_create {g : Graph} {name : String} (h : g.propertyScope? name = none) :
    ∃ m, create g name = .ok m ∧ m.name = name := by
  unfold create
  rw [h]
  exact ⟨_, rfl, rfl⟩

end Marking

namespace Progress

variable {p : Problem} {s start : Progress} {v : VertexId}

/-- The marking of a computation marks the vertices of its region in the graph of the problem. -/
structure Mirrors (p : Problem) (s : Progress) : Prop where
  graph : s.marking.graph = p.graph
  type : s.marking.column.type = .bool
  isMarked_iff : ∀ v, s.marking.isMarked v ↔ v ∈ s.win

theorem mirrors_start {name : String} (h : Progress.start p name = .ok start) :
    start.Mirrors p ∧ start.iteration = 0 ∧ start.win = p.finals := by
  obtain ⟨marking, hcreate, h⟩ := bind_eq_ok_iff.mp h
  obtain rfl := Except.ok.inj h
  obtain ⟨hgraph, htype, hnone⟩ := Marking.of_create hcreate
  refine ⟨⟨?_, ?_, ?_⟩, rfl, rfl⟩
  · exact (Marking.graph_markAll _ _).trans hgraph
  · exact Marking.type_column_markAll htype _
  · intro v
    rw [Marking.isMarked_markAll htype, Std.ExtTreeSet.mem_toList]
    exact or_iff_left (hnone v)

/-- A computation without a name for its marking starts, with the free name that is chosen. -/
theorem exists_startFree_name (p : Problem) : ∃ start, startFree p = .ok start ∧
    start.marking.name = Marking.freeName p.graph Marking.defaultName := by
  obtain ⟨m, hcreate, hname⟩ :=
    Marking.exists_create (Marking.propertyScope?_freeName p.graph Marking.defaultName)
  refine ⟨_, bind_eq_ok_iff.mpr ⟨m, hcreate, rfl⟩, ?_⟩
  rw [← hname]
  exact Marking.name_markAll m _

/-- There is always a free name to start with. -/
theorem exists_startFree (p : Problem) : ∃ start, startFree p = .ok start := by
  obtain ⟨start, hstart, -⟩ := exists_startFree_name p
  exact ⟨start, hstart⟩

theorem Mirrors.join (h : s.Mirrors p) (found : VertexSet) : (s.join found).Mirrors p where
  graph := (Marking.graph_markAll _ _).trans h.graph
  type := Marking.type_column_markAll h.type _
  isMarked_iff v := by
    show (s.marking.markAll found.toList).isMarked v ↔ v ∈ s.win ∪ found
    rw [Marking.isMarked_markAll h.type, h.isMarked_iff, Std.ExtTreeSet.mem_union_iff,
      Std.ExtTreeSet.mem_toList, or_comm]

end Progress

end GraphGames
