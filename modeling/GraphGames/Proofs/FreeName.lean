import GraphGames.Proofs.Declarations
import GraphGames.Proofs.Session

/-!
# A free name is always found

A marking that nobody named gets the first free name among a base and the base with a number. The names
are tried one after the other, without a bound on their number. No two of them are the same, and there
are only so many declared names, so the search ends, after at most as many steps as there are declared
names. Nothing that names its marking in this way is ever refused for its name.

* `Marking.Trial`, `Marking.Search`: a name that is tried, and the search step by step;
* `Marking.search_iff`: where the search ends;
* `Marking.Finds`: what is told of a name in terms of what is declared;
* `Problem.of_ofGraph_eq_error`, `Solver.of_run_eq_error`: what a problem is refused for, and what a run
  fails with;
* `Graph.NamesMarkings`: what uses a free name, and is never refused for it;
* `Graph.free_name`: all of it.
-/

namespace GraphGames

namespace Properties

/-- The number of declared names. -/
theorem length_allNames (ps : Properties) : ps.allNames.length = ps.size := Std.ExtTreeMap.length_keys

/-- A column is not found only if its name is unknown. -/
theorem eq_unknownProperty {ps : Properties} {scope : Scope} {name : String} {e : Error}
    (h : ps.column scope name = .error e) : e = .unknownProperty name scope := by
  unfold column at h
  cases hcolumn : ps.column? scope name with
  | none =>
    rw [hcolumn] at h
    exact (Except.error.inj h).symm
  | some column =>
    rw [hcolumn] at h
    cases h

end Properties

/-- A name that is free has no type in any scope. -/
theorem Graph.propertyType_of_free {g : Graph} {name : String} (h : g.propertyScope? name = none)
    (scope : Scope) : g.propertyType scope name = .error (.unknownProperty name scope) := by
  unfold propertyType Properties.column
  rw [column?_of_free h]
  rfl

namespace Marking

variable {g : Graph} {base name : String} {k last : ℕ}

/-! ### The search -/

/-- A name that is tried, and the number of those that were tried before. -/
structure Trial where
  name : String
  suffix : ℕ

namespace Trial

/-- The base is tried first. -/
def first (base : String) : Trial := ⟨base, 0⟩

/-- The base with the next number is tried next. -/
def next (base : String) (t : Trial) : Trial := ⟨s!"{base}_{t.suffix + 1}", t.suffix + 1⟩

/-- The trial after `k` others. -/
def after (base : String) (k : ℕ) : Trial := ⟨numbered base k, k⟩

theorem next_after (base : String) (k : ℕ) : (after base k).next base = after base (k + 1) := rfl

end Trial

/-- The search from a trial on: it ends with a name that is free, and goes on after one that is
declared. -/
inductive Search (g : Graph) (base : String) : Trial → Trial → Prop
  | found {t : Trial} : g.propertyScope? t.name = none → Search g base t t
  | next {t last : Trial} {scope : Scope} : g.propertyScope? t.name = some scope →
      Search g base (t.next base) last → Search g base t last

/-- The search has at most one end. -/
theorem Search.unique {t last last' : Trial} (h : Search g base t last)
    (h' : Search g base t last') : last = last' := by
  induction h with
  | found hfree =>
    cases h' with
    | found => rfl
    | next htaken =>
      rw [hfree] at htaken
      cases htaken
  | next htaken _ ih =>
    cases h' with
    | found hfree =>
      rw [hfree] at htaken
      cases htaken
    | next _ hrest => exact ih hrest

/-- The search goes on up to a name that is free. -/
theorem search_after (hk : k ≤ last) (hfree : g.propertyScope? (numbered base last) = none)
    (htaken : ∀ j < last, g.propertyScope? (numbered base j) ≠ none) :
    Search g base (.after base k) (.after base last) := by
  -- the induction is on the number of names that are left to be tried
  induction hk using Nat.decreasingInduction with
  | self => exact .found hfree
  | of_succ j hj ih =>
    obtain ⟨scope, hscope⟩ := Option.ne_none_iff_exists'.mp (htaken j hj)
    rw [← Trial.next_after] at ih
    exact .next hscope ih

/-- The search ends with the first of the names that are free. -/
theorem search_iff (h : IsLeast {k | g.propertyScope? (numbered base k) = none} k) {t : Trial} :
    Search g base (.first base) t ↔ t = .after base k := by
  have hsearch : Search g base (.first base) (.after base k) :=
    search_after (Nat.zero_le k) h.1 fun j hj hfree => absurd (h.2 hfree) (Nat.not_le.mpr hj)
  constructor
  · intro ht
    exact ht.unique hsearch
  · rintro rfl
    exact hsearch

/-! ### The name that is found -/

/-- A name is the base if that is not declared, and otherwise the base with the least number from `1`
on that leads to a name that is not declared. That number does not exceed the number of declared names.
The name is not declared for any scope. -/
structure Finds (g : Graph) (base name : String) : Prop where
  unnumbered : g.propertyScope? base = none → name = base
  numbered : g.propertyScope? base ≠ none → ∃ k ≤ g.properties.allNames.length,
    IsLeast {k | 1 ≤ k ∧ g.propertyScope? s!"{base}_{k}" = none} k ∧ name = s!"{base}_{k}"
  free : ∀ scope, g.propertyType scope name = .error (.unknownProperty name scope)

theorem finds_numbered (hle : k ≤ g.properties.size)
    (h : IsLeast {k | g.propertyScope? (Marking.numbered base k) = none} k) :
    Finds g base (Marking.numbered base k) where
  unnumbered hfree := by
    obtain rfl : k = 0 := Nat.le_zero.mp (h.2 hfree)
    rfl
  numbered htaken := by
    cases k with
    | zero => exact absurd h.1 htaken
    | succ k =>
      refine ⟨k + 1, (Properties.length_allNames _).ge.trans' hle, ⟨⟨Nat.le_add_left 1 k, h.1⟩, ?_⟩, rfl⟩
      rintro (_ | j) ⟨hj, hfree⟩
      · cases hj
      · exact h.2 hfree
  free := Graph.propertyType_of_free h.1

end Marking

/-! ### What a solver fails with -/

namespace Problem

variable {g : Graph} {e : Error} {turn isFinal : Column} {v : VertexId}

/-- A graph is refused for a property that it does not declare, or for one of its vertices. -/
theorem of_ofGraph_eq_error (h : ofGraph g = .error e) :
    (∃ name, e = .unknownProperty name .vertex) ∨
      (∃ name, e = .invalidGame name .unreadable) ∨ ∃ v value, e = .invalidTurn v value := by
  rcases bind_eq_error_iff.mp h with hturn | ⟨turn, -, h⟩
  · exact .inl ⟨turnProperty, Properties.eq_unknownProperty hturn⟩
  rcases bind_eq_error_iff.mp h with hfinal | ⟨isFinal, -, h⟩
  · exact .inl ⟨isFinalProperty, Properties.eq_unknownProperty hfinal⟩
  rcases bind_eq_error_iff.mp h with hroles | ⟨roles, -, h⟩
  · obtain ⟨v, -, hv⟩ := exists_of_mapM_eq_error hroles
    rcases bind_eq_error_iff.mp hv with hrole | ⟨role, -, hv⟩
    · rcases of_role_eq_error hrole with ⟨rfl, -⟩ | ⟨value, rfl⟩ | ⟨rfl, -⟩
      · exact .inr (.inl ⟨turnProperty, rfl⟩)
      · exact .inr (.inr ⟨v, value, rfl⟩)
      · exact .inr (.inl ⟨isFinalProperty, rfl⟩)
    · cases hv
  · cases h

end Problem

namespace Solver

variable {solver : Solver} {allowance : Allowance} {e : Error}

/-- A run can start iff the problem can be read, and is refused as that is otherwise. -/
theorem prepare_eq_error_iff : solver.prepare = .error e ↔ Problem.ofGraph solver.graph = .error e := by
  constructor
  · intro h
    rcases bind_eq_error_iff.mp h with hproblem | ⟨p, -, h⟩
    · exact hproblem
    rcases bind_eq_error_iff.mp h with hstart | ⟨start, -, h⟩
    · obtain ⟨start, hstart'⟩ := Progress.exists_startFree { p with maxIterations := solver.maxIterations }
      rw [hstart'] at hstart
      cases hstart
    · cases h
  · intro h
    exact bind_eq_error_iff.mpr (.inl h)

/-- A run fails because it cannot start or because it is cancelled. -/
theorem of_run_eq_error (h : (solver.run allowance).value.1 = .error e) :
    Problem.ofGraph solver.graph = .error e ∨ ∃ cause, e = .cancelled cause := by
  by_cases hfirst : solver.computesFirst
  · cases hprepare : solver.prepare with
    | error e' =>
      unfold run at h
      rw [if_pos hfirst, hprepare] at h
      obtain rfl := Except.error.inj h
      exact .inl (prepare_eq_error_iff.mp hprepare)
    | ok prepared =>
      obtain ⟨p, start⟩ := prepared
      cases hcompute : (p.compute .controllable allowance start).value with
      | mk answer last =>
      cases answer with
      | error cause =>
        rw [run_of_error hfirst hprepare hcompute] at h
        exact .inr ⟨cause, (Except.error.inj h).symm⟩
      | ok marking =>
        rw [run_of_compute hfirst hprepare hcompute] at h
        cases h
  · rw [run_of_not_first hfirst] at h
    cases h

/-- What a run finds is marked under the free name that is chosen. -/
theorem name_of_run (hfirst : solver.computesFirst) {next : Solver}
    (h : (solver.run allowance).value = (.ok (), next)) : ∃ marking, next.marking? = some marking ∧
      marking.name = Marking.freeName solver.graph Marking.defaultName := by
  obtain ⟨p, start, marking, last, hprepare, hcompute, rfl⟩ := of_run hfirst h
  obtain ⟨hp, -, hstart⟩ := of_prepare hprepare
  obtain ⟨start', hstart', hname⟩ := Progress.exists_startFree_name p
  obtain rfl := Except.ok.inj (hstart'.symm.trans hstart)
  refine ⟨marking, rfl, ?_⟩
  rw [Problem.name_of_compute hcompute, hname, hp.graph]

end Solver

/-- A use of a graph that needs a name for a marking is never refused for the name. -/
structure Graph.NamesMarkings (g : Graph) : Prop where
  /-- A marking can be created under the free name of every base. -/
  create : ∀ base, ∃ m, Marking.create g (Marking.freeName g base) = .ok m ∧
    m.name = Marking.freeName g base
  /-- A computation can start under the free name of the default base. -/
  start : ∀ p : Problem, p.graph = g → ∃ start, Progress.startFree p = .ok start ∧
    start.marking.name = Marking.freeName g Marking.defaultName
  /-- A solver fails as its problem does, or is cancelled. -/
  run : ∀ solver : Solver, solver.graph = g → ∀ allowance e,
    (solver.run allowance).value.1 = .error e →
      (Problem.ofGraph g = .error e ∨ ∃ cause, e = .cancelled cause) ∧
        ∀ name scope, e ≠ .nameTaken name scope
  /-- What a solver finds is marked under the free name of the default base. -/
  found : ∀ solver : Solver, solver.graph = g → solver.computesFirst → ∀ allowance next,
    (solver.run allowance).value = (.ok (), next) → ∃ marking, next.marking? = some marking ∧
      marking.name = Marking.freeName g Marking.defaultName

/-- **The search for a free name always ends**, with every base and whatever the graph declares, after
at most as many steps as there are declared names. It ends at one name only, which is the first of the
base and the base with `1`, `2` and so on that is not declared for any scope. So no marking, computation
or solver that uses it is refused for its name. -/
theorem Graph.free_name (g : Graph) :
    (∀ base, ∃ last ≤ g.properties.allNames.length,
      (∀ t, Marking.Search g base (.first base) t ↔ t = ⟨Marking.freeName g base, last⟩) ∧
        Marking.Finds g base (Marking.freeName g base)) ∧
      g.NamesMarkings := by
  constructor
  · intro base
    obtain ⟨k, hle, hleast, hname⟩ := Marking.exists_isLeast_free g base
    rw [hname]
    exact ⟨k, (Properties.length_allNames _).ge.trans' hle, fun t => Marking.search_iff hleast,
      Marking.finds_numbered hle hleast⟩
  · refine ⟨?_, ?_, ?_, ?_⟩
    · intro base
      exact Marking.exists_create (Marking.propertyScope?_freeName g base)
    · rintro p rfl
      exact Progress.exists_startFree_name p
    · rintro solver rfl allowance e he
      have hcases := Solver.of_run_eq_error he
      refine ⟨hcases, ?_⟩
      rintro name scope rfl
      rcases hcases with hproblem | ⟨cause, hcause⟩
      · rcases Problem.of_ofGraph_eq_error hproblem with ⟨_, h⟩ | ⟨_, h⟩ | ⟨_, _, h⟩
        · cases h
        · cases h
        · cases h
      · cases hcause
    · rintro solver rfl hfirst allowance next hrun
      exact Solver.name_of_run hfirst hrun

/-- Names that other scopes declare are passed over, and so are those that look like numbered ones. -/
example : Marking.freeName (Graph.empty.after [.declare .vertex "win1" .bool,
    .declare .graph "win1_1" .int, .declare .edge "win1_2" .string, .declare .edge "win1_4" .string])
      "win1" = "win1_3" := by
  decide +kernel

end GraphGames
