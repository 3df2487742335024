import Std.Data.ExtTreeMap
import GraphGames.Error
import GraphGames.Graph.Column

/-!
# Declared properties

A name is declared at most once, for one scope and with one value type. Its values are kept in a
column with a cell for each slot of the scope.

* `Property`: the scope and the column of a name;
* `Properties`: the declared names, listed in ascending order;
* `scope?`, `column`, `names`, `allNames`: what is declared;
* `requireFree`, `insertNew`, `declare`: a new name, which has to be free;
* `mapColumns`, `setColumn`: how columns change.
-/

namespace GraphGames

/-- What is kept under the name of a property. -/
structure Property where
  scope : Scope
  column : Column

/-- The declared properties by name. -/
abbrev Properties := Std.ExtTreeMap String Property

namespace Properties

/-- The scope in which a name is declared. -/
def scope? (ps : Properties) (name : String) : Option Scope := ps[name]?.map Property.scope

/-- The column of a name that is declared in `scope`. -/
def column? (ps : Properties) (scope : Scope) (name : String) : Option Column :=
  ps[name]?.bind fun p => if p.scope = scope then some p.column else none

/-- The column of a name that is declared in `scope`; any other name is unknown there. -/
def column (ps : Properties) (scope : Scope) (name : String) : Except Error Column :=
  match ps.column? scope name with
  | some column => .ok column
  | none => .error (.unknownProperty name scope)

/-- The names declared in `scope`, in ascending order. -/
def names (ps : Properties) (scope : Scope) : List String :=
  ps.toList.filterMap fun (name, p) => if p.scope = scope then some name else none

/-- All declared names, in ascending order. -/
def allNames (ps : Properties) : List String := ps.keys

/-- Fails on a name that is declared already, in whatever scope. -/
def requireFree (ps : Properties) (name : String) : Except Error Unit :=
  match ps.scope? name with
  | some existing => .error (.nameTaken name existing)
  | none => .ok ()

/-- Put a column of `slots` unset cells under a name. -/
def insertNew (ps : Properties) (scope : Scope) (name : String) (type : ValueType) (slots : Nat) :
    Properties :=
  ps.insert name ⟨scope, Column.defaults type slots⟩

/-- Declare a name with `slots` unset cells. A name that is declared already cannot be declared
again. -/
def declare (ps : Properties) (scope : Scope) (name : String) (type : ValueType) (slots : Nat) :
    Except Error Properties := do
  ps.requireFree name
  return ps.insertNew scope name type slots

/-- Change every column of a scope. -/
def mapColumns (ps : Properties) (scope : Scope) (f : Column → Column) : Properties :=
  ps.map fun _ p => if p.scope = scope then ⟨p.scope, f p.column⟩ else p

/-- Replace the column of a declared name. -/
def setColumn (ps : Properties) (name : String) (column : Column) : Properties :=
  ps.modify name fun p => ⟨p.scope, column⟩

/-! ### Lookup laws -/

theorem column_eq_ok_iff {ps : Properties} {scope : Scope} {name : String} {c : Column} :
    ps.column scope name = .ok c ↔ ps.column? scope name = some c := by
  unfold column
  cases ps.column? scope name <;> simp

theorem getElem?_mapColumns (ps : Properties) (scope : Scope) (f : Column → Column)
    (name : String) :
    (ps.mapColumns scope f)[name]? =
      ps[name]?.map fun p => if p.scope = scope then ⟨p.scope, f p.column⟩ else p := by
  simp [mapColumns]

theorem getElem?_setColumn (ps : Properties) (name other : String) (column : Column) :
    (ps.setColumn name column)[other]? =
      if name = other then ps[other]?.map fun p => ⟨p.scope, column⟩ else ps[other]? := by
  by_cases h : name = other
  · subst h; simp [setColumn]
  · simp [setColumn, Std.ExtTreeMap.getElem?_modify, h]

/-- To put the column of a name in its own place changes nothing. -/
theorem setColumn_self {ps : Properties} {scope : Scope} {name : String} {c : Column}
    (h : ps.column? scope name = some c) : ps.setColumn name c = ps := by
  apply Std.ExtTreeMap.ext_getElem?
  intro other
  rw [getElem?_setColumn]
  by_cases hname : name = other
  · subst hname
    rw [if_pos rfl]
    obtain ⟨p, hp, hc⟩ := Option.bind_eq_some_iff.mp h
    obtain ⟨-, hc⟩ := Option.ite_none_right_eq_some.mp hc
    obtain rfl := Option.some.inj hc
    rw [hp]
    rfl
  · rw [if_neg hname]

@[simp] theorem scope?_mapColumns (ps : Properties) (scope : Scope) (f : Column → Column)
    (name : String) : (ps.mapColumns scope f).scope? name = ps.scope? name := by
  rw [scope?, getElem?_mapColumns, scope?, Option.map_map]
  congr 1
  funext p
  simp only [Function.comp_apply]
  split <;> rfl

@[simp] theorem scope?_setColumn (ps : Properties) (name other : String) (column : Column) :
    (ps.setColumn name column).scope? other = ps.scope? other := by
  rw [scope?, getElem?_setColumn, scope?]
  split
  · rw [Option.map_map]
    rfl
  · rfl

theorem column?_mapColumns (ps : Properties) (scope : Scope) (f : Column → Column)
    (scope' : Scope) (name : String) :
    (ps.mapColumns scope f).column? scope' name =
      if scope = scope' then (ps.column? scope' name).map f else ps.column? scope' name := by
  rw [column?, getElem?_mapColumns, column?]
  cases hp : ps[name]? with
  | none => simp
  | some p =>
    obtain ⟨declared, c⟩ := p
    by_cases h : declared = scope
    · subst h
      by_cases h' : declared = scope' <;> simp [h']
    · by_cases h' : declared = scope'
      · subst h'
        simp [h, Ne.symm h]
      · simp [h, h']

theorem column?_setColumn (ps : Properties) (name other : String) (column : Column)
    (scope : Scope) :
    (ps.setColumn name column).column? scope other =
      if name = other then (ps.column? scope other).map fun _ => column
      else ps.column? scope other := by
  rw [column?, getElem?_setColumn, column?]
  by_cases h : name = other
  · subst h
    cases hp : ps[name]? with
    | none => simp
    | some p => by_cases hs : p.scope = scope <;> simp [hs]
  · simp [h]

end Properties

end GraphGames
