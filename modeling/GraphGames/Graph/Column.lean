import GraphGames.Value.Coercion

/-!
# Columns

The values of one property, one cell for each slot. A column knows its type, and its cells hold
bare data of that type.

* `Column`, `Column.defaults`: the type and the cells, and a column in which nothing is set;
* `get?`, `getD`, `bool?`, `int?`: reading a slot;
* `grow`, `put`, `set`, `setBool`, `reset`: writing. A write beyond the end first adds cells;
* `overwrite`, `store`: the steps of a write in place, with the column that is left behind in either
  case, which is what `set` answers, or the column as it was, by `store_eq`.

The laws beside the definitions say what each write does to `type`, `size` and `get?`.
-/

namespace GraphGames

section Padding

variable {α : Type}

/-- At least `n` cells: those given, followed by as many copies of `fill` as are missing. -/
def padTo (cells : Array α) (n : Nat) (fill : α) : Array α :=
  cells ++ Array.replicate (n - cells.size) fill

theorem size_padTo (cells : Array α) (n : Nat) (fill : α) :
    (padTo cells n fill).size = max cells.size n := by
  rw [padTo, Array.size_append, Array.size_replicate]
  omega

theorem getElem?_padTo (cells : Array α) (n : Nat) (fill : α) (i : Nat) :
    (padTo cells n fill)[i]? =
      if i < cells.size then cells[i]? else if i < n then some fill else none := by
  rw [padTo, Array.getElem?_append, Array.getElem?_replicate]
  by_cases h : i < cells.size
  · simp [h]
  · simp [h, show i - cells.size < n - cells.size ↔ i < n by omega]

end Padding

/-- The values of one property. -/
structure Column where
  type : ValueType
  cells : Array type.Carrier

namespace Column

/-- A column of `n` cells in which nothing is set. -/
def defaults (type : ValueType) (n : Nat) : Column := ⟨type, Array.replicate n type.default⟩

/-- The number of cells. -/
def size (c : Column) : Nat := c.cells.size

/-- The value in a cell. -/
def get? (c : Column) (slot : Nat) : Option Value := c.cells[slot]?.map fun x => ⟨c.type, x⟩

/-- The value in a cell, or the default of the type beyond the end. -/
def getD (c : Column) (slot : Nat) : Value := (c.get? slot).getD (Value.default c.type)

/-- The truth value in a cell; `none` beyond the end and in columns of other types. -/
def bool? (c : Column) (slot : Nat) : Option Bool := (c.get? slot).bind Value.bool?

/-- The integer in a cell; `none` beyond the end and in columns of other types. -/
def int? (c : Column) (slot : Nat) : Option Int64 := (c.get? slot).bind Value.int?

/-- Add unset cells until there are at least `n`. -/
def grow (c : Column) (n : Nat) : Column :=
  ⟨c.type, padTo c.cells n c.type.default⟩

/-- Put a datum into a cell, which is added if need be. -/
def put (c : Column) (slot : Nat) (datum : c.type.Carrier) : Column :=
  ⟨c.type, (padTo c.cells (slot + 1) c.type.default).setIfInBounds slot datum⟩

/-- Store a value, turned into a datum of the column's type. A value that does not become one is
rejected and its type reported. -/
def set (fresh : Nat) (c : Column) (slot : Nat) (value : Value) : Except ValueType Column :=
  (value.coerce fresh c.type).map (c.put slot)

/-- Put a value into a cell, if it has the type of the column. -/
def overwrite : (c : Column) → (slot : Nat) → Value → Option Column
  | ⟨.bool, cells⟩, slot, .bool b => some ⟨.bool, cells.setIfInBounds slot b⟩
  | ⟨.int, cells⟩, slot, .int i => some ⟨.int, cells.setIfInBounds slot i⟩
  | ⟨.float, cells⟩, slot, .float x => some ⟨.float, cells.setIfInBounds slot x⟩
  | ⟨.string, cells⟩, slot, .string s => some ⟨.string, cells.setIfInBounds slot s⟩
  | ⟨.object, cells⟩, slot, .object o => some ⟨.object, cells.setIfInBounds slot o⟩
  | _, _, _ => none

/-- Store a value one step after the other: coerce it, add the cells that are missing, overwrite the
cell. The answer comes with the column that is left behind. -/
def store (fresh : Nat) (c : Column) (slot : Nat) (value : Value) : Except ValueType Unit × Column :=
  match value.coerceTo fresh c.type with
  | .error found => (.error found, c)
  | .ok coerced =>
    let grown := c.grow (slot + 1)
    match grown.overwrite slot coerced with
    | some next => (.ok (), next)
    | none => (.error coerced.type, grown)

/-- Store a truth value in a column of truth values; `none` for a column of any other type. -/
def setBool : (c : Column) → (slot : Nat) → Bool → Option Column
  | ⟨.bool, cells⟩, slot, b => some (put ⟨.bool, cells⟩ slot b)
  | _, _, _ => none

/-- Unset a cell, if there is one at that position. -/
def reset (c : Column) (slot : Nat) : Column :=
  ⟨c.type, c.cells.setIfInBounds slot c.type.default⟩

/-! ### Types and sizes -/

theorem size_mk (t : ValueType) (cells : Array t.Carrier) : (⟨t, cells⟩ : Column).size = cells.size :=
  rfl

@[simp] theorem type_defaults (t : ValueType) (n : Nat) : (defaults t n).type = t := rfl

@[simp] theorem type_grow (c : Column) (n : Nat) : (c.grow n).type = c.type := rfl

@[simp] theorem type_put (c : Column) (slot : Nat) (x : c.type.Carrier) :
    (c.put slot x).type = c.type := rfl

@[simp] theorem type_reset (c : Column) (slot : Nat) : (c.reset slot).type = c.type := rfl

@[simp] theorem size_defaults (t : ValueType) (n : Nat) : (defaults t n).size = n := by
  rw [defaults, size_mk, Array.size_replicate]

@[simp] theorem size_grow (c : Column) (n : Nat) : (c.grow n).size = max c.size n :=
  size_padTo ..

@[simp] theorem size_put (c : Column) (slot : Nat) (x : c.type.Carrier) :
    (c.put slot x).size = max c.size (slot + 1) := by
  rw [put, size_mk, Array.size_setIfInBounds, size_padTo, size]

@[simp] theorem size_reset (c : Column) (slot : Nat) : (c.reset slot).size = c.size := by
  rw [reset, size_mk, Array.size_setIfInBounds, size]

/-! ### Lookup laws -/

theorem get?_mk (t : ValueType) (cells : Array t.Carrier) (i : Nat) :
    (⟨t, cells⟩ : Column).get? i = cells[i]?.map fun x => ⟨t, x⟩ := rfl

theorem get?_eq_none_iff {c : Column} {i : Nat} : c.get? i = none ↔ c.size ≤ i := by
  simp [get?, size]

theorem type_of_get? {c : Column} {i : Nat} {v : Value} (h : c.get? i = some v) :
    v.type = c.type := by
  simp only [get?, Option.map_eq_some_iff] at h
  obtain ⟨x, -, rfl⟩ := h
  rfl

@[simp] theorem type_getD (c : Column) (i : Nat) : (c.getD i).type = c.type := by
  unfold getD
  cases h : c.get? i with
  | none => rfl
  | some v => exact type_of_get? h

theorem get?_defaults (t : ValueType) (n i : Nat) :
    (defaults t n).get? i = if i < n then some (Value.default t) else none := by
  rw [defaults, get?_mk, Array.getElem?_replicate]
  split <;> rfl

theorem get?_grow (c : Column) (n i : Nat) :
    (c.grow n).get? i =
      if i < c.size then c.get? i else if i < n then some (Value.default c.type) else none := by
  rw [grow, get?_mk, getElem?_padTo, size]
  split
  · rfl
  · split <;> rfl

theorem get?_put (c : Column) (slot : Nat) (x : c.type.Carrier) (i : Nat) :
    (c.put slot x).get? i = if slot = i then some ⟨c.type, x⟩ else (c.grow (slot + 1)).get? i := by
  have hsize : slot < (padTo c.cells (slot + 1) c.type.default).size := by
    rw [size_padTo]
    omega
  rw [put, get?_mk, Array.getElem?_setIfInBounds, if_pos hsize]
  split <;> rfl

theorem get?_reset (c : Column) (slot i : Nat) :
    (c.reset slot).get? i =
      if slot = i ∧ i < c.size then some (Value.default c.type) else c.get? i := by
  rw [reset, get?_mk, Array.getElem?_setIfInBounds]
  by_cases h : slot = i
  · subst h
    by_cases hs : slot < c.cells.size
    · rw [if_pos rfl, if_pos hs, if_pos ⟨rfl, hs⟩]
      rfl
    · rw [if_pos rfl, if_neg hs, if_neg (fun h => hs h.2), get?_eq_none_iff.mpr (Nat.le_of_not_lt hs)]
      rfl
  · rw [if_neg h, if_neg (fun h' => h h'.1)]
    rfl

/-! ### Cells read with the default beyond the end -/

theorem getD_defaults (t : ValueType) (n i : Nat) : (defaults t n).getD i = Value.default t := by
  rw [getD, get?_defaults]
  split <;> rfl

/-- A cell that is added reads as before. -/
@[simp] theorem getD_grow (c : Column) (n i : Nat) : (c.grow n).getD i = c.getD i := by
  rw [getD, get?_grow, getD]
  by_cases h : i < c.size
  · rw [if_pos h, type_grow]
  · rw [if_neg h, get?_eq_none_iff.mpr (Nat.le_of_not_lt h)]
    split <;> rfl

theorem getD_put (c : Column) (slot : Nat) (x : c.type.Carrier) (i : Nat) :
    (c.put slot x).getD i = if slot = i then ⟨c.type, x⟩ else c.getD i := by
  rw [getD, get?_put]
  split
  · rfl
  · exact getD_grow c (slot + 1) i

theorem getD_reset (c : Column) (slot i : Nat) :
    (c.reset slot).getD i = if slot = i then Value.default c.type else c.getD i := by
  rw [getD, get?_reset, getD]
  by_cases h : slot = i
  · by_cases hi : i < c.size
    · rw [if_pos ⟨h, hi⟩, if_pos h]
      rfl
    · rw [if_neg (fun h' => hi h'.2), if_pos h, get?_eq_none_iff.mpr (Nat.le_of_not_lt hi)]
      rfl
  · rw [if_neg (fun h' => h h'.1), if_neg h]
    rfl

/-- A column is its type and what it holds. -/
theorem ext_get? {c d : Column} (htype : c.type = d.type) (hget : ∀ i, c.get? i = d.get? i) :
    c = d := by
  obtain ⟨t, cells⟩ := c
  obtain ⟨t', cells'⟩ := d
  obtain rfl : t = t' := htype
  congr 1
  refine Array.ext_getElem? fun i => ?_
  have h := hget i
  rw [get?_mk, get?_mk] at h
  exact Option.map_injective (fun x y hxy => by cases hxy; rfl) h

/-! ### Writing in place -/

section Storing

variable {c : Column} {fresh slot : Nat} {value : Value} {found : ValueType}

theorem overwrite_self (c : Column) (slot : Nat) (datum : c.type.Carrier) :
    c.overwrite slot ⟨c.type, datum⟩ = some ⟨c.type, c.cells.setIfInBounds slot datum⟩ := by
  obtain ⟨type, cells⟩ := c
  cases type with
  | bool => rfl
  | int => rfl
  | float => rfl
  | string => rfl
  | object => rfl

/-- A datum of the type of the column fits its cells. -/
theorem store_of_coerce {datum : c.type.Carrier} (h : value.coerce fresh c.type = .ok datum) :
    c.store fresh slot value = (.ok (), c.put slot datum) := by
  have hfits : (c.grow (slot + 1)).overwrite slot ⟨c.type, datum⟩ = some (c.put slot datum) :=
    overwrite_self (c.grow (slot + 1)) slot datum
  unfold store
  rw [Value.coerceTo_of_coerce h]
  simp only [hfits]

theorem store_of_coerce_error (h : value.coerce fresh c.type = .error found) :
    c.store fresh slot value = (.error found, c) := by
  unfold store
  rw [Value.coerceTo_of_coerce_error h]

/-- A write in place leaves behind what is answered at once, or the column as it was. -/
theorem store_eq (fresh : Nat) (c : Column) (slot : Nat) (value : Value) :
    c.store fresh slot value =
      match c.set fresh slot value with
      | .ok next => (.ok (), next)
      | .error found => (.error found, c) := by
  unfold set
  cases hcoerce : value.coerce fresh c.type with
  | ok datum => exact store_of_coerce hcoerce
  | error found => exact store_of_coerce_error hcoerce

end Storing

end Column

end GraphGames
