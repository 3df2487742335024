import GraphGames.Proofs.Coercion
import GraphGames.Proofs.MarkedProperty

/-!
# A value is stored exactly, or not at all

A column that is written in place goes through states of its own. The value is coerced first, then
cells are added until there is one for it, and only then is it looked at whether it fits the cells. A
value that did not fit would be reported after the column has grown. No value gets that far: what
coercion lets pass has the type of the column.

* `Column.Written`: what a column has become when a value was stored in it. There is one such column by
  `Column.Written.unique`, and `Column.put` makes it;
* `Column.store_eq_ok_iff`, `Column.store_eq_error_iff`: a write in place, when it succeeds and when it
  fails;
* `Column.writes_exact`: all of it, for each kind of write.
-/

namespace GraphGames.Column

variable {c next : Column} {fresh slot : Nat} {value stored : Value} {found : ValueType}

/-! ### What was written -/

/-- `next` is what becomes of `c` when a value is stored in one of its cells. Cells that have to be added
before that one hold the default. -/
structure Written (c : Column) (slot : Nat) (stored : Value) (next : Column) : Prop where
  type : next.type = c.type
  size : next.size = max c.size (slot + 1)
  stored : next.get? slot = some stored
  kept : ∀ i, i ≠ slot → i < c.size → next.get? i = c.get? i
  added : ∀ i, i < slot → c.size ≤ i → next.get? i = some (Value.default c.type)

theorem written_put (c : Column) (slot : Nat) (datum : c.type.Carrier) :
    c.Written slot ⟨c.type, datum⟩ (c.put slot datum) where
  type := rfl
  size := size_put c slot datum
  stored := by rw [get?_put, if_pos rfl]
  kept i hne hi := by rw [get?_put, if_neg hne.symm, get?_grow, if_pos hi]
  added i hlt hi := by
    rw [get?_put, if_neg (by omega), get?_grow, if_neg (by omega), if_pos (by omega)]

/-- What was written determines the column. -/
theorem Written.unique {other : Column} (h : c.Written slot stored next)
    (h' : c.Written slot stored other) : next = other := by
  refine ext_get? (h.type.trans h'.type.symm) fun i => ?_
  by_cases hslot : i = slot
  · rw [hslot, h.stored, h'.stored]
  by_cases hi : i < c.size
  · rw [h.kept i hslot hi, h'.kept i hslot hi]
  by_cases hlt : i < slot
  · rw [h.added i hlt (by omega), h'.added i hlt (by omega)]
  -- beyond the end of both
  rw [get?_eq_none_iff.mpr (by rw [h.size]; omega), get?_eq_none_iff.mpr (by rw [h'.size]; omega)]

/-- A value is stored iff it is coerced, and then what it was coerced to is what was written. -/
theorem store_eq_ok_iff : c.store fresh slot value = (.ok (), next) ↔
    ∃ stored, value.coerceTo fresh c.type = .ok stored ∧ c.Written slot stored next := by
  cases hcoerce : value.coerce fresh c.type with
  | ok datum =>
    have hwritten := written_put c slot datum
    rw [store_of_coerce hcoerce, Value.coerceTo_of_coerce hcoerce]
    constructor
    · intro h
      obtain rfl := (Prod.mk.inj h).2
      exact ⟨_, rfl, hwritten⟩
    · rintro ⟨stored, hstored, hnext⟩
      obtain rfl := Except.ok.inj hstored
      rw [hwritten.unique hnext]
  | error found =>
    rw [store_of_coerce_error hcoerce, Value.coerceTo_of_coerce_error hcoerce]
    simp

/-- A value is rejected iff it is not coerced, with its own type, and then nothing was written. -/
theorem store_eq_error_iff : c.store fresh slot value = (.error found, next) ↔
    (∀ stored, value.coerceTo fresh c.type ≠ .ok stored) ∧ found = value.type ∧ next = c := by
  cases hcoerce : value.coerce fresh c.type with
  | ok datum =>
    rw [store_of_coerce hcoerce, Value.coerceTo_of_coerce hcoerce]
    simp
  | error reported =>
    obtain rfl := Value.type_of_coerce_eq_error hcoerce
    rw [store_of_coerce_error hcoerce, Value.coerceTo_of_coerce_error hcoerce]
    simp [eq_comm]

/-! ### All writes -/

/-- A truth value is stored in a column of truth values as any value is. -/
theorem setBool_of_type (h : c.type = .bool) (fresh slot : Nat) (b : Bool) :
    ∃ next, c.setBool slot b = some next ∧ c.store fresh slot (.bool b) = (.ok (), next) := by
  obtain ⟨next, hnext, -⟩ := exists_setBool h slot b
  have hset : c.set fresh slot (.bool b) = .ok ((c.setBool slot b).getD c) :=
    set_eq_setBool h fresh slot (.bool b)
  refine ⟨next, hnext, ?_⟩
  rw [store_eq, hset, hnext]
  rfl

theorem setBool_of_type_ne (h : c.type ≠ .bool) (slot : Nat) (b : Bool) :
    c.setBool slot b = none := by
  obtain ⟨type, cells⟩ := c
  cases type with
  | bool => exact absurd rfl h
  | int => rfl
  | float => rfl
  | string => rfl
  | object => rfl

/-- **Writes are exact, and fail without change**, for a column of any type and size, and a cell before
or beyond its end. A value is stored iff it can be coerced to the type of the column. The column keeps
its type and has just the cells that it needs: the one that was written, those that had to be added
before it, which hold the default, and the others, which hold what they held. A value that is rejected is
reported with its own type, and the column is left as it was. To set a truth value is to store it, but
only in a column of truth values; any other column refuses. To reset a cell is to put the default there,
if there is such a cell, and adds none. -/
theorem writes_exact (fresh : Nat) (c : Column) (slot : Nat) :
    (∀ value next, c.store fresh slot value = (.ok (), next) ↔
      ∃ stored, value.coerceTo fresh c.type = .ok stored ∧ c.Written slot stored next) ∧
    (∀ value found next, c.store fresh slot value = (.error found, next) ↔
      (∀ stored, value.coerceTo fresh c.type ≠ .ok stored) ∧ found = value.type ∧ next = c) ∧
    (∀ value, c.store fresh slot value =
      match c.set fresh slot value with
      | .ok next => (.ok (), next)
      | .error found => (.error found, c)) ∧
    (∀ b, c.type = .bool →
      ∃ next, c.setBool slot b = some next ∧ c.store fresh slot (.bool b) = (.ok (), next)) ∧
    (∀ b, c.type ≠ .bool → c.setBool slot b = none) ∧
    (c.reset slot).type = c.type ∧ (c.reset slot).size = c.size ∧
    (slot < c.size → (c.reset slot).get? slot = some (Value.default c.type)) ∧
    ∀ i, i ≠ slot ∨ c.size ≤ i → (c.reset slot).get? i = c.get? i := by
  refine ⟨fun value next => store_eq_ok_iff, fun value found next => store_eq_error_iff,
    store_eq fresh c slot, fun b h => setBool_of_type h fresh slot b,
    fun b h => setBool_of_type_ne h slot b, type_reset c slot, size_reset c slot, ?_, ?_⟩
  · intro hslot
    rw [get?_reset, if_pos ⟨rfl, hslot⟩]
  · intro i hi
    rw [get?_reset, if_neg (by omega)]

/-- No cells are added for a value that is rejected, however far beyond the end it was to go. -/
example : ((defaults .bool 2).store 0 4 (.int 1)).2.size = 2 ∧
    ((defaults .bool 2).store 0 4 (.bool true)).2.size = 5 := by
  decide

end GraphGames.Column
