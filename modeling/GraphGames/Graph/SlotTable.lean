/-!
# Tables of recycled slots

A slot table keeps elements at positions that never move. Removing an element frees its slot, and
an insertion takes the most recently freed slot that is still free, or a new slot at the end.

* `SlotTable`: the slots, the free positions (most recently freed first) and the number of elements;
* `get?`, `contains`, `size`, `capacity`, `entries`: what a table holds;
* `nextSlot`, `insert`, `remove`, `modify`: how it changes.

The laws beside the definitions say what each operation does to `get?`.
-/

namespace GraphGames

/-- Elements at fixed positions, with the free positions in the order in which they are reused. -/
structure SlotTable (α : Type) where
  slots : Array (Option α) := #[]
  free : List Nat := []
  live : Nat := 0

namespace SlotTable

variable {α : Type}

/-- The table without slots. -/
def empty : SlotTable α := {}

instance : Inhabited (SlotTable α) := ⟨empty⟩

/-- The element at position `i`, if that slot is occupied. -/
def get? (t : SlotTable α) (i : Nat) : Option α := t.slots[i]?.join

/-- Whether the slot at position `i` is occupied. -/
def contains (t : SlotTable α) (i : Nat) : Bool := (t.get? i).isSome

/-- The number of elements. -/
def size (t : SlotTable α) : Nat := t.live

/-- The number of slots, occupied or free. -/
def capacity (t : SlotTable α) : Nat := t.slots.size

/-- The elements with their positions, in ascending order of position. -/
def entries (t : SlotTable α) : List (Nat × α) :=
  t.slots.toList.zipIdx.filterMap fun (slot, i) => slot.map (i, ·)

/-- The position that the next insertion takes. -/
def nextSlot (t : SlotTable α) : Nat := t.free.headD t.capacity

/-- Store `a` at position `nextSlot`. -/
def insert (t : SlotTable α) (a : α) : SlotTable α :=
  match t.free with
  | [] => { slots := t.slots.push (some a), free := [], live := t.live + 1 }
  | i :: rest => { slots := t.slots.setIfInBounds i (some a), free := rest, live := t.live + 1 }

/-- Free the slot at position `i`; a free or missing slot is left alone. -/
def remove (t : SlotTable α) (i : Nat) : SlotTable α :=
  if t.contains i then
    { slots := t.slots.setIfInBounds i none, free := i :: t.free, live := t.live - 1 }
  else t

/-- Apply `f` to the element at position `i`, if there is one. -/
def modify (t : SlotTable α) (i : Nat) (f : α → α) : SlotTable α :=
  { t with slots := t.slots.modify i (·.map f) }

/-! ### Lookup laws -/

@[simp] theorem get?_empty (i : Nat) : (empty : SlotTable α).get? i = none := by
  simp [empty, get?]

theorem contains_iff {t : SlotTable α} {i : Nat} : t.contains i ↔ ∃ a, t.get? i = some a := by
  simp [contains, Option.isSome_iff_exists]

theorem contains_eq_false_iff {t : SlotTable α} {i : Nat} :
    t.contains i = false ↔ t.get? i = none := by
  simp [contains]

theorem lt_capacity_of_contains {t : SlotTable α} {i : Nat} (h : t.contains i) :
    i < t.capacity := by
  rcases Nat.lt_or_ge i t.capacity with hi | hi
  · exact hi
  · simp [contains, get?, Array.getElem?_eq_none hi] at h

@[simp] theorem get?_remove (t : SlotTable α) (i j : Nat) :
    (t.remove i).get? j = if i = j then none else t.get? j := by
  unfold remove
  split
  · next h =>
    have hi := lt_capacity_of_contains h
    by_cases hij : i = j
    · subst hij
      simp [get?, Array.getElem?_setIfInBounds, capacity] at hi ⊢
      simp [hi]
    · simp [get?, hij]
  · next h =>
    by_cases hij : i = j
    · subst hij
      simpa [contains_eq_false_iff] using h
    · simp [hij]

@[simp] theorem get?_modify (t : SlotTable α) (i j : Nat) (f : α → α) :
    (t.modify i f).get? j = if i = j then (t.get? j).map f else t.get? j := by
  by_cases hij : i = j
  · subst hij
    cases h : t.slots[i]? with
    | none => simp [modify, get?, Array.getElem?_modify, h]
    | some slot => cases slot <;> simp [modify, get?, Array.getElem?_modify, h]
  · simp [modify, get?, Array.getElem?_modify, hij]

@[simp] theorem capacity_remove (t : SlotTable α) (i : Nat) :
    (t.remove i).capacity = t.capacity := by
  unfold remove
  split <;> simp [capacity]

@[simp] theorem capacity_modify (t : SlotTable α) (i : Nat) (f : α → α) :
    (t.modify i f).capacity = t.capacity := by
  simp [modify, capacity]

theorem mem_entries {t : SlotTable α} {i : Nat} {a : α} :
    (i, a) ∈ t.entries ↔ t.get? i = some a := by
  simp only [entries, get?, List.mem_filterMap, Option.map_eq_some_iff, Prod.exists]
  constructor
  · rintro ⟨slot, j, hmem, b, hb, heq⟩
    obtain ⟨rfl, rfl⟩ := Prod.mk.inj heq
    have := List.mem_zipIdx_iff_getElem?.mp hmem
    simp_all
  · intro h
    obtain ⟨slot, hslot, hb⟩ : ∃ slot, t.slots[i]? = some slot ∧ slot = some a := by
      cases hs : t.slots[i]? <;> simp_all
    exact ⟨slot, i, List.mem_zipIdx_iff_getElem?.mpr (by simpa using hslot), a, hb, rfl⟩

end SlotTable

end GraphGames
