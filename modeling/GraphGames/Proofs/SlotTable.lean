import GraphGames.Graph.SlotTable
import Mathlib.Data.List.Perm.Basic
import Mathlib.Data.List.Nodup
import Mathlib.Tactic.Common

/-!
# Well-formed slot tables

The free positions of a slot table are kept beside the slots, and so is the number of elements.
Both repeat what the slots say, and every operation keeps them in step.

* `SlotTable.WellFormed`: the free positions are the empty slots, each listed once, and the
  elements and the free positions make up the capacity;
* `WellFormed.insert`, `WellFormed.remove`, `WellFormed.modify`: the operations keep it;
* `WellFormed.get?_insert`: an insertion writes to an empty slot, so no other element is touched;
* `WellFormed.length_entries`: the number that is kept is the number of elements.
-/

namespace GraphGames.SlotTable

variable {α : Type}

/-- The free positions are the empty slots, each listed once, and the number of elements is what
they leave of the capacity. -/
structure WellFormed (t : SlotTable α) : Prop where
  nodup : t.free.Nodup
  mem_free : ∀ i, i ∈ t.free ↔ i < t.capacity ∧ t.get? i = none
  live_add_free : t.live + t.free.length = t.capacity

theorem wellFormed_empty : (empty : SlotTable α).WellFormed where
  nodup := List.nodup_nil
  mem_free i := by simp [empty, capacity]
  live_add_free := rfl

theorem get?_of_capacity_le {t : SlotTable α} {i : Nat} (h : t.capacity ≤ i) : t.get? i = none := by
  unfold get?
  rw [Array.getElem?_eq_none h]
  rfl

theorem nextSlot_of_nil {t : SlotTable α} (h : t.free = []) : t.nextSlot = t.capacity := by
  rw [nextSlot, h]
  rfl

theorem nextSlot_of_cons {t : SlotTable α} {i : Nat} {rest : List Nat} (h : t.free = i :: rest) :
    t.nextSlot = i := by
  rw [nextSlot, h]
  rfl

theorem free_insert (t : SlotTable α) (a : α) : (t.insert a).free = t.free.tail := by
  unfold insert
  cases t.free <;> rfl

theorem live_insert (t : SlotTable α) (a : α) : (t.insert a).live = t.live + 1 := by
  unfold insert
  cases t.free <;> rfl

namespace WellFormed

variable {t : SlotTable α}

/-- The position that the next insertion takes is empty. -/
theorem get?_nextSlot (h : t.WellFormed) : t.get? t.nextSlot = none := by
  cases hfree : t.free with
  | nil =>
    rw [nextSlot_of_nil hfree]
    exact get?_of_capacity_le (Nat.le_refl _)
  | cons i rest =>
    rw [nextSlot_of_cons hfree]
    exact ((h.mem_free i).mp (hfree ▸ List.mem_cons_self)).2

theorem nextSlot_le (h : t.WellFormed) : t.nextSlot ≤ t.capacity := by
  cases hfree : t.free with
  | nil => exact Nat.le_of_eq (nextSlot_of_nil hfree)
  | cons i rest =>
    rw [nextSlot_of_cons hfree]
    exact Nat.le_of_lt ((h.mem_free i).mp (hfree ▸ List.mem_cons_self)).1

/-- An insertion writes to its slot only. -/
theorem get?_insert (h : t.WellFormed) (a : α) (i : Nat) :
    (t.insert a).get? i = if t.nextSlot = i then some a else t.get? i := by
  cases hfree : t.free with
  | nil =>
    rw [nextSlot_of_nil hfree]
    by_cases hi : t.capacity = i
    · subst hi
      simp [insert, hfree, get?, capacity]
    · have hne : ¬ i = t.slots.size := fun h => hi h.symm
      simp [insert, hfree, get?, hi, Array.getElem?_push, hne]
  | cons j rest =>
    have hj : j < t.slots.size := ((h.mem_free j).mp (hfree ▸ List.mem_cons_self)).1
    rw [nextSlot_of_cons hfree]
    by_cases hi : j = i
    · subst hi
      simp [insert, hfree, get?, hj]
    · simp [insert, hfree, get?, hi]

/-- A slot is added only when no free one is left. -/
theorem capacity_insert (h : t.WellFormed) (a : α) :
    (t.insert a).capacity = max t.capacity (t.nextSlot + 1) := by
  cases hfree : t.free with
  | nil =>
    rw [nextSlot_of_nil hfree]
    simp [insert, hfree, capacity]
  | cons j rest =>
    have hj : j < t.slots.size := ((h.mem_free j).mp (hfree ▸ List.mem_cons_self)).1
    rw [nextSlot_of_cons hfree]
    simp only [insert, hfree, capacity, Array.size_setIfInBounds]
    omega

/-- An insertion takes its slot from the free ones. -/
theorem mem_tail_free (h : t.WellFormed) (i : Nat) :
    i ∈ t.free.tail ↔ i ∈ t.free ∧ i ≠ t.nextSlot := by
  have hnodup := h.nodup
  cases hfree : t.free with
  | nil => simp
  | cons j rest =>
    rw [hfree, List.nodup_cons] at hnodup
    rw [nextSlot_of_cons hfree, List.tail_cons, List.mem_cons]
    constructor
    · intro hi
      exact ⟨.inr hi, fun hij => hnodup.1 (hij ▸ hi)⟩
    · rintro ⟨hij | hi, hne⟩
      · exact absurd hij hne
      · exact hi

protected theorem insert (h : t.WellFormed) (a : α) : (t.insert a).WellFormed where
  nodup := by
    rw [free_insert]
    exact h.nodup.tail
  mem_free i := by
    have hnext := h.nextSlot_le
    rw [free_insert, h.mem_tail_free, h.mem_free, h.capacity_insert, h.get?_insert]
    by_cases hi : t.nextSlot = i
    · simp [hi]
    · rw [if_neg hi, show i < max t.capacity (t.nextSlot + 1) ↔ i < t.capacity by omega]
      simp [Ne.symm hi]
  live_add_free := by
    have hlive := h.live_add_free
    have hnext := h.nextSlot_le
    rw [free_insert, live_insert, h.capacity_insert, List.length_tail]
    cases hfree : t.free with
    | nil =>
      rw [hfree, List.length_nil] at hlive
      rw [nextSlot_of_nil hfree, List.length_nil]
      omega
    | cons j rest =>
      have hj : j < t.capacity := ((h.mem_free j).mp (hfree ▸ List.mem_cons_self)).1
      rw [hfree, List.length_cons] at hlive
      rw [nextSlot_of_cons hfree, List.length_cons]
      omega

theorem not_mem_free (h : t.WellFormed) {i : Nat} (hi : t.contains i) : i ∉ t.free := by
  intro hmem
  obtain ⟨a, ha⟩ := contains_iff.mp hi
  exact absurd ((h.mem_free i).mp hmem).2 (by simp [ha])

/-- As long as there is an element, not all slots are free. -/
theorem length_free_lt (h : t.WellFormed) {i : Nat} (hi : t.contains i) :
    t.free.length < t.capacity := by
  have hsub : (i :: t.free).Subperm (List.range t.capacity) := by
    refine List.subperm_of_subset (List.nodup_cons.mpr ⟨h.not_mem_free hi, h.nodup⟩) ?_
    intro j hj
    rcases List.mem_cons.mp hj with rfl | hj
    · exact List.mem_range.mpr (lt_capacity_of_contains hi)
    · exact List.mem_range.mpr ((h.mem_free j).mp hj).1
  have hlength := hsub.length_le
  rw [List.length_cons, List.length_range] at hlength
  omega

protected theorem remove (h : t.WellFormed) (i : Nat) : (t.remove i).WellFormed := by
  by_cases hi : t.contains i
  · have hlt := lt_capacity_of_contains hi
    have hmem := h.not_mem_free hi
    have hfree : (t.remove i).free = i :: t.free := by simp [remove, hi]
    have hlive : (t.remove i).live = t.live - 1 := by simp [remove, hi]
    refine ⟨?_, ?_, ?_⟩
    · rw [hfree]
      exact List.nodup_cons.mpr ⟨hmem, h.nodup⟩
    · intro j
      rw [hfree, List.mem_cons, capacity_remove, get?_remove, h.mem_free]
      by_cases hij : i = j
      · subst hij
        simp [hlt]
      · simp [hij, Ne.symm hij]
    · -- the slot that is freed counted among the elements, so there was one
      have hpos := h.length_free_lt hi
      have := h.live_add_free
      rw [hfree, hlive, capacity_remove, List.length_cons]
      omega
  · rw [show t.remove i = t by simp [remove, hi]]
    exact h

protected theorem modify (h : t.WellFormed) (i : Nat) (f : α → α) : (t.modify i f).WellFormed where
  nodup := h.nodup
  mem_free j := by
    show j ∈ t.free ↔ _
    rw [h.mem_free, capacity_modify, get?_modify]
    split_ifs <;> simp
  live_add_free := by
    rw [capacity_modify]
    exact h.live_add_free

end WellFormed

/-! ### Entries -/

/-- Elements are listed in ascending order of position. -/
theorem pairwise_entries (t : SlotTable α) : t.entries.Pairwise fun x y => x.1 < y.1 := by
  have hzip : t.slots.toList.zipIdx.Pairwise fun x y => x.2 < y.2 := by
    rw [← List.pairwise_map (f := Prod.snd) (R := (· < ·)), List.zipIdx_map_snd]
    exact List.pairwise_lt_range'
  refine hzip.filterMap _ ?_
  intro x y hxy u hu v hv
  obtain ⟨a, -, rfl⟩ := Option.map_eq_some_iff.mp hu
  obtain ⟨b, -, rfl⟩ := Option.map_eq_some_iff.mp hv
  exact hxy

/-- Each slot is free or that of one element. -/
theorem WellFormed.perm_range {t : SlotTable α} (h : t.WellFormed) :
    (t.entries.map Prod.fst ++ t.free).Perm (List.range t.capacity) := by
  have hnodup : (t.entries.map Prod.fst).Nodup :=
    (List.pairwise_map.mpr t.pairwise_entries).imp fun hlt => Nat.ne_of_lt hlt
  have hdisjoint : (t.entries.map Prod.fst).Disjoint t.free := by
    intro i hi hfree
    obtain ⟨⟨j, a⟩, hmem, rfl⟩ := List.mem_map.mp hi
    exact absurd ((h.mem_free j).mp hfree).2 (by simp [mem_entries.mp hmem])
  apply (List.perm_ext_iff_of_nodup (hnodup.append h.nodup hdisjoint) List.nodup_range).mpr
  intro i
  rw [List.mem_append, List.mem_range, h.mem_free, List.mem_map]
  constructor
  · rintro (⟨⟨j, a⟩, hmem, rfl⟩ | hfree)
    · exact lt_capacity_of_contains (contains_iff.mpr ⟨a, mem_entries.mp hmem⟩)
    · exact hfree.1
  · intro hi
    cases hget : t.get? i with
    | none => exact .inr ⟨hi, rfl⟩
    | some a => exact .inl ⟨(i, a), mem_entries.mpr hget, rfl⟩

/-- The number that is kept is the number of elements. -/
theorem WellFormed.length_entries {t : SlotTable α} (h : t.WellFormed) :
    t.entries.length = t.size := by
  have hlength := h.perm_range.length_eq
  rw [List.length_append, List.length_map, List.length_range, ← h.live_add_free] at hlength
  exact Nat.add_right_cancel hlength

end GraphGames.SlotTable
