import GraphGames.Proofs.SlotTable
import Mathlib.Data.List.Infix
import Mathlib.Order.Bounds.Basic

/-!
# Histories of slot tables

Positions are handed out by insertions and taken back by removals. Which position comes next, and how
many there are, is decided by what was inserted and removed before.

* `SlotTable.Call`, `SlotTable.after`, `SlotTable.freed`: calls, the table after several of them, and
  the positions that they free;
* `SlotTable.Recycles`: the free positions are listed in the order in which they were freed, the latest
  first. `Recycles.nextSlot_eq` says which of them is taken next;
* `WellFormed.capacity_after`, `isGreatest_foldl`: a table has as many slots as it had elements at the
  most;
* `SlotTable.Allocated`, `SlotTable.allocated_after`: how positions are allocated, and that they always
  are.
-/

namespace GraphGames

/-- What grows to the size of each state when need be is the greatest size of all states so far. -/
theorem isGreatest_foldl {σ ι : Type} (step : σ → ι → σ) (P : σ → Prop) (capacity size : σ → ℕ)
    (hP : ∀ s x, P s → P (step s x))
    (hcapacity : ∀ s x, P s → capacity (step s x) = max (capacity s) (size (step s x))) {s : σ}
    (hs : P s) (hstart : capacity s = size s) (xs : List ι) :
    IsGreatest {n | ∃ before, before <+: xs ∧ size (before.foldl step s) = n}
      (capacity (xs.foldl step s)) := by
  -- the induction goes along the history, so it is on the list from its end
  suffices hall : P (xs.foldl step s) ∧
      IsGreatest {n | ∃ before, before <+: xs ∧ size (before.foldl step s) = n}
        (capacity (xs.foldl step s)) from hall.2
  induction xs using List.reverseRecOn with
  | nil =>
    refine ⟨hs, ⟨[], List.prefix_refl [], hstart.symm⟩, ?_⟩
    rintro n ⟨before, hbefore, rfl⟩
    simp [List.prefix_nil.mp hbefore, hstart]
  | append_singleton xs x ih =>
    obtain ⟨hlast, ⟨before, hbefore, hsize⟩, hupper⟩ := ih
    rw [List.foldl_concat]
    refine ⟨hP _ x hlast, ?_, ?_⟩
    · rw [hcapacity _ x hlast]
      rcases le_total (capacity (xs.foldl step s)) (size (step (xs.foldl step s) x)) with hle | hle
      · rw [max_eq_right hle]
        exact ⟨xs ++ [x], List.prefix_refl _, by rw [List.foldl_concat]⟩
      · rw [max_eq_left hle]
        exact ⟨before, hbefore.trans (List.prefix_append xs [x]), hsize⟩
    · rintro n ⟨before, hbefore, rfl⟩
      rw [hcapacity _ x hlast]
      rcases List.prefix_concat_iff.mp hbefore with rfl | hbefore
      · rw [List.foldl_concat]
        exact le_max_right _ _
      · exact (hupper ⟨before, hbefore, rfl⟩).trans (le_max_left _ _)

namespace SlotTable

variable {α : Type}

/-! ### Calls -/

/-- A change of a table. -/
inductive Call (α : Type)
  | insert (a : α)
  | remove (i : Nat)

namespace Call

/-- The table after a call. -/
def on (t : SlotTable α) : Call α → SlotTable α
  | insert a => t.insert a
  | remove i => t.remove i

/-- The position that a call frees, if there is one. -/
def freed (t : SlotTable α) : Call α → List Nat
  | insert _ => []
  | remove i => if t.contains i then [i] else []

/-- Whether a call inserts an element. -/
def isInsert : Call α → Bool
  | insert _ => true
  | remove _ => false

end Call

/-- The table after several calls. -/
def after (t : SlotTable α) (calls : List (Call α)) : SlotTable α := calls.foldl Call.on t

/-- The positions that calls free, the latest first. -/
def freed (t : SlotTable α) : List (Call α) → List Nat
  | [] => []
  | c :: calls => freed (c.on t) calls ++ c.freed t

theorem after_cons (t : SlotTable α) (c : Call α) (calls : List (Call α)) :
    t.after (c :: calls) = (c.on t).after calls := rfl

theorem after_append (t : SlotTable α) (calls more : List (Call α)) :
    t.after (calls ++ more) = (t.after calls).after more :=
  List.foldl_append

theorem remove_of_not_contains {t : SlotTable α} {i : Nat} (h : ¬ t.contains i) :
    t.remove i = t := by
  simp [remove, h]

theorem free_remove {t : SlotTable α} {i : Nat} (h : t.contains i) :
    (t.remove i).free = i :: t.free := by
  simp [remove, h]

theorem WellFormed.on {t : SlotTable α} (h : t.WellFormed) (c : Call α) : (c.on t).WellFormed := by
  cases c with
  | insert a => exact h.insert a
  | remove i => exact h.remove i

theorem WellFormed.after {t : SlotTable α} (h : t.WellFormed) (calls : List (Call α)) :
    (t.after calls).WellFormed := by
  induction calls generalizing t with
  | nil => exact h
  | cons c calls ih => exact ih (h.on c)

/-! ### Which position is taken next -/

/-- The free positions were freed, and are listed in the order of the log, which has the latest
first. -/
structure Recycles (log : List Nat) (t : SlotTable α) : Prop where
  lt_capacity : ∀ i ∈ log, i < t.capacity
  mem_log : ∀ i ∈ t.free, i ∈ log
  pairwise : t.free.Pairwise fun i j => log.idxOf i < log.idxOf j

namespace Recycles

variable {log : List Nat} {t : SlotTable α}

theorem empty : Recycles [] (empty : SlotTable α) := ⟨by simp, by simp [SlotTable.empty], .nil⟩

/-- Only the number of slots and the free ones count. -/
theorem of_free {β : Type} {other : SlotTable β} (h : t.Recycles log)
    (hcapacity : other.capacity = t.capacity) (hfree : other.free = t.free) :
    other.Recycles log := by
  refine ⟨?_, ?_, ?_⟩
  · rw [hcapacity]
    exact h.lt_capacity
  · rw [hfree]
    exact h.mem_log
  · rw [hfree]
    exact h.pairwise

/-- An insertion takes the first of the free positions. -/
protected theorem insert (h : t.Recycles log) (hwell : t.WellFormed) (a : α) :
    (t.insert a).Recycles log := by
  refine ⟨?_, ?_, ?_⟩
  · intro i hi
    have := h.lt_capacity i hi
    rw [hwell.capacity_insert]
    omega
  · intro i hi
    rw [free_insert] at hi
    exact h.mem_log i (List.mem_of_mem_tail hi)
  · rw [free_insert]
    exact h.pairwise.sublist (List.tail_sublist _)

/-- A position that is freed is put before all others. -/
protected theorem remove (h : t.Recycles log) (hwell : t.WellFormed) (i : Nat) :
    (t.remove i).Recycles ((Call.remove i : Call α).freed t ++ log) := by
  by_cases hi : t.contains i
  · have hne (j : Nat) (hj : j ∈ t.free) : i ≠ j := by
      rintro rfl
      exact hwell.not_mem_free hi hj
    simp only [Call.freed, hi, if_true, List.singleton_append]
    refine ⟨?_, ?_, ?_⟩
    · intro j hj
      rw [capacity_remove]
      rcases List.mem_cons.mp hj with rfl | hj
      · exact lt_capacity_of_contains hi
      · exact h.lt_capacity j hj
    · intro j hj
      rw [free_remove hi] at hj
      rcases List.mem_cons.mp hj with rfl | hj
      · exact List.mem_cons_self
      · exact List.mem_cons_of_mem _ (h.mem_log j hj)
    · rw [free_remove hi, List.pairwise_cons]
      refine ⟨?_, h.pairwise.imp_of_mem ?_⟩
      · intro j hj
        rw [List.idxOf_cons_self, List.idxOf_cons_ne _ (hne j hj)]
        omega
      · intro j k hj hk hlt
        rw [List.idxOf_cons_ne _ (hne j hj), List.idxOf_cons_ne _ (hne k hk)]
        omega
  · simpa [Call.freed, hi, remove_of_not_contains hi] using h

theorem after (h : t.Recycles log) (hwell : t.WellFormed) (calls : List (Call α)) :
    (t.after calls).Recycles (t.freed calls ++ log) := by
  induction calls generalizing t log with
  | nil => exact h
  | cons c calls ih =>
    have hnext : (c.on t).Recycles (c.freed t ++ log) := by
      cases c with
      | insert a => exact h.insert hwell a
      | remove i => exact h.remove hwell i
    rw [freed, List.append_assoc]
    exact ih hnext (hwell.on c)

/-- The position that is taken next is the one that was freed last among those that are empty still,
or the first one that was never taken. -/
theorem nextSlot_eq (h : t.Recycles log) (hwell : t.WellFormed) :
    t.nextSlot = (log.find? fun i => !t.contains i).getD t.capacity := by
  have hempty (i : Nat) (hi : i ∈ log) : t.contains i = false ↔ i ∈ t.free := by
    rw [hwell.mem_free, contains_eq_false_iff]
    exact (and_iff_right (h.lt_capacity i hi)).symm
  cases hfree : t.free with
  | nil =>
    have hnone : (log.find? fun i => !t.contains i) = none := by
      rw [List.find?_eq_none]
      intro i hi hcontains
      simpa [hfree] using (hempty i hi).mp (by simpa using hcontains)
    rw [nextSlot_of_nil hfree, hnone]
    rfl
  | cons j rest =>
    have hpairwise := h.pairwise
    rw [hfree, List.pairwise_cons] at hpairwise
    have hj : j ∈ log := h.mem_log j (hfree ▸ List.mem_cons_self)
    have hfirst : (log.find? fun i => !t.contains i) = some j := by
      rw [List.find?_eq_some_iff_getElem]
      refine ⟨by simp [(hempty j hj).mpr (hfree ▸ List.mem_cons_self)], log.idxOf j,
        List.idxOf_lt_length_iff.mpr hj, List.getElem_idxOf _, ?_⟩
      -- whatever was freed later than `j` has been taken again
      intro k hk
      have hklt : k < log.length := hk.trans (List.idxOf_lt_length_iff.mpr hj)
      by_contra hcontains
      have hin := (hempty log[k] (List.getElem_mem _)).mp (by simpa using hcontains)
      have hle : log.idxOf log[k] ≤ k := by
        by_contra hlt
        have := List.not_of_lt_findIdx (Nat.lt_of_not_le hlt)
        simp at this
      rw [hfree] at hin
      rcases List.mem_cons.mp hin with heq | hrest
      · rw [heq] at hle
        omega
      · have hlt := hpairwise.1 _ hrest
        omega
    rw [nextSlot_of_cons hfree, hfirst]
    rfl

end Recycles

example : ((empty : SlotTable Unit).after
    [.insert (), .insert (), .insert (), .remove 0, .remove 2, .remove 2]).nextSlot = 2 := by
  decide

/-! ### How many slots there are -/

namespace WellFormed

variable {t : SlotTable α}

theorem size_le_capacity (h : t.WellFormed) : t.size ≤ t.capacity := by
  have := h.live_add_free
  unfold size
  omega

/-- An element that is removed was counted. -/
theorem size_remove (h : t.WellFormed) {i : Nat} (hi : t.contains i) :
    (t.remove i).size + 1 = t.size := by
  have hpos := h.length_free_lt hi
  have hlive := h.live_add_free
  have hremove : (t.remove i).size = t.size - 1 := by simp [remove, hi, size]
  unfold size at hremove ⊢
  omega

/-- A slot is added when all are occupied, and only then. -/
theorem capacity_on (h : t.WellFormed) (c : Call α) :
    (c.on t).capacity = max t.capacity (c.on t).size := by
  cases c with
  | insert a =>
    have hlive := h.live_add_free
    show (t.insert a).capacity = max t.capacity (t.insert a).live
    rw [h.capacity_insert, live_insert]
    cases hfree : t.free with
    | nil =>
      rw [hfree, List.length_nil] at hlive
      rw [nextSlot_of_nil hfree]
      omega
    | cons i rest =>
      have hi : i < t.capacity := ((h.mem_free i).mp (hfree ▸ List.mem_cons_self)).1
      rw [hfree, List.length_cons] at hlive
      rw [nextSlot_of_cons hfree]
      omega
  | remove i =>
    have hle := (h.remove i).size_le_capacity
    show (t.remove i).capacity = max t.capacity (t.remove i).size
    rw [capacity_remove] at hle ⊢
    omega

/-- Insertions only add to the number of elements. -/
theorem size_le_after {calls : List (Call α)} (hcalls : ∀ c ∈ calls, c.isInsert) :
    t.size ≤ (t.after calls).size := by
  induction calls generalizing t with
  | nil => exact Nat.le_refl _
  | cons c calls ih =>
    obtain ⟨hc, hrest⟩ := List.forall_mem_cons.mp hcalls
    cases c with
    | insert a =>
      have hle := ih (t := t.insert a) hrest
      have hsize : (t.insert a).size = t.size + 1 := live_insert t a
      show t.size ≤ ((t.insert a).after calls).size
      omega
    | remove i => cases hc

/-- Removals add no slot. -/
theorem capacity_after_of_removals {calls : List (Call α)} (hcalls : ∀ c ∈ calls, ¬ c.isInsert) :
    (t.after calls).capacity = t.capacity := by
  induction calls generalizing t with
  | nil => rfl
  | cons c calls ih =>
    obtain ⟨hc, hrest⟩ := List.forall_mem_cons.mp hcalls
    cases c with
    | insert a => exact absurd rfl hc
    | remove i => rw [after_cons, ih hrest, Call.on, capacity_remove]

/-- What holds of a single call holds of several insertions, and of several removals. -/
theorem capacity_after (h : t.WellFormed) {calls : List (Call α)}
    (hcalls : (∀ c ∈ calls, c.isInsert) ∨ ∀ c ∈ calls, ¬ c.isInsert) :
    (t.after calls).capacity = max t.capacity (t.after calls).size := by
  rcases hcalls with hcalls | hcalls
  · induction calls generalizing t with
    | nil =>
      have := h.size_le_capacity
      show t.capacity = max t.capacity t.size
      omega
    | cons c calls ih =>
      obtain ⟨-, hrest⟩ := List.forall_mem_cons.mp hcalls
      have hon := h.capacity_on c
      have hle := size_le_after (t := c.on t) hrest
      rw [after_cons, ih (h.on c) hrest]
      omega
  · have hle := (h.after calls).size_le_capacity
    rw [capacity_after_of_removals hcalls] at hle ⊢
    omega

end WellFormed

/-! ### How positions are allocated -/

/-- How the positions of a table are allocated when those of the log were freed, the latest first, and
the table has held as many elements at a time as the sizes say. -/
structure Allocated (log : List Nat) (sizes : Set ℕ) (t : SlotTable α) : Prop where
  /-- The free positions are the empty slots, each listed once. -/
  nodup_free : t.free.Nodup
  mem_free : ∀ i, i ∈ t.free ↔ i < t.capacity ∧ t.get? i = none
  /-- The number that is kept is the number of elements, and one that is removed was counted. -/
  size_eq : t.size = t.entries.length
  size_remove : ∀ i, t.contains i → (t.remove i).size + 1 = t.size
  /-- An insertion takes the slot that was freed last among those that are empty still, or a new one
  if there is none. -/
  get?_nextSlot : t.get? t.nextSlot = none
  nextSlot_eq : t.nextSlot = (log.find? fun i => !t.contains i).getD t.capacity
  /-- An insertion and a removal change what is in their slot only. -/
  get?_insert : ∀ a i, (t.insert a).get? i = if t.nextSlot = i then some a else t.get? i
  get?_remove : ∀ i j, (t.remove i).get? j = if i = j then none else t.get? j
  /-- The elements are listed in ascending order of position, and all positions are below the
  capacity. -/
  mem_entries : ∀ i a, (i, a) ∈ t.entries ↔ t.get? i = some a
  ascending : t.entries.Pairwise fun x y => x.1 < y.1
  lt_capacity : ∀ x ∈ t.entries, x.1 < t.capacity
  /-- There are as many slots as there were elements at a time, at the most. -/
  capacity : IsGreatest sizes t.capacity

theorem WellFormed.allocated {t : SlotTable α} {log : List Nat} {sizes : Set ℕ} (h : t.WellFormed)
    (hlog : t.Recycles log) (hsizes : IsGreatest sizes t.capacity) : t.Allocated log sizes where
  nodup_free := h.nodup
  mem_free := h.mem_free
  size_eq := h.length_entries.symm
  size_remove _ hi := h.size_remove hi
  get?_nextSlot := h.get?_nextSlot
  nextSlot_eq := hlog.nextSlot_eq h
  get?_insert := h.get?_insert
  get?_remove := get?_remove t
  mem_entries _ _ := mem_entries
  ascending := t.pairwise_entries
  lt_capacity x hx := lt_capacity_of_contains (contains_iff.mpr ⟨x.2, mem_entries.mp hx⟩)
  capacity := hsizes

/-- Calls allocate positions of a new table, whatever they are. -/
theorem allocated_after (calls : List (Call α)) :
    ((empty : SlotTable α).after calls).Allocated (empty.freed calls)
      {n | ∃ before, before <+: calls ∧
        ((empty : SlotTable α).after before).entries.length = n} := by
  have hwell : (empty : SlotTable α).WellFormed := wellFormed_empty
  have hlog := Recycles.empty.after hwell calls
  rw [List.append_nil] at hlog
  apply (hwell.after calls).allocated hlog
  refine isGreatest_foldl Call.on WellFormed capacity (fun t => t.entries.length)
    (fun _ c h => h.on c) ?_ hwell rfl calls
  intro t c h
  rw [(h.on c).length_entries]
  exact h.capacity_on c

end SlotTable

end GraphGames
