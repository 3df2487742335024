import GraphGames.Attractor.Predecessors
import Mathlib.Data.List.Basic
import Mathlib.Tactic.Common

/-!
# What a search keeps in mind

A vertex is met once for each of its moves into a region. A search for vertices of player two decides
about each of them when it is met first, and passes over it from then on. What it has decided is what
would be decided again, so the search does what one does that keeps nothing in mind.

* `Problem.attracts`, `Problem.visitAfresh`: whether a vertex is attracted, and a search that decides it
  every time;
* `Search.Sound`: what a search has decided is right; `Search.Sound.contains_found`: so it need not be
  decided again;
* `Search.Passes`, `Problem.passes_targets`: a vertex that was met is passed over;
* `Traced.Follows`, `Problem.follows_visitTwo`: a search that keeps its decisions in mind does the steps
  of one that does not, one meeting after the other;
* `Problem.sound_targets`, `Problem.sweep_eq`: wherever a search has come its decisions are right, and so
  a sweep finds and reports what it would if it kept nothing in mind.
-/

namespace GraphGames

section Walks

variable {σ α : Type} {f : σ → α → Traced σ} {P : σ → Prop} {s : σ} {a : α} {as : List α}

/-- What each step of a walk keeps, the walk keeps. -/
theorem Traced.foldlM_keeps (hkeep : ∀ s a, P s → P (f s a).value) (as : List α) (h : P s) :
    P (as.foldlM f s).value := by
  induction as generalizing s with
  | nil => exact h
  | cons a as ih => exact ih (hkeep s a h)

/-- What one step of a walk brings about and the others keep, the walk brings about. -/
theorem Traced.foldlM_brings (hkeep : ∀ s a, P s → P (f s a).value) (ha : a ∈ as)
    (hbring : ∀ s, P (f s a).value) (s : σ) : P (as.foldlM f s).value := by
  induction as generalizing s with
  | nil => cases ha
  | cons b as ih =>
    rcases List.mem_cons.mp ha with rfl | ha
    · exact foldlM_keeps hkeep as (hbring s)
    · exact ih ha (f s b).value

end Walks

variable {p : Problem} {region found : VertexSet} {search : Search} {target v w : VertexId}

namespace Problem

/-- Whether a vertex with a move into the region is attracted to it as one of `player`'s: it lies
outside, `player` moves there, and player two has no move that leads elsewhere. -/
def attracts (p : Problem) (player : Player) (region : VertexSet) (v : VertexId) : Bool :=
  !region.contains v && p.owner? v == some player &&
    match player with
    | .one => true
    | .two => p.isForced region v

/-- Meet the source `v` of a move to `target`, and decide about it whatever was decided before. -/
def visitAfresh (p : Problem) (player : Player) (region : VertexSet) (target : VertexId)
    (found : VertexSet) (v : VertexId) : Traced VertexSet :=
  if p.attracts player region v && !found.contains v then do
    Traced.report (.attracted player target v)
    return found.insert v
  else pure found

/-- For player one there is nothing to keep in mind: every vertex of theirs that is met outside of the
region is attracted. -/
theorem visitOne_eq (found : VertexSet) (v : VertexId) :
    p.visitOne region target found v = p.visitAfresh .one region target found v := by
  unfold visitOne visitAfresh attracts
  by_cases hregion : region.contains v
  · simp [hregion]
  by_cases howner : p.owner? v = some .one
  · by_cases hfound : found.contains v
    · simp [hfound]
    · simp [hregion, howner, hfound]
  · simp [howner]

end Problem

/-! ### The memory of a search -/

namespace Search

theorem decided_iff : search.decided v ↔ v ∈ search.found ∨ v ∈ search.rejected := by
  rw [decided, Bool.or_eq_true_iff, Std.ExtTreeSet.contains_iff_mem, Std.ExtTreeSet.contains_iff_mem]

/-- What a search has decided is right. -/
structure Sound (p : Problem) (region : VertexSet) (search : Search) : Prop where
  found : ∀ v ∈ search.found, p.attracts .two region v
  rejected : ∀ v ∈ search.rejected, ¬ p.attracts .two region v

/-- A search begins without any decision. -/
theorem sound_empty : Sound p region {} where
  found _ hv := absurd hv Std.ExtTreeSet.not_mem_empty
  rejected _ hv := absurd hv Std.ExtTreeSet.not_mem_empty

namespace Sound

/-- About a vertex that was decided about the same is decided again. -/
theorem contains_found (h : search.Sound p region) (hv : search.decided v) :
    search.found.contains v = p.attracts .two region v := by
  by_cases hfound : v ∈ search.found
  · rw [h.found v hfound, Std.ExtTreeSet.contains_iff_mem.mpr hfound]
  · have hrejected : v ∈ search.rejected := (decided_iff.mp hv).resolve_left hfound
    rw [Bool.eq_false_iff.mpr (h.rejected v hrejected), Bool.eq_false_iff]
    exact mt Std.ExtTreeSet.contains_iff_mem.mp hfound

theorem insert_found (h : search.Sound p region) (hv : p.attracts .two region v) :
    Sound p region { search with found := search.found.insert v } where
  found w hw := by
    rcases Std.ExtTreeSet.mem_insert.mp hw with heq | hw
    · rwa [← Std.compare_eq_iff_eq.mp heq]
    · exact h.found w hw
  rejected := h.rejected

theorem insert_rejected (h : search.Sound p region) (hv : ¬ p.attracts .two region v) :
    Sound p region { search with rejected := search.rejected.insert v } where
  found := h.found
  rejected w hw := by
    rcases Std.ExtTreeSet.mem_insert.mp hw with heq | hw
    · rwa [← Std.compare_eq_iff_eq.mp heq]
    · exact h.rejected w hw

end Sound

/-- A vertex that a search passes over: it lies in the region, is not one of player two's, or was
decided about. -/
def Passes (p : Problem) (region : VertexSet) (search : Search) (v : VertexId) : Prop :=
  v ∈ region ∨ search.decided v ∨ p.owner? v ≠ some .two

end Search

namespace Problem

/-! ### One meeting -/

theorem visitTwo_of_passes (h : search.Passes p region v) (target : VertexId) :
    p.visitTwo region target search v = pure search := by
  unfold visitTwo
  rw [if_pos]
  simpa [Search.Passes, or_assoc] using h

/-- A vertex that is not passed over is decided about. -/
theorem visitTwo_of_not_passes (h : ¬ search.Passes p region v) (target : VertexId) :
    p.visitTwo region target search v =
      if p.attracts .two region v then do
        Traced.report (.attracted .two target v)
        return { search with found := search.found.insert v }
      else return { search with rejected := search.rejected.insert v } := by
  have hout : v ∉ region := fun hv => h (.inl hv)
  have hnew : search.decided v = false := Bool.eq_false_iff.mpr fun hv => h (.inr (.inl hv))
  have howner : p.owner? v = some .two := not_not.mp fun hv => h (.inr (.inr hv))
  have hcontains : region.contains v = false :=
    Bool.eq_false_iff.mpr (mt Std.ExtTreeSet.contains_iff_mem.mp hout)
  have hattracts : p.attracts .two region v = p.isForced region v := by
    simp [attracts, hcontains, howner]
  unfold visitTwo
  rw [hattracts, if_neg (by simp [hcontains, hnew, howner])]

/-- What was decided stays decided. -/
theorem decided_visitTwo (h : search.decided w) (target v : VertexId) :
    (p.visitTwo region target search v).value.decided w := by
  by_cases hpasses : search.Passes p region v
  · rwa [visitTwo_of_passes hpasses]
  rw [visitTwo_of_not_passes hpasses]
  rw [Search.decided_iff] at h ⊢
  split
  · exact h.imp_left fun hw => Std.ExtTreeSet.mem_insert.mpr (.inr hw)
  · exact h.imp_right fun hw => Std.ExtTreeSet.mem_insert.mpr (.inr hw)

theorem passes_visitTwo (h : search.Passes p region w) (target v : VertexId) :
    (p.visitTwo region target search v).value.Passes p region w := by
  rcases h with hregion | hdecided | howner
  · exact .inl hregion
  · exact .inr (.inl (decided_visitTwo hdecided target v))
  · exact .inr (.inr howner)

/-- A vertex is passed over once it was met. -/
theorem passes_visitTwo_self (search : Search) (target v : VertexId) :
    (p.visitTwo region target search v).value.Passes p region v := by
  by_cases hpasses : search.Passes p region v
  · exact passes_visitTwo hpasses target v
  rw [visitTwo_of_not_passes hpasses]
  refine .inr (.inl (Search.decided_iff.mpr ?_))
  split
  · exact .inl Std.ExtTreeSet.mem_insert_self
  · exact .inr Std.ExtTreeSet.mem_insert_self

/-! ### All meetings -/

theorem passes_visitSources (h : search.Passes p region v) (target : VertexId) :
    (p.visitSources (p.visitTwo region) search target).value.Passes p region v := by
  show ((p.predecessors target).foldlM (p.visitTwo region target) search).value.Passes p region v
  refine Traced.foldlM_keeps (P := fun s : Search => s.Passes p region v) ?_ _ h
  exact fun search w h => passes_visitTwo h target w

/-- The sources of the moves to a target are passed over once they were met. -/
theorem passes_sources (search : Search) (hv : v ∈ p.predecessors target) :
    (p.visitSources (p.visitTwo region) search target).value.Passes p region v := by
  show ((p.predecessors target).foldlM (p.visitTwo region target) search).value.Passes p region v
  refine Traced.foldlM_brings (P := fun s : Search => s.Passes p region v) ?_ hv ?_ search
  · exact fun search w h => passes_visitTwo h target w
  · exact fun search => passes_visitTwo_self search target v

/-- So are those of the moves to all targets that a search has been through. -/
theorem passes_targets (search : Search) {targets : List VertexId} (htarget : target ∈ targets)
    (hv : v ∈ p.predecessors target) :
    (targets.foldlM (p.visitSources (p.visitTwo region)) search).value.Passes p region v := by
  refine Traced.foldlM_brings (P := fun s : Search => s.Passes p region v) ?_ htarget ?_ search
  · exact fun search target h => passes_visitSources h target
  · exact fun search => passes_sources search hv

end Problem

/-! ### Keeping decisions in mind or not -/

/-- A search that keeps its decisions in mind has done the steps of one that does not. It has found the
same, and its decisions are right. -/
structure Traced.Follows (p : Problem) (region : VertexSet) (t : Traced Search)
    (u : Traced VertexSet) : Prop where
  sound : t.value.Sound p region
  found : t.value.found = u.value
  steps : t.steps = u.steps

namespace Traced.Follows

theorem pure (h : search.Sound p region) :
    Traced.Follows p region (Pure.pure search) (Pure.pure search.found) := ⟨h, rfl, rfl⟩

/-- Where each step follows, the whole walk does. -/
theorem foldlM {α : Type} {f : Search → α → Traced Search} {g : VertexSet → α → Traced VertexSet}
    (hstep : ∀ search a, search.Sound p region →
      Traced.Follows p region (f search a) (g search.found a))
    (as : List α) (h : search.Sound p region) :
    Traced.Follows p region (as.foldlM f search) (as.foldlM g search.found) := by
  induction as generalizing search with
  | nil => exact pure h
  | cons a as ih =>
    obtain ⟨hsound, hfound, hsteps⟩ := hstep search a h
    obtain ⟨hlast, hall, hrest⟩ := ih hsound
    rw [hfound] at hall hrest
    refine ⟨hlast, hall, ?_⟩
    rw [List.foldlM_cons, List.foldlM_cons, Traced.steps_bind, Traced.steps_bind, hsteps, hrest]

end Traced.Follows

namespace Problem

theorem follows_visitTwo (h : search.Sound p region) (target v : VertexId) :
    Traced.Follows p region (p.visitTwo region target search v)
      (p.visitAfresh .two region target search.found v) := by
  by_cases hpasses : search.Passes p region v
  · have hafresh : p.visitAfresh .two region target search.found v = pure search.found := by
      unfold visitAfresh
      rw [if_neg]
      rcases hpasses with hregion | hdecided | howner
      · simp [attracts, Std.ExtTreeSet.contains_iff_mem.mpr hregion]
      · -- the vertex was attracted and is found, or it was not
        simp [h.contains_found hdecided]
      · simp [attracts, howner]
    rw [visitTwo_of_passes hpasses, hafresh]
    exact .pure h
  have hnew : search.found.contains v = false := by
    refine Bool.eq_false_iff.mpr fun hfound => hpasses (.inr (.inl ?_))
    exact Search.decided_iff.mpr (.inl (Std.ExtTreeSet.contains_iff_mem.mp hfound))
  rw [visitTwo_of_not_passes hpasses]
  unfold visitAfresh
  by_cases hattracts : p.attracts .two region v
  · rw [if_pos hattracts, if_pos (by simp [hattracts, hnew])]
    exact ⟨h.insert_found hattracts, rfl, rfl⟩
  · rw [if_neg hattracts, if_neg (by simp [hattracts])]
    exact ⟨h.insert_rejected hattracts, rfl, rfl⟩

theorem follows_visitSources (h : search.Sound p region) (target : VertexId) :
    Traced.Follows p region (p.visitSources (p.visitTwo region) search target)
      (p.visitSources (p.visitAfresh .two region) search.found target) := by
  obtain ⟨hsound, hfound, hsteps⟩ :=
    Traced.Follows.foldlM (fun _ v h => follows_visitTwo h target v) (p.predecessors target) h
  exact ⟨hsound, hfound, congrArg (Step.check :: ·) hsteps⟩

theorem follows_targets (p : Problem) (region : VertexSet) (targets : List VertexId) :
    Traced.Follows p region (targets.foldlM (p.visitSources (p.visitTwo region)) {})
      (targets.foldlM (p.visitSources (p.visitAfresh .two region)) ∅) := by
  have hempty : Search.Sound p region {} := Search.sound_empty
  exact Traced.Follows.foldlM (fun _ target h => follows_visitSources h target) targets hempty

/-- Wherever a search has come, what it has decided is right. -/
theorem sound_targets (p : Problem) (region : VertexSet) (targets : List VertexId) :
    (targets.foldlM (p.visitSources (p.visitTwo region)) {}).value.Sound p region :=
  (p.follows_targets region targets).sound

/-- **A sweep finds and reports what it would if it kept nothing in mind.** -/
theorem sweep_eq (p : Problem) (player : Player) (region : VertexSet) :
    p.sweep player region =
      region.toList.foldlM (p.visitSources (p.visitAfresh player region)) ∅ := by
  cases player with
  | one =>
    have hvisit : p.visitOne region = p.visitAfresh .one region := by
      funext target found v
      exact visitOne_eq found v
    rw [← hvisit]
    rfl
  | two =>
    obtain ⟨-, hfound, hsteps⟩ := p.follows_targets region region.toList
    show Traced.mk (Search.found _) (_ ++ []) = _
    rw [List.append_nil]
    exact congrArg₂ Traced.mk hfound hsteps

end Problem

end GraphGames
