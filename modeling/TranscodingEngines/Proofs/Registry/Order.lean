import TranscodingEngines.Registry.Basic

/-!
# Sorting by priority

Sorting a list of engines permutes it into the order of the ranks. A part of the list that stands in
that order already keeps its inner order, so two engines change places only if their ranks say so.
-/

set_option autoImplicit false

namespace TranscodingEngines

def Settings.rankOfId (s : Settings) (id : EngineId) : UInt64 := (s.rank id).getD unranked

section Sorting

variable (s : Settings)

theorem rankOf_le_trans (a b c : Engine) (hab : decide (s.rankOf a ≤ s.rankOf b) = true)
    (hbc : decide (s.rankOf b ≤ s.rankOf c) = true) : decide (s.rankOf a ≤ s.rankOf c) = true := by
  rw [decide_eq_true_eq] at hab hbc ⊢
  exact UInt64.le_trans hab hbc

theorem rankOf_le_total (a b : Engine) :
    (decide (s.rankOf a ≤ s.rankOf b) || decide (s.rankOf b ≤ s.rankOf a)) = true := by
  rw [Bool.or_eq_true, decide_eq_true_eq, decide_eq_true_eq]
  exact UInt64.le_total _ _

theorem sortByPriority_perm (engines : List Engine) : (sortByPriority s engines).Perm engines :=
  List.mergeSort_perm _ _

theorem sortByPriority_sorted (engines : List Engine) :
    (sortByPriority s engines).Pairwise fun a b => s.rankOf a ≤ s.rankOf b := by
  have hSorted := List.pairwise_mergeSort (rankOf_le_trans s) (rankOf_le_total s) engines
  exact hSorted.imp fun h => of_decide_eq_true h

theorem sublist_sortByPriority {part engines : List Engine}
    (hSorted : part.Pairwise fun a b => s.rankOf a ≤ s.rankOf b) (h : part.Sublist engines) :
    part.Sublist (sortByPriority s engines) :=
  List.sublist_mergeSort (rankOf_le_trans s) (rankOf_le_total s)
    (hSorted.imp fun hLe => decide_eq_true hLe) h

theorem sortByPriority_of_sorted {engines : List Engine}
    (hSorted : engines.Pairwise fun a b => s.rankOf a ≤ s.rankOf b) :
    sortByPriority s engines = engines :=
  List.mergeSort_of_pairwise (hSorted.imp fun hLe => decide_eq_true hLe)

/-- What sorting leaves of a sorted list when an engine is put behind it. -/
theorem filter_sortByPriority_concat {engines : List Engine} {e : Engine} (p : Engine → Bool)
    (hSorted : engines.Pairwise fun a b => s.rankOf a ≤ s.rankOf b)
    (hKept : ∀ x ∈ engines, p x = true) (hDropped : p e = false) :
    (sortByPriority s (engines ++ [e])).filter p = engines := by
  have hPerm := (sortByPriority_perm s (engines ++ [e])).filter p
  have hAll : engines.filter p = engines := List.filter_eq_self.mpr hKept
  have hNone : [e].filter p = [] := List.filter_cons_of_neg (by simp [hDropped])
  rw [List.filter_append, hAll, hNone, List.append_nil] at hPerm
  have hSublist := sublist_sortByPriority s hSorted (List.sublist_append_left engines [e])
  have hFilter := hSublist.filter p
  -- The part without the engine behind it is a sublist of the same length.
  rw [hAll] at hFilter
  exact (hFilter.eq_of_length hPerm.length_eq.symm).symm

end Sorting

namespace Registry

def order (g : Registry) : List EngineId := g.engines.map (·.id)

/-- The engines stand in the order of their ranks under the settings in force. -/
def Sorted (g : Registry) : Prop :=
  g.engines.Pairwise fun a b => g.settings.rankOf a ≤ g.settings.rankOf b

theorem sorted_iff {g : Registry} : g.Sorted ↔
    g.order.Pairwise fun a b => g.settings.rankOfId a ≤ g.settings.rankOfId b := by
  rw [order, List.pairwise_map]
  rfl

theorem map_modifyFirst {α : Type} (p : Engine → Bool) {f : Engine → Engine} (key : Engine → α)
    (hKey : ∀ e, key (f e) = key e) (engines : List Engine) :
    (modifyFirst p f engines).map key = engines.map key := by
  induction engines with
  | nil => rfl
  | cons e rest ih =>
    rw [modifyFirst]
    split
    · rw [List.map_cons, List.map_cons, hKey]
    · rw [List.map_cons, List.map_cons, ih]

end Registry

/-! ## Pairs -/

theorem pair_sublist_or {α : Type} {a b : α} {l : List α} (ha : a ∈ l) (hb : b ∈ l) (hne : a ≠ b) :
    [a, b].Sublist l ∨ [b, a].Sublist l := by
  induction l with
  | nil => cases ha
  | cons x l ih =>
    rcases List.mem_cons.mp ha with rfl | haRest
    · have hbRest : b ∈ l := (List.mem_cons.mp hb).resolve_left (Ne.symm hne)
      exact .inl ((List.singleton_sublist.mpr hbRest).cons_cons a)
    · rcases List.mem_cons.mp hb with rfl | hbRest
      · exact .inr ((List.singleton_sublist.mpr haRest).cons_cons b)
      · exact (ih haRest hbRest).imp (·.cons x) (·.cons x)

theorem not_pair_sublist_swap {α : Type} {a b : α} {l : List α} (hNodup : l.Nodup)
    (h : [a, b].Sublist l) : ¬ [b, a].Sublist l := by
  induction l with
  | nil => cases h
  | cons x l ih =>
    rw [List.nodup_cons] at hNodup
    intro hSwap
    cases h with
    | cons _ h =>
      cases hSwap with
      | cons _ hSwap => exact ih hNodup.2 h hSwap
      | cons_cons _ hSwap => exact hNodup.1 (h.subset (by simp))
    | cons_cons _ h =>
      cases hSwap with
      | cons _ hSwap => exact hNodup.1 (hSwap.subset (by simp))
      | cons_cons _ hSwap => exact hNodup.1 (h.subset (by simp))

end TranscodingEngines
