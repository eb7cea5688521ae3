import TranscodingEngines.Proofs.Registry.Restart

/-!
# Ranked and unranked engines

An engine without a rank is put on the largest rank that there is. Engines with a smaller rank
therefore come first, and the list falls into these and the rest. On the largest rank itself the
settings do not tell ranked engines from unranked ones: there an unranked engine stays before a
ranked one that was registered later. Ranks that are places in a list never get that large.
-/

set_option autoImplicit false

namespace TranscodingEngines

namespace Settings

variable {s : Settings} {id : EngineId}

theorem le_unranked (r : UInt64) : r ≤ unranked := by
  rw [UInt64.le_iff_toNat_le]
  exact Nat.le_of_lt_succ r.toNat_lt

theorem rankOfId_of_none (h : s.rank id = .none) : s.rankOfId id = unranked := by
  rw [rankOfId, h, Option.getD_none]

theorem rankOfId_of_some {r : UInt64} (h : s.rank id = some r) : s.rankOfId id = r := by
  rw [rankOfId, h, Option.getD_some]

theorem rankOfId_lt_unranked_iff :
    s.rankOfId id < unranked ↔ ∃ r, s.rank id = some r ∧ r < unranked := by
  cases h : s.rank id with
  | none => simp [rankOfId_of_none h]
  | some r => simp [rankOfId_of_some h]

theorem rankOfId_eq_unranked_iff :
    s.rankOfId id = unranked ↔ s.rank id = .none ∨ s.rank id = some unranked := by
  cases h : s.rank id with
  | none => simp [rankOfId_of_none h]
  | some r => simp [rankOfId_of_some h]

/-- A sorted list falls into the engines before the largest rank and those on it. -/
theorem exists_split {engines : List Engine}
    (hSorted : engines.Pairwise fun a b => s.rankOf a ≤ s.rankOf b) :
    ∃ front back, engines = front ++ back ∧ (∀ e ∈ front, s.rankOf e < unranked) ∧
      ∀ e ∈ back, s.rankOf e = unranked := by
  induction engines with
  | nil => exact ⟨[], [], rfl, by simp, by simp⟩
  | cons e rest ih =>
    obtain ⟨hFirst, hRest⟩ := List.pairwise_cons.mp hSorted
    by_cases hLt : s.rankOf e < unranked
    · obtain ⟨front, back, rfl, hFront, hBack⟩ := ih hRest
      exact ⟨e :: front, back, rfl, List.forall_mem_cons.mpr ⟨hLt, hFront⟩, hBack⟩
    · -- Nothing that follows has a smaller rank.
      have hLargest : s.rankOf e = unranked :=
        UInt64.le_antisymm (le_unranked _) (UInt64.not_lt.mp hLt)
      refine ⟨[], e :: rest, rfl, by simp, List.forall_mem_cons.mpr ⟨hLargest, ?_⟩⟩
      intro k hk
      exact UInt64.le_antisymm (le_unranked _) (hLargest ▸ hFirst k hk)

/-- A place in a list that can be counted is smaller than the largest rank. -/
theorem rank_ofLists_ne_unranked {disabled priority : List String} {roles : List (String × Role)}
    (hLength : priority.length < UInt64.size) :
    (ofLists disabled priority roles).rank id ≠ some unranked := by
  intro hRank
  obtain ⟨place, hPlace, hLargest⟩ := Option.map_eq_some_iff.mp hRank
  obtain ⟨hLt, -⟩ := List.findIdx?_eq_some_iff_getElem.mp hPlace
  have hCode := congrArg UInt64.toNat hLargest
  rw [UInt64.toNat_ofNat_of_lt' (Nat.lt_trans hLt hLength)] at hCode
  have hSize : unranked.toNat + 1 = UInt64.size := rfl
  omega

end Settings

namespace Registry

variable {g : Registry} {s : Settings}

/-- No unranked engine stands before a ranked one. -/
def RankedFirst (g : Registry) : Prop :=
  ∀ x y, g.Precedes x y → g.settings.rank x = none → g.settings.rank y = none

theorem Sorted.eq_unranked_of_precedes (h : g.Sorted) {x y : EngineId} {r : UInt64}
    (hPrecedes : g.Precedes x y) (hNone : g.settings.rank x = none)
    (hRank : g.settings.rank y = some r) : r = unranked := by
  have hLe := (sorted_iff.mp h).forall_sublist hPrecedes
  rw [Settings.rankOfId_of_none hNone, Settings.rankOfId_of_some hRank] at hLe
  exact UInt64.le_antisymm (Settings.le_unranked r) hLe

theorem Sorted.exists_split (h : g.Sorted) : ∃ front back, g.engines = front ++ back ∧
    (∀ e ∈ front, ∃ r, g.settings.rank e.id = some r ∧ r < unranked) ∧
    ∀ e ∈ back, g.settings.rank e.id = none ∨ g.settings.rank e.id = some unranked := by
  obtain ⟨front, back, hSplit, hFront, hBack⟩ := Settings.exists_split h
  exact ⟨front, back, hSplit, fun e he => Settings.rankOfId_lt_unranked_iff.mp (hFront e he),
    fun e he => Settings.rankOfId_eq_unranked_iff.mp (hBack e he)⟩

/-- An engine that ties with an unranked one would be the same, but no engine is listed twice. -/
theorem Sorted.rankedFirst (h : g.Sorted) (hDistinct : g.Distinct)
    (hSame : ∀ x y, g.settings.rank x = none → g.settings.rank y = some unranked →
      x.same y = true) : g.RankedFirst := by
  intro x y hPrecedes hNone
  by_contra hSome
  obtain ⟨r, hRank⟩ := Option.ne_none_iff_exists'.mp hSome
  obtain rfl := h.eq_unranked_of_precedes hPrecedes hNone hRank
  have hApart : Apart x y := List.pairwise_iff_forall_sublist.mp hDistinct hPrecedes
  rw [Apart, hSame x y hNone hRank] at hApart
  cases hApart

theorem rankedFirst_applyAll {start : Settings} {history : List (Environment × Operation)}
    (hSettings : ((empty start).applyAll history).settings = s)
    (hSame : ∀ x y, s.rank x = none → s.rank y = some unranked → x.same y = true) :
    ((empty start).applyAll history).RankedFirst := by
  have hRun := (empty start).run_applyAll history
  refine (hRun.sorted List.Pairwise.nil).rankedFirst (hRun.distinct List.Pairwise.nil) ?_
  rwa [hSettings]

theorem arrivesAfter_pair (s : Settings) (env : Environment) {e k : Engine}
    (hApart : e.id.same k.id = false) :
    ArrivesAfter s (restart [(env, e), (env, k)]) e.id k.id [s] := by
  have hListed : ((empty s).applyAll (restart [(env, e)])).order.Perm [e.id] :=
    order_applyAll_perm (isSingle_restart [(env, e)]) (.refl _)
  refine ⟨restart [(env, e)], env, k, [], rfl, ?_, ?_, rfl, ?_⟩
  · exact hListed.mem_iff.mpr List.mem_cons_self
  · rw [knows_eq_any, hListed.any_eq]
    simpa using hApart
  · rw [settings_restart]
    rfl

theorem precedes_of_tied (env : Environment) {e k : Engine} (hApart : e.id.same k.id = false)
    (hTie : s.rankOfId e.id = s.rankOfId k.id) :
    ((empty s).applyAll (restart [(env, e), (env, k)])).Precedes e.id k.id := by
  refine (arrivesAfter_pair s env hApart).orderedBy.same fun t ht => ?_
  rw [List.mem_singleton.mp ht]
  exact hTie

theorem unranked_stays (env : Environment) {e k : Engine} (hApart : e.id.same k.id = false)
    (hNone : s.rank e.id = none) (hLargest : s.rank k.id = some unranked) :
    ((empty s).applyAll (restart [(env, e), (env, k)])).Precedes e.id k.id := by
  refine precedes_of_tied env hApart ?_
  rw [Settings.rankOfId_of_none hNone, Settings.rankOfId_of_some hLargest]

theorem same_of_rankedFirst (hFirst : ∀ start history,
      ((empty start).applyAll history).settings = s → ((empty start).applyAll history).RankedFirst)
    {x y : EngineId} (hNone : s.rank x = none) (hLargest : s.rank y = some unranked) :
    x.same y = true := by
  by_contra hApart
  let e : Engine := { halfInstalled with id := x }
  let k : Engine := { halfInstalled with id := y }
  have hSettings := settings_restart s [(answering, e), (answering, k)]
  have hPrecedes : ((empty s).applyAll (restart [(answering, e), (answering, k)])).Precedes x y :=
    unranked_stays answering (eq_false_of_ne_true hApart) hNone hLargest
  have hRanked := hFirst s _ hSettings x y hPrecedes
  rw [hSettings] at hRanked
  cases hLargest.symm.trans (hRanked hNone)

/-- Whatever led to a registry, the engines that the settings rank below the largest rank come
first, and behind them stand those without a rank and those on the largest one; so an unranked
engine precedes none that is ranked below. It stays before an engine on the largest rank that is
registered after it. So settings let no unranked engine precede a ranked one exactly if they do not
leave one engine unranked and put another on the largest rank, which lists of names never do. -/
theorem ranked_precede (s : Settings) :
    (∀ start history, ((empty start).applyAll history).settings = s →
      let g := (empty start).applyAll history
      (∃ front back, g.engines = front ++ back ∧
        (∀ e ∈ front, ∃ r, s.rank e.id = some r ∧ r < unranked) ∧
        ∀ e ∈ back, s.rank e.id = none ∨ s.rank e.id = some unranked) ∧
      ∀ x y r, g.Precedes x y → s.rank x = none → s.rank y = some r → r = unranked) ∧
    (∀ env e k, e.id.same k.id = false → s.rank e.id = none → s.rank k.id = some unranked →
      ((empty s).applyAll (restart [(env, e), (env, k)])).Precedes e.id k.id) ∧
    ((∀ start history, ((empty start).applyAll history).settings = s →
        ((empty start).applyAll history).RankedFirst) ↔
      ∀ x y, s.rank x = none → s.rank y = some unranked → x.same y = true) ∧
    ∀ disabled priority roles, priority.length < UInt64.size →
      s = .ofLists disabled priority roles →
      ∀ start history, ((empty start).applyAll history).settings = s →
        ((empty start).applyAll history).RankedFirst := by
  refine ⟨?_, fun env e k => unranked_stays env, ?_, ?_⟩
  · rintro start history rfl g
    have hSorted : g.Sorted := ((empty start).run_applyAll history).sorted List.Pairwise.nil
    exact ⟨hSorted.exists_split, fun x y r => hSorted.eq_unranked_of_precedes⟩
  · constructor
    · intro hFirst x y
      exact same_of_rankedFirst hFirst
    · intro hSame start history hSettings
      exact rankedFirst_applyAll hSettings hSame
  · rintro disabled priority roles hLength rfl start history hSettings
    refine rankedFirst_applyAll hSettings fun x y _ hLargest => ?_
    exact absurd hLargest (Settings.rank_ofLists_ne_unranked hLength)

/-- The engine that a list names is registered after one that it does not name, and does not stand
behind it. -/
theorem ranked_precede_listed :
    let s := Settings.ofLists [] ["DCRaw"] []
    let history := restart [(answering, halfInstalled), (answering, dcraw)]
    ["DCRaw"].length < UInt64.size ∧ ((empty s).applyAll history).settings = s ∧
      s.rank halfInstalled.id = none ∧ s.rank dcraw.id = some 0 ∧
      ¬ ((empty s).applyAll history).Precedes halfInstalled.id dcraw.id := by
  intro s history
  have hLength : ["DCRaw"].length < UInt64.size := by decide
  have hSettings : ((empty s).applyAll history).settings = s := settings_restart s _
  have hNone : s.rank halfInstalled.id = none := by decide +kernel
  have hFirst : s.rank dcraw.id = some 0 := by decide +kernel
  obtain ⟨-, -, -, hListed⟩ := ranked_precede s
  refine ⟨hLength, hSettings, hNone, hFirst, fun hPrecedes => ?_⟩
  have hRanked := hListed [] ["DCRaw"] [] hLength rfl s history hSettings _ _ hPrecedes
  rw [hSettings] at hRanked
  cases hFirst.symm.trans (hRanked hNone)

/-- Settings that put one engine on the largest rank and no other one on any. -/
def lastRanked : Settings :=
  { Settings.none with rank := fun id => if id.same ⟨"DCRaw"⟩ then some unranked else none }

/-- An engine on the largest rank stands behind an unranked one that was registered before it. -/
theorem unranked_precedes_ranked :
    let g := (empty lastRanked).applyAll (restart [(answering, halfInstalled), (answering, dcraw)])
    g.settings.rank halfInstalled.id = none ∧ g.settings.rank dcraw.id = some unranked ∧
      g.Precedes halfInstalled.id dcraw.id := by
  intro g
  have hSettings : g.settings = lastRanked := settings_restart lastRanked _
  rw [hSettings]
  exact ⟨by decide +kernel, by decide +kernel,
    precedes_of_tied answering (by decide +kernel) (by decide +kernel)⟩

end Registry

end TranscodingEngines
