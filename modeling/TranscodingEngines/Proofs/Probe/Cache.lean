import Mathlib.Data.Finset.Card
import Mathlib.Data.List.Induction
import TranscodingEngines.Proofs.FilePath.Order
import TranscodingEngines.Proofs.Probe.Ledger

/-!
# The cache as a map from paths

A cache that records were inserted into is a map from paths, under the equality of paths, that the
first record for a path is written to. No two of its records have the same path, so there is one
way only to list them in the order of their paths.
-/

set_option autoImplicit false

namespace TranscodingEngines

namespace ProbeRecord

theorem precedes_iff {a b : ProbeRecord} :
    a.precedes b = true ↔ (a.executable.order b.executable).isLE = true := by
  rw [precedes]
  cases a.executable.order b.executable <;> decide

theorem precedes_trans (a b c : ProbeRecord) (hab : a.precedes b = true)
    (hbc : b.precedes c = true) : a.precedes c = true := by
  rw [precedes_iff] at hab hbc ⊢
  exact Std.TransCmp.isLE_trans hab hbc

theorem precedes_total (a b : ProbeRecord) : (a.precedes b || b.precedes a) = true := by
  have hSwap : b.executable.order a.executable = (a.executable.order b.executable).swap :=
    Std.OrientedCmp.eq_swap
  rw [precedes, precedes, hSwap]
  cases a.executable.order b.executable <;> decide

end ProbeRecord

namespace ProbeCache

/-! ## No two records with the same path -/

/-- The records have different paths. -/
def Distinct (c : ProbeCache) : Prop := (c.kept.map (·.executable.components)).Nodup

theorem get?_eq_none_iff {c : ProbeCache} {p : FilePath} :
    c.get? p = none ↔ p.components ∉ c.kept.map (·.executable.components) := by
  simp [get?, FilePath.same_iff]

theorem Distinct.insertIfNew {c : ProbeCache} (h : c.Distinct) (r : ProbeRecord) :
    (c.insertIfNew r).Distinct := by
  cases hOld : c.get? r.executable with
  | some k =>
    rw [ProbeCache.insertIfNew, hOld]
    exact h
  | none =>
    rw [Distinct, kept_insertIfNew hOld, List.map_append, List.map_singleton]
    refine List.nodup_append.mpr ⟨h, List.nodup_singleton _, ?_⟩
    rintro components hMem _ hLast rfl
    rw [List.mem_singleton.mp hLast] at hMem
    exact get?_eq_none_iff.mp hOld hMem

theorem Distinct.mem_kept_iff {c : ProbeCache} (h : c.Distinct) {r : ProbeRecord} :
    r ∈ c.kept ↔ c.get? r.executable = some r := by
  constructor
  · intro hr
    cases hFound : c.get? r.executable with
    | none => exact absurd (List.mem_map_of_mem hr) (get?_eq_none_iff.mp hFound)
    | some k =>
      have hPath := FilePath.same_iff.mp (same_of_get? hFound)
      rw [List.inj_on_of_nodup_map h (List.mem_of_find?_eq_some hFound) hr hPath]
  · exact List.mem_of_find?_eq_some

/-! ## Records in order -/

/-- The paths of the records strictly increase. -/
def Ascending (records : List ProbeRecord) : Prop :=
  records.Pairwise fun a b => a.executable.order b.executable = .lt

theorem Distinct.ascending {c : ProbeCache} (h : c.Distinct) {kept : List ProbeRecord}
    (hPerm : kept.Perm c.kept) : Ascending (kept.mergeSort ProbeRecord.precedes) := by
  have hSorted := List.pairwise_mergeSort ProbeRecord.precedes_trans ProbeRecord.precedes_total kept
  have hNodup : ((kept.mergeSort ProbeRecord.precedes).map (·.executable.components)).Nodup :=
    (((List.mergeSort_perm kept _).trans hPerm).map _).nodup_iff.mpr h
  refine (hSorted.and (List.pairwise_map.mp hNodup)).imp ?_
  rintro a b ⟨hBefore, hApart⟩
  rw [ProbeRecord.precedes_iff] at hBefore
  have hOther : a.executable.order b.executable ≠ .eq := by
    rw [Ne, FilePath.order_eq_iff, FilePath.same_iff]
    exact hApart
  cases hOrder : a.executable.order b.executable with
  | lt => rfl
  | eq => exact absurd hOrder hOther
  | gt =>
    rw [hOrder] at hBefore
    cases hBefore

theorem Ascending.eq_of_perm {records records' : List ProbeRecord} (h : Ascending records)
    (h' : Ascending records') (hPerm : records.Perm records') : records = records' := by
  refine hPerm.eq_of_pairwise ?_ h h'
  intro a b _ _ hab hba
  exact absurd hba (Std.OrientedCmp.not_lt_of_lt hab)

theorem Distinct.records_eq {c : ProbeCache} (h : c.Distinct) {kept : List ProbeRecord}
    (hPerm : kept.Perm c.kept) : kept.mergeSort ProbeRecord.precedes = c.records := by
  refine (h.ascending hPerm).eq_of_perm (h.ascending (.refl _)) ?_
  exact (List.mergeSort_perm kept _).trans (hPerm.trans (List.mergeSort_perm c.kept _).symm)

/-! ## Insertions -/

def insertAll (rs : List ProbeRecord) : ProbeCache := rs.foldl insertIfNew ∅

theorem insertAll_concat (rs : List ProbeRecord) (r : ProbeRecord) :
    insertAll (rs ++ [r]) = (insertAll rs).insertIfNew r := by
  simp [insertAll]

theorem distinct_insertAll (rs : List ProbeRecord) : (insertAll rs).Distinct := by
  induction rs using List.reverseRecOn with
  | nil => exact List.nodup_nil
  | append_singleton rs r ih =>
    rw [insertAll_concat]
    exact ih.insertIfNew r

theorem get?_insertAll (rs : List ProbeRecord) (p : FilePath) :
    (insertAll rs).get? p = rs.find? (·.executable.same p) := by
  induction rs using List.reverseRecOn with
  | nil => rfl
  | append_singleton rs r ih =>
    rw [insertAll_concat, get?_insertIfNew, ih, List.find?_append, List.find?_singleton]

theorem mem_kept_insertAll {rs : List ProbeRecord} {r : ProbeRecord} :
    r ∈ (insertAll rs).kept ↔ ∃ front rest, rs = front ++ r :: rest ∧
      ∀ s ∈ front, s.executable.same r.executable = false := by
  rw [(distinct_insertAll rs).mem_kept_iff, get?_insertAll, List.find?_eq_some_iff_append]
  simp

theorem size_insertAll (rs : List ProbeRecord) :
    (insertAll rs).size = (rs.map (·.executable.components)).toFinset.card := by
  have hPaths : (rs.map (·.executable.components)).toFinset
      = ((insertAll rs).kept.map (·.executable.components)).toFinset := by
    ext components
    rw [List.mem_toFinset, List.mem_toFinset]
    constructor
    · intro hMem
      obtain ⟨r, hr, rfl⟩ := List.mem_map.mp hMem
      by_contra hNone
      rw [← get?_eq_none_iff, get?_insertAll, List.find?_eq_none] at hNone
      exact hNone r hr (FilePath.same_self _)
    · intro hMem
      obtain ⟨r, hr, rfl⟩ := List.mem_map.mp hMem
      obtain ⟨front, rest, rfl, _⟩ := mem_kept_insertAll.mp hr
      exact List.mem_map_of_mem (by simp)
  rw [hPaths, List.toFinset_card_of_nodup (distinct_insertAll rs), List.length_map]
  rfl

/-- The cache is the map that the records make, the first one for a path winning. -/
structure KeepsFirst (c : ProbeCache) (rs : List ProbeRecord) : Prop where
  get? : ∀ p, c.get? p = rs.find? (·.executable.same p)
  size : c.size = (rs.map (·.executable.components)).toFinset.card
  /-- A record that is listed was inserted before any other for its path. -/
  mem_records : ∀ r, r ∈ c.records ↔ ∃ front rest, rs = front ++ r :: rest ∧
    ∀ s ∈ front, s.executable.same r.executable = false
  ascending : Ascending c.records
  /-- The order in which the records were kept does not matter. -/
  records : ∀ kept : List ProbeRecord, kept.Perm c.kept →
    kept.mergeSort ProbeRecord.precedes = c.records

theorem keepsFirst (rs : List ProbeRecord) : (insertAll rs).KeepsFirst rs where
  get? := get?_insertAll rs
  size := size_insertAll rs
  mem_records r := by
    rw [ProbeCache.records, (List.mergeSort_perm _ _).mem_iff]
    exact mem_kept_insertAll
  ascending := (distinct_insertAll rs).ascending (.refl _)
  records _ hPerm := (distinct_insertAll rs).records_eq hPerm

/-- After any insertions the cache is the map that keeps the first record for every path. Inserting
one more leads to the record that is kept for its path, and changes none. Paths are equal whatever
idle pieces they have behind the front. -/
theorem insertAll_keepsFirst :
    (∀ rs, (insertAll rs).KeepsFirst rs) ∧
    (∀ rs r, ((insertAll rs).insertIfNew r).get? r.executable
      = some (((insertAll rs).get? r.executable).getD r)) ∧
    (∀ rs r p k, (insertAll rs).get? p = some k →
      ((insertAll rs).insertIfNew r).get? p = some k) ∧
    (∀ a b idle : String, FilePath.isIdle idle.toList = true →
      (⟨a ++ "/" ++ idle ++ "/" ++ b⟩ : FilePath).same ⟨a ++ "/" ++ b⟩ = true) ∧
    ∀ a idle : String, a ≠ "" → FilePath.isIdle idle.toList = true →
      (⟨a ++ "/" ++ idle⟩ : FilePath).same ⟨a⟩ = true := by
  refine ⟨keepsFirst, ?_, ?_, fun a b _ => FilePath.same_idle a b,
    fun _ _ => FilePath.same_idle_end⟩
  · intro rs r
    rw [get?_insertIfNew, if_pos (FilePath.same_self _)]
    cases (insertAll rs).get? r.executable <;> rfl
  · intro rs r p k hKept
    rw [get?_insertIfNew, hKept, Option.some_or]

/-- A late record for another spelling of the path is not kept. -/
theorem insertAll_keepsFirst_respelt :
    let first : ProbeRecord :=
      ⟨⟨"/usr/bin/ffmpeg"⟩, .ok (some "4.2.1"), ⟨2024, 5, 17, 9, 30, 0⟩⟩
    let late : ProbeRecord :=
      ⟨⟨"/usr//bin/./ffmpeg/"⟩, .error (.rejected "late"), ⟨2024, 5, 17, 9, 30, 1⟩⟩
    (insertAll [first]).get? ⟨"/usr/bin/ffmpeg/."⟩ = some first ∧
      ((insertAll [first]).insertIfNew late).get? ⟨"/usr/bin/ffmpeg/."⟩ = some first ∧
      (insertAll [first, late]).size = 1 ∧ first ∈ (insertAll [first, late]).records ∧
      FilePath.isIdle ".".toList = true ∧
      (⟨"/usr" ++ "/" ++ "." ++ "/" ++ "bin"⟩ : FilePath).same ⟨"/usr" ++ "/" ++ "bin"⟩ = true ∧
      "/usr" ≠ "" ∧ (⟨"/usr" ++ "/" ++ "."⟩ : FilePath).same ⟨"/usr"⟩ = true := by
  intro first late
  obtain ⟨hKeeps, _, hKept, hIdle, hEnd⟩ := insertAll_keepsFirst
  have hFirst : (insertAll [first]).get? ⟨"/usr/bin/ffmpeg/."⟩ = some first := by
    rw [(hKeeps [first]).get?]
    exact List.find?_cons_of_pos (by decide +kernel)
  have hDot : FilePath.isIdle ".".toList = true := by decide +kernel
  refine ⟨hFirst, hKept [first] late _ first hFirst, ?_, ?_, hDot, hIdle _ _ _ hDot, by decide,
    hEnd _ _ (by decide) hDot⟩
  · rw [(hKeeps [first, late]).size]
    decide +kernel
  · rw [(hKeeps [first, late]).mem_records]
    exact ⟨[], [late], rfl, fun _ h => nomatch h⟩

end ProbeCache

theorem ProbeLedger.Grows.cache_eq {xs : List Exchange} {l : ProbeLedger}
    (h : Grows .empty xs l) : l.cache = .insertAll (xs.filterMap Exchange.record?) := by
  induction h with
  | refl => rfl
  | @exchange xs m _ x _ _ _ ih =>
    rw [after, List.filterMap_append]
    cases hVerdict : x.verdict? with
    | none =>
      have hRecord : x.record? = none := by rw [Exchange.record?, hVerdict, Option.map_none]
      simp [hRecord, ← ih, called]
    | some v =>
      have hRecord : x.record? = some ⟨x.call.program, v, x.moment⟩ := by
        rw [Exchange.record?, hVerdict, Option.map_some]
      simp [hRecord, ← ih, ProbeCache.insertAll_concat, called, keep]

end TranscodingEngines
