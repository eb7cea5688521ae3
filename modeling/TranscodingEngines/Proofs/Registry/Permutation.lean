import Mathlib.Data.List.Perm.Basic
import TranscodingEngines.Proofs.Registry.Enrolment

/-!
# The order of registration

Engines that are registered later reuse the records that earlier ones left. In a steady environment,
and if engines that share an executable are of one family, it makes no difference which of them came
first: a role shows what a probe of its executable finds, and only the text of a failed probe tells
for which engine the probe was made. So the order in which engines are registered decides neither
what is usable nor how often programs are called.
-/

set_option autoImplicit false

namespace TranscodingEngines

namespace Registry

variable {env : Environment} {settings : Settings} {engines : List Engine}
  {log : List Admission} {g : Registry}

/-! ## Two orders of registration -/

section Orders

variable {others : List Engine} {log' : List Admission} {g' : Registry}
  (h : Enrolls env settings engines log g) (h' : Enrolls env settings others log' g')
  (hSteady : env.Steady) (hMem : ∀ e, e ∈ others ↔ e ∈ engines)

include h h' hSteady hMem

theorem Enrolls.calls_eq : g.ledger.calls.length = g'.ledger.calls.length := by
  rw [h.length_calls, h'.length_calls]
  have hCalled := (List.perm_ext_iff_of_nodup (h.called_nodup hSteady)
    (h'.called_nodup hSteady)).mpr fun c => by
      rw [h.mem_called_iff hSteady, h'.mem_called_iff hSteady]
      simp only [hMem]
  exact hCalled.length_eq

theorem Enrolls.exists_record_of_record {p : FilePath} {record : ProbeRecord}
    (hRecord : g.ledger.cache.get? p = some record) :
    ∃ record', g'.ledger.cache.get? p = some record' := by
  obtain ⟨e, he, r, q, d, hProbes, hPath, _⟩ := h.judge_of_record hSteady hRecord
  rw [← g'.ledger.cache.get?_congr hPath]
  exact h'.exists_record hSteady ((hMem e).mpr he) hProbes

theorem Enrolls.record_alike {names : List String} (hNames : ∀ e ∈ engines, e.name ∈ names)
    (hHarmonious : Harmonious env engines) {p : FilePath} {record record' : ProbeRecord}
    (hRecord : g.ledger.cache.get? p = some record)
    (hRecord' : g'.ledger.cache.get? p = some record') : record.Alike names record' := by
  obtain ⟨e, he, r, q, d, hProbes, hPath, hExecutable, hJudge⟩ :=
    h.judge_of_record hSteady hRecord
  obtain ⟨k, hk, s, q', d', hProbes', hPath', hExecutable', hJudge'⟩ :=
    h'.judge_of_record hSteady hRecord'
  rw [hMem] at hk
  have hSame : q.same q' = true := FilePath.same_iff.mpr
    ((FilePath.same_iff.mp hPath).trans (FilePath.same_iff.mp hPath').symm)
  -- Both records come from probes for engines of one family, by one descriptor.
  obtain ⟨x, hReached, rfl⟩ := hProbes.reached
  obtain ⟨y, hReached', rfl⟩ := hProbes'.reached
  have hFamily := hHarmonious e he k hk r s x y hReached hReached' hSame
  have hDescriptor := hProbes.family
  rw [hFamily, hProbes'.family] at hDescriptor
  obtain rfl := Option.some.inj hDescriptor
  refine .of_verdict ?_ (Descriptor.alike_of_judge (hNames e he) (hNames k hk) hJudge hJudge')
  rw [hExecutable, hExecutable']
  exact hSame

theorem Enrolls.records_alike {names : List String} (hNames : ∀ e ∈ engines, e.name ∈ names)
    (hHarmonious : Harmonious env engines) (p : FilePath) :
    Option.Rel (ProbeRecord.Alike names) (g.ledger.cache.get? p) (g'.ledger.cache.get? p) := by
  cases hRecord : g.ledger.cache.get? p with
  | some record =>
    obtain ⟨record', hRecord'⟩ := h.exists_record_of_record h' hSteady hMem hRecord
    rw [hRecord']
    exact .some (h.record_alike h' hSteady hMem hNames hHarmonious hRecord hRecord')
  | none =>
    cases hRecord' : g'.ledger.cache.get? p with
    | none => exact .none
    | some record' =>
      obtain ⟨record, hOther⟩ :=
        h'.exists_record_of_record h hSteady (fun e => (hMem e).symm) hRecord'
      rw [hRecord] at hOther
      cases hOther

end Orders

theorem eq_of_rank_eq {ids : List EngineId} {x y : EngineId}
    (hRanks : ids.Pairwise fun x y => settings.rankOfId x ≠ settings.rankOfId y) (hx : x ∈ ids)
    (hy : y ∈ ids) (hRank : settings.rankOfId x = settings.rankOfId y) : x = y := by
  have : Std.Symm fun x y : EngineId => settings.rankOfId x ≠ settings.rankOfId y :=
    ⟨fun _ _ => Ne.symm⟩
  by_contra hne
  exact hRanks.forall hx hy hne hRank

/-- The two registries hold the same engines and records, but for the engines that the texts of
failed probes name, after the same number of calls; if all ranks differ the order is the same. -/
structure Alike (settings : Settings) (engines : List Engine) (g g' : Registry) : Prop where
  listed : ∀ e ∈ engines, ∃ k k', g.engines.filter (·.id.same e.id) = [k] ∧
    g'.engines.filter (·.id.same e.id) = [k'] ∧ k.declaration = e.declaration ∧
    k.Alike (engines.map (·.name)) k'
  records : ∀ p, Option.Rel (ProbeRecord.Alike (engines.map (·.name)))
    (g.ledger.cache.get? p) (g'.ledger.cache.get? p)
  calls : g.ledger.calls.length = g'.ledger.calls.length
  order : (engines.Pairwise fun a b => settings.rankOfId a.id ≠ settings.rankOfId b.id) →
    g.order = g'.order

/-- In a steady environment engines with distinct identifiers may be registered in any order, if
engines that share an executable are of one family. -/
theorem registrations_alike (settings : Settings) (env : Environment)
    (engines others : List Engine) (hSteady : env.Steady)
    (hApart : engines.Pairwise fun a b => a.id.same b.id = false) (hPerm : others.Perm engines)
    (hFamilies : ∀ a ∈ ((empty settings).applyAll (registrations env engines)).engines,
      ∀ b ∈ ((empty settings).applyAll (registrations env engines)).engines,
      ∀ r s p q, a.resolved r = some p → b.resolved s = some q → p.same q = true →
        a.family = b.family) :
    Alike settings engines ((empty settings).applyAll (registrations env engines))
      ((empty settings).applyAll (registrations env others)) := by
  obtain ⟨log, h⟩ := exists_enrolls env settings hApart
  obtain ⟨log', h'⟩ := exists_enrolls env settings (hPerm.symm.pairwise hApart Apart.symm)
  have hHarmonious := h.harmonious hSteady hFamilies
  have hMem : ∀ e, e ∈ others ↔ e ∈ engines := fun e => hPerm.mem_iff
  have hNames : ∀ e ∈ engines, e.name ∈ engines.map (·.name) := fun e => List.mem_map_of_mem
  refine ⟨?_, h.records_alike h' hSteady hMem hNames hHarmonious, h.calls_eq h' hSteady hMem, ?_⟩
  · intro e he
    obtain ⟨a, ha, rfl⟩ := h.exists_admission he
    obtain ⟨a', ha', hEngine⟩ := h'.exists_admission ((hMem _).mpr he)
    have hOther := h'.enrolled hSteady (fun k hk => hNames k ((hMem k).mp hk))
      (fun x hx y hy => hHarmonious x ((hMem x).mp hx) y ((hMem y).mp hy)) ha'
    have hFilter := h'.filter_same ha'
    rw [hEngine] at hOther hFilter
    exact ⟨_, _, h.filter_same ha, hFilter, a.declaration_verified,
      (h.enrolled hSteady hNames hHarmonious ha).alike hOther⟩
  · intro hRanks
    have hOrder := h.order_perm.trans ((hPerm.map (·.id)).symm.trans h'.order_perm.symm)
    refine hOrder.eq_of_pairwise ?_ h.sorted h'.sorted
    intro x y hx hy hLe hGe
    rw [hOrder.mem_iff.symm] at hy
    exact eq_of_rank_eq (List.pairwise_map.mpr hRanks) (h.order_perm.mem_iff.mp hx)
      (h.order_perm.mem_iff.mp hy) (UInt64.le_antisymm hLe hGe)

/-- Every file may be executed, and no program can be started. -/
def unlaunchable : Environment :=
  { answering with runner := fun _ _ => .error (.launch "No such file") }

/-- The half-installed engine and another one with the same executables may be registered in either
order; only the text of the failed probe, which names the first, differs. -/
theorem registrations_halfInstalled :
    let other := { halfInstalled with id := ⟨"FFmpegAudio"⟩, name := "FFmpeg Audio" }
    let g := (empty .none).applyAll (registrations unlaunchable [halfInstalled, other])
    let g' := (empty .none).applyAll (registrations unlaunchable [other, halfInstalled])
    unlaunchable.Steady ∧ Alike .none [halfInstalled, other] g g' ∧
      (g.ledger.cache.get? ⟨"ffmpeg"⟩).map (·.verdict)
        = some (.error (.launchFailed (withDetail "FFmpeg" "No such file"))) ∧
      (g'.ledger.cache.get? ⟨"ffmpeg"⟩).map (·.verdict)
        = some (.error (.launchFailed (withDetail "FFmpeg Audio" "No such file"))) := by
  intro other g g'
  have hSteady : unlaunchable.Steady := by
    refine ⟨fun _ => rfl, ?_, fun _ _ _ _ _ _ => rfl⟩
    intro calls call hReply
    cases hReply
  have hApart : [halfInstalled, other].Pairwise fun a b => a.id.same b.id = false := by decide
  have hFamily : ∀ e ∈ g.engines, e.family = .ffmpeg := by
    obtain ⟨log, h⟩ := exists_enrolls unlaunchable .none hApart
    intro e he
    obtain ⟨a, ha, rfl⟩ := List.mem_map.mp (h.listed.mem_iff.mp he)
    have hEngine : ∀ x ∈ [halfInstalled, other], x.family = .ffmpeg := by decide
    rw [Engine.family_eq_of_declaration a.declaration_verified]
    exact hEngine _ (h.engine_mem ha)
  refine ⟨hSteady, ?_, by decide +kernel, by decide +kernel⟩
  refine registrations_alike .none unlaunchable _ _ hSteady hApart (List.Perm.swap _ _ []) ?_
  intro a ha b hb _ _ _ _ _ _ _
  rw [hFamily a ha, hFamily b hb]

end Registry

end TranscodingEngines
