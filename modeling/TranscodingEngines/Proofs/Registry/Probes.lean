import TranscodingEngines.Proofs.Probe.Cache
import TranscodingEngines.Proofs.Registry.History

/-!
# The calls and records of a history

The calls made over a history are those of its exchanges. Each is the probe of the engine being
registered, a call that was not interrupted is the last one for its executable, and it alone leaves
a record, which stays. A role that reached the probe of its executable shows what is on record; an
engine that cannot be probed shows the record it met, if there was one.
-/

set_option autoImplicit false

namespace TranscodingEngines

/-- The ledger is what the exchanges made of an empty one, in their order. -/
structure ProbeLedger.Accounts (l : ProbeLedger) (xs : List Exchange) : Prop where
  calls : l.calls = xs.map (·.call)
  /-- Every answer was given after the calls before it. -/
  earlier : ∀ before x after, xs = before ++ x :: after → x.earlier = before.map (·.call)
  isProbe : ∀ x ∈ xs, x.IsProbe
  /-- Of two calls for an executable the earlier one was interrupted. -/
  once : xs.Pairwise fun x y =>
    x.call.program.same y.call.program = true → x.reply = .error .interrupted
  record : ∀ p r, l.cache.get? p = some r ↔ ∃ x ∈ xs, x.call.program.same p = true ∧
    r.executable = x.call.program ∧ x.Yields r.verdict ∧ r.probedAt = x.moment

theorem ProbeLedger.Grows.accounts {l : ProbeLedger} {xs : List Exchange}
    (h : ProbeLedger.Grows .empty xs l) : l.Accounts xs where
  calls := h.calls_eq
  earlier before x after hSplit := h.earlier_eq hSplit
  isProbe := h.isProbe
  once := by
    refine h.pairwise_verdict?.imp_of_mem ?_
    intro x y hx _ hVerdict hSame
    exact (Exchange.verdict?_eq_none_iff (h.isProbe x hx)).mp (hVerdict hSame)
  record p r := by
    have hNone : ProbeLedger.empty.cache.get? p = none := rfl
    simp only [h.get?_eq_some_iff hNone, Exchange.record?_eq_some_iff]

namespace Admission

variable {a : Admission} {e : Engine}

theorem of_mem_exchanges {x : Exchange} (h : x ∈ a.exchanges) : x.engine = a.engine ∧
    x.platform = a.environment.platform ∧ x.runner = a.environment.runner ∧
    x.clock = a.environment.clock := by
  obtain ⟨l, call, rfl⟩ := Environment.exists_of_mem_exchanges h
  exact ⟨rfl, rfl, rfl, rfl⟩

theorem exchanges_eq_nil (h : a.engine.family.descriptor? = none) : a.exchanges = [] := by
  rw [List.eq_nil_iff_forall_not_mem]
  intro x hx
  obtain ⟨d, hFamily, _⟩ := a.grows.isProbe x hx
  rw [(of_mem_exchanges hx).1, h] at hFamily
  cases hFamily

theorem met_of_mem_course (h : a.engine.family.descriptor? = none) {x : Examination}
    (hx : x ∈ a.course) : x.met = a.registry.ledger := by
  obtain ⟨_, xs, hPrefix, hGrows⟩ := Environment.grows_of_mem_course hx
  have hNil : xs = [] := by
    have hNone := exchanges_eq_nil h
    rw [exchanges] at hNone
    rw [hNone] at hPrefix
    exact List.prefix_nil.mp hPrefix
  rw [hNil] at hGrows
  exact hGrows.eq_of_nil

end Admission

theorem Family.descriptor?_eq_none_iff {f : Family} : f.descriptor? = none ↔ f = .vlc := by
  cases f <;> simp [descriptor?]

/-- The availability of the role comes from the probe of an executable. -/
structure Engine.ReachedProbe (e : Engine) (r : Role) (executable : FilePath) : Prop where
  resolved : e.resolved r = some executable
  not_unknown : e.availability r ≠ .unknown
  not_withoutAvisynth : e.availability r ≠ .unavailable (.avisynthNotFound e.name)

namespace Registry

variable {start g : Registry} {log : List Admission} {a : Admission} {e : Engine} {r : Role}

theorem Run.get?_of_mem_course (h : Run start log g) (ha : a ∈ log) {x : Examination}
    (hx : x ∈ a.course) {p : FilePath} {record : ProbeRecord}
    (hRecord : x.left.cache.get? p = some record) : g.ledger.cache.get? p = some record := by
  obtain ⟨_, hLeft⟩ := a.grows_of_left hx
  obtain ⟨_, _, _, hLater⟩ := h.of_mem_log ha
  exact (hLeft.trans hLater).get?_mono hRecord

/-- A role that reached the probe shows what is on record for its executable, or it is available
because its engine cannot be probed and nothing was on record. -/
theorem Run.record_of_reachedProbe (h : Run start log g) (ha : a ∈ log)
    (hStanding : a.verified.engine.standing = e.standing) {p : FilePath}
    (hReached : e.ReachedProbe r p) :
    (∃ record, g.ledger.cache.get? p = some record ∧
      e.availability r = .ofVerdict record.verdict ∧
      (e.family = .vlc → a.registry.ledger.cache.get? p = some record)) ∨
    e.family = .vlc ∧ a.registry.ledger.cache.get? p = none ∧
      e.availability r = .available none := by
  obtain ⟨x, hx, rfl⟩ := Admission.exists_of_resolved hStanding hReached.resolved
  have hDeclaration := Admission.declaration_of_standing hStanding
  have hFamily := Engine.family_eq_of_declaration hDeclaration
  -- An engine that cannot be probed makes no calls, so every role meets the same ledger.
  have hMet : e.family = .vlc → x.met = a.registry.ledger := by
    intro hVlc
    rw [← hFamily, ← Family.descriptor?_eq_none_iff] at hVlc
    exact Admission.met_of_mem_course hVlc hx
  obtain ⟨hResolved, hAvailability⟩ := Admission.state_of_mem_course hStanding hx
  have hExamined := Admission.examined_of_mem_course hDeclaration hx
  rw [hReached.resolved] at hResolved
  generalize hFinding : x.finding = finding, hLeft : x.left = left
    at hExamined hResolved hAvailability
  cases hExamined with
  | undefined => cases hResolved
  | incompatible => cases hResolved
  | unlocatable => cases hResolved
  | inaccessible => cases hResolved
  | withoutAvisynth => exact absurd hAvailability hReached.not_withoutAvisynth
  | interrupted => exact absurd hAvailability hReached.not_unknown
  | @onRecord executable record _ _ hRecord =>
    cases hResolved
    refine .inl ⟨record, h.get?_of_mem_course ha hx (hLeft ▸ hRecord), hAvailability, ?_⟩
    intro hVlc
    rw [← hMet hVlc]
    exact hRecord
  | unprobeable _ _ hNew hUnprobeable =>
    cases hResolved
    have hVlc := Family.descriptor?_eq_none_iff.mp hUnprobeable
    rw [hMet hVlc] at hNew
    exact .inr ⟨hVlc, hNew, hAvailability⟩
  | @judged executable d verdict _ _ hNew hProbeable hJudge =>
    cases hResolved
    have hRecord := Environment.get?_after_exchange hProbeable hNew hJudge
    rw [← hLeft] at hRecord
    refine .inl ⟨_, h.get?_of_mem_course ha hx hRecord, hAvailability, ?_⟩
    intro hVlc
    rw [Family.descriptor?_eq_none_iff.mpr hVlc] at hProbeable
    cases hProbeable

def exchanges (g : Registry) (history : List (Environment × Operation)) : List Exchange :=
  (g.log history).flatMap Admission.exchanges

/-- Over any history each executable is called until a call is not interrupted and then no more;
that call is on record for good, and whatever role reached the probe of the executable shows the
record. An engine that cannot be probed shows the record that there was when it was registered, or
else it is available. -/
theorem probes_applyAll (settings : Settings) (history later : List (Environment × Operation)) :
    let g := (empty settings).applyAll history
    g.ledger.Accounts ((empty settings).exchanges history) ∧
    (∀ a ∈ (empty settings).log history, ∀ x ∈ a.exchanges, x.engine = a.engine ∧
      x.platform = a.environment.platform ∧ x.runner = a.environment.runner ∧
      x.clock = a.environment.clock) ∧
    g.ledger.cache.kept <+: ((empty settings).applyAll (history ++ later)).ledger.cache.kept ∧
    ∀ e ∈ g.engines, ∃ a ∈ (empty settings).log history, a.engine.declaration = e.declaration ∧
      (∀ b ∈ (empty settings).log history, b.engine.id.same e.id = true → b = a) ∧
      (e.family = .vlc → a.exchanges = []) ∧
      ∀ r p, e.ReachedProbe r p →
        (e.family ≠ .vlc → ∃ record, g.ledger.cache.get? p = some record ∧
          e.availability r = .ofVerdict record.verdict) ∧
        (e.family = .vlc → e.availability r = match a.registry.ledger.cache.get? p with
          | some record => .ofVerdict record.verdict
          | none => .available none) := by
  intro g
  have hRun := (empty settings).run_applyAll history
  refine ⟨hRun.grows.accounts, fun a _ x hx => Admission.of_mem_exchanges hx, ?_, ?_⟩
  · rw [applyAll_append]
    exact ⟨_, (g.run_applyAll later).grows.kept_eq.symm⟩
  · intro e he
    obtain ⟨a, ha, hStanding⟩ := hRun.exists_admission rfl he
    have hDeclaration := Admission.declaration_of_standing hStanding
    have hFamily := Engine.family_eq_of_declaration hDeclaration
    refine ⟨a, ha, hDeclaration, hRun.eq_of_same_of_declaration rfl ha hDeclaration, ?_, ?_⟩
    · intro hVlc
      rw [← hFamily, ← Family.descriptor?_eq_none_iff] at hVlc
      exact Admission.exchanges_eq_nil hVlc
    · intro r p hReached
      rcases hRun.record_of_reachedProbe ha hStanding hReached with
        ⟨record, hRecord, hAvailability, hMet⟩ | ⟨hVlc, hMet, hAvailability⟩
      · refine ⟨fun _ => ⟨record, hRecord, hAvailability⟩, ?_⟩
        intro hVlc
        rw [hMet hVlc]
        exact hAvailability
      · refine ⟨fun hProbeable => absurd hVlc hProbeable, ?_⟩
        intro _
        rw [hMet]
        exact hAvailability

/-- The half-installed engine shows what is on record for its installed executable. -/
theorem probes_halfInstalled :
    let g := (empty .none).applyAll [(answering, .register halfInstalled)]
    ∃ e ∈ g.engines, e.ReachedProbe .installed ⟨"ffmpeg"⟩ ∧
      ∃ record, g.ledger.cache.get? ⟨"ffmpeg"⟩ = some record ∧
        e.availability .installed = .ofVerdict record.verdict := by
  intro g
  have hSome : ∃ e ∈ g.engines, e.family ≠ .vlc ∧ e.resolved .installed = some ⟨"ffmpeg"⟩ ∧
      e.availability .installed ≠ .unknown ∧
      e.availability .installed ≠ .unavailable (.avisynthNotFound e.name) := by decide +kernel
  obtain ⟨e, he, hProbeable, hResolved, hKnown, hAvisynth⟩ := hSome
  have hReached : e.ReachedProbe .installed ⟨"ffmpeg"⟩ := ⟨hResolved, hKnown, hAvisynth⟩
  obtain ⟨_, _, _, hEngines⟩ :=
    probes_applyAll .none [(answering, .register halfInstalled)] []
  obtain ⟨_, _, _, _, _, hShown⟩ := hEngines e he
  exact ⟨e, he, hReached, (hShown .installed _ hReached).1 hProbeable⟩

/-- Of the records that the exchanges lead to, the first one for every path is kept, and the records
are listed in the order of their paths. -/
theorem keepsFirst_applyAll (settings : Settings) (history : List (Environment × Operation)) :
    ((empty settings).applyAll history).ledger.cache.KeepsFirst
      (((empty settings).exchanges history).filterMap Exchange.record?) := by
  rw [((empty settings).run_applyAll history).grows.cache_eq]
  exact ProbeCache.keepsFirst _

end Registry

end TranscodingEngines
