import TranscodingEngines.Proofs.Probe.Ledger

/-!
# The engine that a diagnostic names

The text of a failed probe names the engine that the probe was made for at one place, and nothing
else about a verdict depends on that engine. So two probes with the same answer lead to the same
state of a role, but for the engines that the texts name.
-/

set_option autoImplicit false

namespace TranscodingEngines

/-- The two states are the same, or both come from failed probes whose texts name engines of the
list where they differ. -/
inductive Availability.Alike (names : List String) : Availability → Availability → Prop
  | refl (a : Availability) : Alike names a a
  | launchFailed {n m : String} (hn : n ∈ names) (hm : m ∈ names) (before after : String) :
      Alike names (.unavailable (.launchFailed (before ++ n ++ after)))
        (.unavailable (.launchFailed (before ++ m ++ after)))
  | rejected {n m : String} (hn : n ∈ names) (hm : m ∈ names) (before after : String) :
      Alike names (.unavailable (.rejected (before ++ n ++ after)))
        (.unavailable (.rejected (before ++ m ++ after)))

theorem Availability.Alike.isAvailable_eq {names : List String} {a b : Availability}
    (h : a.Alike names b) : a.isAvailable = b.isAvailable := by
  cases h <;> rfl

/-! ## Texts -/

/-- The text names the engine at one place and does not depend on it otherwise. -/
def NamesEngine (text : String → String) : Prop :=
  ∃ before after, ∀ engine, text engine = before ++ engine ++ after

theorem namesEngine_prepend (before : String) : NamesEngine fun engine => before ++ engine :=
  ⟨before, "", fun _ => String.append_empty.symm⟩

theorem NamesEngine.append {text : String → String} (h : NamesEngine text) (rest : String) :
    NamesEngine fun engine => text engine ++ rest := by
  obtain ⟨before, after, hText⟩ := h
  refine ⟨before, after ++ rest, ?_⟩
  intro engine
  simp only [hText, String.append_assoc]

theorem namesEngine_errorHeadline : NamesEngine errorHeadline := namesEngine_prepend _

theorem namesEngine_withDetail (detail : String) :
    NamesEngine fun engine => withDetail engine detail :=
  (namesEngine_errorHeadline.append _).append detail

theorem namesEngine_withoutDetail : NamesEngine withoutDetail := namesEngine_errorHeadline.append _

theorem FailureDetail.namesEngine_diagnostic (detail : FailureDetail) (output : Output)
    (platform : Platform) : NamesEngine fun engine => detail.diagnostic engine output platform := by
  unfold diagnostic
  cases detail with
  | trailingLines =>
    dsimp only
    split
    · exact namesEngine_withDetail _
    · exact namesEngine_withDetail _
    · exact namesEngine_withoutDetail
  | beforeBlankSeparator =>
    dsimp only
    split
    · split
      · exact namesEngine_withDetail _
      · exact namesEngine_withoutDetail
    · exact namesEngine_withoutDetail
  | exitCode hint =>
    have hBase := ((namesEngine_prepend "Transcoding engine ").append " exited with code ").append
      (toString output.exitCode)
    dsimp only
    split
    · split
      · exact (hBase.append ". \n").append _
      · exact hBase
    · exact hBase
  | firstLine =>
    dsimp only
    split
    · exact namesEngine_withDetail _
    · exact namesEngine_withoutDetail

/-! ## Verdicts -/

theorem Descriptor.evaluate_alike (d : Descriptor) {names : List String} {n m : String}
    (hn : n ∈ names) (hm : m ∈ names) (output : Output) (platform : Platform) :
    (Availability.ofVerdict (d.evaluate n output platform)).Alike names
      (.ofVerdict (d.evaluate m output platform)) := by
  rw [evaluate, evaluate]
  cases d.success.versionLine output with
  | some line => exact .refl _
  | none =>
    obtain ⟨before, after, hText⟩ := d.failure.namesEngine_diagnostic output platform
    simp only [hText]
    exact .rejected hn hm before after

/-- Two verdicts on one answer are the same, but for the engines that they name. -/
theorem Descriptor.alike_of_judge {d : Descriptor} {names : List String} {n m : String}
    (hn : n ∈ names) (hm : m ∈ names) {platform : Platform} {reply : Reply} {v w : Verdict}
    (hFirst : d.judge n platform reply = some v) (hSecond : d.judge m platform reply = some w) :
    (Availability.ofVerdict v).Alike names (.ofVerdict w) := by
  rcases judge_eq_some_iff.mp hFirst with ⟨output, rfl, rfl⟩ | ⟨failure, rfl, _, rfl⟩
  · rcases judge_eq_some_iff.mp hSecond with ⟨_, hReply, rfl⟩ | ⟨_, hReply, _, _⟩
    · cases hReply
      exact d.evaluate_alike hn hm output platform
    · cases hReply
  · rcases judge_eq_some_iff.mp hSecond with ⟨_, hReply, _⟩ | ⟨_, hReply, _, rfl⟩
    · cases hReply
    · cases hReply
      obtain ⟨before, after, hText⟩ := namesEngine_withDetail failure.message
      simp only [hText]
      exact .launchFailed hn hm before after

/-! ## Records -/

/-- The two records are for the same path, and the probes came out the same, but for the engine that
the text of a failed one names. -/
structure ProbeRecord.Alike (names : List String) (r r' : ProbeRecord) : Prop where
  executable : r.executable.same r'.executable = true
  pass : r.pass = r'.pass
  version : r.pass = true → r.diagnostic = r'.diagnostic
  verdict : (Availability.ofVerdict r.verdict).Alike names (.ofVerdict r'.verdict)

theorem ProbeRecord.Alike.of_verdict {names : List String} {r r' : ProbeRecord}
    (hPath : r.executable.same r'.executable = true)
    (h : (Availability.ofVerdict r.verdict).Alike names (.ofVerdict r'.verdict)) :
    r.Alike names r' := by
  obtain ⟨p, v⟩ := r
  obtain ⟨p', v'⟩ := r'
  refine ⟨hPath, ?_, ?_, h⟩
  · cases v <;> cases v' <;> first | rfl | cases h
  · intro hPass
    cases v with
    | error => cases hPass
    | ok version =>
      cases v' with
      | error => cases h
      | ok version' =>
        cases h
        rfl

end TranscodingEngines
