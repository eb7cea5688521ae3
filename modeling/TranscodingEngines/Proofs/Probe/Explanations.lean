import TranscodingEngines.Probe.Descriptor

/-!
# The end of the output explains a failure

The diagnostics of MEncoder and FFmpeg are taken from the last lines of a failed run. Lines printed
earlier make no difference, with one exception: MEncoder's explanation is only looked for when a
line stands in front of the three that show it, so with three lines alone it is passed over.
-/

set_option autoImplicit false

namespace TranscodingEngines

theorem withDetail_ne_withoutDetail (engine detail : String) :
    withDetail engine detail ≠ withoutDetail engine := by
  intro h
  have hText := congrArg String.toList h
  simp only [withDetail, withoutDetail, String.append_assoc, String.toList_append] at hText
  have hRest := List.append_cancel_left hText
  exact absurd (List.cons_eq_cons.mp hRest).1 (by decide)

/-- A line with ink, a blank one, and another one with ink. -/
def Separated (third second last : String) : Prop :=
  Text.isBlank third = false ∧ Text.isBlank second = true ∧ Text.isBlank last = false

instance (third second last : String) : Decidable (Separated third second last) :=
  inferInstanceAs (Decidable (_ ∧ _ ∧ _))

/-- What the last three lines explain. -/
def explanation (engine third second last : String) : String :=
  if Separated third second last then withDetail engine third else withoutDetail engine

namespace FailureDetail

variable {engine third second last : String} {platform : Platform} {output : Output}
  {front : List String}

theorem diagnostic_trailingLines (h : output.lines = front ++ [third, second, last]) :
    trailingLines.diagnostic engine output platform
      = withDetail engine (second ++ " " ++ last) := by
  have hReverse : output.lines.reverse = last :: second :: third :: front.reverse := by
    rw [h, List.reverse_append]
    rfl
  unfold diagnostic
  dsimp only
  rw [hReverse]

theorem diagnostic_separator (h : output.lines = front ++ [third, second, last])
    (hFront : front ≠ []) :
    beforeBlankSeparator.diagnostic engine output platform
      = explanation engine third second last := by
  obtain ⟨line, rest, hLines⟩ := List.exists_cons_of_ne_nil (List.reverse_ne_nil_iff.mpr hFront)
  have hReverse : output.lines.reverse = last :: second :: third :: line :: rest := by
    rw [h, List.reverse_append, hLines]
    rfl
  have hShown : (!Text.isBlank last && Text.isBlank second && !Text.isBlank third) = true ↔
      Separated third second last := by
    simp [Separated, and_comm]
  unfold diagnostic
  dsimp only
  rw [hReverse, explanation]
  dsimp only
  by_cases hSeparated : Separated third second last
  · rw [if_pos (hShown.mpr hSeparated), if_pos hSeparated]
  · rw [if_neg (mt hShown.mp hSeparated), if_neg hSeparated]

theorem diagnostic_separator_alone (h : output.lines = [third, second, last]) :
    beforeBlankSeparator.diagnostic engine output platform = withoutDetail engine := by
  have hReverse : output.lines.reverse = [last, second, third] := by
    rw [h]
    rfl
  unfold diagnostic
  dsimp only
  rw [hReverse]

end FailureDetail

/-- A failed run whose output ends in three given lines. -/
structure FailedRun where
  code : Int
  failed : code ≠ 0
  third : String
  second : String
  last : String
  isComplete : Bool

namespace FailedRun

/-- The output, with other lines in front of the three. -/
def output (run : FailedRun) (front : List String) : Output :=
  ⟨run.code, front ++ [run.third, run.second, run.last], run.isComplete⟩

variable (run : FailedRun) {d : Descriptor} {engine : String} {platform : Platform}
  {front : List String}

theorem versionLine_exitZero (front : List String) :
    SuccessShape.exitZero.versionLine (run.output front) = none :=
  if_neg run.failed

theorem evaluate_mencoder (hFamily : Family.mencoder.descriptor? = some d) (hFront : front ≠ []) :
    d.evaluate engine (run.output front) platform
      = .error (.rejected (explanation engine run.third run.second run.last)) := by
  cases hFamily
  rw [Descriptor.evaluate, run.versionLine_exitZero]
  dsimp only
  rw [FailureDetail.diagnostic_separator rfl hFront]

theorem evaluate_mencoder_alone (hFamily : Family.mencoder.descriptor? = some d) :
    d.evaluate engine (run.output []) platform = .error (.rejected (withoutDetail engine)) := by
  cases hFamily
  rw [Descriptor.evaluate, run.versionLine_exitZero]
  dsimp only
  rw [FailureDetail.diagnostic_separator_alone rfl]

theorem evaluate_ffmpeg (hFamily : Family.ffmpeg.descriptor? = some d) (front : List String) :
    d.evaluate engine (run.output front) platform
      = .error (.rejected (withDetail engine (run.second ++ " " ++ run.last))) := by
  cases hFamily
  rw [Descriptor.evaluate, run.versionLine_exitZero]
  dsimp only
  rw [FailureDetail.diagnostic_trailingLines rfl]

theorem explanation_eq_withoutDetail_iff {third second last : String} :
    explanation engine third second last = withoutDetail engine ↔
      ¬ Separated third second last := by
  rw [explanation]
  split
  · rename_i h
    exact iff_of_false (withDetail_ne_withoutDetail _ _) (not_not_intro h)
  · rename_i h
    exact iff_of_true rfl h

/-- MEncoder's diagnostic is what the last three lines explain if anything stands in front of them,
and is generic otherwise; so lines put in front change it only where three lines alone would explain
the failure. FFmpeg's shows the last two of at least three lines. -/
theorem evaluate_tail {mencoder ffmpeg : Descriptor}
    (hMencoder : Family.mencoder.descriptor? = some mencoder)
    (hFfmpeg : Family.ffmpeg.descriptor? = some ffmpeg) (engine : String) (platform : Platform)
    (run : FailedRun) :
    (∀ front, front ≠ [] → mencoder.evaluate engine (run.output front) platform
      = .error (.rejected (explanation engine run.third run.second run.last))) ∧
    mencoder.evaluate engine (run.output []) platform
      = .error (.rejected (withoutDetail engine)) ∧
    (∀ front more, mencoder.evaluate engine (run.output (more ++ front)) platform
        = mencoder.evaluate engine (run.output front) platform ↔
      front ≠ [] ∨ more = [] ∨ ¬ Separated run.third run.second run.last) ∧
    ∀ front, ffmpeg.evaluate engine (run.output front) platform
      = .error (.rejected (withDetail engine (run.second ++ " " ++ run.last))) ∧
      ∀ more, ffmpeg.evaluate engine (run.output (more ++ front)) platform
        = ffmpeg.evaluate engine (run.output front) platform := by
  refine ⟨fun front hFront => run.evaluate_mencoder hMencoder hFront,
    run.evaluate_mencoder_alone hMencoder, ?_, fun front =>
      ⟨run.evaluate_ffmpeg hFfmpeg front, fun more => ?_⟩⟩
  · intro front more
    by_cases hFront : front = []
    · by_cases hMore : more = []
      · subst hMore
        exact iff_of_true rfl (.inr (.inl rfl))
      · subst hFront
        rw [List.append_nil, run.evaluate_mencoder hMencoder hMore,
          run.evaluate_mencoder_alone hMencoder, Except.error.injEq, Unavailability.rejected.injEq,
          explanation_eq_withoutDetail_iff]
        simp [hMore]
    · rw [run.evaluate_mencoder hMencoder hFront,
        run.evaluate_mencoder hMencoder (List.append_ne_nil_of_right_ne_nil more hFront)]
      exact iff_of_true rfl (.inl hFront)
  · rw [run.evaluate_ffmpeg hFfmpeg, run.evaluate_ffmpeg hFfmpeg]

/-- MEncoder cannot load a codec. -/
def missingCodec : FailedRun where
  code := 1
  failed := by decide
  third := "Cannot load codec"
  second := ""
  last := "Exiting..."
  isComplete := true

theorem evaluate_tail_missingCodec :
    ∃ mencoder ffmpeg, Family.mencoder.descriptor? = some mencoder ∧
      Family.ffmpeg.descriptor? = some ffmpeg ∧
      mencoder.evaluate "MEncoder Video" (missingCodec.output ["MEncoder 1.4"]) .linux64
        = .error (.rejected (withDetail "MEncoder Video" "Cannot load codec")) ∧
      ffmpeg.evaluate "FFmpeg Video" (missingCodec.output []) .linux64
        = .error (.rejected (withDetail "FFmpeg Video" " Exiting...")) := by
  obtain ⟨hExplained, -⟩ := evaluate_tail rfl rfl "MEncoder Video" .linux64 missingCodec
  obtain ⟨-, -, -, hShown⟩ := evaluate_tail rfl rfl "FFmpeg Video" .linux64 missingCodec
  exact ⟨_, _, rfl, rfl, hExplained ["MEncoder 1.4"] (List.cons_ne_nil _ _), (hShown []).1⟩

/-- Three lines that show the explanation are passed over without a line in front of them. -/
theorem evaluate_threeLines :
    ∃ mencoder, Family.mencoder.descriptor? = some mencoder ∧
      Separated missingCodec.third missingCodec.second missingCodec.last ∧
      mencoder.evaluate "MEncoder Video" (missingCodec.output []) .linux64
        = .error (.rejected (withoutDetail "MEncoder Video")) ∧
      mencoder.evaluate "MEncoder Video" (missingCodec.output []) .linux64
        ≠ mencoder.evaluate "MEncoder Video" (missingCodec.output ["MEncoder 1.4"]) .linux64 := by
  refine ⟨_, rfl, by decide +kernel, missingCodec.evaluate_mencoder_alone rfl, ?_⟩
  rw [missingCodec.evaluate_mencoder_alone rfl, missingCodec.evaluate_mencoder rfl
    (List.cons_ne_nil _ _)]
  intro hSame
  injection hSame with hSame
  injection hSame with hSame
  exact explanation_eq_withoutDetail_iff.mp hSame.symm (by decide +kernel)

end FailedRun

end TranscodingEngines
