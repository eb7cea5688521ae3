import TranscodingEngines.Probe.Descriptor
import TranscodingEngines.Proofs.Banner.Framed
import TranscodingEngines.Proofs.Banner.Marked

/-!
# Which runs are accepted, and with which version

A run of a tool is accepted by its exit code, or for the raw decoder by its blank first line, and
rejected otherwise. The version of an accepted run is the one that its banner line tells in the way
of the family; without such a line, or with a line that tells none, the tool works all the same.
-/

set_option autoImplicit false

namespace TranscodingEngines

namespace Family

/-- The words in front of the version and behind it, for the families that frame it. -/
def frame? : Family → Option (String × String)
  | ffmpeg => some ("ffmpeg version", "Copyright")
  | mencoder => some ("MEncoder", "(C)")
  | _ => none

/-- The line tells the version in the way of the family. -/
def Tells : Family → String → String → Prop
  | ffmpeg, line, version => ∃ gap, Banner.Chosen "ffmpeg version".toList "Copyright".toList
      line.toList gap version.toList
  | mencoder, line, version => ∃ gap, Banner.Chosen "MEncoder".toList "(C)".toList
      line.toList gap version.toList
  | tsMuxeR, line, version => Banner.Leftmost Banner.MuxerShape line.toList version.toList
  | dcraw, line, version => Banner.Leftmost Banner.RawDecoderShape line.toList version.toList
  | vlc, _, _ => False

/-- The run shows that the tool works. -/
def Accepts : Family → Output → Prop
  | dcraw, output =>
    ∃ first, output.lines[0]? = some first ∧ ∀ c ∈ first.toList, Text.isBlankChar c = true
  | _, output => output.exitCode = 0

/-- The line that the version stands on, if it was printed. -/
def bannerLine : Family → Output → Option String
  | dcraw, output => output.lines[1]?
  | _, output => output.lines[0]?

variable {f : Family} {d : Descriptor} {engine line text : String} {output : Output}
  {platform : Platform}

section Frame

variable {opening closing : String} (hFrame : f.frame? = some (opening, closing))

include hFrame

theorem tells_of_frame : f.Tells line text ↔
    ∃ gap, Banner.Chosen opening.toList closing.toList line.toList gap text.toList := by
  cases f <;> cases hFrame <;> rfl

theorem startsInked_of_frame : Banner.StartsInked closing.toList := by
  cases f with
  | ffmpeg =>
    cases hFrame
    exact ⟨'C', rfl, by decide⟩
  | mencoder =>
    cases hFrame
    exact ⟨'(', rfl, by decide⟩
  | tsMuxeR | dcraw | vlc => cases hFrame

theorem framed_eq_some_iff_tells :
    Banner.framed opening closing line = some text ↔ f.Tells line text := by
  rw [tells_of_frame hFrame, Banner.framed_eq_some_iff (startsInked_of_frame hFrame)]

theorem exists_tells_iff : (∃ text, f.Tells line text) ↔
    ∃ gap found, Banner.Reads opening.toList closing.toList line.toList gap found := by
  simp only [← framed_eq_some_iff_tells hFrame]
  exact Banner.exists_framed_iff (startsInked_of_frame hFrame)

end Frame

theorem version_eq_some_iff (hFamily : f.descriptor? = some d) :
    d.version line = some text ↔ f.Tells line text := by
  cases f with
  | ffmpeg | mencoder =>
    cases hFamily
    exact framed_eq_some_iff_tells rfl
  | tsMuxeR =>
    cases hFamily
    exact Banner.muxerVersion_eq_some_iff
  | dcraw =>
    cases hFamily
    exact Banner.rawDecoderVersion_eq_some_iff
  | vlc => cases hFamily

theorem versionLine_eq_some_iff (hFamily : f.descriptor? = some d) {line : Option String} :
    d.success.versionLine output = some line ↔ f.Accepts output ∧ line = f.bannerLine output := by
  have hExit : SuccessShape.versionLine .exitZero output = some line ↔
      output.exitCode = 0 ∧ line = output.lines[0]? := by
    rw [SuccessShape.versionLine, List.head?_eq_getElem?]
    split
    · rename_i hZero
      rw [Option.some_inj, eq_comm, and_iff_right hZero]
    · rename_i hOther
      exact iff_of_false (fun h => nomatch h) fun h => hOther h.1
  cases f with
  | ffmpeg | mencoder | tsMuxeR =>
    cases hFamily
    exact hExit
  | dcraw =>
    cases hFamily
    rw [SuccessShape.versionLine, Accepts, bannerLine]
    cases hLines : output.lines with
    | nil => exact iff_of_false (fun h => nomatch h) fun ⟨⟨_, h, _⟩, _⟩ => nomatch h
    | cons first rest =>
      dsimp only
      split
      · rename_i hBlank
        rw [Option.some_inj, eq_comm, List.head?_eq_getElem?]
        exact (and_iff_right ⟨first, rfl, List.all_eq_true.mp hBlank⟩).symm
      · rename_i hOther
        refine iff_of_false (fun h => nomatch h) ?_
        rintro ⟨⟨_, ⟨⟩, hBlank⟩, _⟩
        exact hOther (List.all_eq_true.mpr hBlank)
  | vlc => cases hFamily

/-- How a descriptor judges a run. -/
structure Judges (f : Family) (d : Descriptor) (engine : String) (output : Output)
    (platform : Platform) : Prop where
  accepts : (∃ version, d.evaluate engine output platform = .ok version) ↔ f.Accepts output
  rejects : ¬ f.Accepts output →
    ∃ diagnostic, d.evaluate engine output platform = .error (.rejected diagnostic)
  /-- The version is the one that the banner line tells. -/
  version : ∀ version, d.evaluate engine output platform = .ok version → ∀ text,
    version = some text ↔ ∃ line, f.bannerLine output = some line ∧ f.Tells line text

theorem judges_of_descriptor (hFamily : f.descriptor? = some d) (engine : String)
    (output : Output) (platform : Platform) : f.Judges d engine output platform := by
  cases hLine : d.success.versionLine output with
  | some line =>
    have hVerdict : d.evaluate engine output platform = .ok (line.bind d.version) := by
      rw [Descriptor.evaluate, hLine]
    obtain ⟨hAccepts, rfl⟩ := (versionLine_eq_some_iff hFamily).mp hLine
    refine ⟨iff_of_true ⟨_, hVerdict⟩ hAccepts, fun hOther => absurd hAccepts hOther, ?_⟩
    intro version hOk text
    rw [hVerdict] at hOk
    cases hOk
    rw [Option.bind_eq_some_iff]
    simp only [version_eq_some_iff hFamily]
  | none =>
    have hVerdict : d.evaluate engine output platform
        = .error (.rejected (d.failure.diagnostic engine output platform)) := by
      rw [Descriptor.evaluate, hLine]
    have hOther : ¬ f.Accepts output := by
      intro hAccepts
      rw [(versionLine_eq_some_iff hFamily).mpr ⟨hAccepts, rfl⟩] at hLine
      cases hLine
    refine ⟨iff_of_false ?_ hOther, fun _ => ⟨_, hVerdict⟩, ?_⟩
    · rintro ⟨version, hOk⟩
      rw [hVerdict] at hOk
      cases hOk
    · intro version hOk
      rw [hVerdict] at hOk
      cases hOk

/-- Runs are judged as their family says. A framed version is told exactly if there is a reading of
the line, and it neither starts nor ends with a blank character. The words of a banner are spelled
character by character, in either case, with the two letters that fold to ASCII ones. -/
theorem evaluate_judged :
    (∀ f d, descriptor? f = some d → ∀ engine output platform,
      f.Judges d engine output platform) ∧
    (∀ f opening closing, frame? f = some (opening, closing) → ∀ line : String,
      ((∃ text, f.Tells line text) ↔
        ∃ gap found, Banner.Reads opening.toList closing.toList line.toList gap found) ∧
      ∀ text, f.Tells line text → Banner.Stops Text.isBlankChar text.toList ∧
        Banner.Stops Text.isBlankChar text.toList.reverse) ∧
    ∀ word : List Char, (∀ w ∈ word, w.toNat < 128) → ∀ cs,
      Banner.Spells word cs ↔ List.Forall₂ Text.Fits word cs := by
  refine ⟨fun f d hFamily => judges_of_descriptor hFamily, ?_,
    fun _ hAscii _ => Banner.spells_iff hAscii⟩
  intro f opening closing hFrame line
  refine ⟨exists_tells_iff hFrame, fun text hTells => ?_⟩
  obtain ⟨gap, hChosen⟩ := (tells_of_frame hFrame).mp hTells
  exact ⟨hChosen.stops, hChosen.stops_reverse⟩

/-- A banner with a long s, wide gaps and a later word that could close the version too. -/
def wideBanner : String :=
  "FFmpeg ver\u017fion \t n4.2  COPYRIGHT (c) Copyright"

theorem evaluate_judged_wideBanner :
    ∃ d, descriptor? .ffmpeg = some d ∧
      d.evaluate "FFmpeg Video" ⟨0, [wideBanner], true⟩ .linux64 = .ok (some "n4.2") ∧
      ffmpeg.Tells wideBanner "n4.2" ∧
      (∃ gap found, Banner.Reads "ffmpeg version".toList "Copyright".toList wideBanner.toList gap
        found) ∧
      List.Forall₂ Text.Fits "ffmpeg version".toList "FFmpeg ver\u017fion".toList := by
  obtain ⟨hJudges, hFrames, hFold⟩ := evaluate_judged
  have hVerdict : Descriptor.evaluate ⟨["-version"], .exitZero, Banner.ffmpegVersion,
      .trailingLines⟩ "FFmpeg Video" ⟨0, [wideBanner], true⟩ .linux64 = .ok (some "n4.2") := by
    decide +kernel
  obtain ⟨line, hLine, hTells⟩ :=
    ((hJudges .ffmpeg _ rfl "FFmpeg Video" ⟨0, [wideBanner], true⟩ .linux64).version _ hVerdict
      "n4.2").mp rfl
  cases hLine
  have hSpells : Banner.Spells "ffmpeg version".toList "FFmpeg ver\u017fion".toList := by
    rw [Banner.Spells]
    decide +kernel
  have hAscii : ∀ w ∈ "ffmpeg version".toList, w.toNat < 128 := by simp
  exact ⟨_, rfl, hVerdict, hTells, (hFrames .ffmpeg _ _ rfl wideBanner).1.mp ⟨_, hTells⟩,
    (hFold _ hAscii _).mp hSpells⟩

end Family

end TranscodingEngines
