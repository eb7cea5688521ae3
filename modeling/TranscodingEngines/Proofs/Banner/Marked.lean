import TranscodingEngines.Proofs.Banner.Words

/-!
# Marked versions

A marked version is told exactly if the shape of the banner stands somewhere in the line, and the
leftmost place counts.
-/

set_option autoImplicit false

namespace TranscodingEngines

namespace Banner

/-- The shape stands in the line with this version, and nowhere further left. -/
def Leftmost (shape : List Char → List Char → Prop) (line version : List Char) : Prop :=
  ∃ before rest, line = before ++ rest ∧ shape rest version ∧
    ∀ before' rest', line = before' ++ rest' → before'.length < before.length →
      ∀ version', ¬ shape rest' version'

/-- The characters start with `tsMuxeR.`, a gap, `Version`, one blank, the version, and a blank. -/
def MuxerShape (cs version : List Char) : Prop :=
  ∃ tool gap label blank behind rest,
    cs = tool ++ (gap ++ (label ++ blank :: (version ++ behind :: rest))) ∧
      Spells "tsMuxeR.".toList tool ∧ IsGap gap ∧ Spells "Version".toList label ∧
      Text.isBlankChar blank = true ∧ IsWord version ∧ Text.isBlankChar behind = true

/-- The characters start with `decoder`, one blank, `"dcraw"`, one blank, and the version, which
ends at a blank or with the line. -/
def RawDecoderShape (cs version : List Char) : Prop :=
  ∃ label blank name blank' rest,
    cs = label ++ blank :: (name ++ blank' :: (version ++ rest)) ∧
      Spells "decoder".toList label ∧ Text.isBlankChar blank = true ∧
      Spells "\"dcraw\"".toList name ∧ Text.isBlankChar blank' = true ∧ IsWord version ∧
      Stops (!Text.isBlankChar ·) rest

section Marked

variable {shape : List Char → List Char → Prop} {line version : List Char}

theorem leftmost_of_shape (h : shape line version) : Leftmost shape line version :=
  ⟨[], line, rfl, h, fun _ _ _ hLess => absurd hLess (Nat.not_lt_zero _)⟩

theorem leftmost_nil_iff : Leftmost shape [] version ↔ shape [] version := by
  constructor
  · rintro ⟨before, rest, hSplit, hShape, -⟩
    rwa [(List.append_eq_nil_iff.mp hSplit.symm).2] at hShape
  · exact leftmost_of_shape

theorem leftmost_cons_iff {c : Char} (h : ∀ version', ¬ shape (c :: line) version') :
    Leftmost shape (c :: line) version ↔ Leftmost shape line version := by
  constructor
  · rintro ⟨before, rest, hSplit, hShape, hFirst⟩
    rcases List.cons_eq_append_iff.mp hSplit with ⟨-, rfl⟩ | ⟨before, rfl, hLine⟩
    · exact absurd hShape (h version)
    · refine ⟨before, rest, hLine, hShape, fun before' rest' hSplit' hLess => ?_⟩
      exact hFirst (c :: before') rest' (congrArg (c :: ·) hSplit') (Nat.succ_lt_succ hLess)
  · rintro ⟨before, rest, rfl, hShape, hFirst⟩
    refine ⟨c :: before, rest, rfl, hShape, fun before' rest' hSplit' hLess => ?_⟩
    rcases List.cons_eq_append_iff.mp hSplit' with ⟨-, rfl⟩ | ⟨before', rfl, hLine⟩
    · exact h
    · exact hFirst before' rest' hLine (Nat.lt_of_succ_lt_succ hLess)

theorem Leftmost.unique_of_shape {c : Char} {found : List Char}
    (hUnique : ∀ cs v v', shape cs v → shape cs v' → v = v') (hShape : shape (c :: line) found)
    (h : Leftmost shape (c :: line) version) : version = found := by
  obtain ⟨before, rest, hSplit, hHere, hFirst⟩ := h
  rcases List.cons_eq_append_iff.mp hSplit with ⟨-, rfl⟩ | ⟨before, rfl, -⟩
  · exact hUnique _ _ _ hHere hShape
  · exact absurd hShape (hFirst [] (c :: line) rfl (Nat.zero_lt_succ _) found)

theorem firstPlace_eq_some_iff {read : List Char → Option (List Char)}
    (hRead : ∀ cs found, read cs = some found ↔ shape cs found) :
    firstPlace read line = some version ↔ Leftmost shape line version := by
  induction line with
  | nil => rw [leftmost_nil_iff, firstPlace, hRead]
  | cons c line ih =>
    rw [firstPlace]
    split
    · rename_i found hFound
      rw [Option.some_inj]
      constructor
      · rintro rfl
        exact leftmost_of_shape ((hRead _ _).mp hFound)
      · intro h
        refine (h.unique_of_shape ?_ ((hRead _ _).mp hFound)).symm
        intro cs v v' hShape hShape'
        exact Option.some_inj.mp (((hRead _ _).mpr hShape).symm.trans ((hRead _ _).mpr hShape'))
    · rename_i hNone
      rw [ih]
      refine (leftmost_cons_iff fun version' hShape => ?_).symm
      rw [(hRead _ _).mpr hShape] at hNone
      cases hNone

end Marked

theorem map_ofList_eq_some_iff {found : Option (List Char)} {version : String} :
    found.map String.ofList = some version ↔ found = some version.toList := by
  rw [Option.map_eq_some_iff]
  constructor
  · rintro ⟨cs, hFound, rfl⟩
    rw [hFound, String.toList_ofList]
  · intro hFound
    exact ⟨_, hFound, String.ofList_toList⟩

def muxerHere (cs : List Char) : Option (List Char) := do
  let gap ← afterWord "tsMuxeR.".toList cs
  let label ← afterGap gap
  let blank ← afterWord "Version".toList label
  let rest ← afterBlank blank
  let word ← wordHere rest
  let _ ← afterGap (rest.drop word.length)
  pure word

def rawDecoderHere (cs : List Char) : Option (List Char) := do
  let blank ← afterWord "decoder".toList cs
  let quoted ← afterBlank blank
  let second ← afterWord "\"dcraw\"".toList quoted
  let rest ← afterBlank second
  wordHere rest

theorem muxerHere_eq_some_iff {cs version : List Char} :
    muxerHere cs = some version ↔ MuxerShape cs version := by
  constructor
  · intro h
    obtain ⟨_, hTool, h⟩ := Option.bind_eq_some_iff.mp h
    obtain ⟨_, hGap, h⟩ := Option.bind_eq_some_iff.mp h
    obtain ⟨_, hLabel, h⟩ := Option.bind_eq_some_iff.mp h
    obtain ⟨_, hBlank, h⟩ := Option.bind_eq_some_iff.mp h
    obtain ⟨word, hWord, h⟩ := Option.bind_eq_some_iff.mp h
    obtain ⟨_, hBehind, h⟩ := Option.bind_eq_some_iff.mp h
    cases h
    obtain ⟨tool, rfl, isTool⟩ := afterWord_eq_some_iff.mp hTool
    obtain ⟨gap, rfl, isGap, -⟩ := afterGap_eq_some_iff.mp hGap
    obtain ⟨label, rfl, isLabel⟩ := afterWord_eq_some_iff.mp hLabel
    obtain ⟨blank, rfl, isBlank⟩ := afterBlank_eq_some_iff.mp hBlank
    obtain ⟨rest, rfl, isWord, -⟩ := wordHere_eq_some_iff.mp hWord
    rw [List.drop_left] at hBehind
    obtain ⟨behind, rest, rfl, isBehind⟩ := exists_afterGap_iff.mp ⟨_, hBehind⟩
    exact ⟨tool, gap, label, blank, behind, rest, rfl, isTool, isGap, isLabel, isBlank, isWord,
      isBehind⟩
  · rintro ⟨tool, gap, label, blank, behind, rest, rfl, hTool, hGap, hLabel, hBlank, hWord,
      hBehind⟩
    have hInk : StartsInked "Version".toList := ⟨'V', rfl, by decide⟩
    have hStop : Stops (!Text.isBlankChar ·) (behind :: rest) := by
      rintro c ⟨⟩
      exact congrArg not hBehind
    obtain ⟨after, hAfter⟩ := exists_afterGap_iff.mpr ⟨behind, rest, rfl, hBehind⟩
    simp only [muxerHere, Option.bind_eq_bind,
      afterWord_eq_some_iff.mpr ⟨tool, rfl, hTool⟩, Option.bind_some,
      afterGap_eq_some_iff.mpr ⟨gap, rfl, hGap, hLabel.stops hInk _⟩,
      afterWord_eq_some_iff.mpr ⟨label, rfl, hLabel⟩,
      afterBlank_eq_some_iff.mpr ⟨blank, rfl, hBlank⟩,
      wordHere_eq_some_iff.mpr ⟨_, rfl, hWord, hStop⟩, List.drop_left, hAfter]
    rfl

theorem rawDecoderHere_eq_some_iff {cs version : List Char} :
    rawDecoderHere cs = some version ↔ RawDecoderShape cs version := by
  constructor
  · intro h
    obtain ⟨_, hLabel, h⟩ := Option.bind_eq_some_iff.mp h
    obtain ⟨_, hBlank, h⟩ := Option.bind_eq_some_iff.mp h
    obtain ⟨_, hName, h⟩ := Option.bind_eq_some_iff.mp h
    obtain ⟨_, hBlank', hWord⟩ := Option.bind_eq_some_iff.mp h
    obtain ⟨label, rfl, isLabel⟩ := afterWord_eq_some_iff.mp hLabel
    obtain ⟨blank, rfl, isBlank⟩ := afterBlank_eq_some_iff.mp hBlank
    obtain ⟨name, rfl, isName⟩ := afterWord_eq_some_iff.mp hName
    obtain ⟨blank', rfl, isBlank'⟩ := afterBlank_eq_some_iff.mp hBlank'
    obtain ⟨rest, rfl, isWord, hStop⟩ := wordHere_eq_some_iff.mp hWord
    exact ⟨label, blank, name, blank', rest, rfl, isLabel, isBlank, isName, isBlank', isWord, hStop⟩
  · rintro ⟨label, blank, name, blank', rest, rfl, hLabel, hBlank, hName, hBlank', hWord, hStop⟩
    simp only [rawDecoderHere, Option.bind_eq_bind,
      afterWord_eq_some_iff.mpr ⟨label, rfl, hLabel⟩, Option.bind_some,
      afterBlank_eq_some_iff.mpr ⟨blank, rfl, hBlank⟩,
      afterWord_eq_some_iff.mpr ⟨name, rfl, hName⟩,
      afterBlank_eq_some_iff.mpr ⟨blank', rfl, hBlank'⟩]
    exact wordHere_eq_some_iff.mpr ⟨rest, rfl, hWord, hStop⟩

theorem muxerVersion_eq_some_iff {line version : String} : muxerVersion line = some version ↔
    Leftmost MuxerShape line.toList version.toList := by
  rw [← firstPlace_eq_some_iff fun _ _ => muxerHere_eq_some_iff]
  exact map_ofList_eq_some_iff

theorem rawDecoderVersion_eq_some_iff {line version : String} :
    rawDecoderVersion line = some version ↔
      Leftmost RawDecoderShape line.toList version.toList := by
  rw [← firstPlace_eq_some_iff fun _ _ => rawDecoderHere_eq_some_iff]
  exact map_ofList_eq_some_iff

end Banner

end TranscodingEngines
