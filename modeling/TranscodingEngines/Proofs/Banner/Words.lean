import Mathlib.Data.List.Forall2
import Mathlib.Data.List.TakeWhile
import TranscodingEngines.Probe.Banner
import TranscodingEngines.Proofs.Text.Trim

/-!
# Words and gaps of a banner

What the readers of words and gaps accept, and what they leave. A word is spelled by characters that
fold to its own, and since folding makes no character blank, a gap in front of a word that starts
with ink is read in full.
-/

set_option autoImplicit false

namespace TranscodingEngines

/-! ## Folding -/

namespace Text

/-- The character stands for the one of an ASCII word: it is the same letter in either case, or the
long s for an `s`, or the Kelvin sign for a `k`. -/
def Fits (w c : Char) : Prop :=
  c.toLower = w.toLower ∨ (w.toLower = 's' ∧ c = '\u017f') ∨ (w.toLower = 'k' ∧ c = '\u212a')

theorem foldLetter_eq_iff {w c : Char} (hAscii : w.toNat < 128) :
    foldLetter c = foldLetter w ↔ Fits w c := by
  have hLow : ∀ n < 128, (Char.ofNat n).toLower ≠ '\u017f' ∧ (Char.ofNat n).toLower ≠ '\u212a' ∧
      foldLetter (Char.ofNat n) = (Char.ofNat n).toLower := by decide
  obtain ⟨hLong, hKelvin, hFold⟩ := hLow w.toNat hAscii
  rw [Char.ofNat_toNat] at hLong hKelvin hFold
  rw [hFold, foldLetter, Fits]
  split
  · rename_i h
    subst h
    constructor
    · exact fun h => .inr (.inl ⟨h.symm, rfl⟩)
    · rintro (h | ⟨h, -⟩ | ⟨-, h⟩)
      · exact absurd h.symm hLong
      · exact h.symm
      · exact absurd h (by decide)
  split
  · rename_i h
    subst h
    constructor
    · exact fun h => .inr (.inr ⟨h.symm, rfl⟩)
    · rintro (h | ⟨-, h⟩ | ⟨h, -⟩)
      · exact absurd h.symm hKelvin
      · exact absurd h (by decide)
      · exact h.symm
  · rename_i hs hk
    simp [hs, hk]

theorem isBlankChar_foldLetter (c : Char) : isBlankChar (foldLetter c) = isBlankChar c := by
  rw [foldLetter]
  split
  · rename_i h
    rw [h]
    decide
  split
  · rename_i h
    rw [h]
    decide
  · exact isBlankChar_toLower c

end Text

namespace Banner

/-! ## Words -/

/-- The characters spell the word, up to case folding. -/
def Spells (word cs : List Char) : Prop := cs.map Text.foldLetter = word.map Text.foldLetter

theorem spells_iff {word cs : List Char} (hAscii : ∀ w ∈ word, w.toNat < 128) :
    Spells word cs ↔ List.Forall₂ Text.Fits word cs := by
  induction word generalizing cs with
  | nil => rw [Spells, List.map_nil, List.map_eq_nil_iff, List.forall₂_nil_left_iff]
  | cons w word ih =>
    cases cs with
    | nil => exact iff_of_false (fun h => nomatch h) (fun h => nomatch h)
    | cons c cs =>
      rw [List.forall₂_cons, ← ih fun d hd => hAscii d (List.mem_cons_of_mem _ hd),
        ← Text.foldLetter_eq_iff (hAscii w List.mem_cons_self), Spells, List.map_cons,
        List.map_cons, List.cons_eq_cons, Spells]

/-- The word starts with a character that is not blank. -/
def StartsInked (word : List Char) : Prop := ∃ c ∈ word.head?, Text.isBlankChar c = false

/-- One or more characters of a class. -/
structure IsRun (p : Char → Bool) (cs : List Char) : Prop where
  ne_nil : cs ≠ []
  all : ∀ c ∈ cs, p c = true

abbrev IsGap (cs : List Char) : Prop := IsRun Text.isBlankChar cs

abbrev IsWord (cs : List Char) : Prop := IsRun (!Text.isBlankChar ·) cs

/-- The characters do not go on with one of the class. -/
def Stops (p : Char → Bool) (cs : List Char) : Prop := ∀ c ∈ cs.head?, p c = false

theorem Spells.length_eq {word cs : List Char} (h : Spells word cs) : cs.length = word.length := by
  have hLength := congrArg List.length h
  rwa [List.length_map, List.length_map] at hLength

theorem Spells.stops {word cs : List Char} (h : Spells word cs) (hInk : StartsInked word)
    (rest : List Char) : Stops Text.isBlankChar (cs ++ rest) := by
  obtain ⟨w, hw, hInk⟩ := hInk
  obtain ⟨word, rfl⟩ := List.head?_eq_some_iff.mp hw
  cases cs with
  | nil => cases h
  | cons c cs =>
    obtain ⟨hFold, -⟩ := List.cons_eq_cons.mp h
    rintro d ⟨⟩
    rw [← Text.isBlankChar_foldLetter, hFold, Text.isBlankChar_foldLetter]
    exact hInk

/-! ## Reading words and gaps -/

section Span

variable {p : Char → Bool} {run rest : List Char}

theorem takeWhile_append_of_stops (hRun : ∀ c ∈ run, p c = true) (hStop : Stops p rest) :
    (run ++ rest).takeWhile p = run := by
  have hNone : rest.takeWhile p = [] := by
    cases rest with
    | nil => rfl
    | cons c rest => exact List.takeWhile_cons_of_neg (ne_true_of_eq_false (hStop c rfl))
  rw [List.takeWhile_append_of_pos hRun, hNone, List.append_nil]

theorem dropWhile_append_of_stops (hRun : ∀ c ∈ run, p c = true) (hStop : Stops p rest) :
    (run ++ rest).dropWhile p = rest := by
  have hSplit := List.takeWhile_append_dropWhile (p := p) (l := run ++ rest)
  rw [takeWhile_append_of_stops hRun hStop] at hSplit
  exact List.append_cancel_left hSplit

theorem stops_dropWhile (p : Char → Bool) (cs : List Char) : Stops p (cs.dropWhile p) := by
  intro c hc
  have hHead := List.head?_dropWhile_not p cs
  rw [hc] at hHead
  exact hHead

theorem isRun_takeWhile (h : rest.takeWhile p ≠ []) : IsRun p (rest.takeWhile p) :=
  ⟨h, fun _ hc => List.mem_takeWhile_imp hc⟩

end Span

theorem afterWord_eq_some_iff {word cs rest : List Char} :
    afterWord word cs = some rest ↔ ∃ head, cs = head ++ rest ∧ Spells word head := by
  induction word generalizing cs with
  | nil =>
    constructor
    · rintro ⟨⟩
      exact ⟨[], rfl, rfl⟩
    · rintro ⟨head, rfl, hHead⟩
      rw [List.map_eq_nil_iff.mp hHead]
      rfl
  | cons w word ih =>
    cases cs with
    | nil =>
      constructor
      · rintro ⟨⟩
      · rintro ⟨head, hNil, hHead⟩
        rw [(List.append_eq_nil_iff.mp hNil.symm).1] at hHead
        cases hHead
    | cons c cs =>
      rw [afterWord]
      constructor
      · intro h
        split at h
        · rename_i hFold
          obtain ⟨head, rfl, hHead⟩ := ih.mp h
          exact ⟨c :: head, rfl, List.cons_eq_cons.mpr ⟨hFold.symm, hHead⟩⟩
        · cases h
      · rintro ⟨head, hSplit, hHead⟩
        cases head with
        | nil => cases hHead
        | cons d head =>
          obtain ⟨rfl, rfl⟩ := List.cons_eq_cons.mp hSplit
          obtain ⟨hFold, hRest⟩ := List.cons_eq_cons.mp hHead
          rw [if_pos hFold.symm]
          exact ih.mpr ⟨head, rfl, hRest⟩

theorem afterGap_eq_some_iff {cs rest : List Char} : afterGap cs = some rest ↔
    ∃ gap, cs = gap ++ rest ∧ IsGap gap ∧ Stops Text.isBlankChar rest := by
  constructor
  · intro h
    cases cs with
    | nil => cases h
    | cons c cs =>
      rw [afterGap] at h
      split at h
      · rename_i hBlank
        cases h
        refine ⟨c :: cs.takeWhile Text.isBlankChar, ?_, ⟨List.cons_ne_nil _ _, ?_⟩,
          stops_dropWhile _ _⟩
        · rw [List.cons_append, List.takeWhile_append_dropWhile]
        · intro d hd
          rcases List.mem_cons.mp hd with rfl | hd
          · exact hBlank
          · exact List.mem_takeWhile_imp hd
      · cases h
  · rintro ⟨gap, rfl, hGap, hStop⟩
    cases gap with
    | nil => exact absurd rfl hGap.ne_nil
    | cons c gap =>
      rw [List.cons_append, afterGap, if_pos (hGap.all c List.mem_cons_self),
        dropWhile_append_of_stops (fun d hd => hGap.all d (List.mem_cons_of_mem _ hd)) hStop]

theorem afterBlank_eq_some_iff {cs rest : List Char} :
    afterBlank cs = some rest ↔ ∃ c, cs = c :: rest ∧ Text.isBlankChar c = true := by
  constructor
  · intro h
    cases cs with
    | nil => cases h
    | cons c cs =>
      rw [afterBlank] at h
      split at h
      · rename_i hBlank
        cases h
        exact ⟨c, rfl, hBlank⟩
      · cases h
  · rintro ⟨c, rfl, hBlank⟩
    rw [afterBlank, if_pos hBlank]

theorem wordHere_eq_some_iff {cs word : List Char} : wordHere cs = some word ↔
    ∃ rest, cs = word ++ rest ∧ IsWord word ∧ Stops (!Text.isBlankChar ·) rest := by
  constructor
  · intro h
    rw [wordHere] at h
    split at h
    · cases h
    · rename_i found hOther
      cases h
      exact ⟨cs.dropWhile (!Text.isBlankChar ·), List.takeWhile_append_dropWhile.symm,
        isRun_takeWhile hOther, stops_dropWhile _ _⟩
  · rintro ⟨rest, rfl, hWord, hStop⟩
    rw [wordHere, takeWhile_append_of_stops hWord.all hStop]
    split
    · exact absurd rfl hWord.ne_nil
    · rfl

theorem exists_afterGap_iff {cs : List Char} : (∃ rest, afterGap cs = some rest) ↔
    ∃ behind rest, cs = behind :: rest ∧ Text.isBlankChar behind = true := by
  constructor
  · rintro ⟨rest, h⟩
    obtain ⟨gap, rfl, hGap, -⟩ := afterGap_eq_some_iff.mp h
    obtain ⟨b, gap, rfl⟩ := List.exists_cons_of_ne_nil hGap.ne_nil
    exact ⟨b, gap ++ rest, rfl, hGap.all b List.mem_cons_self⟩
  · rintro ⟨behind, rest, rfl, hBlank⟩
    rw [afterGap, if_pos hBlank]
    exact ⟨_, rfl⟩

end Banner

end TranscodingEngines
