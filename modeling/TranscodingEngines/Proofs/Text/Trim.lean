import Mathlib.Data.List.TakeWhile
import TranscodingEngines.Text.Blank
import TranscodingEngines.Text.Letters

/-!
# Trimming and the case of letters

A text falls into blank characters, its trimmed part and blank characters again, and blank
characters put around a text do not change its trimmed part. A blank character has no case, so
trimming and changing the case of letters can be done in either order.
-/

set_option autoImplicit false

namespace TranscodingEngines.Text

section DropTrailing

variable {α : Type} (p : α → Bool)

theorem dropTrailing_append_of_all (cs : List α) {after : List α} (h : ∀ c ∈ after, p c = true) :
    dropTrailing p (cs ++ after) = dropTrailing p cs := by
  have hDropped : after.reverse.dropWhile p = [] := by
    rw [List.dropWhile_eq_nil_iff]
    intro c hc
    exact h c (List.mem_reverse.mp hc)
  rw [dropTrailing, List.reverse_append, List.dropWhile_append, hDropped]
  rfl

theorem exists_dropTrailing (cs : List α) :
    ∃ after, (∀ c ∈ after, p c = true) ∧ cs = dropTrailing p cs ++ after := by
  refine ⟨(cs.reverse.takeWhile p).reverse, ?_, ?_⟩
  · intro c hc
    exact List.all_eq_true.mp List.all_takeWhile c (List.mem_reverse.mp hc)
  · rw [dropTrailing, ← List.reverse_append, List.takeWhile_append_dropWhile, List.reverse_reverse]

theorem dropTrailing_map {f : α → α} (hf : ∀ c, p (f c) = p c) (cs : List α) :
    dropTrailing p (cs.map f) = (dropTrailing p cs).map f := by
  have hComp : p ∘ f = p := funext hf
  rw [dropTrailing, ← List.map_reverse, List.dropWhile_map, hComp, ← List.map_reverse, dropTrailing]

end DropTrailing

/-! ## Trimming -/

theorem exists_trimChars (cs : List Char) : ∃ before after,
    (∀ c ∈ before, isBlankChar c = true) ∧ (∀ c ∈ after, isBlankChar c = true) ∧
      cs = before ++ trimChars cs ++ after := by
  obtain ⟨after, hAfter, hSplit⟩ := exists_dropTrailing isBlankChar (cs.dropWhile isBlankChar)
  refine ⟨cs.takeWhile isBlankChar, after, List.all_eq_true.mp List.all_takeWhile, hAfter, ?_⟩
  rw [List.append_assoc, trimChars, ← hSplit, List.takeWhile_append_dropWhile]

theorem trimChars_append_append {before after : List Char} (cs : List Char)
    (hBefore : ∀ c ∈ before, isBlankChar c = true) (hAfter : ∀ c ∈ after, isBlankChar c = true) :
    trimChars (before ++ cs ++ after) = trimChars cs := by
  have hFront : before.dropWhile isBlankChar = [] := List.dropWhile_eq_nil_iff.mpr hBefore
  have hBack : after.dropWhile isBlankChar = [] := List.dropWhile_eq_nil_iff.mpr hAfter
  rw [trimChars, List.append_assoc, List.dropWhile_append, hFront, if_pos List.isEmpty_nil,
    List.dropWhile_append]
  split
  · -- Nothing but blank characters is left of either text.
    rename_i hNone
    rw [hBack, trimChars, List.isEmpty_iff.mp hNone]
  · rw [dropTrailing_append_of_all isBlankChar _ hAfter, trimChars]

theorem trimChars_trimChars (cs : List Char) : trimChars (trimChars cs) = trimChars cs := by
  obtain ⟨before, after, hBefore, hAfter, hSplit⟩ := exists_trimChars cs
  have hTrim := trimChars_append_append (trimChars cs) hBefore hAfter
  rw [← hSplit] at hTrim
  exact hTrim.symm

theorem trimChars_eq_nil_iff {cs : List Char} : trimChars cs = [] ↔ cs.all isBlankChar = true := by
  constructor
  · intro hNil
    obtain ⟨before, after, hBefore, hAfter, hSplit⟩ := exists_trimChars cs
    rw [hSplit, hNil, List.append_nil, List.all_append, List.all_eq_true.mpr hBefore,
      List.all_eq_true.mpr hAfter, Bool.and_self]
  · intro hAll
    have hFront : cs.dropWhile isBlankChar = [] :=
      List.dropWhile_eq_nil_iff.mpr (List.all_eq_true.mp hAll)
    rw [trimChars, hFront]
    rfl

theorem trim_append_append {before after : String} (s : String) (hBefore : isBlank before = true)
    (hAfter : isBlank after = true) : trim (before ++ s ++ after) = trim s := by
  rw [trim, String.toList_append, String.toList_append,
    trimChars_append_append _ (List.all_eq_true.mp hBefore) (List.all_eq_true.mp hAfter), trim]

/-- Trimming takes characters away unless it leaves the text as it is. -/
theorem trim_eq_self_of_length {s : String} (h : (trim s).toList.length = s.toList.length) :
    trim s = s := by
  rw [trim, String.toList_ofList] at h
  obtain ⟨before, after, -, -, hSplit⟩ := exists_trimChars s.toList
  have hLength := congrArg List.length hSplit
  simp only [List.length_append] at hLength
  obtain rfl : before = [] := List.eq_nil_of_length_eq_zero (by omega)
  obtain rfl : after = [] := List.eq_nil_of_length_eq_zero (by omega)
  rw [List.nil_append, List.append_nil] at hSplit
  rw [trim, ← hSplit, String.ofList_toList]

@[simp]
theorem trim_trim (s : String) : trim (trim s) = trim s := by
  rw [trim, trim, String.toList_ofList, trimChars_trimChars]

theorem trim_eq_empty_iff {s : String} : trim s = "" ↔ isBlank s = true := by
  rw [trim, isBlank, ← trimChars_eq_nil_iff, ← String.toList_inj, String.toList_ofList,
    String.toList_empty]

/-! ## Letters -/

/-- Only the ASCII capitals change in lower case. -/
theorem toLower_induction {P : Char → Char → Prop} (hSame : ∀ c, P c c)
    (hCapitals : ∀ n < 'Z'.toNat + 1, 'A'.toNat ≤ n → P (Char.ofNat n) (Char.ofNat n).toLower)
    (c : Char) : P c c.toLower := by
  by_cases hCapital : c.val ≥ 'A'.val ∧ c.val ≤ 'Z'.val
  · obtain ⟨hLow, hHigh⟩ := hCapital
    have hCode := hCapitals c.toNat (Nat.lt_succ_of_le hHigh) hLow
    rw [Char.ofNat_toNat] at hCode
    exact hCode
  · have hKept : c.toLower = c := dif_neg hCapital
    rw [hKept]
    exact hSame c

theorem isBlankChar_toLower (c : Char) : isBlankChar c.toLower = isBlankChar c :=
  toLower_induction (P := fun c d => isBlankChar d = isBlankChar c) (fun _ => rfl) (by decide) c

theorem map_toLower_trimChars (cs : List Char) :
    (trimChars cs).map Char.toLower = trimChars (cs.map Char.toLower) := by
  have hComp : isBlankChar ∘ Char.toLower = isBlankChar := funext isBlankChar_toLower
  rw [trimChars, trimChars, List.dropWhile_map, hComp, dropTrailing_map _ isBlankChar_toLower]

theorem sameLetters_iff {s t : String} :
    sameLetters s t = true ↔ s.toList.map Char.toLower = t.toList.map Char.toLower := by
  rw [sameLetters, beq_iff_eq]

theorem sameLetters_trans {s t u : String} (h : sameLetters s t = true)
    (h' : sameLetters t u = true) : sameLetters s u = true :=
  sameLetters_iff.mpr ((sameLetters_iff.mp h).trans (sameLetters_iff.mp h'))

theorem length_eq_of_sameLetters {s t : String} (h : sameLetters s t = true) :
    s.toList.length = t.toList.length := by
  simpa using congrArg List.length (sameLetters_iff.mp h)

theorem sameLetters_trim {s t : String} (h : sameLetters s t = true) :
    sameLetters (trim s) (trim t) = true := by
  rw [sameLetters_iff] at h ⊢
  rw [trim, trim, String.toList_ofList, String.toList_ofList, map_toLower_trimChars, h,
    map_toLower_trimChars]

end TranscodingEngines.Text
