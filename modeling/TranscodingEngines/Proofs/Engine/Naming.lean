import TranscodingEngines.Engine.Id
import TranscodingEngines.Proofs.Text.Trim

/-!
# How raw texts name engines

A raw text names an identifier when it spells it in letters of any case with blank characters around
it. Texts that name one identifier name every identifier that is the same. An identifier spelt by a
text that is not blank is named by no blank text.
-/

set_option autoImplicit false

namespace TranscodingEngines

namespace EngineId

variable {a b : EngineId} {raw : String}

theorem same_trans {c : EngineId} (h : a.same b = true) (h' : b.same c = true) :
    a.same c = true :=
  Text.sameLetters_trans h h'

theorem same_of_isNamedBy (ha : a.isNamedBy raw = true) (hb : b.isNamedBy raw = true) :
    a.same b = true := by
  rw [isNamedBy, Text.sameLetters_comm] at hb
  exact Text.sameLetters_trans ha hb

/-- The identifier is made from a text that is not blank. -/
def IsSpelt (a : EngineId) : Prop := ∃ s, Text.isBlank s = false ∧ a = .ofText s

/-- The raw text is that of the identifier in letters of any case, between blank characters. -/
def RespeltBy (a : EngineId) (raw : String) : Prop :=
  ∃ before core after, Text.isBlank before = true ∧ Text.isBlank after = true ∧
    Text.sameLetters a.text core = true ∧ raw = before ++ core ++ after

theorem IsSpelt.trim_text (h : a.IsSpelt) : Text.trim a.text = a.text := by
  obtain ⟨s, _, rfl⟩ := h
  exact Text.trim_trim s

theorem IsSpelt.isNamedBy_iff (h : a.IsSpelt) : a.isNamedBy raw = true ↔ a.RespeltBy raw := by
  constructor
  · intro hName
    obtain ⟨before, after, hBefore, hAfter, hSplit⟩ := Text.exists_trimChars raw.toList
    refine ⟨String.ofList before, Text.trim raw, String.ofList after, ?_, ?_, hName, ?_⟩
    · rw [Text.isBlank, String.toList_ofList, List.all_eq_true]
      exact hBefore
    · rw [Text.isBlank, String.toList_ofList, List.all_eq_true]
      exact hAfter
    · rw [← String.toList_inj, Text.trim, String.toList_append, String.toList_append,
        String.toList_ofList, String.toList_ofList, String.toList_ofList, ← hSplit]
  · rintro ⟨before, core, after, hBefore, hAfter, hCore, rfl⟩
    have hLetters := Text.sameLetters_trim hCore
    rw [h.trim_text, ← Text.trim_append_append core hBefore hAfter] at hLetters
    exact hLetters

theorem IsSpelt.isNamedBy_of_isBlank (h : a.IsSpelt) (hBlank : Text.isBlank raw = true) :
    a.isNamedBy raw = false := by
  obtain ⟨s, hInk, rfl⟩ := h
  rw [isNamedBy, Text.trim_eq_empty_iff.mpr hBlank]
  by_contra hName
  -- Letters in another case are as many, so the trimmed text would be empty.
  have hLetters := Text.sameLetters_iff.mp (eq_true_of_ne_false hName)
  rw [String.toList_empty, List.map_nil, List.map_eq_nil_iff, String.toList_eq_nil_iff] at hLetters
  rw [Text.trim_eq_empty_iff.mp hLetters] at hInk
  cases hInk

end EngineId

end TranscodingEngines
