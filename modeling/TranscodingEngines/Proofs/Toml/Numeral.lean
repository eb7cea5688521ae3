import Mathlib.Data.List.TakeWhile
import TranscodingEngines.Toml.Scalar

/-!
# Numbers read back

The decimal digits of a number are a word that is neither a truth value nor a moment nor a float, and
the integer that the word stands for is the number.
-/

set_option autoImplicit false

namespace TranscodingEngines.Toml

/-! ## Words of digits -/

def IsNumeral (word : List Char) : Prop := word ≠ [] ∧ ∀ c ∈ word, c.isDigit = true

def digitOf (c : Char) : Nat := c.toNat - '0'.toNat

theorem digitValue_of_isDigit {c : Char} (h : c.isDigit = true) :
    digitValue 10 c = some (digitOf c) := by
  simp only [Char.isDigit, Bool.and_eq_true, decide_eq_true_eq] at h
  have hRange : '0' ≤ c ∧ c ≤ '9' := h
  have hHigh : c.toNat ≤ '9'.toNat := h.2
  have hSmall : c.toNat - '0'.toNat < 10 := by
    have hNine : '9'.toNat = 57 := rfl
    have hZero : '0'.toNat = 48 := rfl
    omega
  rw [digitValue]
  simp only [if_pos hRange, if_pos hSmall, digitOf]

theorem digits_of_isDigit {word : List Char} (h : ∀ c ∈ word, c.isDigit = true) :
    digits 10 false word = some (word.map digitOf) := by
  induction word with
  | nil => rfl
  | cons c rest ih =>
    have hc := h c List.mem_cons_self
    have hMark : c ≠ '_' := by
      rintro rfl
      cases hc
    rw [digits.eq_3 10 false c rest hMark, digitValue_of_isDigit hc,
      ih fun x hx => h x (List.mem_cons_of_mem c hx)]
    rfl

namespace IsNumeral

variable {word : List Char} (h : IsNumeral word)

include h

theorem digits_eq : digits 10 true word = some (word.map digitOf) := by
  obtain ⟨hSome, hDigits⟩ := h
  cases word with
  | nil => exact absurd rfl hSome
  | cons c rest =>
    have hc := hDigits c List.mem_cons_self
    have hMark : c ≠ '_' := by
      rintro rfl
      cases hc
    rw [digits.eq_3 10 true c rest hMark, digitValue_of_isDigit hc,
      digits_of_isDigit fun x hx => hDigits x (List.mem_cons_of_mem c hx)]
    rfl

theorem not_mem {c : Char} (hc : c.isDigit = false) : c ∉ word := by
  intro hMem
  rw [h.2 c hMem] at hc
  cases hc

theorem splitSign_eq : splitSign word = (false, word) := by
  have hMinus := h.not_mem (c := '-') rfl
  have hPlus := h.not_mem (c := '+') rfl
  rw [splitSign.eq_3 word]
  · rintro rest rfl
    exact hMinus List.mem_cons_self
  · rintro rest rfl
    exact hPlus List.mem_cons_self

theorem not_isDate : isDate word = false := by
  have hMark := h.not_mem (c := '-') rfl
  rw [isDate.eq_2 word]
  rintro y₁ y₂ y₃ y₄ m₁ m₂ d₁ d₂ rfl
  exact hMark (by simp)

theorem not_isTime : isTime false word = false := by
  have hMark := h.not_mem (c := ':') rfl
  rw [isTime.eq_2 false word]
  rintro h₁ h₂ m₁ m₂ s₁ s₂ rest rfl
  exact hMark (by simp)

theorem not_isMoment : isMoment word = false := by
  have hT := h.not_mem (c := 'T') rfl
  have ht := h.not_mem (c := 't') rfl
  rw [isMoment, h.not_isDate, h.not_isTime]
  split
  · rename_i rest hDrop
    exact absurd (List.mem_of_mem_drop (hDrop ▸ List.mem_cons_self)) hT
  · rename_i rest hDrop
    exact absurd (List.mem_of_mem_drop (hDrop ▸ List.mem_cons_self)) ht
  · rfl

theorem magnitude?_eq : magnitude? word = none := by
  have hMark : word.takeWhile (!isExponentMark ·) = word := by
    rw [List.takeWhile_eq_self_iff]
    intro c hc
    have hE : c ≠ 'e' := by
      rintro rfl
      exact h.not_mem (c := 'e') rfl hc
    have hE' : c ≠ 'E' := by
      rintro rfl
      exact h.not_mem (c := 'E') rfl hc
    simp [isExponentMark, hE, hE']
  have hDot : word.takeWhile (· != '.') = word := by
    rw [List.takeWhile_eq_self_iff]
    intro c hc
    have hOther : c ≠ '.' := by
      rintro rfl
      exact h.not_mem (c := '.') rfl hc
    simp [hOther]
  rw [magnitude?]
  simp only [hMark, hDot, List.drop_length]
  cases decimalDigits word <;> rfl

theorem not_isFloat : isFloat word = false := by
  have hInf : word ≠ ['i', 'n', 'f'] := by
    rintro rfl
    exact h.not_mem (c := 'i') rfl List.mem_cons_self
  have hNan : word ≠ ['n', 'a', 'n'] := by
    rintro rfl
    exact h.not_mem (c := 'n') rfl List.mem_cons_self
  rw [isFloat, h.splitSign_eq]
  simp [hInf, hNan, h.magnitude?_eq]

theorem scalar?_eq : scalar? word = (integer? word).map .integer := by
  have hTrue : word ≠ ['t', 'r', 'u', 'e'] := by
    rintro rfl
    exact h.not_mem (c := 't') rfl List.mem_cons_self
  have hFalse : word ≠ ['f', 'a', 'l', 's', 'e'] := by
    rintro rfl
    exact h.not_mem (c := 'f') rfl List.mem_cons_self
  simp [scalar?, hTrue, hFalse, h.not_isMoment, h.not_isFloat]

theorem integer?_eq :
    integer? word = (decimalDigits word).bind fun ds => fitting (ofDigits 10 ds : Nat) := by
  have hx := h.not_mem (c := 'x') rfl
  have ho := h.not_mem (c := 'o') rfl
  have hb := h.not_mem (c := 'b') rfl
  rw [integer?.eq_4 word]
  · rw [h.splitSign_eq]
    rfl
  · rintro rest rfl
    exact hx (by simp)
  · rintro rest rfl
    exact ho (by simp)
  · rintro rest rfl
    exact hb (by simp)

end IsNumeral

/-! ## The digits of a number -/

theorem isNumeral_toDigits (n : Nat) : IsNumeral (Nat.toDigits 10 n) :=
  ⟨Nat.toDigits_ne_nil, fun _ hc => Nat.isDigit_of_mem_toDigits (by decide) (by decide) hc⟩

theorem ofDigits_toDigits (n : Nat) : ofDigits 10 ((Nat.toDigits 10 n).map digitOf) = n := by
  have hRead : Nat.ofDigitChars 10 (Nat.toDigits 10 n) 0 = n :=
    Nat.ofDigitChars_toDigits (by decide) (by decide)
  rw [ofDigits, List.foldl_map]
  refine Eq.trans ?_ hRead
  rw [Nat.ofDigitChars]
  congr 1
  funext m c
  rw [Nat.mul_comm]
  rfl

theorem head?_toDigits {n : Nat} (h : n ≠ 0) : (Nat.toDigits 10 n).head? ≠ some '0' := by
  induction n using Nat.strongRecOn with
  | ind n ih =>
    by_cases hSmall : n < 10
    · have hDigit : ∀ m < 10, m ≠ 0 → m.digitChar ≠ '0' := by decide
      rw [Nat.toDigits_of_lt_base hSmall, List.head?_cons]
      intro hEq
      exact hDigit n hSmall h (Option.some.inj hEq)
    · have hBase : 10 ≤ n := Nat.le_of_not_lt hSmall
      have hFirst := ih (n / 10) (by omega) (by omega)
      rw [Nat.toDigits_of_base_le (by decide) hBase]
      obtain ⟨c, rest, hDigits⟩ := List.exists_cons_of_ne_nil
        (Nat.toDigits_ne_nil : Nat.toDigits 10 (n / 10) ≠ [])
      rw [hDigits] at hFirst ⊢
      exact hFirst

theorem decimalDigits_toDigits (n : Nat) :
    decimalDigits (Nat.toDigits 10 n) = some ((Nat.toDigits 10 n).map digitOf) := by
  have hDigits := (isNumeral_toDigits n).digits_eq
  rw [decimalDigits, hDigits]
  by_cases h : n = 0
  · rw [h]
    rfl
  · have hHead := head?_toDigits h
    have hNumeral := (isNumeral_toDigits n).2
    generalize Nat.toDigits 10 n = word at hHead hNumeral
    cases word with
    | nil => rfl
    | cons c rest =>
      -- A first digit that is no zero has a value that is none.
      have hValue : digitOf c ≠ 0 := by
        have hc := hNumeral c List.mem_cons_self
        simp only [Char.isDigit, Bool.and_eq_true, decide_eq_true_eq] at hc
        have hLow : '0'.toNat ≤ c.toNat := hc.1
        intro hZero
        refine hHead (congrArg some (Char.toNat_inj.mp ?_))
        rw [digitOf] at hZero
        omega
      simp only [Option.bind_eq_bind, Option.bind_some, List.map_cons]
      split
      · rename_i hEq
        exact absurd (List.cons.inj hEq).1 hValue
      · rfl

def largestInteger : Nat := 9223372036854775807

theorem scalar?_toDigits {n : Nat} (h : n ≤ largestInteger) :
    scalar? (Nat.toDigits 10 n) = some (.integer n) := by
  have hFits : -9223372036854775808 ≤ (n : Int) ∧ (n : Int) ≤ 9223372036854775807 := by
    rw [largestInteger] at h
    omega
  rw [(isNumeral_toDigits n).scalar?_eq, (isNumeral_toDigits n).integer?_eq,
    decimalDigits_toDigits, Option.bind_some, ofDigits_toDigits, fitting, if_pos hFits]
  rfl

end TranscodingEngines.Toml
