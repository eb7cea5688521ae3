import TranscodingEngines.Toml.Writer

/-!
# Quoted texts read back

Whatever a text holds, reading its quoted form gives it back and stops behind the closing marks. A
reader of several lines takes up to two marks before the closing ones as part of the text, so marks
that stand for themselves are followed through runs of at most two.
-/

set_option autoImplicit false

namespace TranscodingEngines.Toml

/-! ## Escapes -/

/-- The letters behind the backslash of a short escape, without the quotation mark. -/
def escapeLetters : List Char := ['b', 't', 'n', 'f', 'r', '\\']

/-- How a character other than a quotation mark is written between quotation marks. -/
inductive Escape (lines : Bool) (c : Char) : List Char → Prop
  | short {d : Char} (hLetter : d ∈ escapeLetters) (hShort : shortEscape d = some c) :
      Escape lines c ['\\', d]
  | line (hLines : lines = true) (hBreak : c = '\n') : Escape lines c ['\n']
  | code (hSmall : c.toNat < 128) : Escape lines c (codeEscape c)
  | plain (hPlain : isPlain c = true) (hSlash : c ≠ '\\') : Escape lines c [c]

theorem isPlain_of_visible {c : Char} (hLow : ¬ c < ' ') (hHigh : c ≠ '\x7f') :
    isPlain c = true := by
  have hLow : 32 ≤ c.toNat := Nat.le_of_not_lt hLow
  have hHigh : c.toNat ≠ 127 := fun h => hHigh (Char.toNat_inj.mp h)
  have hVisible : (' ' ≤ c ∧ c ≤ '~') ∨ '\x80' ≤ c := by
    change (32 ≤ c.toNat ∧ c.toNat ≤ 126) ∨ 128 ≤ c.toNat
    omega
  rw [isPlain]
  rcases hVisible with ⟨h, h'⟩ | h
  · simp [h, h']
  · simp [h]

theorem escaped_escape (lines : Bool) (c : Char) : Escape lines c (escaped lines c) := by
  rw [escaped]
  split
  · rename_i h
    exact .short (by decide) (by rw [h]; rfl)
  split
  · rename_i h
    exact .short (by decide) (by rw [h]; rfl)
  split
  · rename_i h
    split
    · rename_i hLines
      exact .line hLines h
    · exact .short (by decide) (by rw [h]; rfl)
  split
  · rename_i h
    exact .short (by decide) (by rw [h]; rfl)
  split
  · rename_i h
    exact .short (by decide) (by rw [h]; rfl)
  split
  · rename_i h
    exact .short (by decide) (by rw [h]; rfl)
  split
  · rename_i h
    rw [Bool.or_eq_true, decide_eq_true_eq, decide_eq_true_eq] at h
    refine .code ?_
    rcases h with hLow | rfl
    · exact Nat.lt_trans hLow (by decide)
    · decide
  · rename_i hSlash h
    rw [Bool.or_eq_true, decide_eq_true_eq, decide_eq_true_eq] at h
    obtain ⟨hLow, hHigh⟩ := not_or.mp h
    exact .plain (isPlain_of_visible hLow hHigh) hSlash

theorem codedChar_codeEscape {c : Char} (hSmall : c.toNat < 128) :
    codedChar [hexDigit (c.toNat / 4096 % 16), hexDigit (c.toNat / 256 % 16),
      hexDigit (c.toNat / 16 % 16), hexDigit (c.toNat % 16)] = some c := by
  have hAll : ∀ n < 128, codedChar [hexDigit (n / 4096 % 16), hexDigit (n / 256 % 16),
      hexDigit (n / 16 % 16), hexDigit (n % 16)] = some (Char.ofNat n) := by decide +kernel
  rw [hAll c.toNat hSmall, Char.ofNat_toNat]

/-! ## One line between quotation marks -/

theorem basicBody_escape {c : Char} (hMark : c ≠ '"') {written : List Char}
    (h : Escape false c written) (rest : List Char) :
    basicBody (written ++ rest) = before c (basicBody rest) := by
  cases h with
  | @short d hLetter hShort =>
    have hu : d ≠ 'u' := by
      rintro rfl
      cases hShort
    have hU : d ≠ 'U' := by
      rintro rfl
      cases hShort
    change basicBody ('\\' :: d :: rest) = _
    rw [basicBody.eq_5 d rest (fun _ _ _ _ _ h _ => hu h) (fun _ _ _ _ _ _ _ _ _ h _ => hU h),
      hShort]
    rfl
  | line hLines => cases hLines
  | code hSmall =>
    change basicBody ('\\' :: 'u' :: _ :: _ :: _ :: _ :: rest) = _
    rw [basicBody, codedChar_codeEscape hSmall]
    rfl
  | plain hPlain hSlash =>
    have hBasic : isBasicChar c = true := by simp [isBasicChar, hPlain, hMark, hSlash]
    change basicBody (c :: rest) = _
    rw [basicBody.eq_6 c rest hMark (fun _ _ _ _ _ h _ => hSlash h)
      (fun _ _ _ _ _ _ _ _ _ h _ => hSlash h) (fun _ _ h _ => hSlash h), if_pos hBasic]

theorem basicBody_escapeAll (run : Nat) (cs rest : List Char) :
    basicBody (escapeAll false 0 run cs ++ '"' :: rest) = some (cs, rest) := by
  induction cs generalizing run with
  | nil => rw [escapeAll, List.nil_append, basicBody]
  | cons c cs ih =>
    rw [escapeAll]
    split
    · rename_i hMark
      rw [if_neg (Nat.not_lt_zero run), hMark]
      change basicBody ('\\' :: '"' :: (escapeAll false 0 0 cs ++ '"' :: rest)) = _
      rw [basicBody.eq_5 '"' _ (fun _ _ _ _ _ h _ => by cases h)
        (fun _ _ _ _ _ _ _ _ _ h _ => by cases h), ih]
      rfl
    · rename_i hMark
      rw [List.append_assoc, basicBody_escape hMark (escaped_escape false c), ih]
      rfl

/-! ## One line between apostrophes -/

theorem literalBody_append {cs : List Char} (h : ∀ c ∈ cs, isLiteralChar c = true)
    (rest : List Char) : literalBody (cs ++ '\'' :: rest) = some (cs, rest) := by
  induction cs with
  | nil => rw [List.nil_append, literalBody]
  | cons c cs ih =>
    have hc := h c List.mem_cons_self
    have hMark : c ≠ '\'' := by
      rintro rfl
      cases hc
    rw [List.cons_append, literalBody.eq_3 c _ hMark, if_pos hc,
      ih fun x hx => h x (List.mem_cons_of_mem c hx)]
    rfl

/-! ## Several lines -/

/-- The text does not start with the character. -/
def NotHead (mark : Char) (cs : List Char) : Prop := ∀ rest, cs ≠ mark :: rest

theorem NotHead.cons {mark c : Char} (h : c ≠ mark) (cs : List Char) : NotHead mark (c :: cs) :=
  fun _ hEq => h (List.cons.inj hEq).1

/-- Puts some marks in front of what was read. -/
def beforeMarks (mark : Char) : Nat → Option (List Char × List Char) → Option (List Char × List Char)
  | 0, read => read
  | count + 1, read => before mark (beforeMarks mark count read)

theorem beforeMarks_some (mark : Char) (count : Nat) (cs rest : List Char) :
    beforeMarks mark count (some (cs, rest)) = some (List.replicate count mark ++ cs, rest) := by
  induction count with
  | zero => rfl
  | succ count ih =>
    rw [beforeMarks, ih]
    rfl

theorem basicLines_marks {count : Nat} (hCount : count ≤ 2) {cs : List Char}
    (h : NotHead '"' cs) :
    basicLines false (List.replicate count '"' ++ cs)
      = beforeMarks '"' count (basicLines false cs) := by
  match count, hCount with
  | 0, _ => rfl
  | 1, _ =>
    change basicLines false ('"' :: cs) = _
    rw [basicLines.eq_9 false cs (fun _ hEq => h _ hEq) (fun _ hEq => h _ hEq)
      (fun _ hEq => h _ hEq)]
    rfl
  | 2, _ =>
    change basicLines false ('"' :: '"' :: cs) = _
    rw [basicLines.eq_9 false _ (fun _ hEq => h _ (List.cons.inj hEq).2)
      (fun _ hEq => h _ (List.cons.inj hEq).2) (fun _ hEq => h _ (List.cons.inj hEq).2),
      basicLines.eq_9 false cs (fun _ hEq => h _ hEq) (fun _ hEq => h _ hEq)
      (fun _ hEq => h _ hEq)]
    rfl

theorem basicLines_close {count : Nat} (hCount : count ≤ 2) {rest : List Char}
    (h : NotHead '"' rest) :
    basicLines false (List.replicate count '"' ++ '"' :: '"' :: '"' :: rest)
      = some (List.replicate count '"', rest) := by
  match count, hCount with
  | 0, _ => exact basicLines.eq_8 false rest (fun _ hEq => h _ hEq) (fun _ hEq => h _ hEq)
  | 1, _ => exact basicLines.eq_7 false rest (fun _ hEq => h _ hEq)
  | 2, _ => exact basicLines.eq_6 false rest

theorem Escape.notHead {lines : Bool} {c : Char} (hMark : c ≠ '"') {written : List Char}
    (h : Escape lines c written) (rest : List Char) : NotHead '"' (written ++ rest) := by
  cases h with
  | short => exact .cons (by decide) _
  | line => exact .cons (by decide) _
  | code => exact .cons (by decide) _
  | plain => exact .cons hMark _

theorem endsLine_letter {d : Char} (hLetter : d ∈ escapeLetters) (rest : List Char) :
    endsLine (d :: rest) = false := by
  simp only [escapeLetters, List.mem_cons, List.not_mem_nil, or_false] at hLetter
  rcases hLetter with rfl | rfl | rfl | rfl | rfl | rfl <;> rfl

theorem basicLines_escape {c : Char} (hMark : c ≠ '"') {written : List Char}
    (h : Escape true c written) (rest : List Char) :
    basicLines false (written ++ rest) = before c (basicLines false rest) := by
  cases h with
  | @short d hLetter hShort =>
    have hu : d ≠ 'u' := by
      rintro rfl
      cases hShort
    have hU : d ≠ 'U' := by
      rintro rfl
      cases hShort
    have hGo : ¬ endsLine (d :: rest) = true := ne_true_of_eq_false (endsLine_letter hLetter rest)
    change basicLines false ('\\' :: d :: rest) = _
    rw [basicLines.eq_14 false d rest (fun _ _ _ _ _ h _ => hu h)
      (fun _ _ _ _ _ _ _ _ _ h _ => hU h), if_neg hGo, hShort]
    rfl
  | line _ hBreak =>
    rw [hBreak]
    exact basicLines.eq_11 false rest Bool.false_ne_true
  | code hSmall =>
    change basicLines false ('\\' :: 'u' :: _ :: _ :: _ :: _ :: rest) = _
    rw [basicLines.eq_12, codedChar_codeEscape hSmall]
    rfl
  | plain hPlain hSlash =>
    have hBasic : isBasicChar c = true := by simp [isBasicChar, hPlain, hMark, hSlash]
    have hBreak : c ≠ '\n' := by
      rintro rfl
      cases hPlain
    have hReturn : c ≠ '\r' := by
      rintro rfl
      cases hPlain
    change basicLines false (c :: rest) = _
    rw [basicLines.eq_15 false c rest (fun _ h _ => hMark h) (fun _ h _ => hMark h)
      (fun _ h _ => hMark h) hMark (fun _ h _ => hReturn h) hBreak (fun _ _ _ _ _ h _ => hSlash h)
      (fun _ _ _ _ _ _ _ _ _ h _ => hSlash h) (fun _ _ h _ => hSlash h)
      (fun h _ => Bool.false_ne_true h) (fun h _ => Bool.false_ne_true h)
      (fun h _ => Bool.false_ne_true h) (fun _ h _ _ => Bool.false_ne_true h), if_pos hBasic]

/-- The marks written since the last escape are read together with what follows them. -/
theorem basicLines_escapeAll {run : Nat} (hRun : run ≤ 2) (cs : List Char) {rest : List Char}
    (hRest : NotHead '"' rest) :
    basicLines false (List.replicate run '"'
      ++ (escapeAll true 2 run cs ++ '"' :: '"' :: '"' :: rest))
      = some (List.replicate run '"' ++ cs, rest) := by
  induction cs generalizing run with
  | nil =>
    rw [escapeAll, List.nil_append, basicLines_close hRun hRest, List.append_nil]
  | cons c cs ih =>
    have hShift : ∀ (after : List Char),
        List.replicate run '"' ++ '"' :: after = List.replicate (run + 1) '"' ++ after := by
      intro after
      rw [List.replicate_succ', List.append_assoc]
      rfl
    rw [escapeAll]
    split
    · rename_i hMark
      split
      · rename_i hFew
        rw [List.cons_append, hShift, ih hFew, hMark, hShift]
      · -- After two marks in a row the next one is escaped.
        have hNext := ih (Nat.zero_le 2)
        rw [List.replicate_zero, List.nil_append, List.nil_append] at hNext
        rw [List.cons_append, List.cons_append,
          basicLines_marks hRun (.cons (by decide) _),
          basicLines.eq_14 false '"' _ (fun _ _ _ _ _ h _ => by cases h)
            (fun _ _ _ _ _ _ _ _ _ h _ => by cases h), if_neg (by simp [endsLine, isSpace]), hNext,
          hMark]
        exact beforeMarks_some '"' run ('"' :: cs) rest
    · rename_i hMark
      have hNext := ih (Nat.zero_le 2)
      rw [List.replicate_zero, List.nil_append, List.nil_append] at hNext
      have hEscape := escaped_escape true c
      rw [List.append_assoc, basicLines_marks hRun (hEscape.notHead hMark _),
        basicLines_escape hMark hEscape, hNext]
      exact beforeMarks_some '"' run (c :: cs) rest

theorem literalLines_marks {count : Nat} (hCount : count ≤ 2) {cs : List Char}
    (h : NotHead '\'' cs) :
    literalLines (List.replicate count '\'' ++ cs) = beforeMarks '\'' count (literalLines cs) := by
  match count, hCount with
  | 0, _ => rfl
  | 1, _ =>
    change literalLines ('\'' :: cs) = _
    rw [literalLines.eq_5 cs (fun _ hEq => h _ hEq) (fun _ hEq => h _ hEq)
      (fun _ hEq => h _ hEq)]
    rfl
  | 2, _ =>
    change literalLines ('\'' :: '\'' :: cs) = _
    rw [literalLines.eq_5 _ (fun _ hEq => h _ (List.cons.inj hEq).2)
      (fun _ hEq => h _ (List.cons.inj hEq).2) (fun _ hEq => h _ (List.cons.inj hEq).2),
      literalLines.eq_5 cs (fun _ hEq => h _ hEq) (fun _ hEq => h _ hEq)
      (fun _ hEq => h _ hEq)]
    rfl

theorem literalLines_close {count : Nat} (hCount : count ≤ 2) {rest : List Char}
    (h : NotHead '\'' rest) :
    literalLines (List.replicate count '\'' ++ '\'' :: '\'' :: '\'' :: rest)
      = some (List.replicate count '\'', rest) := by
  match count, hCount with
  | 0, _ => exact literalLines.eq_4 rest (fun _ hEq => h _ hEq) (fun _ hEq => h _ hEq)
  | 1, _ => exact literalLines.eq_3 rest (fun _ hEq => h _ hEq)
  | 2, _ => exact literalLines.eq_2 rest

theorem le_longestRun (mark : Char) (run : Nat) (cs : List Char) : run ≤ longestRun mark run cs := by
  induction cs generalizing run with
  | nil => exact Nat.le_refl run
  | cons c cs ih =>
    rw [longestRun]
    split
    · exact Nat.le_of_succ_le (ih (run + 1))
    · exact Nat.le_max_left _ _

theorem literalLines_append {run : Nat} {cs : List Char}
    (hPlain : ∀ c ∈ cs, isPlain c = true ∨ c = '\n') (hRuns : longestRun '\'' run cs ≤ 2)
    {rest : List Char} (hRest : NotHead '\'' rest) :
    literalLines (List.replicate run '\'' ++ (cs ++ '\'' :: '\'' :: '\'' :: rest))
      = some (List.replicate run '\'' ++ cs, rest) := by
  have hRun : run ≤ 2 := Nat.le_trans (le_longestRun _ run cs) hRuns
  induction cs generalizing run with
  | nil => rw [List.nil_append, literalLines_close hRun hRest, List.append_nil]
  | cons c cs ih =>
    have hLater : ∀ x ∈ cs, isPlain x = true ∨ x = '\n' :=
      fun x hx => hPlain x (List.mem_cons_of_mem c hx)
    rw [longestRun] at hRuns
    split at hRuns
    · rename_i hMark
      have hNext := ih hLater hRuns (Nat.le_trans (le_longestRun _ _ cs) hRuns)
      rw [List.replicate_succ', List.append_assoc, List.append_assoc] at hNext
      rw [hMark]
      exact hNext
    · rename_i hMark
      have hNext := ih hLater (Nat.le_trans (Nat.le_max_right _ _) hRuns) (Nat.zero_le 2)
      rw [List.replicate_zero, List.nil_append, List.nil_append] at hNext
      rw [List.cons_append, literalLines_marks hRun (.cons hMark _)]
      have hRead : literalLines (c :: (cs ++ '\'' :: '\'' :: '\'' :: rest))
          = some (c :: cs, rest) := by
        rcases hPlain c List.mem_cons_self with hc | rfl
        · have hLiteral : isLiteralChar c = true := by simp [isLiteralChar, hc, hMark]
          have hBreak : c ≠ '\n' := by
            rintro rfl
            cases hc
          have hReturn : c ≠ '\r' := by
            rintro rfl
            cases hc
          rw [literalLines.eq_8 c _ (fun _ h _ => hMark h) (fun _ h _ => hMark h)
            (fun _ h _ => hMark h) hMark (fun _ h _ => hReturn h) hBreak, if_pos hLiteral, hNext]
          rfl
        · rw [literalLines, hNext]
          rfl
      rw [hRead]
      exact beforeMarks_some '\'' run (c :: cs) rest

/-! ## Opening marks -/

theorem Escape.notHead_of_not_isPlain {lines : Bool} {c mark : Char} (hBreak : c ≠ '\n')
    (hMark : isPlain mark = false) {written : List Char} (h : Escape lines c written)
    (rest : List Char) : NotHead mark (written ++ rest) := by
  have hSlash : '\\' ≠ mark := by
    rintro rfl
    cases hMark
  cases h with
  | short => exact .cons hSlash _
  | line _ hLine => exact absurd hLine hBreak
  | code => exact .cons hSlash _
  | plain hPlain =>
    refine .cons ?_ _
    rintro rfl
    rw [hMark] at hPlain
    cases hPlain

theorem escapeAll_notHead_of_not_isPlain {cs : List Char} (hBreak : '\n' ∉ cs) {mark : Char}
    (hMark : isPlain mark = false) (rest : List Char) :
    NotHead mark (escapeAll true 2 0 cs ++ '"' :: rest) := by
  have hQuote : '"' ≠ mark := by
    rintro rfl
    cases hMark
  cases cs with
  | nil => exact .cons hQuote _
  | cons c cs =>
    rw [escapeAll]
    split
    · exact .cons hQuote _
    · have hc : c ≠ '\n' := by
        rintro rfl
        exact hBreak List.mem_cons_self
      rw [List.append_assoc]
      exact (escaped_escape true c).notHead_of_not_isPlain hc hMark _

theorem append_notHead_of_not_isPlain {cs : List Char}
    (hPlain : ∀ c ∈ cs, isPlain c = true ∨ c = '\n') (hBreak : '\n' ∉ cs) {mark : Char}
    (hMark : isPlain mark = false) (rest : List Char) : NotHead mark (cs ++ '\'' :: rest) := by
  cases cs with
  | nil =>
    refine .cons ?_ _
    rintro rfl
    cases hMark
  | cons c cs =>
    refine .cons ?_ _
    rintro rfl
    rcases hPlain c List.mem_cons_self with hc | rfl
    · rw [hMark] at hc
      cases hc
    · exact hBreak List.mem_cons_self

/-- A line break right behind the opening marks is dropped, and a text that holds a line break gets
one there. -/
theorem afterBreak_opening {cs body : List Char}
    (h : '\n' ∉ cs → ∀ mark, isPlain mark = false → NotHead mark body) :
    afterBreak (opening cs ++ body) = body := by
  rw [opening]
  split
  · rfl
  · rename_i hNone
    have hNone : '\n' ∉ cs := fun hMem => hNone (List.contains_iff_mem.mpr hMem)
    exact afterBreak.eq_3 body (fun _ hEq => h hNone '\n' rfl _ hEq)
      (fun _ hEq => h hNone '\r' rfl _ hEq)

/-! ## Forms -/

def Form.Holds (cs : List Char) : Form → Prop
  | .basic => True
  | .literal => ∀ c ∈ cs, isLiteralChar c = true
  | .basicLines => True
  | .literalLines => (∀ c ∈ cs, isPlain c = true ∨ c = '\n') ∧ longestRun '\'' 0 cs ≤ 2

theorem escapeAll_notHead {cs : List Char} (hSome : cs ≠ []) (rest : List Char) :
    NotHead '"' (escapeAll false 0 0 cs ++ rest) := by
  cases cs with
  | nil => exact absurd rfl hSome
  | cons c cs =>
    rw [escapeAll]
    split
    · exact .cons (by decide) _
    · rename_i hMark
      rw [List.append_assoc]
      exact (escaped_escape false c).notHead hMark _

theorem quoted_of_basic {cs : List Char} (h : ∀ rest, cs ≠ '"' :: '"' :: rest) :
    quoted ('"' :: cs) = basicBody cs := by
  rw [quoted.eq_3 ('"' :: cs) (fun _ hEq => h _ (List.cons.inj hEq).2)
    (fun _ hEq => by cases (List.cons.inj hEq).1), quotedLine]

theorem quoted_of_literal {cs : List Char} (h : ∀ rest, cs ≠ '\'' :: '\'' :: rest) :
    quoted ('\'' :: cs) = literalBody cs := by
  rw [quoted.eq_3 ('\'' :: cs) (fun _ hEq => by cases (List.cons.inj hEq).1)
    (fun _ hEq => h _ (List.cons.inj hEq).2), quotedLine]

/-- A text quoted in a form that can hold it is read back, if no further mark follows. -/
theorem quoted_quote {cs : List Char} {form : Form} (h : form.Holds cs) {rest : List Char}
    (hQuote : NotHead '"' rest) (hApostrophe : NotHead '\'' rest) :
    quoted (quote form cs ++ rest) = some (cs, rest) := by
  cases form with
  | basic =>
    have hWritten : quote .basic cs ++ rest
        = '"' :: (escapeAll false 0 0 cs ++ '"' :: rest) := by simp [quote]
    rw [hWritten, quoted_of_basic ?_, basicBody_escapeAll]
    cases cs with
    | nil => exact fun _ hEq => hQuote _ (List.cons.inj hEq).2
    | cons c cs => exact fun _ hEq => escapeAll_notHead (List.cons_ne_nil c cs) _ _ hEq
  | literal =>
    have hWritten : quote .literal cs ++ rest = '\'' :: (cs ++ '\'' :: rest) := by simp [quote]
    rw [hWritten, quoted_of_literal ?_, literalBody_append h]
    cases cs with
    | nil => exact fun _ hEq => hApostrophe _ (List.cons.inj hEq).2
    | cons c cs =>
      intro _ hEq
      have hc := h c List.mem_cons_self
      rw [(List.cons.inj hEq).1] at hc
      cases hc
  | basicLines =>
    have hWritten : quote .basicLines cs ++ rest = '"' :: '"' :: '"'
        :: (opening cs ++ (escapeAll true 2 0 cs ++ '"' :: '"' :: '"' :: rest)) := by
      simp [quote]
    rw [hWritten, quoted, afterBreak_opening fun hBreak mark hMark =>
      escapeAll_notHead_of_not_isPlain hBreak hMark _]
    exact basicLines_escapeAll (Nat.zero_le 2) cs hQuote
  | literalLines =>
    have hWritten : quote .literalLines cs ++ rest = '\'' :: '\'' :: '\''
        :: (opening cs ++ (cs ++ '\'' :: '\'' :: '\'' :: rest)) := by
      simp [quote]
    rw [hWritten, quoted, afterBreak_opening fun hBreak mark hMark =>
      append_notHead_of_not_isPlain h.1 hBreak hMark _]
    exact literalLines_append h.1 h.2 hApostrophe

theorem isPlain_of_not_isControl {c : Char} (h : isControl c = false) :
    isPlain c = true ∨ c = '\n' := by
  simp only [isControl, Bool.or_eq_false_iff, Bool.and_eq_false_iff, decide_eq_false_iff_not,
    bne_eq_false_iff_eq, beq_eq_false_iff_ne] at h
  obtain ⟨(hLow | rfl) | rfl, hHigh⟩ := h
  · exact .inl (isPlain_of_visible hLow hHigh)
  · exact .inl rfl
  · exact .inr rfl

theorem not_mem_of_longestRun_eq_zero {mark : Char} {cs : List Char}
    (h : longestRun mark 0 cs = 0) : mark ∉ cs := by
  induction cs with
  | nil => exact List.not_mem_nil
  | cons c cs ih =>
    rw [longestRun] at h
    split at h
    · have hRun := le_longestRun mark 1 cs
      rw [h] at hRun
      exact absurd hRun (by decide)
    · rename_i hMark
      intro hMem
      rcases List.mem_cons.mp hMem with rfl | hMem
      · exact hMark rfl
      · have hLater := Nat.le_max_right 0 (longestRun mark 0 cs)
        rw [h] at hLater
        exact ih (Nat.le_zero.mp hLater) hMem

theorem isPlain_of_mem {cs : List Char} (h : cs.any isControl = false) :
    ∀ c ∈ cs, isPlain c = true ∨ c = '\n' :=
  fun c hc => isPlain_of_not_isControl (eq_false_of_ne_true (List.any_eq_false.mp h c hc))

theorem isLiteralChar_of_mem {cs : List Char} (h : cs.any isControl = false) (hBreak : '\n' ∉ cs)
    (hMark : '\'' ∉ cs) : ∀ c ∈ cs, isLiteralChar c = true := by
  intro c hc
  have hOther : c ≠ '\'' := by
    rintro rfl
    exact hMark hc
  rcases isPlain_of_mem h c hc with hPlain | rfl
  · simp [isLiteralChar, hPlain, hOther]
  · exact absurd hc hBreak

theorem formOf_holds (cs : List Char) : (formOf cs).Holds cs := by
  rw [formOf]
  split
  · trivial
  split
  · rename_i h
    simp only [Bool.and_eq_true, Bool.not_eq_true', decide_eq_true_eq] at h
    obtain ⟨⟨hControls, hRuns⟩, hBreaks⟩ := h
    refine isLiteralChar_of_mem hControls ?_ (not_mem_of_longestRun_eq_zero hRuns)
    simpa using hBreaks
  split
  · trivial
  split
  · rename_i h
    simp only [Bool.and_eq_true, Bool.not_eq_true', decide_eq_true_eq] at h
    exact ⟨isPlain_of_mem h.1, h.2⟩
  split <;> trivial

/-! ## Keys in one line -/

theorem quotedLine_quote_basic (cs rest : List Char) :
    quotedLine (quote .basic cs ++ rest) = some (cs, rest) := by
  have hWritten : quote .basic cs ++ rest
      = '"' :: (escapeAll false 0 0 cs ++ '"' :: rest) := by simp [quote]
  rw [hWritten, quotedLine, basicBody_escapeAll]

theorem quotedLine_quote_literal {cs : List Char} (h : ∀ c ∈ cs, isLiteralChar c = true)
    (rest : List Char) : quotedLine (quote .literal cs ++ rest) = some (cs, rest) := by
  have hWritten : quote .literal cs ++ rest = '\'' :: (cs ++ '\'' :: rest) := by simp [quote]
  rw [hWritten, quotedLine, literalBody_append h]

theorem quotedLine_quote_key (cs rest : List Char) :
    quotedLine (quote (keyFormOf cs) cs ++ rest) = some (cs, rest) := by
  rw [keyFormOf]
  split
  · exact quotedLine_quote_basic cs rest
  split
  · rename_i h
    simp only [Bool.and_eq_true, Bool.not_eq_true', List.any_eq_false, Bool.or_eq_true, beq_iff_eq,
      not_or, Bool.not_eq_true] at h
    obtain ⟨hControls, hMark⟩ := h
    refine quotedLine_quote_literal (isLiteralChar_of_mem ?_ ?_ (by simpa using hMark)) rest
    · exact List.any_eq_false.mpr fun c hc => ne_true_of_eq_false (hControls c hc).1
    · exact fun hMem => (hControls _ hMem).2 rfl
  · exact quotedLine_quote_basic cs rest

end TranscodingEngines.Toml
