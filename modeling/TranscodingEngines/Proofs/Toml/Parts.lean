import TranscodingEngines.Toml.Reader
import TranscodingEngines.Proofs.Toml.Numeral
import TranscodingEngines.Proofs.Toml.Quoted

/-!
# Keys and values read back

Every key and value that is written starts with a character that readers do not pass over, and ends
before one that cannot belong to it. So it is read back as it is, whatever follows.
-/

set_option autoImplicit false

namespace TranscodingEngines.Toml

/-! ## Starting with ink -/

/-- A character that no reader passes over on the way to something else. -/
def isInk (c : Char) : Bool := !isSpace c && c != '#' && c != '\n' && c != '\r'

def StartsWithInk (cs : List Char) : Prop := ∃ c rest, cs = c :: rest ∧ isInk c = true

namespace StartsWithInk

variable {cs : List Char}

theorem append (h : StartsWithInk cs) (more : List Char) : StartsWithInk (cs ++ more) := by
  obtain ⟨c, rest, rfl, hc⟩ := h
  exact ⟨c, rest ++ more, rfl, hc⟩

theorem skipSpace_eq (h : StartsWithInk cs) : skipSpace cs = cs := by
  obtain ⟨c, rest, rfl, hc⟩ := h
  have hSpace : isSpace c = false := by
    simp only [isInk, Bool.and_eq_true, Bool.not_eq_true'] at hc
    exact hc.1.1.1
  rw [skipSpace, List.dropWhile_cons_of_neg (ne_true_of_eq_false hSpace)]

theorem skipToBreak_eq (h : StartsWithInk cs) : skipToBreak cs = cs := by
  rw [skipToBreak, h.skipSpace_eq]
  obtain ⟨c, rest, rfl, hc⟩ := h
  refine skipComment.eq_2 _ fun _ hEq => ?_
  rw [(List.cons.inj hEq).1] at hc
  cases hc

theorem skipLines_of_skipToBreak (h : StartsWithInk cs) {blank : List Char}
    (hBlank : skipToBreak blank = cs) (rounds : Nat) : skipLines rounds blank = cs := by
  cases rounds with
  | zero => rw [skipLines, hBlank]
  | succ rounds =>
    rw [skipLines, hBlank]
    obtain ⟨c, rest, rfl, hc⟩ := h
    split
    · rename_i hEq
      rw [(List.cons.inj hEq).1] at hc
      cases hc
    · rename_i hEq
      rw [(List.cons.inj hEq).1] at hc
      cases hc
    · rfl

theorem skipGap_eq (h : StartsWithInk cs) : skipGap cs = cs :=
  h.skipLines_of_skipToBreak h.skipToBreak_eq _

theorem skipGap_break (h : StartsWithInk cs) (blanks : Nat) :
    skipGap ('\n' :: (List.replicate blanks ' ' ++ cs)) = cs := by
  have hSpace : skipSpace (List.replicate blanks ' ' ++ cs) = cs := by
    rw [skipSpace, List.dropWhile_append_of_pos]
    · exact h.skipSpace_eq
    · intro c hc
      rw [List.eq_of_mem_replicate hc]
      rfl
  have hBlank : skipToBreak (List.replicate blanks ' ' ++ cs) = cs := by
    have hInk := h.skipToBreak_eq
    rw [skipToBreak, h.skipSpace_eq] at hInk
    rw [skipToBreak, hSpace, hInk]
  exact h.skipLines_of_skipToBreak hBlank _

end StartsWithInk

/-- No quotation mark or apostrophe follows. -/
structure Unmarked (rest : List Char) : Prop where
  quote : NotHead '"' rest
  apostrophe : NotHead '\'' rest

theorem unmarked_cons {c : Char} (hQuote : c ≠ '"') (hApostrophe : c ≠ '\'') (rest : List Char) :
    Unmarked (c :: rest) := ⟨.cons hQuote _, .cons hApostrophe _⟩

theorem quote_starts (form : Form) (cs : List Char) :
    ∃ body, quote form cs = '"' :: body ∨ quote form cs = '\'' :: body := by
  cases form with
  | basic => exact ⟨_, .inl rfl⟩
  | literal => exact ⟨_, .inr rfl⟩
  | basicLines => exact ⟨_, .inl rfl⟩
  | literalLines => exact ⟨_, .inr rfl⟩

theorem quote_startsWithInk (form : Form) (cs : List Char) : StartsWithInk (quote form cs) := by
  obtain ⟨body, h | h⟩ := quote_starts form cs
  · exact ⟨'"', body, h, rfl⟩
  · exact ⟨'\'', body, h, rfl⟩

/-! ## Keys -/

theorem isInk_of_isBareChar {c : Char} (h : isBareChar c = true) : isInk c = true := by
  have hOther : ∀ d ∈ [' ', '\t', '#', '\n', '\r'], c ≠ d := by
    rintro d hd rfl
    simp only [List.mem_cons, List.not_mem_nil, or_false] at hd
    rcases hd with rfl | rfl | rfl | rfl | rfl <;> cases h
  simp only [List.forall_mem_cons] at hOther
  simp [isInk, isSpace, hOther]

theorem writeKey_toList (s : String) :
    (s.toList ≠ [] ∧ (∀ c ∈ s.toList, isBareChar c = true) ∧ (writeKey s).toList = s.toList) ∨
      (writeKey s).toList = quote (keyFormOf s.toList) s.toList := by
  rw [writeKey]
  split
  · rename_i h
    simp only [Bool.and_eq_true, Bool.not_eq_true', List.isEmpty_eq_false_iff, List.all_eq_true] at h
    exact .inl ⟨h.1, h.2, rfl⟩
  · exact .inr String.toList_ofList

/-- A key starts with a character of a bare key or with a mark, so nobody takes it for something
else. -/
theorem writeKey_starts (s : String) : ∃ c rest, (writeKey s).toList = c :: rest ∧
    isInk c = true ∧ c ≠ '[' := by
  rcases writeKey_toList s with ⟨hSome, hBare, hWritten⟩ | hWritten
  · obtain ⟨c, rest, hEq⟩ := List.exists_cons_of_ne_nil hSome
    have hc := hBare c (hEq ▸ List.mem_cons_self)
    refine ⟨c, rest, hWritten.trans hEq, isInk_of_isBareChar hc, ?_⟩
    rintro rfl
    cases hc
  · obtain ⟨body, h | h⟩ := quote_starts (keyFormOf s.toList) s.toList
    · exact ⟨'"', body, hWritten.trans h, rfl, by decide⟩
    · exact ⟨'\'', body, hWritten.trans h, rfl, by decide⟩

theorem writeKey_startsWithInk (s : String) : StartsWithInk (writeKey s).toList := by
  obtain ⟨c, rest, hEq, hc, _⟩ := writeKey_starts s
  exact ⟨c, rest, hEq, hc⟩

theorem keyPart_writeKey (s : String) {c : Char} (hEnd : isBareChar c = false) (rest : List Char) :
    keyPart ((writeKey s).toList ++ c :: rest) = some (s, c :: rest) := by
  rcases writeKey_toList s with ⟨hSome, hBare, hWritten⟩ | hWritten
  · have hLine : quotedLine (s.toList ++ c :: rest) = none := by
      obtain ⟨d, ds, hEq⟩ := List.exists_cons_of_ne_nil hSome
      have hd := hBare d (hEq ▸ List.mem_cons_self)
      rw [hEq, List.cons_append]
      refine quotedLine.eq_3 _ (fun _ hEq => ?_) (fun _ hEq => ?_)
      · rw [(List.cons.inj hEq).1] at hd
        cases hd
      · rw [(List.cons.inj hEq).1] at hd
        cases hd
    have hTake : (s.toList ++ c :: rest).takeWhile isBareChar = s.toList := by
      rw [List.takeWhile_append_of_pos hBare, List.takeWhile_cons_of_neg (ne_true_of_eq_false hEnd),
        List.append_nil]
    have hDrop : (s.toList ++ c :: rest).dropWhile isBareChar = c :: rest := by
      rw [List.dropWhile_append_of_pos hBare, List.dropWhile_cons_of_neg (ne_true_of_eq_false hEnd)]
    rw [hWritten, keyPart, hLine, hTake, hDrop]
    obtain ⟨d, ds, hEq⟩ := List.exists_cons_of_ne_nil hSome
    rw [hEq]
    simp only
    rw [← hEq, String.ofList_toList]
  · rw [hWritten, keyPart, quotedLine_quote_key]
    simp only [String.ofList_toList]

theorem key_writeKey (s : String) (rest : List Char) :
    key ((writeKey s).toList ++ ' ' :: '=' :: rest) = some ([s], '=' :: rest) := by
  have hInk := (writeKey_startsWithInk s).append (' ' :: '=' :: rest)
  have hPart := keyPart_writeKey s (c := ' ') rfl ('=' :: rest)
  rw [key, nestingLimit, keyParts, hInk.skipSpace_eq, hPart]
  rfl

def joinedKeys (path : List String) : List Char := (".".intercalate (path.map writeKey)).toList

theorem joinedKeys_singleton (s : String) : joinedKeys [s] = (writeKey s).toList := by
  rw [joinedKeys, List.map_singleton, String.intercalate_singleton]

theorem joinedKeys_cons_cons (s t : String) (path : List String) :
    joinedKeys (s :: t :: path) = (writeKey s).toList ++ '.' :: joinedKeys (t :: path) := by
  rw [joinedKeys, List.map_cons, List.map_cons, String.intercalate_cons_cons, String.toList_append,
    String.toList_append, List.append_assoc]
  rfl

theorem keyParts_joinedKeys {path : List String} (hSome : path ≠ []) {rounds : Nat}
    (hRounds : path.length ≤ rounds) (rest : List Char) :
    keyParts rounds (joinedKeys path ++ ']' :: rest) = some (path, ']' :: rest) := by
  induction path generalizing rounds with
  | nil => exact absurd rfl hSome
  | cons s path ih =>
    obtain ⟨rounds, rfl⟩ := Nat.exists_eq_add_one_of_ne_zero (Nat.ne_of_gt
      (Nat.lt_of_lt_of_le (Nat.succ_pos _) hRounds))
    have hInk := fun more => ((writeKey_startsWithInk s).append more).skipSpace_eq
    cases path with
    | nil =>
      rw [joinedKeys_singleton, keyParts, hInk, keyPart_writeKey s rfl]
      rfl
    | cons t path =>
      have hLater := ih (List.cons_ne_nil t path) (Nat.le_of_succ_le_succ hRounds)
      rw [joinedKeys_cons_cons, List.append_assoc, List.cons_append, keyParts, hInk,
        keyPart_writeKey s rfl]
      change (keyParts rounds (joinedKeys (t :: path) ++ ']' :: rest)).map _ = _
      rw [hLater]
      rfl

/-! ## Values -/

theorem writeString_toList (s : String) :
    (writeString s).toList = quote (formOf s.toList) s.toList := String.toList_ofList

theorem writeString_startsWithInk (s : String) : StartsWithInk (writeString s).toList := by
  rw [writeString_toList]
  exact quote_startsWithInk _ _

theorem value_writeString (steps depth : Nat) (s : String) {rest : List Char}
    (hRest : Unmarked rest) :
    value (steps + 1) depth ((writeString s).toList ++ rest) = some (.string s, rest) := by
  have hRead := quoted_quote (formOf_holds s.toList) hRest.quote hRest.apostrophe
  rw [← writeString_toList] at hRead
  obtain ⟨body, hBody⟩ := quote_starts (formOf s.toList) s.toList
  rw [← writeString_toList] at hBody
  rcases hBody with hBody | hBody
  · rw [hBody, List.cons_append] at hRead ⊢
    rw [value, hRead, Option.map_some, String.ofList_toList]
  · rw [hBody, List.cons_append] at hRead ⊢
    rw [value, hRead, Option.map_some, String.ofList_toList]

/-! ## Arrays -/

theorem items_close (steps depth : Nat) (rest : List Char) :
    items (steps + 1) depth (']' :: rest) = some ([], rest) := by
  rw [items]

theorem items_writeString (steps depth : Nat) (s : String) {rest : List Char}
    (hRest : Unmarked rest) :
    items (steps + 2) depth ((writeString s).toList ++ rest) =
      match skipGap rest with
      | ',' :: more =>
        (items (steps + 1) depth (skipGap more)).map fun found => (.string s :: found.1, found.2)
      | ']' :: more => some ([.string s], more)
      | _ => none := by
  have hOpen : ∀ more, (writeString s).toList ++ rest ≠ ']' :: more := by
    obtain ⟨body, hBody⟩ := quote_starts (formOf s.toList) s.toList
    rw [← writeString_toList] at hBody
    rintro more hEq
    rcases hBody with hBody | hBody
    · rw [hBody] at hEq
      cases (List.cons.inj hEq).1
    · rw [hBody] at hEq
      cases (List.cons.inj hEq).1
  rw [items.eq_3 depth _ (steps + 1) (fun more hEq => hOpen more hEq),
    value_writeString steps depth s hRest]
  rfl

/-- The items of an array, each on a line of its own, and the closing bracket. -/
def itemLines (texts : List String) (rest : List Char) : List Char :=
  match texts with
  | [] => ']' :: rest
  | text :: texts =>
    List.replicate 4 ' ' ++ ((writeString text).toList ++ ',' :: '\n' :: itemLines texts rest)

theorem items_itemLines {texts : List String} {steps : Nat} (hSteps : texts.length < steps)
    (depth : Nat) (rest : List Char) :
    items steps depth (skipGap ('\n' :: itemLines texts rest))
      = some (texts.map .string, rest) := by
  induction texts generalizing steps with
  | nil =>
    obtain ⟨steps, rfl⟩ := Nat.exists_eq_add_one_of_ne_zero (Nat.ne_of_gt hSteps)
    have hGap : skipGap ('\n' :: ']' :: rest) = ']' :: rest :=
      StartsWithInk.skipGap_break ⟨']', rest, rfl, rfl⟩ 0
    rw [itemLines, hGap, items_close]
    rfl
  | cons text texts ih =>
    obtain ⟨steps, rfl⟩ : ∃ k, steps = k + 2 :=
      ⟨steps - 2, by simp only [List.length_cons] at hSteps; omega⟩
    have hComma : skipGap (',' :: '\n' :: itemLines texts rest) = ',' :: '\n' :: itemLines texts rest :=
      StartsWithInk.skipGap_eq ⟨',', _, rfl, rfl⟩
    have hFewer : texts.length < steps + 1 := by
      simp only [List.length_cons] at hSteps
      omega
    have hLater := ih hFewer
    rw [itemLines, ((writeString_startsWithInk text).append _).skipGap_break 4,
      items_writeString steps depth text (unmarked_cons (by decide) (by decide) _), hComma]
    simp only [hLater]
    rfl

theorem writeArray_toList (texts : List String) (rest : List Char) :
    (writeArray texts).toList ++ rest = '[' :: (match texts with
      | [] => ']' :: rest
      | [text] => (writeString text).toList ++ ']' :: rest
      | texts => '\n' :: itemLines texts rest) := by
  have hLines : ∀ texts : List String, (String.join (texts.map fun text =>
      "    " ++ writeString text ++ ",\n")).toList ++ ']' :: rest = itemLines texts rest := by
    intro texts
    induction texts with
    | nil => rfl
    | cons text texts ih =>
      rw [List.map_cons, String.join_cons, String.toList_append, List.append_assoc, ih,
        String.toList_append, String.toList_append, List.append_assoc, List.append_assoc]
      rfl
  match texts with
  | [] => rfl
  | [text] =>
    rw [writeArray, String.toList_append, String.toList_append, List.append_assoc,
      List.append_assoc]
    rfl
  | text :: other :: texts =>
    rw [writeArray, String.toList_append, String.toList_append, List.append_assoc,
      List.append_assoc]
    · exact congrArg ('[' :: '\n' :: ·) (hLines (text :: other :: texts))
    · exact fun h => nomatch h
    · exact fun _ h => nomatch h

theorem value_writeArray {texts : List String} {steps : Nat} (hSteps : texts.length + 1 < steps)
    (depth : Nat) (rest : List Char) :
    value steps (depth + 1) ((writeArray texts).toList ++ rest)
      = some (.array (texts.map .string), rest) := by
  obtain ⟨steps, rfl⟩ : ∃ k, steps = k + 2 := ⟨steps - 2, by omega⟩
  rw [writeArray_toList]
  match texts with
  | [] =>
    have hGap : skipGap (']' :: rest) = ']' :: rest :=
      StartsWithInk.skipGap_eq ⟨']', rest, rfl, rfl⟩
    rw [value]
    simp only [hGap, items_close]
    rfl
  | [text] =>
    have hClose : skipGap (']' :: rest) = ']' :: rest :=
      StartsWithInk.skipGap_eq ⟨']', rest, rfl, rfl⟩
    obtain ⟨steps, rfl⟩ : ∃ k, steps = k + 1 :=
      ⟨steps - 1, by simp only [List.length_singleton] at hSteps; omega⟩
    rw [value]
    simp only [((writeString_startsWithInk text).append _).skipGap_eq,
      items_writeString steps depth text (unmarked_cons (c := ']') (by decide) (by decide) rest),
      hClose]
    rfl
  | text :: other :: texts =>
    have hItems := items_itemLines (Nat.lt_of_succ_lt_succ hSteps) depth rest
    rw [value]
    simp only [hItems]
    rfl

/-! ## Numbers -/

theorem isWordChar_of_isDigit {c : Char} (h : c.isDigit = true) : isWordChar c = true := by
  simp [isWordChar, Char.isAlphanum, h]

theorem value_of_isDigit (steps depth : Nat) {c : Char} (h : c.isDigit = true) (rest : List Char) :
    value (steps + 1) depth (c :: rest) = scalar (c :: rest) := by
  have hHead : ∀ (d : Char) (more : List Char), d.isDigit = false → c :: rest ≠ d :: more := by
    intro d more hd hEq
    rw [← (List.cons.inj hEq).1, h] at hd
    cases hd
  rw [value]
  · exact fun more => hHead '"' more rfl
  · exact fun more => hHead '\'' more rfl
  · exact fun more => hHead '[' more rfl
  · exact fun more => hHead '\x7b' more rfl

theorem toString_toList (n : Nat) : (toString n).toList = Nat.toDigits 10 n := by
  rw [Nat.toString_eq_repr, Nat.toList_repr]

theorem toString_startsWithInk (n : Nat) : StartsWithInk (toString n).toList := by
  obtain ⟨hSome, hDigits⟩ := isNumeral_toDigits n
  obtain ⟨c, rest, hEq⟩ := List.exists_cons_of_ne_nil hSome
  refine ⟨c, rest, (toString_toList n).trans hEq, isInk_of_isBareChar ?_⟩
  have hc := hDigits c (hEq ▸ List.mem_cons_self)
  simp [isBareChar, Char.isAlphanum, hc]

theorem value_toString (steps depth : Nat) {n : Nat} (h : n ≤ largestInteger) (rest : List Char) :
    value (steps + 1) depth ((toString n).toList ++ '\n' :: rest)
      = some (.integer n, '\n' :: rest) := by
  have hNumeral := isNumeral_toDigits n
  have hTake : (Nat.toDigits 10 n ++ '\n' :: rest).takeWhile isWordChar = Nat.toDigits 10 n := by
    rw [List.takeWhile_append_of_pos fun c hc => isWordChar_of_isDigit (hNumeral.2 c hc),
      List.takeWhile_cons_of_neg (by decide), List.append_nil]
  have hDrop : (Nat.toDigits 10 n ++ '\n' :: rest).dropWhile isWordChar = '\n' :: rest := by
    rw [List.dropWhile_append_of_pos fun c hc => isWordChar_of_isDigit (hNumeral.2 c hc),
      List.dropWhile_cons_of_neg (by decide)]
  have hScalar : scalar (Nat.toDigits 10 n ++ '\n' :: rest) = some (.integer n, '\n' :: rest) := by
    rw [scalar, hTake, hDrop, hNumeral.not_isDate]
    simp only [scalar?_toDigits h]
    rfl
  rw [toString_toList]
  obtain ⟨c, digits, hEq⟩ := List.exists_cons_of_ne_nil hNumeral.1
  have hc := hNumeral.2 c (hEq ▸ List.mem_cons_self)
  rw [hEq] at hScalar ⊢
  rw [List.cons_append] at hScalar ⊢
  rw [value_of_isDigit steps depth hc, hScalar]

end TranscodingEngines.Toml
