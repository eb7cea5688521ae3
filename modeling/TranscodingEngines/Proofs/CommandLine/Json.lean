import TranscodingEngines.CommandLine.Display
import TranscodingEngines.Toml.Quoted

/-!
# Reading a listing in JSON

A list of objects whose members are texts, truth values or nothing is read back from its text: the
text is cut into marks and values, wherever its blanks and line feeds stand, and the marks say which
values make up a member and which members make up an object. The reader knows nothing of how the
listing is laid out. Numbers, nested objects and empty ones, which no listing has, are not read.
-/

set_option autoImplicit false

namespace TranscodingEngines

namespace CommandLine

namespace Json

inductive Value where
  | null
  | bool (b : Bool)
  | text (s : String)
  deriving DecidableEq, Repr

inductive Token where
  | mark (c : Char)
  | value (v : Value)
  deriving DecidableEq, Repr

/-- Where a reader is: between the tokens, within a text of which something was read, behind a
backslash in it, or behind some digits of a code in it. What was read of a text stands backwards. -/
inductive State where
  | between
  | within (read : List Char)
  | escaped (read : List Char)
  | coded (read digits : List Char)

def scan : State → List Char → Option (List Token)
  | .between, [] => some []
  | .between, 'n' :: 'u' :: 'l' :: 'l' :: rest => (scan .between rest).map (.value .null :: ·)
  | .between, 't' :: 'r' :: 'u' :: 'e' :: rest =>
    (scan .between rest).map (.value (.bool true) :: ·)
  | .between, 'f' :: 'a' :: 'l' :: 's' :: 'e' :: rest =>
    (scan .between rest).map (.value (.bool false) :: ·)
  | .between, c :: rest =>
    if c = '"' then scan (.within []) rest
    else if c = ' ' ∨ c = '\n' then scan .between rest
    else (scan .between rest).map (.mark c :: ·)
  | .within read, c :: rest =>
    if c = '"' then
      (scan .between rest).map (.value (.text (String.ofList read.reverse)) :: ·)
    else if c = '\\' then scan (.escaped read) rest
    else scan (.within (c :: read)) rest
  | .escaped read, c :: rest =>
    if c = 'u' then scan (.coded read []) rest
    else (Toml.shortEscape c).bind fun char => scan (.within (char :: read)) rest
  | .coded read digits, c :: rest =>
    if digits.length < 3 then scan (.coded read (digits ++ [c])) rest
    else (Toml.codedChar (digits ++ [c])).bind fun char => scan (.within (char :: read)) rest
  | _, [] => none

abbrev Object := List (String × Value)

/-- Reads objects up to the end of their list, where some members of the first one were read. -/
def objects (read : Object) : List Token → Option (List Object)
  | .value (.text key) :: .mark ':' :: .value v :: .mark ',' :: rest =>
    objects (read ++ [(key, v)]) rest
  | .value (.text key) :: .mark ':' :: .value v :: .mark '}' :: .mark ',' :: .mark '{' :: rest =>
    (objects [] rest).map ((read ++ [(key, v)]) :: ·)
  | [.value (.text key), .mark ':', .value v, .mark '}', .mark ']'] => some [read ++ [(key, v)]]
  | _ => none

def listed : List Token → Option (List Object)
  | [.mark '[', .mark ']'] => some []
  | .mark '[' :: .mark '{' :: rest => objects [] rest
  | _ => none

def read? (lines : List String) : Option (List Object) :=
  (scan .between ("\n".intercalate lines).toList).bind listed

/-! ## Tokens -/

/-- The characters are read as the tokens, whatever follows them. -/
def Emits (cs : List Char) (ts : List Token) : Prop :=
  ∀ rest, scan .between (cs ++ rest) = (scan .between rest).map (ts ++ ·)

theorem Emits.append {cs ds : List Char} {ts us : List Token} (h : Emits cs ts)
    (h' : Emits ds us) : Emits (cs ++ ds) (ts ++ us) := by
  intro rest
  rw [List.append_assoc, h, h', Option.map_map]
  congr 1
  funext more
  exact (List.append_assoc ts us more).symm

theorem Emits.scan_eq {cs : List Char} {ts : List Token} (h : Emits cs ts) :
    scan .between cs = some ts := by
  have hAll := h []
  rw [List.append_nil, scan, Option.map_some, List.append_nil] at hAll
  exact hAll

theorem Emits.intercalate {α : Type} {f : α → List Char} {g : α → List Token} {sep : List Char}
    {mark : List Token} (hSep : Emits sep mark) (xs : List α) (h : ∀ x ∈ xs, Emits (f x) (g x)) :
    Emits (sep.intercalate (xs.map f)) (mark.intercalate (xs.map g)) := by
  induction xs with
  | nil => exact fun rest => by simp [List.intercalate]
  | cons x rest ih =>
    have hFirst := h x List.mem_cons_self
    cases rest with
    | nil => simpa only [List.map_cons, List.map_nil, List.intercalate_singleton] using hFirst
    | cons y more =>
      simp only [List.map_cons, List.intercalate_cons_cons] at ih ⊢
      exact (hFirst.append hSep).append (ih fun z hz => h z (List.mem_cons_of_mem x hz))

theorem hexDigits_of_lt {n : Nat} (h : n < 0x20) : (Text.hexDigits n).toList
    = if n < 0x10 then [n.digitChar] else ['1', (n - 0x10).digitChar] := by
  have hAll : ∀ n < 0x20, Nat.toDigits 16 n
      = if n < 0x10 then [n.digitChar] else ['1', (n - 0x10).digitChar] := by decide +kernel
  rw [Text.hexDigits, String.toList_ofList, hAll n h]

theorem codedChar_of_lt {n : Nat} (h : n < 0x10) :
    Toml.codedChar ['0', '0', '0', n.digitChar] = some (Char.ofNat n) ∧
      Toml.codedChar ['0', '0', '1', n.digitChar] = some (Char.ofNat (n + 0x10)) := by
  have hAll : ∀ n < 0x10, Toml.codedChar ['0', '0', '0', n.digitChar] = some (Char.ofNat n) ∧
      Toml.codedChar ['0', '0', '1', n.digitChar] = some (Char.ofNat (n + 0x10)) := by
    decide +kernel
  exact hAll n h

theorem scan_code {code : String} {a b c d char : Char} (hCode : code.toList = [a, b, c, d])
    (hChar : Toml.codedChar [a, b, c, d] = some char) (read rest : List Char) :
    scan (.within read) (("\\u" ++ code).toList ++ rest) = scan (.within (char :: read)) rest := by
  rw [String.toList_append, hCode]
  change (Toml.codedChar [a, b, c, d]).bind _ = _
  rw [hChar]
  rfl

theorem scan_small {c : Char} (hSmall : c.toNat < 0x10) (read rest : List Char) :
    scan (.within read) (("\\u000" ++ Text.hexDigits c.toNat).toList ++ rest)
      = scan (.within (c :: read)) rest := by
  have hDigits := hexDigits_of_lt (Nat.lt_trans hSmall (by decide))
  rw [if_pos hSmall] at hDigits
  have hChar := (codedChar_of_lt hSmall).1
  rw [Char.ofNat_toNat] at hChar
  have hCode : ("000" ++ Text.hexDigits c.toNat).toList = ['0', '0', '0', c.toNat.digitChar] := by
    rw [String.toList_append, hDigits]
    rfl
  rw [← scan_code hCode hChar read rest, ← String.append_assoc]
  rfl

theorem scan_control {c : Char} (hLarge : ¬ c.toNat < 0x10) (hSmall : c.toNat < 0x20)
    (read rest : List Char) :
    scan (.within read) (("\\u00" ++ Text.hexDigits c.toNat).toList ++ rest)
      = scan (.within (c :: read)) rest := by
  have hDigits := hexDigits_of_lt hSmall
  rw [if_neg hLarge] at hDigits
  have hLow : c.toNat - 0x10 < 0x10 := by omega
  have hChar := (codedChar_of_lt hLow).2
  rw [Nat.sub_add_cancel (Nat.le_of_not_lt hLarge), Char.ofNat_toNat] at hChar
  have hCode : ("00" ++ Text.hexDigits c.toNat).toList
      = ['0', '0', '1', (c.toNat - 0x10).digitChar] := by
    rw [String.toList_append, hDigits]
    rfl
  rw [← scan_code hCode hChar read rest, ← String.append_assoc]
  rfl

theorem scan_jsonChar (read : List Char) (c : Char) (rest : List Char) :
    scan (.within read) ((Text.jsonChar c).toList ++ rest) = scan (.within (c :: read)) rest := by
  rw [Text.jsonChar]
  by_cases hShort : c = '"' ∨ c = '\\' ∨ c = '\x08' ∨ c = '\x0c' ∨ c = '\n' ∨ c = '\r' ∨ c = '\t'
  · rcases hShort with rfl | rfl | rfl | rfl | rfl | rfl | rfl <;> rfl
  · simp only [not_or] at hShort
    obtain ⟨hQuote, hBackslash, hBack, hForm, hLine, hReturn, hTab⟩ := hShort
    rw [if_neg hQuote, if_neg hBackslash, if_neg hBack, if_neg hForm, if_neg hLine, if_neg hReturn,
      if_neg hTab]
    split
    · rename_i hSmall
      exact scan_small hSmall read rest
    · rename_i hLarge
      split
      · rename_i hSmall
        exact scan_control hLarge hSmall read rest
      · rw [String.toList_singleton, List.singleton_append, scan, if_neg hQuote, if_neg hBackslash]

theorem scan_jsonChars (read cs rest : List Char) :
    scan (.within read) ((String.join (cs.map Text.jsonChar)).toList ++ '"' :: rest)
      = (scan .between rest).map (.value (.text (String.ofList (read.reverse ++ cs))) :: ·) := by
  induction cs generalizing read with
  | nil => rw [List.append_nil]; rfl
  | cons c cs ih =>
    rw [List.map_cons, String.join_cons, String.toList_append, List.append_assoc, scan_jsonChar, ih,
      List.reverse_cons, List.append_assoc, List.singleton_append]

theorem emits_jsonString (s : String) :
    Emits (Text.jsonString s).toList [.value (.text s)] := by
  intro rest
  rw [Text.jsonString, String.toList_append, String.toList_append, List.append_assoc,
    List.append_assoc]
  refine (scan_jsonChars [] s.toList rest).trans ?_
  rw [List.reverse_nil, List.nil_append, String.ofList_toList]
  rfl

/-! ## Writing -/

def Value.written : Value → String
  | .null => "null"
  | .bool b => jsonBool b
  | .text s => Text.jsonString s

def Value.ofOption : Option String → Value
  | none => .null
  | some s => .text s

theorem written_ofOption (o : Option String) : (Value.ofOption o).written = jsonOptional o := by
  cases o <;> rfl

theorem emits_written (v : Value) : Emits v.written.toList [.value v] := by
  cases v with
  | null => exact fun _ => rfl
  | bool b => cases b <;> exact fun _ => rfl
  | text s => exact emits_jsonString s

def memberTokens (m : String × Value) : List Token :=
  [.value (.text m.1), .mark ':', .value m.2]

def objectTokens (o : Object) : List Token :=
  .mark '\x7b' :: [.mark ','].intercalate (o.map memberTokens) ++ [.mark '\x7d']

def memberText (m : String × Value) : String :=
  "    " ++ Text.jsonString m.1 ++ ": " ++ m.2.written

def objectText (o : Object) : String :=
  "  \x7b\n" ++ ",\n".intercalate (o.map memberText) ++ "\n  \x7d"

theorem emits_separator : Emits ",\n".toList [.mark ','] := fun _ => rfl

theorem emits_member (m : String × Value) : Emits (memberText m).toList (memberTokens m) := by
  have hIndent : Emits "    ".toList [] := fun rest => by
    rw [show (fun ts : List Token => [] ++ ts) = id from rfl, Option.map_id]
    rfl
  have hColon : Emits ": ".toList [.mark ':'] := fun _ => rfl
  rw [memberText, String.toList_append, String.toList_append, String.toList_append]
  exact ((hIndent.append (emits_jsonString m.1)).append hColon).append (emits_written m.2)

theorem emits_object (o : Object) : Emits (objectText o).toList (objectTokens o) := by
  have hOpening : Emits "  \x7b\n".toList [.mark '\x7b'] := fun _ => rfl
  have hClosing : Emits "\n  \x7d".toList [.mark '\x7d'] := fun _ => rfl
  have hMembers := emits_separator.intercalate o fun m _ => emits_member m
  rw [objectText, String.toList_append, String.toList_append, String.toList_intercalate,
    List.map_map]
  exact (hOpening.append hMembers).append hClosing

/-! ## Objects -/

theorem objects_members (read o : Object) (m : String × Value) (rest : List Token) :
    objects read ([.mark ','].intercalate ((o ++ [m]).map memberTokens) ++ rest)
      = objects (read ++ o) (memberTokens m ++ rest) := by
  induction o generalizing read with
  | nil => rw [List.append_nil]; rfl
  | cons first o ih =>
    have hSplit : ∃ next more, (o ++ [m]).map memberTokens = next :: more :=
      List.exists_cons_of_ne_nil (by simp)
    obtain ⟨next, more, hSplit⟩ := hSplit
    rw [List.cons_append, List.map_cons, hSplit, List.intercalate_cons_cons, ← hSplit,
      List.append_assoc, List.append_assoc]
    refine (ih (read ++ [first])).trans ?_
    rw [List.append_assoc, List.singleton_append]

theorem objects_object {o : Object} (hMembers : o ≠ []) :
    (∀ rest, objects [] ([.mark ','].intercalate (o.map memberTokens) ++
        .mark '\x7d' :: .mark ',' :: .mark '\x7b' :: rest) = (objects [] rest).map (o :: ·)) ∧
      objects [] ([.mark ','].intercalate (o.map memberTokens) ++
        [.mark '\x7d', .mark ']']) = some [o] := by
  obtain ⟨front, m, rfl⟩ : ∃ front m, o = front ++ [m] :=
    ⟨_, _, (List.dropLast_concat_getLast hMembers).symm⟩
  constructor
  · intro rest
    rw [objects_members, List.nil_append]
    rfl
  · rw [objects_members, List.nil_append]
    rfl

theorem objects_listed (o : Object) (os : List Object) (hMembers : ∀ x ∈ o :: os, x ≠ []) :
    ∃ rest, [.mark ','].intercalate ((o :: os).map objectTokens) = .mark '\x7b' :: rest ∧
      objects [] (rest ++ [.mark ']']) = some (o :: os) := by
  obtain ⟨hNext, hLast⟩ := objects_object (hMembers o List.mem_cons_self)
  induction os generalizing o with
  | nil =>
    refine ⟨[.mark ','].intercalate (o.map memberTokens) ++ [.mark '\x7d'], ?_, ?_⟩
    · rw [List.map_singleton, List.intercalate_singleton, objectTokens, List.cons_append]
    · rw [List.append_assoc]
      exact hLast
  | cons next os ih =>
    have hLater : ∀ x ∈ next :: os, x ≠ [] := fun x hx => hMembers x (List.mem_cons_of_mem o hx)
    obtain ⟨hNext', hLast'⟩ := objects_object (hLater next List.mem_cons_self)
    obtain ⟨rest, hRest, hObjects⟩ := ih next hLater hNext' hLast'
    refine ⟨[.mark ','].intercalate (o.map memberTokens) ++
      .mark '\x7d' :: .mark ',' :: .mark '\x7b' :: rest, ?_, ?_⟩
    · rw [List.map_cons, List.map_cons, List.intercalate_cons_cons, ← List.map_cons, hRest,
        objectTokens, List.cons_append, List.append_assoc]
      simp
    · rw [List.append_assoc, List.cons_append, List.cons_append, List.cons_append, hNext, hObjects]
      rfl

theorem read?_written (os : List Object) (hMembers : ∀ o ∈ os, o ≠ []) :
    read? [if os.isEmpty then "[]" else "[\n" ++ ",\n".intercalate (os.map objectText) ++ "\n]"]
      = some os := by
  rw [read?, String.intercalate_singleton]
  cases os with
  | nil => rfl
  | cons o os =>
    have hOpening : Emits "[\n".toList [.mark '['] := fun _ => rfl
    have hClosing : Emits "\n]".toList [.mark ']'] := fun _ => rfl
    have hObjects := emits_separator.intercalate (o :: os) fun x _ => emits_object x
    have hTokens := ((hOpening.append hObjects).append hClosing).scan_eq
    obtain ⟨rest, hRest, hListed⟩ := objects_listed o os hMembers
    rw [hRest] at hTokens
    rw [List.isEmpty_cons, if_neg Bool.false_ne_true, String.toList_append, String.toList_append,
      String.toList_intercalate, List.map_map]
    change (scan .between (_ ++ ",\n".toList.intercalate _ ++ _)).bind listed = _
    rw [show String.toList ∘ objectText = fun x => (objectText x).toList from rfl, hTokens,
      Option.bind_some]
    exact hListed

end Json

end CommandLine

end TranscodingEngines
