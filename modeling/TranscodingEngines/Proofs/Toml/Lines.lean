import TranscodingEngines.Proofs.Toml.Parts

/-!
# Documents read back

A document is written as lines, each of which is read as what it says, however the document goes on.
Reading the whole document builds the draft that these statements make one after the other.
-/

set_option autoImplicit false

namespace TranscodingEngines.Toml

/-- A line of a document without its break, and what it says. -/
structure Line where
  chars : List Char
  said : Statement

namespace Line

/-- However the document goes on, the line is read as what it says. -/
def Reads (l : Line) : Prop :=
  ∀ rest, statement (l.chars ++ '\n' :: rest) = some (l.said, '\n' :: rest)

def text (lines : List Line) : List Char := lines.flatMap fun l => l.chars ++ ['\n']

theorem text_append (lines more : List Line) : text (lines ++ more) = text lines ++ text more :=
  List.flatMap_append

def blank : Line := ⟨[], .blank⟩

theorem blank_reads : blank.Reads := fun _ => rfl

/-! ## Headers -/

def header (path : List String) : Line := ⟨'[' :: (joinedKeys path ++ [']']), .header path⟩

theorem writeHeader_toList (path : List String) :
    (writeHeader path).toList = (header path).chars ++ ['\n'] := by
  rw [writeHeader, String.toList_append, String.toList_append, header, joinedKeys]
  simp

theorem joinedKeys_starts {path : List String} (hSome : path ≠ []) (rest : List Char) :
    ∀ more, joinedKeys path ++ rest ≠ '[' :: more := by
  obtain ⟨s, path, rfl⟩ := List.exists_cons_of_ne_nil hSome
  obtain ⟨c, body, hBody, _, hOther⟩ := writeKey_starts s
  have hHead : ∃ more, joinedKeys (s :: path) = c :: more := by
    cases path with
    | nil => exact ⟨body, (joinedKeys_singleton s).trans hBody⟩
    | cons t path =>
      rw [joinedKeys_cons_cons, hBody]
      exact ⟨_, rfl⟩
  obtain ⟨tail, hHead⟩ := hHead
  rw [hHead]
  exact fun more hEq => hOther (List.cons.inj hEq).1

theorem header_reads {path : List String} (hSome : path ≠ []) (hShort : path.length < nestingLimit) :
    (header path).Reads := by
  intro rest
  have hOpen : skipSpace ('[' :: (joinedKeys path ++ ']' :: '\n' :: rest))
      = '[' :: (joinedKeys path ++ ']' :: '\n' :: rest) := rfl
  have hKey : key (joinedKeys path ++ ']' :: '\n' :: rest) = some (path, ']' :: '\n' :: rest) :=
    keyParts_joinedKeys hSome (Nat.le_sub_one_of_lt hShort) _
  have hText : (header path).chars ++ '\n' :: rest
      = '[' :: (joinedKeys path ++ ']' :: '\n' :: rest) := by
    rw [header]
    simp
  rw [hText, statement, hOpen]
  split
  · rename_i hEq
    cases hEq
  · rename_i hEq
    cases (List.cons.inj hEq).1
  · rename_i hEq
    cases (List.cons.inj hEq).1
  · rename_i hEq
    cases (List.cons.inj hEq).1
  · rename_i hEq
    exact absurd (List.cons.inj hEq).2 (joinedKeys_starts hSome _ _)
  · rename_i hEq
    rw [← (List.cons.inj hEq).2, hKey]
    rfl
  · rename_i hOther
    exact absurd rfl (hOther _)

/-! ## Assignments -/

/-- The written text is read as the value at the end of any line. -/
structure WrittenAs (written : String) (v : Value) : Prop where
  startsWithInk : StartsWithInk written.toList
  value_eq : ∀ rest, value (2 * (written.toList ++ '\n' :: rest).length + 2) (nestingLimit - 1)
    (written.toList ++ '\n' :: rest) = some (v, '\n' :: rest)

theorem writeString_writtenAs (s : String) : WrittenAs (writeString s) (.string s) :=
  ⟨writeString_startsWithInk s, fun rest =>
    value_writeString _ _ s (unmarked_cons (by decide) (by decide) rest)⟩

theorem toString_writtenAs {n : Nat} (h : n ≤ largestInteger) : WrittenAs (toString n) (.integer n) :=
  ⟨toString_startsWithInk n, fun rest => value_toString _ _ h rest⟩

theorem length_le_itemLines (texts : List String) (rest : List Char) :
    texts.length ≤ (itemLines texts rest).length := by
  induction texts with
  | nil => exact Nat.zero_le _
  | cons text texts ih =>
    rw [itemLines]
    simp only [List.length_cons, List.length_append]
    omega

theorem writeArray_writtenAs (texts : List String) :
    WrittenAs (writeArray texts) (.array (texts.map .string)) := by
  refine ⟨?_, fun rest => ?_⟩
  · have hOpen := writeArray_toList texts []
    rw [List.append_nil] at hOpen
    exact ⟨'[', _, hOpen, rfl⟩
  · refine value_writeArray ?_ _ _
    have hLength : texts.length ≤ ((writeArray texts).toList ++ '\n' :: rest).length := by
      rw [writeArray_toList]
      match texts with
      | [] => exact Nat.zero_le _
      | [text] => simp
      | text :: other :: texts =>
        exact Nat.le_succ_of_le (Nat.le_succ_of_le (length_le_itemLines _ _))
    omega

def assignment (key written : String) (v : Value) : Line :=
  ⟨(writeKey key).toList ++ ' ' :: '=' :: ' ' :: written.toList, .assignment [key] v⟩

theorem writeAssignment_toList (key written : String) (v : Value) :
    (writeAssignment key written).toList = (assignment key written v).chars ++ ['\n'] := by
  rw [writeAssignment, assignment]
  simp

/-- A line that starts with ink other than a bracket is read as an assignment. -/
theorem statement_of_isInk {c : Char} (hInk : isInk c = true) (hOther : c ≠ '[')
    (body : List Char) : statement (c :: body) = (do
      let (path, rest) ← key (c :: body)
      let rest ← after '=' rest
      let rest := skipSpace rest
      let (found, rest) ← value (2 * rest.length + 2) (nestingLimit - 1) rest
      pure (.assignment path found, rest)) := by
  have hSkip : skipSpace (c :: body) = c :: body :=
    StartsWithInk.skipSpace_eq ⟨c, body, rfl, hInk⟩
  have hHead : ∀ (d : Char) (more : List Char), isInk d = false → c :: body ≠ d :: more := by
    intro d more hd hEq
    rw [← (List.cons.inj hEq).1, hInk] at hd
    cases hd
  rw [statement, hSkip]
  split
  · rename_i hEq
    cases hEq
  · rename_i hEq
    exact absurd hEq (hHead _ _ rfl)
  · rename_i hEq
    exact absurd hEq (hHead _ _ rfl)
  · rename_i hEq
    exact absurd hEq (hHead _ _ rfl)
  · rename_i hEq
    exact absurd (List.cons.inj hEq).1 hOther
  · rename_i hEq
    exact absurd (List.cons.inj hEq).1 hOther
  · rfl

theorem assignment_reads {key written : String} {v : Value} (h : WrittenAs written v) :
    (assignment key written v).Reads := by
  intro rest
  have hText : (assignment key written v).chars ++ '\n' :: rest
      = (writeKey key).toList ++ ' ' :: '=' :: ' ' :: (written.toList ++ '\n' :: rest) := by
    rw [assignment]
    simp
  have hKey := key_writeKey key (' ' :: (written.toList ++ '\n' :: rest))
  have hSpace : skipSpace (' ' :: (written.toList ++ '\n' :: rest))
      = written.toList ++ '\n' :: rest :=
    (h.startsWithInk.append ('\n' :: rest)).skipSpace_eq
  obtain ⟨c, body, hBody, hInk, hOther⟩ := writeKey_starts key
  rw [hBody, List.cons_append] at hKey
  rw [hText, hBody, List.cons_append, statement_of_isInk hInk hOther, hKey]
  change (value (2 * (skipSpace (' ' :: (written.toList ++ '\n' :: rest))).length + 2) _
    (skipSpace (' ' :: (written.toList ++ '\n' :: rest)))).bind _ = _
  rw [hSpace, h.value_eq]
  rfl

/-! ## Documents -/

def build (lines : List Line) (d : Draft) : Option Draft :=
  lines.foldlM (fun d l => d.add l.said) d

theorem build_append (lines more : List Line) (d : Draft) :
    build (lines ++ more) d = (build lines d).bind (build more) :=
  List.foldlM_append

theorem lineEnd_break (rest : List Char) : lineEnd ('\n' :: rest) = some rest := rfl

theorem readLines_text {lines : List Line} (hReads : ∀ l ∈ lines, l.Reads) {rounds : Nat}
    (hRounds : lines.length < rounds) (number : Nat) {d made : Draft}
    (hMade : build lines d = some made) :
    readLines rounds number d (text lines) = .ok made := by
  induction lines generalizing rounds number d with
  | nil =>
    obtain ⟨rounds, rfl⟩ := Nat.exists_eq_add_one_of_ne_zero (Nat.ne_of_gt hRounds)
    rw [Option.some.inj hMade]
    rfl
  | cons l lines ih =>
    obtain ⟨rounds, rfl⟩ := Nat.exists_eq_add_one_of_ne_zero (Nat.ne_of_gt
      (Nat.lt_of_le_of_lt (Nat.zero_le _) hRounds))
    have hLine := hReads l List.mem_cons_self (text lines)
    have hText : text (l :: lines) = l.chars ++ '\n' :: text lines := by
      rw [text, List.flatMap_cons, List.append_assoc]
      rfl
    rw [build, List.foldlM_cons, Option.bind_eq_bind, Option.bind_eq_some_iff] at hMade
    obtain ⟨next, hNext, hMade⟩ := hMade
    have hSome : l.chars ++ '\n' :: text lines ≠ [] := by simp
    rw [hText, readLines.eq_3 number d _ rounds hSome]
    simp only [hLine, lineEnd_break, hNext]
    exact ih (fun x hx => hReads x (List.mem_cons_of_mem l hx)) (Nat.lt_of_succ_lt_succ hRounds) _
      hMade

theorem length_le_text (lines : List Line) : lines.length ≤ (text lines).length := by
  induction lines with
  | nil => exact Nat.zero_le _
  | cons l lines ih =>
    have hText : text (l :: lines) = l.chars ++ ['\n'] ++ text lines := List.flatMap_cons
    rw [hText]
    simp only [List.length_cons, List.length_append]
    omega

/-- A document of lines is read as what they say. -/
theorem read_of_text {document : String} {lines : List Line}
    (hText : document.toList = text lines) (hMark : NotHead '\ufeff' (text lines))
    (hReads : ∀ l ∈ lines, l.Reads) {made : Draft}
    (hMade : build lines .empty = some made) :
    read document = .ok made.entries := by
  have hSkip : skipMark (text lines) = text lines := skipMark.eq_2 _ fun _ hEq => hMark _ hEq
  have hRead := readLines_text hReads (Nat.lt_succ_of_le (length_le_text lines)) 1 hMade
  rw [read, hText, hSkip, hRead]
  rfl

end Line

end TranscodingEngines.Toml
