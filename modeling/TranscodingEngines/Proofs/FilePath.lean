import TranscodingEngines.FilePath

/-!
# Spellings of a path

A path that starts with a proper name has that name as its first component, and the components of
what stands behind the slash follow. So a path is a name and nothing else in two spellings: the name
alone, or the name with a slash and idle pieces behind it. The second spelling asks for a directory.
A path taken from a directory at the root starts at the root.
-/

set_option autoImplicit false

namespace TranscodingEngines.FilePath

/-! ## Pieces between slashes -/

theorem splitSlashes_cons {c : Char} (hc : c ≠ '/') (rest : List Char) :
    splitSlashes (c :: rest) =
      match splitSlashes rest with
      | [] => [[c]]
      | piece :: pieces => (c :: piece) :: pieces := splitSlashes.eq_3 c rest hc

theorem splitSlashes_of_not_mem {cs : List Char} (h : '/' ∉ cs) : splitSlashes cs = [cs] := by
  induction cs with
  | nil => rfl
  | cons c cs ih =>
    rw [List.mem_cons, not_or] at h
    rw [splitSlashes_cons (Ne.symm h.1), ih h.2]

theorem splitSlashes_ne_nil (cs : List Char) : splitSlashes cs ≠ [] := by
  induction cs with
  | nil => exact List.cons_ne_nil _ _
  | cons c cs ih =>
    by_cases hc : c = '/'
    · rw [hc]
      exact List.cons_ne_nil _ _
    · rw [splitSlashes_cons hc]
      cases hPieces : splitSlashes cs with
      | nil => exact absurd hPieces ih
      | cons piece pieces => exact List.cons_ne_nil _ _

/-- A slash divides the pieces of a text into those before it and those behind it. -/
theorem splitSlashes_append (xs ys : List Char) :
    splitSlashes (xs ++ '/' :: ys) = splitSlashes xs ++ splitSlashes ys := by
  induction xs with
  | nil => rfl
  | cons c xs ih =>
    by_cases hc : c = '/'
    · rw [hc]
      exact congrArg ([] :: ·) ih
    · rw [List.cons_append, splitSlashes_cons hc, splitSlashes_cons hc, ih]
      cases hPieces : splitSlashes xs with
      | nil => exact absurd hPieces (splitSlashes_ne_nil xs)
      | cons piece pieces => rfl

theorem not_mem_of_mem_splitSlashes {cs piece : List Char} (h : piece ∈ splitSlashes cs) :
    '/' ∉ piece := by
  induction cs generalizing piece with
  | nil =>
    rw [List.mem_singleton.mp h]
    exact List.not_mem_nil
  | cons c cs ih =>
    by_cases hc : c = '/'
    · rw [hc] at h
      rcases List.mem_cons.mp h with rfl | h
      · exact List.not_mem_nil
      · exact ih h
    · rw [splitSlashes_cons hc] at h
      cases hPieces : splitSlashes cs with
      | nil => exact absurd hPieces (splitSlashes_ne_nil cs)
      | cons first pieces =>
        rw [hPieces] at h ih
        rcases List.mem_cons.mp h with rfl | h
        · rw [List.mem_cons, not_or]
          exact ⟨Ne.symm hc, ih List.mem_cons_self⟩
        · exact ih (List.mem_cons_of_mem _ h)

theorem exists_eq_append_of_mem {cs : List Char} (h : '/' ∈ cs) :
    ∃ name rest, cs = name ++ '/' :: rest ∧ '/' ∉ name := by
  obtain ⟨name, rest, hText, hName⟩ := List.eq_append_cons_of_mem h
  exact ⟨name, rest, hText, hName⟩

theorem isIdle_iff {piece : List Char} : isIdle piece = true ↔ piece = [] ∨ piece = ['.'] := by
  rw [isIdle, Bool.or_eq_true, List.isEmpty_iff, beq_iff_eq]

/-! ## Joined paths -/

theorem isEmpty_iff {p : FilePath} : p.isEmpty = true ↔ p.text.toList = [] := by
  rw [isEmpty, String.isEmpty_iff, String.toList_eq_nil_iff]

theorem endsInSlash_iff {p : FilePath} :
    p.endsInSlash = true ↔ ∃ front, p.text.toList = front ++ ['/'] := by
  rw [endsInSlash, beq_iff_eq, List.getLast?_eq_some_iff]

/-- Joining puts the pieces of the two paths one behind the other, but for empty ones. -/
theorem filter_splitSlashes_join {keep : List Char → Bool} (hEmpty : keep [] = false)
    (p : FilePath) {q : FilePath} (h : q.isAbsolute = false) :
    (splitSlashes (p.join q).text.toList).filter keep
      = (splitSlashes p.text.toList).filter keep ++ (splitSlashes q.text.toList).filter keep := by
  have hNone : (splitSlashes []).filter keep = [] := by simp [splitSlashes, hEmpty]
  rw [join, if_neg (ne_true_of_eq_false h)]
  split
  · rename_i hEnd
    rw [String.toList_append]
    rcases Bool.or_eq_true_iff.mp hEnd with hText | hSlash
    · rw [isEmpty_iff.mp hText, hNone]
      rfl
    · obtain ⟨front, hText⟩ := endsInSlash_iff.mp hSlash
      rw [hText, List.append_assoc, List.singleton_append, splitSlashes_append,
        splitSlashes_append, List.filter_append, List.filter_append, hNone, List.append_nil]
  · rw [String.toList_append, String.toList_append, List.append_assoc]
    exact (congrArg (List.filter keep) (splitSlashes_append _ _)).trans (List.filter_append _ _)

/-! ## First components -/

/-- A path has no front of its own if it starts with a piece that is not idle. -/
theorem outline_of_proper {p : FilePath} {name rest : List Char}
    (hText : p.text.toList = name ++ rest) (hName : '/' ∉ name) (hProper : isIdle name = false) :
    p.outline = ⟨none, splitSlashes p.text.toList⟩ := by
  obtain ⟨c, name, rfl⟩ := List.exists_cons_of_ne_nil (fun h : name = [] => by
    rw [h] at hProper
    cases hProper)
  rw [outline]
  split
  · rename_i cs hChars
    obtain ⟨rfl, -⟩ := List.cons_eq_cons.mp (hText.symm.trans hChars)
    exact absurd List.mem_cons_self hName
  · rename_i hChars
    obtain ⟨rfl, hEnd⟩ := List.cons_eq_cons.mp (hText.symm.trans hChars)
    rw [(List.append_eq_nil_iff.mp hEnd).1] at hProper
    cases hProper
  · rename_i cs hChars
    obtain ⟨rfl, hBehind⟩ := List.cons_eq_cons.mp (hText.symm.trans hChars)
    cases name with
    | nil => cases hProper
    | cons d name =>
      obtain ⟨rfl, -⟩ := List.cons_eq_cons.mp hBehind
      exact absurd (List.mem_cons_of_mem _ List.mem_cons_self) hName
  · rfl

theorem components_of_name {p : FilePath} (hName : '/' ∉ p.text.toList)
    (hProper : isIdle p.text.toList = false) : p.components = [component p.text.toList] := by
  rw [components, outline_of_proper (List.append_nil _).symm hName hProper,
    splitSlashes_of_not_mem hName]
  simp [hProper]

theorem components_of_proper {p : FilePath} {name rest : List Char}
    (hText : p.text.toList = name ++ '/' :: rest) (hName : '/' ∉ name)
    (hProper : isIdle name = false) :
    p.components
      = component name :: ((splitSlashes rest).filter (!isIdle ·)).map component := by
  rw [components, outline_of_proper hText hName hProper, hText, splitSlashes_append,
    splitSlashes_of_not_mem hName]
  simp [hProper]

/-- A path whose first piece is idle starts with a component that is no name, if with any. -/
theorem isBare_of_idle {p : FilePath} {name rest : List Char}
    (hText : p.text.toList = name ++ rest) (hIdle : isIdle name = true)
    (hRest : rest = [] ∨ rest.head? = some '/') : p.isBare = false := by
  have hChars : p.text.toList = [] ∨ p.text.toList = ['.'] ∨ (∃ cs, p.text.toList = '/' :: cs) ∨
      ∃ cs, p.text.toList = '.' :: '/' :: cs := by
    rw [hText]
    rcases hRest with rfl | hSlash
    · rcases isIdle_iff.mp hIdle with rfl | rfl <;> simp
    · obtain ⟨cs, rfl⟩ := List.head?_eq_some_iff.mp hSlash
      rcases isIdle_iff.mp hIdle with rfl | rfl <;> simp
  rcases hChars with h | h | ⟨cs, h⟩ | ⟨cs, h⟩ <;>
    simp [isBare, components, outline, h, splitSlashes, isIdle]

/-! ## Paths that are a name and nothing else -/

/-- A proper name, without any slash. -/
structure IsName (p : FilePath) : Prop where
  noSlash : '/' ∉ p.text.toList
  proper : isIdle p.text.toList = false
  notUp : p.text.toList ≠ ['.', '.']

/-- A proper name, a slash, and idle pieces only. -/
def IsTrailed (p : FilePath) : Prop :=
  ∃ name rest : List Char, p.text.toList = name ++ '/' :: rest ∧ '/' ∉ name ∧
    isIdle name = false ∧ name ≠ ['.', '.'] ∧ ∀ piece ∈ splitSlashes rest, isIdle piece = true

theorem IsTrailed.mem {p : FilePath} (h : p.IsTrailed) : '/' ∈ p.text.toList := by
  obtain ⟨name, rest, hText, -⟩ := h
  rw [hText]
  exact List.mem_append_right _ List.mem_cons_self

theorem IsName.ne_nil {p : FilePath} (h : p.IsName) : p.text.toList ≠ [] := by
  intro hNil
  have hProper := h.proper
  rw [hNil] at hProper
  cases hProper

theorem IsName.ne_dot {name : String} (h : (⟨name⟩ : FilePath).IsName) : name ≠ "." := by
  rintro rfl
  exact absurd h.proper (by decide)

theorem IsName.ne_up {name : String} (h : (⟨name⟩ : FilePath).IsName) : name ≠ ".." := by
  rintro rfl
  exact h.notUp rfl

theorem IsName.components_eq {p : FilePath} (h : p.IsName) : p.components = [.name p.text] := by
  rw [components_of_name h.noSlash h.proper, component, if_neg h.notUp, String.ofList_toList]

theorem IsName.eq_of_same {p q : FilePath} (hp : p.IsName) (hq : q.IsName) (h : p.same q = true) :
    p = q := by
  have hComponents := same_iff.mp h
  rw [hp.components_eq, hq.components_eq] at hComponents
  injection hComponents with hComponents
  injection hComponents with hText
  exact congrArg FilePath.mk hText

theorem IsTrailed.exists_same {p : FilePath} (h : p.IsTrailed) :
    ∃ q : FilePath, q.IsName ∧ p.same q = true := by
  obtain ⟨name, rest, hText, hBefore, hProper, hUp, hIdle⟩ := h
  have hName : (⟨String.ofList name⟩ : FilePath).IsName := by
    refine ⟨?_, ?_, ?_⟩ <;> rw [String.toList_ofList] <;> assumption
  have hNone : (splitSlashes rest).filter (!isIdle ·) = [] := by
    rw [List.filter_eq_nil_iff]
    intro piece hPiece
    simp [hIdle piece hPiece]
  refine ⟨_, hName, same_iff.mpr ?_⟩
  rw [components_of_proper hText hBefore hProper, components_of_name hName.noSlash hName.proper,
    hNone, List.map_nil, String.toList_ofList]

theorem isBare_eq_true_iff {p : FilePath} :
    p.isBare = true ↔ ∃ text, p.components = [.name text] := by
  rw [isBare]
  split
  · rename_i text hComponents
    exact ⟨fun _ => ⟨text, hComponents⟩, fun _ => rfl⟩
  · rename_i hOther
    constructor
    · intro h
      cases h
    · rintro ⟨text, h⟩
      exact absurd h (hOther text)

theorem ne_up_of_component {piece : List Char} {text : String}
    (h : component piece = .name text) : piece ≠ ['.', '.'] := by
  rintro rfl
  rw [component, if_pos rfl] at h
  cases h

/-- A path is a name and nothing else in two spellings. -/
theorem isBare_iff {p : FilePath} : p.isBare = true ↔ p.IsName ∨ p.IsTrailed := by
  constructor
  · intro hBare
    obtain ⟨text, hComponents⟩ := isBare_eq_true_iff.mp hBare
    by_cases hSlash : '/' ∈ p.text.toList
    · obtain ⟨name, rest, hText, hBefore⟩ := exists_eq_append_of_mem hSlash
      cases hProper : isIdle name with
      | true =>
        rw [isBare_of_idle hText hProper (.inr rfl)] at hBare
        cases hBare
      | false =>
        rw [components_of_proper hText hBefore hProper, List.cons_eq_cons, List.map_eq_nil_iff,
          List.filter_eq_nil_iff] at hComponents
        refine .inr ⟨name, rest, hText, hBefore, hProper, ne_up_of_component hComponents.1, ?_⟩
        intro piece hPiece
        simpa using hComponents.2 piece hPiece
    · cases hProper : isIdle p.text.toList with
      | true =>
        rw [isBare_of_idle (List.append_nil _).symm hProper (.inl rfl)] at hBare
        cases hBare
      | false =>
        rw [components_of_name hSlash hProper, List.cons_eq_cons] at hComponents
        exact .inl ⟨hSlash, hProper, ne_up_of_component hComponents.1⟩
  · rintro (hName | hTrailed)
    · exact isBare_eq_true_iff.mpr ⟨_, hName.components_eq⟩
    · obtain ⟨q, hName, hSame⟩ := hTrailed.exists_same
      exact isBare_eq_true_iff.mpr ⟨_, (same_iff.mp hSame).trans hName.components_eq⟩

/-! ## Paths from the root -/

theorem isAbsolute_iff {p : FilePath} :
    p.isAbsolute = true ↔ ∃ rest, p.text.toList = '/' :: rest := by
  rw [isAbsolute, beq_iff_eq, List.head?_eq_some_iff]

theorem isAbsolute_join {p : FilePath} (h : p.isAbsolute = true) (q : FilePath) :
    (p.join q).isAbsolute = true := by
  obtain ⟨rest, hText⟩ := isAbsolute_iff.mp h
  rw [join]
  split
  · assumption
  split
  · exact isAbsolute_iff.mpr ⟨rest ++ q.text.toList, by simp [hText]⟩
  · exact isAbsolute_iff.mpr ⟨rest ++ '/' :: q.text.toList, by simp [hText]⟩

theorem isAbsolute_foldl_join {p : FilePath} (h : p.isAbsolute = true) (names : List String) :
    (names.foldl (fun path name => path.join ⟨name⟩) p).isAbsolute = true := by
  induction names generalizing p with
  | nil => exact h
  | cons name names ih => exact ih (isAbsolute_join h ⟨name⟩)

/-- What starts at the root, or is taken from a directory that does, starts at the root. -/
theorem isAbsolute_absolute {base p : FilePath}
    (h : p.isAbsolute = false → base.isAbsolute = true) : (absolute base p).isAbsolute = true := by
  have hWhole : ∀ start : FilePath, start.isAbsolute = true → ∀ names : List String,
      (if p.endsInSlash then (names.foldl (fun path name => path.join ⟨name⟩) start).join ⟨""⟩
        else names.foldl (fun path name => path.join ⟨name⟩) start).isAbsolute = true := by
    intro start hStart names
    split
    · exact isAbsolute_join (isAbsolute_foldl_join hStart names) _
    · exact isAbsolute_foldl_join hStart names
  rw [absolute]
  apply hWhole
  split
  · decide
  · decide
  · decide
  · rename_i hOther
    refine h (eq_false_of_ne_true ?_)
    intro hRoot
    obtain ⟨rest, hText⟩ := isAbsolute_iff.mp hRoot
    exact hOther rest hText

end TranscodingEngines.FilePath
