import TranscodingEngines.Host.Basic
import TranscodingEngines.Proofs.FilePath

/-!
# The way to a sibling

The way to a path with another last name is the way to the path, but for dots in front of the name
and the name itself.
-/

set_option autoImplicit false

namespace TranscodingEngines

namespace FilePath

/-! ## Names in a text -/

def namesIn (pieces : List (List Char)) : List String :=
  (pieces.filter (!·.isEmpty)).map String.ofList

theorem namesIn_append (xs ys : List (List Char)) :
    namesIn (xs ++ ys) = namesIn xs ++ namesIn ys := by
  rw [namesIn, List.filter_append, List.map_append]
  rfl

theorem namesIn_singleton {piece : List Char} (h : piece ≠ []) :
    namesIn [piece] = [String.ofList piece] := by
  simp [namesIn, h]

theorem namesIn_intercalate {pieces : List (List Char)} (h : ∀ piece ∈ pieces, '/' ∉ piece) :
    namesIn (splitSlashes (List.intercalate ['/'] pieces)) = namesIn pieces := by
  induction pieces with
  | nil => rfl
  | cons piece rest ih =>
    have hPiece := splitSlashes_of_not_mem (h piece List.mem_cons_self)
    cases rest with
    | nil => simp [List.intercalate, hPiece]
    | cons next rest =>
      have hRest := ih fun other hOther => h other (List.mem_cons_of_mem _ hOther)
      have hText : List.intercalate ['/'] (piece :: next :: rest)
          = piece ++ '/' :: List.intercalate ['/'] (next :: rest) := by
        simp [List.intercalate]
      rw [hText, splitSlashes_append, namesIn_append, hRest, hPiece, ← namesIn_append,
        List.singleton_append]

/-- A path starts at the root, or with a dot, or has no front. -/
inductive Outlined (p : FilePath) : Outline → Prop where
  | root {rest : List Char} (hText : p.text.toList = '/' :: rest) :
      Outlined p ⟨some .root, splitSlashes rest⟩
  | dot (hText : p.text.toList = ['.']) : Outlined p ⟨some .here, [[]]⟩
  | here {rest : List Char} (hText : p.text.toList = '.' :: '/' :: rest) :
      Outlined p ⟨some .here, [] :: splitSlashes rest⟩
  | plain (hText : p.isAbsolute = false) : Outlined p ⟨none, splitSlashes p.text.toList⟩

theorem outlined (p : FilePath) : Outlined p p.outline := by
  rw [outline]
  split
  · exact .root ‹_›
  · exact .dot ‹_›
  · exact .here ‹_›
  · rename_i hRoot _ _
    refine .plain (eq_false_of_ne_true fun h => ?_)
    obtain ⟨rest, hText⟩ := isAbsolute_iff.mp h
    exact hRoot rest hText

/-- The names that stand for the front of a path among its steps. -/
def frontNames : Option Component → List String
  | some .here => ["."]
  | _ => []

theorem namesIn_text (p : FilePath) :
    namesIn (splitSlashes p.text.toList)
      = frontNames p.outline.front ++ namesIn p.outline.pieces := by
  have hOutlined := p.outlined
  generalize p.outline = o at hOutlined
  cases hOutlined with
  | root hText =>
    rw [hText]
    rfl
  | dot hText =>
    rw [hText]
    rfl
  | @here rest hText =>
    rw [hText, show '.' :: '/' :: rest = ['.'] ++ '/' :: rest from rfl, splitSlashes_append,
      namesIn_append]
    rfl
  | plain => rfl

theorem outline_ne_nil (p : FilePath) : p.outline.pieces ≠ [] := by
  have hOutlined := p.outlined
  generalize p.outline = o at hOutlined
  cases hOutlined with
  | root => exact splitSlashes_ne_nil _
  | dot => exact List.cons_ne_nil _ _
  | here => exact List.cons_ne_nil _ _
  | plain => exact splitSlashes_ne_nil _

theorem not_mem_of_mem_pieces {p : FilePath} {piece : List Char} (h : piece ∈ p.outline.pieces) :
    '/' ∉ piece := by
  have hOutlined := p.outlined
  generalize p.outline = o at hOutlined h
  cases hOutlined with
  | root => exact not_mem_of_mem_splitSlashes h
  | dot =>
    rw [List.mem_singleton.mp h]
    exact List.not_mem_nil
  | here =>
    rcases List.mem_cons.mp h with rfl | h
    · exact List.not_mem_nil
    · exact not_mem_of_mem_splitSlashes h
  | plain => exact not_mem_of_mem_splitSlashes h

/-! ## The path of the parent -/

theorem dropIdle_append_proper {pieces : List (List Char)} {name : List Char}
    (hProper : isIdle name = false) : dropIdle (pieces ++ [name]) = pieces ++ [name] := by
  rw [dropIdle, List.reverse_append]
  simp [hProper]

theorem exists_dropIdle (pieces : List (List Char)) :
    ∃ idle, pieces = dropIdle pieces ++ idle ∧ ∀ piece ∈ idle, isIdle piece = true := by
  refine ⟨(pieces.reverse.takeWhile isIdle).reverse, ?_, ?_⟩
  · rw [dropIdle, ← List.reverse_append, List.takeWhile_append_dropWhile, List.reverse_reverse]
  · intro piece hPiece
    exact List.all_eq_true.mp List.all_takeWhile piece (List.mem_reverse.mp hPiece)

section Last

variable {p : FilePath} {pieces : List (List Char)} {name : List Char}
  (hPieces : p.outline.pieces = pieces ++ [name])

include hPieces

theorem not_mem_of_mem_dropIdle {piece : List Char} (h : piece ∈ dropIdle pieces) :
    '/' ∉ piece := by
  obtain ⟨idle, hIdle, -⟩ := exists_dropIdle pieces
  apply p.not_mem_of_mem_pieces
  rw [hPieces, hIdle]
  exact List.mem_append_left _ (List.mem_append_left _ h)

theorem namesIn_parent :
    namesIn (splitSlashes (Outline.text ⟨p.outline.front, dropIdle pieces⟩).toList)
      = frontNames p.outline.front ++ namesIn (dropIdle pieces) := by
  have hSlash : ∀ piece ∈ dropIdle pieces, '/' ∉ piece :=
    fun _ hPiece => not_mem_of_mem_dropIdle hPieces hPiece
  have hNames := namesIn_intercalate hSlash
  have hHere : ∀ more, pieces ++ [name] = [] :: more →
      namesIn (splitSlashes (Outline.text ⟨some .here, dropIdle pieces⟩).toList)
        = frontNames (some .here) ++ namesIn (dropIdle pieces) := by
    intro more hMore
    obtain ⟨idle, hIdle, -⟩ := exists_dropIdle pieces
    have hText : (Outline.text ⟨some .here, dropIdle pieces⟩).toList
        = '.' :: List.intercalate ['/'] (dropIdle pieces) := by
      simp [Outline.text, Component.label]
    rw [hText]
    cases hKept : dropIdle pieces with
    | nil => rfl
    | cons first kept =>
      rw [hKept] at hIdle hNames
      rw [hIdle, List.append_assoc, List.cons_append, List.cons_eq_cons] at hMore
      rw [hMore.1] at hNames ⊢
      cases kept with
      | nil => rfl
      | cons next kept =>
        have hDot : '.' :: List.intercalate ['/'] ([] :: next :: kept)
            = ['.'] ++ '/' :: List.intercalate ['/'] (next :: kept) := by
          simp [List.intercalate]
        have hSlashes : List.intercalate ['/'] ([] :: next :: kept)
            = [] ++ '/' :: List.intercalate ['/'] (next :: kept) := by
          simp [List.intercalate]
        rw [hDot, splitSlashes_append, namesIn_append, ← hNames, hSlashes, splitSlashes_append,
          namesIn_append]
        rfl
  have hOutlined := p.outlined
  generalize p.outline = o at hOutlined hPieces
  cases hOutlined with
  | root =>
    have hText : (Outline.text ⟨some .root, dropIdle pieces⟩).toList
        = '/' :: List.intercalate ['/'] (dropIdle pieces) := by
      simp [Outline.text, Component.label]
    rw [hText]
    exact hNames
  | dot => exact hHere _ hPieces.symm
  | here => exact hHere _ hPieces.symm
  | plain =>
    have hText : (Outline.text ⟨none, dropIdle pieces⟩).toList
        = List.intercalate ['/'] (dropIdle pieces) := by
      simp [Outline.text]
    rw [hText]
    exact hNames

theorem isAbsolute_parent :
    (⟨Outline.text ⟨p.outline.front, dropIdle pieces⟩⟩ : FilePath).isAbsolute = p.isAbsolute := by
  obtain ⟨idle, hIdle, -⟩ := exists_dropIdle pieces
  have hSlash : ∀ piece ∈ dropIdle pieces, '/' ∉ piece :=
    fun _ hPiece => not_mem_of_mem_dropIdle hPieces hPiece
  have hOutlined := p.outlined
  generalize p.outline = o at hOutlined hPieces
  cases hOutlined with
  | root hText => simp [isAbsolute, Outline.text, Component.label, hText]
  | dot hText => simp [isAbsolute, Outline.text, Component.label, hText]
  | here hText => simp [isAbsolute, Outline.text, Component.label, hText]
  | plain hText =>
    rw [hText, isAbsolute, beq_eq_false_iff_ne]
    intro hHead
    cases hKept : dropIdle pieces with
    | nil => simp [Outline.text, hKept] at hHead
    | cons first kept =>
      cases first with
      | nil =>
        rw [hKept] at hIdle
        rw [hIdle] at hPieces
        cases hChars : p.text.toList with
        | nil =>
          rw [hChars] at hPieces
          simp [splitSlashes] at hPieces
        | cons c rest =>
          have hOther : c ≠ '/' := by
            rintro rfl
            simp [isAbsolute, hChars] at hText
          rw [hChars, splitSlashes_cons hOther] at hPieces
          split at hPieces <;> cases hPieces
      | cons c first =>
        rw [hKept] at hSlash
        have hFirst : c = '/' := by
          cases kept <;> simpa [Outline.text, hKept, List.intercalate] using hHead
        exact hSlash _ List.mem_cons_self (hFirst ▸ List.mem_cons_self)

variable (hProper : isIdle name = false)

include hProper

theorem fileName_of_pieces (hUp : name ≠ ['.', '.']) : p.fileName = some (String.ofList name) := by
  rw [fileName, components, hPieces, List.filter_append, List.map_append, ← List.append_assoc]
  simp [hProper, component, hUp]

theorem parent_of_pieces :
    p.parent = some ⟨Outline.text ⟨p.outline.front, dropIdle pieces⟩⟩ := by
  rw [parent, hPieces]
  simp only [dropIdle_append_proper hProper, List.dropLast_concat]
  split
  · rfl
  · rename_i hNil _
    simp at hNil
  · rename_i hNil _
    simp at hNil

end Last

/-! ## Joined paths -/

variable {p q : FilePath}

theorem namesIn_join (hRelative : q.isAbsolute = false) :
    namesIn (splitSlashes (p.join q).text.toList)
      = namesIn (splitSlashes p.text.toList) ++ namesIn (splitSlashes q.text.toList) := by
  rw [namesIn, filter_splitSlashes_join rfl p hRelative, List.map_append]
  rfl

theorem isAbsolute_join_eq (hRelative : q.isAbsolute = false) :
    (p.join q).isAbsolute = p.isAbsolute := by
  rw [join, if_neg (ne_true_of_eq_false hRelative)]
  rcases hText : p.text.toList with _ | ⟨c, rest⟩
  · have hEmpty : p.text = "" := by simpa using hText
    rw [isAbsolute] at hRelative
    simp [isEmpty, isAbsolute, hEmpty, hRelative]
  · split <;> simp [isAbsolute, hText]

theorem endsInSlash_join (hRelative : q.isAbsolute = false) (hSome : q.text.toList ≠ []) :
    (p.join q).endsInSlash = q.endsInSlash := by
  rw [join, if_neg (ne_true_of_eq_false hRelative)]
  have hLast : ∀ xs : List Char, (xs ++ q.text.toList).getLast? = q.text.toList.getLast? := by
    intro xs
    rw [List.getLast?_append, List.getLast?_eq_some_getLast hSome, Option.some_or]
  split <;> rw [endsInSlash, String.toList_append, hLast, endsInSlash]

/-! ## Steps -/

theorem stepsOf_eq (hSlash : p.endsInSlash = false) :
    stepsOf p.text = namesIn (splitSlashes p.text.toList) := by
  rw [endsInSlash] at hSlash
  rw [stepsOf, hSlash]
  rfl

theorem withoutSlashes_eq (hSlash : p.endsInSlash = false) : p.withoutSlashes = p := by
  rw [endsInSlash, List.getLast?_eq_head?_reverse] at hSlash
  rw [withoutSlashes]
  cases hReverse : p.text.toList.reverse with
  | nil =>
    have hEmpty : p.isEmpty = true := by simpa [isEmpty] using hReverse
    rw [List.dropWhile_nil]
    exact if_pos hEmpty
  | cons c rest =>
    have hOther : c ≠ '/' := by simpa [hReverse] using hSlash
    rw [List.dropWhile_cons_of_neg (by simpa using hOther)]
    simp only
    rw [← hReverse, List.reverse_reverse, String.ofList_toList]

theorem getLast?_of_splitSlashes {cs : List Char} {pieces : List (List Char)}
    (h : splitSlashes cs = pieces ++ [[]]) : cs = [] ∨ cs.getLast? = some '/' := by
  by_cases hSlash : '/' ∈ cs.reverse
  · obtain ⟨last, before, hReverse, hLast⟩ := exists_eq_append_of_mem hSlash
    have hText : cs = before.reverse ++ '/' :: last.reverse := by
      rw [← List.reverse_reverse cs, hReverse]
      simp
    have hPiece : splitSlashes last.reverse = [last.reverse] :=
      splitSlashes_of_not_mem (by simpa using hLast)
    rw [hText, splitSlashes_append, hPiece] at h
    have hNil : last.reverse = [] := List.singleton_inj.mp (List.append_inj' h rfl).2
    right
    rw [hText, hNil, List.getLast?_concat]
  · rw [splitSlashes_of_not_mem (by simpa using hSlash)] at h
    have hWhole : [] ++ [cs] = pieces ++ [[]] := h
    exact .inl (List.singleton_inj.mp (List.append_inj' hWhole rfl).2)

/-- The path ends in a name: its steps are those to a directory, dots, and the name. A sibling has
the steps to the directory and its own name. -/
structure EndsIn (p : FilePath) (steps dots : List String) (last : String) : Prop where
  idle : ∀ step ∈ dots, step = "."
  stepsOf_eq : stepsOf p.text = steps ++ dots ++ [last]
  isName : (⟨last⟩ : FilePath).IsName
  fileName_eq : p.fileName = some last
  sibling : ∀ name : String, (⟨name⟩ : FilePath).IsName →
    stepsOf (p.withFileName name).text = steps ++ [name] ∧
      (p.withFileName name).isAbsolute = p.isAbsolute ∧
      (p.withFileName name).endsInSlash = false

/-- The last piece of a path is empty only behind a slash, unless the path is empty or a dot. -/
theorem endsInSlash_of_pieces {pieces : List (List Char)} (h : p.outline.pieces = pieces ++ [[]])
    (hText : p.text.toList ≠ [] ∧ p.text.toList ≠ ['.']) : p.endsInSlash = true := by
  rw [endsInSlash, beq_iff_eq]
  have hOutlined := p.outlined
  generalize p.outline = o at hOutlined h
  cases hOutlined with
  | @root rest hRoot =>
    rw [hRoot, List.getLast?_cons]
    rcases getLast?_of_splitSlashes h with rfl | hLast
    · rfl
    · rw [hLast]
      rfl
  | dot hDot => exact absurd hDot hText.2
  | @here rest hHere =>
    rw [hHere, List.getLast?_cons, List.getLast?_cons]
    rcases List.append_eq_cons_iff.mp h.symm with ⟨-, hNil⟩ | ⟨more, -, hMore⟩
    · simp [splitSlashes_ne_nil] at hNil
    · rcases getLast?_of_splitSlashes hMore with rfl | hLast
      · rfl
      · rw [hLast]
        rfl
  | plain => exact (getLast?_of_splitSlashes h).resolve_left hText.1

section Ends

variable {pieces : List (List Char)} {name : List Char} (hPieces : p.outline.pieces = pieces ++ [name])

include hPieces

theorem isName_of_pieces (hSlash : p.endsInSlash = false) (hDots : Host.endsInDots p = false) :
    (⟨String.ofList name⟩ : FilePath).IsName ∧
      stepsOf p.text = frontNames p.outline.front ++ namesIn pieces ++ [String.ofList name] := by
  rw [Host.endsInDots, withoutSlashes_eq hSlash] at hDots
  have hSome : name ≠ [] := by
    rintro rfl
    -- The path would be empty or a dot, and neither ends in a name.
    rw [endsInSlash_of_pieces hPieces ⟨?_, ?_⟩] at hSlash
    · cases hSlash
    · intro hText
      rw [FilePath.stepsOf_eq hSlash, hText] at hDots
      cases hDots
    · intro hText
      rw [FilePath.stepsOf_eq hSlash, hText] at hDots
      revert hDots
      decide
  have hSteps : stepsOf p.text
      = frontNames p.outline.front ++ namesIn pieces ++ [String.ofList name] := by
    rw [stepsOf_eq hSlash, namesIn_text, hPieces, namesIn_append, namesIn_singleton hSome,
      ← List.append_assoc]
  rw [hSteps, List.getLast?_concat] at hDots
  simp only [Bool.or_eq_false_iff, beq_eq_false_iff_ne] at hDots
  refine ⟨⟨?_, ?_, ?_⟩, hSteps⟩ <;> rw [String.toList_ofList]
  · exact not_mem_of_mem_pieces (hPieces ▸ List.mem_append_right _ List.mem_cons_self)
  · refine eq_false_of_ne_true fun hIdle => ?_
    rcases isIdle_iff.mp hIdle with rfl | rfl
    · exact hSome rfl
    · exact hDots.1 rfl
  · rintro rfl
    exact hDots.2 rfl

theorem sibling_of_pieces (hProper : isIdle name = false) (hUp : name ≠ ['.', '.']) {other : String}
    (hOther : (⟨other⟩ : FilePath).IsName) :
    stepsOf (p.withFileName other).text
        = frontNames p.outline.front ++ namesIn (dropIdle pieces) ++ [other] ∧
      (p.withFileName other).isAbsolute = p.isAbsolute ∧
      (p.withFileName other).endsInSlash = false := by
  have hNoSlash : '/' ∉ other.toList := hOther.noSlash
  have hSome : other.toList ≠ [] := hOther.ne_nil
  have hRelative : (⟨other⟩ : FilePath).isAbsolute = false := by
    refine eq_false_of_ne_true fun hRoot => ?_
    obtain ⟨rest, hText⟩ := isAbsolute_iff.mp hRoot
    exact hNoSlash (hText ▸ List.mem_cons_self)
  have hPath : p.withFileName other
      = (⟨Outline.text ⟨p.outline.front, dropIdle pieces⟩⟩ : FilePath).join ⟨other⟩ := by
    rw [withFileName, fileName_of_pieces hPieces hProper hUp, parent_of_pieces hPieces hProper]
    rfl
  have hEnd : (p.withFileName other).endsInSlash = false := by
    rw [hPath, endsInSlash_join hRelative hSome]
    refine eq_false_of_ne_true fun hLast => ?_
    exact hNoSlash (List.mem_of_getLast? (beq_iff_eq.mp hLast))
  refine ⟨?_, ?_, hEnd⟩
  · rw [FilePath.stepsOf_eq hEnd, hPath, namesIn_join hRelative, namesIn_parent hPieces,
      splitSlashes_of_not_mem hNoSlash, namesIn_singleton hSome, String.ofList_toList]
  · rw [hPath, isAbsolute_join_eq hRelative, isAbsolute_parent hPieces]

end Ends

theorem exists_endsIn (hSlash : p.endsInSlash = false) (hDots : Host.endsInDots p = false) :
    ∃ steps dots last, p.EndsIn steps dots last := by
  obtain ⟨pieces, name, hPieces⟩ := (List.eq_nil_or_concat _).resolve_left p.outline_ne_nil
  rw [List.concat_eq_append] at hPieces
  obtain ⟨hName, hSteps⟩ := isName_of_pieces hPieces hSlash hDots
  have hProper : isIdle name = false := by simpa using hName.proper
  have hUp : name ≠ ['.', '.'] := by simpa using hName.notUp
  obtain ⟨idle, hIdle, hAllIdle⟩ := exists_dropIdle pieces
  refine ⟨frontNames p.outline.front ++ namesIn (dropIdle pieces), namesIn idle, String.ofList name,
    ?_, ?_, hName, fileName_of_pieces hPieces hProper hUp,
    fun other hOther => sibling_of_pieces hPieces hProper hUp hOther⟩
  · intro step hStep
    obtain ⟨piece, hPiece, rfl⟩ := List.mem_map.mp hStep
    obtain ⟨hMem, hSome⟩ := List.mem_filter.mp hPiece
    rcases isIdle_iff.mp (hAllIdle piece hMem) with rfl | rfl
    · cases hSome
    · rfl
  · have hNames : namesIn pieces = namesIn (dropIdle pieces) ++ namesIn idle := by
      rw [← namesIn_append, ← hIdle]
    simp only [hSteps, hNames, List.append_assoc]

end FilePath

end TranscodingEngines
