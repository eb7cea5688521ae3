import Mathlib.Data.List.Induction
import TranscodingEngines.Proofs.FilePath

/-!
# Paths made absolute

What a path means depends on its front and its proper pieces alone. Making a path absolute puts the
proper pieces of the directory in front of those of the path, so the result means what the path
means when it is taken from the directory. The result has one spelling: a slash in front of every
piece, a second one at the front if the path has exactly two there, and one at the end if the path
has one there or nothing else is left. Paths in that spelling are made absolute already.
-/

set_option autoImplicit false

namespace TranscodingEngines.FilePath

/-! ## Proper pieces -/

/-- The pieces of a text that carry a meaning. -/
def properPieces (cs : List Char) : List (List Char) := (splitSlashes cs).filter (!isIdle ·)

/-- A piece between slashes that carries a meaning. -/
structure IsProper (piece : List Char) : Prop where
  noSlash : '/' ∉ piece
  notIdle : isIdle piece = false

theorem isProper_of_mem_properPieces {cs piece : List Char} (h : piece ∈ properPieces cs) :
    IsProper piece := by
  obtain ⟨hMem, hIdle⟩ := List.mem_filter.mp h
  exact ⟨not_mem_of_mem_splitSlashes hMem, by simpa using hIdle⟩

theorem IsProper.exists_cons {piece : List Char} (h : IsProper piece) :
    ∃ c cs, piece = c :: cs ∧ c ≠ '/' := by
  cases piece with
  | nil => exact absurd h.notIdle (by decide)
  | cons c cs => exact ⟨c, cs, rfl, fun hc => h.noSlash (hc ▸ List.mem_cons_self)⟩

@[simp]
theorem properPieces_append (xs ys : List Char) :
    properPieces (xs ++ '/' :: ys) = properPieces xs ++ properPieces ys := by
  rw [properPieces, splitSlashes_append, List.filter_append]
  rfl

@[simp]
theorem properPieces_slash (ys : List Char) : properPieces ('/' :: ys) = properPieces ys :=
  properPieces_append [] ys

theorem IsProper.properPieces_eq {piece : List Char} (h : IsProper piece) :
    properPieces piece = [piece] := by
  rw [properPieces, splitSlashes_of_not_mem h.noSlash]
  simp [h.notIdle]

theorem components_eq (p : FilePath) : p.components
    = p.outline.front.toList ++ (properPieces p.text.toList).map component := by
  rw [components, outline]
  split
  · rename_i rest hText
    rw [hText, properPieces_slash]
    rfl
  · rename_i hText
    rw [hText]
    rfl
  · rename_i rest hText
    rw [hText]
    exact congrArg (Component.here :: ·) (congrArg (·.map component)
      (properPieces_append ['.'] rest).symm)
  · rfl

theorem front_eq (p : FilePath) : p.outline.front = none ∨ p.outline.front = some .root ∨
    p.outline.front = some .here := by
  rw [outline]
  split <;> simp

theorem components_of_isAbsolute {p : FilePath} (h : p.isAbsolute = true) :
    p.components = .root :: (properPieces p.text.toList).map component := by
  obtain ⟨rest, hText⟩ := isAbsolute_iff.mp h
  rw [components_eq, outline]
  simp [hText]

theorem not_isBare_of_isAbsolute {p : FilePath} (h : p.isAbsolute = true) : p.isBare = false := by
  rw [isBare, components_of_isAbsolute h]

theorem label_component (piece : List Char) : (component piece).label = String.ofList piece := by
  rw [component]
  split
  · rename_i hUp
    rw [hUp]
    rfl
  · rfl

/-- Behind its front a path has the names of its proper pieces. -/
theorem labels_eq (p : FilePath) :
    (p.components.dropWhile fun c => c == .root || c == .here).map Component.label
      = (properPieces p.text.toList).map String.ofList := by
  have hPieces : ∀ pieces : List (List Char),
      (pieces.map component).dropWhile (fun c => c == .root || c == .here)
        = pieces.map component := by
    intro pieces
    cases pieces with
    | nil => rfl
    | cons piece pieces =>
      refine List.dropWhile_cons_of_neg ?_
      rw [component]
      split <;> simp
  have hLabels : ∀ pieces : List (List Char),
      (pieces.map component).map Component.label = pieces.map String.ofList := by
    intro pieces
    rw [List.map_map]
    exact List.map_congr_left fun piece _ => label_component piece
  rw [components_eq]
  rcases front_eq p with hFront | hFront | hFront <;>
    simp [hFront, hPieces, hLabels]

/-! ## Joining -/

theorem eq_of_toList {p q : FilePath} (h : p.text.toList = q.text.toList) : p = q :=
  congrArg FilePath.mk (String.toList_injective h)

theorem isEmpty_of_isAbsolute {p : FilePath} (h : p.isAbsolute = true) : p.isEmpty = false := by
  obtain ⟨rest, hText⟩ := isAbsolute_iff.mp h
  rw [← Bool.not_eq_true, isEmpty_iff, hText]
  exact List.cons_ne_nil _ _

theorem properPieces_join (p : FilePath) {q : FilePath} (h : q.isAbsolute = false) :
    properPieces (p.join q).text.toList
      = properPieces p.text.toList ++ properPieces q.text.toList :=
  filter_splitSlashes_join rfl p h

theorem join_of_isAbsolute (p : FilePath) {q : FilePath} (h : q.isAbsolute = true) :
    p.join q = q := by
  rw [join, if_pos h]

theorem IsProper.isAbsolute_eq {piece : List Char} (h : IsProper piece) :
    (⟨String.ofList piece⟩ : FilePath).isAbsolute = false := by
  obtain ⟨c, cs, rfl, hc⟩ := h.exists_cons
  simp [isAbsolute, hc]

theorem endsInSlash_join_empty {p : FilePath} (h : p.isAbsolute = true) :
    (p.join ⟨""⟩).endsInSlash = true := by
  rw [join, if_neg (by decide), isEmpty_of_isAbsolute h, Bool.false_or]
  split
  · rename_i hSlash
    simpa using hSlash
  · simp [endsInSlash]

/-! ## The steps of making a path absolute -/

def leadingSlashes (p : FilePath) : Nat := (p.text.toList.takeWhile (· == '/')).length

theorem leadingSlashes_eq_zero {p : FilePath} (h : p.isAbsolute = false) :
    p.leadingSlashes = 0 := by
  rw [leadingSlashes]
  cases hText : p.text.toList with
  | nil => rfl
  | cons c cs =>
    have hc : c ≠ '/' := by
      rintro rfl
      rw [isAbsolute_iff.mpr ⟨cs, hText⟩] at h
      cases h
    rw [List.takeWhile_cons_of_neg (by simpa using hc)]
    rfl

/-- What the pieces of a path are put behind. -/
def absoluteStart (base p : FilePath) : FilePath :=
  if p.isAbsolute then if p.leadingSlashes = 2 then ⟨"//"⟩ else ⟨"/"⟩ else base

def joinAll (p : FilePath) (pieces : List (List Char)) : FilePath :=
  pieces.foldl (fun path piece => path.join ⟨String.ofList piece⟩) p

theorem absolute_eq (base p : FilePath) : absolute base p =
    let whole := (absoluteStart base p).joinAll (properPieces p.text.toList)
    if p.endsInSlash then whole.join ⟨""⟩ else whole := by
  have hNames : ∀ start : FilePath, start = absoluteStart base p →
      (let whole := ((properPieces p.text.toList).map String.ofList).foldl
        (fun path name => path.join ⟨name⟩) start
      if p.endsInSlash then whole.join ⟨""⟩ else whole) =
      let whole := (absoluteStart base p).joinAll (properPieces p.text.toList)
      if p.endsInSlash then whole.join ⟨""⟩ else whole := by
    rintro _ rfl
    rw [List.foldl_map]
    rfl
  rw [absolute, labels_eq]
  apply hNames
  rw [absoluteStart, isAbsolute, leadingSlashes]
  split
  · rename_i hText
    simp [hText]
  · rename_i rest hThird hText
    cases rest with
    | nil => simp [hText]
    | cons c rest =>
      have hc : c ≠ '/' := fun hc => hThird rest (by rw [hc])
      simp [hText, hc]
  · rename_i rest _ hSecond hText
    cases rest with
    | nil => simp [hText]
    | cons c rest =>
      have hc : c ≠ '/' := fun hc => hSecond rest (by rw [hc])
      simp [hText, hc]
  · rename_i hFirst
    cases hText : p.text.toList with
    | nil => rfl
    | cons c rest =>
      have hc : c ≠ '/' := fun hc => hFirst rest (by rw [hText, hc])
      simp [hc]

theorem properPieces_joinAll (p : FilePath) {pieces : List (List Char)}
    (hProper : ∀ piece ∈ pieces, IsProper piece) :
    properPieces (p.joinAll pieces).text.toList = properPieces p.text.toList ++ pieces := by
  induction pieces generalizing p with
  | nil => exact (List.append_nil _).symm
  | cons piece pieces ih =>
    have hPiece := hProper piece List.mem_cons_self
    have hStep : properPieces (p.join ⟨String.ofList piece⟩).text.toList
        = properPieces p.text.toList ++ [piece] := by
      rw [properPieces_join p hPiece.isAbsolute_eq, String.toList_ofList, hPiece.properPieces_eq]
    rw [joinAll, List.foldl_cons, ← joinAll,
      ih _ fun other hOther => hProper other (List.mem_cons_of_mem _ hOther), hStep,
      List.append_assoc, List.singleton_append]

theorem isAbsolute_joinAll {p : FilePath} (h : p.isAbsolute = true) (pieces : List (List Char)) :
    (p.joinAll pieces).isAbsolute = true := by
  induction pieces generalizing p with
  | nil => exact h
  | cons piece pieces ih => exact ih (isAbsolute_join h _)

variable {base p : FilePath}

theorem absolute_eq_of_isAbsolute (h : p.isAbsolute = true) (base base' : FilePath) :
    absolute base p = absolute base' p := by
  rw [absolute_eq, absolute_eq, absoluteStart, absoluteStart, if_pos h, if_pos h]

theorem isAbsolute_absoluteStart (h : base.isAbsolute = true) :
    (absoluteStart base p).isAbsolute = true := by
  rw [absoluteStart]
  split
  · split <;> decide
  · exact h

theorem properPieces_absolute : properPieces (absolute base p).text.toList
    = properPieces (base.join p).text.toList := by
  have hWhole : properPieces ((absoluteStart base p).joinAll
      (properPieces p.text.toList)).text.toList = properPieces (base.join p).text.toList := by
    rw [properPieces_joinAll _ fun _ => isProper_of_mem_properPieces, absoluteStart]
    cases hRoot : p.isAbsolute with
    | false => rw [properPieces_join base hRoot, if_neg Bool.false_ne_true]
    | true =>
      rw [join_of_isAbsolute base hRoot, if_pos rfl]
      split <;> rfl
  rw [absolute_eq]
  simp only
  split
  · rw [properPieces_join _ rfl, hWhole]
    exact List.append_nil _
  · exact hWhole

theorem exists_properPieces_absolute (base p : FilePath) : ∃ before,
    properPieces (absolute base p).text.toList = before ++ properPieces p.text.toList := by
  rw [properPieces_absolute]
  cases hRoot : p.isAbsolute with
  | true => exact ⟨[], by rw [join_of_isAbsolute base hRoot, List.nil_append]⟩
  | false => exact ⟨_, properPieces_join base hRoot⟩

/-- A path made absolute means what it means when it is taken from the directory. -/
theorem components_absolute (h : base.isAbsolute = true) :
    (absolute base p).components = (base.join p).components := by
  rw [components_of_isAbsolute (isAbsolute_absolute fun _ => h),
    components_of_isAbsolute (isAbsolute_join h p), properPieces_absolute]

theorem endsInSlash_absolute (h : base.isAbsolute = true) (hEnd : p.endsInSlash = true) :
    (absolute base p).endsInSlash = true := by
  rw [absolute_eq, if_pos hEnd]
  exact endsInSlash_join_empty (isAbsolute_joinAll (isAbsolute_absoluteStart h) _)

/-! ## The spelling of a path made absolute -/

/-- The plainest spelling of an absolute path: a slash in front of each piece, perhaps a second one
at the front, and perhaps one at the end. -/
@[ext]
structure Spelling where
  doubled : Bool
  pieces : List (List Char)
  trailed : Bool
  proper : ∀ piece ∈ pieces, IsProper piece

namespace Spelling

/-- The root needs its slash also when none is asked for. -/
def path (s : Spelling) : FilePath :=
  ⟨String.ofList ((if s.doubled then ['/'] else []) ++ (s.pieces.flatMap ('/' :: ·) ++
    if s.trailed || s.pieces.isEmpty then ['/'] else []))⟩

def extend (s : Spelling) (pieces : List (List Char)) (h : ∀ piece ∈ pieces, IsProper piece) :
    Spelling :=
  { s with pieces := s.pieces ++ pieces, proper := List.forall_mem_append.mpr ⟨s.proper, h⟩ }

/-- The spelling that a path gets when it is made absolute. -/
def plain (base p : FilePath) : Spelling where
  doubled := p.leadingSlashes == 2
  pieces := properPieces (base.join p).text.toList
  trailed := p.endsInSlash
  proper _ := isProper_of_mem_properPieces

variable (s : Spelling)

theorem toList_path : s.path.text.toList = (if s.doubled then ['/'] else []) ++
    (s.pieces.flatMap ('/' :: ·) ++ if s.trailed || s.pieces.isEmpty then ['/'] else []) :=
  String.toList_ofList

theorem exists_cons_slash : ∃ rest, s.pieces.flatMap ('/' :: ·) ++
    (if s.trailed || s.pieces.isEmpty then ['/'] else []) = '/' :: rest := by
  cases s.pieces with
  | nil => exact ⟨[], by simp⟩
  | cons piece pieces => exact ⟨_, rfl⟩

theorem isAbsolute_path : s.path.isAbsolute = true := by
  obtain ⟨rest, hRest⟩ := s.exists_cons_slash
  rw [isAbsolute_iff, toList_path, hRest]
  cases s.doubled <;> exact ⟨_, rfl⟩

theorem leadingSlashes_path : s.path.leadingSlashes = if s.doubled then 2 else 1 := by
  have hOne : ((s.pieces.flatMap ('/' :: ·) ++
      if s.trailed || s.pieces.isEmpty then ['/'] else []).takeWhile (· == '/')).length = 1 := by
    cases hPieces : s.pieces with
    | nil => simp
    | cons piece pieces =>
      have hMem : piece ∈ s.pieces := hPieces ▸ List.mem_cons_self
      obtain ⟨c, cs, rfl, hc⟩ := (s.proper piece hMem).exists_cons
      simp [hc]
  rw [leadingSlashes, toList_path]
  cases s.doubled with
  | false => exact hOne
  | true => exact congrArg Nat.succ hOne

theorem endsInSlash_path : s.path.endsInSlash = (s.trailed || s.pieces.isEmpty) := by
  cases hEnd : s.trailed || s.pieces.isEmpty with
  | true =>
    rw [endsInSlash_iff, toList_path, hEnd, ← List.append_assoc]
    exact ⟨_, rfl⟩
  | false =>
    -- The text ends in the last piece, which is not empty and holds no slash.
    have hSome : s.pieces ≠ [] := by
      intro hNil
      rw [hNil, List.isEmpty_nil, Bool.or_true] at hEnd
      cases hEnd
    obtain ⟨front, last, hPieces⟩ : ∃ front last, s.pieces = front ++ [last] :=
      ⟨_, _, (List.dropLast_concat_getLast hSome).symm⟩
    have hLast := s.proper last (hPieces ▸ List.mem_append_right _ (List.mem_singleton_self _))
    obtain ⟨c, cs, hPiece, -⟩ := hLast.exists_cons
    have hText : ∃ before, s.path.text.toList = before ++ last := by
      rw [toList_path, hEnd, hPieces]
      exact ⟨(if s.doubled then ['/'] else []) ++ (front.flatMap ('/' :: ·) ++ ['/']), by simp⟩
    obtain ⟨before, hText⟩ := hText
    refine eq_false_of_ne_true fun hSlash => hLast.noSlash ?_
    rw [endsInSlash, beq_iff_eq, hText, List.getLast?_append, List.getLast?_eq_some_getLast
      (by simp [hPiece]), Option.some_or, Option.some_inj] at hSlash
    exact hSlash ▸ List.getLast_mem _

/-! ### Pieces -/

theorem splitSlashes_flatMap {pieces : List (List Char)} (h : ∀ piece ∈ pieces, IsProper piece) :
    splitSlashes (pieces.flatMap ('/' :: ·)) = [] :: pieces := by
  induction pieces using List.reverseRecOn with
  | nil => rfl
  | append_singleton front last ih =>
    have hLast := h last (List.mem_append_right _ (List.mem_singleton_self _))
    have hFront := ih fun piece hPiece => h piece (List.mem_append_left _ hPiece)
    rw [List.flatMap_append, List.flatMap_singleton, splitSlashes_append,
      splitSlashes_of_not_mem hLast.noSlash, hFront, List.cons_append]

/-- Nothing stands in front of the first slash and behind a slash at the end. -/
theorem splitSlashes_path : splitSlashes s.path.text.toList = (if s.doubled then [[]] else []) ++
    ([] :: s.pieces ++ if s.trailed || s.pieces.isEmpty then [[]] else []) := by
  have hRest : splitSlashes (s.pieces.flatMap ('/' :: ·) ++
      if s.trailed || s.pieces.isEmpty then ['/'] else [])
      = [] :: s.pieces ++ if s.trailed || s.pieces.isEmpty then [[]] else [] := by
    split
    · rw [splitSlashes_append, splitSlashes_flatMap s.proper]
      rfl
    · rw [List.append_nil, List.append_nil, splitSlashes_flatMap s.proper]
  rw [toList_path]
  cases s.doubled with
  | false => exact hRest
  | true => exact congrArg ([] :: ·) hRest

theorem properPieces_path : properPieces s.path.text.toList = s.pieces := by
  have hPieces : s.pieces.filter (!isIdle ·) = s.pieces :=
    List.filter_eq_self.mpr fun piece hMem => by simp [(s.proper piece hMem).notIdle]
  have hEmpty : isIdle [] = true := rfl
  rw [properPieces, splitSlashes_path]
  cases s.doubled <;> cases s.trailed || s.pieces.isEmpty <;> simp [hPieces, hEmpty]

theorem dot_not_mem : ['.'] ∉ splitSlashes s.path.text.toList := by
  have hDot : ['.'] ∉ s.pieces := fun hMem => absurd (s.proper _ hMem).notIdle (by decide)
  rw [splitSlashes_path]
  cases s.doubled <;> cases s.trailed || s.pieces.isEmpty <;> simp [hDot]

theorem toList_path_ne (hSingle : s.doubled = false) (before after : List Char) :
    s.path.text.toList ≠ before ++ '/' :: '/' :: after := by
  intro hText
  -- Between the two slashes would be an empty piece, with pieces on both sides of it.
  have hPieces := congrArg splitSlashes hText.symm
  obtain ⟨first, others, hBefore⟩ := List.exists_cons_of_ne_nil (splitSlashes_ne_nil before)
  rw [splitSlashes_path, hSingle, splitSlashes_append, hBefore] at hPieces
  obtain ⟨-, hPieces⟩ := List.cons_eq_cons.mp hPieces
  change others ++ [] :: splitSlashes after = s.pieces ++ _ at hPieces
  have hEmpty : [] ∈ (others ++ [] :: splitSlashes after).dropLast := by
    rw [List.dropLast_append_of_ne_nil (List.cons_ne_nil _ _),
      List.dropLast_cons_of_ne_nil (splitSlashes_ne_nil after)]
    exact List.mem_append_right _ List.mem_cons_self
  have hMem : [] ∈ s.pieces := by
    rw [hPieces] at hEmpty
    split at hEmpty
    · rwa [List.dropLast_concat] at hEmpty
    · rw [List.append_nil] at hEmpty
      exact List.dropLast_subset _ hEmpty
  exact absurd (s.proper _ hMem).notIdle (by decide)

theorem eq_nil_of_toList_path {before after : List Char}
    (h : s.path.text.toList = before ++ '/' :: '/' :: after) :
    before = [] ∧ s.doubled = true := by
  cases hDoubled : s.doubled with
  | false => exact absurd h (s.toList_path_ne hDoubled before after)
  | true =>
    refine ⟨?_, rfl⟩
    cases before with
    | nil => rfl
    | cons c before =>
      rw [toList_path, hDoubled] at h
      refine absurd ?_ ({ s with doubled := false }.toList_path_ne rfl before after)
      rw [toList_path]
      exact (List.cons_eq_cons.mp h).2

/-! ### Making a path absolute -/

/-- Joining a piece puts it behind the others, whether or not a slash is there yet. -/
theorem join_piece (hOpen : s.trailed = false) {piece : List Char} (hPiece : IsProper piece) :
    s.path.join ⟨String.ofList piece⟩
      = (s.extend [piece] (List.forall_mem_singleton.mpr hPiece)).path := by
  rw [join, if_neg (ne_true_of_eq_false hPiece.isAbsolute_eq),
    isEmpty_of_isAbsolute s.isAbsolute_path, endsInSlash_path, Bool.false_or, hOpen, Bool.false_or]
  apply eq_of_toList
  cases hPieces : s.pieces <;> simp [toList_path, extend, hOpen, hPieces]

theorem join_empty (hOpen : s.trailed = false) :
    s.path.join ⟨""⟩ = { s with trailed := true }.path := by
  rw [join, if_neg (by decide), isEmpty_of_isAbsolute s.isAbsolute_path, endsInSlash_path,
    Bool.false_or, hOpen, Bool.false_or]
  apply eq_of_toList
  split <;> rename_i hPieces <;> simp [toList_path, hOpen, hPieces]

theorem joinAll_path (hOpen : s.trailed = false) {more : List (List Char)}
    (hMore : ∀ piece ∈ more, IsProper piece) :
    s.path.joinAll more = (s.extend more hMore).path := by
  induction more using List.reverseRecOn with
  | nil => exact congrArg path (Spelling.ext rfl (List.append_nil _).symm rfl)
  | append_singleton front last ih =>
    have hFront : ∀ piece ∈ front, IsProper piece :=
      fun piece hPiece => hMore piece (List.mem_append_left _ hPiece)
    have hLast := hMore last (List.mem_append_right _ (List.mem_singleton_self _))
    rw [joinAll, List.foldl_append, List.foldl_cons, List.foldl_nil, ← joinAll, ih hFront,
      (s.extend front hFront).join_piece hOpen hLast]
    exact congrArg path (Spelling.ext rfl (List.append_assoc _ _ _) rfl)

end Spelling

/-- A directory in the spelling in which the system reports the working directory: from the root,
without an idle piece, a second slash at the front or, save for the root, a slash at the end. -/
def IsCanonical (base : FilePath) : Prop :=
  ∃ s : Spelling, s.doubled = false ∧ s.trailed = false ∧ base = s.path

/-- A path that is absolute, or is taken from a working directory, is made absolute in the plainest
spelling. -/
theorem absolute_eq_path (h : p.isAbsolute = true ∨ base.IsCanonical) :
    absolute base p = (Spelling.plain base p).path := by
  have hStart : ∃ s : Spelling, absoluteStart base p = s.path ∧ s.trailed = false ∧
      s.doubled = (p.leadingSlashes == 2) ∧
      s.pieces ++ properPieces p.text.toList = properPieces (base.join p).text.toList := by
    rw [absoluteStart]
    cases hRoot : p.isAbsolute with
    | true =>
      rw [join_of_isAbsolute base hRoot, if_pos rfl]
      refine ⟨⟨p.leadingSlashes == 2, [], false, List.forall_mem_nil _⟩, ?_, rfl, rfl, rfl⟩
      split
      · rename_i hTwo
        rw [hTwo]
        rfl
      · rename_i hTwo
        rw [beq_false_of_ne hTwo]
        rfl
    | false =>
      obtain ⟨s, hSingle, hOpen, rfl⟩ := h.resolve_left (by simp [hRoot])
      refine ⟨s, rfl, hOpen, ?_, ?_⟩
      · rw [leadingSlashes_eq_zero hRoot]
        exact hSingle
      · rw [properPieces_join _ hRoot, s.properPieces_path]
  obtain ⟨s, hStart, hOpen, hDoubled, hPieces⟩ := hStart
  have hProper : ∀ piece ∈ properPieces p.text.toList, IsProper piece :=
    fun _ => isProper_of_mem_properPieces
  rw [absolute_eq, hStart]
  simp only
  rw [s.joinAll_path hOpen hProper, (s.extend _ _).join_empty hOpen]
  cases hEnd : p.endsInSlash with
  | false => exact congrArg Spelling.path (Spelling.ext hDoubled hPieces (hOpen.trans hEnd.symm))
  | true => exact congrArg Spelling.path (Spelling.ext hDoubled hPieces hEnd.symm)

theorem absolute_path (base : FilePath) (s : Spelling) : absolute base s.path = s.path := by
  have hDoubled : (s.path.leadingSlashes == 2) = s.doubled := by
    rw [s.leadingSlashes_path]
    cases s.doubled <;> rfl
  have hPieces : properPieces (base.join s.path).text.toList = s.pieces := by
    rw [join_of_isAbsolute base s.isAbsolute_path, s.properPieces_path]
  rw [absolute_eq_path (.inl s.isAbsolute_path), Spelling.path, Spelling.plain]
  simp only [hDoubled, hPieces, s.endsInSlash_path, Bool.or_assoc, Bool.or_self]
  rfl

/-- The path `q` has no idle piece but for a second slash at the front and a slash at the end, where
`p` has them. -/
structure IsPlain (p q : FilePath) : Prop where
  noDot : ['.'] ∉ splitSlashes q.text.toList
  /-- A repeated slash stands at the front, where `p` has exactly two slashes. -/
  noRepeat : ∀ before after, q.text.toList = before ++ '/' :: '/' :: after →
    before = [] ∧ p.leadingSlashes = 2
  doubled : p.leadingSlashes = 2 → q.leadingSlashes = 2
  /-- Nothing but the root gets a slash at its end. -/
  trailed : q.endsInSlash = true → p.endsInSlash = true ∨ q.components = [.root]
  fixed : ∀ base, absolute base q = q

theorem isPlain_absolute (h : p.isAbsolute = true ∨ base.IsCanonical) :
    IsPlain p (absolute base p) := by
  rw [absolute_eq_path h]
  constructor
  · exact Spelling.dot_not_mem _
  · intro before after hText
    obtain ⟨hBefore, hDoubled⟩ := Spelling.eq_nil_of_toList_path _ hText
    exact ⟨hBefore, beq_iff_eq.mp hDoubled⟩
  · intro hTwo
    rw [Spelling.leadingSlashes_path]
    exact if_pos (beq_iff_eq.mpr hTwo)
  · intro hEnd
    rw [Spelling.endsInSlash_path, Bool.or_eq_true, List.isEmpty_iff] at hEnd
    refine hEnd.imp_right fun hNone => ?_
    rw [components_of_isAbsolute (Spelling.isAbsolute_path _), Spelling.properPieces_path, hNone]
    rfl
  · exact fun other => absolute_path other _

end TranscodingEngines.FilePath
