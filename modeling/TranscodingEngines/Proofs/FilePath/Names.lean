import TranscodingEngines.Proofs.FilePath.Absolute

/-!
# The name that a path ends in

The last name of a path is its last proper piece, whatever pieces stand in front of it. Changing
characters other than slashes and dots, and none into these, changes the name and its extension in
the same way.
-/

set_option autoImplicit false

namespace TranscodingEngines.FilePath

variable {p q : FilePath}

theorem fileName_eq (p : FilePath) : p.fileName = (properPieces p.text.toList).getLast?.bind
    fun piece => if piece = ['.', '.'] then none else some (String.ofList piece) := by
  rw [fileName, components_eq, List.getLast?_append, List.getLast?_map]
  cases (properPieces p.text.toList).getLast? with
  | none => rcases front_eq p with hFront | hFront | hFront <;> rw [hFront] <;> rfl
  | some piece => by_cases hUp : piece = ['.', '.'] <;> simp [component, hUp]

/-- The name is that of the last pieces, whatever stands in front of them. -/
theorem fileName_of_append {before : List (List Char)} {name : String}
    (h : properPieces q.text.toList = before ++ properPieces p.text.toList)
    (hName : p.fileName = some name) : q.fileName = some name := by
  rw [fileName_eq] at hName
  obtain ⟨piece, hPiece, hLast⟩ := Option.bind_eq_some_iff.mp hName
  rw [fileName_eq, h, List.getLast?_append, hPiece, Option.some_or, Option.bind_some, hLast]

/-! ## Changing characters -/

section Changing

variable {f : Char → Char} (hSlash : ∀ c, f c = '/' ↔ c = '/') (hDot : ∀ c, f c = '.' ↔ c = '.')

include hSlash in
theorem splitSlashes_map (cs : List Char) :
    splitSlashes (cs.map f) = (splitSlashes cs).map (·.map f) := by
  induction cs with
  | nil => rfl
  | cons c cs ih =>
    by_cases hc : c = '/'
    · rw [List.map_cons, (hSlash c).mpr hc, hc]
      exact congrArg ([] :: ·) ih
    · rw [List.map_cons, splitSlashes_cons ((hSlash c).not.mpr hc), splitSlashes_cons hc, ih]
      cases splitSlashes cs with
      | nil => rfl
      | cons piece pieces => rfl

include hDot

theorem map_eq_dot_iff {piece : List Char} : piece.map f = ['.'] ↔ piece = ['.'] := by
  simp [List.map_eq_cons_iff, hDot]

theorem map_eq_up_iff {piece : List Char} : piece.map f = ['.', '.'] ↔ piece = ['.', '.'] := by
  simp [List.map_eq_cons_iff, hDot]

theorem isIdle_map (piece : List Char) : isIdle (piece.map f) = isIdle piece := by
  rw [Bool.eq_iff_iff, isIdle_iff, isIdle_iff, List.map_eq_nil_iff, map_eq_dot_iff hDot]

theorem extensionOf_map (name : String) :
    extensionOf (name.map f) = (extensionOf name).map (·.map f) := by
  have hDots : (· != '.') ∘ f = (· != '.') := by
    funext c
    rw [Bool.eq_iff_iff, Function.comp_apply, bne_iff_ne, bne_iff_ne]
    exact (hDot c).not
  simp only [extensionOf, String.toList_map, ← List.map_reverse, List.dropWhile_map, hDots,
    List.takeWhile_map]
  -- Whether something stands before the last dot does not change.
  rcases name.toList.reverse.dropWhile (· != '.') with _ | ⟨dot, _ | ⟨c, before⟩⟩
  · rfl
  · rfl
  · refine congrArg some (String.toList_injective ?_)
    simp [String.toList_map]

include hSlash

theorem properPieces_map (cs : List Char) :
    properPieces (cs.map f) = (properPieces cs).map (·.map f) := by
  rw [properPieces, splitSlashes_map hSlash, List.filter_map, properPieces]
  refine congrArg _ (List.filter_congr fun piece _ => ?_)
  exact congrArg (!·) (isIdle_map hDot piece)

theorem fileName_map (p : FilePath) :
    (⟨p.text.map f⟩ : FilePath).fileName = p.fileName.map (·.map f) := by
  rw [fileName_eq, fileName_eq, String.toList_map, properPieces_map hSlash hDot,
    List.getLast?_map]
  cases (properPieces p.text.toList).getLast? with
  | none => rfl
  | some piece =>
    simp only [Option.map_some, Option.bind_some, map_eq_up_iff hDot]
    split
    · rfl
    · refine congrArg some (String.toList_injective ?_)
      simp [String.toList_map]

theorem extension_map (p : FilePath) :
    (⟨p.text.map f⟩ : FilePath).extension = p.extension.map (·.map f) := by
  rw [extension, extension, fileName_map hSlash hDot]
  cases p.fileName with
  | none => rfl
  | some name => exact extensionOf_map hDot name

end Changing

end TranscodingEngines.FilePath
