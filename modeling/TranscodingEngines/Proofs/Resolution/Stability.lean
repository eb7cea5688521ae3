import TranscodingEngines.Proofs.FilePath.Names
import TranscodingEngines.Proofs.Resolution

/-!
# What resolving leaves alone

Resolving completes a path and spells it plainly, and does no more: the path means the same as
before when it is taken from the working directory, and resolving the outcome once more changes
nothing. So a file has one spelling under which its probe is recorded. The outcome follows from the
configured path and from whether the engine needs AviSynth; neither the role nor the name of the
engine matters.

The system reports the working directory as an absolute path without idle pieces. For other
directories the path still means the same, but idle pieces of the directory remain in it.
-/

set_option autoImplicit false

namespace TranscodingEngines

namespace FilePath

variable {p q : FilePath}

/-! ## Extensions -/

/-- The extension is that of the last proper piece, whatever stands in front of it. -/
theorem extension_eq_of_append {before : List (List Char)} {found : String}
    (h : properPieces q.text.toList = before ++ properPieces p.text.toList)
    (hFound : p.extension = some found) : q.extension = some found := by
  obtain ⟨name, hName, hExtension⟩ := Option.bind_eq_some_iff.mp hFound
  rw [extension, fileName_of_append h hName, Option.bind_some, hExtension]

/-- Cuts a text behind its last slash. -/
theorem exists_last_piece (cs : List Char) : ∃ front last, '/' ∉ last ∧
    (front = [] ∨ ∃ before, front = before ++ ['/']) ∧ cs = front ++ last := by
  by_cases hSlash : '/' ∈ cs
  · obtain ⟨back, before, hText, hBack⟩ := List.eq_append_cons_of_mem (List.mem_reverse.mpr hSlash)
    refine ⟨before.reverse ++ ['/'], back.reverse, by simpa using hBack, .inr ⟨_, rfl⟩, ?_⟩
    rw [← List.reverse_reverse cs, hText]
    simp
  · exact ⟨[], cs, hSlash, .inl rfl, rfl⟩

theorem getLast?_properPieces {front piece : List Char}
    (hFront : front = [] ∨ ∃ before, front = before ++ ['/']) (hPiece : IsProper piece) :
    (properPieces (front ++ piece)).getLast? = some piece := by
  rcases hFront with rfl | ⟨before, rfl⟩
  · rw [List.nil_append, hPiece.properPieces_eq]
    rfl
  · rw [List.append_assoc, List.singleton_append, properPieces_append, hPiece.properPieces_eq,
      List.getLast?_concat]

theorem isProper_exe {cs : List Char} (h : '/' ∉ cs) : IsProper (cs ++ ['.', 'e', 'x', 'e']) := by
  refine ⟨by simpa using h, eq_false_of_ne_true fun hIdle => ?_⟩
  have hLength : (cs ++ ['.', 'e', 'x', 'e']).length ≤ 1 := by
    rcases isIdle_iff.mp hIdle with hPiece | hPiece <;> simp [hPiece]
  simp at hLength

theorem extensionOf_exe {cs : List Char} (h : cs ≠ []) :
    extensionOf (String.ofList (cs ++ ['.', 'e', 'x', 'e'])) = some "exe" := by
  obtain ⟨c, rest, hReverse⟩ := List.exists_cons_of_ne_nil (List.reverse_eq_nil_iff.not.mpr h)
  simp [extensionOf, hReverse]

theorem extension_exe (hText : p.isEmpty = false) (hEnd : p.endsInSlash = false) :
    (⟨p.text ++ ".exe"⟩ : FilePath).extension = some "exe" := by
  obtain ⟨front, last, hLast, hFront, hSplit⟩ := exists_last_piece p.text.toList
  have hNonempty : last ≠ [] := by
    rintro rfl
    rw [List.append_nil] at hSplit
    rcases hFront with rfl | ⟨before, rfl⟩
    · rw [isEmpty_iff.mpr hSplit] at hText
      cases hText
    · rw [endsInSlash_iff.mpr ⟨before, hSplit⟩] at hEnd
      cases hEnd
  have hUp : last ++ ['.', 'e', 'x', 'e'] ≠ ['.', '.'] := by
    intro hDots
    have hLength := congrArg List.length hDots
    simp at hLength
  have hExe : (p.text ++ ".exe").toList = front ++ (last ++ ['.', 'e', 'x', 'e']) := by
    rw [String.toList_append, hSplit, List.append_assoc]
    rfl
  rw [extension, fileName_eq, hExe, getLast?_properPieces hFront (isProper_exe hLast),
    Option.bind_some, if_neg hUp, Option.bind_some, extensionOf_exe hNonempty]

/-- A name for a program on Windows, up to the case of ASCII letters. -/
def IsProgram (p : FilePath) : Prop :=
  ∃ found, p.extension = some found ∧ ∃ ext ∈ windowsExtensions, Text.sameLetters ext found = true

theorem hasWindowsExtension_iff : p.hasWindowsExtension = true ↔ p.IsProgram := by
  rw [hasWindowsExtension, IsProgram]
  cases p.extension with
  | none => simp
  | some found => simp [List.any_eq_true]

theorem IsProgram.of_append {before : List (List Char)} (h : p.IsProgram)
    (hPieces : properPieces q.text.toList = before ++ properPieces p.text.toList) :
    q.IsProgram := by
  obtain ⟨found, hFound, hExt⟩ := h
  exact ⟨found, extension_eq_of_append hPieces hFound, hExt⟩

/-! ## Completion -/

variable {platform : Platform}

theorem completed_eq_self (h : platform.isWindows = false ∨ p.IsProgram) :
    p.completed platform = p := by
  rw [completed, if_neg]
  rcases h with hOther | hProgram
  · simp [hOther]
  · simp [hasWindowsExtension_iff.mpr hProgram]

theorem completed_eq_exe (hWindows : platform.isWindows = true) (h : ¬ p.IsProgram) :
    p.completed platform = ⟨p.text ++ ".exe"⟩ := by
  rw [completed, if_pos]
  rw [hWindows, Bool.true_and, Bool.not_eq_true', ← Bool.not_eq_true, hasWindowsExtension_iff]
  exact h

theorem isProgram_completed (hWindows : platform.isWindows = true) (hText : p.isEmpty = false)
    (hEnd : p.endsInSlash = false) : (p.completed platform).IsProgram := by
  by_cases hProgram : p.IsProgram
  · rwa [completed_eq_self (.inr hProgram)]
  · rw [completed_eq_exe hWindows hProgram]
    exact ⟨"exe", extension_exe hText hEnd, "exe", List.mem_cons_self, by decide⟩

theorem isEmpty_completed (hText : p.isEmpty = false) :
    (p.completed platform).isEmpty = false := by
  rw [completed]
  split
  · refine eq_false_of_ne_true fun hExe => ?_
    rw [isEmpty_iff, String.toList_append] at hExe
    cases (List.append_eq_nil_iff.mp hExe).2
  · exact hText

theorem isAbsolute_completed (hText : p.isEmpty = false) :
    (p.completed platform).isAbsolute = p.isAbsolute := by
  rw [completed]
  split
  · have hNonempty : p.text.toList ≠ [] := fun h => by
      rw [isEmpty_iff.mpr h] at hText
      cases hText
    obtain ⟨c, cs, hCons⟩ := List.exists_cons_of_ne_nil hNonempty
    simp [isAbsolute, hCons]
  · rfl

theorem leadingSlashes_completed : (p.completed platform).leadingSlashes = p.leadingSlashes := by
  have hExe : ∀ cs : List Char, ((cs ++ ['.', 'e', 'x', 'e']).takeWhile (· == '/')).length
      = (cs.takeWhile (· == '/')).length := by
    intro cs
    induction cs with
    | nil => rfl
    | cons c cs ih =>
      rw [List.cons_append, List.takeWhile_cons, List.takeWhile_cons]
      split
      · exact congrArg Nat.succ ih
      · rfl
  rw [completed]
  split
  · rw [leadingSlashes, String.toList_append]
    exact hExe _
  · rfl

theorem endsInSlash_of_completed (h : (p.completed platform).endsInSlash = true) :
    p.endsInSlash = true := by
  rw [completed] at h
  split at h
  · obtain ⟨front, hText⟩ := endsInSlash_iff.mp h
    have hLast := congrArg List.getLast? hText
    rw [String.toList_append, List.getLast?_append, List.getLast?_concat] at hLast
    cases hLast
  · exact h

/-- Completion leaves the front of a path alone, and adds no slash. -/
theorem IsPlain.of_completed (h : IsPlain (p.completed platform) q) : IsPlain p q where
  noDot := h.noDot
  noRepeat before after hText := leadingSlashes_completed (p := p) ▸ h.noRepeat before after hText
  doubled hTwo := h.doubled (leadingSlashes_completed.trans hTwo)
  trailed hEnd := (h.trailed hEnd).imp_left endsInSlash_of_completed
  fixed := h.fixed

/-! ## Locating -/

variable {base : FilePath} {x : Executable} {workingDirectory : Except SystemError FilePath}

theorem locate_eq_ok (h : p.locate (.ok base) = .ok x) :
    x = .bare p ∧ p.isBare = true ∨ x = .absolute (absolute base p) := by
  rw [locate] at h
  split at h
  · rename_i hBare
    cases h
    exact .inl ⟨rfl, hBare⟩
  split at h
  · rename_i hRoot
    cases h
    exact .inr (congrArg _ (absolute_eq_of_isAbsolute hRoot p base))
  · cases h
    exact .inr rfl

theorem eq_absolute_of_locate (h : p.locate (.ok base) = .ok (.absolute q)) :
    q = absolute base p := by
  rcases locate_eq_ok h with ⟨hBare, -⟩ | hAbsolute
  · cases hBare
  · exact Executable.absolute.inj hAbsolute

theorem IsProgram.of_locate (hProgram : p.IsProgram) (h : p.locate (.ok base) = .ok x) :
    x.path.IsProgram := by
  rcases locate_eq_ok h with ⟨rfl, -⟩ | rfl
  · exact hProgram
  · obtain ⟨before, hPieces⟩ := exists_properPieces_absolute base p
    exact hProgram.of_append hPieces

theorem isEmpty_of_locate (hRoot : base.isAbsolute = true) (hText : p.isEmpty = false)
    (h : p.locate (.ok base) = .ok x) : x.path.isEmpty = false := by
  rcases locate_eq_ok h with ⟨rfl, -⟩ | rfl
  · exact hText
  · exact isEmpty_of_isAbsolute (isAbsolute_absolute fun _ => hRoot)

theorem locate_path (hRoot : base.isAbsolute = true) (h : p.locate (.ok base) = .ok x)
    (hPlain : ∀ q, x = .absolute q → p.IsPlain q) : x.path.locate workingDirectory = .ok x := by
  rcases locate_eq_ok h with ⟨rfl, hBare⟩ | rfl
  · exact if_pos hBare
  · have hStarts : (absolute base p).isAbsolute = true := isAbsolute_absolute fun _ => hRoot
    change (absolute base p).locate workingDirectory = .ok (.absolute (absolute base p))
    rw [locate, not_isBare_of_isAbsolute hStarts, if_neg Bool.false_ne_true, if_pos hStarts,
      (hPlain _ rfl).fixed]

end FilePath

/-! ## The working directory -/

theorem FilePath.toList_intercalate (name : String) (names : List String) :
    ("/".intercalate (name :: names)).toList
      = name.toList ++ (names.map String.toList).flatMap ('/' :: ·) := by
  induction names generalizing name with
  | nil => simp
  | cons next names ih =>
    rw [String.intercalate_cons_cons, String.toList_append, String.toList_append, ih,
      List.append_assoc]
    rfl

/-- Locations, the working directory of a machine among them, have paths without idle pieces. -/
theorem Host.isCanonical_pathOf {at_ : Location}
    (hNames : ∀ name ∈ at_, FilePath.IsProper name.toList) : (pathOf at_).IsCanonical := by
  refine ⟨⟨false, at_.map String.toList, false, List.forall_mem_map.mpr hNames⟩, rfl, rfl, ?_⟩
  apply FilePath.eq_of_toList
  rw [FilePath.Spelling.toList_path, pathOf, String.toList_append]
  cases at_ with
  | nil => rfl
  | cons name names =>
    rw [FilePath.toList_intercalate]
    simp

namespace Environment

variable {env : Environment} {e : Engine} {r : Role} {base configured : FilePath} {x : Executable}

/-! ## Resolution -/

/-- What the path configured for a role resolves to: `p` is the path that is looked for, and `x`
what comes of it in the directory `base`. -/
structure Settles (env : Environment) (e : Engine) (r : Role) (base configured p : FilePath)
    (x : Executable) : Prop where
  kept : env.platform.isWindows = false ∨ configured.IsProgram → p = configured
  completed : env.platform.isWindows = true → ¬ configured.IsProgram →
    p = ⟨configured.text ++ ".exe"⟩
  program : env.platform.isWindows = true → x.path.IsProgram
  /-- A bare executable keeps its spelling. -/
  bare : ∀ q, x = .bare q → q = p
  /-- An absolute one means what the path means in the directory, two dots included. -/
  components_eq : ∀ q, x = .absolute q → q.components = (base.join p).components
  trailed : ∀ q, x = .absolute q → p.endsInSlash = true → q.endsInSlash = true
  plain : ∀ q, x = .absolute q → configured.isAbsolute = true ∨ base.IsCanonical →
    configured.IsPlain q
  /-- Resolving the outcome once more yields it again. -/
  stable : (∀ q, x = .absolute q → configured.isAbsolute = true ∨ base.IsCanonical) →
    env.resolved (e.withExecutable r (some x.path)) r = .ok x
  /-- Another role or another engine makes no difference, unless by its need for AviSynth. -/
  shared : ∀ e' r', e'.configured r' = some configured →
    e'.requiresAvisynth = e.requiresAvisynth → env.resolved e' r' = .ok x

theorem usablePath_of_resolved (hConfigured : e.configured r = some configured)
    (h : env.resolved e r = .ok x) : e.usablePath r = some configured := by
  cases hPath : e.usablePath r with
  | none =>
    rw [resolved, Engine.resolve, hPath] at h
    cases h
  | some p =>
    have hSame := (Engine.usablePath_eq_some_iff.mp hPath).1
    rw [hConfigured] at hSame
    exact hSame.symm

theorem suits_of_resolved (h : env.resolved e r = .ok x) : env.suits e = true := by
  rw [suits]
  rw [resolved, Engine.resolve] at h
  split at h
  · cases h
  simp only at h
  split at h
  · cases h
  · rename_i hSuits
    rw [← Bool.not_inj_iff, Bool.not_or, Bool.not_not]
    exact eq_false_of_ne_true hSuits

theorem resolved_withExecutable (hSuits : env.suits e = true) (hText : x.path.isEmpty = false)
    (hCompleted : x.path.completed env.platform = x.path)
    (hLocate : x.path.locate env.workingDirectory = .ok x) :
    env.resolved (e.withExecutable r (some x.path)) r = .ok x := by
  have hConfigured : (e.withExecutable r (some x.path)).configured r = some x.path := by
    cases r <;> rfl
  refine resolved_of_locate (Engine.usablePath_eq_some_iff.mpr ⟨hConfigured, hText⟩) hSuits ?_
  rwa [hCompleted]

/-- Resolving a configured path completes it and spells it plainly, and does no more. -/
theorem resolved_settles (env : Environment) (e : Engine) (r : Role) {base configured : FilePath}
    {x : Executable} (hBase : env.workingDirectory = .ok base) (hRoot : base.isAbsolute = true)
    (hConfigured : e.configured r = some configured)
    (hEnd : env.platform.isWindows = true → configured.endsInSlash = false)
    (h : env.resolved e r = .ok x) : ∃ p, env.Settles e r base configured p x := by
  have hPath := usablePath_of_resolved hConfigured h
  have hText := (Engine.usablePath_eq_some_iff.mp hPath).2
  have hSuits := suits_of_resolved h
  have hResolved := locate_of_resolved hPath h
  have hLocate : (configured.completed env.platform).locate (.ok base) = .ok x := hBase ▸ hResolved
  have hProgram : env.platform.isWindows = true → x.path.IsProgram := fun hWindows =>
    (FilePath.isProgram_completed hWindows hText (hEnd hWindows)).of_locate hLocate
  have hPlain : ∀ q, x = .absolute q → configured.isAbsolute = true ∨ base.IsCanonical →
      (configured.completed env.platform).IsPlain q := by
    rintro q rfl hStart
    rw [FilePath.eq_absolute_of_locate hLocate]
    rw [← FilePath.isAbsolute_completed hText] at hStart
    exact FilePath.isPlain_absolute hStart
  refine ⟨configured.completed env.platform, ?_⟩
  constructor
  · exact FilePath.completed_eq_self
  · exact FilePath.completed_eq_exe
  · exact hProgram
  · rintro q rfl
    exact (FilePath.eq_of_locate_bare hLocate).1
  · rintro q rfl
    rw [FilePath.eq_absolute_of_locate hLocate]
    exact FilePath.components_absolute hRoot
  · rintro q rfl
    rw [FilePath.eq_absolute_of_locate hLocate]
    exact FilePath.endsInSlash_absolute hRoot
  · exact fun q hq hStart => (hPlain q hq hStart).of_completed
  · intro hStart
    have hCompleted : x.path.completed env.platform = x.path := by
      apply FilePath.completed_eq_self
      cases hWindows : env.platform.isWindows with
      | false => exact .inl rfl
      | true => exact .inr (hProgram hWindows)
    have hNonempty := FilePath.isEmpty_of_locate hRoot (FilePath.isEmpty_completed hText) hLocate
    exact resolved_withExecutable hSuits hNonempty hCompleted
      (FilePath.locate_path hRoot hLocate fun q hq => hPlain q hq (hStart q hq))
  · intro e' r' hOther hAvisynth
    refine resolved_of_locate (Engine.usablePath_eq_some_iff.mpr ⟨hOther, hText⟩) ?_ hResolved
    rw [suits, hAvisynth]
    exact hSuits

def silentWindows : Environment := { silent with platform := ⟨.windows, true, false⟩ }

/-- A path up from the working directory, with a repeated slash, a dot in the way and an extension
that is not that of a program. -/
theorem resolved_settles_silentWindows :
    let configured : FilePath := ⟨"..//tools/./ffmpeg.BIN"⟩
    let x : Executable := .absolute ⟨"/srv/../tools/ffmpeg.BIN.exe"⟩
    silentWindows.workingDirectory = .ok ⟨"/srv"⟩ ∧ (⟨"/srv"⟩ : FilePath).isAbsolute = true ∧
      (ffmpegAt configured).configured .installed = some configured ∧
      configured.endsInSlash = false ∧
      silentWindows.resolved (ffmpegAt configured) .installed = .ok x ∧
      (∃ p, silentWindows.Settles (ffmpegAt configured) .installed ⟨"/srv"⟩ configured p x) ∧
      silentWindows.resolved ((ffmpegAt configured).withExecutable .installed (some x.path))
        .installed = .ok x := by
  intro configured x
  have hRoot : (⟨"/srv"⟩ : FilePath).isAbsolute = true := by decide +kernel
  have hEnd : configured.endsInSlash = false := by decide +kernel
  have hResolved : silentWindows.resolved (ffmpegAt configured) .installed = .ok x := by
    decide +kernel
  have hName : FilePath.IsProper "srv".toList := ⟨by decide +kernel, by decide +kernel⟩
  have hPath : Host.pathOf ["srv"] = ⟨"/srv"⟩ := by decide +kernel
  have hCanonical : (⟨"/srv"⟩ : FilePath).IsCanonical :=
    hPath ▸ Host.isCanonical_pathOf (List.forall_mem_singleton.mpr hName)
  obtain ⟨p, hSettles⟩ := resolved_settles silentWindows (ffmpegAt configured) .installed rfl hRoot
    rfl (fun _ => hEnd) hResolved
  exact ⟨rfl, hRoot, rfl, hEnd, hResolved, ⟨p, hSettles⟩,
    hSettles.stable fun _ _ => .inr hCanonical⟩

end Environment

end TranscodingEngines
