import TranscodingEngines.Media
import TranscodingEngines.Proofs.FilePath.Names
import TranscodingEngines.Proofs.Text.Trim

/-!
# What a location tells of its media

The purpose of an engine follows from two things: whether the text before the first `://` of the
location is a streaming scheme, and the extension of the name that the path ends in. So neither the
case of letters nor a query behind an address nor a directory in front of a name changes it, and two
resources are compatible with the same engines exactly if their media have the same purpose.
-/

set_option autoImplicit false

namespace TranscodingEngines

namespace Media

/-- What stands between the scheme of an address and the rest. -/
def schemeMark : List Char := [':', '/', '/']

def HasMark (location : String) : Prop := schemeMark <:+: location.toList

/-- The scheme is the text before the first mark of the location. -/
structure IsSchemeOf (scheme location : String) : Prop where
  stands : ∃ rest, location.toList = scheme.toList ++ schemeMark ++ rest
  first : ¬ schemeMark <:+: scheme.toList ++ [':', '/']

def IsStream (location : String) : Prop :=
  purpose location = some .videoStream ∨ purpose location = some .audioStream

/-- The path whose extension counts: that of a stream, or else the location itself. -/
def mediaPath (location : String) : FilePath := (streamPath location).getD ⟨location⟩

/-! ## The first mark -/

theorem cutScheme_eq_none_iff {cs : List Char} : cutScheme cs = none ↔ ¬ schemeMark <:+: cs := by
  fun_induction cutScheme cs with
  | case1 => simp [schemeMark]
  | case2 rest => exact iff_of_false (fun h => nomatch h) (not_not_intro ⟨[], rest, rfl⟩)
  | case3 c rest hOther ih =>
    have hFront : ¬ schemeMark <+: c :: rest := by
      rintro ⟨behind, hSplit⟩
      obtain ⟨rfl, rfl⟩ := List.cons_eq_cons.mp hSplit
      exact hOther behind rfl rfl
    rw [Option.map_eq_none_iff, ih, List.infix_cons_iff, or_iff_right hFront]

theorem cutScheme_eq_some_iff {cs scheme rest : List Char} : cutScheme cs = some (scheme, rest) ↔
    cs = scheme ++ schemeMark ++ rest ∧ ¬ schemeMark <:+: scheme ++ [':', '/'] := by
  fun_induction cutScheme cs generalizing scheme with
  | case1 => simp [schemeMark]
  | case2 behind =>
    cases scheme with
    | nil => simp [schemeMark, List.infix_cons_iff]
    | cons c scheme =>
      refine iff_of_false (by simp) ?_
      rintro ⟨hSplit, hFirst⟩
      -- The mark at the front of the text is within the scheme and what follows it.
      have hFront : schemeMark <+: c :: scheme ++ [':', '/'] := by
        have hMark : schemeMark <+: ':' :: '/' :: '/' :: behind := ⟨behind, rfl⟩
        refine List.prefix_of_prefix_length_le hMark ⟨'/' :: rest, ?_⟩ (by simp [schemeMark])
        rw [hSplit]
        simp [schemeMark]
      exact hFirst hFront.isInfix
  | case3 c behind hOther ih =>
    have hFront : ¬ schemeMark <+: c :: behind := by
      rintro ⟨rest, hSplit⟩
      obtain ⟨rfl, rfl⟩ := List.cons_eq_cons.mp hSplit
      exact hOther rest rfl rfl
    cases scheme with
    | nil =>
      refine iff_of_false (by simp) ?_
      rintro ⟨hSplit, -⟩
      exact hFront ⟨rest, hSplit.symm⟩
    | cons d scheme =>
      have hWithin : c = d → behind = scheme ++ schemeMark ++ rest →
          ¬ schemeMark <+: d :: (scheme ++ [':', '/']) := by
        rintro rfl rfl hMark
        refine hFront (hMark.trans ⟨'/' :: rest, ?_⟩)
        simp [schemeMark]
      simp only [List.cons_append, List.infix_cons_iff, not_or, List.cons_eq_cons]
      constructor
      · intro hCut
        obtain ⟨⟨front, back⟩, hBehind, hParts⟩ := Option.map_eq_some_iff.mp hCut
        cases hParts
        obtain ⟨hSplit, hFirst⟩ := ih.mp hBehind
        exact ⟨⟨rfl, hSplit⟩, hWithin rfl hSplit, hFirst⟩
      · rintro ⟨⟨rfl, hSplit⟩, -, hFirst⟩
        rw [ih.mpr ⟨hSplit, hFirst⟩]
        rfl

theorem hasMark_iff {location : String} :
    HasMark location ↔ (cutScheme location.toList).isSome = true := by
  rw [HasMark, ← not_iff_not, ← cutScheme_eq_none_iff, Bool.not_eq_true, Option.isSome_eq_false_iff,
    Option.isNone_iff_eq_none]

theorem cutScheme_append {cs scheme rest : List Char} (h : cutScheme cs = some (scheme, rest))
    (more : List Char) : cutScheme (cs ++ more) = some (scheme, rest ++ more) := by
  obtain ⟨hSplit, hFirst⟩ := cutScheme_eq_some_iff.mp h
  rw [cutScheme_eq_some_iff, hSplit, List.append_assoc]
  exact ⟨rfl, hFirst⟩

theorem cutScheme_map {f : Char → Char} (hColon : ∀ c, f c = ':' ↔ c = ':')
    (hSlash : ∀ c, f c = '/' ↔ c = '/') (cs : List Char) :
    cutScheme (cs.map f) = (cutScheme cs).map fun parts => (parts.1.map f, parts.2.map f) := by
  fun_induction cutScheme cs with
  | case1 => rfl
  | case2 rest =>
    simp only [List.map_cons, (hColon ':').mpr rfl, (hSlash '/').mpr rfl]
    rfl
  | case3 c rest hOther ih =>
    have hFront : ∀ behind, f c = ':' → rest.map f = '/' :: '/' :: behind → False := by
      intro behind hc hRest
      obtain ⟨d, rest, rfl, hd, hRest⟩ := List.map_eq_cons_iff.mp hRest
      obtain ⟨k, rest, rfl, hk, -⟩ := List.map_eq_cons_iff.mp hRest
      rw [hSlash] at hd hk
      subst hd hk
      exact hOther rest ((hColon c).mp hc) rfl
    rw [List.map_cons, cutScheme.eq_3 _ _ hFront, ih, Option.map_map, Option.map_map]
    rfl

/-! ## Streams -/

/-- Only the letter `k` stands for more than its two cases. -/
theorem lowerLetter_eq_iff {c d : Char} (hLetter : d ≠ 'k') (hKelvin : d ≠ '\u212a') :
    Text.lowerLetter c = d ↔ c.toLower = d := by
  rw [Text.lowerLetter]
  split
  · rename_i hc
    subst hc
    exact iff_of_false hLetter.symm hKelvin.symm
  · exact Iff.rfl

theorem map_lowerLetter_eq_iff {cs ds : List Char} (h : ∀ d ∈ ds, d ≠ 'k' ∧ d ≠ '\u212a') :
    cs.map Text.lowerLetter = ds ↔ cs.map Char.toLower = ds := by
  induction cs generalizing ds with
  | nil => exact Iff.rfl
  | cons c cs ih =>
    cases ds with
    | nil => simp
    | cons d ds =>
      obtain ⟨⟨hLetter, hKelvin⟩, hRest⟩ := List.forall_mem_cons.mp h
      rw [List.map_cons, List.map_cons, List.cons_eq_cons, List.cons_eq_cons,
        lowerLetter_eq_iff hLetter hKelvin, ih hRest]

theorem contains_streamSchemes_iff {scheme : String} :
    streamSchemes.contains (Text.lowerLetters scheme) = true ↔
      ∃ s ∈ streamSchemes, Text.sameLetters s scheme = true := by
  have hPlain : ∀ s ∈ streamSchemes, (s.toList.all fun d => d != 'k' && d != '\u212a') = true ∧
      s.toList.map Char.toLower = s.toList := by decide +kernel
  have hSame : ∀ s ∈ streamSchemes,
      Text.lowerLetters scheme = s ↔ Text.sameLetters s scheme = true := by
    intro s hs
    obtain ⟨hLetters, hLow⟩ := hPlain s hs
    simp only [List.all_eq_true, Bool.and_eq_true, bne_iff_ne] at hLetters
    rw [← String.toList_inj, Text.lowerLetters, String.toList_map, map_lowerLetter_eq_iff hLetters,
      Text.sameLetters_iff, hLow, eq_comm]
  rw [List.contains_iff_mem]
  constructor
  · intro hMem
    exact ⟨_, hMem, (hSame _ hMem).mp rfl⟩
  · rintro ⟨s, hs, hLetters⟩
    rw [(hSame s hs).mpr hLetters]
    exact hs

theorem streamPath_eq_some_iff {location : String} {path : FilePath} :
    streamPath location = some path ↔ ∃ scheme rest,
      cutScheme location.toList = some (scheme, rest) ∧
      streamSchemes.contains (Text.lowerLetters (String.ofList scheme)) = true ∧
      path = ⟨String.ofList (rest.takeWhile fun c => c != '?' && c != '#')⟩ := by
  rw [streamPath]
  cases cutScheme location.toList with
  | none => simp
  | some parts =>
    obtain ⟨scheme, rest⟩ := parts
    simp [eq_comm]

theorem streamPath_eq_none_of_not_hasMark {location : String} (h : ¬ HasMark location) :
    streamPath location = none := by
  rw [streamPath, cutScheme_eq_none_iff.mpr h]

theorem filePurpose_ne_stream (ext : String) :
    filePurpose ext ≠ some .videoStream ∧ filePurpose ext ≠ some .audioStream := by
  rw [filePurpose]
  split
  · exact ⟨nofun, nofun⟩
  split
  · exact ⟨nofun, nofun⟩
  split <;> exact ⟨nofun, nofun⟩

theorem isStream_iff {location : String} :
    IsStream location ↔ (streamPath location).isSome = true := by
  rw [IsStream, purpose]
  cases streamPath location with
  | none =>
    refine iff_of_false ?_ Bool.false_ne_true
    rintro (h | h)
    · obtain ⟨ext, -, hExt⟩ := Option.bind_eq_some_iff.mp h
      exact (filePurpose_ne_stream ext).1 hExt
    · obtain ⟨ext, -, hExt⟩ := Option.bind_eq_some_iff.mp h
      exact (filePurpose_ne_stream ext).2 hExt
  | some path =>
    refine iff_of_true ?_ rfl
    dsimp only
    rw [streamPurpose]
    split
    · exact .inr rfl
    · exact .inl rfl

theorem isStream_iff_scheme {location : String} : IsStream location ↔
    ∃ scheme, IsSchemeOf scheme location ∧
      ∃ s ∈ streamSchemes, Text.sameLetters s scheme = true := by
  rw [isStream_iff, Option.isSome_iff_exists]
  constructor
  · rintro ⟨path, hPath⟩
    obtain ⟨scheme, rest, hCut, hListed, -⟩ := streamPath_eq_some_iff.mp hPath
    obtain ⟨hSplit, hFirst⟩ := cutScheme_eq_some_iff.mp hCut
    rw [← String.toList_ofList (l := scheme)] at hSplit hFirst
    exact ⟨String.ofList scheme, ⟨⟨rest, hSplit⟩, hFirst⟩, contains_streamSchemes_iff.mp hListed⟩
  · rintro ⟨scheme, ⟨⟨rest, hSplit⟩, hFirst⟩, hListed⟩
    have hCut := cutScheme_eq_some_iff.mpr ⟨hSplit, hFirst⟩
    refine ⟨_, streamPath_eq_some_iff.mpr ⟨_, rest, hCut, ?_, rfl⟩⟩
    rw [String.ofList_toList]
    exact contains_streamSchemes_iff.mpr hListed

/-- A location is a stream or not, and its extension does the rest. -/
theorem purpose_eq (location : String) : purpose location =
    if (streamPath location).isSome then some (streamPurpose (extensionOf (mediaPath location)))
    else (extensionOf (mediaPath location)).bind filePurpose := by
  rw [purpose, mediaPath]
  cases streamPath location <;> rfl

theorem purpose_congr {location location' : String}
    (hStream : (streamPath location).isSome = (streamPath location').isSome)
    (hExtension : extensionOf (mediaPath location) = extensionOf (mediaPath location')) :
    purpose location = purpose location' := by
  rw [purpose_eq, purpose_eq, hStream, hExtension]

/-! ## The case of letters -/

theorem toLower_eq_iff {m : Char} (hm : m ∈ [':', '/', '.', '?', '#']) (c : Char) :
    c.toLower = m ↔ c = m := by
  have hMarks : ([':', '/', '.', '?', '#'].all fun m => (c.toLower == m) == (c == m)) = true :=
    Text.toLower_induction
      (P := fun c d => ([':', '/', '.', '?', '#'].all fun m => (d == m) == (c == m)) = true)
      (fun c => by simp) (by decide) c
  have hMark := beq_iff_eq.mp (List.all_eq_true.mp hMarks m hm)
  rw [← beq_iff_eq, hMark, beq_iff_eq]

theorem lowerLetter_toLower (c : Char) : Text.lowerLetter c.toLower = Text.lowerLetter c :=
  Text.toLower_induction (P := fun c d => Text.lowerLetter d = Text.lowerLetter c)
    (fun _ => rfl) (by decide) c

theorem lowerLetters_toLower (s : String) :
    Text.lowerLetters (s.map Char.toLower) = Text.lowerLetters s := by
  rw [← String.toList_inj, Text.lowerLetters, Text.lowerLetters, String.toList_map,
    String.toList_map, String.toList_map, List.map_map]
  exact List.map_congr_left fun c _ => lowerLetter_toLower c

theorem extensionOf_toLower (path : FilePath) :
    extensionOf ⟨path.text.map Char.toLower⟩ = extensionOf path := by
  rw [extensionOf, extensionOf,
    FilePath.extension_map (toLower_eq_iff (by simp)) (toLower_eq_iff (by simp)), Option.map_map]
  exact congrArg (path.extension.map ·) (funext lowerLetters_toLower)

theorem streamPath_toLower (location : String) : streamPath (location.map Char.toLower)
    = (streamPath location).map fun path => ⟨path.text.map Char.toLower⟩ := by
  have hStops : (fun c => c != '?' && c != '#') ∘ Char.toLower = fun c => c != '?' && c != '#' := by
    funext c
    rw [Bool.eq_iff_iff]
    simp [toLower_eq_iff]
  rw [streamPath, streamPath, String.toList_map,
    cutScheme_map (toLower_eq_iff (by simp)) (toLower_eq_iff (by simp))]
  cases cutScheme location.toList with
  | none => rfl
  | some parts =>
    obtain ⟨scheme, rest⟩ := parts
    have hScheme : Text.lowerLetters (String.ofList (scheme.map Char.toLower))
        = Text.lowerLetters (String.ofList scheme) := by
      rw [← lowerLetters_toLower (String.ofList scheme)]
      refine congrArg Text.lowerLetters (String.toList_injective ?_)
      simp [String.toList_map]
    simp only [Option.map_some, hScheme, List.takeWhile_map, hStops]
    split
    · refine congrArg some (FilePath.eq_of_toList ?_)
      simp [String.toList_map]
    · rfl

theorem purpose_toLower (location : String) :
    purpose (location.map Char.toLower) = purpose location := by
  refine purpose_congr ?_ ?_
  · rw [streamPath_toLower, Option.isSome_map]
  · rw [mediaPath, mediaPath, streamPath_toLower]
    cases streamPath location with
    | none => exact extensionOf_toLower ⟨location⟩
    | some path => exact extensionOf_toLower path

theorem purpose_eq_of_sameLetters {location location' : String}
    (h : Text.sameLetters location location' = true) : purpose location = purpose location' := by
  have hLow : location.map Char.toLower = location'.map Char.toLower := by
    rw [← String.toList_inj, String.toList_map, String.toList_map]
    exact Text.sameLetters_iff.mp h
  rw [← purpose_toLower location, hLow, purpose_toLower]

/-! ## Queries and directories -/

theorem streamPath_append {location more : String} {path : FilePath}
    (h : streamPath location = some path)
    (hQuery : more.toList.head? = some '?' ∨ more.toList.head? = some '#') :
    streamPath (location ++ more) = some path := by
  obtain ⟨scheme, rest, hCut, hListed, rfl⟩ := streamPath_eq_some_iff.mp h
  refine streamPath_eq_some_iff.mpr ⟨scheme, rest ++ more.toList, ?_, hListed, ?_⟩
  · rw [String.toList_append]
    exact cutScheme_append hCut _
  · -- The path ends where the query starts, if it did not end before.
    have hNone : more.toList.takeWhile (fun c => c != '?' && c != '#') = [] := by
      rcases hQuery with hHead | hHead <;>
        obtain ⟨query, hMore⟩ := List.head?_eq_some_iff.mp hHead <;> simp [hMore]
    rw [List.takeWhile_append, hNone, List.append_nil]
    split
    · rename_i hWhole
      rw [(List.takeWhile_prefix _).eq_of_length hWhole]
    · rfl

theorem purpose_append {location more : String} (h : IsStream location)
    (hQuery : more.toList.head? = some '?' ∨ more.toList.head? = some '#') :
    purpose (location ++ more) = purpose location := by
  obtain ⟨path, hPath⟩ := Option.isSome_iff_exists.mp (isStream_iff.mp h)
  rw [purpose, purpose, hPath, streamPath_append hPath hQuery]

theorem purpose_inDirectory {directory name : String}
    (hName : (⟨name⟩ : FilePath).fileName ≠ none) (hPlain : ¬ HasMark name)
    (hWhole : ¬ HasMark (directory ++ "/" ++ name)) :
    purpose (directory ++ "/" ++ name) = purpose name := by
  obtain ⟨last, hLast⟩ := Option.ne_none_iff_exists'.mp hName
  have hPieces : FilePath.properPieces (directory ++ "/" ++ name).toList
      = FilePath.properPieces directory.toList ++ FilePath.properPieces name.toList := by
    rw [String.toList_append, String.toList_append, List.append_assoc]
    exact FilePath.properPieces_append _ _
  have hSame : (⟨directory ++ "/" ++ name⟩ : FilePath).fileName = some last :=
    FilePath.fileName_of_append (p := ⟨name⟩) hPieces hLast
  rw [purpose, purpose, streamPath_eq_none_of_not_hasMark hPlain,
    streamPath_eq_none_of_not_hasMark hWhole]
  dsimp only
  rw [extensionOf, extensionOf, FilePath.extension, FilePath.extension, hSame, hLast]

theorem compatible_iff {location location' : String} :
    (∀ e, (resource location).isCompatible e = (resource location').isCompatible e) ↔
      purpose location = purpose location' := by
  constructor
  · intro h
    have hSome : ∀ p, purpose location = some p ↔ purpose location' = some p := by
      intro p
      have hEngine : (purpose location == some p) = (purpose location' == some p) :=
        h (Engine.new ⟨""⟩ "" .vlc p)
      rw [Bool.eq_iff_iff, beq_iff_eq, beq_iff_eq] at hEngine
      exact hEngine
    exact Option.ext hSome
  · intro h e
    rw [resource, resource, h]

/-- A location is one of a stream exactly if the text before its first mark is a streaming scheme in
letters of any case. The purpose follows from that and from the extension in lower case. It does not
change with the case of letters, nor with a query behind the location of a stream, nor with a
directory in front of a name unless a mark comes in; and two locations have the same purpose exactly
if the same engines are compatible with them. -/
theorem purpose_classifies :
    (∀ location, IsStream location ↔ ∃ scheme, IsSchemeOf scheme location ∧
      ∃ s ∈ streamSchemes, Text.sameLetters s scheme = true) ∧
    (∀ location location', (IsStream location ↔ IsStream location') →
      extensionOf (mediaPath location) = extensionOf (mediaPath location') →
      purpose location = purpose location') ∧
    (∀ location location', Text.sameLetters location location' = true →
      purpose location = purpose location') ∧
    (∀ location more, IsStream location →
      (more.toList.head? = some '?' ∨ more.toList.head? = some '#') →
      purpose (location ++ more) = purpose location) ∧
    (∀ directory name, (⟨name⟩ : FilePath).fileName ≠ none → ¬ HasMark name →
      ¬ HasMark (directory ++ "/" ++ name) →
      purpose (directory ++ "/" ++ name) = purpose name) ∧
    ∀ location location',
      (∀ e, (resource location).isCompatible e = (resource location').isCompatible e) ↔
        purpose location = purpose location' := by
  refine ⟨fun location => isStream_iff_scheme, ?_,
    fun location location' => purpose_eq_of_sameLetters, fun location more => purpose_append,
    fun directory name => purpose_inDirectory, fun location location' => compatible_iff⟩
  intro location location' hStream hExtension
  rw [isStream_iff, isStream_iff] at hStream
  exact purpose_congr (Bool.eq_iff_iff.mpr hStream) hExtension

/-- An address in capitals with a query behind it, and a raw image in a directory. The letter in the
scheme of the third address only looks like one of a streaming scheme. -/
theorem purpose_classifies_shouted :
    IsStream "RTMP://HOST/A.B/LIVE.FLAC" ∧
      purpose ("RTMP://HOST/A.B/LIVE.FLAC" ++ "#x.mp4") = purpose "rtmp://host/a.b/live.flac" ∧
      purpose "rtmp://host/a.b/live.flac" = some .audioStream ∧
      ¬ IsStream "mm\u017f://host/live.mp4" ∧
      purpose ("a.mp4/http:" ++ "/" ++ ".b.CR2/.") = purpose ".b.CR2/." ∧
      purpose ".b.CR2/." = some .misc := by
  obtain ⟨hScheme, -, hLetters, hQuery, hDirectory, -⟩ := purpose_classifies
  have hStream : IsStream "RTMP://HOST/A.B/LIVE.FLAC" := by
    refine (hScheme _).mpr ⟨"RTMP", ⟨⟨"HOST/A.B/LIVE.FLAC".toList, by decide +kernel⟩, ?_⟩, ?_⟩
    · decide +kernel
    · exact ⟨"rtmp", by decide, by decide +kernel⟩
  refine ⟨hStream, ?_, by decide +kernel, ?_, ?_, by decide +kernel⟩
  · rw [hQuery _ _ hStream (.inr (by decide +kernel))]
    exact hLetters _ _ (by decide +kernel)
  · rw [IsStream]
    decide +kernel
  · have hPlain : ¬ HasMark ".b.CR2/." := by
      rw [hasMark_iff]
      decide +kernel
    have hWhole : ¬ HasMark ("a.mp4/http:" ++ "/" ++ ".b.CR2/.") := by
      rw [hasMark_iff]
      decide +kernel
    exact hDirectory _ _ (by decide +kernel) hPlain hWhole

end Media

end TranscodingEngines
