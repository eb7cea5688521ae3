import TranscodingEngines.Proofs.Banner.Words

/-!
# Framed versions

A framed version is told exactly if the line can be read as an opening word, a gap, the version, a
gap and a closing word. Of all such readings those with the longest first gap count, and of these
the one with the shortest version, so the version neither starts nor ends with a blank character.
-/

set_option autoImplicit false

namespace TranscodingEngines

namespace Banner

/-- A gap and the closing word stand at the front. -/
def Closes (closing cs : List Char) : Prop :=
  ∃ gap word rest, cs = gap ++ word ++ rest ∧ IsGap gap ∧ Spells closing word

/-- The version at the front, within the line, with a gap and the closing word behind it. -/
def Precedes (closing cs version : List Char) : Prop :=
  ∃ rest, cs = version ++ rest ∧ '\n' ∉ version ∧ Closes closing rest

/-- The line can be read as the opening word, the gap, the version, a gap and the closing word. -/
def Reads (opening closing line gap version : List Char) : Prop :=
  ∃ head rest, line = head ++ gap ++ rest ∧ Spells opening head ∧ IsGap gap ∧
    Precedes closing rest version

/-- The reading that counts among all readings of the line. -/
structure Chosen (opening closing line gap version : List Char) : Prop where
  reads : Reads opening closing line gap version
  longest : ∀ gap' version', Reads opening closing line gap' version' → gap'.length ≤ gap.length
  shortest : ∀ version', Reads opening closing line gap version' →
    version.length ≤ version'.length

section Framed

variable {opening closing line gap version cs : List Char}

/-! ## The reading that counts is unique and bare of blanks at its ends -/

theorem Chosen.unique {gap' version' : List Char} (h : Chosen opening closing line gap version)
    (h' : Chosen opening closing line gap' version') : version = version' := by
  obtain ⟨head, rest, hLine, hHead, hGap, hVersion⟩ := h.reads
  obtain ⟨head', rest', hLine', hHead', hGap', hVersion'⟩ := h'.reads
  -- Opening words are of one length, and so are longest gaps, so the rests are the same.
  have hGaps : gap.length = gap'.length :=
    Nat.le_antisymm (h'.longest _ _ h.reads) (h.longest _ _ h'.reads)
  have hSplit := hLine.symm.trans hLine'
  rw [List.append_assoc, List.append_assoc] at hSplit
  obtain ⟨-, hRest⟩ := List.append_inj hSplit (hHead.length_eq.trans hHead'.length_eq.symm)
  obtain ⟨rfl, rfl⟩ := List.append_inj hRest hGaps
  have hLengths : version.length = version'.length :=
    Nat.le_antisymm (h.shortest _ h'.reads) (h'.shortest _ h.reads)
  obtain ⟨tail, hTail, -⟩ := hVersion
  obtain ⟨tail', hTail', -⟩ := hVersion'
  exact (List.append_inj (hTail.symm.trans hTail') hLengths).1

theorem Chosen.stops (h : Chosen opening closing line gap version) :
    Stops Text.isBlankChar version := by
  obtain ⟨head, rest, hLine, hHead, hGap, tail, rfl, hNewline, hCloses⟩ := h.reads
  intro c hc
  obtain ⟨cs, rfl⟩ := List.head?_eq_some_iff.mp hc
  refine eq_false_of_ne_true fun hBlank => ?_
  -- A blank character at the front would belong to the gap.
  have hLonger : Reads opening closing line (gap ++ [c]) cs := by
    refine ⟨head, cs ++ tail, by simp [hLine], hHead, ⟨by simp, ?_⟩, tail, rfl,
      fun hMem => hNewline (List.mem_cons_of_mem _ hMem), hCloses⟩
    intro d hd
    rcases List.mem_append.mp hd with hd | hd
    · exact hGap.all d hd
    · rw [List.mem_singleton.mp hd]
      exact hBlank
  have hLength := h.longest _ _ hLonger
  rw [List.length_append, List.length_singleton] at hLength
  exact Nat.not_succ_le_self _ hLength

theorem Chosen.stops_reverse (h : Chosen opening closing line gap version) :
    Stops Text.isBlankChar version.reverse := by
  obtain ⟨head, rest, hLine, hHead, hGap, tail, rfl, hNewline, gap', word, behind, rfl, hGap',
    hWord⟩ := h.reads
  intro c hc
  refine eq_false_of_ne_true fun hBlank => ?_
  rw [List.head?_reverse] at hc
  obtain ⟨cs, rfl⟩ := List.getLast?_eq_some_iff.mp hc
  -- A blank character at the end would belong to the gap behind the version.
  have hShorter : Reads opening closing line gap cs := by
    refine ⟨head, _, hLine, hHead, hGap, c :: gap' ++ word ++ behind, by simp,
      fun hMem => hNewline (List.mem_append_left _ hMem), c :: gap', word, behind, rfl,
      ⟨List.cons_ne_nil _ _, ?_⟩, hWord⟩
    intro d hd
    rcases List.mem_cons.mp hd with rfl | hd
    · exact hBlank
    · exact hGap'.all d hd
  have hLength := h.shortest _ hShorter
  rw [List.length_append, List.length_singleton] at hLength
  exact Nat.not_succ_le_self _ hLength

/-! ## What the reader does -/

variable (hInk : StartsInked closing)

theorem closes_of_closesHere (h : closesHere closing cs = true) : Closes closing cs := by
  obtain ⟨rest, hRest⟩ := Option.isSome_iff_exists.mp h
  obtain ⟨found, hFound, hWord⟩ := Option.bind_eq_some_iff.mp hRest
  obtain ⟨gap, rfl, hGap, -⟩ := afterGap_eq_some_iff.mp hFound
  obtain ⟨word, rfl, hSpells⟩ := afterWord_eq_some_iff.mp hWord
  exact ⟨gap, word, rest, (List.append_assoc _ _ _).symm, hGap, hSpells⟩

include hInk

theorem closesHere_of_closes (h : Closes closing cs) : closesHere closing cs = true := by
  obtain ⟨gap, word, rest, rfl, hGap, hWord⟩ := h
  have hFound : afterGap (gap ++ word ++ rest) = some (word ++ rest) :=
    afterGap_eq_some_iff.mpr ⟨gap, List.append_assoc _ _ _, hGap, hWord.stops hInk rest⟩
  have hRest : afterWord closing (word ++ rest) = some rest :=
    afterWord_eq_some_iff.mpr ⟨word, rfl, hWord⟩
  rw [closesHere, hFound, Option.bind_some, hRest, Option.isSome_some]

omit hInk in
theorem not_precedes_nil : ¬ Precedes closing [] version := by
  rintro ⟨rest, hSplit, -, gap, word, behind, hRest, hGap, -⟩
  rw [(List.append_eq_nil_iff.mp hSplit.symm).2, List.append_assoc] at hRest
  exact hGap.ne_nil (List.append_eq_nil_iff.mp hRest.symm).1

omit hInk in
theorem precedes_cons_iff {c : Char} : Precedes closing (c :: cs) version ↔
    (version = [] ∧ Closes closing (c :: cs)) ∨
      ∃ version', version = c :: version' ∧ c ≠ '\n' ∧ Precedes closing cs version' := by
  constructor
  · rintro ⟨rest, hSplit, hNewline, hCloses⟩
    cases version with
    | nil =>
      rw [List.nil_append] at hSplit
      rw [hSplit]
      exact .inl ⟨rfl, hCloses⟩
    | cons d version =>
      obtain ⟨rfl, rfl⟩ := List.cons_eq_cons.mp hSplit
      rw [List.mem_cons, not_or] at hNewline
      exact .inr ⟨version, rfl, Ne.symm hNewline.1, rest, rfl, hNewline.2, hCloses⟩
  · rintro (⟨rfl, hCloses⟩ | ⟨version, rfl, hLine, rest, rfl, hNewline, hCloses⟩)
    · exact ⟨c :: cs, rfl, List.not_mem_nil, hCloses⟩
    · refine ⟨rest, rfl, ?_, hCloses⟩
      rw [List.mem_cons, not_or]
      exact ⟨Ne.symm hLine, hNewline⟩

theorem precedes_of_shortestVersion (h : shortestVersion closing cs = some version) :
    Precedes closing cs version ∧
      ∀ version', Precedes closing cs version' → version.length ≤ version'.length := by
  induction cs generalizing version with
  | nil => cases h
  | cons c cs ih =>
    rw [shortestVersion] at h
    split at h
    · rename_i hCloses
      cases h
      exact ⟨precedes_cons_iff.mpr (.inl ⟨rfl, closes_of_closesHere hCloses⟩),
        fun _ _ => Nat.zero_le _⟩
    · rename_i hOpen
      split at h
      · cases h
      · rename_i hLine
        obtain ⟨tail, hTail, rfl⟩ := Option.map_eq_some_iff.mp h
        obtain ⟨hPrecedes, hShortest⟩ := ih hTail
        refine ⟨precedes_cons_iff.mpr (.inr ⟨tail, rfl, hLine, hPrecedes⟩), ?_⟩
        intro version' hOther
        rcases precedes_cons_iff.mp hOther with ⟨-, hCloses⟩ | ⟨tail', rfl, -, hOther⟩
        · exact absurd (closesHere_of_closes hInk hCloses) hOpen
        · exact Nat.succ_le_succ (hShortest tail' hOther)

theorem exists_shortestVersion (h : Precedes closing cs version) :
    ∃ shortest, shortestVersion closing cs = some shortest := by
  induction cs generalizing version with
  | nil => exact absurd h not_precedes_nil
  | cons c cs ih =>
    rw [shortestVersion]
    split
    · exact ⟨_, rfl⟩
    · rename_i hOpen
      rcases precedes_cons_iff.mp h with ⟨-, hCloses⟩ | ⟨tail, -, hLine, hTail⟩
      · exact absurd (closesHere_of_closes hInk hCloses) hOpen
      · obtain ⟨shortest, hShortest⟩ := ih hTail
        rw [if_neg hLine, hShortest]
        exact ⟨_, rfl⟩

/-- With blank characters in front, a version can be read only where one can be read without them,
or as the empty version in front of some of them, with the closing word right behind. -/
theorem precedes_of_blank {extra rest : List Char}
    (hExtra : ∀ c ∈ extra, Text.isBlankChar c = true) (hStop : Stops Text.isBlankChar rest)
    (h : Precedes closing (extra ++ rest) version) :
    (∃ version', Precedes closing rest version') ∨
      (extra ≠ [] ∧ ∃ behind, afterWord closing rest = some behind) := by
  induction extra generalizing version with
  | nil => exact .inl ⟨version, h⟩
  | cons b extra ih =>
    rcases precedes_cons_iff.mp h with ⟨-, gap, word, behind, hSplit, hGap, hWord⟩ |
      ⟨tail, -, -, hTail⟩
    · -- Both sides are a run of blanks and what follows it.
      have hRest := dropWhile_append_of_stops hExtra hStop
      change b :: extra ++ rest = gap ++ word ++ behind at hSplit
      rw [hSplit, List.append_assoc,
        dropWhile_append_of_stops hGap.all (hWord.stops hInk behind)] at hRest
      exact .inr ⟨List.cons_ne_nil _ _, behind, afterWord_eq_some_iff.mpr ⟨word, hRest.symm, hWord⟩⟩
    · have hBlank : ∀ c ∈ extra, Text.isBlankChar c = true :=
        fun c hc => hExtra c (List.mem_cons_of_mem _ hc)
      rcases ih hBlank hTail with hLeft | ⟨-, hBehind⟩
      · exact .inl hLeft
      · exact .inr ⟨List.cons_ne_nil _ _, hBehind⟩

omit hInk in
/-- In a reading of a line with a known opening word and full gap, the first gap is a part of the
full one, and what it leaves stands in front of the version. -/
theorem reads_iff {head full rest : List Char} (hHead : Spells opening head)
    (hFull : ∀ c ∈ full, Text.isBlankChar c = true) (hStop : Stops Text.isBlankChar rest) :
    Reads opening closing (head ++ (full ++ rest)) gap version ↔
      ∃ extra, full = gap ++ extra ∧ gap ≠ [] ∧ Precedes closing (extra ++ rest) version := by
  constructor
  · rintro ⟨head', rest', hLine, hHead', hGap, hPrecedes⟩
    rw [List.append_assoc] at hLine
    obtain ⟨-, hSplit⟩ := List.append_inj hLine (hHead.length_eq.trans hHead'.length_eq.symm)
    rcases List.append_eq_append_iff.mp hSplit with ⟨bs, rfl, hRest⟩ | ⟨extra, rfl, hRest⟩
    · -- The gap cannot go on behind the full one.
      cases bs with
      | nil =>
        rw [hRest] at hStop ⊢
        exact ⟨[], by simp, hGap.ne_nil, hPrecedes⟩
      | cons b bs =>
        rw [hRest] at hStop
        have hBlank := hGap.all b (List.mem_append_right _ List.mem_cons_self)
        rw [hStop b rfl] at hBlank
        cases hBlank
    · rw [hRest] at hPrecedes
      exact ⟨extra, rfl, hGap.ne_nil, hPrecedes⟩
  · rintro ⟨extra, rfl, hGap, hPrecedes⟩
    exact ⟨head, extra ++ rest, by simp, hHead,
      ⟨hGap, fun c hc => hFull c (List.mem_append_left _ hc)⟩, hPrecedes⟩

theorem chosen_of_versionBehind {head full rest : List Char} (hHead : Spells opening head)
    (hGap : IsGap full) (hStop : Stops Text.isBlankChar rest)
    (h : versionBehind closing full rest = some version) :
    ∃ gap, Chosen opening closing (head ++ (full ++ rest)) gap version := by
  rw [versionBehind] at h
  split at h
  · rename_i found hFound
    cases h
    obtain ⟨hPrecedes, hShortest⟩ := precedes_of_shortestVersion hInk hFound
    refine ⟨full, (reads_iff hHead hGap.all hStop).mpr
      ⟨[], (List.append_nil _).symm, hGap.ne_nil, hPrecedes⟩, ?_, ?_⟩
    · intro gap' version' hReads
      obtain ⟨extra, rfl, -, -⟩ := (reads_iff hHead hGap.all hStop).mp hReads
      rw [List.length_append]
      exact Nat.le_add_right _ _
    · intro version' hReads
      obtain ⟨extra, hSplit, -, hOther⟩ := (reads_iff hHead hGap.all hStop).mp hReads
      rw [List.self_eq_append_right.mp hSplit] at hOther
      exact hShortest version' hOther
  · rename_i hNone
    split at h
    · rename_i hBehind
      cases h
      obtain ⟨hLength, hWord⟩ := Bool.and_eq_true_iff.mp hBehind
      obtain ⟨behind, hBehind⟩ := Option.isSome_iff_exists.mp hWord
      obtain ⟨word, rfl, hSpells⟩ := afterWord_eq_some_iff.mp hBehind
      obtain ⟨gap, b, rfl⟩ : ∃ gap b, full = gap ++ [b] :=
        ⟨_, _, (List.dropLast_concat_getLast hGap.ne_nil).symm⟩
      have hGapNil : gap ≠ [] := by
        rintro rfl
        exact absurd (of_decide_eq_true hLength) (Nat.not_succ_le_self 1)
      have hCloses : Closes closing ([b] ++ (word ++ behind)) := by
        refine ⟨[b], word, behind, (List.append_assoc _ _ _).symm, ⟨List.cons_ne_nil _ _, ?_⟩,
          hSpells⟩
        intro c hc
        exact hGap.all c (List.mem_append_right _ hc)
      refine ⟨gap, (reads_iff hHead hGap.all hStop).mpr
        ⟨[b], rfl, hGapNil, _, rfl, List.not_mem_nil, hCloses⟩, ?_, fun _ _ => Nat.zero_le _⟩
      intro gap' version' hReads
      obtain ⟨extra, hSplit, -, hOther⟩ := (reads_iff hHead hGap.all hStop).mp hReads
      -- With the full gap there is no reading.
      cases extra with
      | nil =>
        obtain ⟨shortest, hSome⟩ := exists_shortestVersion hInk hOther
        rw [List.nil_append, hNone] at hSome
        cases hSome
      | cons c extra =>
        have hLengths := congrArg List.length hSplit
        simp only [List.length_append, List.length_cons, List.length_nil] at hLengths
        omega
    · cases h

theorem exists_versionBehind {head full rest : List Char} (hHead : Spells opening head)
    (hGap : IsGap full) (hStop : Stops Text.isBlankChar rest)
    (h : Reads opening closing (head ++ (full ++ rest)) gap version) :
    ∃ found, versionBehind closing full rest = some found := by
  obtain ⟨extra, rfl, hNil, hPrecedes⟩ := (reads_iff hHead hGap.all hStop).mp h
  rw [versionBehind]
  split
  · exact ⟨_, rfl⟩
  · rename_i hNone
    have hExtra : ∀ c ∈ extra, Text.isBlankChar c = true :=
      fun c hc => hGap.all c (List.mem_append_right _ hc)
    rcases precedes_of_blank hInk hExtra hStop hPrecedes with ⟨version', hOther⟩ |
      ⟨hExtraNil, behind, hBehind⟩
    · obtain ⟨shortest, hSome⟩ := exists_shortestVersion hInk hOther
      rw [hNone] at hSome
      cases hSome
    · have hLength : 2 ≤ (gap ++ extra).length := by
        have hGapPos := List.length_pos_iff.mpr hNil
        have hExtraPos := List.length_pos_iff.mpr hExtraNil
        rw [List.length_append]
        omega
      rw [hBehind, decide_eq_true hLength]
      exact ⟨_, rfl⟩

end Framed

/-! ## Framed lines -/

section Line

variable {opening closing line version : String} (hInk : StartsInked closing.toList)

include hInk

theorem chosen_of_framed (h : framed opening closing line = some version) :
    ∃ gap, Chosen opening.toList closing.toList line.toList gap version.toList := by
  rw [framed] at h
  obtain ⟨found, hFound, rfl⟩ := Option.map_eq_some_iff.mp h
  obtain ⟨rest, hRest, hBehind⟩ := Option.bind_eq_some_iff.mp hFound
  obtain ⟨head, hLine, hHead⟩ := afterWord_eq_some_iff.mp hRest
  split at hBehind
  · cases hBehind
  · rename_i hGap
    have hChosen := chosen_of_versionBehind hInk hHead (isRun_takeWhile hGap)
      (stops_dropWhile _ _) hBehind
    rw [List.takeWhile_append_dropWhile, ← hLine] at hChosen
    rw [String.toList_ofList]
    exact hChosen

theorem exists_framed {gap : List Char} {found : List Char}
    (h : Reads opening.toList closing.toList line.toList gap found) :
    ∃ version, framed opening closing line = some version := by
  obtain ⟨head, rest, hLine, hHead, hGap, hPrecedes⟩ := h
  have hRest : afterWord opening.toList line.toList = some (gap ++ rest) :=
    afterWord_eq_some_iff.mpr ⟨head, by rw [hLine, List.append_assoc], hHead⟩
  have hFull : (gap ++ rest).takeWhile Text.isBlankChar ≠ [] := by
    rw [List.takeWhile_append_of_pos hGap.all]
    exact List.append_ne_nil_of_left_ne_nil hGap.ne_nil _
  have hReads : Reads opening.toList closing.toList (head ++
      ((gap ++ rest).takeWhile Text.isBlankChar ++ (gap ++ rest).dropWhile Text.isBlankChar))
      gap found := by
    rw [List.takeWhile_append_dropWhile]
    exact ⟨head, rest, (List.append_assoc _ _ _).symm, hHead, hGap, hPrecedes⟩
  obtain ⟨version, hVersion⟩ := exists_versionBehind hInk hHead (isRun_takeWhile hFull)
    (stops_dropWhile _ _) hReads
  rw [framed, hRest, Option.bind_some]
  split
  · rename_i hNone
    exact absurd hNone hFull
  · rw [hVersion]
    exact ⟨_, rfl⟩

theorem framed_eq_some_iff : framed opening closing line = some version ↔
    ∃ gap, Chosen opening.toList closing.toList line.toList gap version.toList := by
  constructor
  · exact chosen_of_framed hInk
  · rintro ⟨gap, hChosen⟩
    obtain ⟨found, hFound⟩ := exists_framed hInk hChosen.reads
    obtain ⟨gap', hChosen'⟩ := chosen_of_framed hInk hFound
    rw [hFound, String.toList_inj.mp (hChosen'.unique hChosen)]

theorem exists_framed_iff : (∃ version, framed opening closing line = some version) ↔
    ∃ gap found, Reads opening.toList closing.toList line.toList gap found := by
  constructor
  · rintro ⟨version, h⟩
    obtain ⟨gap, hChosen⟩ := chosen_of_framed hInk h
    exact ⟨gap, _, hChosen.reads⟩
  · rintro ⟨gap, found, h⟩
    exact exists_framed hInk h

end Line

end Banner

end TranscodingEngines
