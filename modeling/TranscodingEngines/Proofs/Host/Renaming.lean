import TranscodingEngines.Proofs.Host.Passage
import TranscodingEngines.Proofs.Host.ReadBack

/-!
# Renaming, making directories, writing

What a successful operation on files does to the tree. Renaming moves what stands at one location to
another one, whose old entry is lost; making directories adds directories only; and writing puts one
file where its path leads to.
-/

set_option autoImplicit false

namespace TranscodingEngines

namespace FileTree

variable {t : FileTree} {source target at_ : Location}

/-! ## Moved entries -/

def moved (source target at_ : Location) : Location :=
  if isWithin source at_ then target ++ at_.drop source.length else at_

theorem move_eq (t : FileTree) (source target : Location) :
    t.move source target = ⟨(t.entries.filter (·.1 != target)).map fun entry =>
      (moved source target entry.1, entry.2)⟩ := by
  rw [move]
  congr 2
  funext entry
  rw [moved]
  split <;> rfl

theorem get?_move {origin : Location} (hAt : at_ ≠ []) (hOrigin : origin ≠ [])
    (h : ∀ other, (other ≠ target ∧ moved source target other = at_) ↔ other = origin) :
    (t.move source target).get? at_ = t.get? origin := by
  obtain ⟨name, rest, rfl⟩ := List.exists_cons_of_ne_nil hAt
  obtain ⟨name', rest', rfl⟩ := List.exists_cons_of_ne_nil hOrigin
  rw [move_eq]
  change (List.find? _ ((t.entries.filter _).map _)).map _ = (t.entries.find? _).map _
  rw [List.find?_map, List.find?_filter, Option.map_map]
  congr 1
  refine congrArg (List.find? · t.entries) (funext fun entry => ?_)
  have hEntry := h entry.1
  rw [Bool.eq_iff_iff]
  simpa using hEntry

theorem get?_move_eq_none (hAt : at_ ≠ [])
    (h : ∀ other, other ≠ target → moved source target other ≠ at_) :
    (t.move source target).get? at_ = none := by
  obtain ⟨name, rest, rfl⟩ := List.exists_cons_of_ne_nil hAt
  rw [move_eq]
  change (List.find? _ ((t.entries.filter _).map _)).map _ = none
  rw [List.find?_map, List.find?_filter, Option.map_map, Option.map_eq_none_iff,
    List.find?_eq_none]
  intro entry _
  have hEntry := h entry.1
  simpa using hEntry

theorem isWithin_iff {directory : Location} :
    isWithin directory at_ = true ↔ directory <+: at_ := List.isPrefixOf_iff_prefix

theorem moved_of_within (h : source <+: at_) :
    moved source target at_ = target ++ at_.drop source.length := by
  rw [moved, if_pos (isWithin_iff.mpr h)]

theorem moved_of_outside (h : ¬ source <+: at_) : moved source target at_ = at_ := by
  rw [moved, if_neg (mt isWithin_iff.mp h)]

theorem moved_self : moved source target source = target := by
  rw [moved_of_within List.prefix_rfl, List.drop_length, List.append_nil]

theorem get?_move_target (hSource : source ≠ []) (hTarget : target ≠ [])
    (hApart : ¬ source <+: target) : (t.move source target).get? target = t.get? source := by
  refine get?_move hTarget hSource fun other => ⟨?_, ?_⟩
  · rintro ⟨hOther, hMoved⟩
    by_cases hWithin : source <+: other
    · rw [moved_of_within hWithin, List.append_right_eq_self, List.drop_eq_nil_iff] at hMoved
      exact (hWithin.eq_of_length_le hMoved).symm
    · exact absurd ((moved_of_outside hWithin).symm.trans hMoved) hOther
  · rintro rfl
    refine ⟨?_, moved_self⟩
    rintro rfl
    exact hApart List.prefix_rfl

theorem get?_move_source (hSource : source ≠ []) (hApart : ¬ target <+: source) :
    (t.move source target).get? source = none := by
  refine get?_move_eq_none hSource fun other _ hMoved => ?_
  by_cases hWithin : source <+: other
  · rw [moved_of_within hWithin] at hMoved
    exact hApart (hMoved ▸ List.prefix_append _ _)
  · rw [moved_of_outside hWithin] at hMoved
    exact hWithin (hMoved ▸ List.prefix_rfl)

theorem get?_move_of_outside (hSource : ¬ source <+: at_) (hTarget : ¬ target <+: at_) :
    (t.move source target).get? at_ = t.get? at_ := by
  cases at_ with
  | nil => rfl
  | cons name rest =>
    refine get?_move (List.cons_ne_nil _ _) (List.cons_ne_nil _ _) fun other => ⟨?_, ?_⟩
    · rintro ⟨-, hMoved⟩
      by_cases hWithin : source <+: other
      · rw [moved_of_within hWithin] at hMoved
        exact absurd (hMoved ▸ List.prefix_append _ _) hTarget
      · exact (moved_of_outside hWithin).symm.trans hMoved
    · rintro rfl
      refine ⟨?_, moved_of_outside hSource⟩
      rintro rfl
      exact hTarget List.prefix_rfl

/-- What is neither moved nor replaced stays, if no directory is moved or replaced. -/
theorem keeps_move (hSource : ∀ permissions, t.get? source ≠ some (.directory permissions))
    (hTarget : ∀ permissions, t.get? target ≠ some (.directory permissions)) :
    t.Keeps (t.move source target) fun at_ => at_ = source ∨ at_ = target := by
  intro at_ entry hReach hStays hEntry
  rw [not_or] at hStays
  have hOutside : ∀ other, (∀ permissions, t.get? other ≠ some (.directory permissions)) →
      at_ ≠ other → ¬ other <+: at_ := by
    intro other hOther hNe hPrefix
    obtain ⟨permissions, hDirectory⟩ := hReach other hPrefix hNe.symm
    exact hOther permissions hDirectory
  rw [get?_move_of_outside (hOutside source hSource hStays.1) (hOutside target hTarget hStays.2)]
  exact hEntry

end FileTree

namespace Host

variable {h : Host} {path source target : FilePath}

/-! ## Renaming -/

/-- What a successful renaming found, and what it made of it. -/
structure Renamed (h : Host) (source target : FilePath) (after : Host) (at_ : Location)
    (entry : TreeEntry) (place : Destination) : Prop where
  found : h.followName source = .ok (.entry at_ entry)
  aimed : h.followName target = .ok place
  sourceDots : endsInDots source = false
  targetDots : endsInDots target = false
  mayReplace : ∀ taken, place.entry? = some taken → at_ ≠ place.location →
    h.mayReplace entry place.location taken = .ok ()
  files : (at_ = place.location ∧ after = h) ∨
    after = h.changed (h.files.move at_ place.location) (.rename source target)

theorem renamed_of_rename {after : Host} (hRenamed : h.rename source target = .ok after) :
    ∃ at_ entry place, h.Renamed source target after at_ entry place := by
  rw [rename] at hRenamed
  split at hRenamed
  · cases hRenamed
  split at hRenamed
  · cases hRenamed
  rename_i found hFound hDots
  rw [Bool.or_eq_true, not_or, Bool.not_eq_true, Bool.not_eq_true] at hDots
  split at hRenamed
  · cases hRenamed
  · cases hRenamed
  rename_i at_ entry place hAimed
  extract_lets isDirectory at hRenamed
  split at hRenamed
  · cases hRenamed
  -- What is left are the three ways to succeed: a free name, the same name, and a taken one.
  suffices hFiles : (∀ taken, place.entry? = some taken → at_ ≠ place.location →
      h.mayReplace entry place.location taken = .ok ()) ∧ ((at_ = place.location ∧ after = h) ∨
        after = h.changed (h.files.move at_ place.location) (.rename source target)) from
    ⟨at_, entry, place, hFound, hAimed, hDots.1, hDots.2, hFiles.1, hFiles.2⟩
  split at hRenamed
  · split at hRenamed
    · cases hRenamed
    split at hRenamed
    · cases hRenamed
      refine ⟨?_, .inr rfl⟩
      intro taken hTaken
      cases hTaken
    · cases hRenamed
  · rename_i other taken
    split at hRenamed
    · rename_i hSame
      cases hRenamed
      exact ⟨fun _ _ hOther => absurd hSame hOther, .inl ⟨hSame, rfl⟩⟩
    split at hRenamed
    · cases hRenamed
    split at hRenamed
    · cases hRenamed
    cases hReplace : h.mayReplace entry other taken with
    | error cause =>
      rw [hReplace] at hRenamed
      cases hRenamed
    | ok =>
      rw [hReplace] at hRenamed
      cases hRenamed
      refine ⟨?_, .inr rfl⟩
      intro other hOther _
      cases hOther
      exact hReplace

/-! ## Making directories -/

/-- The second host has directories that the first one has not, and is the same otherwise. -/
structure Extends (h h' : Host) : Prop where
  caller : h'.caller = h.caller
  directory : h'.directory = h.directory
  clock : h'.clock = h.clock
  kept : ∀ at_ entry, h.files.get? at_ = some entry → h'.files.get? at_ = some entry
  made : ∀ at_ entry, h'.files.get? at_ = some entry → h.files.get? at_ = some entry ∨
    ∃ permissions, entry = .directory permissions

theorem Extends.refl (h : Host) : h.Extends h :=
  ⟨rfl, rfl, rfl, fun _ _ hEntry => hEntry, fun _ _ hEntry => .inl hEntry⟩

theorem Extends.trans {h h' h'' : Host} (hFirst : h.Extends h') (hSecond : h'.Extends h'') :
    h.Extends h'' where
  caller := hSecond.caller.trans hFirst.caller
  directory := hSecond.directory.trans hFirst.directory
  clock := hSecond.clock.trans hFirst.clock
  kept at_ entry hEntry := hSecond.kept at_ entry (hFirst.kept at_ entry hEntry)
  made at_ entry hEntry := by
    rcases hSecond.made at_ entry hEntry with hEntry | hNew
    · exact hFirst.made at_ entry hEntry
    · exact .inr hNew

theorem get?_of_follow {aim : Aim} {d : Destination}
    (hFollow : h.files.follow h.caller h.directory aim path = .ok d) :
    h.files.get? d.location = d.entry? :=
  (FileTree.follow_eq_ok_iff.mp hFollow).2.get?_location

theorem get?_of_find {at_ : Location} {entry : TreeEntry}
    (hFound : h.find path = .ok (at_, entry)) :
    h.files.get? at_ = some entry := get?_of_follow (find_eq_ok_iff.mp hFound)

theorem extends_makeDirectory {made : Host} (hMade : h.makeDirectory path = .ok made) :
    h.Extends made := by
  rw [makeDirectory] at hMade
  split at hMade
  · cases hMade
  · cases hMade
  rename_i at_ parent hFollow
  split at hMade
  · cases hMade
    have hFree : h.files.get? at_ = none := get?_of_follow hFollow
    have hSome : at_ ≠ [] := by
      rintro rfl
      cases hFree
    refine ⟨rfl, rfl, rfl, ?_, ?_⟩
    · intro other entry hEntry
      have hOther : other ≠ at_ := by
        rintro rfl
        cases hFree.symm.trans hEntry
      exact (FileTree.get?_put_of_ne _ hOther _).trans hEntry
    · intro other entry hEntry
      by_cases hOther : other = at_
      · rw [hOther] at hEntry
        cases (FileTree.get?_put_self _ hSome _).symm.trans hEntry
        exact .inr ⟨_, rfl⟩
      · exact .inl ((FileTree.get?_put_of_ne _ hOther _).symm.trans hEntry)
  · cases hMade

theorem extends_makeDirectoriesWithin (levels : Nat) (h : Host) (path : FilePath) :
    h.Extends (makeDirectoriesWithin levels h path).2 := by
  induction levels generalizing h path with
  | zero => exact .refl h
  | succ levels ih =>
    rw [makeDirectoriesWithin]
    split
    · exact .refl h
    split
    · rename_i made hMade
      exact extends_makeDirectory hMade
    · split
      · exact .refl h
      · rename_i parent _
        have hParent := ih h parent
        split
        · rename_i ready hReady
          rw [hReady] at hParent
          exact hParent
        · rename_i ready hReady
          rw [hReady] at hParent
          split
          · rename_i made hMade
            exact hParent.trans (extends_makeDirectory hMade)
          · split <;> exact hParent
    · split <;> exact .refl h

theorem extends_makeDirectories (h : Host) (path : FilePath) :
    h.Extends (h.makeDirectories path).2 := extends_makeDirectoriesWithin _ h path

/-! ## Writing -/

/-- A successful writing puts the file where its path leads to, unless the path leads to something
that keeps no bytes. -/
theorem place_of_write {bytes : List UInt8} {written : Host}
    (hWritten : h.write path bytes = .ok written) :
    path.endsInSlash = false ∧ ∃ place, h.placeOf path 0o644 = .ok place ∧
      written = match place with
        | none => h
        | some (at_, permissions) =>
          h.changed (h.files.put at_ (.file permissions bytes)) (.write path bytes) := by
  rw [write] at hWritten
  cases hPlace : h.placeOf path 0o644 with
  | error cause =>
    rw [hPlace] at hWritten
    cases hWritten
  | ok place =>
    rw [hPlace] at hWritten
    refine ⟨?_, place, rfl, ?_⟩
    · refine eq_false_of_ne_true fun hSlash => ?_
      rw [placeOf, if_pos hSlash] at hPlace
      split at hPlace <;> cases hPlace
    · cases hWritten
      rfl

theorem not_directory_of_placeOf {mode : Nat} {place : Option (Location × Permissions)}
    (hPlace : h.placeOf path mode = .ok place) {at_ : Location} {permissions : Permissions} :
    h.find path ≠ .ok (at_, .directory permissions) := by
  intro hFound
  have hEntry := find_eq_ok_iff.mp hFound
  rw [placeOf] at hPlace
  split at hPlace
  · split at hPlace <;> cases hPlace
  split at hPlace
  · cases hPlace
  · rename_i hFollow
    cases hEntry.symm.trans (follow_entry_of_file hFollow)
  · cases hPlace
  · rename_i hOther hFollow
    cases hEntry.symm.trans (follow_entry_of_file hFollow)
    exact (hOther _ rfl).elim
  · rename_i hFollow
    cases hEntry.symm.trans (follow_entry_of_file hFollow)

end Host

end TranscodingEngines
