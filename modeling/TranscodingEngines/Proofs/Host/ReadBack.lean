import TranscodingEngines.Proofs.Host.Walk
import TranscodingEngines.Proofs.Text.Utf8

/-!
# Files read back

A file that was written is found where its path led, and it holds the text that was written to it,
unless the path leads to something that keeps no bytes.
-/

set_option autoImplicit false

namespace TranscodingEngines

/-- The text of a path is one that can be followed. -/
structure FilePath.IsFollowable (path : FilePath) : Prop where
  plain : path.text.toList.contains '\x00' = false
  short : ¬ longestPath < byteLength path.text
  some : path.isEmpty = false

theorem FileTree.follow_eq_ok_iff {t : FileTree} {caller : Caller} {directory : Location} {aim : Aim}
    {path : FilePath} {d : Destination} :
    t.follow caller directory aim path = .ok d ↔
      path.IsFollowable ∧
        t.Arrives caller aim mostLinks (startOf path.text directory) (stepsOf path.text) d := by
  rw [← walk_eq_ok_iff, follow]
  constructor
  · intro h
    split at h
    · cases h
    split at h
    · cases h
    split at h
    · cases h
    rename_i hPlain hShort hSome
    exact ⟨⟨eq_false_of_ne_true hPlain, hShort, eq_false_of_ne_true hSome⟩, h⟩
  · rintro ⟨⟨hPlain, hShort, hSome⟩, h⟩
    simp only [hPlain, hShort, hSome, Bool.false_eq_true, if_false, h]

namespace Host

variable {h : Host} {path : FilePath} {at_ : Location} {entry : TreeEntry}

theorem find_eq_ok_iff :
    h.find path = .ok (at_, entry) ↔
      h.files.follow h.caller h.directory .entry path = .ok (.entry at_ entry) := by
  rw [find, FileTree.find]
  cases h.files.follow h.caller h.directory .entry path with
  | error cause => exact ⟨fun h => (nomatch h), fun h => nomatch h⟩
  | ok d =>
    cases d with
    | entry other found =>
      constructor
      · rintro ⟨⟩
        rfl
      · rintro ⟨⟩
        rfl
    | free other parent => exact ⟨fun h => (nomatch h), fun h => nomatch h⟩

theorem follow_entry_of_file {d : Destination}
    (hFollow : h.files.follow h.caller h.directory .file path = .ok d) :
    h.files.follow h.caller h.directory .entry path = .ok d := by
  obtain ⟨hPath, hArrives⟩ := FileTree.follow_eq_ok_iff.mp hFollow
  exact FileTree.follow_eq_ok_iff.mpr ⟨hPath, hArrives.entry_of_file⟩

/-- The ways in which the place of a file is found: a file is there, the place is free, or something
is there that keeps no bytes. -/
inductive Place (h : Host) (path : FilePath) (mode : Nat) : Option (Location × Permissions) → Prop
    where
  | file {at_ : Location} {permissions : Permissions} {bytes : List UInt8}
      (hFound : h.find path = .ok (at_, .file permissions bytes)) :
      Place h path mode (some (at_, permissions))
  | free {at_ : Location} {parent : Permissions}
      (hFree : h.files.follow h.caller h.directory .entry path = .ok (.free at_ parent)) :
      Place h path mode (some (at_, h.ownPermissions mode))
  | other {at_ : Location} {entry : TreeEntry} (hFound : h.find path = .ok (at_, entry))
      (hFile : ∀ permissions bytes, entry ≠ .file permissions bytes) : Place h path mode none

theorem place_of_placeOf {mode : Nat} {place : Option (Location × Permissions)}
    (hPlace : h.placeOf path mode = .ok place) : Place h path mode place := by
  rw [placeOf] at hPlace
  split at hPlace
  · split at hPlace <;> cases hPlace
  split at hPlace
  · cases hPlace
  · rename_i hFollow
    split at hPlace
    · cases hPlace
      exact .file (find_eq_ok_iff.mpr (follow_entry_of_file hFollow))
    · cases hPlace
  · cases hPlace
  · rename_i hFile _ hFollow
    cases hPlace
    exact .other (find_eq_ok_iff.mpr (follow_entry_of_file hFollow)) hFile
  · rename_i hFollow
    split at hPlace
    · cases hPlace
      exact .free (follow_entry_of_file hFollow)
    · cases hPlace

/-- A path leads to a file that was put where the path led to a file or to a free place. -/
theorem find_put {permissions : Permissions} {d : Destination} (bytes : List UInt8)
    (change : Change) (hFollow : h.files.follow h.caller h.directory .entry path = .ok d)
    (hEntry : d.entry? = none ∨ ∃ p b, d.entry? = some (.file p b)) :
    (h.changed (h.files.put d.location (.file permissions bytes)) change).find path
      = .ok (d.location, .file permissions bytes) := by
  obtain ⟨hPath, hArrives⟩ := FileTree.follow_eq_ok_iff.mp hFollow
  have hTakes : h.files.TakesFile d.location := by
    rw [FileTree.TakesFile, hArrives.get?_location]
    exact hEntry
  rw [find_eq_ok_iff]
  exact FileTree.follow_eq_ok_iff.mpr ⟨hPath, hArrives.put hTakes permissions bytes rfl⟩

theorem Place.find_put {mode : Nat} {permissions : Permissions}
    (hPlace : Place h path mode (some (at_, permissions))) (bytes : List UInt8) (change : Change) :
    (h.changed (h.files.put at_ (.file permissions bytes)) change).find path
      = .ok (at_, .file permissions bytes) := by
  cases hPlace with
  | file hFound => exact Host.find_put bytes change (find_eq_ok_iff.mp hFound) (.inr ⟨_, _, rfl⟩)
  | free hFree => exact Host.find_put bytes change hFree (.inl rfl)

/-- What is written to the path can be read there: nothing is at the path yet, or a file that the
caller may read. -/
def TakesText (h : Host) (path : FilePath) : Prop :=
  h.pathExists path = false ∨ ∃ at_ permissions bytes,
    h.find path = .ok (at_, .file permissions bytes) ∧ h.caller.mayRead permissions = true

theorem pathExists_of_find (hFound : h.find path = .ok (at_, entry)) : h.pathExists path = true := by
  rw [pathExists, hFound]
  rfl

theorem mayRead_ownPermissions : h.caller.mayRead (h.ownPermissions 0o644) = true := by
  have hOwner : (h.ownPermissions 0o644).owner = h.caller.user := rfl
  have hBits : h.caller.bits (h.ownPermissions 0o644) = 6 := by
    rw [Caller.bits, if_pos hOwner]
    change 0o644 / 64 % 8 = 6
    decide
  rw [Caller.mayRead, hBits]
  exact Bool.or_true _

theorem Place.mayRead {permissions : Permissions}
    (hPlace : Place h path 0o644 (some (at_, permissions))) (hTakes : h.TakesText path) :
    h.caller.mayRead permissions = true := by
  cases hPlace with
  | file hFound =>
    obtain hMissing | ⟨_, _, _, hReadable, hMay⟩ := hTakes
    · exact absurd ((pathExists_of_find hFound).symm.trans hMissing) (by decide)
    · cases hFound.symm.trans hReadable
      exact hMay
  | free _ => exact mayRead_ownPermissions

theorem Place.exists_of_takesText {mode : Nat} {place : Option (Location × Permissions)}
    (hPlace : Place h path mode place) (hTakes : h.TakesText path) :
    ∃ at_ permissions, place = some (at_, permissions) := by
  cases hPlace with
  | file _ => exact ⟨_, _, rfl⟩
  | free _ => exact ⟨_, _, rfl⟩
  | other hFound hFile =>
    obtain hMissing | ⟨_, _, _, hReadable, _⟩ := hTakes
    · exact absurd ((pathExists_of_find hFound).symm.trans hMissing) (by decide)
    · cases hFound.symm.trans hReadable
      exact absurd rfl (hFile _ _)

theorem read_write {written : Host} {bytes : List UInt8} (hTakes : h.TakesText path)
    (hWrite : h.write path bytes = .ok written) :
    written.pathExists path = true ∧ written.readBytes path = .ok bytes := by
  rw [write] at hWrite
  cases hPlaceOf : h.placeOf path 0o644 with
  | error cause => rw [hPlaceOf] at hWrite; cases hWrite
  | ok place =>
    have hPlace := place_of_placeOf hPlaceOf
    obtain ⟨at_, permissions, rfl⟩ := hPlace.exists_of_takesText hTakes
    rw [hPlaceOf] at hWrite
    cases hWrite
    have hFound := hPlace.find_put bytes (.write path bytes)
    refine ⟨pathExists_of_find hFound, ?_⟩
    rw [readBytes, hFound]
    exact if_pos (hPlace.mayRead hTakes)

theorem readText_of_find {permissions : Permissions} {text : String}
    (hFound : h.find path = .ok (at_, .file permissions (Text.bytes text)))
    (hMay : h.caller.mayRead permissions = true) : h.readText path = .ok text := by
  rw [readText, readBytes, hFound]
  simp only [hMay, if_true, Text.bytes, Text.decode?_encode, String.ofList_toList]

theorem readText_write {written : Host} {text : String} (hTakes : h.TakesText path)
    (hWrite : h.write path (Text.bytes text) = .ok written) :
    written.pathExists path = true ∧ written.readText path = .ok text := by
  obtain ⟨hExists, hBytes⟩ := read_write hTakes hWrite
  refine ⟨hExists, ?_⟩
  rw [readText, hBytes]
  simp only [Text.bytes, Text.decode?_encode, String.ofList_toList]

end Host

end TranscodingEngines
