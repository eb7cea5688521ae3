import TranscodingEngines.Proofs.Config.SaveLoad
import TranscodingEngines.Proofs.Host.Replacement

/-!
# Configurations reset

A reset moves the file of the configuration to a sibling whose name carries the time, and puts the
default configuration in its place. If nothing has that name yet, nothing is lost: the sibling has
the file, and what else can be reached stays. So the files that were moved aside in a series of
resets and edits are all kept, as long as each reset finds the name of its backup free. Two resets
in one second do not: the second one replaces the backup of the first one.
-/

set_option autoImplicit false

namespace TranscodingEngines

/-! ## The name of a backup -/

theorem LocalTime.slash_not_mem_stamp (time : LocalTime) : '/' ∉ time.stamp.toList := by
  have hPad : ∀ width n, '/' ∉ (Duration.padZeros width n).toList := by
    intro width n
    rw [Duration.padZeros, String.toList_append, String.toList_ofList, List.mem_append, not_or,
      Toml.toString_toList]
    refine ⟨fun hZero => ?_, fun hDigit => ?_⟩
    · exact absurd (List.eq_of_mem_replicate hZero) (by decide)
    · exact absurd ((Toml.isNumeral_toDigits n).2 _ hDigit) (by decide)
  simp only [stamp, String.toList_append, List.mem_append, hPad, or_self, not_false_eq_true]

namespace Config

open FileTree Host

variable {h : Host} {path backup : FilePath} {at_ : Location}

/-! ## Backups

The name of a backup is the name of the file, the time, and an ending. -/

def backupName (last : String) (time : LocalTime) : String := last ++ "." ++ time.stamp ++ ".bak"

theorem backupOf_eq {last : String} (hLast : path.fileName = some last) (time : LocalTime) :
    backupOf path time = path.withFileName (backupName last time) := by
  rw [backupOf, hLast]
  rfl

theorem length_backupName (last : String) (time : LocalTime) :
    last.toList.length + 2 < (backupName last time).toList.length := by
  simp [backupName]

theorem backupName_ne {last other : String} {time : LocalTime}
    (h : other.toList.length ≤ last.toList.length + 2) : backupName last time ≠ other := by
  rintro rfl
  exact absurd (length_backupName last time) (Nat.not_lt.mpr h)

theorem isName_backupName {last : String} (hLast : '/' ∉ last.toList) (time : LocalTime) :
    (⟨backupName last time⟩ : FilePath).IsName := by
  have hLong : 2 < (backupName last time).toList.length :=
    Nat.lt_of_le_of_lt (Nat.le_add_left _ _) (length_backupName last time)
  refine ⟨?_, ?_, ?_⟩
  · have hStamp := time.slash_not_mem_stamp
    simp [backupName, hLast, hStamp]
  · refine eq_false_of_ne_true fun hIdle => ?_
    rcases FilePath.isIdle_iff.mp hIdle with hText | hText <;> simp [hText] at hLong
  · intro hText
    simp [hText] at hLong

/-! ## What a reset does -/

theorem write_of_save {c : Config} (hSaved : (c.save h path).result = .ok ()) :
    (makeRoom h path).2.write path (Text.bytes c.encode) = .ok (c.save h path).host := by
  rw [save] at hSaved ⊢
  split at hSaved
  · cases hSaved
  · rename_i ready hRoom
    rw [hRoom]
    split at hSaved
    · cases hSaved
    · rename_i written hWrite
      simp only [hWrite]

theorem extends_makeRoom (h : Host) (path : FilePath) : h.Extends (makeRoom h path).2 := by
  rw [makeRoom]
  split
  · exact .refl h
  · rename_i directory _
    have hExtends := h.extends_makeDirectories directory
    split
    · rename_i ready hReady
      rwa [hReady] at hExtends
    · rename_i cause ready hReady
      rwa [hReady] at hExtends

/-- A reset that made a backup renamed what was there, and saved the default configuration. -/
theorem rename_of_reset (hReset : (reset h path).result = .ok (some backup)) :
    backup = backupOf path h.clock ∧ ∃ moved, h.rename path backup = .ok moved ∧
      (makeRoom moved path).2.write path (Text.bytes default.encode) = .ok (reset h path).host := by
  rw [reset] at hReset ⊢
  split at hReset
  · rename_i hExists
    rw [if_pos hExists]
    dsimp only at hReset ⊢
    split at hReset
    · cases hReset
    · rename_i moved hMoved
      cases hSaved : (default.save moved path).result with
      | error failure =>
        rw [hSaved] at hReset
        cases hReset
      | ok =>
        rw [hSaved] at hReset
        cases hReset
        refine ⟨rfl, moved, hMoved, ?_⟩
        rw [write_of_save hSaved]
  · dsimp only at hReset
    cases hSaved : (default.save h path).result with
    | error failure =>
      rw [hSaved] at hReset
      cases hReset
    | ok =>
      rw [hSaved] at hReset
      cases hReset

/-- A reset that made no backup found nothing, and saved the default configuration. -/
theorem save_of_reset (hReset : (reset h path).result = .ok none) :
    h.pathExists path = false ∧ (default.save h path).result = .ok () ∧
      (reset h path).host = (default.save h path).host := by
  rw [reset] at hReset ⊢
  split at hReset
  · dsimp only at hReset
    split at hReset
    · cases hReset
    · rename_i moved _
      cases hSaved : (default.save moved path).result <;> rw [hSaved] at hReset <;> cases hReset
  · rename_i hMissing
    rw [if_neg hMissing]
    cases hSaved : (default.save h path).result with
    | error failure =>
      dsimp only at hReset
      rw [hSaved] at hReset
      cases hReset
    | ok => exact ⟨eq_false_of_ne_true hMissing, rfl, rfl⟩

/-- A backup was made of a file: it lies beside the path and has the file now, the path has the
default configuration, and what else can be reached is as it was. Only the name of the path and the
name of the backup are put to another use. -/
structure Backed (h : Host) (path backup : FilePath) (file : TreeEntry) (place beside : Location)
    (after : Host) : Prop where
  siblings : ∃ above last name, place = above ++ [last] ∧ beside = above ++ [name] ∧ last ≠ name
  named : ∃ entry, h.followName path = .ok (.entry place entry) ∧
    after.files.get? beside = some entry
  found : ∃ there, after.find backup = .ok (there, file)
  text : after.readText path = .ok default.encode
  others : ∀ other entry, h.files.Reachable other → other ≠ place → other ≠ beside →
    h.files.get? other = some entry → after.files.get? other = some entry

section Backed

variable {permissions : Permissions} {bytes : List UInt8}
  (hReach : h.files.Reachable h.directory)
  (hFile : h.find path = .ok (at_, .file permissions bytes))
  (hReset : (reset h path).result = .ok (some backup))

include hReach hFile hReset

theorem replaced_of_reset (hLink : ∀ aside target,
      h.followName (backupOf path h.clock) ≠ .ok (.entry aside (.link target))) :
    ∃ w moved, backup = path.withFileName (backupName w.last h.clock) ∧
      Aside h path (backupName w.last h.clock) moved w ∧
      Replaced h path (backupName w.last h.clock) (Text.bytes default.encode) w
        (reset h path).host := by
  obtain ⟨rfl, moved, hRename, hWrite⟩ := rename_of_reset hReset
  obtain ⟨place, entry, aim, hRenamed⟩ := renamed_of_rename hRename
  have hReady := extends_makeRoom moved path
  have hSlash : path.endsInSlash = false := (place_of_write hWrite).1
  obtain ⟨steps, dots, last, hEnds⟩ := FilePath.exists_endsIn hSlash hRenamed.sourceDots
  have hLast := hEnds.fileName_eq
  rw [backupOf_eq hLast] at hRename hLink ⊢
  have hName := isName_backupName hEnds.isName.noSlash h.clock
  have hOther : path.fileName ≠ some (backupName last h.clock) := by
    rw [hLast]
    intro hSame
    exact backupName_ne (Nat.le_add_right _ _) (Option.some.inj hSame).symm
  obtain ⟨w, hAside⟩ := exists_aside hSlash hName hOther hFile hRename hLink
  obtain rfl : last = w.last :=
    Option.some.inj (hLast.symm.trans hAside.leads.ends.fileName_eq)
  obtain ⟨hEntry, hFound⟩ := hAside.leads.found hFile
  exact ⟨w, moved, rfl, hAside, hAside.replaced hReady hFound hEntry hReach hWrite⟩

/-- After a reset the backup has the file, the path has the default configuration, and all else that
can be reached is as it was but for what had the name of the backup. -/
theorem backed_of_reset {beside : Location} {taken : Destination}
    (hTaken : h.followName (backupOf path h.clock) = .ok taken)
    (hBeside : taken.location = beside) (hOther : beside ≠ at_)
    (hLink : ∀ target, taken.entry? ≠ some (.link target)) :
    backup = backupOf path h.clock ∧
      ∃ place, Backed h path backup (.file permissions bytes) place beside (reset h path).host := by
  have hNoLink : ∀ aside target,
      h.followName (backupOf path h.clock) ≠ .ok (.entry aside (.link target)) := by
    intro aside target hAside
    cases hTaken.symm.trans hAside
    exact hLink target rfl
  obtain ⟨rfl, moved, hRename, -⟩ := rename_of_reset hReset
  obtain ⟨place, entry, aim, hRenamed⟩ := renamed_of_rename hRename
  obtain ⟨w, moved, hBackup, hAside, hReplaced⟩ :=
    replaced_of_reset hReach hFile hReset hNoLink
  obtain ⟨hEntry, hFound⟩ := hAside.leads.found hFile
  have hPlace : place = w.place := hAside.leads.location hRenamed.found
  rw [hBackup] at hTaken ⊢
  obtain ⟨-, -, hAt⟩ := hAside.leads.location_sibling hAside.isName hTaken
  rw [hBeside] at hAt
  subst hAt
  obtain ⟨there, -, hThere⟩ := hReplaced.later.find_beside hAside hFound hEntry hReach hOther.symm
  refine ⟨rfl, w.place, ⟨⟨w.above, w.last, _, rfl, rfl, hAside.other⟩, ⟨entry, ?_, ?_⟩,
    ⟨there, hThere⟩, ?_, ?_⟩⟩
  · rw [← hPlace]
    exact hRenamed.found
  · refine hReplaced.later.beside entry ?_
    rw [← hPlace]
    exact get?_of_follow hRenamed.found
  · refine readText_of_find hReplaced.found ?_
    rw [hReplaced.later.caller]
    exact mayRead_ownPermissions
  · intro other found hReachOther hPlaced hAsided hFoundOther
    refine hReplaced.later.keeps other found hReachOther ?_ hFoundOther
    rintro (hGone | hGone)
    · exact hPlaced hGone
    · exact hAsided hGone

end Backed

end Config

end TranscodingEngines
