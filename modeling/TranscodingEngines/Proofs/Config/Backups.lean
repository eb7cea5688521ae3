import TranscodingEngines.Proofs.Config.Reset

/-!
# Series of resets

The files that were moved aside in a series of resets and edits are all kept, as long as each reset
finds the name of its backup free. The path leads all the time to a file that has its name, so no
edit touches what a backup leads to, and no reset renames it. Two resets in one second do not find
the name free: the second one replaces the backup of the first one.
-/

set_option autoImplicit false

namespace TranscodingEngines

namespace Host

open FileTree

variable {h h' : Host} {path : FilePath} {at_ : Location}

/-- Nothing has the name yet. -/
def IsFree (h : Host) (path : FilePath) : Prop :=
  ∃ at_ parent, h.followName path = .ok (.free at_ parent)

/-- A path that leads to a file leads to the file that takes its place. -/
theorem follow_refill {aim : Aim} {old new : Permissions} {before after : List UInt8}
    (hKeeps : h.files.Keeps h'.files (· = at_)) (hCaller : h'.caller = h.caller)
    (hDirectory : h'.directory = h.directory) (hReach : h.files.Reachable h.directory)
    (hFollow : h.files.follow h.caller h.directory aim path = .ok (.entry at_ (.file old before)))
    (hNew : h'.files.get? at_ = some (.file new after)) :
    h'.files.follow h'.caller h'.directory aim path = .ok (.entry at_ (.file new after)) := by
  obtain ⟨hFollowable, hArrives⟩ := follow_eq_ok_iff.mp hFollow
  rw [follow_eq_ok_iff, hCaller, hDirectory]
  exact ⟨hFollowable, hArrives.refill hKeeps hNew (hReach.startOf path.text)⟩

end Host

namespace Config

open FileTree Host

/-- A series of resets and edits of one configuration file, with the files that were moved aside
and where to. The clock may be set between them, and each reset that moves a file aside finds the
name of its backup free. -/
inductive Course (path : FilePath) (h : Host) : List (FilePath × TreeEntry) → Host → Prop where
  | start : Course path h [] h
  | clock {kept : List (FilePath × TreeEntry)} {now : Host} (time : LocalTime)
      (hBefore : Course path h kept now) : Course path h kept { now with clock := time }
  | write {kept : List (FilePath × TreeEntry)} {now after : Host} {bytes : List UInt8}
      (hBefore : Course path h kept now) (hWrite : now.write path bytes = .ok after) :
      Course path h kept after
  | save {kept : List (FilePath × TreeEntry)} {now : Host} (c : Config)
      (hBefore : Course path h kept now) (hSaved : (c.save now path).result = .ok ()) :
      Course path h kept (c.save now path).host
  | make {kept : List (FilePath × TreeEntry)} {now : Host} (hBefore : Course path h kept now)
      (hReset : (reset now path).result = .ok none) : Course path h kept (reset now path).host
  | reset {kept : List (FilePath × TreeEntry)} {now : Host} {at_ : Location}
      {permissions : Permissions} {bytes : List UInt8} {backup : FilePath}
      (hBefore : Course path h kept now)
      (hFile : now.find path = .ok (at_, .file permissions bytes))
      (hFree : now.IsFree (backupOf path now.clock))
      (hReset : (reset now path).result = .ok (some backup)) :
      Course path h ((backup, .file permissions bytes) :: kept) (reset now path).host

/-- The path leads to a file that has its name, and the backups lead to the files that were kept,
which are other ones. -/
structure Apart (path : FilePath) (kept : List (FilePath × TreeEntry)) (now : Host)
    (place : Location) (permissions : Permissions) (bytes : List UInt8) : Prop where
  found : now.find path = .ok (place, .file permissions bytes)
  named : now.followName path = .ok (.entry place (.file permissions bytes))
  kept : ∀ x ∈ kept, ∃ there, there ≠ place ∧ now.find x.1 = .ok (there, x.2)

/-- The invariant of a series of resets and edits. -/
structure Keeping (path : FilePath) (kept : List (FilePath × TreeEntry)) (now : Host) : Prop where
  reach : now.files.Reachable now.directory
  apart : kept = [] ∨ ∃ place permissions bytes, Apart path kept now place permissions bytes

variable {path backup : FilePath} {kept : List (FilePath × TreeEntry)} {now after : Host}
  {place at_ : Location} {permissions other : Permissions} {bytes new : List UInt8}

theorem Apart.refill (hApart : Apart path kept now place permissions bytes)
    (hReach : now.files.Reachable now.directory) (hKeeps : now.files.Keeps after.files (· = place))
    (hCaller : after.caller = now.caller) (hDirectory : after.directory = now.directory)
    (hNew : after.files.get? place = some (.file other new)) :
    Apart path kept after place other new := by
  have hPlain := isPlain_of_file (get?_of_find hApart.found)
  refine ⟨?_, ?_, fun x hx => ?_⟩
  · exact find_eq_ok_iff.mpr
      (follow_refill hKeeps hCaller hDirectory hReach (find_eq_ok_iff.mp hApart.found) hNew)
  · exact follow_refill hKeeps hCaller hDirectory hReach hApart.named hNew
  · obtain ⟨there, hThere, hFound⟩ := hApart.kept x hx
    refine ⟨there, hThere, find_of_keeps hKeeps ?_ hCaller hDirectory hReach hFound hThere⟩
    rintro gone rfl
    exact hPlain

theorem Keeping.extend (hKeeping : Keeping path kept now) (hExtends : now.Extends after) :
    Keeping path kept after := by
  refine ⟨?_, hKeeping.apart.imp_right ?_⟩
  · rw [hExtends.directory]
    exact hKeeping.reach.mono fun at_ permissions _ hDirectory => hExtends.kept _ _ hDirectory
  · rintro ⟨place, permissions, bytes, hApart⟩
    exact ⟨place, permissions, bytes, hApart.refill hKeeping.reach
      (fun at_ entry _ _ hEntry => hExtends.kept at_ entry hEntry) hExtends.caller
      hExtends.directory (hExtends.kept _ _ (get?_of_find hApart.found))⟩

theorem Keeping.write (hKeeping : Keeping path kept now)
    (hWrite : now.write path bytes = .ok after) : Keeping path kept after := by
  obtain ⟨-, found, hPlaceOf, rfl⟩ := place_of_write hWrite
  have hPlace := place_of_placeOf hPlaceOf
  cases found with
  | none => exact hKeeping
  | some found =>
    obtain ⟨at_, permissions⟩ := found
    have hOther : ∀ permissions, now.files.get? at_ ≠ some (.directory permissions) := by
      intro other hDirectory
      cases hPlace with
      | file hFound => cases (get?_of_find hFound).symm.trans hDirectory
      | free hFree =>
        have hNone : now.files.get? at_ = none := get?_of_follow hFree
        cases hNone.symm.trans hDirectory
    refine ⟨hKeeping.reach.mono fun there other _ hDirectory => ?_, hKeeping.apart.imp_right ?_⟩
    · refine (get?_put_of_ne _ ?_ _).trans hDirectory
      rintro rfl
      exact hOther other hDirectory
    · rintro ⟨place, old, before, hApart⟩
      -- What is written is the file of the invariant, and the backups lead to other ones.
      obtain rfl : at_ = place := by
        cases hPlace with
        | file hFound =>
          cases hFound.symm.trans hApart.found
          rfl
        | free hFree => cases hFree.symm.trans (find_eq_ok_iff.mp hApart.found)
      have hSome : at_ ≠ [] := by
        rintro rfl
        cases get?_of_find hApart.found
      refine ⟨at_, permissions, bytes, hApart.refill hKeeping.reach ?_ rfl rfl ?_⟩
      · intro there entry _ hThere hEntry
        exact (get?_put_of_ne _ hThere _).trans hEntry
      · exact get?_put_self _ hSome _

theorem Keeping.save {c : Config} (hKeeping : Keeping path kept now)
    (hSaved : (c.save now path).result = .ok ()) : Keeping path kept (c.save now path).host :=
  (hKeeping.extend (extends_makeRoom now path)).write (write_of_save hSaved)

theorem Keeping.reset (hKeeping : Keeping path kept now)
    (hFile : now.find path = .ok (at_, .file permissions bytes))
    (hFree : now.IsFree (backupOf path now.clock))
    (hReset : (reset now path).result = .ok (some backup)) :
    Keeping path ((backup, .file permissions bytes) :: kept) (reset now path).host := by
  obtain ⟨beside, parent, hBeside⟩ := hFree
  have hLink : ∀ aside target,
      now.followName (backupOf path now.clock) ≠ .ok (.entry aside (.link target)) := by
    intro aside target hAside
    cases hBeside.symm.trans hAside
  obtain ⟨w, moved, rfl, hAside, hReplaced⟩ :=
    replaced_of_reset hKeeping.reach hFile hReset hLink
  obtain ⟨hEntry, hFound⟩ := hAside.leads.found hFile
  have hLater := hReplaced.later
  rw [← (rename_of_reset hReset).1] at hBeside
  obtain rfl : beside = _ := (hAside.leads.location_sibling hAside.isName hBeside).2.2
  have hUntaken : ∀ {there entry}, now.files.get? there = some entry →
      there ≠ w.beside (backupName w.last now.clock) := by
    rintro there entry hThere rfl
    cases (get?_of_follow hBeside).symm.trans hThere
  refine ⟨?_, .inr ⟨w.place, _, _, hReplaced.found, hReplaced.named, ?_⟩⟩
  · rw [hLater.directory]
    refine hKeeping.reach.mono fun above parent hAbove hDirectory => ?_
    exact hLater.keeps above _ hAbove
      (fun hGone => hFound.lost_directory hEntry hAside.lost _ hGone parent hDirectory)
      hDirectory
  · rw [List.forall_mem_cons]
    refine ⟨hLater.find_beside hAside hFound hEntry hKeeping.reach (hUntaken hEntry), ?_⟩
    rcases hKeeping.apart with rfl | ⟨place, old, before, hApart⟩
    · simp
    · -- The backups so far lead neither to the file that is renamed nor to the free name.
      obtain rfl : place = w.place := hAside.leads.location hApart.named
      intro x hx
      obtain ⟨there, hThere, hKept⟩ := hApart.kept x hx
      refine ⟨there, hThere, find_of_keeps hLater.keeps ?_ hLater.caller hLater.directory
        hKeeping.reach hKept ?_⟩
      · rintro gone (rfl | rfl)
        · exact isPlain_of_file (get?_of_find hApart.found)
        · exact hAside.plain
      · rintro (hGone | hGone)
        · exact hThere hGone
        · exact hUntaken (get?_of_find hKept) hGone

theorem Keeping.clock (hKeeping : Keeping path kept now) (time : LocalTime) :
    Keeping path kept { now with clock := time } := by
  refine ⟨hKeeping.reach, hKeeping.apart.imp_right ?_⟩
  rintro ⟨place, permissions, bytes, hApart⟩
  exact ⟨place, permissions, bytes, hApart.found, hApart.named, hApart.kept⟩

/-- What was kept is still there, whatever comes later in the series. -/
theorem Course.keeping {h : Host} (hReach : h.files.Reachable h.directory)
    (hCourse : Course path h kept now) : Keeping path kept now := by
  induction hCourse with
  | start => exact ⟨hReach, .inl rfl⟩
  | clock time _ ih => exact ih.clock time
  | write _ hWrite ih => exact ih.write hWrite
  | save c _ hSaved ih => exact ih.save hSaved
  | make _ hReset ih =>
    obtain ⟨-, hSaved, hHost⟩ := save_of_reset hReset
    rw [hHost]
    exact ih.save hSaved
  | reset _ hFile hFree hReset ih => exact ih.reset hFile hFree hReset

/-- A reset of a configuration file that finds the name of its backup free destroys nothing. The
backup lies beside the file and has what the file held, the path has the default configuration, and
every other entry that can be reached is as it was. So whatever was moved aside in a series of such
resets and of edits is found under the name that the reset told, to the end of the series. If a file
has the name of the backup already, as the backup of an earlier reset in the same second has, that
file is replaced, and nothing else is lost. The working directory has to lie in directories. -/
theorem resets_keep (h : Host) (path : FilePath) (hReach : h.files.Reachable h.directory) :
    (∀ backup at_ permissions bytes, h.find path = .ok (at_, .file permissions bytes) →
      h.IsFree (backupOf path h.clock) → (reset h path).result = .ok (some backup) →
      let after := (reset h path).host
      ∃ place beside parent, h.followName backup = .ok (.free beside parent) ∧
        Backed h path backup (.file permissions bytes) place beside after ∧
        ∀ other entry, h.files.Reachable other → other ≠ place →
          h.files.get? other = some entry → after.files.get? other = some entry) ∧
    (∀ now kept, Course path h kept now →
      ∀ backup file, (backup, file) ∈ kept → ∃ there, now.find backup = .ok (there, file)) ∧
    ∀ backup at_ taken permissions old bytes lost,
      h.find path = .ok (at_, .file permissions bytes) →
      h.followName (backupOf path h.clock) = .ok (.entry taken (.file old lost)) → taken ≠ at_ →
      (reset h path).result = .ok (some backup) →
      ∃ place, Backed h path backup (.file permissions bytes) place taken (reset h path).host := by
  refine ⟨?_, ?_, ?_⟩
  · intro backup at_ permissions bytes hFile ⟨beside, parent, hBeside⟩ hReset after
    have hNone : h.files.get? beside = none := get?_of_follow hBeside
    have hOther : beside ≠ at_ := by
      rintro rfl
      cases hNone.symm.trans (get?_of_find hFile)
    obtain ⟨rfl, place, hBacked⟩ := backed_of_reset hReach hFile hReset hBeside rfl hOther
      (fun _ hLink => by cases hLink)
    refine ⟨place, beside, parent, hBeside, hBacked, ?_⟩
    intro other entry hReachOther hPlace hEntry
    refine hBacked.others other entry hReachOther hPlace ?_ hEntry
    rintro rfl
    cases hNone.symm.trans hEntry
  · intro now kept hCourse backup file hKept
    rcases (hCourse.keeping hReach).apart with rfl | ⟨place, permissions, bytes, hApart⟩
    · cases hKept
    · obtain ⟨there, -, hFound⟩ := hApart.kept _ hKept
      exact ⟨there, hFound⟩
  · intro backup at_ taken permissions old bytes lost hFile hTaken hOther hReset
    exact (backed_of_reset hReach hFile hReset hTaken rfl hOther (fun _ hLink => by cases hLink)).2

/-! ## Two resets in one second -/

/-- A machine with one configuration file. -/
def furnished : Host :=
  { vacant with
    files := FileTree.empty.put ["c.toml"] (.file ⟨0, 0, 0o644⟩ (Text.bytes "first")) }

/-- The name of the backup at the time of that machine. -/
def dated : String := "c.toml.20240517093000.bak"

/-- An entry of a directory can have the name. -/
structure CanName (name : String) : Prop where
  isName : (⟨name⟩ : FilePath).IsName
  plain : name.toList.contains '\x00' = false
  short : ¬ longestName < byteLength name

theorem canName_config : CanName "c.toml" :=
  ⟨⟨by decide, by decide, by decide⟩, by decide, by decide +kernel⟩

theorem canName_dated : CanName dated :=
  ⟨⟨by decide, by decide, by decide⟩, by decide, by decide +kernel⟩

theorem CanName.endsInSlash {name : String} (hName : CanName name) :
    FilePath.endsInSlash ⟨name⟩ = false := by
  refine eq_false_of_ne_true fun hSlash => ?_
  exact hName.isName.noSlash (List.mem_of_getLast? (beq_iff_eq.mp hSlash))

/-- A name in the working directory of a caller without restrictions, where that is the root. -/
theorem follow_in_root {h : Host} {name : String} (hDirectory : h.directory = [])
    (hUser : h.caller.user = 0) (hName : CanName name)
    (hLink : ∀ target, h.files.get? [name] ≠ some (.link target)) (aim : Aim) :
    h.files.follow h.caller h.directory aim ⟨name⟩ = .ok (match h.files.get? [name] with
      | some entry => .entry [name] entry
      | none => .free [name] rootPermissions) := by
  have hFollowable : (⟨name⟩ : FilePath).IsFollowable := by
    refine ⟨hName.plain, fun hLong => hName.short ?_, ?_⟩
    · exact Nat.lt_trans (by decide) hLong
    · refine eq_false_of_ne_true fun hEmpty => hName.isName.ne_nil ?_
      rw [String.toList_eq_nil_iff]
      exact String.isEmpty_iff.mp hEmpty
  have hSteps : stepsOf name = [name] := by
    rw [FilePath.stepsOf_eq hName.endsInSlash,
      FilePath.splitSlashes_of_not_mem hName.isName.noSlash,
      FilePath.namesIn_singleton hName.isName.ne_nil, String.ofList_toList]
  have hProper : IsProper name :=
    ⟨beq_false_of_ne hName.isName.ne_dot, beq_false_of_ne hName.isName.ne_up, hName.short⟩
  have hRoot : h.files.Enterable h.caller [] rootPermissions := by
    refine ⟨rfl, ?_⟩
    rw [Caller.maySearch, hUser]
    rfl
  rw [follow_eq_ok_iff, hSteps, hDirectory, startOf, ite_self]
  refine ⟨hFollowable, ?_⟩
  cases hEntry : h.files.get? [name] with
  | none => exact .free hRoot hProper hEntry
  | some entry =>
    refine .down hRoot hProper hEntry ?_ (.done hEntry)
    rintro target rfl
    exact hLink target hEntry

theorem followName_in_root {h : Host} {name : String} (hDirectory : h.directory = [])
    (hUser : h.caller.user = 0) (hName : CanName name)
    (hLink : ∀ target, h.files.get? [name] ≠ some (.link target)) :
    h.followName ⟨name⟩ = .ok (match h.files.get? [name] with
      | some entry => .entry [name] entry
      | none => .free [name] rootPermissions) := by
  rw [followName, FilePath.withoutSlashes_eq hName.endsInSlash,
    follow_in_root hDirectory hUser hName hLink]

section Furnished

variable {h : Host} {permissions : Permissions} {bytes : List UInt8} (hDirectory : h.directory = [])
  (hUser : h.caller.user = 0) (hFile : h.files.get? ["c.toml"] = some (.file permissions bytes))
  (hTaken : ∀ entry, h.files.get? [dated] = some entry → ∃ old lost, entry = .file old lost)

include hDirectory hUser hFile hTaken

theorem rename_furnished : h.rename ⟨"c.toml"⟩ ⟨dated⟩
    = .ok (h.changed (h.files.move ["c.toml"] [dated]) (.rename ⟨"c.toml"⟩ ⟨dated⟩)) := by
  have hSource : h.followName ⟨"c.toml"⟩ = .ok (.entry ["c.toml"] (.file permissions bytes)) := by
    rw [followName_in_root hDirectory hUser canName_config (by simp [hFile]), hFile]
  have hAside : ∀ target, h.files.get? [dated] ≠ some (.link target) := by
    intro target hTarget
    obtain ⟨_, _, hEntry⟩ := hTaken _ hTarget
    cases hEntry
  have hTarget : h.followName ⟨dated⟩ = .ok (match h.files.get? [dated] with
      | some entry => .entry [dated] entry
      | none => .free [dated] rootPermissions) :=
    followName_in_root hDirectory hUser canName_dated hAside
  have hDots : (endsInDots ⟨"c.toml"⟩ || endsInDots ⟨dated⟩) = false := by decide +kernel
  have hSlash := canName_config.endsInSlash
  have hApart : ["c.toml"] ≠ [dated] := by decide
  have hOutside : isWithin ["c.toml"] [dated] = false := by decide
  have hInside : isWithin [dated] ["c.toml"] = false := by decide
  have hWrite : h.caller.mayWrite rootPermissions = true := by
    rw [Caller.mayWrite, hUser]
    rfl
  rw [Host.rename, hSource, hTarget]
  cases hEntry : h.files.get? [dated] with
  | none => simp [hDots, hSlash, hOutside, hWrite]
  | some entry =>
    obtain ⟨old, lost, rfl⟩ := hTaken entry hEntry
    simp [hDots, hSlash, hOutside, hInside, hApart, mayReplace, Except.map]

/-- The file has the name of the backup then, and the default configuration has its old name. -/
theorem reset_furnished (hClock : h.clock = vacant.clock) :
    let after := (reset h ⟨"c.toml"⟩).host
    (reset h ⟨"c.toml"⟩).result = .ok (some ⟨dated⟩) ∧
      after.directory = [] ∧ after.caller.user = 0 ∧ after.clock = vacant.clock ∧
      after.files.get? ["c.toml"]
        = some (.file (h.ownPermissions 0o644) (Text.bytes default.encode)) ∧
      after.files.get? [dated] = some (.file permissions bytes) := by
  have hExists : h.pathExists ⟨"c.toml"⟩ = true := by
    rw [pathExists, Host.find, FileTree.find,
      follow_in_root hDirectory hUser canName_config (by simp [hFile]), hFile]
    rfl
  have hBackup : backupOf ⟨"c.toml"⟩ h.clock = ⟨dated⟩ := by
    rw [hClock]
    decide +kernel
  have hRename := rename_furnished hDirectory hUser hFile hTaken
  generalize hMoved :
    h.changed (h.files.move ["c.toml"] [dated]) (.rename ⟨"c.toml"⟩ ⟨dated⟩) = moved at hRename
  have hFree : moved.files.get? ["c.toml"] = none := by
    rw [← hMoved]
    exact get?_move_source (List.cons_ne_nil _ _) (by decide)
  have hBeside : moved.files.get? [dated] = some (.file permissions bytes) := by
    rw [← hMoved]
    exact (get?_move_target (List.cons_ne_nil _ _) (List.cons_ne_nil _ _) (by decide)).trans hFile
  have hHere : moved.directory = [] := by
    rw [← hMoved]
    exact hDirectory
  have hRoot : moved.caller.user = 0 := by
    rw [← hMoved]
    exact hUser
  have hPlace : moved.placeOf ⟨"c.toml"⟩ 0o644
      = .ok (some (["c.toml"], moved.ownPermissions 0o644)) := by
    have hWrite : moved.caller.mayWrite rootPermissions = true := by
      rw [Caller.mayWrite, hRoot]
      rfl
    have hSlash := canName_config.endsInSlash
    rw [placeOf, follow_in_root hHere hRoot canName_config (by simp [hFree]), hFree]
    simp [hSlash, hWrite]
  have hRoom : makeRoom moved ⟨"c.toml"⟩ = (.ok (), moved) := rfl
  have hOwn : moved.ownPermissions 0o644 = h.ownPermissions 0o644 := by
    rw [← hMoved]
    rfl
  have hSaved : default.save moved ⟨"c.toml"⟩ = ⟨.ok (), moved.changed (moved.files.put ["c.toml"]
      (.file (h.ownPermissions 0o644) (Text.bytes default.encode)))
      (.write ⟨"c.toml"⟩ (Text.bytes default.encode)), []⟩ := by
    rw [save, hRoom]
    simp only [Host.write, hPlace, hOwn]
    rfl
  have hReset : reset h ⟨"c.toml"⟩ = ⟨.ok (some ⟨dated⟩), moved.changed (moved.files.put ["c.toml"]
      (.file (h.ownPermissions 0o644) (Text.bytes default.encode)))
      (.write ⟨"c.toml"⟩ (Text.bytes default.encode)), []⟩ := by
    rw [reset, if_pos hExists]
    simp only [hBackup, hRename, hSaved]
    rfl
  rw [hReset]
  refine ⟨rfl, hHere, hRoot, ?_, get?_put_self _ (List.cons_ne_nil _ _) _, ?_⟩
  · rw [← hMoved]
    exact hClock
  · exact (get?_put_of_ne _ (by decide) _).trans hBeside

end Furnished

theorem find_in_root {h : Host} {name : String} {permissions : Permissions} {bytes : List UInt8}
    (hDirectory : h.directory = []) (hUser : h.caller.user = 0)
    (hName : CanName name)
    (hFile : h.files.get? [name] = some (.file permissions bytes)) :
    h.find ⟨name⟩ = .ok ([name], .file permissions bytes) := by
  rw [find_eq_ok_iff, follow_in_root hDirectory hUser hName (by simp [hFile]), hFile]

theorem readText_in_root {h : Host} {name text : String} {permissions : Permissions}
    (hDirectory : h.directory = []) (hUser : h.caller.user = 0)
    (hName : CanName name)
    (hFile : h.files.get? [name] = some (.file permissions (Text.bytes text))) :
    h.readText ⟨name⟩ = .ok text := by
  refine readText_of_find (find_in_root hDirectory hUser hName hFile) ?_
  rw [Caller.mayRead, hUser]
  rfl

theorem get?_furnished : furnished.files.get? ["c.toml"]
    = some (.file ⟨0, 0, 0o644⟩ (Text.bytes "first")) := get?_put_self _ (List.cons_ne_nil _ _) _

theorem get?_furnished_dated : furnished.files.get? [dated] = none := rfl

/-- The only file is moved aside by a reset, and kept to the end of that series. A second reset in
that second keeps what the first one wrote. -/
theorem resets_keep_furnished :
    let once := (reset furnished ⟨"c.toml"⟩).host
    let first : TreeEntry := .file ⟨0, 0, 0o644⟩ (Text.bytes "first")
    let second : TreeEntry :=
      .file (furnished.ownPermissions 0o644) (Text.bytes default.encode)
    furnished.files.Reachable furnished.directory ∧
      furnished.find ⟨"c.toml"⟩ = .ok (["c.toml"], first) ∧
      furnished.IsFree (backupOf ⟨"c.toml"⟩ furnished.clock) ∧
      (reset furnished ⟨"c.toml"⟩).result = .ok (some ⟨dated⟩) ∧
      Course ⟨"c.toml"⟩ furnished [(⟨dated⟩, first)] once ∧
      once.files.Reachable once.directory ∧
      once.find ⟨"c.toml"⟩ = .ok (["c.toml"], second) ∧
      once.followName (backupOf ⟨"c.toml"⟩ once.clock) = .ok (.entry [dated] first) ∧
      (reset once ⟨"c.toml"⟩).result = .ok (some ⟨dated⟩) ∧
      (∃ place beside, Backed furnished ⟨"c.toml"⟩ ⟨dated⟩ first place beside once) ∧
      (∃ there, once.find ⟨dated⟩ = .ok (there, first)) ∧
      ∃ place, Backed once ⟨"c.toml"⟩ ⟨dated⟩ second place [dated]
        (reset once ⟨"c.toml"⟩).host := by
  intro once first second
  have hReach : furnished.files.Reachable furnished.directory := reachable_nil
  have hFile := find_in_root (h := furnished) rfl rfl canName_config get?_furnished
  have hUntaken : ∀ entry, furnished.files.get? [dated] = some entry →
      ∃ old lost, entry = .file old lost := by
    intro entry hEntry
    cases get?_furnished_dated.symm.trans hEntry
  have hBackup : backupOf ⟨"c.toml"⟩ vacant.clock = ⟨dated⟩ := by decide +kernel
  have hFree : furnished.IsFree (backupOf ⟨"c.toml"⟩ furnished.clock) := by
    refine ⟨[dated], rootPermissions, ?_⟩
    rw [show furnished.clock = vacant.clock from rfl, hBackup,
      followName_in_root rfl rfl canName_dated (by simp [get?_furnished_dated]),
      get?_furnished_dated]
  obtain ⟨hReset, hDirectory, hUser, hClock, hNew, hOld⟩ :=
    reset_furnished (h := furnished) rfl rfl get?_furnished hUntaken rfl
  have hReachOnce : once.files.Reachable once.directory := by
    rw [hDirectory]
    exact reachable_nil
  have hFileOnce := find_in_root hDirectory hUser canName_config hNew
  have hTaken : once.followName (backupOf ⟨"c.toml"⟩ once.clock) = .ok (.entry [dated] first) := by
    rw [hClock, hBackup, followName_in_root hDirectory hUser canName_dated (by simp [hOld]), hOld]
  have hAgain := (reset_furnished hDirectory hUser hNew
    (fun _ hEntry => ⟨_, _, Option.some.inj (hEntry.symm.trans hOld)⟩) hClock).1
  have hCourse : Course ⟨"c.toml"⟩ furnished [(⟨dated⟩, first)] once :=
    .reset .start hFile hFree hReset
  obtain ⟨hFresh, hSeries, -⟩ := resets_keep furnished ⟨"c.toml"⟩ hReach
  obtain ⟨place, beside, -, -, hBacked, -⟩ := hFresh _ _ _ _ hFile hFree hReset
  obtain ⟨-, -, hReplaced⟩ := resets_keep once ⟨"c.toml"⟩ hReachOnce
  exact ⟨hReach, hFile, hFree, hReset, hCourse, hReachOnce, hFileOnce, hTaken, hAgain,
    ⟨place, beside, hBacked⟩,
    hSeries once _ hCourse _ _ List.mem_cons_self,
    hReplaced _ _ _ _ _ _ _ hFileOnce hTaken (by decide) hAgain⟩

/-- The backup of the first of two resets in one second is lost: the second reset tells the same
name, under which the configuration that the first one wrote is found then. -/
theorem reset_twice :
    let once := (reset furnished ⟨"c.toml"⟩).host
    let twice := (reset once ⟨"c.toml"⟩).host
    furnished.readText ⟨"c.toml"⟩ = .ok "first" ∧
      (reset furnished ⟨"c.toml"⟩).result = .ok (some ⟨dated⟩) ∧
      once.readText ⟨dated⟩ = .ok "first" ∧
      (reset once ⟨"c.toml"⟩).result = .ok (some ⟨dated⟩) ∧
      twice.readText ⟨dated⟩ = .ok default.encode ∧ default.encode ≠ "first" := by
  intro once twice
  obtain ⟨hReset, hDirectory, hUser, hClock, hNew, hOld⟩ := reset_furnished (h := furnished) rfl rfl
    get?_furnished (fun _ hEntry => by cases get?_furnished_dated.symm.trans hEntry) rfl
  obtain ⟨hAgain, hDirectory', hUser', -, -, hLost⟩ := reset_furnished hDirectory hUser hNew
    (fun _ hEntry => ⟨_, _, Option.some.inj (hEntry.symm.trans hOld)⟩) hClock
  exact ⟨readText_in_root rfl rfl canName_config get?_furnished, hReset,
    readText_in_root hDirectory hUser canName_dated hOld, hAgain,
    readText_in_root hDirectory' hUser' canName_dated hLost, by decide +kernel⟩

end Config

end TranscodingEngines
