import TranscodingEngines.CommandLine.Basic
import TranscodingEngines.Proofs.Config.Backups

/-!
# The configuration file that is left behind

The command about the configuration file ends well in three ways. The file could be read; nothing
was there, and the default configuration is used; or the file could not be read, and a reset put the
default configuration in its place. After the first and the last one the path leads to a
configuration. After the second one it does if the default configuration could be saved, but the
command ends well also if it could not.
-/

set_option autoImplicit false

namespace TranscodingEngines

open Config

/-- What is read of an entry: nothing of a directory, and no bytes of what is no plain file. -/
def TreeEntry.contents? : TreeEntry → Option (List UInt8)
  | .directory _ => none
  | .file _ bytes => some bytes
  | _ => some []

namespace Host

variable {h : Host} {path : FilePath}

/-- The path leads to something other than a directory whose text is a configuration. -/
def HoldsConfig (h : Host) (path : FilePath) : Prop :=
  ∃ at_ entry bytes chars c, h.find path = .ok (at_, entry) ∧ entry.contents? = some bytes ∧
    Text.decode? bytes = some chars ∧ parse (String.ofList chars) = .ok c

theorem contents_of_readBytes {bytes : List UInt8} (hRead : h.readBytes path = .ok bytes) :
    ∃ at_ entry, h.find path = .ok (at_, entry) ∧ entry.contents? = some bytes := by
  rw [readBytes] at hRead
  cases hFound : h.find path with
  | error cause =>
    rw [hFound] at hRead
    cases hRead
  | ok found =>
    obtain ⟨at_, entry⟩ := found
    rw [hFound] at hRead
    refine ⟨at_, entry, rfl, ?_⟩
    cases entry with
    | file permissions stored =>
      dsimp only at hRead
      split at hRead
      · cases hRead
        rfl
      · cases hRead
    | directory permissions =>
      dsimp only at hRead
      split at hRead <;> cases hRead
    | _ =>
      cases hRead
      rfl

theorem holdsConfig_of_read {c : Config} (hRead : Config.read h path = .ok c) :
    h.HoldsConfig path := by
  rw [Config.read, readText] at hRead
  cases hBytes : h.readBytes path with
  | error cause =>
    rw [hBytes] at hRead
    cases hRead
  | ok bytes =>
    obtain ⟨at_, entry, hFound, hContents⟩ := contents_of_readBytes hBytes
    rw [hBytes] at hRead
    cases hChars : Text.decode? bytes with
    | none =>
      simp only [hChars] at hRead
      cases hRead
    | some chars =>
      simp only [hChars] at hRead
      cases hParse : parse (String.ofList chars) with
      | error cause =>
        rw [hParse] at hRead
        cases hRead
      | ok read => exact ⟨at_, entry, bytes, chars, read, hFound, hContents, hChars, hParse⟩

/-- The path leads to a configuration where the default one could be written. What keeps no bytes
holds the empty text, which is a configuration too. -/
theorem holdsConfig_of_write {written : Host}
    (hWrite : h.write path (Text.bytes default.encode) = .ok written) :
    written.HoldsConfig path := by
  obtain ⟨-, place, hPlaceOf, rfl⟩ := place_of_write hWrite
  have hPlace := place_of_placeOf hPlaceOf
  cases place with
  | some place =>
    have hParse : parse (String.ofList default.encode.toList) = .ok default := by
      rw [String.ofList_toList]
      exact parse_encode (by decide)
    exact ⟨_, _, _, _, _, hPlace.find_put _ _, rfl, Text.decode?_encode _, hParse⟩
  | none =>
    cases hPlace with
    | @other at_ entry hFound hFile =>
      have hContents : entry.contents? = some [] := by
        cases entry with
        | directory permissions => exact absurd hFound (not_directory_of_placeOf hPlaceOf)
        | file permissions bytes => exact absurd rfl (hFile permissions bytes)
        | _ => rfl
      exact ⟨at_, entry, [], [], default, hFound, hContents, Text.decode?_encode [], rfl⟩

end Host

namespace CommandLine

open Host

variable {h : Host} {path : FilePath}

theorem read_of_load {failure : ConfigFailure}
    (hLoad : (Config.load h path).result = .error failure) :
    h.pathExists path = true ∧ Config.read h path = .error failure ∧
      Config.load h path = ⟨.error failure, h, []⟩ := by
  rw [Config.load] at hLoad ⊢
  split at hLoad
  · rename_i hExists
    have hRead : Config.read h path = .error failure := hLoad
    rw [if_pos hExists, hRead]
    exact ⟨hExists, rfl, rfl⟩
  · dsimp only at hLoad
    split at hLoad <;> cases hLoad

/-- Where a configuration could be loaded, and it did not have to be made or could be saved, the
path leads to a configuration. -/
theorem holdsConfig_of_load {c : Config} (hLoad : (Config.load h path).result = .ok c)
    (hSaved : h.pathExists path = true ∨ (default.save h path).result = .ok ()) :
    (Config.load h path).host.HoldsConfig path := by
  rw [Config.load] at hLoad ⊢
  split at hLoad
  · rename_i hExists
    rw [if_pos hExists]
    exact holdsConfig_of_read hLoad
  · rename_i hMissing
    have hSaved := hSaved.resolve_left hMissing
    rw [if_neg hMissing]
    simp only [hSaved]
    exact holdsConfig_of_write (write_of_save hSaved)

theorem holdsConfig_of_reset {backup : Option FilePath}
    (hReset : (reset h path).result = .ok backup) :
    (reset h path).host.HoldsConfig path := by
  cases backup with
  | some backup =>
    obtain ⟨-, moved, -, hWrite⟩ := rename_of_reset hReset
    exact holdsConfig_of_write hWrite
  | none =>
    obtain ⟨-, hSaved, hHost⟩ := save_of_reset hReset
    rw [hHost]
    exact holdsConfig_of_write (write_of_save hSaved)

/-- The ways in which the command ends well: the configuration was loaded, or it was reset because
it could not be read. -/
inductive Served (h : Host) (path : FilePath) (r : Response) : Prop where
  | loaded {c : Config} (hLoad : (Config.load h path).result = .ok c)
      (hHost : r.host = (Config.load h path).host)
  | restored {failure : ConfigFailure} {backup : FilePath}
      (hRead : Config.read h path = .error failure)
      (hReset : (reset h path).result = .ok (some backup)) (hHost : r.host = (reset h path).host)
      (hOutput : "Previous config kept as " ++ backup.text ∈ r.output)

theorem served_of_initConfig {invocation : Invocation}
    (hExit : (initConfig h invocation).exitCode = 0) :
    ∃ path, configPath h invocation.config = .ok path ∧
      Served h path (initConfig h invocation) := by
  rw [initConfig] at hExit ⊢
  cases hPath : configPath h invocation.config with
  | error failure =>
    rw [hPath] at hExit
    cases hExit
  | ok path =>
    rw [hPath] at hExit
    refine ⟨path, rfl, ?_⟩
    dsimp only at hExit ⊢
    cases hLoad : (Config.load h path).result with
    | ok c => exact .loaded hLoad rfl
    | error failure =>
      obtain ⟨hExists, hRead, hLoaded⟩ := read_of_load hLoad
      rw [hLoad, hLoaded] at hExit
      rw [hLoaded]
      dsimp only at hExit ⊢
      cases hReset : (reset h path).result with
      | error cause =>
        rw [hReset] at hExit
        cases hExit
      | ok backup =>
        cases backup with
        | some backup => exact .restored hRead hReset rfl (by simp)
        | none =>
          -- Something was at the path, so the reset made a backup.
          exact absurd hExists (by simp [(save_of_reset hReset).1])

theorem Served.holdsConfig {r : Response} (hServed : Served h path r)
    (hSaved : h.pathExists path = true ∨ (default.save h path).result = .ok ()) :
    r.host.HoldsConfig path := by
  cases hServed with
  | loaded hLoad hHost =>
    rw [hHost]
    exact holdsConfig_of_load hLoad hSaved
  | restored _ hReset hHost =>
    rw [hHost]
    exact holdsConfig_of_reset hReset

/-- The file that could not be read is found under the name that was printed. -/
theorem Served.kept {r : Response} {at_ : Location} {permissions : Permissions} {bytes : List UInt8}
    {failure : ConfigFailure} (hServed : Served h path r) (hReach : h.files.Reachable h.directory)
    (hFile : h.find path = .ok (at_, .file permissions bytes))
    (hRead : Config.read h path = .error failure)
    (hBackup : ∀ taken entry, h.followName (backupOf path h.clock) = .ok (.entry taken entry) →
      taken ≠ at_ ∧ ∀ target, entry ≠ .link target) :
    ∃ backup there, "Previous config kept as " ++ backup.text ∈ r.output ∧
      r.host.find backup = .ok (there, .file permissions bytes) := by
  cases hServed with
  | loaded hLoad =>
    rw [Config.load, if_pos (pathExists_of_find hFile)] at hLoad
    cases hRead.symm.trans hLoad
  | @restored _ backup _ hReset hHost hOutput =>
    obtain ⟨rfl, moved, hRename, -⟩ := rename_of_reset hReset
    obtain ⟨place, entry, aim, hRenamed⟩ := renamed_of_rename hRename
    -- A free name is not the file, as something is there.
    have hAim : aim.location ≠ at_ ∧ ∀ target, aim.entry? ≠ some (.link target) := by
      have hTaken := get?_of_follow hRenamed.aimed
      cases aim with
      | entry taken found =>
        obtain ⟨hOther, hLink⟩ := hBackup taken found hRenamed.aimed
        exact ⟨hOther, fun target hTarget => hLink target (Option.some.inj hTarget)⟩
      | free free parent =>
        refine ⟨?_, fun target hTarget => by cases hTarget⟩
        rintro rfl
        cases hTaken.symm.trans (get?_of_find hFile)
    obtain ⟨-, _, hBacked⟩ :=
      backed_of_reset hReach hFile hReset hRenamed.aimed rfl hAim.1 hAim.2
    obtain ⟨there, hFound⟩ := hBacked.found
    rw [hHost]
    exact ⟨_, there, hOutput, hFound⟩

/-- If the command about the configuration file ends well, its path leads to a configuration
afterwards, where something was at the path already or the default configuration could be saved. A
file that could not be read before is found under the name that was printed, if that name was not
taken by a link or by the file itself. Where nothing was at the path and the default configuration
could not be saved, the command ends well all the same. -/
theorem initConfig_leaves (programs : Programs) (h : Host) (invocation : Invocation)
    (hCommand : invocation.command = .initConfig) :
    let r := carryOut programs h invocation
    (r.exitCode = 0 →
      ∃ path, configPath h invocation.config = .ok path ∧
        (h.pathExists path = true ∨ (default.save h path).result = .ok () →
          r.host.HoldsConfig path) ∧
        ∀ at_ permissions bytes failure, h.files.Reachable h.directory →
          h.find path = .ok (at_, .file permissions bytes) → Config.read h path = .error failure →
          (∀ taken entry, h.followName (backupOf path h.clock) = .ok (.entry taken entry) →
            taken ≠ at_ ∧ ∀ target, entry ≠ .link target) →
          ∃ backup there, "Previous config kept as " ++ backup.text ∈ r.output ∧
            r.host.find backup = .ok (there, .file permissions bytes)) ∧
    ∀ path failure, configPath h invocation.config = .ok path → h.pathExists path = false →
      (default.save h path).result = .error failure →
      r.exitCode = 0 ∧ r.host = (default.save h path).host := by
  have hCarried : carryOut programs h invocation = initConfig h invocation := by
    rw [carryOut, hCommand]
  rw [hCarried]
  intro r
  constructor
  · intro hExit
    obtain ⟨path, hPath, hServed⟩ := served_of_initConfig hExit
    exact ⟨path, hPath, hServed.holdsConfig,
      fun _ _ _ _ hReach hFile hRead hBackup => hServed.kept hReach hFile hRead hBackup⟩
  · intro path failure hPath hMissing hFailed
    simp only [r, initConfig, hPath, Config.load, hMissing, hFailed, Bool.false_eq_true, if_false,
      and_self]

/-- A machine whose configuration file is no text. -/
def damaged : Host :=
  { vacant with files := FileTree.empty.put ["c.toml"] (.file ⟨0, 0, 0o644⟩ [0xff]) }

/-- The file that is no text makes room for a configuration, and is kept beside it. -/
theorem initConfig_leaves_damaged :
    let programs : Programs := fun h _ _ => (.ok ⟨0, [], true⟩, h)
    let invocation : Invocation := ⟨.initConfig, some ⟨"c.toml"⟩, 0⟩
    let r := carryOut programs damaged invocation
    invocation.command = .initConfig ∧ r.exitCode = 0 ∧
      damaged.pathExists ⟨"c.toml"⟩ = true ∧ damaged.files.Reachable damaged.directory ∧
      damaged.find ⟨"c.toml"⟩ = .ok (["c.toml"], .file ⟨0, 0, 0o644⟩ [0xff]) ∧
      Config.read damaged ⟨"c.toml"⟩ = .error (.unreadable ⟨"c.toml"⟩ .notText) ∧
      (∀ taken entry, damaged.followName (backupOf ⟨"c.toml"⟩ damaged.clock)
          = .ok (.entry taken entry) →
        taken ≠ ["c.toml"] ∧ ∀ target, entry ≠ .link target) ∧
      r.host.HoldsConfig ⟨"c.toml"⟩ ∧
      ∃ backup there, "Previous config kept as " ++ backup.text ∈ r.output ∧
        r.host.find backup = .ok (there, .file ⟨0, 0, 0o644⟩ [0xff]) := by
  intro programs invocation r
  have hStored : damaged.files.get? ["c.toml"] = some (.file ⟨0, 0, 0o644⟩ [0xff]) :=
    FileTree.get?_put_self _ (List.cons_ne_nil _ _) _
  have hNone : damaged.files.get? [dated] = none := rfl
  have hReach : damaged.files.Reachable damaged.directory := FileTree.reachable_nil
  have hFile := find_in_root (h := damaged) rfl rfl canName_config hStored
  have hExists := pathExists_of_find hFile
  have hRead : Config.read damaged ⟨"c.toml"⟩ = .error (.unreadable ⟨"c.toml"⟩ .notText) := by
    have hDecode : Text.decode? [0xff] = none := by
      rw [Text.decode?]
      rfl
    rw [Config.read, readText, readBytes, hFile]
    simp only [show damaged.caller.mayRead ⟨0, 0, 0o644⟩ = true from rfl, if_true, hDecode]
  have hReset := (reset_furnished (h := damaged) rfl rfl hStored
    (fun _ hEntry => by cases hNone.symm.trans hEntry) rfl).1
  have hExit : r.exitCode = 0 := by
    simp only [r, invocation, carryOut, initConfig, configPath, Config.load, hExists, if_true,
      hRead, hReset]
  have hBackup : ∀ taken entry, damaged.followName (backupOf ⟨"c.toml"⟩ damaged.clock)
      = .ok (.entry taken entry) → taken ≠ ["c.toml"] ∧ ∀ target, entry ≠ .link target := by
    intro taken entry hTaken
    have hPath : backupOf ⟨"c.toml"⟩ damaged.clock = ⟨dated⟩ := by decide +kernel
    rw [hPath, followName_in_root rfl rfl canName_dated (by simp [hNone]), hNone] at hTaken
    cases hTaken
  obtain ⟨path, hPath, hHolds, hKept⟩ := (initConfig_leaves programs damaged invocation rfl).1 hExit
  cases hPath
  exact ⟨rfl, hExit, hExists, hReach, hFile, hRead, hBackup, hHolds (.inl hExists),
    hKept _ _ _ _ hReach hFile hRead hBackup⟩

/-- A machine with a file in the place of the directory of the configuration. -/
def blocked : Host :=
  { vacant with files := FileTree.empty.put ["cfg"] (.file ⟨0, 0, 0o644⟩ []) }

theorem pathExists_blocked : blocked.pathExists ⟨"cfg/c.toml"⟩ = false := by
  have hStored : blocked.files.get? ["cfg"] = some (.file ⟨0, 0, 0o644⟩ []) :=
    FileTree.get?_put_self _ (List.cons_ne_nil _ _) _
  have hSteps : stepsOf "cfg/c.toml" = ["cfg", "c.toml"] := by decide +kernel
  refine eq_false_of_ne_true fun hExists => ?_
  cases hFound : blocked.find ⟨"cfg/c.toml"⟩ with
  | error cause =>
    rw [pathExists, hFound] at hExists
    cases hExists
  | ok found =>
    obtain ⟨-, hArrives⟩ := FileTree.follow_eq_ok_iff.mp (find_eq_ok_iff.mp hFound)
    rw [hSteps] at hArrives
    obtain ⟨-, left, hPasses⟩ := FileTree.arrives_entry_iff.mp hArrives
    rcases hPasses.first with ⟨hDot, -⟩ | ⟨hUp, -⟩ | ⟨-, ⟨target, -, hLink, -⟩ | ⟨-, -, -, hRest⟩⟩
    · exact absurd hDot (by decide)
    · exact absurd hUp (by decide)
    · cases hStored.symm.trans hLink
    · obtain ⟨permissions, hDirectory, -⟩ := hRest.enterable
      cases hStored.symm.trans hDirectory

theorem makeRoom_blocked : ∃ cause, makeRoom blocked ⟨"cfg/c.toml"⟩ = (.error cause, blocked) := by
  have hParent : FilePath.parent ⟨"cfg/c.toml"⟩ = some ⟨"cfg"⟩ := by decide +kernel
  have hName : CanName "cfg" := ⟨⟨by decide, by decide, by decide⟩, by decide, by decide +kernel⟩
  have hStored : blocked.files.get? ["cfg"] = some (.file ⟨0, 0, 0o644⟩ []) :=
    FileTree.get?_put_self _ (List.cons_ne_nil _ _) _
  have hMade : blocked.makeDirectory ⟨"cfg"⟩ = .error .alreadyExists := by
    rw [makeDirectory, followName_in_root rfl rfl hName (by simp [hStored]), hStored]
  have hOther : blocked.isDirectory ⟨"cfg"⟩ = false := by
    rw [isDirectory, find_in_root rfl rfl hName hStored]
  have hSome : FilePath.isEmpty ⟨"cfg"⟩ = false := rfl
  refine ⟨.noDirectory ⟨"cfg"⟩ .alreadyExists, ?_⟩
  simp only [makeRoom, hParent, makeDirectories, makeDirectoriesWithin, hSome, hMade, hOther,
    Bool.false_eq_true, if_false]

/-- The command ends well although no configuration file can be made. -/
theorem initConfig_blocked :
    let programs : Programs := fun h _ _ => (.ok ⟨0, [], true⟩, h)
    let r := carryOut programs blocked ⟨.initConfig, some ⟨"cfg/c.toml"⟩, 0⟩
    r.exitCode = 0 ∧ r.host.pathExists ⟨"cfg/c.toml"⟩ = false := by
  intro programs r
  obtain ⟨cause, hRoom⟩ := makeRoom_blocked
  have hResponse : r.exitCode = 0 ∧ r.host = blocked := by
    simp only [r, carryOut, initConfig, configPath, Config.load, pathExists_blocked, save, hRoom,
      Bool.false_eq_true, if_false, and_self]
  rw [hResponse.2]
  exact ⟨hResponse.1, pathExists_blocked⟩

end CommandLine

end TranscodingEngines
