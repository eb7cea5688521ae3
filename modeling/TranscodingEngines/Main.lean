import Std.Time
import TranscodingEngines.CommandLine.Reach
import TranscodingEngines.Host.Script.Launch

/-!
# The program

Takes a picture of the files that the command reaches, carries the command out on it, prints what it
says, and repeats the changes of the journal on the real files. The machine's own programs in the
picture are the shell and the small programs that scripts use.
-/

set_option autoImplicit false

namespace TranscodingEngines.Program

def shown : Permissions := ⟨0, 0, 0o755⟩

/-- Adds what stands at a location of the real files, unless the picture already shows it. -/
def showEntry (files : FileTree) (at_ : Location) : IO FileTree := do
  if (files.get? at_).isSome then return files
  let path := "/" ++ "/".intercalate at_
  try
    let metadata ← ((← IO.currentDir) / path).metadata
    match metadata.type with
    | .dir => return files.put at_ (.directory shown)
    | .file =>
      let bytes ← IO.FS.readBinFile path
      return files.put at_ (.file shown bytes.toList)
    | _ => return files
  catch _ => return files

def showPath (h : Host) (path : FilePath) : IO Host := do
  let steps := stepsOf (FilePath.absolute h.workingDirectory path).text
  let mut files := h.files
  for depth in List.range steps.length do
    files ← showEntry files (steps.take (depth + 1))
  return { h with files := files }

def now : IO LocalTime := do
  let t ← Std.Time.PlainDateTime.now
  return ⟨t.date.year.toInt.toNat, t.date.month.val.toNat, t.date.day.val.toNat,
    t.time.hour.val.toNat, t.time.minute.val.toNat, t.time.second.val.toNat⟩

def bareHost : IO Host := do
  let directory := stepsOf (← IO.currentDir).toString
  let home := (← IO.getEnv "HOME").map fun text => (⟨text⟩ : FilePath)
  let searchPath := (((← IO.getEnv "PATH").getD "").splitOn ":").map fun text =>
    (⟨text⟩ : FilePath)
  return { files := .bare, caller := ⟨0, [0]⟩, directory := directory, home := home,
           searchPath := searchPath, clock := ← now, started := ⟨← IO.monoNanosNow⟩,
           journal := [] }

/-- Repeats a change on the real files. Symbolic links are left out. -/
def replay (directory : FilePath) : Change → IO Unit
  | .makeDirectory path => IO.FS.createDir (directory.join path).text
  | .write path bytes => IO.FS.writeBinFile (directory.join path).text ⟨bytes.toArray⟩
  | .rename source target =>
    IO.FS.rename (directory.join source).text (directory.join target).text
  | .remove path => IO.FS.removeFile (directory.join path).text
  | .removeDirectory path => IO.FS.removeDir (directory.join path).text
  | .permit path mode =>
    let may (bits : Nat) : IO.AccessRight :=
      ⟨bits / 4 % 2 == 1, bits / 2 % 2 == 1, bits % 2 == 1⟩
    IO.setAccessRights (directory.join path).text
      ⟨may (mode / 64), may (mode / 8), may mode⟩
  | .link _ _ => pure ()

end TranscodingEngines.Program

open TranscodingEngines TranscodingEngines.Program in
def main (args : List String) : IO UInt32 := do
  let mut host ← bareHost
  host ← showPath host ⟨"."⟩
  if let some path := CommandLine.reachedConfig host args then
    host ← showPath host path
  for path in CommandLine.reached host args do
    host ← showPath host path
  let response := CommandLine.run (.ofSystem Script.system false) host args
  for line in response.output do
    IO.println line
  for line in response.complaints do
    IO.eprintln line
  for change in response.host.journal do
    replay host.workingDirectory change
  return UInt32.ofNat response.exitCode
