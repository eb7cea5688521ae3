import TranscodingEngines.Host.Walk
import TranscodingEngines.Host.Clock
import TranscodingEngines.Access
import TranscodingEngines.Text.Lines

/-!
# The host

The host is the machine as far as the program can tell: its files, the caller, the working
directory, the home directory, the search path, and the clocks. File operations are functions on
it, with the errors that the system reports. Every change is also noted in a journal.
-/

set_option autoImplicit false

namespace TranscodingEngines

inductive Change where
  | makeDirectory (path : FilePath)
  | write (path : FilePath) (bytes : List UInt8)
  | rename (source target : FilePath)
  | remove (path : FilePath)
  | removeDirectory (path : FilePath)
  | permit (path : FilePath) (mode : Nat)
  | link (target : String) (path : FilePath)
  deriving DecidableEq, Repr

structure Host where
  files : FileTree
  caller : Caller
  directory : Location
  home : Option FilePath
  searchPath : List FilePath
  clock : LocalTime
  started : Instant
  journal : List Change

namespace Host

def pathOf (at_ : Location) : FilePath := ⟨"/" ++ "/".intercalate at_⟩

def workingDirectory (h : Host) : FilePath := pathOf h.directory

/-- Follows a path, also through a link at its end. -/
def find (h : Host) (path : FilePath) : Except SystemError (Location × TreeEntry) :=
  h.files.find h.caller h.directory path

def pathExists (h : Host) (path : FilePath) : Bool := (h.find path).isOk

def isDirectory (h : Host) (path : FilePath) : Bool :=
  match h.find path with
  | .ok (_, .directory _) => true
  | _ => false

def readBytes (h : Host) (path : FilePath) : Except SystemError (List UInt8) :=
  match h.find path with
  | .error cause => .error cause
  | .ok (_, .file permissions bytes) =>
    if h.caller.mayRead permissions then .ok bytes else .error .permissionDenied
  | .ok (_, .directory permissions) =>
    if h.caller.mayRead permissions then .error .isDirectory else .error .permissionDenied
  | .ok _ => .ok []

def readText (h : Host) (path : FilePath) : Except SystemError String :=
  match h.readBytes path with
  | .error cause => .error cause
  | .ok bytes =>
    match Text.decode? bytes with
    | some chars => .ok (String.ofList chars)
    | none => .error .notText

def list (h : Host) (path : FilePath) : Except SystemError (List String) :=
  match h.find path with
  | .error cause => .error cause
  | .ok (at_, .directory permissions) =>
    if h.caller.mayRead permissions then
      .ok ((h.files.names at_).mergeSort fun a b => !(b < a))
    else .error .permissionDenied
  | .ok _ => .error .notDirectory

def ownPermissions (h : Host) (mode : Nat) : Permissions :=
  ⟨h.caller.user, h.caller.groups.headD 0, mode⟩

def changed (h : Host) (files : FileTree) (change : Change) : Host :=
  { h with files := files, journal := h.journal ++ [change] }

/-- Follows a path without the slashes at its end, and not through a link at its end. -/
def followName (h : Host) (path : FilePath) : Except SystemError Destination :=
  h.files.follow h.caller h.directory .name path.withoutSlashes

/-- Finds the place of a file that is to be written, also if nothing is there yet, with the
permissions the file has or gets; nothing if a device is there. A path with a slash at its end cannot
name a file. -/
def placeOf (h : Host) (path : FilePath) (mode : Nat) :
    Except SystemError (Option (Location × Permissions)) :=
  if path.endsInSlash then
    match h.followName path with
    | .error cause => .error cause
    | .ok _ => .error .isDirectory
  else
    match h.files.follow h.caller h.directory .file path with
    | .error cause => .error cause
    | .ok (.entry at_ (.file permissions _)) =>
      if h.caller.mayWrite permissions then .ok (some (at_, permissions))
      else .error .permissionDenied
    | .ok (.entry _ (.directory _)) => .error .isDirectory
    | .ok (.entry _ _) => .ok none
    | .ok (.free at_ parent) =>
      if h.caller.mayWrite parent then .ok (some (at_, h.ownPermissions mode))
      else .error .permissionDenied

/-- Writes a file, which is made if nothing is there and emptied first if it is. -/
def write (h : Host) (path : FilePath) (bytes : List UInt8) : Except SystemError Host :=
  (h.placeOf path 0o644).map fun
    | none => h
    | some (at_, permissions) =>
      h.changed (h.files.put at_ (.file permissions bytes)) (.write path bytes)

def makeDirectory (h : Host) (path : FilePath) : Except SystemError Host :=
  match h.followName path with
  | .error cause => .error cause
  | .ok (.entry _ _) => .error .alreadyExists
  | .ok (.free at_ parent) =>
    if h.caller.mayWrite parent then
      .ok (h.changed (h.files.put at_ (.directory (h.ownPermissions 0o755))) (.makeDirectory path))
    else .error .permissionDenied

/-- Makes a directory and those it lies in, unless they are there. What was made stays also if the
rest fails. `levels` bounds how many may be missing. -/
def makeDirectoriesWithin : (levels : Nat) → Host → FilePath → Except SystemError Unit × Host
  | 0, h, _ => (.ok (), h)
  | levels + 1, h, path =>
    if path.isEmpty then (.ok (), h)
    else
      match h.makeDirectory path with
      | .ok made => (.ok (), made)
      | .error .noSuchEntry =>
        match path.parent with
        | none => (.error .noSuchEntry, h)
        | some parent =>
          match makeDirectoriesWithin levels h parent with
          | (.error cause, ready) => (.error cause, ready)
          | (.ok (), ready) =>
            match ready.makeDirectory path with
            | .ok made => (.ok (), made)
            | .error cause =>
              if ready.isDirectory path then (.ok (), ready) else (.error cause, ready)
      | .error cause => if h.isDirectory path then (.ok (), h) else (.error cause, h)

/-- Makes a directory and those it lies in, unless they are there. -/
def makeDirectories (h : Host) (path : FilePath) : Except SystemError Unit × Host :=
  makeDirectoriesWithin (path.components.length + 1) h path

/-- The path ends in dots or is the root, so that what it leads to cannot be renamed. -/
def endsInDots (path : FilePath) : Bool :=
  match (stepsOf path.withoutSlashes.text).getLast? with
  | some name => name == "." || name == ".."
  | none => true

/-- An entry of the kind of the first may take the place of the second. -/
def mayReplace (h : Host) (source : TreeEntry) (at_ : Location) (target : TreeEntry) :
    Except SystemError Unit :=
  match source, target with
  | .directory _, .directory _ =>
    if (h.files.names at_).isEmpty then .ok () else .error .notEmpty
  | .directory _, _ => .error .notDirectory
  | _, .directory _ => .error .isDirectory
  | _, _ => .ok ()

def rename (h : Host) (source target : FilePath) : Except SystemError Host :=
  match h.followName source with
  | .error cause => .error cause
  | .ok found =>
    if endsInDots source || endsInDots target then .error .busy
    else
      match found, h.followName target with
      | .free _ _, _ => .error .noSuchEntry
      | .entry _ _, .error cause => .error cause
      | .entry at_ entry, .ok place =>
        let isDirectory := match entry with
          | .directory _ => true
          | _ => false
        if source.endsInSlash && !isDirectory then .error .notDirectory
        else
          match place with
          | .free free parent =>
            if FileTree.isWithin at_ free then .error .invalidArgument
            else if h.caller.mayWrite parent then
              .ok (h.changed (h.files.move at_ free) (.rename source target))
            else .error .permissionDenied
          | .entry other taken =>
            if at_ = other then .ok h
            else if FileTree.isWithin at_ other then .error .invalidArgument
            else if FileTree.isWithin other at_ then .error .notEmpty
            else
              (h.mayReplace entry other taken).map fun _ =>
                h.changed (h.files.move at_ other) (.rename source target)

/-- The caller may add and remove entries of the directory that a location lies in. -/
def mayChangeAround (h : Host) (at_ : Location) : Bool :=
  match h.files.get? at_.dropLast with
  | some (.directory permissions) => h.caller.mayWrite permissions
  | _ => false

def remove (h : Host) (path : FilePath) : Except SystemError Host :=
  match h.followName path with
  | .error cause => .error cause
  | .ok (.free _ _) => .error .noSuchEntry
  | .ok (.entry _ (.directory _)) => .error .isDirectory
  | .ok (.entry at_ _) =>
    if path.endsInSlash then .error .notDirectory
    else if h.mayChangeAround at_ then .ok (h.changed (h.files.erase at_) (.remove path))
    else .error .permissionDenied

def removeDirectory (h : Host) (path : FilePath) : Except SystemError Host :=
  match h.followName path with
  | .error cause => .error cause
  | .ok (.free _ _) => .error .noSuchEntry
  | .ok (.entry at_ (.directory _)) =>
    if (stepsOf path.withoutSlashes.text).getLast? == some "." then .error .invalidArgument
    else if !(h.files.names at_).isEmpty then .error .notEmpty
    else if h.mayChangeAround at_ then .ok (h.changed (h.files.erase at_) (.removeDirectory path))
    else .error .permissionDenied
  | .ok (.entry _ _) => .error .notDirectory

def permit (h : Host) (path : FilePath) (mode : Nat) : Except SystemError Host :=
  match h.find path with
  | .error cause => .error cause
  | .ok (at_, entry) =>
    if h.caller.user == 0 || entry.permissions?.any (·.owner == h.caller.user) then
      .ok (h.changed (h.files.put at_ (entry.withMode mode)) (.permit path mode))
    else .error .notPermitted

def link (h : Host) (target : String) (path : FilePath) : Except SystemError Host :=
  match h.followName path with
  | .error cause => .error cause
  | .ok (.entry _ _) => .error .alreadyExists
  | .ok (.free at_ parent) =>
    if target.isEmpty || path.endsInSlash then .error .noSuchEntry
    else if h.caller.mayWrite parent then
      .ok (h.changed (h.files.put at_ (.link target)) (.link target path))
    else .error .permissionDenied

def apply (h : Host) : Change → Except SystemError Host
  | .makeDirectory path => h.makeDirectory path
  | .write path bytes => h.write path bytes
  | .rename source target => h.rename source target
  | .remove path => h.remove path
  | .removeDirectory path => h.removeDirectory path
  | .permit path mode => h.permit path mode
  | .link target path => h.link target path

/-- Gives the file at a location other bytes. A file that is written again and again is noted
once. -/
def store (h : Host) (at_ : Location) (bytes : List UInt8) : Host :=
  match h.files.get? at_ with
  | some (.file permissions _) =>
    let path := pathOf at_
    let before := match h.journal.getLast? with
      | some (.write last _) => if last == path then h.journal.dropLast else h.journal
      | _ => h.journal
    { h with
      files := h.files.put at_ (.file permissions bytes)
      journal := before ++ [.write path bytes] }
  | _ => h

/-- Checks that a path leads to a regular file that the caller may execute. -/
def checkExecutable (h : Host) : AccessCheck := fun path =>
  match h.find path with
  | .error .noSuchEntry => .error .notFound
  | .error cause => .error (.system cause)
  | .ok (_, .file permissions _) =>
    if h.caller.mayExecute permissions then .ok () else .error .notExecutable
  | .ok (_, .program permissions _) =>
    if h.caller.mayExecute permissions then .ok () else .error .notExecutable
  | .ok _ => .error .notExecutable

end Host

end TranscodingEngines
