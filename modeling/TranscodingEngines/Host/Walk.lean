import TranscodingEngines.Host.Tree
import TranscodingEngines.SystemError
import TranscodingEngines.Text.Utf8

/-!
# Following a path

A path is followed name by name from the root or from the working directory. Every step needs a
directory that the caller may search; symbolic links are followed, at most forty of them. What
happens to a link at the end of the path depends on what the walk is for. The walk ends at an entry,
or at a free place in a directory, or with an error.
-/

set_option autoImplicit false

namespace TranscodingEngines

/-- On whose behalf files are touched. User zero may do nearly everything. -/
structure Caller where
  user : Nat
  groups : List Nat
  deriving DecidableEq, Repr

namespace Caller

def bits (c : Caller) (p : Permissions) : Nat :=
  if p.owner = c.user then p.mode / 64 % 8
  else if c.groups.contains p.group then p.mode / 8 % 8
  else p.mode % 8

def maySearch (c : Caller) (p : Permissions) : Bool := c.user == 0 || c.bits p % 2 == 1

/-- The caller may execute the file. User zero needs someone to be allowed to. -/
def mayExecute (c : Caller) (p : Permissions) : Bool :=
  if c.user = 0 then p.mode % 2 == 1 || p.mode / 8 % 2 == 1 || p.mode / 64 % 2 == 1
  else c.bits p % 2 == 1

def mayRead (c : Caller) (p : Permissions) : Bool := c.user == 0 || c.bits p / 4 % 2 == 1

def mayWrite (c : Caller) (p : Permissions) : Bool := c.user == 0 || c.bits p / 2 % 2 == 1

end Caller

/-- What a walk is for, as far as a link at the end of the path is concerned. -/
inductive Aim where
  | name
  | entry
  /-- A file that is made if it is missing: the walk follows the link, whose target must not end in
  a slash. -/
  | file
  deriving DecidableEq, Repr

inductive Destination where
  | entry (at_ : Location) (entry : TreeEntry)
  | free (at_ : Location) (parent : Permissions)
  deriving DecidableEq, Repr

def longestName : Nat := 255

def longestPath : Nat := 4095

def mostLinks : Nat := 40

def byteLength (s : String) : Nat := (Text.bytes s).length

/-- The names in a path. Behind a slash at the end stands a dot, so that the walk has to end in a
directory. -/
def stepsOf (text : String) : List String :=
  let names := (FilePath.splitSlashes text.toList).filter (!·.isEmpty)
  let steps := names.map String.ofList
  if text.toList.getLast? == some '/' && !steps.isEmpty then steps ++ ["."] else steps

namespace FileTree

def startOf (text : String) (directory : Location) : Location :=
  if text.toList.head? == some '/' then [] else directory

/-- Takes steps from a location. `links` bounds the links that may still be followed. -/
def walk (t : FileTree) (caller : Caller) (aim : Aim) (links : Nat) (here : Location)
    (steps : List String) : Except SystemError Destination :=
  match steps with
  | [] =>
    match t.get? here with
    | some entry => .ok (.entry here entry)
    | none => .error .noSuchEntry
  | name :: rest =>
    match t.get? here with
    | some (.directory permissions) =>
      if !caller.maySearch permissions then .error .permissionDenied
      else if name == "." then t.walk caller aim links here rest
      else if name == ".." then t.walk caller aim links here.dropLast rest
      else if longestName < byteLength name then .error .nameTooLong
      else
        match t.get? (here ++ [name]) with
        | none =>
          if rest.isEmpty then .ok (.free (here ++ [name]) permissions) else .error .noSuchEntry
        | some (.link target) =>
          if rest.isEmpty && aim == .name then .ok (.entry (here ++ [name]) (.link target))
          else
            match links with
            | 0 => .error .tooManyLinks
            | links + 1 =>
              let start := startOf target here
              if target.isEmpty then .error .noSuchEntry
              else if rest.isEmpty && aim == .file && FilePath.endsInSlash ⟨target⟩ then
                match t.walk caller .name links start (stepsOf (FilePath.withoutSlashes ⟨target⟩).text)
                with
                | .error cause => .error cause
                | .ok _ => .error .isDirectory
              else t.walk caller aim links start (stepsOf target ++ rest)
        | some _ => t.walk caller aim links (here ++ [name]) rest
    | some _ => .error .notDirectory
    | none => .error .noSuchEntry
termination_by (links, steps.length)

def follow (t : FileTree) (caller : Caller) (directory : Location) (aim : Aim)
    (path : FilePath) : Except SystemError Destination :=
  if path.text.toList.contains '\x00' then .error .nulInName
  else if longestPath < byteLength path.text then .error .nameTooLong
  else if path.isEmpty then .error .noSuchEntry
  else t.walk caller aim mostLinks (startOf path.text directory) (stepsOf path.text)

def find (t : FileTree) (caller : Caller) (directory : Location) (path : FilePath) :
    Except SystemError (Location × TreeEntry) :=
  match t.follow caller directory .entry path with
  | .ok (.entry at_ entry) => .ok (at_, entry)
  | .ok (.free _ _) => .error .noSuchEntry
  | .error cause => .error cause

end FileTree

end TranscodingEngines
