import TranscodingEngines.FilePath

/-!
# File trees

A file tree gives each location an entry or none. A location is the list of names on the way from
the root, and the root itself is always a directory. Entries under something that is no directory
cannot be reached, so the tree needs no further rule.
-/

set_option autoImplicit false

namespace TranscodingEngines

abbrev Location := List String

/-- Who an entry belongs to and what may be done with it. The mode has three bits each for the
owner, the group and everyone else. -/
structure Permissions where
  owner : Nat
  group : Nat
  mode : Nat
  deriving DecidableEq, Repr

inductive Utility where
  | basename
  | bracket
  | cat
  | chmod
  | cp
  | cut
  | dirname
  | echo
  | env
  | expr
  | false
  | grep
  | head
  | id
  | kill
  | ln
  | ls
  | mkdir
  | mv
  | nice
  | nl
  | nohup
  | paste
  | printenv
  | printf
  | pwd
  | readlink
  | rev
  | rm
  | rmdir
  | sed
  | seq
  | setsid
  | shell
  | sleep
  | sort
  | tac
  | tail
  | tee
  | test
  | timeout
  | touch
  | tr
  | true
  | uname
  | uniq
  | wc
  | whoami
  | xargs
  | yes
  deriving DecidableEq, Repr

def Utility.names : List (String × Utility) :=
  [("[", .bracket), ("basename", .basename), ("cat", .cat), ("chmod", .chmod), ("cp", .cp),
    ("cut", .cut), ("dash", .shell), ("dirname", .dirname), ("echo", .echo), ("env", .env),
    ("expr", .expr), ("false", .false), ("grep", .grep), ("head", .head), ("id", .id),
    ("kill", .kill), ("ln", .ln), ("ls", .ls), ("mkdir", .mkdir), ("mv", .mv), ("nice", .nice),
    ("nl", .nl), ("nohup", .nohup), ("paste", .paste), ("printenv", .printenv),
    ("printf", .printf), ("pwd", .pwd), ("readlink", .readlink), ("rev", .rev), ("rm", .rm),
    ("rmdir", .rmdir), ("sed", .sed), ("seq", .seq), ("setsid", .setsid), ("sh", .shell),
    ("sleep", .sleep), ("sort", .sort), ("tac", .tac), ("tail", .tail), ("tee", .tee),
    ("test", .test), ("timeout", .timeout), ("touch", .touch), ("tr", .tr), ("true", .true),
    ("uname", .uname), ("uniq", .uniq), ("wc", .wc), ("whoami", .whoami), ("xargs", .xargs),
    ("yes", .yes)]

inductive Device where
  | null
  | zero
  /-- Holds zero bytes without end and takes nothing. -/
  | full
  deriving DecidableEq, Repr

inductive TreeEntry where
  | directory (permissions : Permissions)
  | file (permissions : Permissions) (bytes : List UInt8)
  | program (permissions : Permissions) (utility : Utility)
  | device (permissions : Permissions) (device : Device)
  | link (target : String)
  deriving DecidableEq, Repr

namespace TreeEntry

/-- Who may do what with an entry; a link leaves that to what it leads to. -/
def permissions? : TreeEntry → Option Permissions
  | directory p => some p
  | file p _ => some p
  | program p _ => some p
  | device p _ => some p
  | link _ => none

def withMode (mode : Nat) : TreeEntry → TreeEntry
  | directory p => directory { p with mode := mode }
  | file p bytes => file { p with mode := mode } bytes
  | program p utility => program { p with mode := mode } utility
  | device p kind => device { p with mode := mode } kind
  | link target => link target

end TreeEntry

structure FileTree where
  entries : List (Location × TreeEntry)
  deriving DecidableEq, Repr

namespace FileTree

def rootPermissions : Permissions := ⟨0, 0, 0o755⟩

def empty : FileTree := ⟨[]⟩

def devices : List (String × Device) := [("null", .null), ("zero", .zero), ("full", .full)]

def bare : FileTree :=
  let directories : List Location := [["dev"], ["usr"], ["usr", "bin"]]
  ⟨directories.map (fun at_ => (at_, .directory rootPermissions))
    ++ devices.map (fun d => (["dev", d.1], .device ⟨0, 0, 0o666⟩ d.2))
    ++ Utility.names.map (fun u => (["usr", "bin", u.1], .program rootPermissions u.2))
    ++ [(["bin"], .link "usr/bin")]⟩

def get? (t : FileTree) (at_ : Location) : Option TreeEntry :=
  match at_ with
  | [] => some (.directory rootPermissions)
  | _ => (t.entries.find? (·.1 == at_)).map (·.2)

def erase (t : FileTree) (at_ : Location) : FileTree := ⟨t.entries.filter (·.1 != at_)⟩

def put (t : FileTree) (at_ : Location) (entry : TreeEntry) : FileTree :=
  ⟨(t.erase at_).entries ++ [(at_, entry)]⟩

def isWithin (directory at_ : Location) : Bool := directory.isPrefixOf at_

def names (t : FileTree) (directory : Location) : List String :=
  t.entries.filterMap fun entry =>
    if entry.1.dropLast == directory then entry.1.getLast? else none

/-- The tree with everything at and under one location moved to another, whose old entry is lost. -/
def move (t : FileTree) (source target : Location) : FileTree :=
  ⟨(t.entries.filter fun entry => entry.1 != target).map fun entry =>
    if isWithin source entry.1 then (target ++ entry.1.drop source.length, entry.2) else entry⟩

end FileTree

end TranscodingEngines
