import TranscodingEngines.Host.Basic

/-!
# Programs

A call names a program by a path, or by a bare name that is looked for in the directories of the
search path. A file is a program if it is one of the machine's own, or if its first line names an
interpreter, which then gets the file as its argument.
-/

set_option autoImplicit false

namespace TranscodingEngines

/-- A program that is about to run: what it is, the name it goes by, and its arguments. -/
structure Image where
  utility : Utility
  name : String
  args : List String
  deriving DecidableEq, Repr

def isLineBlank (b : UInt8) : Bool := b == 0x20 || b == 0x09

/-- How many bytes at the front of a file are looked at to find an interpreter. -/
def frontSize : Nat := 256

/-- The line behind the mark of a script, without blanks around it. Behind a short file stand zero
bytes. A line that is longer than the front of the file counts as far as it goes, provided that the
name of the interpreter ends there. -/
def interpreterLine (bytes : List UInt8) : Option (List UInt8) :=
  let front := (bytes ++ List.replicate frontSize 0).take (frontSize - 2)
  let line := front.takeWhile fun b => b != 0x0a && b != 0
  let ends := (front.drop line.length).head? == some 0x0a
  let named := front.dropWhile isLineBlank
  let isWhole := named.any fun b => isLineBlank b || b == 0
  if ends then some (Text.dropTrailing isLineBlank (line.dropWhile isLineBlank))
  else if isWhole then some (Text.dropTrailing isLineBlank (front.dropLast.dropWhile isLineBlank))
  else none

def interpreterOf (bytes : List UInt8) : Option (FilePath × Option String) :=
  match bytes with
  | 0x23 :: 0x21 :: rest =>
    match interpreterLine rest with
    | none => none
    | some [] => none
    | some line =>
      let text (bytes : List UInt8) : String := String.ofList (Text.decodeLossy bytes)
      let name := line.takeWhile fun b => !(isLineBlank b) && b != 0
      let extra := match line.drop name.length with
        | [] => none
        | 0 :: _ => none
        | rest => some (text ((rest.dropWhile isLineBlank).takeWhile (· != 0)))
      some (⟨text name⟩, extra)
  | _ => none

def mostInterpreters : Nat := 5

namespace Host

/-- Loads the program at a path. `levels` bounds the interpreters that stand behind one another. -/
def loadWithin (h : Host) (levels : Nat) (path : FilePath) (args : List String) :
    Except SystemError Image :=
  match h.find path with
  | .error cause => .error cause
  | .ok (_, .program permissions utility) =>
    if h.caller.mayExecute permissions then .ok ⟨utility, path.text, args⟩
    else .error .permissionDenied
  | .ok (_, .file permissions bytes) =>
    if h.caller.mayExecute permissions then
      match interpreterOf bytes, levels with
      | some (interpreter, extra), levels + 1 =>
        if interpreter.isEmpty then .error .permissionDenied
        else h.loadWithin levels interpreter (extra.toList ++ path.text :: args)
      | some (interpreter, _), 0 => (h.find interpreter).bind fun _ => .error .tooManyLinks
      | none, _ => .error .execFormat
    else .error .permissionDenied
  | .ok _ => .error .permissionDenied

def loadAt (h : Host) (path : FilePath) (args : List String) : Except SystemError Image :=
  h.loadWithin mostInterpreters path args

/-- Loads the first of several paths that holds a program. A path where nothing is does not count;
one that may not be executed is remembered, in case nothing better comes. -/
def loadFirst (h : Host) (args : List String) : (denied : Bool) → List FilePath →
    Except SystemError Image
  | denied, [] => .error (if denied then .permissionDenied else .noSuchEntry)
  | denied, path :: rest =>
    match h.loadAt path args with
    | .error .noSuchEntry => h.loadFirst args denied rest
    | .error .notDirectory => h.loadFirst args denied rest
    | .error .permissionDenied => h.loadFirst args true rest
    | result => result

def candidates (h : Host) (name : String) : List FilePath :=
  h.searchPath.map fun directory =>
    if directory.isEmpty then ⟨name⟩ else ⟨directory.text ++ "/" ++ name⟩

def hasNul (text : String) : Bool := text.toList.contains '\x00'

def load (h : Host) (program : String) (args : List String) : Except SystemError Image :=
  if hasNul program || args.any hasNul then .error .nulInData
  else if program.isEmpty then .error .noSuchEntry
  else if program.toList.contains '/' then h.loadAt ⟨program⟩ args
  else if longestName < byteLength program then .error .nameTooLong
  else
    (h.loadFirst args false (h.candidates program)).map fun image =>
      if (h.candidates program).any (·.text == image.name) then { image with name := program }
      else image

end Host

end TranscodingEngines
