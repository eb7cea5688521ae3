/-!
# Names of files

A path is kept as the text it was written in. What it means is the list of its components: repeated
slashes, a slash at the end and dots other than one at the very front carry no meaning. Two paths
are the same when their components are, and paths are ordered by their components, with the root
before everything else and proper names last.

The parts of a path (its last name, the extension of that name, the path of the parent) are read off
the components, but the parent keeps the spelling of the path it was taken from.
-/

set_option autoImplicit false

namespace TranscodingEngines

structure FilePath where
  text : String
  deriving DecidableEq, Repr, Inhabited

namespace FilePath

inductive Component where
  | root
  | here
  | up
  | name (text : String)
  deriving DecidableEq, Repr, Inhabited

namespace Component

def rank : Component → Nat
  | root => 0
  | here => 1
  | up => 2
  | name _ => 3

def label : Component → String
  | root => "/"
  | here => "."
  | up => ".."
  | name text => text

def order (a b : Component) : Ordering :=
  (compare a.rank b.rank).then (compare a.label b.label)

end Component

def splitSlashes : List Char → List (List Char)
  | [] => [[]]
  | '/' :: rest => [] :: splitSlashes rest
  | c :: rest =>
    match splitSlashes rest with
    | [] => [[c]]
    | piece :: pieces => (c :: piece) :: pieces

structure Outline where
  front : Option Component
  pieces : List (List Char)
  deriving Repr

/-- The outline of a path. A dot counts as its front only when a slash or nothing follows it. -/
def outline (p : FilePath) : Outline :=
  match p.text.toList with
  | '/' :: rest => ⟨some .root, splitSlashes rest⟩
  | ['.'] => ⟨some .here, [[]]⟩
  | '.' :: '/' :: rest => ⟨some .here, [] :: splitSlashes rest⟩
  | chars => ⟨none, splitSlashes chars⟩

/-- A piece that carries no meaning: nothing at all, or a single dot. -/
def isIdle (piece : List Char) : Bool := piece.isEmpty || piece == ['.']

def component (piece : List Char) : Component :=
  if piece = ['.', '.'] then .up else .name (String.ofList piece)

def components (p : FilePath) : List Component :=
  p.outline.front.toList ++ (p.outline.pieces.filter (!isIdle ·)).map component

def same (p q : FilePath) : Bool := p.components == q.components

def orderComponents : List Component → List Component → Ordering
  | [], [] => .eq
  | [], _ :: _ => .lt
  | _ :: _, [] => .gt
  | a :: as, b :: bs => (a.order b).then (orderComponents as bs)

def order (p q : FilePath) : Ordering := orderComponents p.components q.components

def isEmpty (p : FilePath) : Bool := p.text.isEmpty

def isAbsolute (p : FilePath) : Bool := p.text.toList.head? == some '/'

def endsInSlash (p : FilePath) : Bool := p.text.toList.getLast? == some '/'

/-- The path without the slashes at its end; the root keeps one. -/
def withoutSlashes (p : FilePath) : FilePath :=
  match p.text.toList.reverse.dropWhile (· == '/') with
  | [] => if p.isEmpty then p else ⟨"/"⟩
  | chars => ⟨String.ofList chars.reverse⟩

/-- The name that the path ends in; none if it ends in the root or in dots. -/
def fileName (p : FilePath) : Option String :=
  match p.components.getLast? with
  | some (.name text) => some text
  | _ => none

/-- What follows the last dot of a name, unless that dot is its first character. -/
def extensionOf (name : String) : Option String :=
  let chars := name.toList.reverse
  match chars.dropWhile (· != '.') with
  | _ :: _ :: _ => some (String.ofList (chars.takeWhile (· != '.')).reverse)
  | _ => none

def extension (p : FilePath) : Option String := p.fileName.bind extensionOf

def dropIdle (pieces : List (List Char)) : List (List Char) :=
  (pieces.reverse.dropWhile isIdle).reverse

def Outline.text (o : Outline) : String :=
  (o.front.map Component.label).getD "" ++ String.ofList (List.intercalate ['/'] o.pieces)

/-- The path without its last component; none for the root and for the empty path. -/
def parent (p : FilePath) : Option FilePath :=
  let pieces := dropIdle p.outline.pieces
  match pieces, p.outline.front with
  | _ :: _, front => some ⟨Outline.text ⟨front, dropIdle pieces.dropLast⟩⟩
  | [], some .here => some ⟨""⟩
  | [], _ => none

/-- The second path seen from the first: itself if it is absolute, otherwise both with a slash
between them unless the first one is empty or ends in one. -/
def join (p q : FilePath) : FilePath :=
  if q.isAbsolute then q
  else if p.isEmpty || p.endsInSlash then ⟨p.text ++ q.text⟩
  else ⟨p.text ++ "/" ++ q.text⟩

/-- The path with another name in the place of its last one, or with the name behind it if it ends
in no name. -/
def withFileName (p : FilePath) (name : String) : FilePath :=
  let base := if p.fileName.isSome then p.parent.getD p else p
  base.join ⟨name⟩

def isBare (p : FilePath) : Bool :=
  match p.components with
  | [.name _] => true
  | _ => false

/-- The path taken from the directory `base`, by text alone: idle pieces go, two dots stay, a slash
at the end stays, and so do exactly two slashes at the front. -/
def absolute (base p : FilePath) : FilePath :=
  let names := ((p.components.dropWhile fun c => c == .root || c == .here).map Component.label)
  let start : FilePath :=
    match p.text.toList with
    | '/' :: '/' :: '/' :: _ => ⟨"/"⟩
    | '/' :: '/' :: _ => ⟨"//"⟩
    | '/' :: _ => ⟨"/"⟩
    | _ => base
  let whole := names.foldl (fun path name => path.join ⟨name⟩) start
  if p.endsInSlash then whole.join ⟨""⟩ else whole

@[simp]
theorem same_self (p : FilePath) : p.same p = true := by
  simp [same]

theorem same_iff {p q : FilePath} : p.same q = true ↔ p.components = q.components := by
  simp [same]

end FilePath

end TranscodingEngines
