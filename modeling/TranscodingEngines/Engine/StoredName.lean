import TranscodingEngines.Engine.Role
import TranscodingEngines.Engine.Kind

/-!
# Names in stored data

Roles, families and purposes are stored by name. Reading one back gives the member with that name,
or an error that quotes the name and lists those that would have done.
-/

set_option autoImplicit false

namespace TranscodingEngines

structure UnknownName where
  name : String
  known : List String
  deriving DecidableEq, Repr

def UnknownName.message (e : UnknownName) : String :=
  "unknown variant `" ++ e.name ++ "`, expected one of "
    ++ ", ".intercalate (e.known.map fun k => "`" ++ k ++ "`")

def findNamed {α : Type} (members : List α) (key : α → String) (name : String) :
    Except UnknownName α :=
  match members.find? (key · == name) with
  | some member => .ok member
  | none => .error ⟨name, members.map key⟩

def Role.ofStored (name : String) : Except UnknownName Role := findNamed Role.all Role.label name

def Family.ofStored (name : String) : Except UnknownName Family :=
  findNamed Family.all Family.key name

def Purpose.ofStored (name : String) : Except UnknownName Purpose :=
  findNamed Purpose.all Purpose.key name

end TranscodingEngines
