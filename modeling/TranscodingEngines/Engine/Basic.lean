import TranscodingEngines.Engine.Id
import TranscodingEngines.Engine.Role
import TranscodingEngines.Engine.Kind
import TranscodingEngines.Engine.Availability

/-!
# Engines

An engine is a unit of transcoding capability. It declares some of the three roles, each with a
configured path or without one; verification adds the executable a role resolved to and its
availability. The engine is available when its current role is, and active when it is enabled too.
-/

set_option autoImplicit false

namespace TranscodingEngines

/-- A declared role: what is configured, and what verification made of it. -/
structure RoleState where
  configured : Option FilePath
  resolved : Option FilePath
  availability : Availability
  deriving DecidableEq, Repr

def RoleState.unverified (configured : Option FilePath) : RoleState := ⟨configured, none, .unknown⟩

structure Engine where
  id : EngineId
  name : String
  family : Family
  purpose : Purpose
  requiresAvisynth : Bool
  executables : PerRole (Option RoleState)
  defaultRole : Role
  currentRole : Role
  enabled : Bool
  deriving DecidableEq, Repr

namespace Engine

/-- An enabled engine without declared roles, whose default role is the installed one. -/
def new (id : EngineId) (name : String) (family : Family) (purpose : Purpose) : Engine where
  id := id
  name := name
  family := family
  purpose := purpose
  requiresAvisynth := false
  executables := .const none
  defaultRole := .installed
  currentRole := .installed
  enabled := true

def withExecutable (e : Engine) (r : Role) (path : Option FilePath) : Engine :=
  { e with executables := e.executables.set r (some (.unverified path)) }

def withDefaultRole (e : Engine) (r : Role) : Engine :=
  { e with defaultRole := r, currentRole := r }

def withAvisynth (e : Engine) : Engine := { e with requiresAvisynth := true }

def declares (e : Engine) (r : Role) : Bool := (e.executables.get r).isSome

def roles (e : Engine) : List Role := Role.all.filter e.declares

def configured (e : Engine) (r : Role) : Option FilePath :=
  (e.executables.get r).bind (·.configured)

def resolved (e : Engine) (r : Role) : Option FilePath := (e.executables.get r).bind (·.resolved)

def availability (e : Engine) (r : Role) : Availability :=
  ((e.executables.get r).map (·.availability)).getD .unknown

def isAvailableFor (e : Engine) (r : Role) : Bool := (e.availability r).isAvailable

def isAvailable (e : Engine) : Bool := e.isAvailableFor e.currentRole

def isActive (e : Engine) : Bool := e.enabled && e.isAvailable

def version (e : Engine) : Option String := (e.availability e.currentRole).version

def executable (e : Engine) : Option FilePath := e.resolved e.currentRole

def modifyRole (e : Engine) (r : Role) (f : RoleState → RoleState) : Engine :=
  { e with executables := e.executables.set r ((e.executables.get r).map f) }

def setResolved (e : Engine) (r : Role) (path : FilePath) : Engine :=
  e.modifyRole r fun s => { s with resolved := some path }

def setAvailability (e : Engine) (r : Role) (a : Availability) : Engine :=
  e.modifyRole r fun s => { s with availability := a }

def forgetVerification (e : Engine) : Engine :=
  { e with executables := e.executables.map (·.map fun s => .unverified s.configured) }

/-- The role to work with after verification: the preferred one if it can be used, then the default
one, then the first that can. When none can, it is the preferred role. Without a preference the
default role is the preferred one. -/
def bestRole (e : Engine) (preferred : Option Role) : Role :=
  let first := preferred.getD e.defaultRole
  if e.isAvailableFor first then first
  else if e.isAvailableFor e.defaultRole then e.defaultRole
  else (e.roles.find? e.isAvailableFor).getD first

def chooseRole (e : Engine) (preferred : Option Role) : Engine :=
  { e with currentRole := e.bestRole preferred }

end Engine

end TranscodingEngines
