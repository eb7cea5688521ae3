import TranscodingEngines.Verification
import TranscodingEngines.Settings
import TranscodingEngines.Dispatch

/-!
# The registry

The registry holds the engines in the order of priority, the settings, and the ledger of probes.
Registering an engine verifies it, chooses its current role and puts it into the list; an engine
whose identifier is taken is left out. If a probe is interrupted the engine is listed all the same,
with the interrupted role as its current one. Engines are addressed by raw texts that spell their
identifiers.
-/

set_option autoImplicit false

namespace TranscodingEngines

inductive RegistryError where
  | blankEngineId
  | unknownEngine (id : String)
  | interrupted (engine : String)
  deriving DecidableEq, Repr

def RegistryError.message : RegistryError → String
  | blankEngineId => "Engine identifier must not be blank"
  | unknownEngine id => "Transcoding engine " ++ id ++ " is not registered"
  | interrupted engine => "Registration of transcoding engine " ++ engine ++ " was interrupted"

/-- The known engines, and what is needed to keep them in order and to probe each executable once.
-/
structure Registry where
  engines : List Engine
  settings : Settings
  ledger : ProbeLedger

/-- The outcome of an operation: its result, the registry afterwards, and what was reported. -/
structure Outcome where
  result : Except RegistryError Unit
  registry : Registry
  events : List Log.Event

namespace Registry

def empty (settings : Settings) : Registry := ⟨[], settings, .empty⟩

def unchanged (g : Registry) (result : Except RegistryError Unit) (events : List Log.Event) :
    Outcome :=
  ⟨result, g, events⟩

/-! ## Queries -/

def lookup (g : Registry) (id : String) : Option Engine := g.engines.find? (·.id.isNamedBy id)

def select (g : Registry) (onlyEnabled onlyAvailable : Bool) : List Engine :=
  g.engines.filter fun e => (!onlyEnabled || e.enabled) && (!onlyAvailable || e.isAvailable)

def activeEngines (g : Registry) : List Engine := g.select true true

def size (g : Registry) : Nat := g.engines.length

def isEmpty (g : Registry) : Bool := g.engines.isEmpty

def isActive (g : Registry) (id : String) : Except RegistryError Bool :=
  if Text.isBlank id then .error .blankEngineId
  else .ok ((g.lookup id).any Engine.isActive)

def executableFor (g : Registry) (id : String) : Option FilePath :=
  (g.lookup id).bind Engine.executable

def probeRecords (g : Registry) : List ProbeRecord := g.ledger.cache.records

def engineFor (g : Registry) (resource : Resource) : Search := Dispatch.first resource g.engines

def enginesFor (g : Registry) (resource : Resource) : Search := Dispatch.all resource g.engines

/-! ## Order -/

def sort (g : Registry) : Registry :=
  { g with engines := sortByPriority g.settings g.engines }

def updateSettings (g : Registry) (settings : Settings) : Registry :=
  { g with settings := settings, engines := sortByPriority settings g.engines }

/-! ## Registration -/

/-- The engine as verification leaves it: fresh, enabled as the settings say, with the best role as
its current one or else the interrupted one. -/
def prepare (g : Registry) (env : Environment) (e : Engine) : Environment.Verified :=
  let fresh := { e.forgetVerification with enabled := g.settings.isEnabled e.id }
  let verified := env.verify fresh g.ledger
  let chosen := verified.engine.chooseRole (g.settings.preferredRole e.id)
  match verified.interruptedAt with
  | none => { verified with engine := chosen }
  | some r => { verified with engine := { chosen with currentRole := r } }

def admission (v : Environment.Verified) : Log.Event :=
  let quoted := "\"" ++ v.engine.name ++ "\""
  match v.interruptedAt with
  | some _ => ⟨.warn, "Registration of transcoding engine " ++ quoted ++ " was interrupted"⟩
  | none =>
    if v.engine.isAvailable then ⟨.info, "Transcoding engine " ++ quoted ++ " is available"⟩
    else ⟨.warn, "Transcoding engine " ++ quoted ++ " is not available"⟩

def register (g : Registry) (env : Environment) (e : Engine) : Outcome :=
  if g.engines.any (·.id.same e.id) then
    g.unchanged (.ok ())
      [⟨.info, "Transcoding engine " ++ e.name ++ " already exists, skipping registration..."⟩]
  else
    let verified := g.prepare env e
    { result := if verified.interruptedAt.isSome then .error (.interrupted e.name) else .ok ()
      registry :=
        { g with
          engines := sortByPriority g.settings (g.engines ++ [verified.engine])
          ledger := verified.ledger }
      events :=
        ⟨.info, "Checking transcoding engine: " ++ e.name⟩ :: verified.events
          ++ [admission verified] }

def registerAll (g : Registry) (env : Environment) : List Engine → Outcome
  | [] => g.unchanged (.ok ()) []
  | e :: rest =>
    let first := g.register env e
    match first.result with
    | .error cause => ⟨.error cause, first.registry, first.events⟩
    | .ok () =>
      let later := first.registry.registerAll env rest
      { later with events := first.events ++ later.events }

/-! ## Changes by identifier -/

def modifyFirst (p : Engine → Bool) (f : Engine → Engine) : List Engine → List Engine
  | [] => []
  | e :: rest => if p e then f e :: rest else e :: modifyFirst p f rest

def modify (g : Registry) (id : String) (f : Engine → Engine) (report : Engine → List Log.Event) :
    Outcome :=
  if Text.isBlank id then g.unchanged (.error .blankEngineId) []
  else
    match g.lookup id with
    | none => g.unchanged (.error (.unknownEngine id)) []
    | some e =>
      ⟨.ok (), { g with engines := modifyFirst (·.id.isNamedBy id) f g.engines }, report e⟩

def setEnabled (g : Registry) (id : String) (enabled : Bool) : Outcome :=
  g.modify id (fun e => { e with enabled := enabled }) fun _ => []

/-- Makes a declared role of an engine the current one; an undeclared role is only reported. -/
def selectRole (g : Registry) (id : String) (r : Role) : Outcome :=
  g.modify id (fun e => if e.declares r then { e with currentRole := r } else e) fun e =>
    if e.declares r then []
    else
      [⟨.warn, "Transcoding engine " ++ e.name ++ " has no " ++ r.label ++ " executable"⟩]

end Registry

end TranscodingEngines
