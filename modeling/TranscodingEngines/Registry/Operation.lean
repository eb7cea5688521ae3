import TranscodingEngines.Catalog

/-!
# Operations of the registry

Everything that can change a registry, as data, so that the history of a registry is a list of
operations. Each operation meets the environment as it is at that moment.
-/

set_option autoImplicit false

namespace TranscodingEngines

inductive Operation where
  | register (engine : Engine)
  | registerBuiltin (tools : ToolPaths)
  | setEnabled (id : String) (enabled : Bool)
  | selectRole (id : String) (role : Role)
  | sort
  | updateSettings (settings : Settings)

namespace Registry

def apply (g : Registry) (env : Environment) : Operation → Outcome
  | .register engine => g.register env engine
  | .registerBuiltin tools => g.registerBuiltin env tools
  | .setEnabled id enabled => g.setEnabled id enabled
  | .selectRole id role => g.selectRole id role
  | .sort => g.sort.unchanged (.ok ()) []
  | .updateSettings settings => (g.updateSettings settings).unchanged (.ok ()) []

def applyAll (g : Registry) (history : List (Environment × Operation)) : Registry :=
  history.foldl (fun g step => (g.apply step.1 step.2).registry) g

@[simp]
theorem applyAll_nil (g : Registry) : g.applyAll [] = g := rfl

@[simp]
theorem applyAll_cons (g : Registry) (env : Environment) (operation : Operation)
    (history : List (Environment × Operation)) :
    g.applyAll ((env, operation) :: history)
      = ((g.apply env operation).registry).applyAll history := rfl

theorem applyAll_append (g : Registry) (first second : List (Environment × Operation)) :
    g.applyAll (first ++ second) = (g.applyAll first).applyAll second := by
  simp [applyAll]

end Registry

end TranscodingEngines
