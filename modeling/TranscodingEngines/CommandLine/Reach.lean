import TranscodingEngines.CommandLine.Basic

/-!
# What a command reaches

Which files a command may look at follows from its arguments and from the configuration: the file of
the configuration itself, and every place where a configured tool may be.
-/

set_option autoImplicit false

namespace TranscodingEngines.CommandLine

def reachedConfig (h : Host) (args : List String) : Option FilePath :=
  match readArguments args with
  | .error _ => none
  | .ok invocation => (configPath h invocation.config).toOption

def placesOf (h : Host) (path : FilePath) : List FilePath :=
  if path.isBare then h.candidates path.text else [FilePath.absolute h.workingDirectory path]

def reachedTools (h : Host) (c : Config) : List FilePath :=
  Family.all.flatMap fun family =>
    Role.all.flatMap fun r =>
      (((c.tools.forFamily family).get r).map (placesOf h)).getD []

/-- The places where the tools of the configuration that the arguments ask for may be. -/
def reached (h : Host) (args : List String) : List FilePath :=
  match (reachedConfig h args).map (Config.load h) with
  | some ⟨.ok c, _, _⟩ => reachedTools h c
  | _ => []

end TranscodingEngines.CommandLine
