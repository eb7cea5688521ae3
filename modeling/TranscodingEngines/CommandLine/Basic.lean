import TranscodingEngines.Catalog
import TranscodingEngines.Config.File
import TranscodingEngines.Config.Outline
import TranscodingEngines.CommandLine.Arguments
import TranscodingEngines.CommandLine.Display
import TranscodingEngines.Host.Process

/-!
# The commands

Every command but the one about the configuration file loads the configuration, registers the
built-in engines, and prints something about the registry. Its exit code is zero if the answer is
favourable.
-/

set_option autoImplicit false

namespace TranscodingEngines.CommandLine

/-- What a command leaves behind: the exit code, the lines it printed, the lines of complaints and
of the log, and the host. -/
structure Response where
  exitCode : Nat
  output : List String
  complaints : List String
  host : Host

def configPath (h : Host) (asked : Option FilePath) : Except ConfigFailure FilePath :=
  match asked with
  | some path => .ok path
  | none => Config.defaultPath h

/-- The end of a command that has no registry to work on: its exit code, and what it says. -/
structure Abort where
  exitCode : Nat
  text : String
  deriving DecidableEq, Repr

/-- A registry with the built-in engines, or how the command ends without one, with the host
afterwards and what was reported. -/
structure Opened where
  registry : Except Abort Registry
  host : Host
  events : List Log.Event

def complaint (text : String) : String := "Error: " ++ text

def refused (text : String) : Abort := ⟨1, complaint text⟩

/-- The end of a command that a run has taken down with it. The complaint is the reason alone; the
place where it arose and the hint that are printed around it are left out. -/
def takenDown : Abort := ⟨101, "overflow when adding duration to instant"⟩

def registered (programs : Programs) (h : Host) (c : Config) : Outcome :=
  (Registry.empty c.settings).registerBuiltin (programs.environment h .linux64 c.probeTimeout)
    c.tools

def openRegistry (programs : Programs) (h : Host) (asked : Option FilePath) : Opened :=
  match configPath h asked with
  | .error failure => ⟨.error (refused failure.message), h, []⟩
  | .ok path =>
    let loaded := Config.load h path
    match loaded.result with
    | .error failure => ⟨.error (refused failure.message), loaded.host, loaded.events⟩
    | .ok c =>
      let outcome := registered programs loaded.host c
      let events := loaded.events ++ outcome.events
      let calls := outcome.registry.ledger.calls
      let h := programs.after loaded.host c.probeTimeout calls
      -- A registration that is taken down leaves no registry, and does not report its end.
      if programs.takesDown c.probeTimeout loaded.host calls then
        ⟨.error takenDown, h, events.dropLast⟩
      else
        match outcome.result with
        | .error cause => ⟨.error (refused cause.message), h, events⟩
        | .ok () => ⟨.ok outcome.registry, h, events⟩

/-- What a command says about a registry: the exit code, the lines, the complaints, and what was
reported. -/
structure Answer where
  exitCode : Nat
  output : List String
  complaints : List String
  events : List Log.Event

def answerList (all json : Bool) (g : Registry) : Answer :=
  let engines := if all then g.engines else g.activeEngines
  ⟨0, if json then jsonListing engines else listingLines engines, [], []⟩

def answerCheck (id : String) (g : Registry) : Answer :=
  match g.lookup id with
  | none => ⟨1, [], ["Unknown transcoding engine: " ++ id], []⟩
  | some e => ⟨if e.isActive then 0 else 1, detailLines e, [], []⟩

def answerMatch (location : String) (all : Bool) (g : Registry) : Answer :=
  let resource := Media.resource location
  let search := if all then g.enginesFor resource else g.engineFor resource
  let heading := resourceLine location (Media.purpose location)
  if search.found.isEmpty then ⟨1, [heading, nothingFound], [], search.events⟩
  else ⟨0, heading :: engineLines search.found, [], search.events⟩

def answerCache (g : Registry) : Answer := ⟨0, probeLines g.probeRecords, [], []⟩

def onRegistry (programs : Programs) (h : Host) (invocation : Invocation)
    (answer : Registry → Answer) : Response :=
  let opened := openRegistry programs h invocation.config
  let log := logLines h.clock invocation.verbosity
  match opened.registry with
  | .error abort =>
    ⟨abort.exitCode, [], log opened.events ++ [abort.text], opened.host⟩
  | .ok g =>
    let a := answer g
    ⟨a.exitCode, a.output, log (opened.events ++ a.events) ++ a.complaints, opened.host⟩

/-- Shows the configuration, or puts the default one in the place of one that cannot be used. -/
def initConfig (h : Host) (invocation : Invocation) : Response :=
  match configPath h invocation.config with
  | .error failure => ⟨1, [], [complaint failure.message], h⟩
  | .ok path =>
    let log := logLines h.clock invocation.verbosity
    let loaded := Config.load h path
    match loaded.result with
    | .ok c =>
      ⟨0, ("Config loaded successfully from " ++ path.text) :: c.outline, log loaded.events,
        loaded.host⟩
    | .error failure =>
      let opening :=
        ["Config missing or invalid: " ++ failure.message, "Creating default config..."]
      let saved := Config.reset loaded.host path
      match saved.result with
      | .error cause =>
        ⟨1, opening,
          log (loaded.events ++ saved.events)
            ++ ["Failed to save default config: " ++ cause.message],
          saved.host⟩
      | .ok backup =>
        ⟨0,
          opening ++ (backup.map fun p => "Previous config kept as " ++ p.text).toList
            ++ ["Default config saved to " ++ path.text],
          log (loaded.events ++ saved.events), saved.host⟩

def carryOut (programs : Programs) (h : Host) (invocation : Invocation) : Response :=
  match invocation.command with
  | .list all json => onRegistry programs h invocation (answerList all json)
  | .check id => onRegistry programs h invocation (answerCheck id)
  | .matchResource location all => onRegistry programs h invocation (answerMatch location all)
  | .cache => onRegistry programs h invocation answerCache
  | .initConfig => initConfig h invocation

def usage : List String :=
  ["Discover, verify and rank media transcoding engines", "",
    "Usage: engine-registry [OPTIONS] <COMMAND>", "",
    "Commands:",
    "  list         List engines in priority order (enabled and available only by default)",
    "  check        Show the verification result of every executable of one engine",
    "  match        Find the engines able to handle a file or URL",
    "  cache        Show the probe result recorded for each executable",
    "  init-config  Show config status and location, or create default config if missing",
    "  help         Print this message or the help of the given subcommand(s)", "",
    "Options:",
    "      --config <FILE>  Use this config file instead of the default location",
    "  -v, --verbose...     Increase log verbosity (-v info, -vv debug, -vvv trace)",
    "  -h, --help           Print help"]

/-- Reads the arguments and carries out the command they ask for. -/
def run (programs : Programs) (h : Host) (args : List String) : Response :=
  match readArguments args with
  | .ok invocation => carryOut programs h invocation
  | .error .misuse => ⟨2, [], usage, h⟩
  | .error .helpWanted => ⟨0, usage, [], h⟩

end TranscodingEngines.CommandLine
