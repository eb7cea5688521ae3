import TranscodingEngines.Host.Script.Launch
import TranscodingEngines.Proofs.CommandLine.Opening
import TranscodingEngines.Proofs.CommandLine.Rows
import TranscodingEngines.Proofs.Config.Backups
import TranscodingEngines.Proofs.Registry.Addressing
import TranscodingEngines.Proofs.Registry.Searches

/-!
# The commands agree

Every command opens a registry of its own and asks it in its own way. From the same files, with
programs that answer the same, what the commands print and return tells one story: the rows of one
listing are among the rows of another, the rows of a match are among those of a listing, and a
listing in JSON tells the same as the one in lines. A command changes nothing about an existing
configuration file, unless a probed program does.
-/

set_option autoImplicit false

namespace TranscodingEngines

namespace CommandLine

/-- The program, asked for a command by some arguments, responds like this. -/
def Responds (programs : Programs) (h : Host) (asked : Option FilePath) (command : Command)
    (r : Response) : Prop :=
  ∃ args verbosity, readArguments args = .ok ⟨command, asked, verbosity⟩ ∧ run programs h args = r

def Shown.serves (location : String) (s : Shown) : Bool :=
  (Media.purpose location).any (s.purpose == some ·)

/-- The rows for engines that serve the media at a location. -/
def rowsServing (location : String) (lines : List String) : List Row :=
  (rows lines).filter (·.shown.serves location)

/-- What the commands print and return, if their registries hold the same engines. -/
structure TellOneStory (known : List Engine) (responds : Command → Response → Prop) : Prop where
  /-- All engines are listed and numbered. Their identifiers are the built-in ones. -/
  list_all : ∀ all, responds (.list true false) all → all.exitCode = 0 ∧
    IsTable all.output nothingListed ∧ renumbered (rows all.output) = rows all.output ∧
    (rows all.output).map (·.shown) = known.map Shown.ofEngine ∧
    ((rows all.output).map (·.shown.id)).Perm (Catalog.portable.map (·.id))
  /-- The active engines are the rows with that status, numbered again. -/
  list : ∀ all active, responds (.list true false) all → responds (.list false false) active →
    active.exitCode = 0 ∧ IsTable active.output nothingListed ∧
    rows active.output = renumbered ((rows all.output).filter (·.shown.status == "active"))
  json : ∀ all lines r, responds (.list all false) lines → responds (.list all true) r →
    r.exitCode = 0 ∧ ∃ objects, Json.read? r.output = some objects ∧
      objects.map Shown.ofObject? = (rows lines.output).map fun row => some row.shown
  check : ∀ id active r, responds (.list false false) active → responds (.check id) r →
    (r.exitCode = 0 ↔ ∃ row ∈ rows active.output, (EngineId.mk row.shown.id).isNamedBy id = true)
  match_all : ∀ location active r, responds (.list false false) active →
    responds (.matchResource location true) r →
    rows r.output = renumbered (rowsServing location active.output) ∧
    IsTable r.output.tail nothingFound ∧
    (r.exitCode = 1 ↔ rowsServing location active.output = [])
  match_first : ∀ location active r, responds (.list false false) active →
    responds (.matchResource location false) r →
    rows r.output = renumbered ((rowsServing location active.output).take 1) ∧
    IsTable r.output.tail nothingFound ∧
    (r.exitCode = 1 ↔ rowsServing location active.output = [])

/-! ## What is shown -/

theorem statusLabel_eq_active_iff {e : Engine} : statusLabel e = "active" ↔ e.isActive = true := by
  rw [statusLabel, Engine.isActive_iff]
  cases e.isAvailable <;> cases e.enabled <;> simp

theorem filter_active (g : Registry) :
    g.engines.filter (fun e => (Shown.ofEngine e).status == "active") = g.activeEngines := by
  rw [g.activeEngines_eq]
  refine List.filter_congr fun e _ => ?_
  rw [Bool.eq_iff_iff, beq_iff_eq]
  exact statusLabel_eq_active_iff

def serving (location : String) (engines : List Engine) : List Engine :=
  engines.filter (Media.purpose location == some ·.purpose)

theorem serves_ofEngine (location : String) (e : Engine) :
    (Shown.ofEngine e).serves location = (Media.purpose location == some e.purpose) := by
  rw [Shown.serves, Shown.ofEngine]
  cases Media.purpose location with
  | none => rfl
  | some p => exact Bool.beq_comm

theorem answerList_output (all json : Bool) (g : Registry) : (answerList all json g).output
    = (if json then jsonListing else listingLines) (if all then g.engines else g.activeEngines) := by
  rw [answerList]
  cases json <;> rfl

theorem answerCheck_exitCode {g : Registry} (hDistinct : g.Distinct) (id : String) :
    (answerCheck id g).exitCode = 0 ↔ ∃ e ∈ g.activeEngines, e.id.isNamedBy id = true := by
  rw [answerCheck]
  constructor
  · intro hZero
    split at hZero
    · cases hZero
    · rename_i e hFound
      obtain ⟨he, hName⟩ := hDistinct.lookup_eq_some_iff.mp hFound
      have hActive : e.isActive = true := by simpa using hZero
      exact ⟨e, Registry.mem_activeEngines.mpr ⟨he, Engine.isActive_iff.mp hActive⟩, hName⟩
  · rintro ⟨e, hActive, hName⟩
    obtain ⟨he, hWorks⟩ := Registry.mem_activeEngines.mp hActive
    simp only [hDistinct.lookup_eq_some_iff.mpr ⟨he, hName⟩, Engine.isActive_iff.mpr hWorks, if_true]

def matching (location : String) (all : Bool) (g : Registry) : List Engine :=
  if all then serving location g.activeEngines else (serving location g.activeEngines).take 1

theorem found_match (location : String) (all : Bool) (g : Registry) :
    (if all then g.enginesFor (Media.resource location)
      else g.engineFor (Media.resource location)).found = matching location all g := by
  have hServes := Dispatch.serves (Media.resource location) g.engines
  have hAll : (g.enginesFor (Media.resource location)).found
      = serving location g.activeEngines := by
    rw [g.activeEngines_eq]
    exact hServes.found_all
  cases all with
  | true => exact hAll
  | false =>
    have hFirst : (g.engineFor (Media.resource location)).found
        = (g.enginesFor (Media.resource location)).found.head?.toList := hServes.found_first
    rw [hAll, ← List.take_one] at hFirst
    exact hFirst

theorem answerMatch_eq (location : String) (all : Bool) (g : Registry) :
    (answerMatch location all g).output = resourceLine location (Media.purpose location)
        :: tableLines nothingFound (matching location all g) ∧
      (answerMatch location all g).exitCode = if (matching location all g).isEmpty then 1 else 0 := by
  rw [answerMatch, found_match, tableLines]
  cases (matching location all g).isEmpty with
  | true => exact ⟨rfl, rfl⟩
  | false => exact ⟨rfl, rfl⟩

theorem emptyCode_eq_one_iff {found : List Engine} :
    (if found.isEmpty then 1 else 0) = 1 ↔ found = [] := by
  cases found <;> simp

theorem matching_eq_nil_iff {location : String} {all : Bool} {g : Registry} :
    matching location all g = [] ↔ serving location g.activeEngines = [] := by
  rw [matching]
  cases all <;> simp

/-! ## The engines -/

theorem isTabular_of_entry {tools : ToolPaths} {platform : Platform} {entry : Catalog.Entry}
    {e : Engine} (hEntry : entry ∈ Catalog.portable)
    (h : (Catalog.engine tools platform entry).declaration = e.declaration) : IsTabular e := by
  have hAll : ∀ entry ∈ Catalog.portable, (Text.trim entry.id).toList.all (· != ' ') = true ∧
      entry.name.toList.length ≤ 24 ∧ Text.trim entry.name = entry.name ∧
      purposeOf (Text.trim entry.id) = some entry.purpose := by decide +kernel
  obtain ⟨hWord, hFits, hTrim, hPurpose⟩ := hAll entry hEntry
  have hId : Text.trim entry.id = e.id.text := by
    rw [← Engine.id_eq_of_declaration h, Catalog.id_engine]
    rfl
  have hName : entry.name = e.name := by
    rw [← Engine.name_eq_of_declaration h, Catalog.engine]
    split <;> rfl
  have hSame : entry.purpose = e.purpose := by
    have hDeclared := congrArg (·.purpose) h
    change (Catalog.engine tools platform entry).purpose = e.purpose at hDeclared
    rw [← hDeclared, Catalog.engine]
    split <;> rfl
  rw [hId] at hWord hPurpose
  rw [hName] at hFits hTrim
  rw [hSame] at hPurpose
  exact ⟨List.all_eq_true.mp hWord, hFits, hTrim, hPurpose⟩

section Opened

variable {programs : Programs} {h : Host} {asked : Option FilePath} {path : FilePath} {c : Config}

theorem isTabular_opened : ∀ e ∈ (opened programs h path c).engines, IsTabular e := by
  intro e he
  obtain ⟨entry, hEntry, hDeclaration⟩ := Registry.exists_entry he
  exact isTabular_of_entry hEntry hDeclaration

theorem isTabular_active : ∀ e ∈ (opened programs h path c).activeEngines, IsTabular e :=
  fun e he => isTabular_opened e ((opened programs h path c).activeEngines_sublist.subset he)

theorem Opens.ids_perm (hOpens : Opens programs h asked path c) :
    ((opened programs h path c).engines.map (·.id.text)).Perm (Catalog.portable.map (·.id)) := by
  have hTexts : (Catalog.ids .linux64).map (·.text) = Catalog.portable.map (·.id) := by
    decide +kernel
  have hOrder := (Registry.order_registerBuiltin hOpens.result_eq).map (·.text)
  rw [Registry.order, List.map_map] at hOrder
  exact hTexts ▸ hOrder

end Opened

/-! ## The commands -/

theorem Responds.exists_carryOut {programs : Programs} {h : Host} {asked : Option FilePath}
    {command : Command} {r : Response} (hResponds : Responds programs h asked command r) :
    ∃ verbosity, r = carryOut programs h ⟨command, asked, verbosity⟩ := by
  obtain ⟨args, verbosity, hRead, rfl⟩ := hResponds
  refine ⟨verbosity, ?_⟩
  rw [run, hRead]

namespace Opens

variable {programs : Programs} {h : Host} {asked : Option FilePath} {path : FilePath} {c : Config}
  (hOpens : Opens programs h asked path c)

include hOpens

theorem of_list {all json : Bool} {r : Response}
    (hResponds : Responds programs h asked (.list all json) r) :
    r.exitCode = 0 ∧ r.output = (if json then jsonListing else listingLines)
      (if all then (opened programs h path c).engines
        else (opened programs h path c).activeEngines) := by
  obtain ⟨verbosity, rfl⟩ := hResponds.exists_carryOut
  obtain ⟨hCode, hOutput, _⟩ := hOpens.onRegistry_eq (.list all json) verbosity (answerList all json)
  rw [answerList_output] at hOutput
  exact ⟨hCode, hOutput⟩

theorem rows_of_list {all : Bool} {r : Response}
    (hResponds : Responds programs h asked (.list all false) r) :
    r.exitCode = 0 ∧ IsTable r.output nothingListed ∧ rows r.output
      = numbered ((if all then (opened programs h path c).engines
        else (opened programs h path c).activeEngines).map rowText) := by
  obtain ⟨hCode, hOutput⟩ := hOpens.of_list hResponds
  have hNothing : Row.read? nothingListed = none := by decide +kernel
  rw [hOutput]
  exact ⟨hCode, isTable_tableLines hNothing _, rows_tableLines hNothing _⟩

theorem of_check {id : String} {r : Response}
    (hResponds : Responds programs h asked (.check id) r) : r.exitCode = 0 ↔
      ∃ e ∈ (opened programs h path c).activeEngines, e.id.isNamedBy id = true := by
  obtain ⟨verbosity, rfl⟩ := hResponds.exists_carryOut
  obtain ⟨hCode, _⟩ := hOpens.onRegistry_eq (.check id) verbosity (answerCheck id)
  rw [← answerCheck_exitCode distinct_opened, ← hCode]
  rfl

theorem rows_of_match {location : String} {all : Bool} {r : Response}
    (hResponds : Responds programs h asked (.matchResource location all) r) :
    rows r.output = numbered ((matching location all (opened programs h path c)).map rowText) ∧
    IsTable r.output.tail nothingFound ∧
    (r.exitCode = 1 ↔ serving location (opened programs h path c).activeEngines = []) := by
  obtain ⟨verbosity, rfl⟩ := hResponds.exists_carryOut
  obtain ⟨hCode, hOutput, _⟩ :=
    hOpens.onRegistry_eq (.matchResource location all) verbosity (answerMatch location all)
  obtain ⟨hLines, hExit⟩ := answerMatch_eq location all (opened programs h path c)
  have hNothing : Row.read? nothingFound = none := by decide +kernel
  change rows (onRegistry programs h _ _).output = _ ∧
    IsTable (onRegistry programs h _ _).output.tail _ ∧
    ((onRegistry programs h _ _).exitCode = 1 ↔ _)
  rw [hOutput, hLines, hCode, hExit, rows, List.filterMap_cons_none (read?_resourceLine _ _),
    emptyCode_eq_one_iff, matching_eq_nil_iff]
  exact ⟨rows_tableLines hNothing _, isTable_tableLines hNothing _, Iff.rfl⟩

theorem rowsServing_eq (location : String) {active : Response}
    (hActive : Responds programs h asked (.list false false) active) :
    renumbered (rowsServing location active.output)
        = numbered ((serving location (opened programs h path c).activeEngines).map rowText) ∧
      (rowsServing location active.output = [] ↔
        serving location (opened programs h path c).activeEngines = []) := by
  obtain ⟨_, _, hRows⟩ := hOpens.rows_of_list hActive
  rw [if_neg Bool.false_ne_true] at hRows
  have hServing : renumbered (rowsServing location active.output)
      = numbered ((serving location (opened programs h path c).activeEngines).map rowText) := by
    rw [rowsServing, hRows, renumbered_filter isTabular_active (·.serves location), serving]
    simp only [serves_ofEngine]
  refine ⟨hServing, ?_⟩
  rw [← renumbered_eq_nil_iff, hServing, numbered, List.map_eq_nil_iff, List.zipIdx_eq_nil_iff,
    List.map_eq_nil_iff]

theorem host_eq {command : Command} (hCommand : command ≠ .initConfig) {r : Response}
    (hResponds : Responds programs h asked command r) : r.host = hostAfter programs h path c := by
  obtain ⟨verbosity, rfl⟩ := hResponds.exists_carryOut
  cases command with
  | list all json => exact (hOpens.onRegistry_eq _ verbosity _).2.2
  | check id => exact (hOpens.onRegistry_eq _ verbosity _).2.2
  | matchResource location all => exact (hOpens.onRegistry_eq _ verbosity _).2.2
  | cache => exact (hOpens.onRegistry_eq _ verbosity _).2.2
  | initConfig => exact absurd rfl hCommand

theorem tellOneStory :
    TellOneStory (opened programs h path c).engines (Responds programs h asked) where
  list_all all hAll := by
    obtain ⟨hCode, hTable, hRows⟩ := hOpens.rows_of_list hAll
    rw [if_pos rfl] at hRows
    have hShown : (rows all.output).map (·.shown)
        = (opened programs h path c).engines.map Shown.ofEngine := by
      rw [hRows, map_shown_numbered isTabular_opened]
    refine ⟨hCode, hTable, by rw [hRows, renumbered_numbered], hShown, ?_⟩
    have hIds := congrArg (List.map (·.id)) hShown
    rw [List.map_map, List.map_map] at hIds
    exact (List.Perm.of_eq hIds).trans hOpens.ids_perm
  list all active hAll hActive := by
    obtain ⟨_, _, hRows⟩ := hOpens.rows_of_list hAll
    obtain ⟨hCode, hTable, hRows'⟩ := hOpens.rows_of_list hActive
    rw [if_pos rfl] at hRows
    rw [if_neg Bool.false_ne_true] at hRows'
    refine ⟨hCode, hTable, ?_⟩
    rw [hRows', hRows, renumbered_filter isTabular_opened (·.status == "active"), filter_active]
  json all lines r hLines hJson := by
    obtain ⟨_, _, hRows⟩ := hOpens.rows_of_list hLines
    obtain ⟨hCode, hOutput⟩ := hOpens.of_list hJson
    have hTabular : ∀ e ∈ if all then (opened programs h path c).engines
        else (opened programs h path c).activeEngines, IsTabular e := by
      cases all with
      | true => exact isTabular_opened
      | false => exact isTabular_active
    rw [if_pos rfl] at hOutput
    generalize (if all then _ else _ : List Engine) = engines at hRows hOutput hTabular
    refine ⟨hCode, engines.map engineObject, by rw [hOutput, read?_jsonListing], ?_⟩
    have hShown := congrArg (List.map some) (map_shown_numbered hTabular)
    rw [List.map_map] at hShown
    rw [hRows, List.map_map]
    refine Eq.trans ?_ hShown.symm
    rw [List.map_map]
    exact List.map_congr_left fun e _ => ofObject?_engineObject e
  check id active r hActive hCheck := by
    obtain ⟨_, _, hRows⟩ := hOpens.rows_of_list hActive
    rw [if_neg Bool.false_ne_true] at hRows
    have hShown : (rows active.output).map (·.shown)
        = (opened programs h path c).activeEngines.map Shown.ofEngine := by
      rw [hRows, map_shown_numbered isTabular_active]
    rw [hOpens.of_check hCheck]
    constructor
    · rintro ⟨e, he, hName⟩
      have hMem : Shown.ofEngine e ∈ (rows active.output).map (·.shown) :=
        hShown ▸ List.mem_map_of_mem he
      obtain ⟨row, hRow, hSame⟩ := List.mem_map.mp hMem
      exact ⟨row, hRow, by rw [hSame]; exact hName⟩
    · rintro ⟨row, hRow, hName⟩
      have hMem : row.shown ∈ (opened programs h path c).activeEngines.map Shown.ofEngine :=
        hShown ▸ List.mem_map_of_mem hRow
      obtain ⟨e, he, hSame⟩ := List.mem_map.mp hMem
      rw [← hSame] at hName
      exact ⟨e, he, hName⟩
  match_all location active r hActive hMatch := by
    obtain ⟨hRows, hTable, hExit⟩ := hOpens.rows_of_match hMatch
    obtain ⟨hServing, hNone⟩ := hOpens.rowsServing_eq location hActive
    exact ⟨hRows.trans hServing.symm, hTable, hExit.trans hNone.symm⟩
  match_first location active r hActive hMatch := by
    obtain ⟨hRows, hTable, hExit⟩ := hOpens.rows_of_match hMatch
    obtain ⟨hServing, hNone⟩ := hOpens.rowsServing_eq location hActive
    have hFirst := congrArg (List.map (·.text)) hServing
    refine ⟨?_, hTable, hExit.trans hNone.symm⟩
    rw [renumbered, map_text_numbered, map_text_numbered] at hFirst
    rw [hRows, renumbered, List.map_take, hFirst, ← List.map_take]
    rfl

end Opens

/-- All commands tell of one list of engines. Listing shows the whole list, or the active engines of
it in their order, as lines or in JSON; checking succeeds exactly for the active ones; matching shows
those of the active ones that serve the resource, or the first of these, and fails exactly if there
is none. What an existing configuration file leads to is changed by probed programs at most. -/
theorem commands_agree (programs : Programs) (h : Host) (asked : Option FilePath) {path : FilePath}
    {c : Config} (hOpens : Opens programs h asked path c) :
    TellOneStory (opened programs h path c).engines (Responds programs h asked) ∧
    ∀ command r, command ≠ .initConfig → Responds programs h asked command r →
      r.host = hostAfter programs h path c ∧
      (h.pathExists path = true →
        programs.LeavesAlone h c.probeTimeout (callsOf programs h path c) path →
        r.host.find path = h.find path) := by
  refine ⟨hOpens.tellOneStory, fun command r hCommand hr => ?_⟩
  have hHost := hOpens.host_eq hCommand hr
  refine ⟨hHost, fun hExists hAlone => ?_⟩
  have hHere : (Config.load h path).host = h := by rw [Config.load, if_pos hExists]
  rw [hHost, hostAfter, hHere]
  exact hAlone.find_after

/-- A configuration without ranks that switches one engine off. -/
def sparing : Config := { Config.default with priority := [], disabled := ["VLCWebVideo"] }

/-- A machine with that configuration in the root and nothing else. -/
def bare : Host where
  files := ⟨[(["c.toml"], .file ⟨0, 0, 0o644⟩ (Text.bytes sparing.encode))]⟩
  caller := ⟨0, [0]⟩
  directory := []
  home := none
  searchPath := []
  clock := ⟨2024, 5, 17, 9, 30, 0⟩
  started := ⟨1000000000⟩
  journal := []

theorem load_bare : bare.pathExists ⟨"c.toml"⟩ = true ∧
    Config.load bare ⟨"c.toml"⟩ = ⟨.ok sparing, bare, []⟩ := by
  have hFile : bare.files.get? ["c.toml"]
      = some (.file ⟨0, 0, 0o644⟩ (Text.bytes sparing.encode)) := rfl
  have hExists : bare.pathExists ⟨"c.toml"⟩ = true := by
    rw [Host.pathExists, Config.find_in_root rfl rfl Config.canName_config hFile]
    rfl
  exact ⟨hExists, Config.load_of_readText (by decide) hExists
    (Config.readText_in_root rfl rfl Config.canName_config hFile)⟩

/-- What there is to tell about the engines that need no probe, but for the one switched off. -/
def unprobed : List Shown :=
  [⟨"VLCVideo", "VLC", "active", "-", some .videoFile⟩,
    ⟨"VLCAudioStreaming", "VLC Web Audio (Legacy)", "active", "-", some .audioStream⟩,
    ⟨"VLCVideoStreaming", "VLC Web Video (Legacy)", "active", "-", some .videoStream⟩]

/-- Nothing can be probed on the machine, and what needs no probe is available. -/
theorem opened_bare :
    let g := opened (.ofSystem Script.system false) bare ⟨"c.toml"⟩ sparing
    (g.engines.map Shown.ofEngine).filter (·.status == "active") = unprobed ∧
    g.ledger.calls.length = 4 ∧
    ∀ call ∈ g.ledger.calls, (Script.system.load bare call).isOk = false := by
  intro g
  have hAppended : g = (Registry.empty sparing.settings).appendAll
      ((Programs.ofSystem Script.system false).environment bare .linux64 sparing.probeTimeout)
      (Catalog.engines sparing.tools .linux64) := by
    simp only [g, opened, load_bare.2]
    exact Registry.registerAll_eq_appendAll _ _ _ fun _ _ => UInt64.le_refl _
  rw [hAppended]
  decide +kernel

/-- On that machine three engines are active, one of which plays a film. -/
theorem commands_agree_bare :
    let programs := Programs.ofSystem Script.system false
    let answer (args : List String) := run programs bare (args ++ ["--config", "c.toml"])
    let ids (r : Response) := (rows r.output).map (·.shown.id)
    Opens programs bare (some ⟨"c.toml"⟩) ⟨"c.toml"⟩ sparing ∧
    (ids (answer ["list", "--all"])).length = 12 ∧
    ids (answer ["list"]) = ["VLCVideo", "VLCAudioStreaming", "VLCVideoStreaming"] ∧
    (answer ["check", " vlcvideo "]).exitCode = 0 ∧
    (answer ["check", "VLCWebVideo"]).exitCode ≠ 0 ∧
    ids (answer ["match", "film.mkv"]) = ["VLCVideo"] ∧
    (answer ["match", "song.flac"]).exitCode = 1 ∧
    (answer ["match", "song.flac"]).host.find ⟨"c.toml"⟩ = bare.find ⟨"c.toml"⟩ := by
  intro programs answer ids
  obtain ⟨hExists, hLoads⟩ := load_bare
  obtain ⟨hEngines, -, hIdle⟩ := opened_bare
  have hOpens : Opens programs bare (some ⟨"c.toml"⟩) ⟨"c.toml"⟩ sparing :=
    opens_ofSystem Script.system rfl (by rw [hLoads]) (by rw [hLoads]; decide)
  obtain ⟨hStory, hHosts⟩ := commands_agree programs bare (some ⟨"c.toml"⟩) hOpens
  have hResponds : ∀ args command,
      readArguments (args ++ ["--config", "c.toml"]) = .ok ⟨command, some ⟨"c.toml"⟩, 0⟩ →
      Responds programs bare (some ⟨"c.toml"⟩) command (answer args) :=
    fun args command hRead => ⟨_, 0, hRead, rfl⟩
  have hAll := hResponds ["list", "--all"] (.list true false) (by decide +kernel)
  have hList := hResponds ["list"] (.list false false) (by decide +kernel)
  have hFilm := hResponds ["match", "film.mkv"] (.matchResource "film.mkv" false)
    (by decide +kernel)
  have hSong := hResponds ["match", "song.flac"] (.matchResource "song.flac" false)
    (by decide +kernel)
  obtain ⟨_, _, _, hShown, hIds⟩ := hStory.list_all _ hAll
  obtain ⟨_, _, hRows⟩ := hStory.list _ _ hAll hList
  have hActive : (rows (answer ["list"]).output).map (·.shown) = unprobed := by
    rw [hRows, map_shown_renumbered, map_shown_filter (·.status == "active"), hShown]
    exact hEngines
  have hNamed : ∀ id, (∃ row ∈ rows (answer ["list"]).output,
      (EngineId.mk row.shown.id).isNamedBy id = true) ↔
        ∃ s ∈ unprobed, (EngineId.mk s.id).isNamedBy id = true := by
    intro id
    rw [← hActive]
    simp
  have hServing : ∀ location, (rowsServing location (answer ["list"]).output).map (·.shown)
      = unprobed.filter (·.serves location) := by
    intro location
    rw [rowsServing, map_shown_filter (·.serves location), hActive]
  refine ⟨hOpens, ?_, ?_, ?_, ?_, ?_, ?_, ?_⟩
  · exact hIds.length_eq.trans (by decide)
  · have hListed := congrArg (List.map (·.id)) hActive
    rw [List.map_map] at hListed
    exact hListed.trans (by decide)
  · have hCheck := hResponds ["check", " vlcvideo "] (.check " vlcvideo ") (by decide +kernel)
    rw [hStory.check _ _ _ hList hCheck, hNamed]
    decide +kernel
  · have hCheck := hResponds ["check", "VLCWebVideo"] (.check "VLCWebVideo") (by decide +kernel)
    rw [ne_eq, hStory.check _ _ _ hList hCheck, hNamed]
    decide +kernel
  · have hFound := congrArg (List.map (·.shown)) (hStory.match_first _ _ _ hList hFilm).1
    rw [map_shown_renumbered, List.map_take, hServing] at hFound
    have hListed := congrArg (List.map (·.id)) hFound
    rw [List.map_map] at hListed
    exact hListed.trans (by decide +kernel)
  · rw [(hStory.match_first _ _ _ hList hSong).2.2, ← List.map_eq_nil_iff, hServing]
    decide +kernel
  · exact (hHosts _ _ (by decide) hSong).2 hExists
      (Programs.leavesAlone_of_not_loaded ⟨"c.toml"⟩ hIdle)

end CommandLine

end TranscodingEngines
