import TranscodingEngines.Config.Decoding
import TranscodingEngines.Config.Encoding
import TranscodingEngines.Proofs.Toml.Building

/-!
# Configurations read back

A configuration is written as eight tables. Every table is written even if nothing is in it, so no
default takes its place, and reading the document gives back the configuration.
-/

set_option autoImplicit false

namespace TranscodingEngines.Config

open Toml

/-! ## The tables of a configuration -/

def listsRows (c : Config) : List Row :=
  [⟨"priority", writeArray c.priority, .array (c.priority.map .string)⟩,
    ⟨"disabled", writeArray c.disabled, .array (c.disabled.map .string)⟩]

def roleRow (entry : String × Role) : Row :=
  ⟨entry.1, writeString entry.2.label, .string entry.2.label⟩

def pathRow (r : Role) (path : FilePath) : Row := ⟨r.label, writeString path.text, .string path.text⟩

def pathRows (paths : PerRole (Option FilePath)) : List Row :=
  Role.all.filterMap fun r => (paths.get r).map (pathRow r)

def probeRows (c : Config) : List Row :=
  [⟨"timeout_secs", toString c.timeoutSecs, .integer c.timeoutSecs⟩]

def toolSection (name : String) (paths : PerRole (Option FilePath)) : Toml.Section :=
  ⟨["executables", name], pathRows paths⟩

def sections (c : Config) : List Toml.Section :=
  [⟨["engines"], listsRows c⟩, ⟨["engines", "roles"], c.roles.entries.map roleRow⟩,
    toolSection "ffmpeg" c.tools.ffmpeg, toolSection "mencoder" c.tools.mencoder,
    toolSection "vlc" c.tools.vlc, toolSection "tsmuxer" c.tools.tsMuxeR,
    toolSection "dcraw" c.tools.dcraw, ⟨["probe"], probeRows c⟩]

theorem text_toolSection (name : String) (paths : PerRole (Option FilePath)) :
    (toolSection name paths).text = encodeTool name paths := by
  rw [toolSection, Toml.Section.text, encodeTool, encodePaths]
  congr 1
  obtain ⟨bundled, installed, custom⟩ := paths
  cases bundled <;> cases installed <;> cases custom <;>
    simp [pathRows, Role.all, PerRole.get, pathRow, Row.text, String.join_cons]

theorem text_sections (c : Config) : (sections c).map Toml.Section.text = encodeTables c := by
  have hLists : Toml.Section.text ⟨["engines"], listsRows c⟩ = encodeLists c := by
    simp [Toml.Section.text, listsRows, encodeLists, Row.text, String.join_cons, String.append_assoc]
  have hRoles : Toml.Section.text ⟨["engines", "roles"], c.roles.entries.map roleRow⟩
      = encodeRoles c := by
    rw [Toml.Section.text, List.map_map]
    rfl
  have hProbe : Toml.Section.text ⟨["probe"], probeRows c⟩ = encodeProbe c := by
    simp [Toml.Section.text, probeRows, encodeProbe, Row.text, String.join_cons]
  simp only [sections, List.map_cons, List.map_nil, text_toolSection, hLists, hRoles, hProbe]
  rfl

theorem sections_readable {c : Config} (h : c.timeoutSecs ≤ largestInteger) :
    ∀ t ∈ sections c, t.Readable := by
  have hPaths : ∀ paths, ∀ r ∈ pathRows paths, Line.WrittenAs r.written r.value := by
    intro paths r hr
    obtain ⟨role, _, hRow⟩ := List.mem_filterMap.mp hr
    obtain ⟨path, _, rfl⟩ := Option.map_eq_some_iff.mp hRow
    exact Line.writeString_writtenAs _
  have hTool : ∀ name paths, (toolSection name paths).Readable :=
    fun name paths => ⟨List.cons_ne_nil _ _, (by decide : 2 < nestingLimit), hPaths paths⟩
  have hLists : Toml.Section.Readable ⟨["engines"], listsRows c⟩ := by
    refine ⟨List.cons_ne_nil _ _, (by decide : 1 < nestingLimit), ?_⟩
    simp only [listsRows, List.forall_mem_cons]
    exact ⟨Line.writeArray_writtenAs _, Line.writeArray_writtenAs _, fun _ h => nomatch h⟩
  have hRoles : Toml.Section.Readable ⟨["engines", "roles"], c.roles.entries.map roleRow⟩ := by
    refine ⟨List.cons_ne_nil _ _, (by decide : 2 < nestingLimit), fun r hr => ?_⟩
    obtain ⟨entry, _, rfl⟩ := List.mem_map.mp hr
    exact Line.writeString_writtenAs _
  have hProbe : Toml.Section.Readable ⟨["probe"], probeRows c⟩ := by
    refine ⟨List.cons_ne_nil _ _, (by decide : 1 < nestingLimit), ?_⟩
    simp only [probeRows, List.forall_mem_cons]
    exact ⟨Line.toString_writtenAs h, fun _ h => nomatch h⟩
  simp only [sections, List.forall_mem_cons]
  exact ⟨hLists, hRoles, hTool _ _, hTool _ _, hTool _ _, hTool _ _, hTool _ _, hProbe,
    fun _ h => nomatch h⟩

/-! ## The document -/

def pathTable (paths : PerRole (Option FilePath)) : Value :=
  .table .explicit ((pathRows paths).map Row.entry)

def enginesTable (c : Config) : Value :=
  .table .explicit ((listsRows c).map Row.entry
    ++ [("roles", .table .explicit ((c.roles.entries.map roleRow).map Row.entry))])

def toolTables (tools : ToolPaths) : Entries :=
  [("ffmpeg", pathTable tools.ffmpeg), ("mencoder", pathTable tools.mencoder),
    ("vlc", pathTable tools.vlc), ("tsmuxer", pathTable tools.tsMuxeR),
    ("dcraw", pathTable tools.dcraw)]

def document (c : Config) : Entries :=
  [("engines", enginesTable c), ("executables", .table .implied (toolTables c.tools)),
    ("probe", .table .explicit ((probeRows c).map Row.entry))]

theorem distinctKeys_pathRows (paths : PerRole (Option FilePath)) :
    DistinctKeys ((pathRows paths).map Row.entry) := by
  have hRoles : Role.all.Pairwise fun r s => r.label ≠ s.label := by decide
  rw [DistinctKeys, List.pairwise_map, pathRows, List.pairwise_filterMap]
  refine hRoles.imp fun {r s} hLabels row hRow other hOther => ?_
  obtain ⟨path, _, rfl⟩ := Option.map_eq_some_iff.mp hRow
  obtain ⟨path', _, rfl⟩ := Option.map_eq_some_iff.mp hOther
  exact hLabels

theorem distinctKeys_roleRows (roles : RoleTable) :
    DistinctKeys ((roles.entries.map roleRow).map Row.entry) := by
  rw [DistinctKeys, List.map_map, List.pairwise_map]
  refine roles.ordered.imp fun {a b} hLess hEq => ?_
  have hKeys : a.1 = b.1 := hEq
  rw [hKeys] at hLess
  exact String.lt_irrefl _ hLess

theorem build_sections (c : Config) :
    ∃ opened, Line.build (documentLines (sections c)) .empty = some ⟨document c, opened⟩ := by
  have hLists : DistinctKeys ((listsRows c).map Row.entry) := by
    simp [DistinctKeys, listsRows, Row.entry]
  have hProbe : DistinctKeys ((probeRows c).map Row.entry) := by
    simp [DistinctKeys, probeRows, Row.entry]
  have hPaths := distinctKeys_pathRows
  refine ⟨["probe"], ?_⟩
  refine build_documentLines_cons (build_top hLists (Entries.isNew_nil _)) ?_
  refine build_documentLines_cons (build_inside (distinctKeys_roleRows c.roles)
    (Entries.isNew_nil _) (by simp [Entries.IsNew, listsRows, Row.entry])) ?_
  refine build_documentLines_cons (build_new_inside (hPaths _) (by simp [Entries.IsNew])) ?_
  refine build_documentLines_cons
    (build_inside (hPaths _) (by simp [Entries.IsNew]) (by simp [Entries.IsNew])) ?_
  refine build_documentLines_cons
    (build_inside (hPaths _) (by simp [Entries.IsNew]) (by simp [Entries.IsNew])) ?_
  refine build_documentLines_cons
    (build_inside (hPaths _) (by simp [Entries.IsNew]) (by simp [Entries.IsNew])) ?_
  refine build_documentLines_cons
    (build_inside (hPaths _) (by simp [Entries.IsNew]) (by simp [Entries.IsNew])) ?_
  exact build_top hProbe (by simp [Entries.IsNew])

/-! ## Reading the document -/

theorem texts?_array (texts : List String) : texts? (.array (texts.map .string)) = some texts := by
  change (texts.map Value.string).mapM text? = some texts
  induction texts with
  | nil => rfl
  | cons text texts ih =>
    rw [List.map_cons, List.mapM_cons, ih]
    rfl

theorem ofLabel?_label (r : Role) : Role.ofLabel? r.label = some r := by
  cases r <;> decide

theorem roles?_table (roles : RoleTable) :
    roles? (.table .explicit ((roles.entries.map roleRow).map Row.entry)) = some roles := by
  have hEntries : ∀ entries : List (String × Role), ((entries.map roleRow).map Row.entry).mapM
      (fun entry => (role? entry.2).map fun role => (entry.1, role)) = some entries := by
    intro entries
    induction entries with
    | nil => rfl
    | cons entry entries ih =>
      have hRole : role? (.string entry.2.label) = some entry.2 := ofLabel?_label entry.2
      rw [List.map_cons, List.map_cons, List.mapM_cons, ih]
      change ((role? (.string entry.2.label)).map fun role => (entry.1, role)).bind _ = _
      rw [hRole]
      rfl
  change (((roles.entries.map roleRow).map Row.entry).mapM
    (fun entry => (role? entry.2).map fun role => (entry.1, role))).map .ofList = some roles
  rw [hEntries, Option.map_some, RoleTable.ofList_entries]

theorem paths?_pathTable (paths : PerRole (Option FilePath)) :
    paths? (pathTable paths) = some paths := by
  obtain ⟨bundled, installed, custom⟩ := paths
  cases bundled <;> cases installed <;> cases custom <;> rfl

theorem engineLists?_enginesTable (c : Config) :
    engineLists? (enginesTable c) = some ⟨c.priority, c.disabled, c.roles⟩ := by
  have hFields : fields ["priority", "disabled", "roles"] (enginesTable c)
      = some [some (.array (c.priority.map .string)), some (.array (c.disabled.map .string)),
          some (.table .explicit ((c.roles.entries.map roleRow).map Row.entry))] := rfl
  rw [engineLists?, hFields]
  simp only [Option.bind_some, field, texts?_array, roles?_table]
  rfl

theorem tools?_toolTables (tools : ToolPaths) :
    tools? (.table .implied (toolTables tools)) = some tools := by
  have hFields : fields ["ffmpeg", "mencoder", "vlc", "tsmuxer", "dcraw"]
      (.table .implied (toolTables tools))
      = some [some (pathTable tools.ffmpeg), some (pathTable tools.mencoder),
          some (pathTable tools.vlc), some (pathTable tools.tsMuxeR),
          some (pathTable tools.dcraw)] := rfl
  rw [tools?, hFields]
  simp only [Option.bind_some, field, paths?_pathTable]
  rfl

theorem timeout?_probeRows (c : Config) :
    timeout? (.table .explicit ((probeRows c).map Row.entry)) = some c.timeoutSecs := by
  have hFields : fields ["timeout_secs"] (.table .explicit ((probeRows c).map Row.entry))
      = some [some (.integer c.timeoutSecs)] := rfl
  rw [timeout?, hFields]
  simp [field, count?]

theorem ofEntries?_document (c : Config) : ofEntries? (document c) = some c := by
  have hEngines : Entries.get? (document c) "engines" = some (enginesTable c) := rfl
  have hTools : Entries.get? (document c) "executables"
      = some (.table .implied (toolTables c.tools)) := rfl
  have hProbe : Entries.get? (document c) "probe"
      = some (.table .explicit ((probeRows c).map Row.entry)) := rfl
  rw [ofEntries?, hEngines, hTools, hProbe]
  simp only [field, engineLists?_enginesTable, tools?_toolTables, timeout?_probeRows]
  rfl

/-- Reading what a configuration is written as gives it back. -/
theorem parse_encode {c : Config} (h : c.timeoutSecs ≤ largestInteger) : parse c.encode = .ok c := by
  obtain ⟨opened, hBuild⟩ := build_sections c
  have hText : c.encode.toList = Line.text (documentLines (sections c)) := by
    rw [text_documentLines, text_sections, encode]
  have hMark : NotHead '\ufeff' (Line.text (documentLines (sections c))) := .cons (by decide) _
  have hRead := Line.read_of_text hText hMark (documentLines_reads (sections_readable h)) hBuild
  rw [parse, hRead]
  simp only [ofEntries?_document]

end TranscodingEngines.Config
