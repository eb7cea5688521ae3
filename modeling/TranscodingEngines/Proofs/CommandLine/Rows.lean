import TranscodingEngines.Catalog
import TranscodingEngines.CommandLine.Display
import TranscodingEngines.Proofs.CommandLine.Json
import TranscodingEngines.Proofs.Text.Trim

/-!
# Reading what is printed about engines

The line of an engine starts with a number, a dot and a blank. What follows is read by columns: the
identifier reaches up to the first blank, then there are a name of twenty-four characters, a status
of twelve and the version, each behind a blank. Other lines do not start with a number. An object of
a listing in JSON tells the same by its members. An engine with a short name and without a blank in
its identifier is read as what it is.
-/

set_option autoImplicit false

namespace TranscodingEngines

namespace CommandLine

/-- What is told about an engine. Its purpose is no column, but that of the identifier. -/
structure Shown where
  id : String
  name : String
  status : String
  version : String
  purpose : Option Purpose
  deriving DecidableEq, Repr

structure Row where
  place : Nat
  text : String
  deriving DecidableEq, Repr

/-- The purpose of the built-in engine with an identifier. -/
def purposeOf (id : String) : Option Purpose :=
  (Catalog.portable.find? (·.id == id)).map (·.purpose)

namespace Row

/-- A line that starts with a number, perhaps behind blanks, and a dot. -/
def read? (line : String) : Option Row :=
  let cs := line.toList.dropWhile (· == ' ')
  let digits := cs.takeWhile Char.isDigit
  match cs.dropWhile Char.isDigit with
  | '.' :: ' ' :: text =>
    if digits.isEmpty then none
    else some ⟨Nat.ofDigitChars 10 digits 0, String.ofList text⟩
  | _ => none

def column (cs : List Char) (first width : Nat) : String :=
  Text.trim (String.ofList ((cs.drop first).take width))

end Row

/-- What the line of an engine tells behind its number. -/
def Shown.ofText (text : String) : Shown :=
  let id := String.ofList (text.toList.takeWhile (· != ' '))
  let rest := (text.toList.dropWhile (· != ' ')).drop 1
  ⟨id, Row.column rest 0 24, Row.column rest 25 12, String.ofList (rest.drop 38), purposeOf id⟩

def Row.shown (row : Row) : Shown := .ofText row.text

def rows (lines : List String) : List Row := lines.filterMap Row.read?

def numbered (texts : List String) : List Row :=
  texts.zipIdx.map fun entry => ⟨entry.2 + 1, entry.1⟩

def renumbered (rows : List Row) : List Row := numbered (rows.map (·.text))

/-- What an object of a listing in JSON tells, if it has the members for it. -/
def Shown.ofObject? (o : Json.Object) : Option Shown :=
  match o.lookup "id", o.lookup "name", o.lookup "enabled", o.lookup "available",
    o.lookup "version", o.lookup "purpose" with
  | some (.text id), some (.text name), some (.bool enabled), some (.bool available), some version,
    some (.text purpose) =>
    let status := if available then if enabled then "active" else "disabled" else "unavailable"
    match version with
    | .text version => some ⟨id, name, status, version, Purpose.ofKey? purpose⟩
    | .null => some ⟨id, name, status, "-", Purpose.ofKey? purpose⟩
    | .bool _ => none
  | _, _, _, _, _, _ => none

def Shown.ofEngine (e : Engine) : Shown :=
  ⟨e.id.text, e.name, statusLabel e, e.version.getD "-", some e.purpose⟩

/-! ## Numbered lines -/

/-- The line of an engine behind its number. -/
def rowText (e : Engine) : String :=
  e.id.text ++ " " ++ padRight 24 e.name ++ " " ++ padRight 12 (statusLabel e) ++ " "
    ++ e.version.getD "-"

theorem read?_numbered (place : Nat) (text : String) :
    Row.read? (padLeft 3 (toString place) ++ ". " ++ text) = some ⟨place, text⟩ := by
  have hDigits : ∀ c ∈ Nat.toDigits 10 place, c.isDigit = true := fun c hc =>
    Nat.isDigit_of_mem_toDigits (by decide) (by decide) hc
  obtain ⟨c, more, hFirst⟩ :=
    List.exists_cons_of_ne_nil (Nat.toDigits_ne_nil : Nat.toDigits 10 place ≠ [])
  have hc : (c == ' ') = false := by
    have hDigit := hDigits c (hFirst ▸ List.mem_cons_self)
    rw [beq_eq_false_iff_ne]
    rintro rfl
    exact absurd hDigit (by decide)
  have hLine : (padLeft 3 (toString place) ++ ". " ++ text).toList
      = List.replicate (3 - (toString place).length) ' ' ++
        (Nat.toDigits 10 place ++ '.' :: ' ' :: text.toList) := by
    rw [padLeft, String.toList_append, String.toList_append, String.toList_append,
      String.toList_ofList, Nat.toString_eq_repr, Nat.toList_repr, List.append_assoc,
      List.append_assoc]
    rfl
  have hBlanks : (padLeft 3 (toString place) ++ ". " ++ text).toList.dropWhile (· == ' ')
      = Nat.toDigits 10 place ++ '.' :: ' ' :: text.toList := by
    rw [hLine, List.dropWhile_append_of_pos (by simp), hFirst, List.cons_append,
      List.dropWhile_cons_of_neg (by simp [hc])]
  have hTaken : (Nat.toDigits 10 place ++ '.' :: ' ' :: text.toList).takeWhile Char.isDigit
      = Nat.toDigits 10 place := by
    rw [List.takeWhile_append_of_pos hDigits, List.takeWhile_cons_of_neg (by decide),
      List.append_nil]
  have hLeft : (Nat.toDigits 10 place ++ '.' :: ' ' :: text.toList).dropWhile Char.isDigit
      = '.' :: ' ' :: text.toList := by
    rw [List.dropWhile_append_of_pos hDigits, List.dropWhile_cons_of_neg (by decide)]
  rw [Row.read?, hBlanks]
  simp only [hTaken, hLeft]
  rw [hFirst, List.isEmpty_cons, if_neg Bool.false_ne_true, ← hFirst,
    Nat.ofDigitChars_toDigits (by decide) (by decide), String.ofList_toList]

theorem read?_engineLine (place : Nat) (e : Engine) :
    Row.read? (engineLine place e) = some ⟨place, rowText e⟩ := by
  rw [← read?_numbered, engineLine, rowText]
  simp only [String.append_assoc]

theorem read?_engineLines (engines : List Engine) :
    (engineLines engines).map Row.read? = (numbered (engines.map rowText)).map some := by
  simp only [engineLines, numbered, List.zipIdx_map, List.map_map, Function.comp_def,
    read?_engineLine, Prod.map_fst, Prod.map_snd, id_eq]

theorem rows_of_map {lines : List String} {found : List Row}
    (h : lines.map Row.read? = found.map some) : rows lines = found := by
  have hFound := congrArg (List.filterMap id) h
  rw [List.filterMap_map, List.filterMap_map] at hFound
  simpa [rows] using hFound

theorem rows_engineLines (engines : List Engine) :
    rows (engineLines engines) = numbered (engines.map rowText) :=
  rows_of_map (read?_engineLines engines)

/-- The lines are rows, unless the only one says that there is none. -/
structure IsTable (lines : List String) (nothing : String) : Prop where
  of_rows : rows lines ≠ [] → ∀ line ∈ lines, (Row.read? line).isSome = true
  of_none : rows lines = [] → lines = [nothing]

def tableLines (nothing : String) (engines : List Engine) : List String :=
  if engines.isEmpty then [nothing] else engineLines engines

section TableLines

variable {nothing : String} (hNothing : Row.read? nothing = none) (engines : List Engine)

include hNothing

theorem rows_tableLines : rows (tableLines nothing engines) = numbered (engines.map rowText) := by
  rw [tableLines]
  cases engines with
  | nil => rw [List.isEmpty_nil, if_pos rfl, rows, List.filterMap_cons_none hNothing]; rfl
  | cons e rest => exact rows_engineLines (e :: rest)

theorem isTable_tableLines : IsTable (tableLines nothing engines) nothing := by
  have hRows := rows_tableLines hNothing engines
  cases engines with
  | nil => exact ⟨fun hSome => absurd hRows hSome, fun _ => rfl⟩
  | cons e rest =>
    constructor
    · intro _ line hLine
      have hRead : Row.read? line ∈ (engineLines (e :: rest)).map Row.read? :=
        List.mem_map_of_mem hLine
      rw [read?_engineLines] at hRead
      obtain ⟨row, _, hRow⟩ := List.mem_map.mp hRead
      rw [← hRow, Option.isSome_some]
    · intro hNone
      rw [hRows, numbered, List.map_eq_nil_iff, List.zipIdx_eq_nil_iff] at hNone
      cases hNone

end TableLines

theorem read?_resourceLine (location : String) (purpose : Option Purpose) :
    Row.read? (resourceLine location purpose) = none := by
  rw [resourceLine, Row.read?, String.append_assoc, String.append_assoc, String.append_assoc,
    String.toList_append]
  rfl

/-! ## Columns -/

/-- The engine is one whose line can be read by columns. -/
structure IsTabular (e : Engine) : Prop where
  id_word : ∀ c ∈ e.id.text.toList, (c != ' ') = true
  name_fits : e.name.toList.length ≤ 24
  name_trim : Text.trim e.name = e.name
  purpose_eq : purposeOf e.id.text = some e.purpose

theorem length_padRight {width : Nat} {s : String} (h : s.toList.length ≤ width) :
    (padRight width s).toList.length = width := by
  rw [padRight, String.toList_append, String.toList_ofList, List.length_append,
    List.length_replicate, ← String.length_toList]
  exact Nat.add_sub_of_le h

theorem trim_padRight (width : Nat) (s : String) : Text.trim (padRight width s) = Text.trim s := by
  have hBlank : Text.isBlank (String.ofList (List.replicate (width - s.length) ' ')) = true := by
    rw [Text.isBlank, String.toList_ofList, List.all_eq_true]
    intro c hc
    rw [(List.mem_replicate.mp hc).2]
    decide
  have hTrim := Text.trim_append_append s (show Text.isBlank "" = true by decide) hBlank
  rw [String.empty_append] at hTrim
  exact hTrim

/-- A column is read whatever stands in front of it and behind it. -/
theorem column_padRight {first width : Nat} {s : String} {before : List Char}
    (hBefore : before.length = first) (hFits : s.toList.length ≤ width)
    (hTrim : Text.trim s = s) (after : List Char) :
    Row.column (before ++ (padRight width s).toList ++ after) first width = s := by
  rw [Row.column, List.append_assoc, List.drop_left' hBefore, List.take_left' (length_padRight hFits),
    String.ofList_toList, trim_padRight, hTrim]

theorem statusLabel_fits (e : Engine) :
    (statusLabel e).toList.length ≤ 12 ∧ Text.trim (statusLabel e) = statusLabel e := by
  rw [statusLabel]
  cases e.isAvailable <;> cases e.enabled <;> decide +kernel

theorem IsTabular.ofText_eq {e : Engine} (h : IsTabular e) :
    Shown.ofText (rowText e) = Shown.ofEngine e := by
  obtain ⟨hStatus, hTrim⟩ := statusLabel_fits e
  let name := (padRight 24 e.name).toList
  let status := (padRight 12 (statusLabel e)).toList
  let version := (e.version.getD "-").toList
  have hName : name.length = 24 := length_padRight h.name_fits
  have hLength : status.length = 12 := length_padRight hStatus
  have hText : (rowText e).toList
      = e.id.text.toList ++ ' ' :: (name ++ ' ' :: (status ++ ' ' :: version)) := by
    simp only [rowText, String.toList_append, List.append_assoc]
    rfl
  have hId : (rowText e).toList.takeWhile (· != ' ') = e.id.text.toList := by
    rw [hText, List.takeWhile_append_of_pos h.id_word, List.takeWhile_cons_of_neg (by decide),
      List.append_nil]
  have hRest : ((rowText e).toList.dropWhile (· != ' ')).drop 1
      = name ++ ' ' :: (status ++ ' ' :: version) := by
    rw [hText, List.dropWhile_append_of_pos h.id_word, List.dropWhile_cons_of_neg (by decide)]
    rfl
  have hFirst : Row.column (name ++ ' ' :: (status ++ ' ' :: version)) 0 24 = e.name :=
    column_padRight (List.length_nil : ([] : List Char).length = 0) h.name_fits h.name_trim _
  have hSecond : Row.column (name ++ ' ' :: (status ++ ' ' :: version)) 25 12 = statusLabel e := by
    have hBefore : (name ++ [' ']).length = 25 := by simp [hName]
    have hColumn := column_padRight hBefore hStatus hTrim (' ' :: version)
    rw [List.append_assoc, List.append_assoc] at hColumn
    exact hColumn
  have hThird : (name ++ ' ' :: (status ++ ' ' :: version)).drop 38 = version := by
    have hSplit : name ++ ' ' :: (status ++ ' ' :: version)
        = (name ++ ' ' :: status ++ [' ']) ++ version := by simp
    rw [hSplit, List.drop_left' (by simp [hName, hLength])]
  simp only [Shown.ofText, hId, hRest, hFirst, hSecond, hThird, String.ofList_toList, h.purpose_eq]
  rw [Shown.ofEngine, String.ofList_toList]

/-! ## Lists of rows -/

@[simp]
theorem map_text_numbered (texts : List String) : (numbered texts).map (·.text) = texts := by
  rw [numbered, List.map_map]
  exact List.zipIdx_map_fst 0 texts

@[simp]
theorem renumbered_numbered (texts : List String) : renumbered (numbered texts) = numbered texts := by
  rw [renumbered, map_text_numbered]

theorem map_shown_renumbered (found : List Row) :
    (renumbered found).map (·.shown) = found.map (·.shown) := by
  have hTexts : (renumbered found).map (·.shown)
      = ((renumbered found).map (·.text)).map Shown.ofText := List.map_map.symm
  rw [hTexts, renumbered, map_text_numbered, List.map_map]
  rfl

theorem map_shown_filter (p : Shown → Bool) (found : List Row) :
    (found.filter (p ·.shown)).map (·.shown) = (found.map (·.shown)).filter p := by
  rw [List.filter_map]
  rfl

theorem renumbered_eq_nil_iff {found : List Row} : renumbered found = [] ↔ found = [] := by
  rw [renumbered, numbered, List.map_eq_nil_iff, List.zipIdx_eq_nil_iff, List.map_eq_nil_iff]

section Tables

variable {engines : List Engine} (h : ∀ e ∈ engines, IsTabular e)

include h

theorem map_shown_numbered :
    (numbered (engines.map rowText)).map (·.shown) = engines.map Shown.ofEngine := by
  have hTexts : (numbered (engines.map rowText)).map (·.shown)
      = ((numbered (engines.map rowText)).map (·.text)).map Shown.ofText := List.map_map.symm
  rw [hTexts, map_text_numbered, List.map_map]
  exact List.map_congr_left fun e he => (h e he).ofText_eq

/-- Rows that are chosen by what they tell are numbered as if there were no others. -/
theorem renumbered_filter (p : Shown → Bool) :
    renumbered ((numbered (engines.map rowText)).filter (p ·.shown))
      = numbered ((engines.filter (p <| Shown.ofEngine ·)).map rowText) := by
  have hTexts : ((numbered (engines.map rowText)).filter (p ·.shown)).map (·.text)
      = ((numbered (engines.map rowText)).map (·.text)).filter (p <| Shown.ofText ·) := by
    rw [List.filter_map]
    rfl
  rw [renumbered, hTexts, map_text_numbered, List.filter_map]
  congr 2
  exact List.filter_congr fun e he => congrArg p (h e he).ofText_eq

end Tables

/-! ## Objects -/

def engineObject (e : Engine) : Json.Object :=
  [("id", .text e.id.text), ("name", .text e.name), ("family", .text e.family.key),
    ("purpose", .text e.purpose.key), ("enabled", .bool e.enabled),
    ("available", .bool e.isAvailable), ("role", .text e.currentRole.label),
    ("executable", .ofOption (e.executable.map (·.text))), ("version", .ofOption e.version),
    ("reason", .ofOption ((e.availability e.currentRole).reason.map (·.message)))]

theorem jsonEngine_eq (e : Engine) : jsonEngine e = Json.objectText (engineObject e) := by
  have hFields : jsonFields e = (engineObject e).map fun m => (m.1, m.2.written) := by
    simp only [jsonFields, engineObject, List.map_cons, List.map_nil, Json.written_ofOption]
    rfl
  rw [jsonEngine, hFields, List.map_map]
  rfl

theorem read?_jsonListing (engines : List Engine) :
    Json.read? (jsonListing engines) = some (engines.map engineObject) := by
  have hMembers : ∀ o ∈ engines.map engineObject, o ≠ [] := by
    intro o ho
    obtain ⟨e, _, rfl⟩ := List.mem_map.mp ho
    exact List.cons_ne_nil _ _
  rw [← Json.read?_written _ hMembers, jsonListing, List.isEmpty_map, List.map_map]
  have hTexts : engines.map jsonEngine = engines.map (Json.objectText ∘ engineObject) :=
    List.map_congr_left fun e _ => jsonEngine_eq e
  rw [hTexts]
  split <;> rfl

theorem ofObject?_engineObject (e : Engine) :
    Shown.ofObject? (engineObject e) = some (Shown.ofEngine e) := by
  have hKey : Purpose.ofKey? e.purpose.key = some e.purpose := by
    cases e.purpose <;> decide
  rw [Shown.ofEngine, ← hKey, engineObject]
  cases e.version <;> rfl

end CommandLine

end TranscodingEngines
