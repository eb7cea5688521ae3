import TranscodingEngines.Proofs.Toml.Lines

/-!
# Building tables

A document that is written table by table grows at its end: every header opens a table behind what
is there, and the assignments below it fill that table and leave everything else alone. So the draft
is always a fixed surrounding of the table that was opened last.
-/

set_option autoImplicit false

namespace TranscodingEngines.Toml

/-! ## Entries -/

namespace Entries

def IsNew (key : String) (entries : Entries) : Prop := ∀ entry ∈ entries, entry.1 ≠ key

theorem isNew_nil (key : String) : IsNew key [] := fun _ h => nomatch h

theorem get?_of_isNew {key : String} {entries : Entries} (h : IsNew key entries) :
    entries.get? key = none := by
  rw [get?, Option.map_eq_none_iff, List.find?_eq_none]
  intro entry hEntry
  simpa using h entry hEntry

theorem get?_last {key : String} {entries : Entries} (h : IsNew key entries) (v : Value) :
    Entries.get? (entries ++ [(key, v)]) key = some v := by
  have hNone := get?_of_isNew h
  rw [get?, Option.map_eq_none_iff] at hNone
  rw [get?, List.find?_append, hNone]
  simp

theorem put_of_isNew {key : String} {entries : Entries} (h : IsNew key entries) (v : Value) :
    entries.put key v = entries ++ [(key, v)] := by
  induction entries with
  | nil => rfl
  | cons entry rest ih =>
    have hEntry := h entry List.mem_cons_self
    have hRest : IsNew key rest := fun e he => h e (List.mem_cons_of_mem _ he)
    rw [put, if_neg (by simpa using hEntry), ih hRest]
    rfl

theorem put_last {key : String} {entries : Entries} (h : IsNew key entries) (v w : Value) :
    Entries.put (entries ++ [(key, v)]) key w = entries ++ [(key, w)] := by
  induction entries with
  | nil => simp [put]
  | cons entry rest ih =>
    have hEntry := h entry List.mem_cons_self
    have hRest : IsNew key rest := fun e he => h e (List.mem_cons_of_mem _ he)
    rw [List.cons_append, put, if_neg (by simpa using hEntry), ih hRest]
    rfl

end Entries

open Entries (IsNew)

/-! ## Where a table stands -/

/-- The way leads, through a table of the first origin, to a table of the second one that has this
surrounding. -/
def LeadsTo (start : Origin) (path : List String) (surrounding : Entries → Entries)
    (goal : Origin) : Prop :=
  ∀ f inner, changeAt .header f start path (surrounding inner)
    = (f goal inner).map surrounding

theorem leadsTo_nil (origin : Origin) : LeadsTo origin [] (fun inner => inner) origin := by
  intro f inner
  rw [changeAt]
  exact Option.map_id'.symm

/-- The table that was put last into another one. -/
theorem LeadsTo.cons {origin goal : Origin} {path : List String} {surrounding : Entries → Entries}
    (h : LeadsTo origin path surrounding goal) {key : String} {entries : Entries}
    (hNew : IsNew key entries) (start : Origin) :
    LeadsTo start (key :: path)
      (fun inner => entries ++ [(key, .table origin (surrounding inner))]) goal := by
  intro f inner
  have hWay : ¬ (Way.header = .dotted ∧ origin = .explicit) := fun h => nomatch h.1
  rw [changeAt, Entries.get?_last hNew]
  simp only [if_neg hWay, h f inner, Option.map_map, Function.comp_def]
  congr 1
  funext changed
  exact Entries.put_last hNew _ _

theorem openTable_of_isNew {key : String} {entries : Entries} (h : IsNew key entries) :
    openTable key entries = some (entries ++ [(key, .table .explicit [])]) := by
  rw [openTable, Entries.get?_of_isNew h]
  simp only [Entries.put_of_isNew h]

theorem header_of_leadsTo {path : List String} {surrounding : Entries → Entries} {goal : Origin}
    (h : LeadsTo .explicit path surrounding goal) {key : String} {inner : Entries}
    (hNew : IsNew key inner) (hSplit : splitLast (path ++ [key]) = some (path, key))
    (opened : List String) :
    Draft.header ⟨surrounding inner, opened⟩ (path ++ [key])
      = some ⟨surrounding (inner ++ [(key, .table .explicit [])]), path ++ [key]⟩ := by
  rw [Draft.header, hSplit]
  change (changeAt .header (fun _ => openTable key) .explicit path (surrounding inner)).bind _ = _
  rw [h, openTable_of_isNew hNew]
  rfl

/-- A header opens a table in one that is not there yet. -/
theorem header_of_isNew {key inside : String} {entries : Entries} (hNew : IsNew key entries)
    (opened : List String) :
    Draft.header ⟨entries, opened⟩ [key, inside]
      = some ⟨entries ++ [(key, .table .implied [(inside, .table .explicit [])])], [key, inside]⟩ := by
  have hInside : openTable inside [] = some [(inside, .table .explicit [])] := rfl
  change (changeAt .header (fun _ => openTable inside) .explicit [key] entries).bind _ = _
  rw [changeAt, Entries.get?_of_isNew hNew]
  simp only [changeAt, hInside, Option.map_some, Entries.put_of_isNew hNew]
  rfl

/-! ## Filling a table -/

def DistinctKeys (entries : Entries) : Prop := entries.Pairwise fun entry other => entry.1 ≠ other.1

theorem assignment_of_leadsTo {path : List String} {surrounding : Entries → Entries}
    {goal : Origin} (h : LeadsTo .explicit path surrounding goal) {key : String} {inner : Entries}
    (hNew : IsNew key inner) (v : Value) :
    Draft.assignment ⟨surrounding inner, path⟩ [key] v
      = some ⟨surrounding (inner ++ [(key, v)]), path⟩ := by
  change (changeAt .header (fun _ => assign [] key v) .explicit path (surrounding inner)).bind _ = _
  rw [h, assign, addKey, Entries.get?_of_isNew hNew]
  rfl

/-- What assignments below a header make of the table. -/
theorem foldlM_assignments {path : List String} {surrounding : Entries → Entries} {goal : Origin}
    (h : LeadsTo .explicit path surrounding goal) {inner entries : Entries}
    (hDistinct : DistinctKeys (inner ++ entries)) :
    entries.foldlM (fun d entry => Draft.assignment d [entry.1] entry.2) ⟨surrounding inner, path⟩
      = some ⟨surrounding (inner ++ entries), path⟩ := by
  induction entries generalizing inner with
  | nil =>
    rw [List.append_nil]
    rfl
  | cons entry entries ih =>
    have hNew : IsNew entry.1 inner := by
      intro other hOther
      exact (List.pairwise_append.mp hDistinct).2.2 other hOther entry List.mem_cons_self
    have hNext : DistinctKeys ((inner ++ [entry]) ++ entries) := by
      rw [List.append_assoc]
      exact hDistinct
    rw [List.foldlM_cons, assignment_of_leadsTo h hNew]
    change entries.foldlM _ (⟨surrounding (inner ++ [entry]), path⟩ : Draft) = _
    rw [ih hNext, List.append_assoc]
    rfl

/-! ## Tables as they are written -/

/-- An assignment with the text of its value. -/
structure Row where
  key : String
  written : String
  value : Value

namespace Row

def entry (r : Row) : String × Value := (r.key, r.value)

def text (r : Row) : String := writeAssignment r.key r.written

def line (r : Row) : Line := .assignment r.key r.written r.value

end Row

/-- A table as it is written: its header and the assignments below it. -/
structure Section where
  path : List String
  rows : List Row

namespace Section

variable (t : Section)

def text : String := writeHeader t.path ++ String.join (t.rows.map Row.text)

def lines : List Line := .header t.path :: t.rows.map Row.line

def entries : Entries := t.rows.map Row.entry

/-- Every line of the table is read as what it says. -/
structure Readable : Prop where
  some : t.path ≠ []
  short : t.path.length < nestingLimit
  rows : ∀ r ∈ t.rows, Line.WrittenAs r.written r.value

theorem text_lines : Line.text t.lines = t.text.toList := by
  have hRows : ∀ rows : List Row,
      Line.text (rows.map Row.line) = (String.join (rows.map Row.text)).toList := by
    intro rows
    induction rows with
    | nil => rfl
    | cons r rows ih =>
      rw [List.map_cons, List.map_cons, String.join_cons, String.toList_append, ← ih, Row.text,
        Line.writeAssignment_toList r.key r.written r.value]
      exact List.flatMap_cons
  rw [text, String.toList_append, Line.writeHeader_toList, ← hRows]
  exact List.flatMap_cons

variable {t}

theorem Readable.reads (h : t.Readable) : ∀ l ∈ t.lines, l.Reads := by
  intro l hl
  rcases List.mem_cons.mp hl with rfl | hl
  · exact Line.header_reads h.some h.short
  · obtain ⟨r, hr, rfl⟩ := List.mem_map.mp hl
    exact Line.assignment_reads (h.rows r hr)

/-- A table whose header opens it ends up with what is assigned below the header. -/
theorem build_lines {d : Draft} {surrounding : Entries → Entries} {goal : Origin}
    (hHeader : d.header t.path = some ⟨surrounding [], t.path⟩)
    (hLeads : LeadsTo .explicit t.path surrounding goal) (hDistinct : DistinctKeys t.entries) :
    Line.build t.lines d = some ⟨surrounding t.entries, t.path⟩ := by
  have hFill : (t.rows.map Row.entry).foldlM (fun d entry => Draft.assignment d [entry.1] entry.2)
      ⟨surrounding [], t.path⟩ = some ⟨surrounding t.entries, t.path⟩ :=
    foldlM_assignments hLeads hDistinct
  rw [List.foldlM_map] at hFill
  rw [Line.build, lines, List.foldlM_cons]
  change (d.header t.path).bind ((t.rows.map Row.line).foldlM fun d l => d.add l.said) = _
  rw [hHeader, Option.bind_some, List.foldlM_map]
  exact hFill

end Section

section Build

variable {key inside : String} {rows : List Row} {entries inner : Entries} {opened : List String}
  (hDistinct : DistinctKeys (rows.map Row.entry))

include hDistinct

/-- A table behind everything that is there. -/
theorem build_top (hNew : IsNew key entries) :
    Line.build (Section.lines ⟨[key], rows⟩) ⟨entries, opened⟩
      = some ⟨entries ++ [(key, .table .explicit (rows.map Row.entry))], [key]⟩ :=
  Section.build_lines (t := ⟨[key], rows⟩)
    (header_of_leadsTo (leadsTo_nil .explicit) hNew rfl opened)
    ((leadsTo_nil .explicit).cons hNew .explicit) hDistinct

/-- A table behind those in the table that is the last one. -/
theorem build_inside {origin : Origin} (hKey : IsNew key entries) (hInside : IsNew inside inner) :
    Line.build (Section.lines ⟨[key, inside], rows⟩)
        ⟨entries ++ [(key, .table origin inner)], opened⟩
      = some ⟨entries ++ [(key, .table origin
          (inner ++ [(inside, .table .explicit (rows.map Row.entry))]))], [key, inside]⟩ :=
  Section.build_lines (t := ⟨[key, inside], rows⟩)
    (header_of_leadsTo ((leadsTo_nil origin).cons hKey .explicit) hInside rfl opened)
    (((leadsTo_nil .explicit).cons hInside origin).cons hKey .explicit) hDistinct

theorem build_new_inside (hNew : IsNew key entries) :
    Line.build (Section.lines ⟨[key, inside], rows⟩) ⟨entries, opened⟩
      = some ⟨entries ++ [(key, .table .implied
          [(inside, .table .explicit (rows.map Row.entry))])], [key, inside]⟩ :=
  Section.build_lines (t := ⟨[key, inside], rows⟩) (header_of_isNew hNew opened)
    (((leadsTo_nil .explicit).cons (Entries.isNew_nil inside) .implied).cons hNew .explicit) hDistinct

end Build

/-! ## Documents of tables -/

/-- The lines of tables that are set apart by empty lines. -/
def documentLines : List Section → List Line
  | [] => []
  | [t] => t.lines
  | t :: rest => t.lines ++ .blank :: documentLines rest

theorem text_documentLines (sections : List Section) :
    Line.text (documentLines sections)
      = ("\n".intercalate (sections.map Section.text)).toList := by
  match sections with
  | [] => rfl
  | [t] =>
    rw [documentLines, List.map_singleton, String.intercalate_singleton]
    exact t.text_lines
  | t :: u :: rest =>
    rw [List.map_cons, List.map_cons, String.intercalate_cons_cons, String.toList_append,
      String.toList_append, ← t.text_lines, ← List.map_cons, ← text_documentLines (u :: rest),
      documentLines, Line.text_append, List.append_assoc]
    · rfl
    · exact fun h => nomatch h

theorem documentLines_reads {sections : List Section} (h : ∀ t ∈ sections, t.Readable) :
    ∀ l ∈ documentLines sections, l.Reads := by
  match sections with
  | [] => exact fun l hl => nomatch hl
  | [t] => exact (h t List.mem_cons_self).reads
  | t :: u :: rest =>
    have hRest := documentLines_reads fun s hs => h s (List.mem_cons_of_mem t hs)
    intro l hl
    rw [documentLines, List.mem_append, List.mem_cons] at hl
    · rcases hl with hl | rfl | hl
      · exact (h t List.mem_cons_self).reads l hl
      · exact Line.blank_reads
      · exact hRest l hl
    · exact fun h => nomatch h

theorem build_documentLines_cons {t : Section} {rest : List Section} {d next made : Draft}
    (hFirst : Line.build t.lines d = some next)
    (hRest : Line.build (documentLines rest) next = some made) :
    Line.build (documentLines (t :: rest)) d = some made := by
  cases rest with
  | nil =>
    rw [← Option.some.inj hRest]
    exact hFirst
  | cons u rest =>
    rw [documentLines, Line.build_append, hFirst]
    · exact hRest
    · exact fun h => nomatch h

end TranscodingEngines.Toml
