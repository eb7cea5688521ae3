import TranscodingEngines.Toml.Value

/-!
# Building a document

A document grows line by line. A header opens a table, unless the table has been opened or is not
one that a header may open; a double header adds an element to an array of tables; an assignment
adds a key to the table opened last. Dotted keys go through tables that no header opened and end in
one that dotted keys made. None of these ever changes a value that is already there.
-/

set_option autoImplicit false

namespace TranscodingEngines.Toml

/-- How the way to a table was given: by a header or by a dotted key. -/
inductive Way where
  | header
  | dotted
  deriving DecidableEq, Repr

def Way.origin : Way → Origin
  | header => .implied
  | dotted => .dotted

def changeLast (f : Entries → Option Entries) : List Value → Option (List Value)
  | [] => none
  | [.table origin entries] => (f entries).map fun changed => [.table origin changed]
  | item :: rest => (changeLast f rest).map (item :: ·)

/-- Changes the entries of the table at the end of a way, which makes the tables that are missing.
The change is told the origin of that table. -/
def changeAt (way : Way) (f : Origin → Entries → Option Entries) :
    Origin → List String → Entries → Option Entries
  | origin, [], entries => f origin entries
  | _, key :: rest, entries =>
    match entries.get? key with
    | none =>
      (changeAt way f way.origin rest []).map fun made => entries.put key (.table way.origin made)
    | some (.table origin inner) =>
      if way = .dotted ∧ origin = .explicit then none
      else
        (changeAt way f origin rest inner).map fun changed =>
          entries.put key (.table origin changed)
    | some (.tables items) =>
      (changeLast (changeAt way f .explicit rest) items).map fun changed =>
        entries.put key (.tables changed)
    | some _ => none

def openTable (key : String) (entries : Entries) : Option Entries :=
  match entries.get? key with
  | none => some (entries.put key (.table .explicit []))
  | some (.table .implied inner) => some (entries.put key (.table .explicit inner))
  | some _ => none

def openElement (key : String) (entries : Entries) : Option Entries :=
  match entries.get? key with
  | none => some (entries.put key (.tables [.table .explicit []]))
  | some (.tables items) => some (entries.put key (.tables (items ++ [.table .explicit []])))
  | some _ => none

def addKey (key : String) (value : Value) (entries : Entries) : Option Entries :=
  match entries.get? key with
  | none => some (entries ++ [(key, value)])
  | some _ => none

def assign (path : List String) (key : String) (value : Value) (entries : Entries) :
    Option Entries :=
  match path with
  | [] => addKey key value entries
  | _ =>
    changeAt .dotted (fun origin inner =>
      if origin = .dotted then addKey key value inner else none) .explicit path entries

def splitLast : List String → Option (List String × String)
  | [] => none
  | [key] => some ([], key)
  | key :: rest => (splitLast rest).map fun parts => (key :: parts.1, parts.2)

/-- A document under construction: its entries and the table opened last. -/
structure Draft where
  entries : Entries
  opened : List String

namespace Draft

def empty : Draft := ⟨[], []⟩

def header (d : Draft) (path : List String) : Option Draft := do
  let (before, key) ← splitLast path
  let entries ← changeAt .header (fun _ => openTable key) .explicit before d.entries
  pure ⟨entries, path⟩

def elementHeader (d : Draft) (path : List String) : Option Draft := do
  let (before, key) ← splitLast path
  let entries ← changeAt .header (fun _ => openElement key) .explicit before d.entries
  pure ⟨entries, path⟩

def assignment (d : Draft) (path : List String) (value : Value) : Option Draft := do
  let (before, key) ← splitLast path
  let entries ←
    changeAt .header (fun _ => assign before key value) .explicit d.opened d.entries
  pure { d with entries := entries }

end Draft

def inlineTable? (assignments : List (List String × Value)) : Option Value :=
  (assignments.foldlM (fun (entries : Entries) (a : List String × Value) => do
    let (before, key) ← splitLast a.1
    assign before key a.2 entries) []).map .inlineTable

end TranscodingEngines.Toml
