/-!
# Configuration values

The values of a TOML document. Tables remember how they came about, because that decides whether
later lines may add to them. Floats and moments keep their text, which nothing here looks into.
-/

set_option autoImplicit false

namespace TranscodingEngines.Toml

inductive Origin where
  /-- It has a header, is an element of an array of tables, or stands in line. -/
  | explicit
  | implied
  | dotted
  deriving DecidableEq, Repr

inductive Value where
  | string (text : String)
  | integer (number : Int)
  | float (text : String)
  | boolean (truth : Bool)
  | moment (text : String)
  | array (items : List Value)
  | tables (items : List Value)
  /-- A table that stands in line, to which nothing can be added. -/
  | inlineTable (entries : List (String × Value))
  | table (origin : Origin) (entries : List (String × Value))
  deriving Repr

abbrev Entries := List (String × Value)

def Entries.get? (entries : Entries) (key : String) : Option Value :=
  (entries.find? (·.1 == key)).map (·.2)

def Entries.put (entries : Entries) (key : String) (value : Value) : Entries :=
  match entries with
  | [] => [(key, value)]
  | entry :: rest =>
    if entry.1 == key then (key, value) :: rest else entry :: Entries.put rest key value

end TranscodingEngines.Toml
