import TranscodingEngines.Text.Utf8

/-!
# Texts of bytes

Scripts and the programs they use work on bytes and know nothing of characters beyond ASCII. A raw
text holds one character below 256 for each byte. File names, arguments and environment come in as
texts and are made raw; what is handed to the machine is read back as UTF-8.
-/

set_option autoImplicit false

namespace TranscodingEngines.Script

def rawChars (bytes : List UInt8) : List Char := bytes.map fun b => Char.ofNat b.toNat

def rawBytes (chars : List Char) : List UInt8 := chars.map fun c => UInt8.ofNat c.toNat

def toRaw (s : String) : String := String.ofList (rawChars (Text.bytes s))

def ofRaw (s : String) : String := String.ofList (Text.decodeLossy (rawBytes s.toList))

def bytesOf (s : String) : List UInt8 := rawBytes s.toList

def isSpace (c : Char) : Bool := c == ' ' || c == '\t' || c == '\n'

/-- White space of ASCII, with the vertical tab and the form feed. -/
def isWhite (c : Char) : Bool := isSpace c || c == '\r' || c == '\x0b' || c == '\x0c'

def isNameChar (c : Char) : Bool := c.isAlphanum || c == '_'

def isNameStart (c : Char) : Bool := c.isAlpha || c == '_'

def isName (chars : List Char) : Bool :=
  match chars with
  | [] => false
  | c :: rest => isNameStart c && rest.all isNameChar

def splitWhere {α : Type} (separates : α → Bool) (members : List α) : List (List α) :=
  members.foldr (fun a parts =>
    if separates a then [] :: parts
    else
      match parts with
      | [] => [[a]]
      | part :: rest => (a :: part) :: rest) [[]]

end TranscodingEngines.Script
