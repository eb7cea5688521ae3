/-!
# Blank characters

A character is blank when it has the Unicode property White_Space. Trimming removes the blank
characters at both ends of a text and leaves those inside alone; a text is blank when nothing is
left of it.
-/

set_option autoImplicit false

namespace TranscodingEngines.Text

/-- The characters with the Unicode property White_Space. -/
def blankCharacters : List Char :=
  ['\t', '\n', '\x0b', '\x0c', '\r', ' ', '\u0085', '\u00a0', '\u1680', '\u2000', '\u2001',
    '\u2002', '\u2003', '\u2004', '\u2005', '\u2006', '\u2007', '\u2008', '\u2009', '\u200a',
    '\u2028', '\u2029', '\u202f', '\u205f', '\u3000']

def isBlankChar (c : Char) : Bool := blankCharacters.contains c

def dropTrailing {α : Type} (p : α → Bool) (cs : List α) : List α :=
  (cs.reverse.dropWhile p).reverse

def trimChars (cs : List Char) : List Char :=
  dropTrailing isBlankChar (cs.dropWhile isBlankChar)

/-- The text without blank characters at either end. -/
def trim (s : String) : String := String.ofList (trimChars s.toList)

def trimEnd (s : String) : String := String.ofList (dropTrailing isBlankChar s.toList)

def isBlank (s : String) : Bool := s.toList.all isBlankChar

end TranscodingEngines.Text
