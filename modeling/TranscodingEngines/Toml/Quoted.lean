/-!
# Quoted text

Text is quoted in four ways. Between plain quotation marks a backslash starts an escape; between
apostrophes every character stands for itself. With three marks on either side the text may run over
several lines: a line break right after the opening marks is dropped, up to two more marks may stand
inside or at the end, and between quotation marks a backslash at the end of a line hides the break
and all blank characters after it.
-/

set_option autoImplicit false

namespace TranscodingEngines.Toml

/-- A character that may stand in a comment: no control character but the tab. -/
def isPlain (c : Char) : Bool := c == '\t' || (' ' ≤ c && c ≤ '~') || '\x80' ≤ c

def isBasicChar (c : Char) : Bool := isPlain c && c != '"' && c != '\\'

def isLiteralChar (c : Char) : Bool := isPlain c && c != '\''

def isSpace (c : Char) : Bool := c == ' ' || c == '\t'

def hexValue (c : Char) : Option Nat :=
  if '0' ≤ c ∧ c ≤ '9' then some (c.toNat - '0'.toNat)
  else if 'a' ≤ c ∧ c ≤ 'f' then some (c.toNat - 'a'.toNat + 10)
  else if 'A' ≤ c ∧ c ≤ 'F' then some (c.toNat - 'A'.toNat + 10)
  else none

def codedChar (digits : List Char) : Option Char := do
  let values ← digits.mapM hexValue
  let code := values.foldl (fun n d => n * 16 + d) 0
  if code.isValidChar then pure (Char.ofNat code) else none

def shortEscape : Char → Option Char
  | 'b' => some '\x08'
  | 't' => some '\t'
  | 'n' => some '\n'
  | 'f' => some '\x0c'
  | 'r' => some '\r'
  | '"' => some '"'
  | '\\' => some '\\'
  | _ => none

def before (c : Char) (read : Option (List Char × List Char)) : Option (List Char × List Char) :=
  read.map fun parts => (c :: parts.1, parts.2)

def basicBody : List Char → Option (List Char × List Char)
  | [] => none
  | '"' :: rest => some ([], rest)
  | '\\' :: 'u' :: a :: b :: c :: d :: rest =>
    (codedChar [a, b, c, d]).bind fun char => before char (basicBody rest)
  | '\\' :: 'U' :: a :: b :: c :: d :: e :: f :: g :: h :: rest =>
    (codedChar [a, b, c, d, e, f, g, h]).bind fun char => before char (basicBody rest)
  | '\\' :: c :: rest => (shortEscape c).bind fun char => before char (basicBody rest)
  | c :: rest => if isBasicChar c then before c (basicBody rest) else none

def literalBody : List Char → Option (List Char × List Char)
  | [] => none
  | '\'' :: rest => some ([], rest)
  | c :: rest => if isLiteralChar c then before c (literalBody rest) else none

def endsLine (cs : List Char) : Bool :=
  match cs.dropWhile isSpace with
  | '\n' :: _ => true
  | '\r' :: '\n' :: _ => true
  | _ => false

/-- Reads up to the closing quotation marks of text over several lines. While `skipping`, blank
characters and line breaks are dropped. -/
def basicLines : (skipping : Bool) → List Char → Option (List Char × List Char)
  | true, ' ' :: rest => basicLines true rest
  | true, '\t' :: rest => basicLines true rest
  | true, '\n' :: rest => basicLines true rest
  | true, '\r' :: '\n' :: rest => basicLines true rest
  | _, [] => none
  | _, '"' :: '"' :: '"' :: '"' :: '"' :: rest => some (['"', '"'], rest)
  | _, '"' :: '"' :: '"' :: '"' :: rest => some (['"'], rest)
  | _, '"' :: '"' :: '"' :: rest => some ([], rest)
  | _, '"' :: rest => before '"' (basicLines false rest)
  | _, '\r' :: '\n' :: rest => before '\n' (basicLines false rest)
  | _, '\n' :: rest => before '\n' (basicLines false rest)
  | _, '\\' :: 'u' :: a :: b :: c :: d :: rest =>
    (codedChar [a, b, c, d]).bind fun char => before char (basicLines false rest)
  | _, '\\' :: 'U' :: a :: b :: c :: d :: e :: f :: g :: h :: rest =>
    (codedChar [a, b, c, d, e, f, g, h]).bind fun char => before char (basicLines false rest)
  | _, '\\' :: c :: rest =>
    if endsLine (c :: rest) then basicLines true (c :: rest)
    else (shortEscape c).bind fun char => before char (basicLines false rest)
  | _, c :: rest => if isBasicChar c then before c (basicLines false rest) else none

/-- Reads up to the closing apostrophes of text over several lines. -/
def literalLines : List Char → Option (List Char × List Char)
  | [] => none
  | '\'' :: '\'' :: '\'' :: '\'' :: '\'' :: rest => some (['\'', '\''], rest)
  | '\'' :: '\'' :: '\'' :: '\'' :: rest => some (['\''], rest)
  | '\'' :: '\'' :: '\'' :: rest => some ([], rest)
  | '\'' :: rest => before '\'' (literalLines rest)
  | '\r' :: '\n' :: rest => before '\n' (literalLines rest)
  | '\n' :: rest => before '\n' (literalLines rest)
  | c :: rest => if isLiteralChar c then before c (literalLines rest) else none

def afterBreak : List Char → List Char
  | '\n' :: rest => rest
  | '\r' :: '\n' :: rest => rest
  | cs => cs

def quotedLine : List Char → Option (List Char × List Char)
  | '"' :: rest => basicBody rest
  | '\'' :: rest => literalBody rest
  | _ => none

def quoted : List Char → Option (List Char × List Char)
  | '"' :: '"' :: '"' :: rest => basicLines false (afterBreak rest)
  | '\'' :: '\'' :: '\'' :: rest => literalLines (afterBreak rest)
  | cs => quotedLine cs

end TranscodingEngines.Toml
