import TranscodingEngines.Host.Script.Syntax

/-!
# Reading scripts

A script is read command by command: the next command is read only after the one before it was
carried out, so what stands in front of a fault still happens. Reading goes character by character,
since quotes, braces and documents each follow rules of their own; a backslash at the end of a line
joins it with the next one nearly everywhere.
-/

set_option autoImplicit false

namespace TranscodingEngines.Script

/-! ## Tokens -/

def reservedWords : List String :=
  ["!", "case", "do", "done", "elif", "else", "esac", "fi", "for", "if", "in", "then", "until",
    "while", "\x7b", "\x7d"]

def specialCommands : List String :=
  [".", ":", "break", "continue", "eval", "exec", "exit", "export", "readonly", "return", "set",
    "shift", "times", "trap", "unset"]

inductive Sign where
  | file (opening : Opening)
  | copy
  | document (dropTabs : Bool)
  deriving Repr, DecidableEq

inductive Token where
  | endOfText
  | newline
  | semicolon
  | ampersand
  | and
  | or
  | bar
  | opening
  | closing
  | caseEnd
  | redirection (stream : Nat) (sign : Sign)
  | word (word : Word) (quoted : Bool)
  | reserved (name : String)

def inMarks (text : String) : String := "\"" ++ text ++ "\""

def Token.name : Token → String
  | endOfText => "end of file"
  | newline => "newline"
  | semicolon => inMarks ";"
  | ampersand => inMarks "&"
  | and => inMarks "&&"
  | or => inMarks "||"
  | bar => inMarks "|"
  | opening => inMarks "("
  | closing => inMarks ")"
  | caseEnd => inMarks ";;"
  | redirection _ _ => "redirection"
  | word _ _ => "word"
  | reserved name => inMarks name

def Token.isReserved (t : Token) (name : String) : Bool :=
  match t with
  | reserved found => found == name
  | _ => false

def Token.endsList : Token → Bool
  | endOfText => true
  | closing => true
  | caseEnd => true
  | reserved name => ["do", "done", "elif", "else", "esac", "fi", "then", "\x7d"].contains name
  | _ => false

structure Lookout where
  breaks : Bool
  reserved : Bool
  aliases : Bool
  deriving Repr, DecidableEq

def Lookout.nothing : Lookout := ⟨false, false, false⟩

def Lookout.command : Lookout := ⟨false, true, true⟩

def Lookout.later : Lookout := ⟨true, true, true⟩

structure AwaitedDocument where
  number : Nat
  delimiter : List Char
  dropTabs : Bool
  expands : Bool

structure Unfolding where
  name : String
  behind : Nat
  endsInBlank : Bool

structure Reader where
  rest : List Char
  line : Nat
  pushed : Option Token
  lookout : Lookout
  isPlain : Bool
  awaited : List AwaitedDocument
  documents : List (Nat × Word)
  nextDocument : Nat
  aliases : List (String × String)
  /-- The aliases whose text is being read, the latest first. -/
  unfolding : List Unfolding

def Reader.start (text : List Char) (nextDocument : Nat) (aliases : List (String × String)) :
    Reader :=
  ⟨text, 1, none, .nothing, false, [], [], nextDocument, aliases, []⟩

abbrev Reading := StateT Reader (Except (Nat × Fault))

def refuse {α : Type} (fault : Fault) : Reading α := fun r => .error (r.line, fault)

def refuseToken {α : Type} (t : Token) (expected : Option Token) : Reading α :=
  refuse (.unexpected t.name (expected.map Token.name))

def lookOut (l : Lookout) : Reading Unit := modify fun r => { r with lookout := l }

def unread (t : Token) : Reading Unit := modify fun r => { r with pushed := some t }

def skipJoins : List Char → Nat → List Char × Nat
  | '\\' :: '\n' :: rest, count => skipJoins rest (count + 1)
  | rest, count => (rest, count)

def nextRaw : Reading (Option Char) := fun r =>
  match r.rest with
  | [] => .ok (none, r)
  | c :: rest => .ok (some c, { r with rest := rest })

def nextChar : Reading (Option Char) := fun r =>
  match r.rest with
  | [] => .ok (none, r)
  | '\\' :: '\n' :: rest =>
    let (rest, joined) := skipJoins rest 1
    nextRaw { r with rest := rest, line := r.line + joined }
  | c :: rest => .ok (some c, { r with rest := rest })

def unreadChar (c : Option Char) : Reading Unit := fun r =>
  match c with
  | none => .ok ((), r)
  | some c => .ok ((), { r with rest := c :: r.rest })

def countLine : Reading Unit := modify fun r => { r with line := r.line + 1 }

/-! ## Words -/

inductive Setting where
  | bare
  | braced
  | double
  | bracedInside
  | document
  | bracedDocument
  | calculation
  deriving Repr, DecidableEq

namespace Setting

def isQuoted : Setting → Bool
  | bare => false
  | braced => false
  | _ => true

def isBraced : Setting → Bool
  | braced => true
  | bracedInside => true
  | bracedDocument => true
  | _ => false

def inBraces : Setting → Setting
  | bare => braced
  | braced => braced
  | document => bracedDocument
  | bracedDocument => bracedDocument
  | _ => bracedInside

end Setting

def endsWord (c : Char) : Bool :=
  isSpace c || c == ';' || c == '&' || c == '|' || c == '(' || c == ')' || c == '<' || c == '>'

def isSpecialParameter (c : Char) : Bool :=
  c.isDigit || c == '*' || c == '@' || c == '#' || c == '?' || c == '-' || c == '$' || c == '!'

def addPiece (piece : Piece) (pieces : List Piece) : List Piece :=
  match piece, pieces with
  | .text [c] quoted, .text chars other :: rest =>
    if quoted == other then .text (c :: chars) quoted :: rest else piece :: pieces
  | .text chars quoted, _ => .text chars.reverse quoted :: pieces
  | _, _ => piece :: pieces

def inOrder (pieces : List Piece) : List Piece :=
  pieces.foldl (fun found piece => match piece with
    | .text chars quoted => .text chars.reverse quoted :: found
    | piece => piece :: found) []

def takeWhileChar (holds : Char → Bool) : (steps : Nat) → List Char → Reading (List Char)
  | 0, taken => pure taken.reverse
  | steps + 1, taken => do
    match ← nextChar with
    | some c =>
      if holds c then takeWhileChar holds steps (c :: taken)
      else
        unreadChar (some c)
        pure taken.reverse
    | none => pure taken.reverse

def singleQuoted : (steps : Nat) → List Char → Reading (List Char)
  | 0, _ => refuse .openQuote
  | steps + 1, taken => do
    match ← nextRaw with
    | none => refuse .openQuote
    | some '\'' => pure taken.reverse
    | some c =>
      if c == '\n' then countLine
      singleQuoted steps (c :: taken)

def backquoted (isQuoted : Bool) : (steps : Nat) → List Char → Reading (List Char)
  | 0, _ => refuse .openBackquote
  | steps + 1, taken => do
    match ← nextChar with
    | none => refuse .openBackquote
    | some '\x60' => pure taken.reverse
    | some '\\' =>
      match ← nextRaw with
      | none => refuse .openBackquote
      | some c =>
        if c == '\n' then countLine
        if c == '\\' || c == '\x60' || c == '$' || (isQuoted && c == '"') then
          backquoted isQuoted steps (c :: taken)
        else backquoted isQuoted steps (c :: '\\' :: taken)
    | some c =>
      if c == '\n' then countLine
      backquoted isQuoted steps (c :: taken)

/-- The parameter that braces name, whether its length is asked for, and the character behind it;
nothing if the braces name none. -/
def bracedName (steps : Nat) : Reading (Option (String × Bool) × Option Char) := do
  let nameFrom (c : Char) (isLength : Bool) : Reading (Option (String × Bool) × Option Char) := do
    let rest ← takeWhileChar (if c.isDigit then Char.isDigit else isNameChar) steps []
    let after ← nextChar
    if isLength && after != some '\x7d' then pure (none, after)
    else pure (some (String.ofList (c :: rest), isLength), after)
  match ← nextChar with
  | none => pure (none, none)
  | some c =>
    if isNameChar c then nameFrom c false
    else if c == '\x7d' then pure (none, some c)
    else if c == '#' then
      match ← nextChar with
      | none => pure (some ("#", false), none)
      | some d =>
        if isNameChar d then nameFrom d true
        else
          let after ← nextChar
          if d == '\x7d' || after != some '\x7d' then
            unreadChar after
            pure (some ("#", false), some d)
          else if isSpecialParameter d then pure (some (String.singleton d, true), after)
          else pure (none, after)
    else
      let after ← nextChar
      if isSpecialParameter c then pure (some (String.singleton c, false), after)
      else pure (none, after)

inductive Use where
  | value
  | length
  | standby (kind : Standby) (emptyToo : Bool)
  | trimmed (cut : Cut)
  | unknown

def useOf (after : Option Char) : Reading Use := do
  let standby (c : Option Char) (emptyToo : Bool) : Use :=
    match c with
    | some '-' => .standby .use emptyToo
    | some '=' => .standby .assign emptyToo
    | some '?' => .standby .complain emptyToo
    | some '+' => .standby .replace emptyToo
    | _ => .unknown
  let doubled (c : Char) (once twice : Cut) : Reading Use := do
    let next ← nextChar
    if next == some c then pure (.trimmed twice)
    else
      unreadChar next
      pure (.trimmed once)
  match after with
  | some '\x7d' => pure .value
  | some ':' => pure (standby (← nextChar) true)
  | some '#' => doubled '#' .shortestFront .longestFront
  | some '%' => doubled '%' .shortestBack .longestBack
  | c => pure (standby c false)

/-- The text of a document up to the line that is its delimiter, in reverse, with the text behind
that line and the number of lines passed. Lines are joined if the text is to be expanded. -/
def documentText (a : AwaitedDocument) : (steps : Nat) → (atStart : Bool) → (lines : Nat) →
    (taken rest : List Char) → List Char × List Char × Nat
  | 0, _, lines, taken, rest => (taken, rest, lines)
  | steps + 1, true, lines, taken, rest =>
    let rest := if a.dropTabs then rest.dropWhile (· == '\t') else rest
    let line := rest.takeWhile (· != '\n')
    if line == a.delimiter then
      match rest.drop line.length with
      | [] => (taken, [], lines)
      | _ :: after => (taken, after, lines + 1)
    else documentText a steps false lines taken rest
  | steps + 1, false, lines, taken, rest =>
    match rest with
    | [] => (taken, [], lines)
    | '\n' :: rest => documentText a steps true (lines + 1) ('\n' :: taken) rest
    | '\\' :: c :: rest =>
      if a.expands then
        if c == '\n' then documentText a steps false (lines + 1) taken rest
        else documentText a steps false lines (c :: '\\' :: taken) rest
      else documentText a steps false lines ('\\' :: taken) (c :: rest)
    | c :: rest => documentText a steps false lines (c :: taken) rest

def signAfter (first : Char) : Reading Sign := do
  let next ← nextChar
  if first == '>' then
    match next with
    | some '>' => pure (.file .append)
    | some '|' => pure (.file .overwrite)
    | some '&' => pure .copy
    | c => do
      unreadChar c
      pure (.file .write)
  else
    match next with
    | some '<' =>
      match ← nextChar with
      | some '-' => pure (.document true)
      | c => do
        unreadChar c
        pure (.document false)
    | some '&' => pure .copy
    | some '>' => pure (.file .readWrite)
    | c => do
      unreadChar c
      pure (.file .read)

def pieceOf (name : String) (use : Use) (word : Word) (quoted : Bool) : Piece :=
  match use with
  | .value => .parameter name quoted
  | .length => .length name quoted
  | .standby kind emptyToo => .standby name kind emptyToo word quoted
  | .trimmed cut => .trimmed name cut word quoted
  | .unknown => .unknown

/-- The assignments and words of a simple command so far, in reverse. -/
structure Gathered where
  assignments : List Word
  words : List Word
  redirections : List Redirection

mutual

/-- Reads pieces of a word to the end of their setting. `depth` counts what is still open: brackets
in a calculation, an inner quotation mark in braces. -/
def pieces : (steps : Nat) → Setting → (depth : Nat) → List Piece → Reading (List Piece)
  | 0, _, _, _ => refuse .openQuote
  | steps + 1, setting, depth, found => do
    let quoted := setting.isQuoted
    match ← nextChar with
    | none =>
      match setting with
      | .bare => pure found
      | .document => pure found
      | .braced => refuse .openBrace
      | .bracedDocument => refuse .openBrace
      | .calculation => refuse .openCalculation
      | _ => refuse .openQuote
    | some '\\' =>
      match ← nextRaw with
      | none => pieces steps setting depth (addPiece (.text ['\\'] true) found)
      | some c =>
        let drops := !quoted || c == '\\' || c == '\x60' || c == '$'
          || (c == '"' && setting != .document) || (c == '\x7d' && setting.isBraced)
        let found := if drops then found else addPiece (.text ['\\'] true) found
        pieces steps setting depth (addPiece (.text [c] true) found)
    | some '$' =>
      if (← get).isPlain then pieces steps setting depth (addPiece (.text ['$'] quoted) found)
      else
        let piece ← dollar steps setting
        pieces steps setting depth (addPiece piece found)
    | some '\x60' =>
      if (← get).isPlain then pieces steps setting depth (addPiece (.text ['\x60'] quoted) found)
      else
        let source ← backquoted quoted (steps + 1) []
        let body ← inside steps source
        pieces steps setting depth (addPiece (.output body quoted) found)
    | some c =>
      let asText (depth : Nat) : Reading (List Piece) :=
        pieces steps setting depth (addPiece (.text [c] quoted) found)
      match setting with
      | .bare =>
        if endsWord c then
          unreadChar (some c)
          pure found
        else if c == '\'' then quotedPart steps setting depth found
        else if c == '"' then doublePart steps setting depth found
        else asText depth
      | .braced =>
        if c == '\x7d' then pure found
        else if c == '\'' then quotedPart steps setting depth found
        else if c == '"' then doublePart steps setting depth found
        else
          if c == '\n' then countLine
          asText depth
      | .double =>
        if c == '"' then pure found
        else
          if c == '\n' then countLine
          asText depth
      | .document => asText depth
      | .calculation =>
        if c == '(' then asText (depth + 1)
        else if c == ')' then
          match depth with
          | depth + 1 => asText depth
          | 0 =>
            match ← nextChar with
            | some ')' => pure found
            | other => do
              unreadChar other
              asText 0
        else
          if c == '\n' then countLine
          asText depth
      | _ =>
        if c == '"' then pieces steps setting (1 - depth) (.text [] true :: found)
        else if c == '\x7d' && depth == 0 then pure found
        else
          if c == '\n' then countLine
          asText depth

def quotedPart : (steps : Nat) → Setting → (depth : Nat) → List Piece → Reading (List Piece)
  | 0, _, _, _ => refuse .openQuote
  | steps + 1, setting, depth, found => do
    let chars ← singleQuoted (steps + 1) []
    pieces steps setting depth (.text chars.reverse true :: found)

def doublePart : (steps : Nat) → Setting → (depth : Nat) → List Piece → Reading (List Piece)
  | 0, _, _, _ => refuse .openQuote
  | steps + 1, setting, depth, found => do
    let found ← pieces steps .double 0 (.text [] true :: found)
    pieces steps setting depth found

/-- The piece behind a dollar sign; a dollar sign before anything else is text. -/
def dollar : (steps : Nat) → Setting → Reading Piece
  | 0, _ => refuse .openBrace
  | steps + 1, setting => do
    let quoted := setting.isQuoted
    let c ← nextChar
    match c with
    | none => pure (.text ['$'] quoted)
    | some '(' =>
      match ← nextChar with
      | some '(' =>
        let found ← pieces steps .calculation 0 []
        pure (.calculation (inOrder found) quoted)
      | other => do
        unreadChar other
        let before ← get
        set { before with awaited := [], isPlain := false }
        let body ← commands steps true none
        let t ← token steps
        match t with
        | .closing =>
          documents steps
          modify fun r => { r with awaited := before.awaited, isPlain := before.isPlain,
                                   lookout := before.lookout }
          pure (.output (body.getD .nothing) quoted)
        | _ => refuseToken t (some .closing)
    | some '\x7b' =>
      let (name, after) ← bracedName (steps + 1)
      match name, after with
      | some (name, true), _ => pure (.length name quoted)
      | some (name, false), after =>
        match ← useOf after with
        | .value => pure (.parameter name quoted)
        | use =>
          let inner := match use with
            | .trimmed _ => .braced
            | _ => setting.inBraces
          let found ← pieces steps inner 0 []
          pure (pieceOf name use (inOrder found) quoted)
      | none, after =>
        unreadChar after
        let _ ← pieces steps setting.inBraces 0 []
        pure .unknown
    | some c =>
      if isNameStart c then
        let rest ← takeWhileChar isNameChar (steps + 1) []
        pure (.parameter (String.ofList (c :: rest)) quoted)
      else if isSpecialParameter c then pure (.parameter (String.singleton c) quoted)
      else
        unreadChar (some c)
        pure (.text ['$'] quoted)

def inside : (steps : Nat) → List Char → Reading Command
  | 0, _ => refuse .openBackquote
  | steps + 1, source => do
    let before ← get
    set { before with rest := source, line := 1, pushed := none, awaited := [], isPlain := false }
    let body ← commands steps true none
    documents steps
    modify fun r => { before with documents := r.documents, nextDocument := r.nextDocument }
    pure (body.getD .nothing)

def documents : (steps : Nat) → Reading Unit
  | 0 => refuse .openQuote
  | steps + 1 => do
    let r ← get
    match r.awaited with
    | [] => pure ()
    | a :: others =>
      let (text, rest, lines) := documentText a (2 * r.rest.length + 2) true 0 [] r.rest
      let word ← (do
        if a.expands then
          set { r with rest := text.reverse, awaited := [], isPlain := false }
          let found ← pieces steps .document 0 []
          pure (inOrder found)
        else pure [.text text.reverse true] : Reading Word)
      modify fun now => { r with rest := rest, line := r.line + lines, awaited := others,
                                 documents := (a.number, word) :: now.documents,
                                 nextDocument := now.nextDocument }
      documents steps

def rawToken : (steps : Nat) → Reading Token
  | 0 => refuse .openQuote
  | steps + 1 => do
    let r ← get
    match r.pushed with
    | some t =>
      set { r with pushed := none }
      pure t
    | none =>
      let after (c : Char) (double single : Token) : Reading Token := do
        let next ← nextChar
        if next == some c then pure double
        else
          unreadChar next
          pure single
      match ← nextChar with
      | none => pure .endOfText
      | some ' ' => rawToken steps
      | some '\t' => rawToken steps
      | some '#' =>
        modify fun r => { r with rest := r.rest.dropWhile (· != '\n') }
        rawToken steps
      | some '\n' =>
        countLine
        pure .newline
      | some '&' => after '&' .and .ampersand
      | some '|' => after '|' .or .bar
      | some ';' => after ';' .caseEnd .semicolon
      | some '(' => pure .opening
      | some ')' => pure .closing
      | some '<' => pure (.redirection 0 (← signAfter '<'))
      | some '>' => pure (.redirection 1 (← signAfter '>'))
      | some c =>
        unreadChar (some c)
        let found ← pieces steps .bare 0 []
        let word := inOrder found
        let next := (← get).rest.head?
        match word, next with
        | [.text [d] false], some c =>
          if d.isDigit && (c == '<' || c == '>') then
            let _ ← nextRaw
            pure (.redirection (d.toNat - '0'.toNat) (← signAfter c))
          else pure (.word word false)
        | _, _ =>
          pure (.word word (word.any fun piece => match piece with
            | .text _ quoted => quoted
            | _ => false))

def token : (steps : Nat) → Reading Token
  | 0 => refuse .openQuote
  | steps + 1 => do
    let before ← get
    let wanted := before.lookout
    let t ← rawToken steps
    match t with
    | .newline =>
      if wanted.breaks then
        documents steps
        lookOut wanted
        token steps
      else
        lookOut .nothing
        pure t
    | .word word false =>
      lookOut .nothing
      match plainChars word with
      | none => pure t
      | some chars =>
        let name := String.ofList chars
        let r ← get
        let passed (u : Unfolding) : Bool :=
          u.endsInBlank && u.behind < before.rest.length && r.rest.length ≤ u.behind
        let wanted := { wanted with aliases := wanted.aliases || r.unfolding.any passed }
        if wanted.reserved && reservedWords.contains name then pure (.reserved name)
        else
          match if wanted.aliases then r.aliases.lookup name else none with
          | none => pure t
          | some text =>
            let inUse := r.unfolding.filter fun u => u.behind ≤ r.rest.length
            if inUse.any (·.name == name) then pure t
            else
              let endsInBlank := text.toList.getLast?.any fun c => c == ' ' || c == '\t'
              set { r with rest := text.toList ++ r.rest, lookout := wanted,
                           unfolding := ⟨name, r.rest.length, endsInBlank⟩ :: inUse }
              token steps
    | t =>
      lookOut .nothing
      pure t

def redirection : (steps : Nat) → (stream : Nat) → Sign → Reading Redirection
  | 0, _, _ => refuse .openQuote
  | steps + 1, stream, sign => do
    modify fun r => { r with isPlain := match sign with
      | .document _ => true
      | _ => r.isPlain }
    let t ← token steps
    modify fun r => { r with isPlain := false }
    match t with
    | .word word quoted =>
      match sign with
      | .file opening => pure (.file stream opening word)
      | .copy => pure (.copy stream word)
      | .document dropTabs =>
        let delimiter : List Char := word.flatMap fun piece => match piece with
          | .text chars _ => chars
          | _ => []
        let r ← get
        let awaited : AwaitedDocument := ⟨r.nextDocument, delimiter, dropTabs, !quoted⟩
        set { r with awaited := r.awaited ++ [awaited], nextDocument := r.nextDocument + 1 }
        pure (.document stream r.nextDocument)
    | t => refuseToken t none

def redirections : (steps : Nat) → List Redirection → Reading (List Redirection)
  | 0, found => pure found.reverse
  | steps + 1, found => do
    lookOut .command
    match ← token steps with
    | .redirection stream sign =>
      let r ← redirection steps stream sign
      redirections steps (r :: found)
    | t =>
      unread t
      pure found.reverse

/-- Reads commands up to a token that ends a list. The list may be empty only if it is enclosed in
something that says so; `found` holds the commands read so far. -/
def commands : (steps : Nat) → (mayEnd : Bool) → Option Command → Reading (Option Command)
  | 0, _, _ => refuse .openBrace
  | steps + 1, mayEnd, found => do
    lookOut .later
    match ← token steps with
    | .endOfText =>
      documents steps
      unread .endOfText
      pure found
    | t =>
      unread t
      if mayEnd && t.endsList then pure found
      else
        let command ← joined steps
        let (command, goesOn) ← separated steps command
        let found := some (match found with
          | none => command
          | some before => .sequence before command)
        if goesOn then commands steps true found else pure found

def separated : (steps : Nat) → Command → Reading (Command × Bool)
  | 0, _ => refuse .openBrace
  | steps + 1, command => do
    let line := (← get).line
    match ← token steps with
    | .ampersand =>
      let apart := match command with
        | .redirected line body redirections => .background line body redirections
        | command => .background line command []
      pure (apart, true)
    | .semicolon => pure (command, true)
    | .newline =>
      unread .newline
      pure (command, true)
    | t =>
      unread t
      pure (command, false)

def joined : (steps : Nat) → Reading Command
  | 0 => refuse .openBrace
  | steps + 1 => do
    let first ← pipeline steps
    joinedTo steps first

def joinedTo : (steps : Nat) → Command → Reading Command
  | 0, _ => refuse .openBrace
  | steps + 1, first => do
    match ← token steps with
    | .and =>
      lookOut .later
      let second ← pipeline steps
      joinedTo steps (.both first second)
    | .or =>
      lookOut .later
      let second ← pipeline steps
      joinedTo steps (.either first second)
    | t =>
      unread t
      pure first

def pipeline : (steps : Nat) → Reading Command
  | 0 => refuse .openBrace
  | steps + 1 => do
    let t ← token steps
    let negated := t.isReserved "!"
    if negated then lookOut .command else unread t
    let first ← command steps
    let all ← stages steps [first]
    let whole := match all with
      | [single] => single
      | all => .pipeline all
    pure (if negated then .negation whole else whole)

def stages : (steps : Nat) → List Command → Reading (List Command)
  | 0, _ => refuse .openBrace
  | steps + 1, found => do
    match ← token steps with
    | .bar =>
      lookOut .later
      let next ← command steps
      stages steps (next :: found)
    | t =>
      unread t
      pure found.reverse

def commandsUntil : (steps : Nat) → Token → Reading Command
  | 0, _ => refuse .openBrace
  | steps + 1, last => do
    let body ← commands steps false none
    let t ← token steps
    if t.name == last.name then pure (body.getD .nothing) else refuseToken t (some last)

def alternatives : (steps : Nat) → Command → Reading Command
  | 0, _ => refuse .openBrace
  | steps + 1, condition => do
    let yes ← commands steps false none
    let yes := yes.getD .nothing
    let t ← token steps
    if t.isReserved "elif" then
      let second ← commandsUntil steps (.reserved "then")
      let no ← alternatives steps second
      pure (.branch condition yes no)
    else if t.isReserved "else" then
      let no ← commandsUntil steps (.reserved "fi")
      pure (.branch condition yes no)
    else if t.isReserved "fi" then pure (.branch condition yes .nothing)
    else refuseToken t (some (.reserved "fi"))

def items : (steps : Nat) → List Word → Reading (List Word)
  | 0, _ => refuse .openBrace
  | steps + 1, found => do
    match ← token steps with
    | .word word _ => items steps (word :: found)
    | .newline => pure found.reverse
    | .semicolon => pure found.reverse
    | t => refuseToken t none

def each : (steps : Nat) → (line : Nat) → Reading Command
  | 0, _ => refuse .openBrace
  | steps + 1, line => do
    match ← token steps with
    | .word [.text chars false] _ =>
      if !isName chars then refuse .badLoopName
      else
        lookOut .later
        let t ← token steps
        let values ← (do
          if t.isReserved "in" then items steps []
          else
            match t with
            | .semicolon => pure ()
            | t => unread t
            pure [[.text [] true, .parameter "@" true]] : Reading (List Word))
        lookOut .later
        let t ← token steps
        if t.isReserved "do" then
          let body ← commandsUntil steps (.reserved "done")
          pure (.each line (String.ofList chars) values body)
        else refuseToken t (some (.reserved "do"))
    | _ => refuse .badLoopName

def patterns : (steps : Nat) → Token → List Word → Reading (List Word)
  | 0, _, _ => refuse .openBrace
  | steps + 1, t, found => do
    let word : Word := match t with
      | .word word _ => word
      | .reserved name => [.text name.toList false]
      | _ => []
    match ← token steps with
    | .bar =>
      let next ← token steps
      patterns steps next (word :: found)
    | .closing => pure (word :: found).reverse
    | t => refuseToken t (some .closing)

def cases : (steps : Nat) → List (List Word × Command) → Reading (List (List Word × Command))
  | 0, _ => refuse .openBrace
  | steps + 1, found => do
    lookOut ⟨true, true, false⟩
    let t ← token steps
    if t.isReserved "esac" then pure found.reverse
    else
      let first ← (match t with
        | .opening => token steps
        | t => pure t : Reading Token)
      let shapes ← patterns steps first []
      let body ← commands steps true none
      let found := (shapes, body.getD .nothing) :: found
      lookOut ⟨true, true, false⟩
      match ← token steps with
      | .caseEnd => cases steps found
      | t => if t.isReserved "esac" then pure found.reverse else refuseToken t (some .caseEnd)

def withRedirections : (steps : Nat) → (line : Nat) → Command → Reading Command
  | 0, _, _ => refuse .openBrace
  | steps + 1, line, body => do
    match ← redirections steps [] with
    | [] => pure body
    | found =>
      match body with
      | .subshell line body _ => pure (.subshell line body found)
      | body => pure (.redirected line body found)

def command : (steps : Nat) → Reading Command
  | 0 => refuse .openBrace
  | steps + 1 => do
    let line := (← get).line
    let t ← token steps
    match t with
    | .opening =>
      let body ← commandsUntil steps .closing
      withRedirections steps line (.subshell line body [])
    | .word _ _ =>
      unread t
      simple steps (← get).line true ⟨[], [], []⟩
    | .redirection _ _ =>
      unread t
      simple steps (← get).line true ⟨[], [], []⟩
    | .reserved "if" =>
      let condition ← commandsUntil steps (.reserved "then")
      let whole ← alternatives steps condition
      withRedirections steps line whole
    | .reserved "for" =>
      let whole ← each steps line
      withRedirections steps line whole
    | .reserved "case" =>
      match ← token steps with
      | .word subject _ =>
        lookOut .later
        let t ← token steps
        if t.isReserved "in" then
          let found ← cases steps []
          withRedirections steps line (.choice line subject found)
        else refuseToken t (some (.reserved "in"))
      | t => refuseToken t (some (.word [] false))
    | .reserved "\x7b" =>
      let body ← commandsUntil steps (.reserved "\x7d")
      withRedirections steps line body
    | .reserved name =>
      if name == "while" || name == "until" then
        let condition ← commandsUntil steps (.reserved "do")
        let body ← commandsUntil steps (.reserved "done")
        withRedirections steps line (.loop (name == "until") condition body)
      else refuseToken t none
    | t => refuseToken t none

def simple : (steps : Nat) → (line : Nat) → (mayAssign : Bool) → Gathered → Reading Command
  | 0, _, _, _ => refuse .openBrace
  | steps + 1, line, mayAssign, g => do
    lookOut ⟨false, false, mayAssign⟩
    match ← token steps with
    | .word word _ =>
      if mayAssign && (assignment? word).isSome then
        simple steps line true { g with assignments := word :: g.assignments }
      else simple steps line false { g with words := word :: g.words }
    | .redirection stream sign =>
      let r ← redirection steps stream sign
      simple steps line mayAssign { g with redirections := r :: g.redirections }
    | t =>
      match t, g with
      | .opening, ⟨[], [word], []⟩ =>
        match ← token steps with
        | .closing =>
          match plainChars word with
          | some chars =>
            if isName chars && !specialCommands.contains (String.ofList chars) then
              let line := (← get).line
              lookOut .later
              let body ← command steps
              pure (.definition line (String.ofList chars) body)
            else refuse .badFunctionName
          | none => refuse .badFunctionName
        | t => refuseToken t (some .closing)
      | t, g =>
        unread t
        pure (.simple line g.assignments.reverse g.words.reverse g.redirections.reverse)

end

def lineOfCommands : (steps : Nat) → Option Command → Reading (Option Command)
  | 0, _ => refuse .openBrace
  | steps + 1, found => do
    let ended : Reading (Option Command) := do
      documents steps
      unread .endOfText
      pure found
    lookOut .command
    match ← token steps with
    | .newline =>
      documents steps
      pure (some (found.getD .nothing))
    | .endOfText => ended
    | t =>
      unread t
      let command ← joined steps
      let (command, goesOn) ← separated steps command
      let found := some (match found with
        | none => command
        | some before => .sequence before command)
      if goesOn then lineOfCommands steps found
      else
        match ← token steps with
        | .endOfText =>
          documents steps
          unread .endOfText
          pure found
        | t => refuseToken t none

def Reader.isDone (r : Reader) : Bool :=
  match r.pushed with
  | some .endOfText => true
  | _ => false

def Reader.next (r : Reader) : Except (Nat × Fault) (Option Command × Reader) :=
  lineOfCommands (20 * r.rest.length + 100) none { r with pushed := none, awaited := [], isPlain := false }

end TranscodingEngines.Script
