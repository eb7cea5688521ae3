import TranscodingEngines.Host.Script.Shell
import TranscodingEngines.Host.Script.Calculation

/-!
# Conditions

A condition is a list of arguments that compares texts and numbers and asks for properties of files.
The shell and the program of the machine read such lists in different ways and complain in different
words; what the single questions ask is the same.
-/

set_option autoImplicit false

namespace TranscodingEngines.Script

inductive ConditionFault where
  | notNumber (text : String)
  | missingBracket
  | missingArgument (operator : String)
  | unexpectedOperator (operator : String)
  | unclosed
  | missingBehind (last : String)
  | wantsUnary (operator : String)
  | wantsBinary (operator : String)
  | extra (argument : String)
  | wantsClosing (found : Option String)
  deriving DecidableEq, Repr

def inApostrophes (text : String) : String := "'" ++ text ++ "'"

def ConditionFault.message (dialectIsShell : Bool) : ConditionFault → String
  | notNumber text =>
    if dialectIsShell then "Illegal number: " ++ text else "invalid integer " ++ inApostrophes text
  | missingBracket => if dialectIsShell then "missing ]" else "missing ']'"
  | missingArgument operator => operator ++ ": argument expected"
  | unexpectedOperator operator => operator ++ ": unexpected operator"
  | unclosed => "closing paren expected"
  | missingBehind last => "missing argument after " ++ inApostrophes last
  | wantsUnary operator => inApostrophes operator ++ ": unary operator expected"
  | wantsBinary operator => inApostrophes operator ++ ": binary operator expected"
  | extra argument => "extra argument " ++ inApostrophes argument
  | wantsClosing none => "')' expected"
  | wantsClosing (some found) => "')' expected, found " ++ inApostrophes found

/-! ## Questions -/

def fileLetters : List Char := "rwxefdcbpugksOGLSh".toList

def channelHas (letter : Char) (channel : Channel) : Bool :=
  match channel with
  | .device _ => "ecrw".toList.contains letter
  | .directory => "eds".toList.contains letter
  | .file _ _ _ _ _ => "efrw".toList.contains letter
  | _ => "eprw".toList.contains letter

def entryHas (caller : Caller) (letter : Char) (entry : TreeEntry) : Bool :=
  let permits (holds : Permissions → Bool) : Bool := entry.permissions?.any holds
  let bit (n : Nat) : Bool := permits fun p => p.mode / n % 2 == 1
  match letter with
  | 'e' => true
  | 'r' => permits caller.mayRead
  | 'w' => permits caller.mayWrite
  | 'x' =>
    match entry with
    | .directory p => caller.maySearch p
    | entry => entry.permissions?.any caller.mayExecute
  | 'f' =>
    match entry with
    | .file _ _ => true
    | .program _ _ => true
    | _ => false
  | 'd' =>
    match entry with
    | .directory _ => true
    | _ => false
  | 'c' =>
    match entry with
    | .device _ _ => true
    | _ => false
  | 's' =>
    match entry with
    | .file _ bytes => !bytes.isEmpty
    | .device _ _ => false
    | _ => true
  | 'u' => bit 2048
  | 'g' => bit 1024
  | 'k' => bit 512
  | 'O' => permits (·.owner == caller.user)
  | 'G' => permits fun p => caller.groups.head? == some p.group
  | _ => false

def fileHas (view : View) (letter : Char) (path : String) : Bool :=
  let path : FilePath := ⟨ofRaw path⟩
  if letter == 'L' || letter == 'h' then
    match view.host.followName path with
    | .ok (.entry _ (.link _)) => !path.endsInSlash && !path.isEmpty
    | _ => false
  else
    match (Machine.streamNamed path).map view.channel? with
    | some (some channel) => channelHas letter channel
    | _ =>
      match view.host.find path with
      | .ok (_, entry) => entryHas view.host.caller letter entry
      | .error _ => false

def sameFile (view : View) (a b : String) : Bool :=
  match view.host.find ⟨ofRaw a⟩, view.host.find ⟨ofRaw b⟩ with
  | .ok (x, _), .ok (y, _) => x == y
  | _, _ => false

def numberOperator? (operator : String) : Option (Int → Int → Bool) :=
  match operator with
  | "-eq" => some fun a b => a == b
  | "-ne" => some fun a b => a != b
  | "-lt" => some fun a b => a < b
  | "-le" => some fun a b => a ≤ b
  | "-gt" => some fun a b => b < a
  | "-ge" => some fun a b => b ≤ a
  | _ => none

def textOperator? (operator : String) : Option (String → String → Bool) :=
  match operator with
  | "=" => some fun a b => a == b
  | "!=" => some fun a b => a != b
  | "<" => some fun a b => a < b
  | ">" => some fun a b => b < a
  | _ => none

def fileOperators : List String := ["-nt", "-ot", "-ef"]

def isBinary (operator : String) : Bool :=
  (numberOperator? operator).isSome || (textOperator? operator).isSome
    || fileOperators.contains operator

def judgeBinary (view : View) (number : String → Option Int) (a operator b : String) :
    Except ConditionFault Bool :=
  match numberOperator? operator, textOperator? operator with
  | some holds, _ =>
    match number a, number b with
    | none, _ => .error (.notNumber a)
    | _, none => .error (.notNumber b)
    | some m, some n => .ok (holds m n)
  | none, some holds => .ok (holds a b)
  | none, none => .ok (operator == "-ef" && sameFile view a b)

def unaryLetter? (operator : String) : Option Char :=
  match operator.toList with
  | ['-', letter] =>
    if letter == 'n' || letter == 'z' || letter == 't' || fileLetters.contains letter then
      some letter
    else none
  | _ => none

/-- Judges an operator in front of an argument. No stream is a terminal. -/
def judgeUnary (view : View) (number : String → Option Int) (letter : Char) (a : String) :
    Except ConditionFault Bool :=
  match letter with
  | 'n' => .ok !a.isEmpty
  | 'z' => .ok a.isEmpty
  | 't' => if (number a).isNone then .error (.notNumber a) else .ok false
  | letter => .ok (fileHas view letter a)

/-! ## The shell's reading -/

inductive ConditionToken where
  | ending
  | operand
  | unary (letter : Char)
  | binary
  | negation
  | conjunction
  | disjunction
  | opening
  | closing
  deriving DecidableEq, Repr

def conditionToken? (arg : String) : Option ConditionToken :=
  match arg with
  | "!" => some .negation
  | "-a" => some .conjunction
  | "-o" => some .disjunction
  | "(" => some .opening
  | ")" => some .closing
  | arg =>
    match unaryLetter? arg with
    | some letter => some (.unary letter)
    | none => if isBinary arg then some .binary else none

def conditionToken (args : List String) : ConditionToken :=
  match args with
  | [] => .ending
  | arg :: rest =>
    match conditionToken? arg with
    | none => .operand
    | some (.unary letter) =>
      let isOperand : Bool := match rest with
        | [] => true
        | [_] => false
        | next :: second :: _ => conditionToken? next == some .binary && second != ")"
      if isOperand then .operand else .unary letter
    | some .opening => if rest.isEmpty then .operand else .opening
    | some t => t

abbrev ConditionReading := Except ConditionFault (Bool × List String)

def shellNumber (text : String) : Option Int := wholeNumber? true text

mutual

def readAlternatives (view : View) : (steps : Nat) → ConditionToken → List String →
    (before : Bool) → ConditionReading
  | 0, _, args, before => .ok (before, args)
  | steps + 1, token, args, before => do
    let (found, args) ← readConjunction view steps token args true
    let found := before || found
    match conditionToken args.tail with
    | .disjunction =>
      let rest := args.drop 2
      readAlternatives view steps (conditionToken rest) rest found
    | _ => pure (found, args)

def readConjunction (view : View) : (steps : Nat) → ConditionToken → List String →
    (before : Bool) → ConditionReading
  | 0, _, args, before => .ok (before, args)
  | steps + 1, token, args, before => do
    let (found, args) ← readNegation view steps token args
    let found := before && found
    match conditionToken args.tail with
    | .conjunction =>
      let rest := args.drop 2
      readConjunction view steps (conditionToken rest) rest found
    | _ => pure (found, args)

def readNegation (view : View) : (steps : Nat) → ConditionToken → List String → ConditionReading
  | 0, _, args => .ok (false, args)
  | steps + 1, token, args => do
    if token != .negation then readPrimary view steps token args
    else
      let next := conditionToken args.tail
      let (found, args) ← readNegation view steps next (if next == .ending then args else args.tail)
      pure (!found, args)

def readPrimary (view : View) : (steps : Nat) → ConditionToken → List String → ConditionReading
  | 0, _, args => .ok (false, args)
  | steps + 1, token, args => do
    match token with
    | .ending => pure (false, args)
    | .opening =>
      let inner := args.tail
      let next := conditionToken inner
      if next == .closing then pure (false, inner)
      else
        let (found, args) ← readAlternatives view steps next inner false
        let args := args.tail
        if conditionToken args == .closing then pure (found, args) else .error .unclosed
    | .unary letter =>
      match args with
      | operator :: [] => .error (.missingArgument operator)
      | _ :: operand :: rest =>
        let found ← judgeUnary view shellNumber letter operand
        pure (found, operand :: rest)
      | [] => pure (false, [])
    | _ =>
      match args with
      | a :: operator :: rest =>
        if conditionToken (operator :: rest) == .binary then
          match rest with
          | [] => .error (.missingArgument operator)
          | b :: after =>
            let found ← judgeBinary view shellNumber a operator b
            pure (found, b :: after)
        else pure (!a.isEmpty, args)
      | [a] => pure (!a.isEmpty, args)
      | [] => pure (false, [])

end

/-- Judges a condition in the shell's reading. `negated` counts exclamation marks in front that were
passed over. -/
def judgeInShell (view : View) : (steps : Nat) → (negated : Bool) → List String →
    Except ConditionFault Bool
  | 0, _, _ => .ok false
  | steps + 1, negated, args => do
    let whole (token : ConditionToken) (args : List String) : Except ConditionFault Bool := do
      let (found, rest) ← readAlternatives view (8 * args.length + 8) token args false
      match rest with
      | operator :: _ :: _ => .error (.unexpectedOperator operator)
      | _ => pure (found != negated)
    match args with
    | [] => pure negated
    | [a, operator, b] =>
      if conditionToken? operator == some .binary then whole .operand args
      else if a == "(" && b == ")" then whole (conditionToken [operator]) [operator]
      else if a == "!" then judgeInShell view steps (!negated) [operator, b]
      else whole (conditionToken args) args
    | [a, b, c, d] =>
      if a == "(" && d == ")" then whole (conditionToken [b, c]) [b, c]
      else if a == "!" then judgeInShell view steps (!negated) [b, c, d]
      else whole (conditionToken args) args
    | args => whole (conditionToken args) args

def shellCondition (view : View) (isBracket : Bool) (args : List String) :
    Except ConditionFault Bool :=
  if isBracket then
    if args.getLast? == some "]" then judgeInShell view 5 false args.dropLast
    else .error .missingBracket
  else judgeInShell view 5 false args

/-! ## The program's reading -/

def programNumber (text : String) : Option Int :=
  match splitSigned true text.toList with
  | some (n, rest) => if rest.all isWhite then some n else none
  | none => none

abbrev ConditionStep := Except ConditionFault (Bool × List String)

def programUnary (view : View) (last : String) (args : List String) : ConditionStep :=
  match args with
  | operator :: rest =>
    match unaryLetter? operator, rest with
    | none, _ => .error (.wantsUnary operator)
    | some _, [] => .error (.missingBehind last)
    | some letter, a :: rest => do
      let found ← judgeUnary view programNumber letter a
      pure (found, rest)
  | [] => .error (.missingBehind last)

def isDashLetter (arg : String) : Bool :=
  match arg.toList with
  | ['-', _] => true
  | _ => false

def oneArgument (args : List String) : ConditionStep :=
  match args with
  | a :: rest => .ok (!a.isEmpty, rest)
  | [] => .ok (false, [])

def twoArguments (view : View) (last : String) (args : List String) : ConditionStep := do
  match args with
  | "!" :: rest =>
    let (found, rest) ← oneArgument rest
    pure (!found, rest)
  | a :: _ => if isDashLetter a then programUnary view last args else .error (.missingBehind last)
  | [] => .error (.missingBehind last)

/-- The number that the program makes of an argument: its length behind `-l`. -/
def programOperand (args : List String) : String × List String :=
  match args with
  | "-l" :: a :: rest => (toString a.length, rest)
  | a :: rest => (a, rest)
  | [] => ("", [])

def programBinary (view : View) (args : List String) : ConditionStep := do
  match args with
  | a :: operator :: b :: rest =>
    let found ← judgeBinary view programNumber a operator b
    pure (found, rest)
  | _ => pure (false, [])

mutual

def readCounted (view : View) (last : String) : (steps : Nat) → (count : Nat) → List String →
    ConditionStep
  | 0, _, args => .ok (false, args)
  | steps + 1, count, args => do
    match count, args with
    | 1, args => oneArgument args
    | 2, args => twoArguments view last args
    | 3, args => readThree view last steps args
    | 4, a :: b :: c :: d :: rest =>
      if a == "!" then
        let (found, rest) ← readThree view last steps (b :: c :: d :: rest)
        pure (!found, rest)
      else if a == "(" && d == ")" then
        let (found, rest) ← twoArguments view last (b :: c :: d :: rest)
        pure (found, rest.tail)
      else readOr view last steps args false
    | _, args => readOr view last steps args false

def readThree (view : View) (last : String) : (steps : Nat) → List String → ConditionStep
  | 0, args => .ok (false, args)
  | steps + 1, args => do
    match args with
    | a :: b :: rest =>
      if isBinary b then programBinary view args
      else if a == "!" then
        let (found, rest) ← twoArguments view last (b :: rest)
        pure (!found, rest)
      else if a == "(" && rest.head? == some ")" then
        let (found, rest) ← oneArgument (b :: rest)
        pure (found, rest.tail)
      else if b == "-a" || b == "-o" then readOr view last steps args false
      else .error (.wantsBinary b)
    | _ => .error (.missingBehind last)

def readOr (view : View) (last : String) : (steps : Nat) → List String → (before : Bool) →
    ConditionStep
  | 0, args, before => .ok (before, args)
  | steps + 1, args, before => do
    let (found, rest) ← readAnd view last steps args true
    match rest with
    | "-o" :: rest => readOr view last steps rest (before || found)
    | rest => pure (before || found, rest)

def readAnd (view : View) (last : String) : (steps : Nat) → List String → (before : Bool) →
    ConditionStep
  | 0, args, before => .ok (before, args)
  | steps + 1, args, before => do
    let (found, rest) ← readTerm view last steps args
    match rest with
    | "-a" :: rest => readAnd view last steps rest (before && found)
    | rest => pure (before && found, rest)

/-- Reads a single question, perhaps behind exclamation marks, or a condition in brackets. -/
def readTerm (view : View) (last : String) : (steps : Nat) → List String → ConditionStep
  | 0, args => .ok (false, args)
  | steps + 1, args => do
    match args with
    | [] => .error (.missingBehind last)
    | "!" :: rest =>
      let (found, rest) ← readTerm view last steps rest
      pure (!found, rest)
    | "(" :: rest =>
      if rest.isEmpty then .error (.missingBehind last)
      else
        let inside := (rest.tail.takeWhile (· != ")")).length + 1
        let count := if 4 < inside || rest.length ≤ inside && 4 ≤ rest.length then rest.length
          else inside
        let (found, rest) ← readCounted view last steps count rest
        match rest with
        | ")" :: rest => pure (found, rest)
        | other => .error (.wantsClosing other.head?)
    | a :: rest =>
      match rest with
      | b :: _ :: more =>
        if a == "-l" && !more.isEmpty && rest.length ≥ 3 && isBinary (rest.getD 1 "") then
          let (length, rest) := programOperand args
          programBinary view (length :: rest)
        else if isBinary b then programBinary view args
        else if isDashLetter a then programUnary view last args
        else pure (!a.isEmpty, rest)
      | rest =>
        if isDashLetter a then programUnary view last args else pure (!a.isEmpty, rest)

end

def programCondition (view : View) (isBracket : Bool) (args : List String) :
    Except ConditionFault Bool := do
  let args ← if isBracket then
      if args.getLast? == some "]" then pure args.dropLast else .error .missingBracket
    else pure args
  if args.isEmpty then pure false
  else
    let last := args.getLast?.getD ""
    let (found, rest) ← readCounted view last (8 * args.length + 8) args.length args
    match rest with
    | [] => pure found
    | other :: _ => .error (.extra other)

end TranscodingEngines.Script
