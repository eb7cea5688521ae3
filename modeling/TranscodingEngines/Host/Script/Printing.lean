import TranscodingEngines.Host.Script.Decimal

/-!
# What echo and printf write

The shell has an echo and a printf of its own, and the machine has programs of the same names that
differ in their escapes. A backslash starts an escape; one that is not known stands for itself. The
escape for "stop" drops everything after it. A format is written again and again until its values
are used up. All texts here are raw.
-/

set_option autoImplicit false

namespace TranscodingEngines.Script

/-! ## Escapes -/

inductive Dialect where
  | shell
  | program
  deriving DecidableEq, Repr

def isOctal (c : Char) : Bool := '0' ≤ c && c ≤ '7'

def byteChar (n : Nat) : Char := Char.ofNat (n % 256)

def byteOf (base most : Nat) (cs : List Char) : Char × List Char :=
  let digits := (splitDigits base (cs.take most)).1
  (byteChar (digitsValue base digits), cs.drop digits.length)

def letterEscape (c : Char) : Option Char :=
  match c with
  | 'a' => some '\x07'
  | 'b' => some '\x08'
  | 'e' => some '\x1b'
  | 'f' => some '\x0c'
  | 'n' => some '\n'
  | 'r' => some '\r'
  | 't' => some '\t'
  | 'v' => some '\x0b'
  | '\\' => some '\\'
  | _ => none

/-- What an escape behind a backslash stands for, and what follows it. Octal digits may stand behind
a zero that does not count if `extraZero` holds. -/
def escape (dialect : Dialect) (extraZero : Bool) (cs : List Char) : List Char × List Char :=
  match cs with
  | [] => (['\\'], [])
  | c :: rest =>
    match letterEscape c with
    | some d => ([d], rest)
    | none =>
      if isOctal c then
        let digits := if extraZero && c == '0' && (rest.head?.any isOctal) then rest else cs
        let (d, rest) := byteOf 8 3 digits
        ([d], rest)
      else if dialect == .program && c == 'x' && (rest.head?.any fun d => (digitValue? 16 d).isSome)
      then
        let (d, rest) := byteOf 16 2 rest
        ([d], rest)
      else (['\\'], cs)

/-- A text with its escapes resolved, in reverse behind what was written before, and whether it says
"stop". -/
def unescapeInto (dialect : Dialect) : (steps : Nat) → List Char → List Char → List Char × Bool
  | 0, written, _ => (written, false)
  | steps + 1, written, cs =>
    match cs with
    | [] => (written, false)
    | '\\' :: 'c' :: _ => (written, true)
    | '\\' :: rest =>
      let (chars, rest) := escape dialect true rest
      unescapeInto dialect steps (chars.reverse ++ written) rest
    | c :: rest => unescapeInto dialect steps (c :: written) rest

def unescape (dialect : Dialect) (cs : List Char) : List Char × Bool :=
  let (written, stops) := unescapeInto dialect (cs.length + 1) [] cs
  (written.reverse, stops)

/-! ## echo -/

def echoed (args : List String) : List Char :=
  let (endsLine, args) := match args with
    | "-n" :: rest => (false, rest)
    | _ => (true, args)
  let (chars, stops) := unescape .shell (" ".intercalate args).toList
  if endsLine && !stops then chars ++ ['\n'] else chars

def isEchoSwitch (arg : String) : Bool :=
  match arg.toList with
  | '-' :: letter :: letters => (letter :: letters).all fun c => c == 'n' || c == 'e' || c == 'E'
  | _ => false

def echoedByProgram (args : List String) : List Char :=
  let switches := args.takeWhile isEchoSwitch
  let letters := switches.flatMap fun arg => arg.toList.drop 1
  let text := (" ".intercalate (args.drop switches.length)).toList
  let escapes := (letters.filter (· != 'n')).getLast? == some 'e'
  let (chars, stops) := if escapes then unescape .program text else (text, false)
  if letters.contains 'n' || stops then chars else chars ++ ['\n']

/-! ## printf -/

structure Fit where
  left : Bool
  zeros : Bool
  plus : Bool
  blank : Bool
  hash : Bool
  width : Nat
  limit : Option Nat
  deriving DecidableEq, Repr

def Fit.pad (fit : Fit) (chars : List Char) : List Char :=
  let missing := List.replicate (fit.width - chars.length) ' '
  if fit.left then chars ++ missing else missing ++ chars

def Fit.text (fit : Fit) (chars : List Char) : List Char :=
  fit.pad (match fit.limit with
    | some n => chars.take n
    | none => chars)

def Fit.digits (fit : Fit) (front digits : String) (fillsZeros : Bool) : List Char :=
  if fit.zeros && fillsZeros && !fit.left then
    let missing := fit.width - front.length - digits.length
    front.toList ++ List.replicate missing '0' ++ digits.toList
  else fit.pad (front ++ digits).toList

def Fit.sign (fit : Fit) (negative : Bool) : String :=
  if negative then "-" else if fit.plus then "+" else if fit.blank then " " else ""

def digitsIn (base n : Nat) : String := String.ofList (Nat.toDigits base n)

def Fit.whole (fit : Fit) (kind : Char) (n : Int) : List Char :=
  let size := n.natAbs
  let digits :=
    if kind == 'x' then digitsIn 16 size
    else if kind == 'X' then (digitsIn 16 size).map Char.toUpper
    else if kind == 'o' then digitsIn 8 size
    else toString size
  let digits := if fit.limit == some 0 && size == 0 then "" else digits
  let least := fit.limit.getD 0
  let digits := String.ofList (List.replicate (least - digits.length) '0') ++ digits
  let digits := if fit.hash && kind == 'o' && !digits.startsWith "0" then "0" ++ digits else digits
  let front :=
    if kind == 'd' then fit.sign (n < 0)
    else if fit.hash && size != 0 && kind == 'x' then "0x"
    else if fit.hash && size != 0 && kind == 'X' then "0X"
    else ""
  fit.digits front digits fit.limit.isNone

def Fit.quantity (fit : Fit) (kind : Char) (q : Quantity) : List Char :=
  let shown (text : String) : String := if kind.isUpper then text.map Char.toUpper else text
  match q with
  | .infinite negative => fit.digits (fit.sign negative) (shown "inf") false
  | .notNumber negative => fit.digits (fit.sign negative) (shown "nan") false
  | .fraction f =>
    let places := fit.limit.getD 6
    let text :=
      match kind.toLower with
      | 'f' => inPlaces places fit.hash f
      | 'e' => inPowers places fit.hash f
      | _ => inShort places fit.hash f
    fit.digits (fit.sign f.negative) (shown text) true

inductive ValueFault where
  | notNumeric (value : String)
  | leftover (value : String)
  | outOfRange (value : String)
  deriving DecidableEq, Repr

/-- What printing has come to: the characters written, in reverse, the values left, and what was
wrong with values, the last first. -/
structure Printout where
  written : List Char
  values : List String
  faults : List ValueFault

inductive PrintStop where
  | asked
  | missingKind
  | unknownKind (directive : String)

def Printout.write (p : Printout) (chars : List Char) : Printout :=
  { p with written := chars.reverse ++ p.written }

def Printout.next (p : Printout) : Option String × Printout :=
  match p.values with
  | [] => (none, p)
  | v :: rest => (some v, { p with values := rest })

/-- A whole number in front of what else a value holds; the number may have to be within bounds. -/
def checkedNumber (value : String) (low high : Int) : Int × List ValueFault :=
  match splitSigned false value.toList with
  | none => (0, if value.isEmpty then [] else [.notNumeric value])
  | some (n, rest) =>
    let kept := if n < low then low else if high < n then high else n
    (kept,
      if !rest.isEmpty then [.leftover value] else if kept != n then [.outOfRange value] else [])

def Printout.signed (p : Printout) : Int × Printout :=
  match p.next with
  | (none, p) => (0, p)
  | (some value, p) =>
    match value.toList with
    | '"' :: rest => (rest.head?.elim 0 fun c => (c.toNat : Int), p)
    | '\'' :: rest => (rest.head?.elim 0 fun c => (c.toNat : Int), p)
    | _ =>
      let (n, faults) := checkedNumber value (-9223372036854775808) 9223372036854775807
      (n, { p with faults := faults ++ p.faults })

def Printout.unsigned (p : Printout) : Int × Printout :=
  match p.next with
  | (none, p) => (0, p)
  | (some value, p) =>
    match value.toList with
    | '"' :: rest => (rest.head?.elim 0 fun c => (c.toNat : Int), p)
    | '\'' :: rest => (rest.head?.elim 0 fun c => (c.toNat : Int), p)
    | _ =>
      let (n, faults) := checkedNumber value (-18446744073709551615) 18446744073709551615
      (if n < 0 then n + 18446744073709551616 else n, { p with faults := faults ++ p.faults })

def Printout.quantity (p : Printout) (dialect : Dialect) : Quantity × Printout :=
  let zero : Quantity := .fraction ⟨false, 0, 1⟩
  let kept (q : Quantity) : Quantity :=
    match dialect, q with
    | .shell, .fraction f => toBinary f
    | _, q => q
  match p.next with
  | (none, p) => (zero, p)
  | (some value, p) =>
    let code (rest : List Char) : Quantity :=
      .fraction ⟨false, rest.head?.elim 0 Char.toNat, 1⟩
    match value.toList with
    | '"' :: rest => (code rest, p)
    | '\'' :: rest => (code rest, p)
    | chars =>
      match splitQuantity chars with
      | none =>
        (zero, { p with faults := (if value.isEmpty then [] else [.notNumeric value]) ++ p.faults })
      | some (q, rest) =>
        (kept q,
          { p with faults := (if rest.isEmpty then [] else [.leftover value]) ++ p.faults })

/-- A number in a format: digits, or an asterisk for the next value; nothing if neither is there. -/
def formatNumber (cs : List Char) (p : Printout) : Option Int × List Char × Printout :=
  match cs with
  | '*' :: rest =>
    let (n, p) := p.signed
    (some n, rest, p)
  | cs =>
    match splitDigits 10 cs with
    | ([], rest) => (none, rest, p)
    | (digits, rest) => (some (digitsValue 10 digits), rest, p)

def readFit (cs : List Char) (p : Printout) : Fit × List Char × Printout :=
  let flags := cs.takeWhile fun c => c == '-' || c == '0' || c == '+' || c == ' ' || c == '#'
  let (width, rest, p) := formatNumber (cs.drop flags.length) p
  let width := width.getD 0
  let (limit, rest, p) := match rest with
    | '.' :: rest =>
      let (limit, rest, p) := formatNumber rest p
      (some (limit.getD 0), rest, p)
    | rest => (none, rest, p)
  (⟨flags.contains '-' || width < 0, flags.contains '0', flags.contains '+', flags.contains ' ',
    flags.contains '#', width.natAbs, limit.bind fun n => if n < 0 then none else some n.toNat⟩,
    rest, p)

/-- Writes the next value in the way a letter says; nothing if the letter is unknown. -/
def writeValue (dialect : Dialect) (fit : Fit) (kind : Char) (p : Printout) :
    Option (Printout × Bool) :=
  match kind with
  | 's' =>
    let (value, p) := p.next
    some (p.write (fit.text (value.getD "").toList), false)
  | 'b' =>
    let (value, p) := p.next
    let (chars, stops) := unescape dialect (value.getD "").toList
    some (p.write (fit.text chars), stops)
  | 'c' =>
    let (value, p) := p.next
    let shown := match (value.getD "").toList.head?, dialect with
      | some c, _ => [c]
      | none, .shell => ['\x00']
      | none, .program => []
    some (p.write (fit.pad shown), false)
  | kind =>
    if kind == 'd' || kind == 'i' then
      let (n, p) := p.signed
      some (p.write (fit.whole 'd' n), false)
    else if "ouxX".toList.contains kind then
      let (n, p) := p.unsigned
      some (p.write (fit.whole kind n), false)
    else if "eEfFgG".toList.contains kind then
      let (q, p) := p.quantity dialect
      some (p.write (fit.quantity kind q), false)
    else none

def printOnce (dialect : Dialect) : (steps : Nat) → List Char → Printout →
    Printout × Option PrintStop
  | 0, _, p => (p, none)
  | steps + 1, cs, p =>
    match cs with
    | [] => (p, none)
    | '\\' :: rest =>
      if dialect == .program && rest.head? == some 'c' then (p, some .asked)
      else if dialect == .program && rest.head? == some '"' then
        printOnce dialect steps (rest.drop 1) (p.write ['"'])
      else
        let (chars, rest) := escape dialect false rest
        printOnce dialect steps rest (p.write chars)
    | '%' :: '%' :: rest => printOnce dialect steps rest (p.write ['%'])
    | '%' :: rest =>
      let (fit, after, p) := readFit rest p
      match after with
      | [] => (p, some .missingKind)
      | kind :: after =>
        match writeValue dialect fit kind p with
        | none =>
          let length := rest.length - after.length
          (p, some (.unknownKind (String.ofList ('%' :: rest.take length))))
        | some (p, true) => (p, some .asked)
        | some (p, false) => printOnce dialect steps after p
    | c :: rest => printOnce dialect steps rest (p.write [c])

/-- Writes a format again and again until its values are used up. -/
def printAll (dialect : Dialect) : (rounds : Nat) → List Char → Printout →
    Printout × Option PrintStop
  | 0, _, p => (p, none)
  | rounds + 1, format, p =>
    match printOnce dialect (format.length + 1) format p with
    | (p', some stop) => (p', some stop)
    | (p', none) =>
      if p'.values.isEmpty || p'.values.length = p.values.length then (p', none)
      else printAll dialect rounds format p'

def printFormatted (dialect : Dialect) (format : String) (values : List String) :
    Printout × Option PrintStop :=
  printAll dialect (values.length + 1) format.toList ⟨[], values, []⟩

end TranscodingEngines.Script
