import TranscodingEngines.Host.Script.Tool.Basic
import TranscodingEngines.Host.Script.Condition
import TranscodingEngines.Host.Script.Printing
import TranscodingEngines.Host.Script.Decimal

/-!
# Programs about words and numbers

Words are written and compared, names are taken apart, numbers are counted, and time passes.
-/

set_option autoImplicit false

namespace TranscodingEngines.Script

/-! ## Writing words -/

def echoTool : Tool := fun call => call.finish (echoedByProgram call.args) 0

def ValueFault.programMessage : ValueFault → String
  | notNumeric value => inApostrophes value ++ ": expected a numeric value"
  | leftover value => inApostrophes value ++ ": value not completely converted"
  | outOfRange value => inApostrophes value ++ ": Numerical result out of range"

def printfTool : Tool := fun call => do
  let args := match call.args with
    | "--" :: rest => rest
    | args => args
  match args with
  | [] => call.misuse "missing operand" 1
  | format :: values =>
    let (printout, stop) := printFormatted .program format values
    for fault in printout.faults.reverse do
      call.complain fault.programMessage
    let status := if printout.faults.isEmpty then 0 else 1
    let written := printout.written.reverse
    let refuse (directive : String) : Task Nat := do
      let _ ← Task.write 1 (rawBytes written)
      call.complain (directive ++ ": invalid conversion specification")
      pure 1
    match stop with
    | some .missingKind =>
      let directive := (format.toList.reverse.takeWhile (· != '%')).reverse
      refuse (String.ofList ('%' :: directive))
    | some (.unknownKind directive) => refuse directive
    | some .asked => call.finish written status
    | none =>
      if let value :: _ := printout.values then
        call.complain ("warning: ignoring excess arguments, starting with " ++ inApostrophes value)
      call.finish written status

def conditionTool (isBracket : Bool) : Tool := fun call => do
  match programCondition (← Task.look) isBracket call.args with
  | .ok true => pure 0
  | .ok false => pure 1
  | .error fault =>
    call.complain (fault.message false)
    pure 2

def endTool (status : Nat) : Tool := fun _ => pure status

/-! ## Names -/

def withoutEndSlashes (path : List Char) : List Char :=
  let rest := Text.dropTrailing (· == '/') path
  if rest.isEmpty && !path.isEmpty then ['/'] else rest

def baseName (path : String) : String :=
  let rest := withoutEndSlashes path.toList
  if rest == ['/'] then "/" else String.ofList ((splitWhere (· == '/') rest).getLast?.getD [])

def withoutEnding (ending name : String) : String :=
  if name != ending && name.endsWith ending then
    String.ofList (name.toList.take (name.length - ending.length))
  else name

def directoryName (path : String) : String :=
  let rest := withoutEndSlashes path.toList
  if rest == ['/'] then "/"
  else
    let base := (splitWhere (· == '/') rest).getLast?.getD []
    let front := rest.take (rest.length - base.length)
    if front.isEmpty then "." else String.ofList (withoutEndSlashes front)

def basenameTool : Tool := fun call =>
  let table : SwitchTable :=
    ⟨"az", "s", [("multiple", 'a'), ("suffix", 's'), ("zero", 'z')], true⟩
  call.withSwitches table 1 fun a => do
    let sign := if a.has 'z' then "\x00" else "\n"
    match a.operands with
    | [] => call.misuse "missing operand" 1
    | name :: rest =>
      if a.has 'a' || a.has 's' then
        let ending := (a.value? 's').getD ""
        let names := (name :: rest).map fun name => withoutEnding ending (baseName name) ++ sign
        call.finish (String.join names).toList 0
      else
        match rest with
        | [] => call.finish (baseName name ++ sign).toList 0
        | [ending] => call.finish (withoutEnding ending (baseName name) ++ sign).toList 0
        | _ :: extra :: _ => call.misuse ("extra operand " ++ inApostrophes extra) 1

def dirnameTool : Tool := fun call =>
  call.withSwitches ⟨"z", "", [("zero", 'z')], false⟩ 1 fun a => do
    let sign := if a.has 'z' then "\x00" else "\n"
    if a.operands.isEmpty then call.misuse "missing operand" 1
    else
      let names := a.operands.map fun name => directoryName name ++ sign
      call.finish (String.join names).toList 0

/-! ## Counting -/

/-- A number with decimal places: its value as a multiple of a power of ten. -/
structure PlacedNumber where
  value : Int
  places : Nat

def PlacedNumber.inPlaces (n : PlacedNumber) (places : Nat) : Int :=
  n.value * Nat.pow 10 (places - n.places)

def placedNumber? (text : String) : Option (Option PlacedNumber) :=
  match splitQuantity text.toList with
  | some (.infinite _, []) => some none
  | some (.fraction f, []) =>
    let digits := text.toList.filter fun c => c.isDigit || c == '.' || c.toLower == 'e'
    let (_, places, rest) := splitPlaces 10 digits
    let (exponent, _) := splitExponent 'e' (text.toList.dropWhile fun c => c.toLower != 'e')
    let isPlain := rest.isEmpty || rest.head?.any (·.toLower == 'e')
    let count := if isPlain then ((places.length : Int) - exponent).toNat else 0
    let size : Int := f.numerator * Nat.pow 10 count / f.denominator
    some (some ⟨if f.negative then -size else size, count⟩)
  | _ => none

def writtenNumber (width places : Nat) (value : Int) : String :=
  let digits := toString value.natAbs
  let digits := String.ofList (List.replicate (places + 1 - digits.length) '0') ++ digits
  let body := if places == 0 then digits
    else
      let whole := digits.length - places
      String.ofList (digits.toList.take whole) ++ "." ++ String.ofList (digits.toList.drop whole)
  let sign := if value < 0 then "-" else ""
  let zeros := width - (sign.length + body.length)
  sign ++ String.ofList (List.replicate zeros '0') ++ body

def numberFormatFault? (format : String) : Option String :=
  let rec directives : List Char → List (List Char)
    | [] => []
    | '%' :: '%' :: rest => directives rest
    | '%' :: rest => rest :: directives rest
    | _ :: rest => directives rest
  match directives format.toList with
  | [] => some ("format " ++ inApostrophes format ++ " has no % directive")
  | first :: others =>
    let kind := (first.dropWhile fun c => c.isDigit || "-+#0 '.".toList.contains c).head?
    match kind with
    | none => some ("format " ++ inApostrophes format ++ " ends in %")
    | some c =>
      if !("aAeEfFgG".toList.contains c) then
        some ("format " ++ inApostrophes format ++ " has unknown %" ++ String.singleton c
          ++ " directive")
      else if others.isEmpty then none
      else some ("format " ++ inApostrophes format ++ " has too many % directives")

def writeNumbers (call : ToolCall) (shown : Int → String) (separator : String) (first step : Int)
    (last : Option Int) : (steps : Nat) → (done : Nat) → Task Nat
  | 0, _ => pure 0
  | steps + 1, done => do
    let block := 512
    let isOver (value : Int) : Bool := last.any fun last => if 0 < step then last < value else value < last
    let values := ((List.range block).map fun i => first + step * ((done + i : Nat) : Int)).takeWhile
      fun value => !isOver value
    let texts := values.mapIdx fun i value =>
      (if done + i == 0 then "" else separator) ++ shown value
    let isLast := values.length < block
    let ending := if isLast && done + values.length != 0 then "\n" else ""
    match ← Task.write 1 (bytesOf (String.join texts ++ ending)) with
    | .error cause =>
      call.complain ("write error: " ++ cause.words)
      pure 1
    | .ok () =>
      if isLast then pure 0
      else writeNumbers call shown separator first step last steps (done + block)

def splitAtNumber : List String → List String × List String
  | [] => ([], [])
  | arg :: rest =>
    match arg.toList with
    | '-' :: c :: _ =>
      if c.isDigit || c == '.' then ([], arg :: rest)
      else if arg == "--" then ([], rest)
      else
        let wantsValue := ["-s", "-f", "--separator", "--format"].contains arg
        let (front, back) := splitAtNumber (rest.drop (if wantsValue then 1 else 0))
        (arg :: (if wantsValue then rest.take 1 else []) ++ front, back)
    | _ => ([], arg :: rest)
termination_by args => args.length
decreasing_by
  simp only [List.length_drop, List.length_cons]
  omega

def seqTool : Tool := fun call => do
  let (front, operands) := splitAtNumber call.args
  let table : SwitchTable := ⟨"w", "sf", [("equal-width", 'w'), ("separator", 's'),
    ("format", 'f')], false⟩
  let call' := { call with args := front }
  call'.withSwitches table 1 fun a => do
    let badOperand := operands.find? fun text => (placedNumber? text).isNone
    match operands, badOperand with
    | [], _ => call.misuse "missing operand" 1
    | _ :: _ :: _ :: extra :: _, _ => call.misuse ("extra operand " ++ inApostrophes extra) 1
    | _, some text =>
      match splitQuantity text.toList with
      | some (.notNumber _, []) =>
        call.misuse ("invalid 'not-a-number' argument: " ++ inApostrophes text) 1
      | _ => call.misuse ("invalid floating point argument: " ++ inApostrophes text) 1
    | _, none =>
      let numbers := operands.map fun text => ((placedNumber? text).join, text)
      let one : PlacedNumber := ⟨1, 0⟩
      let (first, step, last) := match numbers with
        | [(last, _)] => (one, one, last)
        | [(first, _), (last, _)] => (first.getD one, one, last)
        | [(first, _), (step, _), (last, _)] => (first.getD one, step.getD one, last)
        | _ => (one, one, none)
      if step.value == 0 then
        call.misuse ("invalid Zero increment value: " ++ inApostrophes (operands.getD 1 "")) 1
      else
        let places := max first.places step.places
        let all := max places ((last.map (·.places)).getD 0)
        let up := Nat.pow 10 (all - places)
        let cut (value : Int) : Int := Int.tdiv value up
        let plain (value : Int) : String := writtenNumber 0 places (cut value)
        let width := if a.has 'w' then
            max (plain (first.inPlaces all)).length
              ((last.map fun n => (plain (n.inPlaces all)).length).getD 0)
          else 0
        let shown (value : Int) : String := writtenNumber width places (cut value)
        let write (shown : Int → String) : Task Nat :=
          writeNumbers call shown ((a.value? 's').getD "\n") (first.inPlaces all)
            (step.inPlaces all) (last.map (·.inPlaces all)) mostPortions 0
        match a.value? 'f' with
        | none => write shown
        | some format =>
          match numberFormatFault? format with
          | some text =>
            call.complain text
            pure 1
          | none =>
            write fun value =>
              String.ofList (printFormatted .program format [plain value]).1.written.reverse

/-! ## Time -/

/-- A span in microseconds: a number with a letter for its unit. Nothing within stands for a span
without end. -/
def timeSpan? (text : String) : Option (Option Nat) :=
  match splitQuantity text.toList with
  | some (quantity, rest) =>
    let unit : Option Nat := match rest with
      | [] => some 1
      | ['s'] => some 1
      | ['m'] => some 60
      | ['h'] => some 3600
      | ['d'] => some 86400
      | _ => none
    match unit, quantity with
    | some unit, .fraction f =>
      if f.negative && f.numerator != 0 then none
      else some (some (f.numerator * unit * 1000000 / f.denominator))
    | some _, .infinite false => some none
    | _, _ => none
  | none => none

def longestSpan : Nat := 10000000000000

def sleepTool : Tool := fun call =>
  call.withSwitches ⟨"", "", [], false⟩ 1 fun a => do
    if a.operands.isEmpty then call.misuse "missing operand" 1
    else
      let wrong := a.operands.filter fun text => (timeSpan? text).isNone
      if wrong.isEmpty then
        let span := a.operands.foldl (fun n text =>
          n + ((timeSpan? text).join).getD longestSpan) 0
        Task.spend span
        pure 0
      else
        for text in wrong do
          call.complain ("invalid time interval " ++ inApostrophes text)
        call.misuse "" 1

/-! ## The machine and the caller -/

def pwdTool : Tool := fun call =>
  call.withSwitches ⟨"LP", "", [("logical", 'L'), ("physical", 'P')], false⟩ 1 fun a => do
    if !a.operands.isEmpty then call.complain "ignoring non-option arguments"
    let view ← Task.look
    call.finish (ended (toRaw view.host.workingDirectory.text).toList) 0

def unameTool : Tool := fun call =>
  let table : SwitchTable := ⟨"asnrvmpio", "", [("all", 'a'), ("kernel-name", 's'),
    ("nodename", 'n'), ("machine", 'm'), ("operating-system", 'o')], false⟩
  call.withSwitches table 1 fun a => do
    match a.operands with
    | extra :: _ => call.misuse ("extra operand " ++ inApostrophes extra) 1
    | [] =>
      let facts : List (Char × String) := [('s', "Linux"), ('n', "localhost"), ('r', "6.8.0"),
        ('v', "#1 SMP"), ('m', "x86_64"), ('p', "x86_64"), ('i', "x86_64"), ('o', "GNU/Linux")]
      let wanted := facts.filter fun fact =>
        a.has 'a' || a.has fact.1 || (a.switches.isEmpty && fact.1 == 's')
      call.finish (" ".intercalate (wanted.map (·.2)) ++ "\n").toList 0

def userName (user : Nat) : String := if user == 0 then "root" else toString user

def idTool : Tool := fun call =>
  call.withSwitches ⟨"agGnruz", "", [("user", 'u'), ("group", 'g'), ("groups", 'G'),
    ("name", 'n')], false⟩ 1 fun a => do
    let caller := (← Task.look).host.caller
    let shown (n : Nat) : String := if a.has 'n' then userName n else toString n
    match a.operands with
    | name :: _ =>
      if name != "root" then
        call.complain (inApostrophes name ++ ": no such user")
        return 1
    | [] => pure ()
    let group := caller.groups.headD 0
    let both (n : Nat) : String := toString n ++ "(" ++ userName n ++ ")"
    let text :=
      if a.has 'u' then shown caller.user
      else if a.has 'g' then shown group
      else if a.has 'G' then " ".intercalate (caller.groups.map shown)
      else "uid=" ++ both caller.user ++ " gid=" ++ both group ++ " groups="
        ++ ",".intercalate (caller.groups.map both)
    call.finish (ended text.toList) 0

def whoamiTool : Tool := fun call =>
  call.withSwitches ⟨"", "", [], false⟩ 1 fun a => do
    match a.operands with
    | extra :: _ => call.misuse ("extra operand " ++ inApostrophes extra) 1
    | [] => call.finish (ended (userName (← Task.look).host.caller.user).toList) 0

def printenvTool : Tool := fun call =>
  call.withSwitches ⟨"0", "", [], true⟩ 2 fun a => do
    if a.operands.isEmpty then
      let lines := call.environment.map fun v => v.1 ++ "=" ++ v.2 ++ "\n"
      call.finish (String.join lines).toList 0
    else
      let found := a.operands.filterMap fun name => call.environment.lookup name
      call.finish (found.flatMap fun value => ended value.toList)
        (if found.length == a.operands.length then 0 else 1)

end TranscodingEngines.Script
