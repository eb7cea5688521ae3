import TranscodingEngines.Host.Script.Expansion

/-!
# Redirections

Before a command runs, its streams are connected to other places, and after it they are put back.
For that, what a stream was connected to is kept under a number that scripts do not use.
-/

set_option autoImplicit false

namespace TranscodingEngines.Script

inductive Route where
  | file (stream : Nat) (opening : Opening) (name : String)
  | copy (stream source : Nat)
  | close (stream : Nat)
  | text (stream : Nat) (chars : List Char)

def Route.stream : Route → Nat
  | file stream _ _ => stream
  | copy stream _ => stream
  | close stream => stream
  | text stream _ => stream

structure KeptStream where
  stream : Nat
  spare : Option Nat
  deriving DecidableEq, Repr

def routesOf (capture : Capture) (depth : Nat) : List Redirection → Code (List Route)
  | [] => pure []
  | redirection :: rest => do
    let route : Option Route ← match redirection with
      | .file stream opening name =>
        pure (some (.file stream opening (← expandText capture depth name)))
      | .document stream number =>
        let word := ((← get).documents.lookup number).getD []
        let text ← expandToText capture depth .forPlainText word
        pure (some (.text stream text.toList))
      | .copy stream target =>
        let text ← expandText capture depth target
        match text.toList with
        | ['-'] => pure (some (.close stream))
        | [c] =>
          if c.isDigit then pure (some (.copy stream (c.toNat - '0'.toNat)))
          else
            giveUp "Syntax error: Bad fd number"
            pure none
        | _ =>
          giveUp "Syntax error: Bad fd number"
          pure none
    if ← isRunning then return route.toList ++ (← routesOf capture depth rest) else pure []

def openFault (opening : Opening) (name : String) (cause : SystemError) : String :=
  let verb := if opening == .read then "open" else "create"
  let reason :=
    match cause with
    | .noSuchEntry | .notDirectory =>
      if opening == .read then "No such file" else "Directory nonexistent"
    | cause => cause.words
  "cannot " ++ verb ++ " " ++ name ++ ": " ++ reason

def keepStream (stream : Nat) : Code KeptStream := do
  let view ← Task.look
  match view.channel? stream with
  | none => pure ⟨stream, none⟩
  | some _ =>
    let spare := ((List.range 200).drop 10).find? fun n => (view.channel? n).isNone
    match spare with
    | none => pure ⟨stream, none⟩
    | some spare =>
      let _ ← Task.copy stream spare
      pure ⟨stream, some spare⟩

def putBack : List KeptStream → Code Unit
  | [] => pure ()
  | kept :: rest => do
    putBack rest
    match kept.spare with
    | none => Task.close kept.stream
    | some spare =>
      let _ ← Task.copy spare kept.stream
      Task.close spare

def forgetKept : List KeptStream → Code Unit
  | [] => pure ()
  | kept :: rest => do
    if let some spare := kept.spare then Task.close spare
    forgetKept rest

/-- Follows a route; the words say what went wrong. A stream that cannot be connected to another one
is closed by then. -/
def follow : Route → Code (Option String)
  | .file stream opening name => do
    let s ← get
    let path : FilePath := ⟨ofRaw name⟩
    let view ← Task.look
    let isThere (_ : Unit) : Bool := match view.host.find path with
      | .ok (_, .file _ _) => true
      | .ok (_, .program _ _) => true
      | _ => false
    if opening == .write && s.hasOption 'C' && isThere () then
      pure (some (openFault opening name .alreadyExists))
    else
      match ← Task.connect stream opening path with
      | .ok () => pure none
      | .error cause => pure (some (openFault opening name cause))
  | .copy stream source => do
    if ← Task.copy source stream then pure none
    else
      Task.close stream
      pure (some (toString source ++ ": " ++ SystemError.badStream.words))
  | .close stream => do
    Task.close stream
    pure none
  | .text stream chars => do
    let (reading, writing) ← Task.pipe
    let bytes := rawBytes chars
    if bytes.length ≤ Machine.pipeSize then
      let _ ← Task.write writing bytes
    else
      let _ ← Task.fork fun _ => .close reading fun _ => .write writing bytes fun _ => .exit 0
    Task.close writing
    let _ ← Task.copy reading stream
    Task.close reading
    pure none

/-- Follows routes as long as nothing goes wrong, and keeps what the streams were connected to. What
went wrong is complained about. -/
def followAll : List Route → List KeptStream → Code (List KeptStream × Bool)
  | [], kept => pure (kept, true)
  | route :: rest, kept => do
    let kept ←
      if kept.any (·.stream == route.stream) then pure kept
      else
        let more ← keepStream route.stream
        pure (kept ++ [more])
    match ← follow route with
    | none => followAll rest kept
    | some text =>
      complain text
      pure (kept, false)

def rerouted (capture : Capture) (depth : Nat) (redirections : List Redirection)
    (body : Code Unit) : Code Unit := do
  if redirections.isEmpty then body
  else
    let routes ← routesOf capture depth redirections
    if ← isRunning then
      let (kept, done) ← followAll routes []
      if done then body else setStatus 2
      putBack kept

end TranscodingEngines.Script
