import TranscodingEngines.Host.Script.Builtin.Variables

/-!
# Commands about names

A name stands for a function, a command of the shell, or a program that is looked for in the
directories of the search path; an alias may stand in for it when a script is read.
-/

set_option autoImplicit false

namespace TranscodingEngines.Script

/-! ## Looking for programs -/

/-- Looks for a program in places one after the other. A file that may not be run is remembered, in
case nothing better comes. -/
def searchPlaces (h : Host) (cause : SystemError) : List FilePath → Except SystemError FilePath
  | [] => .error cause
  | path :: rest =>
    match h.find path with
    | .error .noSuchEntry => searchPlaces h cause rest
    | .error .notDirectory => searchPlaces h cause rest
    | .error other => searchPlaces h other rest
    | .ok (_, entry) =>
      let isFile := match entry with
        | .file _ _ => true
        | .program _ _ => true
        | _ => false
      if isFile && entry.permissions?.any h.caller.mayExecute then .ok path
      else searchPlaces h .permissionDenied rest

def placeOfProgram (h : Host) (name : String) : Except SystemError String :=
  (searchPlaces h .noSuchEntry (h.candidates (ofRaw name))).map fun path => toRaw path.text

def programFault (cause : SystemError) : String :=
  match cause with
  | .noSuchEntry => "not found"
  | .notDirectory => "not found"
  | cause => cause.words

def remember (name place : String) : Code Unit :=
  modify fun s => { s with found := s.found.filter (·.1 != name) ++ [(name, place)] }

/-! ## Aliases -/

def aliasRank (name : String) : Nat :=
  let cs := name.toList
  cs.foldl (fun sum c => sum + c.toNat) ((cs.head?.elim 0 Char.toNat) * 16) % 39

def aliasLine (entry : String × String) : String :=
  entry.1 ++ "=" ++ shellQuoted entry.2 ++ "\n"

def aliasCommand (args : List String) : Builtin := do
  let rec go (status : Nat) : List String → Builtin
    | [] => pure (some status)
    | arg :: rest => do
      match splitAssignment (arg.drop 1).toString with
      | (name, some value) =>
        let name := (arg.take 1).toString ++ name
        modify fun s =>
          let isNew := (s.aliases.lookup name).isNone
          { s with aliases :=
            if isNew then s.aliases ++ [(name, value)]
            else s.aliases.map fun a => if a.1 == name then (name, value) else a }
        go status rest
      | (_, none) =>
        match (← get).aliases.lookup arg with
        | some value =>
          let _ ← say (aliasLine (arg, value)).toList 0
          go status rest
        | none =>
          writeComplaint ("alias: " ++ arg ++ " not found\n")
          go 1 rest
  if args.isEmpty then
    let sorted := (← get).aliases.mergeSort fun a b => aliasRank a.1 ≤ aliasRank b.1
    say (sorted.flatMap fun a => (aliasLine a).toList) 0
  else go 0 args

def unaliasCommand (args : List String) : Builtin :=
  withSwitches "a" "" args fun switches => do
    if switches.has 'a' then
      modify fun s => { s with aliases := [] }
      pure (some 0)
    else
      let known := (← get).aliases.map (·.1)
      for name in switches.args do
        if !known.contains name then writeComplaint ("unalias: " ++ name ++ " not found\n")
      modify fun s => { s with aliases := s.aliases.filter fun a => !switches.args.contains a.1 }
      pure (some (if switches.args.all known.contains then 0 else 1))

/-! ## What a name stands for -/

/-- Tells what a name stands for, in a sentence or in a word; the status says whether it stands for
anything. -/
def describe (speaks standardPath : Bool) (name : String) : Code (String × Nat) := do
  let s ← get
  let told (sentence word : String) : Code (String × Nat) :=
    pure ((if speaks then name ++ sentence else word) ++ "\n", 0)
  let missing : Code (String × Nat) := pure (if speaks then name ++ ": not found\n" else "", 127)
  if reservedWords.contains name then told " is a shell keyword" name
  else
    match s.aliases.lookup name with
    | some value =>
      if speaks then told (" is an alias for " ++ value) ""
      else pure ("alias " ++ aliasLine (name, value), 0)
    | none =>
      if name.toList.contains '/' then
        let view ← Task.look
        if view.host.pathExists ⟨ofRaw name⟩ then told (" is " ++ name) name else missing
      else if (s.functions.lookup name).isSome then told " is a shell function" name
      else if isBuiltin name then
        told (if isSpecial name && name != "local" then " is a special shell builtin"
          else " is a shell builtin") name
      else
        match if standardPath then none else s.found.lookup name with
        | some place => told (" is a tracked alias for " ++ place) place
        | none =>
          let h ← lookAround
          let h := if standardPath then { h with searchPath := [⟨"/usr/sbin"⟩, ⟨"/usr/bin"⟩,
            ⟨"/sbin"⟩, ⟨"/bin"⟩] } else h
          match placeOfProgram h name with
          | .ok place => told (" is " ++ place) place
          | .error _ => missing

def typeCommand (args : List String) : Builtin := do
  let rec go (text : String) (status : Nat) : List String → Code (String × Nat)
    | [] => pure (text, status)
    | name :: rest => do
      let (more, found) ← describe true false name
      go (text ++ more) (status ||| found) rest
  let (text, status) ← go "" 0 args
  say text.toList status

def hashCommand (args : List String) : Builtin :=
  withSwitches "r" "" args fun switches => do
    if switches.has 'r' then
      modify fun s => { s with found := [] }
      pure (some 0)
    else if switches.args.isEmpty then
      say ((← get).found.flatMap fun entry => (entry.2 ++ "\n").toList) 0
    else
      let rec go (status : Nat) : List String → Builtin
        | [] => pure (some status)
        | name :: rest => do
          let s ← get
          if (s.functions.lookup name).isSome || isBuiltin name then go status rest
          else
            match placeOfProgram (← lookAround) name with
            | .ok place =>
              remember name place
              go status rest
            | .error _ =>
              complain (name ++ ": not found")
              go 1 rest
      go 0 switches.args

end TranscodingEngines.Script
