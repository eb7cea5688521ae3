import TranscodingEngines.Host.Script.Tool.Basic
import TranscodingEngines.Host.Script.Builtin.Places

/-!
# Programs that change files

Directories and files are made, removed, copied, moved, linked and listed. A program goes on with its
next operand when one cannot be dealt with, and then has the status one.
-/

set_option autoImplicit false

namespace TranscodingEngines.Script

def named (name : String) : String := "'" ++ name ++ "'"

/-- Deals with operands one after the other; the status is one unless all went well. -/
def overOperands (names : List String) (one : String → Task Bool) : Task Nat := do
  let mut status := 0
  for name in names do
    if !(← one name) then status := 1
  pure status

def ToolCall.cannot (call : ToolCall) (what : String) (cause : SystemError) : Task Bool := do
  call.complain (what ++ ": " ++ cause.words)
  pure false

def sayWhat (isAsked : Bool) (text : String) : Task Unit := do
  if isAsked then
    let _ ← Task.write 1 (bytesOf (text ++ "\n"))

def entryAt (name : String) : Task (Except SystemError (Location × TreeEntry)) := do
  let view ← Task.look
  if name.isEmpty then pure (.error .noSuchEntry) else pure (view.host.find ⟨ofRaw name⟩)

def entryNamed (name : String) : Task (Except SystemError (Location × TreeEntry)) := do
  let view ← Task.look
  if name.isEmpty then pure (.error .noSuchEntry)
  else
    match view.host.followName ⟨ofRaw name⟩ with
    | .ok (.entry at_ entry) =>
      let isDirectory := match entry with
        | .directory _ => true
        | _ => false
      if name.endsWith "/" && !isDirectory then pure (view.host.find ⟨ofRaw name⟩)
      else pure (.ok (at_, entry))
    | .ok (.free _ _) => pure (.error .noSuchEntry)
    | .error cause => pure (.error cause)

def isDirectoryAt (name : String) : Task Bool := do
  match ← entryAt name with
  | .ok (_, .directory _) => pure true
  | _ => pure false

def lastName (path : String) : String := ((stepsOf path).getLast?).getD path

def within (directory name : String) : String :=
  if directory.endsWith "/" then directory ++ name else directory ++ "/" ++ name

def namesIn (directory : String) : Task (List String) := do
  let view ← Task.look
  match view.host.list ⟨ofRaw directory⟩ with
  | .ok names => pure (names.map toRaw)
  | .error _ => pure []

def changeFiles (change : Change) : Task (Except SystemError Unit) := Task.change change

/-! ## Directories -/

def pathsTo (path : String) : List String :=
  let front := if path.startsWith "/" then "/" else ""
  let steps := stepsOf path
  (List.range steps.length).map fun i => front ++ "/".intercalate (steps.take (i + 1))

def mkdirTool : Tool := fun call =>
  let table : SwitchTable := ⟨"pv", "m", [("parents", 'p'), ("verbose", 'v'), ("mode", 'm')], false⟩
  call.withSwitches table 1 fun a => do
    if a.operands.isEmpty then return (← call.misuse "missing operand" 1)
    let make (name : String) : Task Bool := do
      match ← changeFiles (.makeDirectory ⟨ofRaw name⟩) with
      | .ok () =>
        sayWhat (a.has 'v') (call.name ++ ": created directory " ++ named name)
        pure true
      | .error cause => call.cannot ("cannot create directory " ++ named name) cause
    overOperands a.operands fun name => do
      let made ← (do
        if !a.has 'p' then make name
        else
          let mut fine := true
          for path in pathsTo name do
            if fine && !(← isDirectoryAt path) then
              match ← entryAt path with
              | .ok _ =>
                let cause := if path == "/".intercalate (stepsOf name) || path == name then
                  SystemError.alreadyExists else .notDirectory
                fine ← call.cannot ("cannot create directory " ++ named path) cause
              | .error _ => fine ← make path
          pure fine : Task Bool)
      match made, (a.value? 'm').bind octalMode? with
      | true, some mode =>
        let _ ← changeFiles (.permit ⟨ofRaw name⟩ mode)
        pure true
      | made, _ => pure made

def rmdirTool : Tool := fun call =>
  call.withSwitches ⟨"pv", "", [("parents", 'p'), ("verbose", 'v')], false⟩ 1 fun a => do
    if a.operands.isEmpty then return (← call.misuse "missing operand" 1)
    overOperands a.operands fun name => do
      let mut fine := true
      for path in if a.has 'p' then (pathsTo name).reverse else [name] do
        if fine then
          match ← changeFiles (.removeDirectory ⟨ofRaw path⟩) with
          | .ok () => sayWhat (a.has 'v') (call.name ++ ": removing directory, " ++ named path)
          | .error cause => fine ← call.cannot ("failed to remove " ++ named path) cause
      pure fine

def removeTree (call : ToolCall) (verbose : Bool) : (depth : Nat) → String → Task Bool
  | 0, _ => pure false
  | depth + 1, path => do
    let isDirectory := match ← entryNamed path with
      | .ok (_, .directory _) => true
      | _ => false
    let mut fine := true
    if isDirectory then
      for name in ← namesIn path do
        if !(← removeTree call verbose depth (within path name)) then fine := false
    if !fine then pure false
    else
      let change : Change :=
        if isDirectory then .removeDirectory ⟨ofRaw path⟩ else .remove ⟨ofRaw path⟩
      match ← changeFiles change with
      | .ok () =>
        sayWhat verbose ("removed " ++ (if isDirectory then "directory " else "") ++ named path)
        pure true
      | .error cause => call.cannot ("cannot remove " ++ named path) cause

def deepest : Nat := 1000

def rmTool : Tool := fun call =>
  let table : SwitchTable := ⟨"dfiIrRv", "", [("force", 'f'), ("recursive", 'r'), ("dir", 'd'),
    ("verbose", 'v')], false⟩
  call.withSwitches table 1 fun a => do
    if a.operands.isEmpty then
      return (← if a.has 'f' then pure 0 else call.misuse "missing operand" 1)
    let recursive := a.has 'r' || a.has 'R'
    overOperands a.operands fun name => do
      if recursive && (stepsOf name).isEmpty && name.startsWith "/" then
        call.complain ("it is dangerous to operate recursively on " ++ named name)
        call.complain "use --no-preserve-root to override this failsafe"
        pure false
      else if recursive && [".", ".."].contains (lastName name) then
        call.complain ("refusing to remove '.' or '..' directory: skipping " ++ named name)
        pure false
      else
        match ← entryNamed name with
        | .error cause =>
          if a.has 'f' && (cause == .noSuchEntry || cause == .notDirectory) then pure true
          else call.cannot ("cannot remove " ++ named name) cause
        | .ok (_, .directory _) =>
          if recursive then removeTree call (a.has 'v') deepest name
          else if a.has 'd' then
            match ← changeFiles (.removeDirectory ⟨ofRaw name⟩) with
            | .ok () => pure true
            | .error cause => call.cannot ("cannot remove " ++ named name) cause
          else call.cannot ("cannot remove " ++ named name) .isDirectory
        | .ok _ =>
          match ← changeFiles (.remove ⟨ofRaw name⟩) with
          | .ok () =>
            sayWhat (a.has 'v') ("removed " ++ named name)
            pure true
          | .error cause => call.cannot ("cannot remove " ++ named name) cause

/-! ## Files -/

def touchTool : Tool := fun call =>
  call.withSwitches ⟨"acfhm", "drt", [("no-create", 'c')], false⟩ 1 fun a => do
    if a.operands.isEmpty then return (← call.misuse "missing file operand" 1)
    overOperands a.operands fun name => do
      match ← entryAt name with
      | .ok _ => pure true
      | .error cause =>
        if a.has 'c' && cause == .noSuchEntry then pure true
        else if name.endsWith "/" then
          call.cannot ("setting times of " ++ named name) cause
        else if name.isEmpty then call.cannot ("cannot touch " ++ named name) cause
        else
          match ← changeFiles (.write ⟨ofRaw name⟩ []) with
          | .ok () => pure true
          | .error cause => call.cannot ("cannot touch " ++ named name) cause

def permitTree (call : ToolCall) (newMode : TreeEntry → Option Nat) (recursive : Bool) :
    (depth : Nat) → String → Task Bool
  | 0, _ => pure false
  | depth + 1, path => do
    match ← entryAt path with
    | .error cause => call.cannot ("cannot access " ++ named path) cause
    | .ok (_, entry) =>
      let changed ← (do
        match newMode entry with
        | none => pure true
        | some mode =>
          match ← changeFiles (.permit ⟨ofRaw path⟩ mode) with
          | .ok () => pure true
          | .error cause => call.cannot ("changing permissions of " ++ named path) cause :
            Task Bool)
      match recursive, entry with
      | true, .directory _ =>
        let mut fine := changed
        for name in ← namesIn path do
          if !(← permitTree call newMode true depth (within path name)) then fine := false
        pure fine
      | _, _ => pure changed

def chmodTool : Tool := fun call => do
  let isMode (arg : String) : Bool :=
    arg.startsWith "-" && !(arg.drop 1).isEmpty && (arg.drop 1).all "rwxXst,=+-ugoa".toList.contains
  let switches := call.args.filter fun arg => arg.startsWith "-" && !isMode arg && arg != "--"
  let rest := call.args.filter fun arg => !(switches.contains arg) && arg != "--"
  match SwitchTable.read ⟨"cfvR", "", [("recursive", 'R')], false⟩ switches with
  | .error text => call.misuse text 1
  | .ok a =>
    match rest with
    | [] => call.misuse "missing operand" 1
    | [mode] => call.misuse ("missing operand after " ++ named mode) 1
    | mode :: names =>
      let view ← Task.look
      let newMode (entry : TreeEntry) : Option Nat :=
        let isDirectory := match entry with
          | .directory _ => true
          | _ => false
        match octalMode? mode with
        | some n => some n
        | none =>
          applyModes isDirectory view.umask ((entry.permissions?.map (·.mode)).getD 0) mode
      if (newMode (.link "")).isNone || (octalMode? mode).any (0o7777 < ·) then
        call.misuse ("invalid mode: " ++ named mode) 1
      else overOperands names (permitTree call newMode (a.has 'R') deepest)

def copyTree (call : ToolCall) (recursive verbose : Bool) : (depth : Nat) → (source target : String) →
    Task Bool
  | 0, _, _ => pure false
  | depth + 1, source, target => do
    let tell : Task Unit := sayWhat verbose (named source ++ " -> " ++ named target)
    let permitAs (permissions : Permissions) : Task Unit := do
      let view ← Task.look
      let mode := permissions.mode &&& (0o777 - view.umask % 512)
      let _ ← changeFiles (.permit ⟨ofRaw target⟩ mode)
    match ← entryAt source with
    | .error cause => call.cannot ("cannot stat " ++ named source) cause
    | .ok (_, .directory permissions) =>
      if !recursive then
        call.complain ("-r not specified; omitting directory " ++ named source)
        pure false
      else
        let mut fine := true
        if !(← isDirectoryAt target) then
          match ← changeFiles (.makeDirectory ⟨ofRaw target⟩) with
          | .ok () =>
            tell
            permitAs permissions
          | .error cause => fine ← call.cannot ("cannot create directory " ++ named target) cause
        if !fine then pure false
        else
          for name in ← namesIn source do
            if !(← copyTree call recursive verbose depth (within source name) (within target name))
            then fine := false
          pure fine
    | .ok (at_, entry) =>
      let there ← entryAt target
      if there.toOption.any (·.1 == at_) then
        call.complain (named source ++ " and " ++ named target ++ " are the same file")
        pure false
      else
        match ← readPath source with
        | .error cause => call.cannot ("cannot open " ++ named source ++ " for reading") cause
        | .ok bytes =>
          let written ← if target.isEmpty then pure (.error .noSuchEntry)
            else changeFiles (.write ⟨ofRaw target⟩ bytes)
          match written with
          | .ok () =>
            tell
            match there, entry.permissions? with
            | .error _, some permissions => permitAs permissions
            | _, _ => pure ()
            pure true
          | .error cause =>
            let cause := if cause == .isDirectory then .notDirectory else cause
            call.cannot ("cannot create regular file " ++ named target) cause

/-- Carries a program out on pairs of paths: one path and another, or several and a directory. -/
def onPairs (call : ToolCall) (operands : List String) (pair : String → String → Task Bool) :
    Task Nat := do
  match operands.reverse with
  | [] => call.misuse "missing file operand" 1
  | [only] => call.misuse ("missing destination file operand after " ++ named only) 1
  | target :: sources =>
    let isDirectory ← isDirectoryAt target
    if isDirectory then
      overOperands sources.reverse fun source => pair source (within target (lastName source))
    else
      match sources with
      | [source] => overOperands [source] fun source => pair source target
      | _ =>
        let cause := match ← entryAt target with
          | .ok _ => SystemError.notDirectory
          | .error cause => cause
        call.complain ("target " ++ named target ++ ": " ++ cause.words)
        pure 1

def withTarget (a : Arguments) : List String := a.operands ++ (a.value? 't').toList

def cpTool : Tool := fun call =>
  let table : SwitchTable := ⟨"abdfiHlLnPprRsTuvx", "tS", [("recursive", 'r'), ("force", 'f'),
    ("verbose", 'v'), ("archive", 'a'), ("no-clobber", 'n'), ("target-directory", 't')], false⟩
  call.withSwitches table 1 fun a => do
    onPairs call (withTarget a) fun source target => do
      if a.has 'n' && (← entryAt target).isOk then pure true
      else copyTree call ("arR".toList.any a.has) (a.has 'v') deepest source target

def mvTool : Tool := fun call =>
  let table : SwitchTable := ⟨"bfinTuv", "tS", [("force", 'f'), ("verbose", 'v'),
    ("no-clobber", 'n'), ("target-directory", 't')], false⟩
  call.withSwitches table 1 fun a => do
    onPairs call (withTarget a) fun source target => do
      match ← entryNamed source, ← entryNamed target with
      | .error cause, _ => call.cannot ("cannot stat " ++ named source) cause
      | .ok (at_, _), there =>
        if a.has 'n' && there.isOk then pure true
        else if there.toOption.any (·.1 == at_) then
          call.complain (named source ++ " and " ++ named target ++ " are the same file")
          pure false
        else
          match ← changeFiles (.rename ⟨ofRaw source⟩ ⟨ofRaw target⟩) with
          | .ok () =>
            sayWhat (a.has 'v') ("renamed " ++ named source ++ " -> " ++ named target)
            pure true
          | .error .invalidArgument =>
            call.complain ("cannot move " ++ named source ++ " to a subdirectory of itself, "
              ++ named target)
            pure false
          | .error .notEmpty => call.cannot ("cannot overwrite " ++ named target) .notEmpty
          | .error cause =>
            call.cannot ("cannot move " ++ named source ++ " to " ++ named target) cause

def lnTool : Tool := fun call =>
  let table : SwitchTable := ⟨"bfinLPrsTv", "tS", [("symbolic", 's'), ("force", 'f'),
    ("verbose", 'v')], false⟩
  call.withSwitches table 1 fun a => do
    let link (source target : String) : Task Bool := do
      if a.has 'f' && (← entryNamed target).isOk then
        let _ ← changeFiles (.remove ⟨ofRaw target⟩)
      if a.has 's' then
        match ← changeFiles (.link (ofRaw source) ⟨ofRaw target⟩) with
        | .ok () => pure true
        | .error cause => call.cannot ("failed to create symbolic link " ++ named target) cause
      else
        match ← entryAt source, ← entryNamed target with
        | .error cause, _ => call.cannot ("failed to access " ++ named source) cause
        | .ok _, .ok _ =>
          call.cannot ("failed to create hard link " ++ named target) .alreadyExists
        | .ok _, .error _ => copyTree call false false deepest source target
    match a.operands with
    | [] => call.misuse "missing file operand" 1
    | [only] => overOperands [only] fun source => link source ("./" ++ lastName source)
    | operands => onPairs call operands link

/-! ## Telling about files -/

/-- The path without links that a path leads to; its last name may be missing if that is allowed. -/
def wholePath? (mayMiss : Bool) (path : String) : Task (Option String) := do
  let view ← Task.look
  match view.host.files.follow view.host.caller view.host.directory .file ⟨ofRaw path⟩ with
  | .ok (.entry at_ _) => pure (some (toRaw (Host.pathOf at_).text))
  | .ok (.free at_ _) => pure (if mayMiss then some (toRaw (Host.pathOf at_).text) else none)
  | .error _ => pure none

/-- Writes what links say, or where paths lead in the end. -/
def readlinkTool : Tool := fun call =>
  let table : SwitchTable := ⟨"femnqsvz", "", [("canonicalize", 'f')], false⟩
  call.withSwitches table 1 fun a => do
    if a.operands.isEmpty then return (← call.misuse "missing operand" 1)
    overOperands a.operands fun name => do
      let found ← (do
        if a.has 'f' || a.has 'm' then wholePath? true name
        else if a.has 'e' then wholePath? false name
        else
          match ← entryNamed name with
          | .ok (_, .link target) => pure (some (toRaw target))
          | _ => pure none : Task (Option String))
      match found with
      | none => pure false
      | some text =>
        let _ ← Task.write 1 (bytesOf (text ++ (if a.has 'n' then "" else "\n")))
        pure true

def listDirectory (a : Arguments) (shown : String → String → Task String) : (depth : Nat) →
    (titled : Bool) → String → Task String
  | 0, _, _ => pure ""
  | depth + 1, titled, path => do
    let names ← namesIn path
    let hidden (name : String) : Bool := name.startsWith "."
    let names := if a.has 'a' then "." :: ".." :: names
      else if a.has 'A' then names
      else names.filter (!hidden ·)
    let names := if a.has 'r' then names.reverse else names
    let mut text := if titled then shownName path ++ ":\n" else ""
    for name in names do
      text := text ++ (← shown (within path name) name) ++ "\n"
    if a.has 'R' then
      for name in names do
        if name != "." && name != ".." then
          if ← isDirectoryAt (within path name) then
            text := text ++ "\n" ++ (← listDirectory a shown depth true (within path name))
    pure text

def lsTool : Tool := fun call =>
  let isColour (arg : String) : Bool := arg.startsWith "--color"
  let call := { call with args := call.args.filter fun arg => !isColour arg }
  let table : SwitchTable := ⟨"aAbBcCdfFgGhHiklLmnNopqQrRsStuUvxXZ1", "ITw",
    [("all", 'a'), ("almost-all", 'A'), ("directory", 'd'), ("recursive", 'R'), ("reverse", 'r'),
      ("classify", 'F')], false⟩
  call.withSwitches table 2 fun a => do
    let shown (path name : String) : Task String := do
      if !(a.has 'F' || a.has 'p') then return name
      match ← entryNamed path with
      | .ok (_, .directory _) => pure (name ++ "/")
      | .ok (_, .link _) => pure (if a.has 'F' then name ++ "@" else name)
      | .ok (_, entry) =>
        let runs := entry.permissions?.any fun p => p.mode &&& 0o111 != 0
        pure (if a.has 'F' && runs then name ++ "*" else name)
      | .error _ => pure name
    let names := if a.operands.isEmpty then ["."] else a.operands
    let mut files : List String := []
    let mut directories : List String := []
    let mut status := 0
    for name in names do
      match ← entryAt name with
      | .ok (_, .directory _) =>
        if a.has 'd' then files := files ++ [name] else directories := directories ++ [name]
      | .ok _ => files := files ++ [name]
      | .error cause =>
        match ← entryNamed name with
        | .ok _ => files := files ++ [name]
        | .error _ =>
          let _ ← call.cannot ("cannot access " ++ named name) cause
          status := 2
    let inOrder (found : List String) : List String :=
      let sorted := found.mergeSort fun x y => !(y < x)
      if a.has 'r' then sorted.reverse else sorted
    let mut blocks : List String := []
    if !files.isEmpty then
      let lines ← (inOrder files).mapM fun name => shown name name
      blocks := [String.join (lines.map (· ++ "\n"))]
    let titled := 1 < names.length || a.has 'R'
    for name in inOrder directories do
      blocks := blocks ++ [← listDirectory a shown deepest titled name]
    call.finish ("\n".intercalate blocks).toList status

end TranscodingEngines.Script
