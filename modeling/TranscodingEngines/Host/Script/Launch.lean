import TranscodingEngines.Host.System
import TranscodingEngines.Host.Script.Session
import TranscodingEngines.Host.Script.Tool.Columns
import TranscodingEngines.Host.Script.Tool.Editing
import TranscodingEngines.Host.Script.Tool.Expr
import TranscodingEngines.Host.Script.Tool.Files
import TranscodingEngines.Host.Script.Tool.Lines
import TranscodingEngines.Host.Script.Tool.Runners
import TranscodingEngines.Host.Script.Tool.Search
import TranscodingEngines.Host.Script.Tool.Words

/-!
# Starting programs

A loaded program becomes a task: the shell with its command line, or one of the small programs. A
program that is started by the host finds the search path, the home directory and the working
directory in its environment. Other executable files are not loaded by this system.
-/

set_option autoImplicit false

namespace TranscodingEngines.Script

/-- What a program other than the shell does; programs that run others know how those start. -/
def toolOf (start : Start) : Utility → Tool
  | .basename => basenameTool
  | .bracket => conditionTool true
  | .cat => catTool
  | .chmod => chmodTool
  | .cp => cpTool
  | .cut => cutTool
  | .dirname => dirnameTool
  | .echo => echoTool
  | .env => envTool start
  | .expr => exprTool
  | .false => endTool 1
  | .grep => grepTool
  | .head => headTool
  | .id => idTool
  | .kill => killTool
  | .ln => lnTool
  | .ls => lsTool
  | .mkdir => mkdirTool
  | .mv => mvTool
  | .nice => niceTool start
  | .nl => nlTool
  | .nohup => nohupTool start
  | .paste => pasteTool
  | .printenv => printenvTool
  | .printf => printfTool
  | .pwd => pwdTool
  | .readlink => readlinkTool
  | .rev => revTool
  | .rm => rmTool
  | .rmdir => rmdirTool
  | .sed => sedTool
  | .seq => seqTool
  | .setsid => setsidTool start
  | .shell => endTool 0
  | .sleep => sleepTool
  | .sort => sortTool
  | .tac => tacTool
  | .tail => tailTool
  | .tee => teeTool
  | .test => conditionTool false
  | .timeout => timeoutTool start
  | .touch => touchTool
  | .tr => trTool
  | .true => endTool 0
  | .uname => unameTool
  | .uniq => uniqTool
  | .wc => wcTool
  | .whoami => whoamiTool
  | .xargs => xargsTool start
  | .yes => yesTool

/-- Starts a program. `changes` bounds how often a process may become another program. -/
def startImage : (changes : Nat) → Start
  | 0, _, _ => .exit 126
  | changes + 1, image, environment =>
    let start := startImage changes
    match image.utility with
    | .shell => shellAct start image.name image.args environment
    | utility => toolOf start utility ⟨image.name, image.args, environment⟩ .exit

def mostChanges : Nat := 1000000

def firstEnvironment (h : Host) : List (String × String) :=
  let path := ":".intercalate (h.searchPath.map (·.text))
  let home := match h.home with
    | some path => [("HOME", toRaw path.text)]
    | none => []
  [("PATH", toRaw path)] ++ home ++ [("PWD", toRaw h.workingDirectory.text)]

def mostSteps : Nat := 1500000

def launch (h : Host) (image : Image) : Machine :=
  let raw : Image := { image with name := toRaw image.name, args := image.args.map toRaw }
  Machine.start h (startImage mostChanges raw (firstEnvironment h))

def system : System where
  Loaded := Image
  UnderWay := Machine
  load h call := h.load call.program.text call.args
  start := launch
  advance moment m := m.runUntil moment mostSteps
  ending? := Machine.ending?
  writtenTo := Machine.writtenTo
  closedAt? := Machine.closedAt?
  hostNow := Machine.hostNow

end TranscodingEngines.Script
