/-!
# The machine's platform

The facts about the machine that decide which engines can work on it: the operating system, the word
size, and whether the AviSynth runtime is installed.
-/

set_option autoImplicit false

namespace TranscodingEngines

inductive OperatingSystem where
  | windows
  | linux
  | macOs
  | other
  deriving DecidableEq, Repr

structure Platform where
  os : OperatingSystem
  is64Bit : Bool
  avisynthInstalled : Bool
  deriving DecidableEq, Repr

namespace Platform

/-- The platform of an ordinary server: Linux on a 64-bit machine. -/
def linux64 : Platform := ⟨.linux, true, false⟩

def isWindows (p : Platform) : Bool := p.os == .windows

def isLinux (p : Platform) : Bool := p.os == .linux

end Platform

end TranscodingEngines
