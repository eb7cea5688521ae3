import TranscodingEngines.FilePath
import TranscodingEngines.Engine.Availability
import TranscodingEngines.Host.Clock

/-!
# The probe cache

What a probe found out is kept under the path of the executable, and the first record for a path is
never replaced. Paths that name the same file by their components share a record, which keeps the
spelling it was made with. The records are listed in the order of their paths.
-/

set_option autoImplicit false

namespace TranscodingEngines

structure ProbeRecord where
  executable : FilePath
  verdict : Verdict
  probedAt : LocalTime

namespace ProbeRecord

def pass (r : ProbeRecord) : Bool :=
  match r.verdict with
  | .ok _ => true
  | .error _ => false

/-- The version of a tool that works, or the reason why it does not. -/
def diagnostic (r : ProbeRecord) : Option String :=
  match r.verdict with
  | .ok version => version
  | .error reason => some reason.message

def precedes (a b : ProbeRecord) : Bool := a.executable.order b.executable != .gt

end ProbeRecord

/-- The records kept so far, the oldest first. -/
structure ProbeCache where
  kept : List ProbeRecord

namespace ProbeCache

def empty : ProbeCache := ⟨[]⟩

instance : EmptyCollection ProbeCache := ⟨empty⟩

def get? (c : ProbeCache) (path : FilePath) : Option ProbeRecord :=
  c.kept.find? (·.executable.same path)

/-- Keeps a record unless its path has one. -/
def insertIfNew (c : ProbeCache) (r : ProbeRecord) : ProbeCache :=
  match c.get? r.executable with
  | some _ => c
  | none => ⟨c.kept ++ [r]⟩

def size (c : ProbeCache) : Nat := c.kept.length

def isEmpty (c : ProbeCache) : Bool := c.kept.isEmpty

def records (c : ProbeCache) : List ProbeRecord := c.kept.mergeSort ProbeRecord.precedes

end ProbeCache

end TranscodingEngines
