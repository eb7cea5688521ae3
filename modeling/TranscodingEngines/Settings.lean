import TranscodingEngines.Engine.Basic

/-!
# Settings and priority

The settings answer three questions about an engine: whether it is enabled, what its rank is, and
which role is preferred for it. A rank is an unsigned 64-bit number, and an engine without a rank
is put on the largest one. Engines are kept in the order of their ranks, and those of equal rank
stay in the order they were in.
-/

set_option autoImplicit false

namespace TranscodingEngines

structure Settings where
  isEnabled : EngineId → Bool
  rank : EngineId → Option UInt64
  preferredRole : EngineId → Option Role

def unranked : UInt64 := UInt64.ofNat 18446744073709551615

def Settings.rankOf (s : Settings) (e : Engine) : UInt64 := (s.rank e.id).getD unranked

def sortByPriority (s : Settings) (engines : List Engine) : List Engine :=
  engines.mergeSort fun a b => s.rankOf a ≤ s.rankOf b

/-- The settings of someone who has none: every engine is enabled, none is ranked. -/
def Settings.none : Settings := ⟨fun _ => true, fun _ => .none, fun _ => .none⟩

def EngineId.position (id : EngineId) (entries : List String) : Option Nat :=
  entries.findIdx? id.isNamedBy

/-- The value that goes with the first key that spells the identifier. -/
def EngineId.lookup {α : Type} (id : EngineId) (entries : List (String × α)) : Option α :=
  (entries.find? fun entry => id.isNamedBy entry.1).map (·.2)

/-- Settings that list the disabled engines, the engines by priority, and the preferred roles. The
entries of all three are raw texts. -/
def Settings.ofLists (disabled priority : List String) (roles : List (String × Role)) :
    Settings where
  isEnabled id := !disabled.any id.isNamedBy
  rank id := (id.position priority).map UInt64.ofNat
  preferredRole id := id.lookup roles

end TranscodingEngines
