import TranscodingEngines.Text.Blank
import TranscodingEngines.Text.Letters

/-!
# Engine identifiers

An identifier names an engine wherever one is configured or asked for. Identifiers made from a text
are trimmed; those read back from stored data are taken as they stand. Two identifiers are equal up
to the case of ASCII letters. A raw text matches an identifier when it does so after trimming; only
the raw text is trimmed.
-/

set_option autoImplicit false

namespace TranscodingEngines

structure EngineId where
  text : String
  deriving DecidableEq, Repr, Inhabited

namespace EngineId

/-- The identifier that a text spells, without the blank characters around it. -/
def ofText (s : String) : EngineId := ⟨Text.trim s⟩

/-- The identifier that stored data spell, exactly as they stand. -/
def ofStored (s : String) : EngineId := ⟨s⟩

def same (a b : EngineId) : Bool := Text.sameLetters a.text b.text

def isNamedBy (a : EngineId) (raw : String) : Bool := Text.sameLetters a.text (Text.trim raw)

@[simp]
theorem same_self (a : EngineId) : a.same a = true := by
  simp [same]

theorem same_comm (a b : EngineId) : a.same b = b.same a :=
  Text.sameLetters_comm a.text b.text

end EngineId

end TranscodingEngines
