/-!
# Executable roles

An engine can be backed by up to three binaries, told apart by the role they play. `PerRole` holds
one value for each role, so a table of roles is a value with three fields, and the order in which
its fields were filled leaves no trace.
-/

set_option autoImplicit false

namespace TranscodingEngines

inductive Role where
  | bundled
  /-- Found on the machine, as a rule through the search path. -/
  | installed
  | custom
  deriving DecidableEq, Repr

namespace Role

def all : List Role := [bundled, installed, custom]

def label : Role → String
  | bundled => "bundled"
  | installed => "installed"
  | custom => "custom"

def ofLabel? (s : String) : Option Role := all.find? (·.label == s)

end Role

structure PerRole (α : Type) where
  bundled : α
  installed : α
  custom : α
  deriving DecidableEq, Repr

namespace PerRole

variable {α β : Type}

def const (a : α) : PerRole α := ⟨a, a, a⟩

def get (t : PerRole α) : Role → α
  | .bundled => t.bundled
  | .installed => t.installed
  | .custom => t.custom

def set (t : PerRole α) (r : Role) (a : α) : PerRole α :=
  match r with
  | .bundled => { t with bundled := a }
  | .installed => { t with installed := a }
  | .custom => { t with custom := a }

def map (f : α → β) (t : PerRole α) : PerRole β := ⟨f t.bundled, f t.installed, f t.custom⟩

@[simp]
theorem get_set_self (t : PerRole α) (r : Role) (a : α) : (t.set r a).get r = a := by
  cases r <;> rfl

theorem get_set_of_ne (t : PerRole α) {r s : Role} (a : α) (h : s ≠ r) :
    (t.set r a).get s = t.get s := by
  cases r <;> cases s <;> first | rfl | exact absurd rfl h

@[simp]
theorem set_set (t : PerRole α) (r : Role) (a b : α) : (t.set r a).set r b = t.set r b := by
  cases r <;> rfl

@[simp]
theorem get_map (f : α → β) (t : PerRole α) (r : Role) : (t.map f).get r = f (t.get r) := by
  cases r <;> rfl

theorem ext_get {t u : PerRole α} (h : ∀ r, t.get r = u.get r) : t = u := by
  have hb := h .bundled
  have hi := h .installed
  have hc := h .custom
  cases t
  cases u
  simp_all [get]

end PerRole

end TranscodingEngines
