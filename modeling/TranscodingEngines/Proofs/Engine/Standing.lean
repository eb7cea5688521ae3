import TranscodingEngines.Verification

/-!
# What verification leaves alone

A finding changes the state of one role and nothing else, so an engine keeps its declaration while
it is verified, and an examination reads nothing but the declaration. Enabling an engine and
choosing its role leave its standing alone.
-/

set_option autoImplicit false

namespace TranscodingEngines

namespace Finding

def update : Finding → RoleState → RoleState
  | refused reason, s => { s with availability := .unavailable reason }
  | settled executable availability, s =>
    { s with resolved := some executable, availability := availability }
  | interrupted executable, s => { s with resolved := some executable }

def executable? : Finding → Option FilePath
  | refused _ => none
  | settled executable _ => some executable
  | interrupted executable => some executable

/-- The availability that a finding gives to a role that was unknown before. -/
def availability : Finding → Availability
  | refused reason => .unavailable reason
  | settled _ availability => availability
  | interrupted _ => .unknown

def isInterrupted : Finding → Bool
  | interrupted _ => true
  | _ => false

theorem update_unverified (f : Finding) (configured : Option FilePath) :
    f.update (.unverified configured) = ⟨configured, f.executable?, f.availability⟩ := by
  cases f <;> rfl

@[simp]
theorem configured_update (f : Finding) (s : RoleState) :
    (f.update s).configured = s.configured := by
  cases f <;> rfl

end Finding

namespace Engine

theorem record_eq (e : Engine) (r : Role) (f : Finding) :
    e.record r f = e.modifyRole r f.update := by
  cases f with
  | refused reason => rfl
  | settled executable availability =>
    simp only [record, setAvailability, setResolved, modifyRole, PerRole.get_set_self,
      PerRole.set_set, Option.map_map]
    rfl
  | interrupted executable => rfl

theorem get_record_self (e : Engine) (r : Role) (f : Finding) :
    (e.record r f).executables.get r = (e.executables.get r).map f.update := by
  rw [record_eq, modifyRole, PerRole.get_set_self]

theorem get_record_of_ne (e : Engine) {r s : Role} (f : Finding) (h : s ≠ r) :
    (e.record r f).executables.get s = e.executables.get s := by
  rw [record_eq, modifyRole, PerRole.get_set_of_ne _ _ h]

theorem get_forgetVerification (e : Engine) (r : Role) :
    e.forgetVerification.executables.get r
      = (e.executables.get r).map fun s => .unverified s.configured := by
  rw [forgetVerification, PerRole.get_map]

/-! ## Standing and declaration -/

/-- The engine without regard to whether it is enabled and which role is its current one. -/
def standing (e : Engine) : Engine := { e with enabled := true, currentRole := e.defaultRole }

/-- The engine as it was declared, without what verification made of it. -/
def declaration (e : Engine) : Engine := e.forgetVerification.standing

theorem get_declaration (e : Engine) (r : Role) :
    e.declaration.executables.get r
      = (e.executables.get r).map fun s => .unverified s.configured :=
  get_forgetVerification e r

@[simp]
theorem configured_declaration (e : Engine) (r : Role) :
    e.declaration.configured r = e.configured r := by
  rw [configured, get_declaration, configured]
  cases e.executables.get r <;> rfl

@[simp]
theorem declares_declaration (e : Engine) (r : Role) :
    e.declaration.declares r = e.declares r := by
  rw [declares, get_declaration, declares, Option.isSome_map]

@[simp]
theorem roles_declaration (e : Engine) : e.declaration.roles = e.roles :=
  List.filter_congr fun r _ => declares_declaration e r

theorem forget_congr {t u : PerRole (Option RoleState)}
    (h : ∀ r, (t.get r).map (·.configured) = (u.get r).map (·.configured)) :
    t.map (·.map fun s => RoleState.unverified s.configured)
      = u.map (·.map fun s => RoleState.unverified s.configured) := by
  apply PerRole.ext_get
  intro r
  have hMap := congrArg (Option.map RoleState.unverified) (h r)
  simpa only [PerRole.get_map, Option.map_map, Function.comp_def] using hMap

theorem declaration_record (e : Engine) (r : Role) (f : Finding) :
    (e.record r f).declaration = e.declaration := by
  have hConfigured : ∀ s, ((e.record r f).executables.get s).map (·.configured)
      = (e.executables.get s).map (·.configured) := by
    intro s
    by_cases h : s = r
    · subst h
      rw [get_record_self, Option.map_map]
      congr 1
      funext t
      exact Finding.configured_update f t
    · rw [get_record_of_ne e f h]
  have hForget := forget_congr hConfigured
  rw [record_eq] at hForget ⊢
  simp only [declaration, standing, forgetVerification, modifyRole] at hForget ⊢
  rw [hForget]

theorem declaration_standing (e : Engine) : e.standing.declaration = e.declaration := rfl

theorem declaration_eq_of_standing {e e' : Engine} (h : e.standing = e'.standing) :
    e.declaration = e'.declaration := by
  rw [← declaration_standing e, h, declaration_standing]

theorem id_eq_of_standing {e e' : Engine} (h : e.standing = e'.standing) : e.id = e'.id := by
  have hId := congrArg Engine.id h
  exact hId

theorem executables_eq_of_standing {e e' : Engine} (h : e.standing = e'.standing) :
    e.executables = e'.executables := by
  have hExecutables := congrArg Engine.executables h
  exact hExecutables

section Declaration

variable {e e' : Engine} (h : e.declaration = e'.declaration)

include h

theorem id_eq_of_declaration : e.id = e'.id := by
  have hId := congrArg Engine.id h
  exact hId

theorem name_eq_of_declaration : e.name = e'.name := by
  have hName := congrArg Engine.name h
  exact hName

theorem family_eq_of_declaration : e.family = e'.family := by
  have hFamily := congrArg Engine.family h
  exact hFamily

theorem defaultRole_eq_of_declaration : e.defaultRole = e'.defaultRole := by
  have hRole := congrArg Engine.defaultRole h
  exact hRole

theorem roles_eq_of_declaration : e.roles = e'.roles := by
  rw [← roles_declaration e, h, roles_declaration]

theorem declares_eq_of_declaration (r : Role) : e.declares r = e'.declares r := by
  rw [← declares_declaration e, h, declares_declaration]

end Declaration

theorem declaration_forgetVerification (e : Engine) :
    e.forgetVerification.declaration = e.declaration := by
  have hForget := forget_congr (t := e.forgetVerification.executables) (u := e.executables) (by
    intro r
    rw [get_forgetVerification, Option.map_map]
    rfl)
  simp only [declaration, standing, forgetVerification] at hForget ⊢
  rw [hForget]

/-! ## Examinations read the declaration -/

theorem resolve_declaration (e : Engine) (r : Role) (platform : Platform)
    (workingDirectory : Except SystemError FilePath) :
    e.declaration.resolve r platform workingDirectory = e.resolve r platform workingDirectory := by
  simp only [resolve, usablePath, configured_declaration]
  rfl

end Engine

theorem Environment.examine_declaration (env : Environment) (e : Engine) (r : Role)
    (ledger : ProbeLedger) : env.examine e.declaration r ledger = env.examine e r ledger := by
  simp only [examine, Engine.resolve_declaration]
  rfl

theorem Environment.examine_congr (env : Environment) {e e' : Engine}
    (h : e.declaration = e'.declaration) (r : Role) (ledger : ProbeLedger) :
    env.examine e r ledger = env.examine e' r ledger := by
  rw [← env.examine_declaration e, h, env.examine_declaration]

end TranscodingEngines
