import TranscodingEngines.Proofs.Engine.Selection
import TranscodingEngines.Proofs.Registry.Enrolment
import TranscodingEngines.Proofs.Registry.Interruption

/-!
# The role that registration picks

A registration that succeeds has examined every declared role, and the engine works if and only if
one of them was found to. The current role is picked by the rule from the roles found usable, and
the version and the executable told for the engine are those found for that role.
-/

set_option autoImplicit false

namespace TranscodingEngines

namespace Admission

variable {a : Admission}

theorem completes_of_result (hNew : a.registry.knows a.engine.id = false)
    (h : (a.registry.register a.environment a.engine).result = .ok ()) :
    a.environment.Completes a.engine a.engine.roles a.registry.ledger := by
  rcases a.environment.completes_or_exists a.engine a.engine.roles a.registry.ledger with
    hAll | ⟨earlier, r, later, hRoles, hBefore, hStops⟩
  · exact hAll
  · have hAt := interruptedAt_of_interruptedFirst ⟨hRoles, hBefore, hStops⟩
    rw [result_of_interruptedAt hNew rfl hAt] at h
    cases h

theorem currentRole_of_completes
    (h : a.environment.Completes a.engine a.engine.roles a.registry.ledger) :
    a.verified.engine.currentRole
      = a.verified.engine.bestRole (a.registry.settings.preferredRole a.engine.id) := by
  have hRole := congrArg Engine.currentRole a.engine_verified
  rw [interruptedAt_of_completes h] at hRole
  rw [hRole, a.engine_verified]
  rfl

end Admission

namespace Registry

/-- What a successful registration makes of an engine, told by the findings on its roles. -/
structure Selects (g : Registry) (env : Environment) (e listed : Engine) : Prop where
  declaration : listed.declaration = e.declaration
  /-- Every declared role was examined, in order. -/
  examined : (env.course e e.roles g.ledger).map (·.role) = e.roles
  recorded : ∀ x ∈ env.course e e.roles g.ledger, x.finding.isInterrupted = false ∧
    listed.availability x.role = x.finding.availability ∧
    listed.resolved x.role = x.finding.executable?
  available : listed.isAvailable = true ↔
    ∃ x ∈ env.course e e.roles g.ledger, x.finding.availability.isAvailable = true
  picks : listed.Picks ((g.settings.preferredRole e.id).getD e.defaultRole)
  /-- The version and the executable are those of the current role. -/
  told : ∀ x ∈ env.course e e.roles g.ledger, x.role = listed.currentRole →
    listed.version = x.finding.availability.version ∧ listed.executable = x.finding.executable?
  untold : e.declares listed.currentRole = false →
    listed.version = none ∧ listed.executable = none

variable {g : Registry} {env : Environment} {e : Engine}

theorem selects_of_completes (h : env.Completes e e.roles g.ledger) :
    g.Selects env e (⟨g, env, e⟩ : Admission).verified.engine := by
  let a : Admission := ⟨g, env, e⟩
  have hRole := Admission.currentRole_of_completes (a := a) h
  have hDeclaration := a.declaration_verified
  have hState : ∀ x ∈ a.course, a.verified.engine.resolved x.role = x.finding.executable? ∧
      a.verified.engine.availability x.role = x.finding.availability :=
    fun x hx => Admission.state_of_mem_course rfl hx
  constructor
  · exact hDeclaration
  · exact h.roles_course
  · intro x hx
    exact ⟨h.isInterrupted hx, (hState x hx).2, (hState x hx).1⟩
  · change a.verified.engine.isAvailableFor a.verified.engine.currentRole = true ↔ _
    rw [hRole, Engine.isAvailableFor_bestRole_iff]
    constructor
    · rintro ⟨r, hAvailable⟩
      have hMem := Engine.mem_roles_of_isAvailableFor hAvailable
      rw [Engine.roles_eq_of_declaration hDeclaration] at hMem
      change r ∈ e.roles at hMem
      rw [← h.roles_course] at hMem
      obtain ⟨x, hx, rfl⟩ := List.mem_map.mp hMem
      rw [Engine.isAvailableFor, (hState x hx).2] at hAvailable
      exact ⟨x, hx, hAvailable⟩
    · rintro ⟨x, hx, hAvailable⟩
      refine ⟨x.role, ?_⟩
      rw [Engine.isAvailableFor, (hState x hx).2]
      exact hAvailable
  · have hPicks := Engine.picks_of_currentRole hRole
    rw [Engine.defaultRole_eq_of_declaration hDeclaration] at hPicks
    exact hPicks
  · intro x hx hCurrent
    obtain ⟨hResolved, hAvailability⟩ := hState x hx
    rw [hCurrent] at hResolved hAvailability
    exact ⟨congrArg Availability.version hAvailability, hResolved⟩
  · intro hUndeclared
    have hOther := (Engine.declares_eq_of_declaration hDeclaration _).trans hUndeclared
    obtain ⟨hResolved, hAvailability⟩ := Engine.state_of_not_declares hOther
    exact ⟨congrArg Availability.version hAvailability, hResolved⟩

/-- Registering a new engine succeeds unless a probe is interrupted, and then lists the engine with
the role that the rule picks from what was found. The order in which distinct roles were declared
leaves no trace in an engine. -/
theorem register_selects (g : Registry) (env : Environment) (e : Engine)
    (hNew : g.knows e.id = false) :
    (env.Undisturbed → (g.register env e).result = .ok ()) ∧
    ((g.register env e).result = .ok () → ∃ listed,
      (g.register env e).registry.engines.filter (·.id.same e.id) = [listed] ∧
      g.Selects env e listed) ∧
    ∀ (base : Engine) (declared declared' : List (Role × Option FilePath)),
      declared.Perm declared' → (declared.map (·.1)).Nodup →
        base.withExecutables declared = base.withExecutables declared' := by
  refine ⟨fun hUndisturbed => hUndisturbed.register_result g e, fun hResult => ?_,
    fun base _ _ hPerm hNodup => base.withExecutables_perm hPerm hNodup⟩
  let a : Admission := ⟨g, env, e⟩
  have hCompletes := Admission.completes_of_result (a := a) hNew hResult
  refine ⟨a.verified.engine, ?_, selects_of_completes hCompletes⟩
  rw [(register_of_new env hNew).2]
  exact a.filter_same_after hNew

/-- The bundled role of the half-installed engine is wanted but has no path, so the default role,
which can be used, becomes the current one. -/
theorem register_selects_halfInstalled :
    let settings : Settings := { Settings.none with preferredRole := fun _ => some .bundled }
    (empty settings).knows halfInstalled.id = false ∧ answering.Undisturbed ∧
      (∃ listed, (empty settings).Selects answering halfInstalled listed ∧
        listed.currentRole = .installed ∧ listed.isAvailable = true) ∧
      (Engine.new ⟨"A"⟩ "A" .vlc .videoFile).withExecutables
          [(.custom, none), (.bundled, some ⟨"vlc"⟩)]
        = (Engine.new ⟨"A"⟩ "A" .vlc .videoFile).withExecutables
          [(.bundled, some ⟨"vlc"⟩), (.custom, none)] := by
  intro settings
  have hNew : (empty settings).knows halfInstalled.id = false := rfl
  have hUndisturbed : answering.Undisturbed := fun _ _ h => nomatch h
  obtain ⟨hSucceeds, hSelects, hOrder⟩ := register_selects (empty settings) answering halfInstalled
    hNew
  obtain ⟨listed, hListed, hSelected⟩ := hSelects (hSucceeds hUndisturbed)
  have hCurrent : ((empty settings).register answering halfInstalled).registry.engines.map
      (·.currentRole) = [.installed] := by decide +kernel
  refine ⟨hNew, hUndisturbed, ⟨listed, hSelected, ?_, ?_⟩,
    hOrder _ _ _ (.swap _ _ _) (by decide)⟩
  · have hMem : listed ∈ ((empty settings).register answering halfInstalled).registry.engines := by
      have hOne : listed ∈ [listed] := List.mem_singleton_self listed
      rw [← hListed] at hOne
      exact (List.mem_filter.mp hOne).1
    have hRole := List.mem_map_of_mem (f := (·.currentRole)) hMem
    rw [hCurrent] at hRole
    exact List.mem_singleton.mp hRole
  · rw [hSelected.available]
    have hFound : ((answering.course halfInstalled halfInstalled.roles ProbeLedger.empty).any
        (·.finding.availability.isAvailable)) = true := by decide +kernel
    exact List.any_eq_true.mp hFound

end Registry

end TranscodingEngines
