import TranscodingEngines.Proofs.Registry.History
import TranscodingEngines.Proofs.Verification.Interruption

/-!
# Interrupted registration

A registration whose probes are not interrupted leaves no declared role unknown. One that is
interrupted lists the engine all the same, with the interrupted role as its current one; the roles
before that one are as they would be without the interruption, the roles behind it are unknown, and
the other engines, the settings and the records are what they were, but for the records of the
probes that were answered.
-/

set_option autoImplicit false

namespace TranscodingEngines

namespace Admission

variable {a : Admission} {earlier later : List Role} {r : Role}

/-! ## The list -/

theorem filter_same_after (a : Admission) (h : a.registry.knows a.engine.id = false) :
    a.after.engines.filter (·.id.same a.engine.id) = [a.verified.engine] := by
  have hPerm := (sortByPriority_perm a.registry.settings
    (a.registry.engines ++ [a.verified.engine])).filter (·.id.same a.engine.id)
  have hOthers : a.registry.engines.filter (·.id.same a.engine.id) = [] := by
    rw [List.filter_eq_nil_iff]
    intro k hk
    rw [Registry.knows_eq_false_iff.mp h k hk]
    exact Bool.false_ne_true
  have hSelf : [a.verified.engine].filter (·.id.same a.engine.id) = [a.verified.engine] := by
    apply List.filter_cons_of_pos
    rw [a.id_verified, EngineId.same_self]
  rw [List.filter_append, hOthers, hSelf, List.nil_append] at hPerm
  exact List.perm_singleton.mp hPerm

theorem filter_others_after (a : Admission) (h : a.registry.knows a.engine.id = false)
    (hSorted : a.registry.Sorted) :
    a.after.engines.filter (fun k => !k.id.same a.engine.id) = a.registry.engines := by
  refine filter_sortByPriority_concat a.registry.settings _ hSorted ?_ ?_
  · intro k hk
    rw [Registry.knows_eq_false_iff.mp h k hk]
    rfl
  · rw [a.id_verified, EngineId.same_self]
    rfl

/-! ## Registration without an interruption -/

theorem interruptedAt_of_completes
    (h : a.environment.Completes a.engine a.engine.roles a.registry.ledger) :
    a.verified.interruptedAt = none := by
  rw [interruptedAt_verified, Option.map_eq_none_iff, List.find?_eq_none]
  intro x hx
  rw [h.isInterrupted hx]
  exact Bool.false_ne_true

theorem availability_of_completes
    (h : a.environment.Completes a.engine a.engine.roles a.registry.ledger)
    (hRole : a.engine.declares r = true) : a.verified.engine.availability r ≠ .unknown := by
  have hMem : r ∈ a.course.map (·.role) := by
    rw [course, h.roles_course]
    exact Engine.mem_roles.mpr hRole
  obtain ⟨x, hx, rfl⟩ := List.mem_map.mp hMem
  rw [(state_of_mem_course rfl hx).2]
  exact (Environment.examined_of_mem_course hx).availability_ne_unknown (h.isInterrupted hx)

/-! ## Registration up to an interruption -/

section Interrupted

variable (h : a.environment.InterruptedFirst a.engine a.registry.ledger earlier r later)

include h

theorem mem_course_iff {x : Examination} : x ∈ a.course ↔
    x ∈ a.environment.course a.engine earlier a.registry.ledger ∨
      x = a.environment.examination a.engine r
        (a.environment.ledgerAfter a.engine earlier a.registry.ledger) := by
  rw [course, h.course_eq, List.mem_append, List.mem_singleton]

theorem interruptedAt_of_interruptedFirst : a.verified.interruptedAt = some r :=
  interruptedAt_of_mem_course ((mem_course_iff h).mpr (.inr rfl))
    (Environment.interrupts_iff.mp h.stops)

theorem exists_of_mem_earlier {q : Role} (hq : q ∈ earlier) :
    ∃ x ∈ a.environment.course a.engine earlier a.registry.ledger, x.role = q := by
  rw [← h.before.roles_course] at hq
  exact List.mem_map.mp hq

theorem availability_of_mem_earlier {q : Role} (hq : q ∈ earlier) :
    a.verified.engine.availability q ≠ .unknown := by
  obtain ⟨x, hx, rfl⟩ := exists_of_mem_earlier h hq
  rw [(state_of_mem_course rfl ((mem_course_iff h).mpr (.inl hx))).2]
  exact (Environment.examined_of_mem_course hx).availability_ne_unknown (h.before.isInterrupted hx)

/-- A runner that answers the interrupted probe makes the same of the roles before it. -/
theorem state_of_mem_earlier {env' : Environment} (hCompleted : a.environment.Completed env')
    {q : Role} (hq : q ∈ earlier) :
    ({ a with environment := env' } : Admission).verified.engine.executables.get q
      = a.verified.engine.executables.get q := by
  obtain ⟨x, hx, rfl⟩ := exists_of_mem_earlier h hq
  have hOther : x ∈ ({ a with environment := env' } : Admission).course := by
    have hPrefix := env'.course_prefix a.engine earlier (r :: later) a.registry.ledger
    rw [← h.roles, hCompleted.course_eq h.before] at hPrefix
    exact hPrefix.subset hx
  rw [get_of_mem_course _ hOther, get_of_mem_course _ ((mem_course_iff h).mpr (.inl hx))]

theorem state_of_interrupted : ∃ executable,
    (a.engine.resolve r a.environment.platform a.environment.workingDirectory).1
      = .ok executable ∧
    a.verified.engine.resolved r = some executable.path ∧
    a.verified.engine.availability r = .unknown := by
  obtain ⟨executable, d, hResolve, _, hFinding, _⟩ := h.stops.examination
  have hState := state_of_mem_course rfl ((mem_course_iff h).mpr (.inr rfl))
  rw [hFinding] at hState
  exact ⟨executable, hResolve, hState⟩

theorem state_of_mem_later {q : Role} (hq : q ∈ later) :
    a.verified.engine.resolved q = none ∧ a.verified.engine.availability q = .unknown := by
  have hNodup := a.engine.roles_nodup
  rw [h.roles, List.append_cons] at hNodup
  -- The roles examined end with the interrupted one, and no role is declared twice.
  have hCourse : a.course.map (·.role) = earlier ++ [r] := by
    rw [course, h.course_eq, List.map_append, h.before.roles_course]
    rfl
  have hRole : q ∉ a.course.map (·.role) := by
    rw [hCourse]
    intro hMem
    exact (List.nodup_append.mp hNodup).2.2 q hMem q hq rfl
  have hDeclared : a.verified.engine.declares q = true := by
    rw [Engine.declares_eq_of_declaration a.declaration_verified, ← Engine.mem_roles, h.roles,
      List.append_cons]
    exact List.mem_append_right _ hq
  exact state_of_not_mem_course rfl hDeclared hRole

theorem currentRole_of_interruptedFirst : a.verified.engine.currentRole = r := by
  rw [engine_verified, interruptedAt_of_interruptedFirst h]
  rfl

theorem ledger_of_interruptedFirst : ∃ call,
    a.environment.runner (a.registry.ledger.calls ++
        (a.environment.exchanges a.engine earlier a.registry.ledger).map (·.call)) call
      = .error .interrupted ∧
    a.verified.ledger.calls = a.registry.ledger.calls ++
      (a.environment.exchanges a.engine earlier a.registry.ledger).map (·.call) ++ [call] ∧
    a.verified.ledger.cache.kept = a.registry.ledger.cache.kept ++
      (a.environment.exchanges a.engine earlier a.registry.ledger).filterMap
        Exchange.record? := by
  obtain ⟨executable, d, _, hReply, _, hExchange⟩ := h.stops.examination
  -- The exchanges are those of the earlier roles, and the interrupted one leaves no record.
  let met := a.environment.ledgerAfter a.engine earlier a.registry.ledger
  let x := a.environment.exchange a.engine met ⟨executable.path, d.args⟩
  have hExchanges : a.exchanges
      = a.environment.exchanges a.engine earlier a.registry.ledger ++ [x] := by
    rw [exchanges, Environment.exchanges, h.course_eq, List.flatMap_append,
      List.flatMap_singleton, hExchange]
    rfl
  have hRecord : x.record? = none := Exchange.record?_of_interrupted hReply
  have hGrows := a.grows
  rw [hExchanges] at hGrows
  rw [h.before.grows.calls_eq] at hReply
  refine ⟨x.call, hReply, ?_, ?_⟩
  · rw [hGrows.calls_eq, List.map_append, List.append_assoc, List.map_singleton]
  · rw [hGrows.kept_eq, List.filterMap_append, List.filterMap_cons_none hRecord,
      List.filterMap_nil, List.append_nil]

end Interrupted

/-- The interrupted role is the first declared one that is unknown. -/
theorem interruptedAt_eq_find? (a : Admission) : a.verified.interruptedAt
    = a.verified.engine.roles.find? (a.verified.engine.availability · = .unknown) := by
  have hRoles : a.verified.engine.roles = a.engine.roles :=
    Engine.roles_eq_of_declaration a.declaration_verified
  rw [hRoles]
  rcases a.environment.completes_or_exists a.engine a.engine.roles a.registry.ledger with
    hAll | ⟨earlier, r, later, hSplit, hBefore, hStops⟩
  · rw [interruptedAt_of_completes hAll, eq_comm, List.find?_eq_none]
    intro r hr hUnknown
    exact availability_of_completes hAll (Engine.mem_roles.mp hr) (of_decide_eq_true hUnknown)
  · have hFirst : a.environment.InterruptedFirst a.engine a.registry.ledger earlier r later :=
      ⟨hSplit, hBefore, hStops⟩
    obtain ⟨_, _, _, hUnknown⟩ := state_of_interrupted hFirst
    have hNone : earlier.find? (a.verified.engine.availability · = .unknown) = none := by
      rw [List.find?_eq_none]
      intro q hq hOther
      exact availability_of_mem_earlier hFirst hq (of_decide_eq_true hOther)
    rw [interruptedAt_of_interruptedFirst hFirst, hSplit, List.find?_append, hNone, Option.none_or]
    rw [List.find?_cons, hUnknown]
    rfl

end Admission

/-! ## A runner that is not interrupted -/

def Environment.Undisturbed (env : Environment) : Prop :=
  ∀ calls call, env.runner calls call ≠ .error .interrupted

namespace Environment.Undisturbed

variable {env : Environment} (h : env.Undisturbed)

include h

theorem not_interrupts (e : Engine) (r : Role) (met : ProbeLedger) : ¬ env.Interrupts e r met := by
  rintro ⟨executable, d, _, _, _, _, hReply⟩
  exact h met.calls _ hReply

theorem completes (e : Engine) (roles : List Role) (met : ProbeLedger) :
    env.Completes e roles met := by
  induction roles generalizing met with
  | nil => trivial
  | cons r rest ih => exact ⟨h.not_interrupts e r met, ih _⟩

theorem register_result (g : Registry) (e : Engine) : (g.register env e).result = .ok () := by
  cases hKnown : g.knows e.id with
  | true => exact (Registry.register_of_knows env hKnown).1
  | false =>
    have hNone : (⟨g, env, e⟩ : Admission).verified.interruptedAt = none :=
      Admission.interruptedAt_of_completes (h.completes _ _ _)
    rw [(Registry.register_of_new env hKnown).1, hNone]
    rfl

theorem registerAll_result (g : Registry) (engines : List Engine) :
    (g.registerAll env engines).result = .ok () := by
  induction engines generalizing g with
  | nil => rfl
  | cons e rest ih =>
    rw [Registry.registerAll]
    simp only [h.register_result g e]
    exact ih _

end Environment.Undisturbed

/-! ## The outcome -/

/-- What registering an engine leaves behind when the runner interrupts the probe of a role, with
roles before and behind it. -/
structure Registry.Contains (g : Registry) (env : Environment) (e : Engine) (earlier : List Role)
    (r : Role) (later : List Role) (listed : Engine) : Prop where
  result : (g.register env e).result = .error (.interrupted e.name)
  /-- The engine is listed once. -/
  once : (g.register env e).registry.engines.filter (·.id.same e.id) = [listed]
  declaration : listed.declaration = e.declaration
  enabled : listed.enabled = g.settings.isEnabled e.id
  earlier_known : ∀ q ∈ earlier, listed.availability q ≠ .unknown
  /-- Roles before the interrupted one are as in a registration that is not interrupted there. -/
  earlier_same : ∀ env', env.Completed env' → ∃ other,
    (g.register env' e).registry.engines.filter (·.id.same e.id) = [other] ∧
    ∀ q ∈ earlier, listed.resolved q = other.resolved q ∧
      listed.availability q = other.availability q
  interrupted : listed.availability r = .unknown ∧ ∃ executable,
    (e.resolve r env.platform env.workingDirectory).1 = .ok executable ∧
    listed.resolved r = some executable.path
  later_unknown : ∀ q ∈ later, listed.resolved q = none ∧ listed.availability q = .unknown
  currentRole : listed.currentRole = r
  isAvailable : listed.isAvailable = false
  answered : ∀ x ∈ env.exchanges e earlier g.ledger, x.reply ≠ .error .interrupted
  /-- The interrupted call is the last one. -/
  calls : ∃ call,
    env.runner (g.ledger.calls ++ (env.exchanges e earlier g.ledger).map (·.call)) call
      = .error .interrupted ∧
    (g.register env e).registry.ledger.calls
      = g.ledger.calls ++ (env.exchanges e earlier g.ledger).map (·.call) ++ [call]
  cache : (g.register env e).registry.ledger.cache.kept
    = g.ledger.cache.kept ++ (env.exchanges e earlier g.ledger).filterMap Exchange.record?
  /-- The other engines are what they were, in the same order. -/
  others : (g.register env e).registry.engines.filter (fun k => !k.id.same e.id) = g.engines
  settings : (g.register env e).registry.settings = g.settings

namespace Registry

variable {g : Registry} {env : Environment} {e : Engine} {earlier later : List Role} {r : Role}

theorem contains_of_interruptedFirst (hNew : g.knows e.id = false) (hSorted : g.Sorted)
    (h : env.InterruptedFirst e g.ledger earlier r later) :
    g.Contains env e earlier r later (⟨g, env, e⟩ : Admission).verified.engine := by
  let a : Admission := ⟨g, env, e⟩
  have hFirst : a.environment.InterruptedFirst a.engine a.registry.ledger earlier r later := h
  obtain ⟨hResult, hRegistry⟩ := register_of_new env hNew
  have hAt : a.verified.interruptedAt = some r := Admission.interruptedAt_of_interruptedFirst hFirst
  obtain ⟨executable, hResolve, hResolved, hUnknown⟩ := Admission.state_of_interrupted hFirst
  obtain ⟨call, hReply, hCalls, hKept⟩ := Admission.ledger_of_interruptedFirst hFirst
  have hRole := Admission.currentRole_of_interruptedFirst hFirst
  constructor
  · rw [hResult]
    exact if_pos (Option.isSome_iff_exists.mpr ⟨r, hAt⟩)
  · rw [hRegistry]
    exact a.filter_same_after hNew
  · exact a.declaration_verified
  · exact a.enabled_verified
  · exact fun q hq => Admission.availability_of_mem_earlier hFirst hq
  · intro env' hCompleted
    refine ⟨(⟨g, env', e⟩ : Admission).verified.engine, ?_, ?_⟩
    · rw [(register_of_new env' hNew).2]
      exact (Admission.mk g env' e).filter_same_after hNew
    · intro q hq
      have hSame := Admission.state_of_mem_earlier hFirst hCompleted hq
      change (⟨g, env', e⟩ : Admission).verified.engine.executables.get q = _ at hSame
      rw [Engine.resolved, Engine.resolved, Engine.availability, Engine.availability, hSame]
      exact ⟨rfl, rfl⟩
  · exact ⟨hUnknown, executable, hResolve, hResolved⟩
  · exact fun q hq => Admission.state_of_mem_later hFirst hq
  · exact hRole
  · change a.verified.engine.isAvailableFor a.verified.engine.currentRole = false
    rw [hRole, Engine.isAvailableFor, hUnknown]
    rfl
  · exact fun x hx => h.before.replied hx
  · rw [hRegistry]
    exact ⟨call, hReply, hCalls⟩
  · rw [hRegistry]
    exact hKept
  · rw [hRegistry]
    exact a.filter_others_after hNew hSorted
  · rw [hRegistry]
    rfl

/-- A registration that the runner does not interrupt succeeds and leaves no declared role unknown;
one that it interrupts is contained. -/
theorem register_interruption (settings : Settings) (history : List (Environment × Operation))
    (env : Environment) (e : Engine)
    (hNew : ((empty settings).applyAll history).knows e.id = false) :
    let g := (empty settings).applyAll history
    ((∀ earlier r later, ¬ env.InterruptedFirst e g.ledger earlier r later) →
      (g.register env e).result = .ok () ∧ ∃ listed,
        (g.register env e).registry.engines.filter (·.id.same e.id) = [listed] ∧
        listed.declaration = e.declaration ∧
        ∀ r, e.declares r = true → listed.availability r ≠ .unknown) ∧
    ∀ earlier r later, env.InterruptedFirst e g.ledger earlier r later →
      ∃ listed, g.Contains env e earlier r later listed := by
  intro g
  let a : Admission := ⟨g, env, e⟩
  constructor
  · intro hNone
    have hCompletes : a.environment.Completes a.engine a.engine.roles a.registry.ledger := by
      rcases env.completes_or_exists e e.roles g.ledger with
        hAll | ⟨earlier, r, later, hRoles, hBefore, hStops⟩
      · exact hAll
      · exact absurd ⟨hRoles, hBefore, hStops⟩ (hNone earlier r later)
    obtain ⟨hResult, hRegistry⟩ := register_of_new env hNew
    have hAt : a.verified.interruptedAt = none := Admission.interruptedAt_of_completes hCompletes
    refine ⟨?_, a.verified.engine, ?_, a.declaration_verified, ?_⟩
    · rw [hResult]
      change (if a.verified.interruptedAt.isSome = true then _ else _) = _
      rw [hAt]
      rfl
    · rw [hRegistry]
      exact a.filter_same_after hNew
    · intro r hRole
      exact Admission.availability_of_completes hCompletes hRole
  · intro earlier r later hFirst
    have hSorted := ((empty settings).run_applyAll history).sorted List.Pairwise.nil
    exact ⟨_, contains_of_interruptedFirst hNew hSorted hFirst⟩

def interrupting : Environment := { answering with runner := fun _ _ => .error .interrupted }

theorem interruptedFirst_halfInstalled :
    interrupting.InterruptedFirst halfInstalled .empty [.bundled] .installed [.custom] where
  roles := rfl
  before := by
    refine ⟨?_, trivial⟩
    rw [Environment.interrupts_iff]
    decide
  stops := by
    rw [Environment.interrupts_iff]
    decide

theorem register_interruption_halfInstalled :
    ((empty .none).applyAll []).knows halfInstalled.id = false ∧ ∃ listed,
      (empty .none).Contains interrupting halfInstalled [.bundled] .installed [.custom] listed := by
  have hNew : ((empty .none).applyAll []).knows halfInstalled.id = false := rfl
  have hOutcome := register_interruption .none [] interrupting halfInstalled hNew
  exact ⟨hNew, hOutcome.2 _ _ _ interruptedFirst_halfInstalled⟩

end Registry

end TranscodingEngines
