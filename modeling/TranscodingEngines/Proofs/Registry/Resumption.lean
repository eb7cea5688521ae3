import TranscodingEngines.Proofs.Registry.Interruption
import TranscodingEngines.Proofs.Registry.Roster

/-!
# Registering the built-in engines again

An interruption ends the registration of the built-in engines at the engine whose probe it hits. The
engines up to that one are listed then, and none of those behind it is. Registering them again leaves
the listed ones as they are and adds the others, and unless other settings were put in force the
roster is the one that a registration without an interruption ends in.
-/

set_option autoImplicit false

namespace TranscodingEngines

namespace Catalog

/-- The identifiers of the built-in engines of a platform in the order of registration. -/
def ids (platform : Platform) : List EngineId := (entries platform).map (.ofText ·.id)

theorem id_engine (tools : ToolPaths) (platform : Platform) (entry : Entry) :
    (engine tools platform entry).id = .ofText entry.id := by
  rw [engine]
  split <;> rfl

theorem ids_engines (tools : ToolPaths) (platform : Platform) :
    (engines tools platform).map (·.id) = ids platform := by
  rw [engines, List.map_map, ids]
  exact List.map_congr_left fun entry _ => id_engine tools platform entry

theorem ids_apart (platform : Platform) : (ids platform).Pairwise Registry.Apart := by
  rw [ids, entries]
  change List.Pairwise (fun a b : EngineId => a.same b = false) _
  split <;> decide +kernel

end Catalog

/-- The operation hands in no engine but the built-in ones, puts no settings in force but those that
are, and leaves the flags alone. -/
def Operation.IsNeutral (inForce : Settings) : Operation → Prop
  | registerBuiltin _ | selectRole _ _ | sort => True
  | updateSettings s => s = inForce
  | register _ | setEnabled _ _ => False

namespace Registry

variable {g : Registry} {env : Environment} {engines : List Engine} {e : Engine}

/-! ## Engines that are known -/

theorem knows_register (g : Registry) (env : Environment) (e : Engine) (id : EngineId) :
    (g.register env e).registry.knows id = (g.knows id || (!g.knows e.id && e.id.same id)) := by
  rw [knows_eq_roster, roster_register, Roster.knows_enter, ← knows_eq_roster, ← knows_eq_roster]

theorem filter_register (hSorted : g.Sorted) (env : Environment) (e : Engine) :
    (g.register env e).registry.engines.filter (g.knows ·.id) = g.engines := by
  have hKept : ∀ k ∈ g.engines, g.knows k.id = true := fun k hk =>
    List.any_eq_true.mpr ⟨k, hk, k.id.same_self⟩
  cases h : g.knows e.id with
  | true =>
    rw [(register_of_knows env h).2]
    exact List.filter_eq_self.mpr hKept
  | false =>
    rw [(register_of_new env h).2]
    refine filter_sortByPriority_concat g.settings _ hSorted hKept ?_
    rw [Admission.id_verified]
    exact h

theorem filter_registerAll (hSorted : g.Sorted) (env : Environment) (engines : List Engine) :
    (g.registerAll env engines).registry.engines.filter (g.knows ·.id) = g.engines := by
  have hFirst := filter_register hSorted env
  induction engines generalizing g with
  | nil =>
    refine List.filter_eq_self.mpr fun k hk => ?_
    exact List.any_eq_true.mpr ⟨k, hk, k.id.same_self⟩
  | cons e rest ih =>
    rw [registerAll]
    cases (g.register env e).result with
    | error cause => exact hFirst e
    | ok =>
      have hNext := (g.run_register env e).sorted hSorted
      have hRest := ih hNext (filter_register hNext env)
      -- Who was known before is known after the first registration.
      have hKnown : ∀ k ∈ ((g.register env e).registry.registerAll env rest).registry.engines,
          (g.knows k.id && (g.register env e).registry.knows k.id) = g.knows k.id := by
        intro k _
        rw [knows_register]
        cases g.knows k.id <;> simp
      have hAll := congrArg (List.filter (g.knows ·.id)) hRest
      rw [List.filter_filter, List.filter_congr hKnown, hFirst e] at hAll
      exact hAll

theorem registerAll_of_knows (env : Environment) (h : ∀ e ∈ engines, g.knows e.id = true) :
    (g.registerAll env engines).result = .ok () ∧ (g.registerAll env engines).registry = g := by
  induction engines with
  | nil => exact ⟨rfl, rfl⟩
  | cons e rest ih =>
    obtain ⟨hResult, hRegistry⟩ := register_of_knows env (h e List.mem_cons_self)
    rw [registerAll]
    simp only [hResult, hRegistry]
    exact ih fun e he => h e (List.mem_cons_of_mem _ he)

/-- An engine that was not known is listed once and leaves no declared role unknown. -/
theorem listed_of_undisturbed (hEnv : env.Undisturbed)
    (hApart : (engines.map (·.id)).Pairwise Apart) (he : e ∈ engines)
    (hNew : g.knows e.id = false) : ∃ k,
    (g.registerAll env engines).registry.engines.filter (·.id.same e.id) = [k] ∧
    k.declaration = e.declaration ∧ ∀ r, e.declares r = true → k.availability r ≠ .unknown := by
  induction engines generalizing g with
  | nil => cases he
  | cons x rest ih =>
    rw [List.map_cons, List.pairwise_cons] at hApart
    rw [registerAll]
    simp only [hEnv.register_result]
    rcases List.mem_cons.mp he with rfl | he
    · let a : Admission := ⟨g, env, e⟩
      have hId : a.verified.engine.id = e.id := a.id_verified
      have hListed : (g.register env e).registry.Lists a.verified.engine := by
        rw [Lists, hId, (register_of_new env hNew).2]
        exact a.filter_same_after hNew
      have hLater := hListed.registerAll env rest
      rw [Lists, hId] at hLater
      exact ⟨a.verified.engine, hLater, a.declaration_verified, fun r hRole =>
        Admission.availability_of_completes (hEnv.completes _ _ _) hRole⟩
    · refine ih hApart.2 he ?_
      have hOther : x.id.same e.id = false := hApart.1 e.id (List.mem_map_of_mem he)
      rw [knows_register, hNew, hOther, Bool.and_false, Bool.or_false]

/-! ## The interrupted engine -/

theorem registerAll_of_error {cause : RegistryError}
    (h : (g.registerAll env engines).result = .error cause) :
    ∃ earlier e later, engines = earlier ++ e :: later ∧
      (g.registerAll env earlier).result = .ok () ∧
      ((g.registerAll env earlier).registry.register env e).result = .error cause ∧
      (g.registerAll env engines).registry
        = ((g.registerAll env earlier).registry.register env e).registry := by
  induction engines generalizing g with
  | nil => cases h
  | cons e rest ih =>
    rw [registerAll] at h ⊢
    cases hFirst : (g.register env e).result with
    | error failure =>
      rw [hFirst] at h
      exact ⟨[], e, rest, rfl, rfl, hFirst.trans h, rfl⟩
    | ok =>
      rw [hFirst] at h
      obtain ⟨earlier, k, later, rfl, hOk, hResult, hRegistry⟩ := ih h
      refine ⟨e :: earlier, k, later, rfl, ?_⟩
      rw [registerAll]
      simp only [hFirst]
      exact ⟨hOk, hResult, hRegistry⟩

theorem register_of_error {cause : RegistryError} (h : (g.register env e).result = .error cause) :
    g.knows e.id = false ∧ cause = .interrupted e.name ∧
      ∃ earlier r later, env.InterruptedFirst e g.ledger earlier r later := by
  cases hKnown : g.knows e.id with
  | true =>
    rw [(register_of_knows env hKnown).1] at h
    cases h
  | false =>
    rw [(register_of_new env hKnown).1] at h
    rcases env.completes_or_exists e e.roles g.ledger with
      hAll | ⟨earlier, r, later, hRoles, hBefore, hStops⟩
    · have hNone : (⟨g, env, e⟩ : Admission).verified.interruptedAt = none :=
        Admission.interruptedAt_of_completes hAll
      rw [hNone] at h
      cases h
    · split at h
      · exact ⟨rfl, (Except.error.inj h).symm, earlier, r, later, hRoles, hBefore, hStops⟩
      · cases h

/-- What registering the built-in engines leaves behind when it is interrupted at one of them, with
engines before and behind it: the interrupted engine is listed in a state of its own. -/
structure StopsAt (g : Registry) (env : Environment) (tools : ToolPaths) (earlier : List Engine)
    (e : Engine) (later : List Engine) (k : Engine) : Prop where
  catalog : Catalog.engines tools env.platform = earlier ++ e :: later
  result : (g.registerBuiltin env tools).result = .error (.interrupted e.name)
  new : g.knows e.id = false
  /-- The engines up to the interrupted one are added, unless they are known. -/
  added : (g.registerBuiltin env tools).registry.roster.Perm
    (g.roster ++ (((earlier ++ [e]).map (·.id)).filter (!g.knows ·)).map
      fun id => (id, g.settings.isEnabled id))
  /-- None of those behind it is added. -/
  behind : ∀ x ∈ later, (g.registerBuiltin env tools).registry.knows x.id = g.knows x.id
  kept : (g.registerBuiltin env tools).registry.engines.filter (g.knows ·.id) = g.engines
  listed : (g.registerBuiltin env tools).registry.engines.filter (·.id.same e.id) = [k]
  declaration : k.declaration = e.declaration
  /-- The interrupted role is the current one. -/
  unknown : k.declares k.currentRole = true ∧ k.availability k.currentRole = .unknown
  /-- Whatever follows, the engine keeps its states, and it becomes available only by the selection
  of a role that was found to be available. -/
  endures : ∀ history, ∃ later,
    ((g.registerBuiltin env tools).registry.applyAll history).engines.filter (·.id.same e.id)
      = [later] ∧ later.executables = k.executables ∧
    (later.isAvailable = true ↔ ∃ r,
      (g.registerBuiltin env tools).registry.lastOf (selection e.id) history = some r ∧
        k.isAvailableFor r = true)

theorem Lists.endures (h : g.Lists e) (hUnknown : e.isAvailable = false)
    (history : List (Environment × Operation)) : ∃ later,
    (g.applyAll history).engines.filter (·.id.same e.id) = [later] ∧
    later.executables = e.executables ∧
    (later.isAvailable = true ↔ ∃ r, g.lastOf (selection e.id) history = some r ∧
      e.isAvailableFor r = true) := by
  refine ⟨_, h.applyAll history, rfl, ?_⟩
  cases g.lastOf (selection e.id) history with
  | none =>
    refine iff_of_false (ne_true_of_eq_false hUnknown) ?_
    rintro ⟨r, hNone, _⟩
    cases hNone
  | some r =>
    constructor
    · exact fun hAvailable => ⟨r, rfl, hAvailable⟩
    · rintro ⟨q, hLast, hAvailable⟩
      cases hLast
      exact hAvailable

theorem exists_stopsAt {tools : ToolPaths} {cause : RegistryError} (hSorted : g.Sorted)
    (hStopped : (g.registerBuiltin env tools).result = .error cause) :
    ∃ earlier e later k, g.StopsAt env tools earlier e later k := by
  obtain ⟨earlier, e, later, hCatalog, hOk, hError, hRegistry⟩ := registerAll_of_error hStopped
  have hMet := (g.run_registerAll env earlier).sorted hSorted
  obtain ⟨hNew, hCause, before, r, behind, hFirst⟩ := register_of_error hError
  have hContains := contains_of_interruptedFirst hNew hMet hFirst
  have hId := Engine.id_eq_of_declaration hContains.declaration
  have hRoster : (g.registerBuiltin env tools).registry.roster
      = g.roster.enterAll g.settings ((earlier ++ [e]).map (·.id)) := by
    change (g.registerAll env _).registry.roster = _
    rw [hRegistry, roster_register, settings_registerAll, roster_registerAll_of_ok hOk,
      List.map_append, Roster.enterAll_append]
    rfl
  have hIds := Catalog.ids_engines tools env.platform
  rw [hCatalog, List.append_cons, List.map_append] at hIds
  have hApart := Catalog.ids_apart env.platform
  rw [← hIds, List.pairwise_append] at hApart
  have hListed : (g.registerBuiltin env tools).registry.engines.filter (·.id.same e.id)
      = [(⟨(g.registerAll env earlier).registry, env, e⟩ : Admission).verified.engine] := by
    change (g.registerAll env _).registry.engines.filter _ = _
    rw [hRegistry]
    exact hContains.once
  generalize (⟨(g.registerAll env earlier).registry, env, e⟩ : Admission).verified.engine = k
    at hContains hId hListed
  have hLists : (g.registerBuiltin env tools).registry.Lists k := by
    rw [Lists, hId]
    exact hListed
  refine ⟨earlier, e, later, k, hCatalog, hStopped.trans (congrArg _ hCause), ?_, ?_, ?_,
    filter_registerAll hSorted env _, hListed, hContains.declaration, ?_, ?_⟩
  · cases hKnown : g.knows e.id with
    | false => rfl
    | true =>
      -- Who is known stays known.
      rw [knows_eq_roster] at hKnown
      rw [knows_eq_roster, roster_registerAll_of_ok hOk, Roster.knows_enterAll hKnown] at hNew
      cases hNew
  · simp only [knows_eq_roster]
    rw [hRoster]
    exact Roster.enterAll_perm hApart.1
  · intro x hx
    rw [knows_eq_roster, knows_eq_roster, hRoster]
    exact Roster.knows_enterAll_of_apart fun y hy => hApart.2.2 y hy x.id (List.mem_map_of_mem hx)
  · rw [hContains.currentRole, Engine.declares_eq_of_declaration hContains.declaration,
      ← Engine.mem_roles, hFirst.roles]
    exact ⟨List.mem_append_right _ List.mem_cons_self, hContains.interrupted.1⟩
  · rw [← hId]
    exact fun history => hLists.endures hContains.isAvailable history

/-! ## Registering again -/

/-- What registering the built-in engines without an interruption makes of a registry. -/
structure Resumes (g : Registry) (env : Environment) (tools : ToolPaths) : Prop where
  result : (g.registerBuiltin env tools).result = .ok ()
  /-- The engines that are known stay as they are, in their order. -/
  kept : (g.registerBuiltin env tools).registry.engines.filter (g.knows ·.id) = g.engines
  /-- The other engines of the catalog are added, and nothing else. -/
  added : (g.registerBuiltin env tools).registry.roster.Perm
    (g.roster ++ ((Catalog.ids env.platform).filter (!g.knows ·)).map
      fun id => (id, g.settings.isEnabled id))
  verified : ∀ e ∈ Catalog.engines tools env.platform, g.knows e.id = false → ∃ k,
    (g.registerBuiltin env tools).registry.engines.filter (·.id.same e.id) = [k] ∧
    k.declaration = e.declaration ∧ ∀ r, e.declares r = true → k.availability r ≠ .unknown
  /-- Doing so once more changes nothing and calls nothing, whatever the environment. -/
  again : ∀ env' tools', env'.platform = env.platform →
    ((g.registerBuiltin env tools).registry.registerBuiltin env' tools').result = .ok () ∧
    ((g.registerBuiltin env tools).registry.registerBuiltin env' tools').registry
      = (g.registerBuiltin env tools).registry

theorem roster_registerBuiltin {tools : ToolPaths}
    (h : (g.registerBuiltin env tools).result = .ok ()) :
    (g.registerBuiltin env tools).registry.roster
      = g.roster.enterAll g.settings (Catalog.ids env.platform) := by
  rw [← Catalog.ids_engines tools]
  exact roster_registerAll_of_ok h

theorem resumes (hSorted : g.Sorted) (hEnv : env.Undisturbed) (tools : ToolPaths) :
    g.Resumes env tools := by
  have hResult : (g.registerBuiltin env tools).result = .ok () := hEnv.registerAll_result g _
  have hRoster := roster_registerBuiltin hResult
  refine ⟨hResult, filter_registerAll hSorted env _, ?_, ?_, ?_⟩
  · simp only [knows_eq_roster]
    rw [hRoster]
    exact Roster.enterAll_perm (Catalog.ids_apart env.platform)
  · intro e he hNew
    refine listed_of_undisturbed hEnv ?_ he hNew
    rw [Catalog.ids_engines]
    exact Catalog.ids_apart env.platform
  · intro env' tools' hPlatform
    refine registerAll_of_knows env' fun e he => ?_
    rw [knows_eq_roster, hRoster]
    refine Roster.knows_enterAll_of_mem ?_
    rw [← hPlatform, ← Catalog.ids_engines tools']
    exact List.mem_map_of_mem he

theorem updateSettings_of_sorted (hSorted : g.Sorted) : g.updateSettings g.settings = g := by
  rw [updateSettings, sortByPriority_of_sorted g.settings hSorted]

theorem roster_selectRole (g : Registry) (raw : String) (r : Role) :
    (g.selectRole raw r).registry.settings = g.settings ∧
      (g.selectRole raw r).registry.roster = g.roster := by
  have hModified := g.selectRole_modified raw r
  generalize g.selectRole raw r = outcome at hModified ⊢
  cases hModified with
  | blank => exact ⟨rfl, rfl⟩
  | unknown => exact ⟨rfl, rfl⟩
  | @found e _ _ _ _ hReplaces =>
    obtain ⟨before, after, hSplit, hRegistry⟩ := hReplaces
    refine ⟨by rw [hRegistry], ?_⟩
    rw [hRegistry, roster, roster, hSplit, List.map_append, List.map_append, List.map_cons,
      List.map_cons]
    split <;> rfl

/-- A neutral operation leaves the settings alone, and handing in the catalog after it ends where
handing it in before ends. -/
theorem enterAll_apply (env : Environment) {operation : Operation} (hSorted : g.Sorted)
    (hNeutral : operation.IsNeutral g.settings) :
    (g.apply env operation).registry.settings = g.settings ∧
      (g.apply env operation).registry.roster.enterAll g.settings (Catalog.ids env.platform)
        = g.roster.enterAll g.settings (Catalog.ids env.platform) := by
  cases operation with
  | registerBuiltin tools =>
    obtain ⟨taken, hPrefix, hRoster, _⟩ :=
      g.exists_roster_registerAll env (Catalog.engines tools env.platform)
    have hIds := hPrefix.map (·.id)
    rw [Catalog.ids_engines] at hIds
    refine ⟨g.settings_registerAll env _, ?_⟩
    change (g.registerAll env _).registry.roster.enterAll _ _ = _
    rw [hRoster, Roster.enterAll_prefix hIds]
  | selectRole raw r =>
    obtain ⟨hSettings, hRoster⟩ := g.roster_selectRole raw r
    exact ⟨hSettings, congrArg (Roster.enterAll g.settings · _) hRoster⟩
  | sort =>
    have hSame : (g.apply env .sort).registry = g := updateSettings_of_sorted hSorted
    rw [hSame]
    exact ⟨rfl, rfl⟩
  | updateSettings s =>
    obtain rfl : s = g.settings := hNeutral
    have hSame : (g.apply env (.updateSettings g.settings)).registry = g :=
      updateSettings_of_sorted hSorted
    rw [hSame]
    exact ⟨rfl, rfl⟩
  | register e => exact hNeutral.elim
  | setEnabled raw enabled => exact hNeutral.elim

theorem enterAll_applyAll {history : List (Environment × Operation)} {platform : Platform}
    (hSorted : g.Sorted)
    (hNeutral : ∀ step ∈ history, step.1.platform = platform ∧ step.2.IsNeutral g.settings) :
    (g.applyAll history).settings = g.settings ∧
      (g.applyAll history).roster.enterAll g.settings (Catalog.ids platform)
        = g.roster.enterAll g.settings (Catalog.ids platform) := by
  induction history generalizing g with
  | nil => exact ⟨rfl, rfl⟩
  | cons step rest ih =>
    obtain ⟨env, operation⟩ := step
    obtain ⟨rfl, hOperation⟩ := hNeutral _ List.mem_cons_self
    obtain ⟨hSettings, hRoster⟩ := enterAll_apply env hSorted hOperation
    rw [← hSettings] at hNeutral hRoster
    obtain ⟨hAll, hEnd⟩ := ih ((g.run_apply env operation).sorted hSorted)
      fun step hStep => hNeutral step (List.mem_cons_of_mem _ hStep)
    rw [applyAll_cons, ← hSettings]
    exact ⟨hAll, hEnd.trans hRoster⟩

/-- An interrupted registration of the built-in engines can be resumed. It stops at the engine whose
probe is interrupted and lists no engine behind that one. Whatever is done in between, registering
the built-in engines again without an interruption succeeds, leaves every listed engine as it is and
adds the others, and doing so a third time changes nothing. If nothing in between put other settings
in force, changed a flag or handed in another engine, the identifiers end up in the order, and with
the flags, that a registration without an interruption gives them. -/
theorem resumption_applyAll (settings : Settings) (history : List (Environment × Operation))
    (env : Environment) (tools : ToolPaths) (cause : RegistryError)
    (hStopped : (((empty settings).applyAll history).registerBuiltin env tools).result
      = .error cause) :
    let g := (empty settings).applyAll history
    let stopped := (g.registerBuiltin env tools).registry
    (∃ earlier e later k, g.StopsAt env tools earlier e later k) ∧
    ∀ between env' tools', env'.platform = env.platform → env'.Undisturbed →
      (stopped.applyAll between).Resumes env' tools' ∧
      ((∀ step ∈ between, step.1.platform = env.platform ∧ step.2.IsNeutral g.settings) →
        ∀ whole tools'', whole.platform = env.platform →
          (g.registerBuiltin whole tools'').result = .ok () →
          ((stopped.applyAll between).registerBuiltin env' tools').registry.roster
            = (g.registerBuiltin whole tools'').registry.roster) := by
  intro g stopped
  have hSorted : g.Sorted := ((empty settings).run_applyAll history).sorted List.Pairwise.nil
  have hStoppedSorted : stopped.Sorted := (g.run_registerAll env _).sorted hSorted
  refine ⟨exists_stopsAt hSorted hStopped, ?_⟩
  intro between env' tools' hPlatform hUndisturbed
  have hMet := (stopped.run_applyAll between).sorted hStoppedSorted
  have hResumes := resumes hMet hUndisturbed tools'
  refine ⟨hResumes, ?_⟩
  intro hNeutral whole tools'' hWhole hOk
  have hSettings : stopped.settings = g.settings := g.settings_registerAll env _
  have hSelf : (Operation.registerBuiltin tools).IsNeutral g.settings := trivial
  obtain ⟨_, hStoppedEnd⟩ := enterAll_apply env hSorted hSelf
  rw [← hSettings] at hNeutral
  obtain ⟨hAll, hEnd⟩ := enterAll_applyAll hStoppedSorted hNeutral
  rw [roster_registerBuiltin hResumes.result, roster_registerBuiltin hOk, hPlatform, hWhole, hAll,
    hEnd, hSettings]
  exact hStoppedEnd

def mencoderOnly : ToolPaths where
  ffmpeg := .const none
  mencoder := (PerRole.const none).set .installed (some ⟨"mencoder"⟩)
  vlc := .const none
  tsMuxeR := .const none
  dcraw := .const none

/-- The registration is interrupted at the second engine, MEncoder, which is moved to a role that
does not work either; the resumed one ends in the roster of a registration that was answered. -/
theorem resumption_mencoder :
    let stopped := ((empty .none).registerBuiltin interrupting mencoderOnly).registry
    let between := [(answering, Operation.selectRole "MEncoderVideo" .custom)]
    ((empty .none).registerBuiltin interrupting mencoderOnly).result
        = .error (.interrupted "MEncoder") ∧
      (∃ earlier e later k,
        (empty .none).StopsAt interrupting mencoderOnly earlier e later k) ∧
      (stopped.applyAll between).Resumes answering mencoderOnly ∧
      ((stopped.applyAll between).registerBuiltin answering mencoderOnly).registry.roster
        = ((empty .none).registerBuiltin answering mencoderOnly).registry.roster := by
  intro stopped between
  have hStopped : ((empty .none).registerBuiltin interrupting mencoderOnly).result
      = .error (.interrupted "MEncoder") := by decide +kernel
  have hAnswered : answering.Undisturbed := fun _ _ h => nomatch h
  have hNeutral : ∀ step ∈ between,
      step.1.platform = interrupting.platform ∧ step.2.IsNeutral Settings.none := by
    intro step hStep
    rw [List.mem_singleton.mp hStep]
    exact ⟨rfl, trivial⟩
  obtain ⟨hStops, hResumed⟩ := resumption_applyAll .none [] interrupting mencoderOnly _ hStopped
  obtain ⟨hResumes, hSame⟩ := hResumed between answering mencoderOnly rfl hAnswered
  exact ⟨hStopped, hStops, hResumes, hSame hNeutral answering mencoderOnly rfl
    (hAnswered.registerAll_result _ _)⟩

end Registry

end TranscodingEngines
