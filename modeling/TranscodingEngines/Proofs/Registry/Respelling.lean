import TranscodingEngines.Proofs.Registry.History
import TranscodingEngines.Proofs.Verification.Respelling

/-!
# Respelled identifiers

Two registries go through the same history, but the identifiers in it and the entries of the
configurations are respelled. Nothing that a registry does looks at how an identifier is spelt: the
engines correspond place by place and differ in their identifiers alone, the same executables are
probed, and all questions get the same answers.
-/

set_option autoImplicit false

namespace TranscodingEngines

/-! ## Registries -/

theorem Settings.Alike.rankOf_eq {s s' : Settings} (h : s.Alike s') {e e' : Engine}
    (hEngine : e.Respells e') : s.rankOf e = s'.rankOf e' := by
  rw [Settings.rankOf, Settings.rankOf, h.rank hEngine.same]

namespace Registry

/-- The engines of the two registries correspond place by place, their settings answer alike, and
their records and calls are equal. -/
structure Corresponds (g g' : Registry) : Prop where
  engines : List.Forall₂ Engine.Respells g.engines g'.engines
  settings : g.settings.Alike g'.settings
  ledger : g.ledger = g'.ledger

/-! ## Sorting -/

theorem forall₂_sortByPriority {s s' : Settings} (hAlike : s.Alike s')
    {engines engines' : List Engine} (h : List.Forall₂ Engine.Respells engines engines') :
    List.Forall₂ Engine.Respells (sortByPriority s engines) (sortByPriority s' engines') := by
  obtain ⟨hLength, hPairs⟩ := List.forall₂_iff_zip.mp h
  -- Sorting the pairs by the first engine sorts them by the second one as well.
  let byRank (t : Settings) (a b : Engine) : Bool := t.rankOf a ≤ t.rankOf b
  let pairs := (engines.zip engines').mergeSort fun z w => byRank s z.1 w.1
  have hFirst : pairs.map (·.1) = ((engines.zip engines').map (·.1)).mergeSort (byRank s) :=
    List.map_mergeSort fun _ _ _ _ => rfl
  have hSecond : pairs.map (·.2) = ((engines.zip engines').map (·.2)).mergeSort (byRank s') := by
    refine List.map_mergeSort fun z hz w hw => ?_
    rw [decide_eq_decide, hAlike.rankOf_eq (hPairs hz), hAlike.rankOf_eq (hPairs hw)]
  rw [List.map_fst_zip (Nat.le_of_eq hLength)] at hFirst
  rw [List.map_snd_zip (Nat.le_of_eq hLength.symm)] at hSecond
  change List.Forall₂ Engine.Respells (engines.mergeSort (byRank s)) (engines'.mergeSort (byRank s'))
  rw [← hFirst, ← hSecond, List.forall₂_map_left_iff, List.forall₂_map_right_iff,
    List.forall₂_same]
  intro z hz
  exact hPairs (List.mem_mergeSort.mp hz)

/-! ## Operations -/

/-- The two errors are of the same kind and tell the same, but for the spelling of an identifier. -/
inductive ErrorRespells : RegistryError → RegistryError → Prop
  | blank : ErrorRespells .blankEngineId .blankEngineId
  | unknown {raw raw' : String} (h : Text.Respelt raw raw') :
      ErrorRespells (.unknownEngine raw) (.unknownEngine raw')
  | interrupted (engine : String) : ErrorRespells (.interrupted engine) (.interrupted engine)

inductive ResultRespells : Except RegistryError Unit → Except RegistryError Unit → Prop
  | ok : ResultRespells (.ok ()) (.ok ())
  | error {cause cause' : RegistryError} (h : ErrorRespells cause cause') :
      ResultRespells (.error cause) (.error cause')

/-- The two outcomes differ in the spelling of identifiers alone. -/
structure OutcomesCorrespond (o o' : Outcome) : Prop where
  result : ResultRespells o.result o'.result
  registry : Corresponds o.registry o'.registry
  events : o.events = o'.events

/-- The two operations are the same but for the spelling of identifiers. -/
inductive Respells : Operation → Operation → Prop
  | register {e e' : Engine} (h : e.Respells e') : Respells (.register e) (.register e')
  | registerBuiltin (tools : ToolPaths) : Respells (.registerBuiltin tools) (.registerBuiltin tools)
  | setEnabled {raw raw' : String} (h : Text.Respelt raw raw') (enabled : Bool) :
      Respells (.setEnabled raw enabled) (.setEnabled raw' enabled)
  | selectRole {raw raw' : String} (h : Text.Respelt raw raw') (r : Role) :
      Respells (.selectRole raw r) (.selectRole raw' r)
  | sort : Respells .sort .sort
  | updateSettings {c c' : Config} (h : c.Respells c') :
      Respells (.updateSettings c.settings) (.updateSettings c'.settings)

/-- The two histories are the same, in the same environments, but for the spelling of identifiers.
-/
def HistoryRespells (history history' : List (Environment × Operation)) : Prop :=
  List.Forall₂ (fun step step' => step.1 = step'.1 ∧ Respells step.2 step'.2) history history'

theorem corresponds_empty {s s' : Settings} (h : s.Alike s') : Corresponds (empty s) (empty s') :=
  ⟨.nil, h, rfl⟩

namespace Corresponds

variable {g g' : Registry} (h : Corresponds g g')

include h

theorem knows_eq {e e' : Engine} (hEngine : e.Respells e') : g.knows e.id = g'.knows e'.id := by
  refine any_eq_of_forall₂ h.engines fun k k' hk => ?_
  apply Bool.eq_iff_iff.mpr
  constructor
  · intro hSame
    have hBack := hk.same
    rw [EngineId.same_comm] at hBack
    exact EngineId.same_trans (EngineId.same_trans hBack hSame) hEngine.same
  · intro hSame
    have hBack := hEngine.same
    rw [EngineId.same_comm] at hBack
    exact EngineId.same_trans (EngineId.same_trans hk.same hSame) hBack

theorem sort : Corresponds g.sort g'.sort :=
  ⟨forall₂_sortByPriority h.settings h.engines, h.settings, h.ledger⟩

theorem updateSettings {s s' : Settings} (hAlike : s.Alike s') :
    Corresponds (g.updateSettings s) (g'.updateSettings s') :=
  ⟨forall₂_sortByPriority hAlike h.engines, hAlike, h.ledger⟩

theorem prepare_withId (env : Environment) (e : Engine) {id : EngineId}
    (hSame : e.id.same id = true) :
    g'.prepare env (e.withId id) = (g.prepare env e).withId id := by
  let fresh : Engine := { e.forgetVerification with enabled := g.settings.isEnabled e.id }
  have hFresh : { (e.withId id).forgetVerification with enabled := g'.settings.isEnabled id }
      = fresh.withId id := by
    rw [← h.settings.isEnabled hSame]
    rfl
  calc g'.prepare env (e.withId id)
      = (env.verify { (e.withId id).forgetVerification with
          enabled := g'.settings.isEnabled id } g'.ledger).settle
            (g'.settings.preferredRole id) := rfl
    _ = ((env.verify fresh g.ledger).withId id).settle (g.settings.preferredRole e.id) := by
        rw [hFresh, ← h.ledger, ← h.settings.preferredRole hSame, env.verify_withId]
    _ = (g.prepare env e).withId id := by
        rw [Environment.Verified.settle_withId]
        rfl

theorem register (env : Environment) {e e' : Engine} (hEngine : e.Respells e') :
    OutcomesCorrespond (g.register env e) (g'.register env e') := by
  have hName := hEngine.name_eq
  have hKnows := h.knows_eq hEngine
  rw [knows, knows] at hKnows
  rw [Registry.register, Registry.register, ← hKnows]
  split
  · refine ⟨.ok, h, ?_⟩
    rw [unchanged, unchanged, hName]
  · have hPrepare := h.prepare_withId env e hEngine.same
    rw [← hEngine.eq] at hPrepare
    have hListed : (g.prepare env e).engine.Respells ((g.prepare env e).engine.withId e'.id) := by
      refine .withId ?_
      have hId := (⟨g, env, e⟩ : Admission).id_verified
      rw [Admission.verified] at hId
      rw [hId]
      exact hEngine.same
    simp only [hPrepare]
    refine ⟨?_, ⟨?_, h.settings, rfl⟩, ?_⟩
    · rw [hName]
      change ResultRespells (if (g.prepare env e).interruptedAt.isSome then _ else _)
        (if (g.prepare env e).interruptedAt.isSome then _ else _)
      split
      · exact .error (.interrupted _)
      · exact .ok
    · exact forall₂_sortByPriority h.settings (List.rel_append h.engines (.cons hListed .nil))
    · rw [hName]
      rfl

theorem registerAll (env : Environment) (engines : List Engine) :
    OutcomesCorrespond (g.registerAll env engines) (g'.registerAll env engines) := by
  induction engines generalizing g g' with
  | nil => exact ⟨.ok, h, rfl⟩
  | cons e rest ih =>
    have hFirst := h.register env (Engine.Respells.refl e)
    have hResult := hFirst.result
    rw [Registry.registerAll, Registry.registerAll]
    revert hResult
    generalize (g.register env e).result = result
    generalize (g'.register env e).result = result'
    intro hResult
    cases hResult with
    | error hCause => exact ⟨.error hCause, hFirst.registry, hFirst.events⟩
    | ok =>
      have hLater := ih hFirst.registry
      refine ⟨hLater.result, hLater.registry, ?_⟩
      simp only [hFirst.events, hLater.events]

theorem registerBuiltin (env : Environment) (tools : ToolPaths) :
    OutcomesCorrespond (g.registerBuiltin env tools) (g'.registerBuiltin env tools) := by
  have hAll := h.registerAll env (Catalog.engines tools env.platform)
  refine ⟨hAll.result, hAll.registry, ?_⟩
  rw [Registry.registerBuiltin, Registry.registerBuiltin, hAll.events]

/-! ## Queries -/

theorem find?_rel {p q : Engine → Bool} (hp : ∀ e e', e.Respells e' → p e = q e') :
    Option.Rel Engine.Respells (g.engines.find? p) (g'.engines.find? q) := by
  have hEngines := h.engines
  generalize g.engines = engines at hEngines
  generalize g'.engines = engines' at hEngines
  induction hEngines with
  | nil => exact .none
  | @cons e e' _ _ hEngine _ ih =>
    rw [List.find?_cons, List.find?_cons, ← hp e e' hEngine]
    cases p e with
    | true => exact .some hEngine
    | false => exact ih

theorem lookup {raw raw' : String} (hRaw : Text.Respelt raw raw') :
    Option.Rel Engine.Respells (g.lookup raw) (g'.lookup raw') :=
  h.find?_rel fun _ _ hEngine => EngineId.isNamedBy_eq hEngine.same hRaw

theorem modifyFirst_respells {p q : Engine → Bool} {f : Engine → Engine}
    (hp : ∀ e e', e.Respells e' → p e = q e') (hf : ∀ e e', e.Respells e' → (f e).Respells (f e')) :
    List.Forall₂ Engine.Respells (modifyFirst p f g.engines) (modifyFirst q f g'.engines) := by
  have hEngines := h.engines
  generalize g.engines = engines at hEngines
  generalize g'.engines = engines' at hEngines
  induction hEngines with
  | nil => exact .nil
  | @cons e e' _ _ hEngine hRest ih =>
    rw [modifyFirst, modifyFirst, ← hp e e' hEngine]
    split
    · exact .cons (hf e e' hEngine) hRest
    · exact .cons hEngine ih

theorem modify {raw raw' : String} (hRaw : Text.Respelt raw raw') {f : Engine → Engine}
    {report : Engine → List Log.Event} (hf : ∀ e e', e.Respells e' → (f e).Respells (f e'))
    (hReport : ∀ e e', e.Respells e' → report e = report e') :
    OutcomesCorrespond (g.modify raw f report) (g'.modify raw' f report) := by
  rw [Registry.modify, Registry.modify, ← hRaw.isBlank_eq]
  split
  · exact ⟨.error .blank, h, rfl⟩
  · have hFound := h.lookup hRaw
    revert hFound
    generalize g.lookup raw = found
    generalize g'.lookup raw' = found'
    intro hFound
    cases hFound with
    | none => exact ⟨.error (.unknown hRaw), h, rfl⟩
    | @some e e' hEngine =>
      have hEngines := h.modifyFirst_respells
        (fun _ _ hEngine => EngineId.isNamedBy_eq hEngine.same hRaw) hf
      exact ⟨.ok, ⟨hEngines, h.settings, h.ledger⟩, hReport e e' hEngine⟩

theorem setEnabled {raw raw' : String} (hRaw : Text.Respelt raw raw') (enabled : Bool) :
    OutcomesCorrespond (g.setEnabled raw enabled) (g'.setEnabled raw' enabled) := by
  refine h.modify hRaw (fun e e' hEngine => ?_) fun _ _ _ => rfl
  exact hEngine.map (f := fun e => { e with enabled := enabled }) (fun _ => rfl) rfl

theorem selectRole {raw raw' : String} (hRaw : Text.Respelt raw raw') (r : Role) :
    OutcomesCorrespond (g.selectRole raw r) (g'.selectRole raw' r) := by
  refine h.modify hRaw (fun e e' hEngine => ?_) fun e e' hEngine => ?_
  · refine hEngine.map (f := fun e => if e.declares r then { e with currentRole := r } else e)
      (fun id => ?_) ?_
    · rw [apply_ite (Engine.withId · id)]
      rfl
    · rw [apply_ite Engine.id, ite_self]
  · rw [hEngine.eq]
    rfl

/-- Respelled operations end alike in corresponding registries. -/
theorem apply (env : Environment) {operation operation' : Operation}
    (hOperation : Respells operation operation') :
    OutcomesCorrespond (g.apply env operation) (g'.apply env operation') := by
  cases hOperation with
  | register hEngine => exact h.register env hEngine
  | registerBuiltin tools => exact h.registerBuiltin env tools
  | setEnabled hRaw enabled => exact h.setEnabled hRaw enabled
  | selectRole hRaw r => exact h.selectRole hRaw r
  | sort => exact ⟨.ok, h.sort, rfl⟩
  | updateSettings hConfig => exact ⟨.ok, h.updateSettings hConfig.settings_alike, rfl⟩

theorem applyAll {history history' : List (Environment × Operation)}
    (hHistory : HistoryRespells history history') :
    Corresponds (g.applyAll history) (g'.applyAll history') := by
  induction hHistory generalizing g g' with
  | nil => exact h
  | @cons step step' _ _ hStep _ ih =>
    obtain ⟨env, operation⟩ := step
    obtain ⟨env', operation'⟩ := step'
    obtain ⟨rfl, hOperation⟩ := hStep
    exact ih (h.apply env hOperation).registry

theorem select (onlyEnabled onlyAvailable : Bool) :
    List.Forall₂ Engine.Respells (g.select onlyEnabled onlyAvailable)
      (g'.select onlyEnabled onlyAvailable) := by
  refine List.rel_filter (fun e e' hEngine => ?_) h.engines
  simp only [hEngine.enabled_eq, hEngine.isAvailable_eq]

theorem isActive {raw raw' : String} (hRaw : Text.Respelt raw raw') :
    g.isActive raw = g'.isActive raw' := by
  rw [Registry.isActive, Registry.isActive, ← hRaw.isBlank_eq]
  have hFound := h.lookup hRaw
  revert hFound
  generalize g.lookup raw = found
  generalize g'.lookup raw' = found'
  intro hFound
  cases hFound with
  | none => rfl
  | some hEngine => rw [Option.any_some, Option.any_some, hEngine.isActive_eq]

theorem executableFor {raw raw' : String} (hRaw : Text.Respelt raw raw') :
    g.executableFor raw = g'.executableFor raw' := by
  rw [Registry.executableFor, Registry.executableFor]
  have hFound := h.lookup hRaw
  revert hFound
  generalize g.lookup raw = found
  generalize g'.lookup raw' = found'
  intro hFound
  cases hFound with
  | none => rfl
  | some hEngine => exact hEngine.congr (f := Engine.executable) fun _ => rfl

end Corresponds

/-! ## Dispatch -/

/-- The resource is compatible with engines whatever the spelling of their identifiers. -/
def IgnoresSpelling (resource : Resource) : Prop :=
  ∀ e e' : Engine, e.Respells e' → resource.isCompatible e = resource.isCompatible e'

theorem media_ignoresSpelling (location : String) : IgnoresSpelling (Media.resource location) :=
  fun _ _ hEngine => hEngine.congr (f := (Media.resource location).isCompatible) fun _ => rfl

structure SearchesCorrespond (search search' : Search) : Prop where
  found : List.Forall₂ Engine.Respells search.found search'.found
  asked : List.Forall₂ Engine.Respells search.asked search'.asked
  events : search.events = search'.events

section Dispatch

variable {resource : Resource} (hResource : IgnoresSpelling resource)

include hResource

theorem answer_eq {e e' : Engine} (hEngine : e.Respells e') :
    Dispatch.answer resource e = Dispatch.answer resource e' := by
  rw [Dispatch.answer, Dispatch.answer, hResource e e' hEngine, hEngine.name_eq]

omit hResource in
theorem dismissal_eq {e e' : Engine} (hEngine : e.Respells e') :
    Dispatch.dismissal e = Dispatch.dismissal e' :=
  hEngine.congr (f := Dispatch.dismissal) fun _ => rfl

theorem searchFirst_corresponds {engines engines' : List Engine}
    (h : List.Forall₂ Engine.Respells engines engines') :
    SearchesCorrespond (Dispatch.searchFirst resource engines)
      (Dispatch.searchFirst resource engines') := by
  induction h with
  | nil => exact ⟨.nil, .nil, rfl⟩
  | @cons e e' _ _ hEngine _ ih =>
    rw [Dispatch.searchFirst, Dispatch.searchFirst, ← hEngine.isActive_eq,
      ← hResource e e' hEngine, ← answer_eq hResource hEngine, ← dismissal_eq hEngine]
    split
    · split
      · exact ⟨.cons hEngine .nil, .cons hEngine .nil, rfl⟩
      · exact ⟨ih.found, .cons hEngine ih.asked, congrArg (_ :: ·) ih.events⟩
    · exact ⟨ih.found, ih.asked, congrArg (_ :: ·) ih.events⟩

theorem searchAll_corresponds {engines engines' : List Engine}
    (h : List.Forall₂ Engine.Respells engines engines') :
    SearchesCorrespond (Dispatch.searchAll resource engines)
      (Dispatch.searchAll resource engines') := by
  induction h with
  | nil => exact ⟨.nil, .nil, rfl⟩
  | @cons e e' _ _ hEngine _ ih =>
    rw [Dispatch.searchAll, Dispatch.searchAll, ← hEngine.isActive_eq,
      ← hResource e e' hEngine, ← answer_eq hResource hEngine, ← dismissal_eq hEngine]
    split
    · refine ⟨?_, .cons hEngine ih.asked, congrArg (_ :: ·) ih.events⟩
      simp only
      split
      · exact .cons hEngine ih.found
      · exact ih.found
    · exact ⟨ih.found, ih.asked, congrArg (_ :: ·) ih.events⟩

end Dispatch

/-- All questions get the same answers from the two registries, but for the spelling of
identifiers. -/
structure AnswersCorrespond (g g' : Registry) : Prop where
  lookup : ∀ {raw raw' : String}, Text.Respelt raw raw' →
    Option.Rel Engine.Respells (g.lookup raw) (g'.lookup raw')
  isActive : ∀ {raw raw' : String}, Text.Respelt raw raw' → g.isActive raw = g'.isActive raw'
  executableFor : ∀ {raw raw' : String}, Text.Respelt raw raw' →
    g.executableFor raw = g'.executableFor raw'
  select : ∀ onlyEnabled onlyAvailable, List.Forall₂ Engine.Respells
    (g.select onlyEnabled onlyAvailable) (g'.select onlyEnabled onlyAvailable)
  activeEngines : List.Forall₂ Engine.Respells g.activeEngines g'.activeEngines
  size : g.size = g'.size
  isEmpty : g.isEmpty = g'.isEmpty
  probeRecords : g.probeRecords = g'.probeRecords
  engineFor : ∀ resource, IgnoresSpelling resource →
    SearchesCorrespond (g.engineFor resource) (g'.engineFor resource)
  enginesFor : ∀ resource, IgnoresSpelling resource →
    SearchesCorrespond (g.enginesFor resource) (g'.enginesFor resource)

theorem isEmpty_eq_of_forall₂ {α β : Type} {R : α → β → Prop} {xs : List α} {ys : List β}
    (h : List.Forall₂ R xs ys) : xs.isEmpty = ys.isEmpty := by
  cases h <;> rfl

theorem Corresponds.answers {g g' : Registry} (h : Corresponds g g') : AnswersCorrespond g g' where
  lookup := h.lookup
  isActive := h.isActive
  executableFor := h.executableFor
  select := h.select
  activeEngines := h.select true true
  size := h.engines.length_eq
  isEmpty := isEmpty_eq_of_forall₂ h.engines
  probeRecords := by rw [Registry.probeRecords, Registry.probeRecords, h.ledger]
  engineFor resource hResource := by
    have hSearch := searchFirst_corresponds hResource h.engines
    refine ⟨hSearch.found, hSearch.asked, ?_⟩
    simp only [Registry.engineFor, Dispatch.first, hSearch.events,
      isEmpty_eq_of_forall₂ hSearch.found]
  enginesFor resource hResource := searchAll_corresponds hResource h.engines

/-- Two registries that go through the same history, with the identifiers and the entries of the
configurations respelled, correspond: the engines stand in the same places and differ in their
identifiers alone, the records and the calls are equal, every further operation ends alike, and all
questions get the same answers. -/
theorem respelling_applyAll {c c' : Config} (hConfig : c.Respells c')
    {history history' : List (Environment × Operation)}
    (hHistory : HistoryRespells history history') :
    let g := (empty c.settings).applyAll history
    let g' := (empty c'.settings).applyAll history'
    Corresponds g g' ∧
    (∀ env operation operation', Respells operation operation' →
      OutcomesCorrespond (g.apply env operation) (g'.apply env operation')) ∧
    AnswersCorrespond g g' := by
  intro g g'
  have h : Corresponds g g' := (corresponds_empty hConfig.settings_alike).applyAll hHistory
  exact ⟨h, fun env _ _ => h.apply env, h.answers⟩

/-- A configuration that spells one engine like this, and prefers its custom executable. -/
def preferring (key : String) : Config :=
  { Config.default with priority := [key], roles := ⟨[(key, .custom)], List.pairwise_singleton _ _⟩ }

/-- The custom executable of the half-installed engine is found under every spelling, and the engine
is disabled under every spelling. -/
theorem respelling_halfInstalled :
    let c := preferring "FFmpegVideo"
    let c' := preferring "\tffmpegvideo"
    let history :=
      [(answering, Operation.register (halfInstalled.withId (.ofText "FFmpegVideo"))),
        (answering, .setEnabled "FFmpegVideo" false)]
    let history' :=
      [(answering, Operation.register (halfInstalled.withId (.ofText "FFMPEGVIDEO "))),
        (answering, .setEnabled "ffmpegvideo\u3000" false)]
    c.Respells c' ∧ HistoryRespells history history' ∧
      ((empty c'.settings).applyAll history').executableFor " FFmpegvideo" = some ⟨"/opt/ffmpeg"⟩ ∧
      ((empty c'.settings).applyAll history').isActive " FFmpegvideo" = .ok false := by
  intro c c' history history'
  have hKey : Text.Respelt "FFmpegVideo" "\tffmpegvideo" := by decide
  have hConfig : c.Respells c' :=
    ⟨.cons hKey .nil, .nil, ⟨_, .refl _, .cons ⟨hKey, rfl⟩ .nil⟩, List.pairwise_singleton _ _,
      List.pairwise_singleton _ _⟩
  have hId : Text.Respelt "FFmpegVideo" "FFMPEGVIDEO " := by decide
  have hHistory : HistoryRespells history history' :=
    .cons ⟨rfl, .register (.ofText _ hId)⟩ (.cons ⟨rfl, .setEnabled (by decide) false⟩ .nil)
  obtain ⟨_, _, hAnswers⟩ := respelling_applyAll hConfig hHistory
  have hRaw : Text.Respelt "FFmpegVideo" " FFmpegvideo" := by decide
  refine ⟨hConfig, hHistory, ?_, ?_⟩
  · rw [← hAnswers.executableFor hRaw]
    decide +kernel
  · rw [← hAnswers.isActive hRaw]
    decide +kernel

end Registry

end TranscodingEngines
