import Mathlib.Data.List.Induction
import TranscodingEngines.Proofs.Registry.Priority

/-!
# The order after a restart

A restart hands the same engines to a fresh registry that has the final settings from the start.
There, engines of equal rank stand in the order of their registration. In the registry that lived
through all the settings, an engine may have overtaken one that was registered before it: the last
settings that told the two apart ranked it first. The two registries are in the same order exactly
if no two engines that the final settings tie were overtaken like this.
-/

set_option autoImplicit false

namespace TranscodingEngines

def Operation.admits : Operation → Option Engine
  | register e => some e
  | _ => none

/-- The operation is not the registration of a whole catalog. -/
def Operation.IsSingle (operation : Operation) : Prop :=
  ∀ tools, operation ≠ .registerBuiltin tools

namespace Registry

variable {g : Registry} {x y : EngineId}

/-- The engines that a history hands in for registration, the first one first. -/
def handedIn (history : List (Environment × Operation)) : List Engine :=
  history.filterMap (·.2.admits)

/-- The history that hands in engines, each in its environment, and does nothing else. -/
def restart (arrivals : List (Environment × Engine)) : List (Environment × Operation) :=
  arrivals.map fun arrival => (arrival.1, .register arrival.2)

theorem handedIn_restart (arrivals : List (Environment × Engine)) :
    handedIn (restart arrivals) = arrivals.map (·.2) := by
  rw [handedIn, restart, List.filterMap_map, ← List.filterMap_eq_map]
  rfl

theorem isSingle_restart (arrivals : List (Environment × Engine)) :
    ∀ step ∈ restart arrivals, step.2.IsSingle := by
  intro step hStep
  obtain ⟨arrival, _, rfl⟩ := List.mem_map.mp hStep
  intro tools h
  cases h

/-! ## What is listed -/

theorem knows_eq_any (g : Registry) (id : EngineId) : g.knows id = g.order.any (·.same id) := by
  rw [knows, order, List.any_map]
  rfl

/-- The identifiers listed after an engine was handed in. -/
def arrive (ids : List EngineId) (e : Engine) : List EngineId :=
  if ids.any (·.same e.id) then ids else ids ++ [e.id]

theorem order_register_perm (env : Environment) (e : Engine) {ids : List EngineId}
    (h : g.order.Perm ids) : (g.register env e).registry.order.Perm (arrive ids e) := by
  rw [arrive, ← h.any_eq, ← knows_eq_any]
  cases hKnown : g.knows e.id with
  | true =>
    rw [if_pos rfl, (register_of_knows env hKnown).2]
    exact h
  | false =>
    have hRun := (g.run_register env e).order_perm
    rw [admission?, if_neg (ne_true_of_eq_false hKnown)] at hRun
    rw [if_neg Bool.false_ne_true]
    exact hRun.trans (h.append_right _)

theorem order_apply_perm (env : Environment) {operation : Operation}
    (hSingle : operation.IsSingle) {ids : List EngineId} (h : g.order.Perm ids) :
    (g.apply env operation).registry.order.Perm (operation.admits.toList.foldl arrive ids) := by
  have hRun := (g.run_apply env operation).order_perm
  cases operation with
  | register e => exact order_register_perm env e h
  | registerBuiltin tools => exact absurd rfl (hSingle tools)
  | setEnabled id enabled => simpa [admissions, Operation.admits] using hRun.trans (h.append_right _)
  | selectRole id r => simpa [admissions, Operation.admits] using hRun.trans (h.append_right _)
  | sort => simpa [admissions, Operation.admits] using hRun.trans (h.append_right _)
  | updateSettings s => simpa [admissions, Operation.admits] using hRun.trans (h.append_right _)

theorem order_applyAll_perm {history : List (Environment × Operation)}
    (hSingle : ∀ step ∈ history, step.2.IsSingle) {ids : List EngineId} (h : g.order.Perm ids) :
    (g.applyAll history).order.Perm ((handedIn history).foldl arrive ids) := by
  induction history generalizing g ids with
  | nil => exact h
  | cons step rest ih =>
    obtain ⟨env, operation⟩ := step
    have hNext := order_apply_perm env (hSingle _ List.mem_cons_self) h
    have hRest := ih (fun s hs => hSingle s (List.mem_cons_of_mem _ hs)) hNext
    rw [applyAll_cons]
    cases hAdmits : operation.admits with
    | none =>
      have hSame : handedIn ((env, operation) :: rest) = handedIn rest :=
        List.filterMap_cons_none hAdmits
      rw [hAdmits] at hRest
      rw [hSame]
      exact hRest
    | some e =>
      have hCons : handedIn ((env, operation) :: rest) = e :: handedIn rest :=
        List.filterMap_cons_some hAdmits
      rw [hAdmits] at hRest
      rw [hCons]
      exact hRest

/-! ## The settings in force -/

theorem settings_apply (env : Environment) {operation : Operation} (hSingle : operation.IsSingle) :
    (g.apply env operation).registry.settings = operation.adopts.getD g.settings := by
  cases operation with
  | register e =>
    simp only [apply, register]
    split <;> rfl
  | registerBuiltin tools => exact absurd rfl (hSingle tools)
  | setEnabled id enabled =>
    simp only [apply, setEnabled, modify]
    split
    · rfl
    · split <;> rfl
  | selectRole id r =>
    simp only [apply, selectRole, modify]
    split
    · rfl
    · split <;> rfl
  | sort => rfl
  | updateSettings s => rfl

theorem settings_applyAll {history : List (Environment × Operation)}
    (hSingle : ∀ step ∈ history, step.2.IsSingle) :
    (g.applyAll history).settings = (adopted history).getLastD g.settings := by
  induction history generalizing g with
  | nil => rfl
  | cons step rest ih =>
    obtain ⟨env, operation⟩ := step
    have hNext := g.settings_apply env (hSingle _ List.mem_cons_self)
    rw [applyAll_cons, ih fun s hs => hSingle s (List.mem_cons_of_mem _ hs), hNext]
    cases hAdopts : operation.adopts with
    | none =>
      have hRest : adopted ((env, operation) :: rest) = adopted rest :=
        List.filterMap_cons_none hAdopts
      rw [hRest]
      rfl
    | some s =>
      have hRest : adopted ((env, operation) :: rest) = s :: adopted rest :=
        List.filterMap_cons_some hAdopts
      rw [hRest, List.getLastD_cons]
      rfl

/-! ## Who arrives after whom -/

/-- The history lists the second identifier when the first is listed already, and these settings
have been in force since then. -/
def ArrivesAfter (settings : Settings) (history : List (Environment × Operation))
    (x y : EngineId) (inForce : List Settings) : Prop :=
  ∃ before env e after, history = before ++ (env, .register e) :: after ∧
    x ∈ ((empty settings).applyAll before).order ∧
    ((empty settings).applyAll before).knows e.id = false ∧ y = e.id ∧
    inForce = ((empty settings).applyAll before).settings :: adopted after

variable {settings : Settings} {history : List (Environment × Operation)}
  {inForce : List Settings}

theorem ArrivesAfter.concat (h : ArrivesAfter settings history x y inForce)
    (step : Environment × Operation) :
    ArrivesAfter settings (history ++ [step]) x y (inForce ++ adopted [step]) := by
  obtain ⟨before, env, e, after, rfl, hx, hNew, rfl, rfl⟩ := h
  refine ⟨before, env, e, after ++ [step], by simp, hx, hNew, rfl, ?_⟩
  rw [adopted, adopted, adopted, List.filterMap_append, List.cons_append]

theorem ArrivesAfter.orderedBy (h : ArrivesAfter settings history x y inForce) :
    ((empty settings).applyAll history).OrderedBy x y inForce := by
  obtain ⟨before, env, e, after, rfl, hx, hNew, rfl, rfl⟩ := h
  have hSorted : ((empty settings).applyAll before).Sorted :=
    ((empty settings).run_applyAll before).sorted List.Pairwise.nil
  have hAdmitted := orderedBy_admission ⟨(empty settings).applyAll before, env, e⟩ hx
  rw [← (register_of_new env hNew).2] at hAdmitted
  rw [applyAll_append, applyAll_cons]
  exact hAdmitted.applyAll ((run_register _ env e).sorted hSorted) after

theorem arrivesAfter_or (hSingle : ∀ step ∈ history, step.2.IsSingle)
    (hx : x ∈ ((empty settings).applyAll history).order)
    (hy : y ∈ ((empty settings).applyAll history).order) (hne : x ≠ y) :
    (∃ inForce, ArrivesAfter settings history x y inForce) ∨
      ∃ inForce, ArrivesAfter settings history y x inForce := by
  induction history using List.reverseRecOn with
  | nil => cases hx
  | append_singleton history step ih =>
    obtain ⟨env, operation⟩ := step
    have hBefore : ∀ step ∈ history, step.2.IsSingle :=
      fun s hs => hSingle s (List.mem_append_left _ hs)
    have hPerm := order_apply_perm (g := (empty settings).applyAll history) env
      (hSingle (env, operation) (by simp)) (.refl _)
    rw [applyAll_append, applyAll_cons, applyAll_nil] at hx hy
    rw [hPerm.mem_iff] at hx hy
    -- Two that were listed before have arrived before.
    have hEarlier : x ∈ ((empty settings).applyAll history).order →
        y ∈ ((empty settings).applyAll history).order →
        (∃ inForce, ArrivesAfter settings (history ++ [(env, operation)]) x y inForce) ∨
          ∃ inForce, ArrivesAfter settings (history ++ [(env, operation)]) y x inForce := by
      intro hx hy
      rcases ih hBefore hx hy with ⟨f, h⟩ | ⟨f, h⟩
      · exact .inl ⟨_, h.concat _⟩
      · exact .inr ⟨_, h.concat _⟩
    cases hAdmits : operation.admits with
    | none =>
      rw [hAdmits] at hx hy
      exact hEarlier hx hy
    | some e =>
      obtain rfl : operation = .register e := by
        cases operation <;> simp_all [Operation.admits]
      change x ∈ arrive _ e at hx
      change y ∈ arrive _ e at hy
      rw [arrive, ← knows_eq_any] at hx hy
      cases hNew : ((empty settings).applyAll history).knows e.id with
      | true =>
        rw [hNew, if_pos rfl] at hx hy
        exact hEarlier hx hy
      | false =>
        rw [hNew, if_neg Bool.false_ne_true, List.mem_append, List.mem_singleton] at hx hy
        rcases hx with hx | rfl
        · rcases hy with hy | rfl
          · exact hEarlier hx hy
          · exact .inl ⟨_, history, env, e, [], rfl, hx, hNew, rfl, rfl⟩
        · rcases hy with hy | rfl
          · exact .inr ⟨_, history, env, e, [], rfl, hy, hNew, rfl, rfl⟩
          · exact absurd rfl hne

/-! ## Overtaking -/

/-- The last of the settings that tells the two apart ranks the second one first. -/
def Overtakes (inForce : List Settings) (x y : EngineId) : Prop :=
  ∃ earlier s later, inForce = earlier ++ s :: later ∧ s.rankOfId y < s.rankOfId x ∧
    ∀ t ∈ later, t.rankOfId x = t.rankOfId y

theorem same_or_last_differs (inForce : List Settings) (x y : EngineId) :
    (∀ s ∈ inForce, s.rankOfId x = s.rankOfId y) ∨
      ∃ earlier s later, inForce = earlier ++ s :: later ∧ s.rankOfId x ≠ s.rankOfId y ∧
        ∀ t ∈ later, t.rankOfId x = t.rankOfId y := by
  induction inForce with
  | nil => exact .inl fun s hs => nomatch hs
  | cons s rest ih =>
    rcases ih with hSame | ⟨earlier, t, later, rfl, hDiffer, hLater⟩
    · by_cases hFirst : s.rankOfId x = s.rankOfId y
      · exact .inl (List.forall_mem_cons.mpr ⟨hFirst, hSame⟩)
      · exact .inr ⟨[], s, rest, rfl, hFirst, hSame⟩
    · exact .inr ⟨s :: earlier, t, later, rfl, hDiffer, hLater⟩

theorem OrderedBy.precedes_or (h : g.OrderedBy x y inForce) :
    g.Precedes x y ∨ g.Precedes y x ∧ Overtakes inForce x y := by
  rcases same_or_last_differs inForce x y with hSame | ⟨earlier, s, later, hSplit, hne, hLater⟩
  · exact .inl (h.same hSame)
  · obtain ⟨hFirst, hSecond⟩ := h.decided earlier s later hSplit hLater
    rcases UInt64.lt_or_lt_of_ne hne with hLt | hLt
    · exact .inl (hFirst hLt)
    · exact .inr ⟨hSecond hLt, earlier, s, later, hSplit, hLt, hLater⟩

theorem OrderedBy.precedes_swap_iff (h : g.OrderedBy x y inForce) (hDistinct : g.Distinct) :
    g.Precedes y x ↔ Overtakes inForce x y := by
  constructor
  · intro hSwap
    rcases h.precedes_or with hPrecedes | ⟨_, hOvertakes⟩
    · exact absurd hSwap (hPrecedes.not_swap hDistinct)
    · exact hOvertakes
  · rintro ⟨earlier, s, later, hSplit, hLt, hLater⟩
    exact (h.decided earlier s later hSplit hLater).2 hLt

theorem OrderedBy.precedes_iff (h : g.OrderedBy x y inForce) (hDistinct : g.Distinct) :
    g.Precedes x y ↔ ¬ Overtakes inForce x y := by
  rw [← h.precedes_swap_iff hDistinct]
  constructor
  · intro hPrecedes
    exact hPrecedes.not_swap hDistinct
  · intro hNot
    exact h.precedes_or.resolve_right fun hSwap => hNot hSwap.1

/-! ## Restarting -/

theorem adopted_restart (arrivals : List (Environment × Engine)) :
    adopted (restart arrivals) = [] := by
  rw [adopted, List.filterMap_eq_nil_iff]
  intro step hStep
  obtain ⟨arrival, _, rfl⟩ := List.mem_map.mp hStep
  rfl

theorem settings_restart (s : Settings) (arrivals : List (Environment × Engine)) :
    ((empty s).applyAll (restart arrivals)).settings = s := by
  rw [settings_applyAll (isSingle_restart arrivals), adopted_restart]
  rfl

/-- Who arrives after whom is the same in a restart, where only the final settings are in force. -/
theorem ArrivesAfter.restart (final : Settings) {arrivals : List (Environment × Engine)}
    (hSingle : ∀ step ∈ history, step.2.IsSingle)
    (hArrivals : arrivals.map (·.2) = handedIn history)
    (h : ArrivesAfter settings history x y inForce) :
    ArrivesAfter final (restart arrivals) x y [final] := by
  obtain ⟨before, env, e, after, rfl, hx, hNew, rfl, _⟩ := h
  have hHanded : handedIn (before ++ (env, .register e) :: after)
      = handedIn before ++ e :: handedIn after := by
    rw [handedIn, List.filterMap_append]
    rfl
  rw [hHanded, List.map_eq_append_iff] at hArrivals
  obtain ⟨first, rest, rfl, hFirst, hRest⟩ := hArrivals
  obtain ⟨⟨env', e'⟩, second, rfl, rfl, _⟩ := List.map_eq_cons_iff.mp hRest
  -- Both registries have listed the same identifiers when the engine arrives.
  have hListed := order_applyAll_perm (g := empty settings)
    (fun s hs => hSingle s (List.mem_append_left _ hs)) (.refl _)
  have hFresh := order_applyAll_perm (g := empty final) (isSingle_restart first)
    (.refl [])
  rw [handedIn_restart, hFirst] at hFresh
  have hPerm := hFresh.trans hListed.symm
  refine ⟨Registry.restart first, env', e', Registry.restart second, ?_, ?_, ?_, rfl, ?_⟩
  · rw [Registry.restart, List.map_append]
    rfl
  · exact hPerm.mem_iff.mpr hx
  · rw [knows_eq_any, hPerm.any_eq, ← knows_eq_any]
    exact hNew
  · rw [settings_restart, adopted_restart]

/-- Two registries that list the same engines under the same settings are in the same order if they
agree on those that the settings tie. -/
theorem order_eq_of_ties {fresh : Registry} (hPerm : fresh.order.Perm g.order)
    (hDistinct : g.Distinct) (hFreshDistinct : fresh.Distinct) (hSorted : g.Sorted)
    (hFreshSorted : fresh.Sorted) (hSettings : fresh.settings = g.settings)
    (hTies : ∀ x y, g.Precedes x y → x ∈ g.order → y ∈ g.order → x ≠ y →
      g.settings.rankOfId x = g.settings.rankOfId y → fresh.Precedes x y) :
    g.order = fresh.order := by
  -- It is enough that any two that stand in the first like this stand so in the second.
  have hHere : g.order.Pairwise fresh.Precedes := by
    rw [List.pairwise_iff_forall_sublist]
    intro x y hPair
    have hx : x ∈ g.order := hPair.subset (by simp)
    have hy : y ∈ g.order := hPair.subset (by simp)
    have hne : x ≠ y := by
      rintro rfl
      exact List.pairwise_iff_forall_sublist.mp hDistinct.nodup hPair rfl
    by_cases hTie : g.settings.rankOfId x = g.settings.rankOfId y
    · exact hTies x y hPair hx hy hne hTie
    · rcases UInt64.lt_or_lt_of_ne hTie with hLt | hLt
      · rw [← hSettings] at hLt
        exact hFreshSorted.precedes (hPerm.mem_iff.mpr hx) (hPerm.mem_iff.mpr hy) hLt
      · exact absurd (hSorted.precedes hy hx hLt) (Precedes.not_swap hPair hDistinct)
  have hThere : fresh.order.Pairwise fresh.Precedes :=
    List.pairwise_iff_forall_sublist.mpr fun hPair => hPair
  exact hPerm.symm.eq_of_pairwise (fun x y _ _ h h' => absurd h' (h.not_swap hFreshDistinct))
    hHere hThere

/-- A history and a restart with its final settings list the same engines. An engine that arrived
later stands first exactly if it overtook the earlier one, whereas the restart lists engines that the
final settings tie in the order of their arrival. So the two are in the same order if and only if no
two engines that the final settings tie were overtaken. -/
theorem order_eq_restart_iff (settings : Settings) (history : List (Environment × Operation))
    (arrivals : List (Environment × Engine)) (hSingle : ∀ step ∈ history, step.2.IsSingle)
    (hArrivals : arrivals.map (·.2) = handedIn history) :
    let g := (empty settings).applyAll history
    let fresh := (empty g.settings).applyAll (restart arrivals)
    fresh.order.Perm g.order ∧
    (∀ x y inForce, ArrivesAfter settings history x y inForce →
      (g.Precedes x y ↔ ¬ Overtakes inForce x y) ∧ (g.Precedes y x ↔ Overtakes inForce x y) ∧
        (g.settings.rankOfId x = g.settings.rankOfId y → fresh.Precedes x y)) ∧
    (g.order = fresh.order ↔ ∀ x y inForce, ArrivesAfter settings history x y inForce →
      g.settings.rankOfId x = g.settings.rankOfId y → ¬ Overtakes inForce x y) := by
  intro g fresh
  have hPerm : fresh.order.Perm g.order := by
    have hListed := order_applyAll_perm (g := empty settings) hSingle (.refl _)
    have hFresh := order_applyAll_perm (g := empty g.settings)
      (isSingle_restart arrivals) (.refl _)
    rw [handedIn_restart, hArrivals] at hFresh
    exact hFresh.trans hListed.symm
  have hRun := (empty settings).run_applyAll history
  have hRestarted := (empty g.settings).run_applyAll (restart arrivals)
  have hDistinct : g.Distinct := hRun.distinct List.Pairwise.nil
  have hFreshDistinct : fresh.Distinct := hRestarted.distinct List.Pairwise.nil
  have hSorted : g.Sorted := hRun.sorted List.Pairwise.nil
  have hFreshSorted : fresh.Sorted := hRestarted.sorted List.Pairwise.nil
  have hSettings : fresh.settings = g.settings := settings_restart g.settings arrivals
  have hTies : ∀ x y inForce, ArrivesAfter settings history x y inForce →
      g.settings.rankOfId x = g.settings.rankOfId y → fresh.Precedes x y := by
    intro x y inForce h hTie
    refine (h.restart g.settings hSingle hArrivals).orderedBy.same fun s hs => ?_
    rw [List.mem_singleton.mp hs]
    exact hTie
  refine ⟨hPerm, fun x y inForce h => ⟨h.orderedBy.precedes_iff hDistinct,
    h.orderedBy.precedes_swap_iff hDistinct, hTies x y inForce h⟩, ?_⟩
  constructor
  · intro hOrder x y inForce h hTie
    rw [← h.orderedBy.precedes_iff hDistinct, Precedes, hOrder]
    exact hTies x y inForce h hTie
  · intro hNone
    refine order_eq_of_ties hPerm hDistinct hFreshDistinct hSorted hFreshSorted hSettings ?_
    intro x y hPair hx hy hne hTie
    rcases arrivesAfter_or hSingle hx hy hne with ⟨f, h⟩ | ⟨f, h⟩
    · exact hTies x y f h hTie
    · have hKept := (h.orderedBy.precedes_iff hDistinct).mpr (hNone y x f h hTie.symm)
      exact absurd hKept (hPair.not_swap hDistinct)

/-- The history admits two engines, ranks the second one first, and withdraws the ranks. -/
def withdrawn (first second : Engine) : List (Environment × Operation) :=
  [(answering, .register first), (answering, .register second),
    (answering, .updateSettings (.ofLists [] [second.id.text] [])),
    (answering, .updateSettings .none)]

def dcraw : Engine := { halfInstalled with id := ⟨"DCRaw"⟩ }

theorem isSingle_withdrawn (first second : Engine) :
    ∀ step ∈ withdrawn first second, step.2.IsSingle := by
  simp [withdrawn, Operation.IsSingle]

theorem arrivesAfter_withdrawn : ArrivesAfter .none (withdrawn halfInstalled dcraw)
    halfInstalled.id dcraw.id [.none, .ofLists [] ["DCRaw"] [], .none] :=
  ⟨[(answering, .register halfInstalled)], answering, dcraw, _, rfl, by decide +kernel,
    by decide +kernel, rfl, rfl⟩

theorem overtakes_withdrawn :
    Overtakes [.none, .ofLists [] ["DCRaw"] [], .none] halfInstalled.id dcraw.id :=
  ⟨[.none], .ofLists [] ["DCRaw"] [], [.none], rfl, by decide +kernel, by decide +kernel⟩

theorem order_ne_restart_withdrawn :
    (∀ step ∈ withdrawn halfInstalled dcraw, step.2.IsSingle) ∧
      ([(answering, halfInstalled), (answering, dcraw)].map (·.2)
        = handedIn (withdrawn halfInstalled dcraw)) ∧
      ((empty .none).applyAll (withdrawn halfInstalled dcraw)).order
        ≠ ((empty .none).applyAll
            (restart [(answering, halfInstalled), (answering, dcraw)])).order := by
  refine ⟨isSingle_withdrawn _ _, rfl, fun hOrder => ?_⟩
  obtain ⟨_, _, hIff⟩ := order_eq_restart_iff .none (withdrawn halfInstalled dcraw)
    [(answering, halfInstalled), (answering, dcraw)] (isSingle_withdrawn _ _) rfl
  exact hIff.mp hOrder _ _ _ arrivesAfter_withdrawn rfl overtakes_withdrawn

theorem Precedes.order_eq (h : g.Precedes x y) (hPerm : g.order.Perm [x, y]) : g.order = [x, y] :=
  (List.Sublist.eq_of_length h hPerm.length_eq.symm).symm

/-- An engine that settings once put first stays first when they no longer tell it apart, although a
restart with the last settings puts it behind the engine registered before it. -/
theorem order_withdrawn :
    ((empty .none).applyAll (withdrawn halfInstalled dcraw)).settings = .none ∧
      ((empty .none).applyAll (withdrawn halfInstalled dcraw)).order
        = [dcraw.id, halfInstalled.id] ∧
      ((empty .none).applyAll (restart [(answering, halfInstalled), (answering, dcraw)])).order
        = [halfInstalled.id, dcraw.id] := by
  have hArrived : [halfInstalled, dcraw].foldl arrive [] = [halfInstalled.id, dcraw.id] := by
    decide +kernel
  have hListed := order_applyAll_perm (g := empty .none)
    (isSingle_withdrawn halfInstalled dcraw) (.refl _)
  have hFresh := order_applyAll_perm (g := empty .none)
    (isSingle_restart [(answering, halfInstalled), (answering, dcraw)]) (.refl _)
  have hOvertaken := (arrivesAfter_withdrawn.orderedBy.precedes_swap_iff
    (((empty .none).run_applyAll _).distinct List.Pairwise.nil)).mpr overtakes_withdrawn
  have hAgain : ArrivesAfter .none (restart [(answering, halfInstalled), (answering, dcraw)])
      halfInstalled.id dcraw.id [.none] :=
    arrivesAfter_withdrawn.restart .none (isSingle_withdrawn _ _) rfl
  have hKept := hAgain.orderedBy.same fun s hs => by
    rw [List.mem_singleton.mp hs]
    rfl
  refine ⟨rfl, hOvertaken.order_eq ?_, hKept.order_eq ?_⟩
  · exact (hListed.trans (.of_eq hArrived)).trans (.swap _ _ _)
  · exact hFresh.trans (.of_eq hArrived)

end Registry

end TranscodingEngines
