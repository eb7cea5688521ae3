import TranscodingEngines.Proofs.Registry.Updates

/-!
# The roster of a registry

The roster is the list without what verification found: the identifiers in their order, each with
the flag of its engine. What registering an engine makes of the roster depends on the settings in
force and on the identifier, and neither on the environment nor on whether a probe is interrupted.
So registering the engines of a catalog once more, after some of them were registered, ends in the
roster that registering them at once ends in.
-/

set_option autoImplicit false

namespace TranscodingEngines

/-- The identifiers of a list of engines, each with whether its engine is enabled. -/
abbrev Roster := List (EngineId × Bool)

namespace Roster

variable {s : Settings} {entries : Roster} {ids : List EngineId} {id : EngineId}

def knows (entries : Roster) (id : EngineId) : Bool := entries.any (·.1.same id)

/-- The roster after an engine with the identifier was handed in. -/
def enter (s : Settings) (entries : Roster) (id : EngineId) : Roster :=
  if entries.knows id then entries
  else (entries ++ [(id, s.isEnabled id)]).mergeSort fun a b => s.rankOfId a.1 ≤ s.rankOfId b.1

/-- The roster after engines with the identifiers were handed in one after the other. -/
def enterAll (s : Settings) (entries : Roster) (ids : List EngineId) : Roster :=
  ids.foldl (enter s) entries

theorem enterAll_append (s : Settings) (entries : Roster) (ids rest : List EngineId) :
    enterAll s entries (ids ++ rest) = enterAll s (enterAll s entries ids) rest :=
  List.foldl_append

theorem enter_of_knows (h : entries.knows id = true) : enter s entries id = entries := by
  rw [enter, if_pos h]

theorem enter_perm (h : entries.knows id = false) :
    (enter s entries id).Perm (entries ++ [(id, s.isEnabled id)]) := by
  rw [enter, if_neg (ne_true_of_eq_false h)]
  exact List.mergeSort_perm _ _

theorem knows_enter (s : Settings) (entries : Roster) (id other : EngineId) :
    (enter s entries id).knows other
      = (entries.knows other || (!entries.knows id && id.same other)) := by
  cases h : entries.knows id with
  | true => rw [enter_of_knows h, Bool.not_true, Bool.false_and, Bool.or_false]
  | false =>
    rw [knows, (enter_perm h).any_eq, List.any_append, List.any_cons, List.any_nil, Bool.or_false,
      Bool.not_false, Bool.true_and, knows]

theorem knows_enter_self (s : Settings) (entries : Roster) (id : EngineId) :
    (enter s entries id).knows id = true := by
  rw [knows_enter, EngineId.same_self, Bool.and_true, Bool.or_not_self]

theorem knows_enterAll (h : entries.knows id = true) :
    (enterAll s entries ids).knows id = true := by
  induction ids generalizing entries with
  | nil => exact h
  | cons x rest ih =>
    refine ih ?_
    rw [knows_enter, h, Bool.true_or]

theorem knows_enterAll_of_mem (h : id ∈ ids) : (enterAll s entries ids).knows id = true := by
  induction ids generalizing entries with
  | nil => cases h
  | cons x rest ih =>
    rcases List.mem_cons.mp h with rfl | h
    · have hLater : (enterAll s (enter s entries id) rest).knows id = true :=
        knows_enterAll (knows_enter_self s entries id)
      exact hLater
    · exact ih h

theorem knows_enterAll_of_apart (h : ∀ x ∈ ids, Registry.Apart x id) :
    (enterAll s entries ids).knows id = entries.knows id := by
  induction ids generalizing entries with
  | nil => rfl
  | cons x rest ih =>
    have hOther : x.same id = false := h x List.mem_cons_self
    refine (ih fun y hy => h y (List.mem_cons_of_mem x hy)).trans ?_
    rw [knows_enter, hOther, Bool.and_false, Bool.or_false]

theorem enterAll_of_knows (h : ∀ id ∈ ids, entries.knows id = true) :
    enterAll s entries ids = entries := by
  induction ids with
  | nil => rfl
  | cons x rest ih =>
    rw [enterAll, List.foldl_cons, enter_of_knows (h x List.mem_cons_self)]
    exact ih fun id hId => h id (List.mem_cons_of_mem x hId)

/-- Handing in engines of which the first ones were handed in before adds only the others. -/
theorem enterAll_prefix {first : List EngineId} (h : first <+: ids) :
    enterAll s (enterAll s entries first) ids = enterAll s entries ids := by
  obtain ⟨rest, rfl⟩ := h
  rw [enterAll_append, enterAll_append, enterAll_of_knows fun _ => knows_enterAll_of_mem]

/-- Handing in engines with different identifiers adds those that are not known, enabled as the
settings say. -/
theorem enterAll_perm (hApart : ids.Pairwise Registry.Apart) : (enterAll s entries ids).Perm
    (entries ++ (ids.filter (!entries.knows ·)).map fun id => (id, s.isEnabled id)) := by
  induction ids generalizing entries with
  | nil => rw [List.filter_nil, List.map_nil, List.append_nil]; rfl
  | cons x rest ih =>
    obtain ⟨hFirst, hRest⟩ := List.pairwise_cons.mp hApart
    have hLater : (enterAll s (enter s entries x) rest).Perm _ := ih hRest
    cases h : entries.knows x with
    | true =>
      rw [List.filter_cons_of_neg (by simp [h])]
      rw [enter_of_knows h] at hLater
      rw [enterAll, List.foldl_cons, enter_of_knows h]
      exact hLater
    | false =>
      -- The others are apart from this one, so they are known as before.
      have hSame : rest.filter (!(enter s entries x).knows ·) = rest.filter (!entries.knows ·) := by
        refine List.filter_congr fun id hId => ?_
        rw [knows_enter, h, Bool.not_false, Bool.true_and, hFirst id hId, Bool.or_false]
      rw [hSame] at hLater
      rw [List.filter_cons_of_pos (by simp [h]), List.map_cons, List.append_cons]
      exact hLater.trans ((enter_perm h).append_right _)

end Roster

namespace Registry

variable {g : Registry} {env : Environment}

def roster (g : Registry) : Roster := g.engines.map fun e => (e.id, e.enabled)

theorem knows_eq_roster (g : Registry) (id : EngineId) : g.knows id = g.roster.knows id := by
  rw [knows, Roster.knows, roster, List.any_map]
  rfl

/-! ## Registration -/

theorem roster_register (g : Registry) (env : Environment) (e : Engine) :
    (g.register env e).registry.roster = g.roster.enter g.settings e.id := by
  cases h : g.knows e.id with
  | true =>
    rw [(register_of_knows env h).2, Roster.enter_of_knows (by rw [← knows_eq_roster, h])]
  | false =>
    let a : Admission := ⟨g, env, e⟩
    have hEntry : (a.verified.engine.id, a.verified.engine.enabled)
        = (e.id, g.settings.isEnabled e.id) := by
      rw [a.id_verified, a.enabled_verified]
    have hSort : a.after.roster
        = ((g.engines ++ [a.verified.engine]).map fun k => (k.id, k.enabled)).mergeSort
          fun x y => g.settings.rankOfId x.1 ≤ g.settings.rankOfId y.1 :=
      List.map_mergeSort fun _ _ _ _ => rfl
    rw [List.map_append, List.map_singleton, hEntry] at hSort
    rw [(register_of_new env h).2, Roster.enter, ← knows_eq_roster, if_neg (ne_true_of_eq_false h)]
    exact hSort

theorem settings_registerAll (g : Registry) (env : Environment) (engines : List Engine) :
    (g.registerAll env engines).registry.settings = g.settings := by
  induction engines generalizing g with
  | nil => rfl
  | cons e rest ih =>
    have hFirst := g.settings_register env e
    rw [registerAll]
    cases (g.register env e).result with
    | error cause => exact hFirst
    | ok => exact (ih _).trans hFirst

/-- Registration takes in the engines from the front, and all of them unless it fails. -/
theorem exists_roster_registerAll (g : Registry) (env : Environment) (engines : List Engine) :
    ∃ taken, taken <+: engines ∧
      (g.registerAll env engines).registry.roster
        = g.roster.enterAll g.settings (taken.map (·.id)) ∧
      ((g.registerAll env engines).result = .ok () → taken = engines) := by
  induction engines generalizing g with
  | nil => exact ⟨[], List.prefix_rfl, rfl, fun _ => rfl⟩
  | cons e rest ih =>
    have hFirst := g.roster_register env e
    rw [registerAll]
    cases (g.register env e).result with
    | error cause =>
      refine ⟨[e], List.prefix_append [e] rest, hFirst, ?_⟩
      intro hOk
      cases hOk
    | ok =>
      obtain ⟨taken, hPrefix, hRoster, hAll⟩ := ih (g.register env e).registry
      refine ⟨e :: taken, List.cons_prefix_cons.mpr ⟨rfl, hPrefix⟩, ?_, ?_⟩
      · rw [hFirst, settings_register] at hRoster
        exact hRoster
      · intro hResult
        rw [hAll hResult]

theorem roster_registerAll_of_ok {engines : List Engine}
    (h : (g.registerAll env engines).result = .ok ()) :
    (g.registerAll env engines).registry.roster
      = g.roster.enterAll g.settings (engines.map (·.id)) := by
  obtain ⟨taken, _, hRoster, hAll⟩ := g.exists_roster_registerAll env engines
  rw [hRoster, hAll h]

end Registry

end TranscodingEngines
