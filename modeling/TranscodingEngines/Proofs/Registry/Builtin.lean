import TranscodingEngines.Proofs.Registry.Conclusion
import TranscodingEngines.Proofs.Registry.Resumption

/-!
# The built-in engines in a fresh registry

Every engine that a fresh registry lists after the built-in ones were registered is declared by an
entry of the catalog, and all entries are listed unless a call was interrupted. No role is probed
more than once, so the calls are at most three times as many as the entries. If no engine ranks in
front of another one, the list is in the order of registration.
-/

set_option autoImplicit false

namespace TranscodingEngines

/-! ## The number of calls -/

theorem Environment.Examined.length_calls_le {env : Environment} {e : Engine} {r : Role}
    {met left : ProbeLedger} {f : Finding} (h : env.Examined e r met f left) :
    left.calls.length ≤ met.calls.length + 1 := by
  cases h with
  | interrupted => simp
  | judged => simp
  | _ => exact Nat.le_succ _

theorem Environment.length_exchanges_le (env : Environment) (e : Engine) (roles : List Role)
    (met : ProbeLedger) : (env.exchanges e roles met).length ≤ roles.length := by
  induction roles generalizing met with
  | nil => exact Nat.le_refl 0
  | cons r rest ih =>
    have hOne : (env.exchangesOf e (env.examination e r met)).length ≤ 1 := by
      rw [exchangesOf, List.length_map, List.length_drop]
      exact Nat.sub_le_iff_le_add'.mpr (env.examine_examined e r met).length_calls_le
    have hRest := ih (env.examination e r met).left
    rw [exchanges, course_cons, List.flatMap_cons, List.length_append, List.length_cons]
    rw [exchanges] at hRest
    split
    · rw [List.flatMap_nil, List.length_nil]
      omega
    · omega

theorem Admission.length_exchanges_le (a : Admission) : a.exchanges.length ≤ 3 :=
  Nat.le_trans (a.environment.length_exchanges_le a.engine a.engine.roles a.registry.ledger)
    (List.length_filter_le _ Role.all)

theorem Admission.length_flatMap_exchanges_le (log : List Admission) :
    (log.flatMap Admission.exchanges).length ≤ 3 * log.length := by
  induction log with
  | nil => exact Nat.le_refl 0
  | cons a log ih =>
    have hFirst := a.length_exchanges_le
    rw [List.flatMap_cons, List.length_append, List.length_cons]
    omega

namespace Registry

variable {g : Registry} {env : Environment} {engines : List Engine}

theorem admissionsOfAll_sublist (g : Registry) (env : Environment) (engines : List Engine) :
    ((g.admissionsOfAll env engines).map (·.engine)).Sublist engines := by
  induction engines generalizing g with
  | nil => exact List.Sublist.refl []
  | cons e rest ih =>
    have hFirst : ((g.admission? env e).map (·.engine)).Sublist [e] := by
      rw [admission?]
      split
      · exact List.nil_sublist _
      · exact List.Sublist.refl _
    rw [admissionsOfAll, List.map_append, ← List.singleton_append]
    refine List.Sublist.append hFirst ?_
    split
    · exact List.nil_sublist _
    · exact ih _

theorem length_calls_registerAll (g : Registry) (env : Environment) (engines : List Engine) :
    (g.registerAll env engines).registry.ledger.calls.length
      ≤ g.ledger.calls.length + 3 * engines.length := by
  rw [(g.run_registerAll env engines).grows.calls_eq, List.length_append, List.length_map]
  refine Nat.add_le_add_left ?_ _
  have hLength := (g.admissionsOfAll_sublist env engines).length_le
  rw [List.length_map] at hLength
  exact Nat.le_trans (Admission.length_flatMap_exchanges_le _) (Nat.mul_le_mul_left 3 hLength)

/-! ## The list -/

section Fresh

variable {settings : Settings} {tools : ToolPaths}

theorem exists_entry {e : Engine}
    (he : e ∈ ((empty settings).registerBuiltin env tools).registry.engines) :
    ∃ entry ∈ Catalog.entries env.platform,
      (Catalog.engine tools env.platform entry).declaration = e.declaration := by
  have hRun := (empty settings).run_registerAll env (Catalog.engines tools env.platform)
  obtain ⟨a, ha, hStanding⟩ := hRun.exists_admission rfl he
  have hEngine := ((empty settings).admissionsOfAll_sublist env _).subset
    (List.mem_map_of_mem (f := Admission.engine) ha)
  obtain ⟨entry, hEntry, hDeclared⟩ := List.mem_map.mp hEngine
  refine ⟨entry, hEntry, ?_⟩
  rw [hDeclared]
  exact Admission.declaration_of_standing hStanding

/-- Unless a call was interrupted, all built-in engines are listed. -/
theorem order_registerBuiltin
    (hResult : ((empty settings).registerBuiltin env tools).result = .ok ()) :
    ((empty settings).registerBuiltin env tools).registry.order.Perm (Catalog.ids env.platform) := by
  have hRoster := congrArg (List.map Prod.fst) (roster_registerBuiltin hResult)
  have hPerm : (Roster.enterAll settings [] (Catalog.ids env.platform)).Perm _ :=
    Roster.enterAll_perm (Catalog.ids_apart env.platform)
  have hEntered := hPerm.map Prod.fst
  have hAll : ∀ ids : List EngineId, (([] : Roster) ++
      (ids.filter (!Roster.knows [] ·)).map fun id => (id, settings.isEnabled id)).map Prod.fst
        = ids := by
    intro ids
    have hNone : ∀ id ∈ ids, (!Roster.knows [] id) = true := fun _ _ => rfl
    rw [List.nil_append, List.filter_eq_self.mpr hNone, List.map_map]
    exact List.map_id ids
  rw [hAll] at hEntered
  rw [roster, List.map_map] at hRoster
  refine List.Perm.trans (List.Perm.of_eq ?_) hEntered
  exact hRoster

end Fresh

/-! ## Engines without ranks -/

/-- Admits engines in their order and puts each at the end of the list. -/
def appendAll (g : Registry) (env : Environment) : List Engine → Registry
  | [] => g
  | e :: rest =>
    let verified := g.prepare env e
    let appended :=
      { g with engines := g.engines ++ [verified.engine], ledger := verified.ledger }
    if g.knows e.id then g.appendAll env rest
    else if verified.interruptedAt.isSome then appended
    else appended.appendAll env rest

/-- If no engine ranks in front of another one, registration puts each at the end of the list. -/
theorem registerAll_eq_appendAll (g : Registry) (env : Environment) (engines : List Engine)
    (hEqual : ∀ a b, g.settings.rankOfId a ≤ g.settings.rankOfId b) :
    (g.registerAll env engines).registry = g.appendAll env engines := by
  induction engines generalizing g with
  | nil => rfl
  | cons e rest ih =>
    rw [registerAll, appendAll]
    cases hKnown : g.knows e.id with
    | true =>
      obtain ⟨hResult, hRegistry⟩ := register_of_knows env hKnown
      simp only [hResult, hRegistry, if_true]
      exact ih g hEqual
    | false =>
      obtain ⟨hResult, hRegistry⟩ := register_of_new env hKnown
      let a : Admission := ⟨g, env, e⟩
      have hAfter : a.after = { g with
          engines := g.engines ++ [a.verified.engine], ledger := a.verified.ledger } := by
        rw [Admission.after, sortByPriority_of_sorted _ (List.pairwise_of_forall fun _ _ => ?_)]
        exact hEqual _ _
      rw [hAfter] at hRegistry
      change (g.register env e).result = if a.verified.interruptedAt.isSome then _ else _ at hResult
      change _ = if false then _ else if a.verified.interruptedAt.isSome then _ else _
      cases hAt : a.verified.interruptedAt.isSome with
      | true =>
        rw [hAt, if_pos rfl] at hResult
        simp only [hResult]
        exact hRegistry
      | false =>
        rw [hAt, if_neg Bool.false_ne_true] at hResult
        simp only [hResult]
        have hRest := ih (g.register env e).registry (by rw [hRegistry]; exact hEqual)
        rw [hRegistry] at hRest ⊢
        exact hRest

end Registry

end TranscodingEngines
