import TranscodingEngines.Proofs.Registry.History

/-!
# The order of two engines

Two engines come to stand by all the settings that have been in force since the later of them was
registered. Each of the settings sorts the list once more, and sorting moves the two only if their
ranks differ, so the last settings that rank them differently decide; without such settings they
stand in the order of their registration.
-/

set_option autoImplicit false

namespace TranscodingEngines

def Operation.adopts : Operation → Option Settings
  | updateSettings settings => some settings
  | _ => none

namespace Registry

variable {g : Registry} {x y : EngineId}

def Precedes (g : Registry) (x y : EngineId) : Prop := [x, y].Sublist g.order

/-- The settings that a history puts in force, the earliest first. -/
def adopted (history : List (Environment × Operation)) : List Settings :=
  history.filterMap (·.2.adopts)

/-! ## Sorting two engines -/

theorem order_updateSettings_perm (g : Registry) (s : Settings) :
    (g.updateSettings s).order.Perm g.order :=
  (sortByPriority_perm s g.engines).map _

theorem sorted_updateSettings (g : Registry) (s : Settings) : (g.updateSettings s).Sorted :=
  sortByPriority_sorted s g.engines

theorem Precedes.updateSettings (h : g.Precedes x y) {s : Settings}
    (hRank : s.rankOfId x ≤ s.rankOfId y) : (g.updateSettings s).Precedes x y := by
  obtain ⟨part, hPart, hIds⟩ := List.sublist_map_iff.mp h
  have hSorted : part.Pairwise fun a b => s.rankOf a ≤ s.rankOf b := by
    have hPair : [x, y].Pairwise fun a b => s.rankOfId a ≤ s.rankOfId b := by simpa using hRank
    rw [hIds, List.pairwise_map] at hPair
    exact hPair
  rw [Precedes, hIds]
  exact (sublist_sortByPriority s hSorted hPart).map _

theorem Sorted.precedes (h : g.Sorted) (hx : x ∈ g.order) (hy : y ∈ g.order)
    (hLt : g.settings.rankOfId x < g.settings.rankOfId y) : g.Precedes x y := by
  have hne : x ≠ y := by
    rintro rfl
    exact UInt64.lt_irrefl _ hLt
  rcases pair_sublist_or hx hy hne with hPair | hPair
  · exact hPair
  · have hLe := (sorted_iff.mp h).forall_sublist hPair
    exact absurd hLt (UInt64.not_lt.mpr hLe)

/-! ## The settings that decide -/

/-- Both identifiers are in the list, and they stand there as the settings decide: the last of them
that ranks the two differently puts the smaller rank first, and if there are none the one named
first precedes. -/
structure OrderedBy (g : Registry) (x y : EngineId) (inForce : List Settings) : Prop where
  left_mem : x ∈ g.order
  right_mem : y ∈ g.order
  same : (∀ s ∈ inForce, s.rankOfId x = s.rankOfId y) → g.Precedes x y
  decided : ∀ earlier s later, inForce = earlier ++ s :: later →
    (∀ t ∈ later, t.rankOfId x = t.rankOfId y) →
    (s.rankOfId x < s.rankOfId y → g.Precedes x y) ∧ (s.rankOfId y < s.rankOfId x → g.Precedes y x)

namespace OrderedBy

variable {inForce : List Settings}

theorem of_sublist (h : g.OrderedBy x y inForce) {m : Registry} (hOrder : g.order.Sublist m.order) :
    m.OrderedBy x y inForce where
  left_mem := hOrder.subset h.left_mem
  right_mem := hOrder.subset h.right_mem
  same hSame := (h.same hSame).trans hOrder
  decided earlier s later hSplit hLater := by
    obtain ⟨hLeft, hRight⟩ := h.decided earlier s later hSplit hLater
    exact ⟨fun hLt => (hLeft hLt).trans hOrder, fun hLt => (hRight hLt).trans hOrder⟩

theorem updateSettings (h : g.OrderedBy x y inForce) (s : Settings) :
    (g.updateSettings s).OrderedBy x y (inForce ++ [s]) := by
  have hPerm := g.order_updateSettings_perm s
  have hLeft := hPerm.mem_iff.mpr h.left_mem
  have hRight := hPerm.mem_iff.mpr h.right_mem
  have hSorted := g.sorted_updateSettings s
  refine ⟨hLeft, hRight, ?_, ?_⟩
  · intro hSame
    have hBefore := h.same fun t ht => hSame t (List.mem_append_left _ ht)
    have hLast := hSame s (List.mem_append_right _ List.mem_cons_self)
    exact hBefore.updateSettings (UInt64.le_of_eq hLast)
  · intro earlier t later hSplit hLater
    -- Either the new settings decide, or they agree and leave the decision as it was.
    rcases List.eq_nil_or_concat later with rfl | ⟨rest, u, rfl⟩
    · obtain ⟨_, hLast⟩ := List.append_inj' hSplit rfl
      obtain rfl := (List.cons.inj hLast).1
      exact ⟨hSorted.precedes hLeft hRight, hSorted.precedes hRight hLeft⟩
    · have hAssoc : inForce ++ [s] = (earlier ++ t :: rest) ++ [u] := by
        rw [hSplit, List.concat_eq_append, List.append_assoc, List.cons_append]
      obtain ⟨hBefore, hLast⟩ := List.append_inj' hAssoc rfl
      obtain rfl := (List.cons.inj hLast).1
      rw [List.concat_eq_append] at hLater
      have hEqual := hLater s (List.mem_append_right _ List.mem_cons_self)
      obtain ⟨hFirst, hSecond⟩ := h.decided earlier t rest hBefore
        fun v hv => hLater v (List.mem_append_left _ hv)
      constructor
      · intro hLt
        exact (hFirst hLt).updateSettings (UInt64.le_of_eq hEqual)
      · intro hLt
        exact (hSecond hLt).updateSettings (UInt64.le_of_eq hEqual.symm)

end OrderedBy

/-- An engine is registered behind those that the list holds, and the settings in force sort it. -/
theorem orderedBy_admission (a : Admission) (hx : x ∈ a.registry.order) :
    a.after.OrderedBy x a.engine.id [a.registry.settings] := by
  -- Registration is sorting with the engine put behind the others, where no settings decide yet.
  let joined : Registry := { a.registry with
    engines := a.registry.engines ++ [a.verified.engine]
    ledger := a.verified.ledger }
  have hOrder : joined.order = a.registry.order ++ [a.engine.id] := by
    rw [order, List.map_append, List.map_singleton, a.id_verified]
    rfl
  have hJoined : joined.OrderedBy x a.engine.id [] := by
    refine ⟨?_, ?_, ?_, ?_⟩
    · rw [hOrder]
      exact List.mem_append_left _ hx
    · rw [hOrder]
      exact List.mem_append_right _ List.mem_cons_self
    · intro _
      rw [Precedes, hOrder]
      exact (List.singleton_sublist.mpr hx).append (List.Sublist.refl [a.engine.id])
    · intro earlier s later hSplit
      simp at hSplit
  exact hJoined.updateSettings a.registry.settings

/-! ## Histories -/

theorem order_sublist_register (hSorted : g.Sorted) (env : Environment) (e : Engine) :
    g.order.Sublist (g.register env e).registry.order := by
  cases h : g.knows e.id with
  | true =>
    rewrite [(register_of_knows env h).2]
    exact List.Sublist.refl _
  | false =>
    rw [(register_of_new env h).2]
    exact (sublist_sortByPriority g.settings hSorted (List.sublist_append_left _ _)).map _

theorem order_sublist_registerAll (hSorted : g.Sorted) (env : Environment)
    (engines : List Engine) : g.order.Sublist (g.registerAll env engines).registry.order := by
  induction engines generalizing g with
  | nil => exact List.Sublist.refl _
  | cons e rest ih =>
    have hFirst := order_sublist_register hSorted env e
    rw [registerAll]
    cases (g.register env e).result with
    | error cause => exact hFirst
    | ok => exact hFirst.trans (ih ((g.run_register env e).sorted hSorted))

theorem order_sublist_modify (g : Registry) (id : String) {f : Engine → Engine}
    (report : Engine → List Log.Event) (hStanding : ∀ e, (f e).standing = e.standing) :
    g.order.Sublist (g.modify id f report).registry.order := by
  rw [modify]
  split
  · exact List.Sublist.refl _
  · split
    · exact List.Sublist.refl _
    · rewrite [order_change _ hStanding]
      exact List.Sublist.refl _

/-- An operation that puts no settings in force leaves the engines of a sorted list in order. -/
theorem order_sublist_apply (hSorted : g.Sorted) (env : Environment) {operation : Operation}
    (h : operation.adopts = none) : g.order.Sublist (g.apply env operation).registry.order := by
  cases operation with
  | register e => exact order_sublist_register hSorted env e
  | registerBuiltin tools => exact order_sublist_registerAll hSorted env _
  | setEnabled id enabled => exact g.order_sublist_modify id _ fun _ => rfl
  | selectRole id r =>
    refine g.order_sublist_modify id _ fun e => ?_
    split <;> rfl
  | sort =>
    have hSame : sortByPriority g.settings g.engines = g.engines :=
      sortByPriority_of_sorted g.settings hSorted
    change g.order.Sublist ((sortByPriority g.settings g.engines).map (·.id))
    rewrite [hSame]
    exact List.Sublist.refl _
  | updateSettings settings => cases h

theorem OrderedBy.applyAll (hSorted : g.Sorted) {inForce : List Settings}
    (h : g.OrderedBy x y inForce) (history : List (Environment × Operation)) :
    (g.applyAll history).OrderedBy x y (inForce ++ adopted history) := by
  induction history generalizing g inForce with
  | nil => simpa [adopted] using h
  | cons step rest ih =>
    obtain ⟨env, operation⟩ := step
    have hNext := (g.run_apply env operation).sorted hSorted
    rw [applyAll_cons]
    cases hAdopts : operation.adopts with
    | none =>
      have hRest : adopted ((env, operation) :: rest) = adopted rest :=
        List.filterMap_cons_none hAdopts
      rw [hRest]
      exact ih hNext (h.of_sublist (order_sublist_apply hSorted env hAdopts))
    | some s =>
      have hRest : adopted ((env, operation) :: rest) = [s] ++ adopted rest :=
        List.filterMap_cons_some hAdopts
      have hOperation : operation = .updateSettings s := by
        cases operation <;> simp_all [Operation.adopts]
      subst hOperation
      rw [hRest, ← List.append_assoc]
      exact ih hNext (h.updateSettings s)

theorem Distinct.nodup (h : g.Distinct) : g.order.Nodup :=
  h.imp fun {a b} hApart hEq => by simp [Apart, hEq] at hApart

theorem Precedes.not_swap (h : g.Precedes x y) (hDistinct : g.Distinct) : ¬ g.Precedes y x :=
  not_pair_sublist_swap hDistinct.nodup h

/-- Two engines stand as the settings decide that have been in force since the later of them was
registered: the last settings that rank them differently put the smaller rank first, and if there
are none the engine registered earlier precedes. The list is always sorted by the settings in
force. -/
theorem precedence_applyAll (settings : Settings) :
    (∀ (before after : List (Environment × Operation)) (env : Environment) (a b : Engine),
      a ∈ ((empty settings).applyAll before).engines →
      ((empty settings).applyAll before).knows b.id = false →
      let g := (empty settings).applyAll (before ++ (env, .register b) :: after)
      let inForce := ((empty settings).applyAll before).settings :: adopted after
      ((∀ s ∈ inForce, s.rankOfId a.id = s.rankOfId b.id) →
        g.Precedes a.id b.id ∧ ¬ g.Precedes b.id a.id) ∧
      ∀ earlier s later, inForce = earlier ++ s :: later →
        s.rankOfId a.id ≠ s.rankOfId b.id →
        (∀ t ∈ later, t.rankOfId a.id = t.rankOfId b.id) →
        (g.Precedes a.id b.id ↔ s.rankOfId a.id < s.rankOfId b.id) ∧
        (g.Precedes b.id a.id ↔ s.rankOfId b.id < s.rankOfId a.id)) ∧
    ∀ history, ((empty settings).applyAll history).Sorted := by
  have hSorted : ∀ history, ((empty settings).applyAll history).Sorted :=
    fun history => ((empty settings).run_applyAll history).sorted List.Pairwise.nil
  refine ⟨?_, hSorted⟩
  intro before after env a b ha hNew g inForce
  have hAdmitted := orderedBy_admission ⟨(empty settings).applyAll before, env, b⟩
    (List.mem_map_of_mem ha)
  have hOrdered : g.OrderedBy a.id b.id inForce := by
    rw [← (register_of_new env hNew).2] at hAdmitted
    have hLater := hAdmitted.applyAll ((run_register _ env b).sorted (hSorted before)) after
    have hAll : g = (((empty settings).applyAll before).apply env (.register b)).registry.applyAll
        after := by
      rw [← applyAll_cons, ← applyAll_append]
    rw [hAll]
    exact hLater
  have hDistinct : g.Distinct :=
    ((empty settings).run_applyAll _).distinct List.Pairwise.nil
  constructor
  · intro hSame
    have hPrecedes := hOrdered.same hSame
    exact ⟨hPrecedes, hPrecedes.not_swap hDistinct⟩
  · intro earlier s later hSplit hDiffer hLater
    obtain ⟨hFirst, hSecond⟩ := hOrdered.decided earlier s later hSplit hLater
    rcases UInt64.lt_or_lt_of_ne hDiffer with hLt | hLt
    · have hPrecedes := hFirst hLt
      exact ⟨iff_of_true hPrecedes hLt,
        iff_of_false (hPrecedes.not_swap hDistinct) (UInt64.lt_asymm hLt)⟩
    · have hPrecedes := hSecond hLt
      exact ⟨iff_of_false (hPrecedes.not_swap hDistinct) (UInt64.lt_asymm hLt),
        iff_of_true hPrecedes hLt⟩

/-- An engine registered later comes first once settings rank it. -/
theorem precedence_halfInstalled :
    let other := { halfInstalled with id := ⟨"DCRaw"⟩ }
    let before := [(answering, Operation.register halfInstalled)]
    let after := [(answering, Operation.updateSettings (.ofLists [] ["DCRaw"] []))]
    ((empty .none).applyAll before).knows other.id = false ∧
      ∃ a ∈ ((empty .none).applyAll before).engines, a.id = halfInstalled.id ∧
        ((empty .none).applyAll (before ++ (answering, .register other) :: after)).Precedes
          other.id a.id := by
  intro other before after
  have hNew : ((empty .none).applyAll before).knows other.id = false := by decide +kernel
  have hSome : ∃ a ∈ ((empty .none).applyAll before).engines, a.id = halfInstalled.id := by
    decide +kernel
  obtain ⟨a, ha, hId⟩ := hSome
  have hRanks : (Settings.ofLists [] ["DCRaw"] []).rankOfId other.id
      < (Settings.ofLists [] ["DCRaw"] []).rankOfId a.id := by
    rw [hId]
    decide +kernel
  obtain ⟨_, hDecided⟩ := (precedence_applyAll .none).1 before after answering a other ha hNew
  have hOrder := hDecided [.none] _ [] rfl (UInt64.ne_of_lt hRanks).symm (by simp)
  exact ⟨hNew, a, ha, hId, hOrder.2.mpr hRanks⟩

end Registry

end TranscodingEngines
