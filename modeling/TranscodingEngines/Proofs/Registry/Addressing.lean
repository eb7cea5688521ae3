import TranscodingEngines.Proofs.Engine.Naming
import TranscodingEngines.Proofs.Dispatch
import TranscodingEngines.Proofs.Registry.History

/-!
# Engines addressed by raw texts

No two engines of a registry have the same identifier, so a raw text names one engine at most, and
all operations by identifier mean the engine that looking up the text finds. A change by identifier
fails for a blank text and for one that names no engine, and otherwise replaces that one engine
where it stands.
-/

set_option autoImplicit false

namespace TranscodingEngines

namespace Registry

variable {g : Registry} {e : Engine} {raw : String}

/-! ## The engine that a raw text names -/

theorem Distinct.eq_of_isNamedBy (h : g.Distinct) {k : Engine} (he : e ∈ g.engines)
    (hk : k ∈ g.engines) (hName : e.id.isNamedBy raw = true) (hOther : k.id.isNamedBy raw = true) :
    k = e := by
  have hEngines := List.pairwise_map.mp h
  have : Std.Symm fun a b : Engine => Apart a.id b.id := ⟨fun _ _ => Apart.symm⟩
  by_contra hne
  have hApart : k.id.same e.id = false := hEngines.forall hk he hne
  rw [EngineId.same_of_isNamedBy hOther hName] at hApart
  cases hApart

/-- At most one engine has an identifier with a property that tells identifiers apart. -/
theorem Distinct.length_filter_le (h : g.Distinct) {p : EngineId → Bool}
    (hp : ∀ a b, p a = true → p b = true → a.same b = true) :
    (g.engines.filter (p ·.id)).length ≤ 1 := by
  have hApart : (g.engines.filter (p ·.id)).Pairwise fun a b => Apart a.id b.id :=
    (List.pairwise_map.mp h).sublist List.filter_sublist
  have hHolds : ∀ k ∈ g.engines.filter (p ·.id), p k.id = true :=
    fun k hk => (List.mem_filter.mp hk).2
  generalize g.engines.filter (p ·.id) = part at hApart hHolds ⊢
  rcases part with _ | ⟨a, _ | ⟨b, rest⟩⟩
  · exact Nat.zero_le 1
  · exact Nat.le_refl 1
  · have hOther : b ∈ a :: b :: rest := List.mem_cons_of_mem a List.mem_cons_self
    have hDiffer : a.id.same b.id = false := (List.pairwise_cons.mp hApart).1 b List.mem_cons_self
    rw [hp a.id b.id (hHolds a List.mem_cons_self) (hHolds b hOther)] at hDiffer
    cases hDiffer

theorem of_lookup_eq_some (h : g.lookup raw = some e) :
    e ∈ g.engines ∧ e.id.isNamedBy raw = true := by
  rw [lookup] at h
  have hName := List.find?_some h
  exact ⟨List.mem_of_find?_eq_some h, hName⟩

theorem exists_lookup_eq_some (he : e ∈ g.engines) (hName : e.id.isNamedBy raw = true) :
    ∃ k, g.lookup raw = some k := by
  rw [← Option.isSome_iff_exists, lookup, List.find?_isSome]
  exact ⟨e, he, hName⟩

theorem Distinct.lookup_eq_some_iff (h : g.Distinct) :
    g.lookup raw = some e ↔ e ∈ g.engines ∧ e.id.isNamedBy raw = true := by
  constructor
  · exact of_lookup_eq_some
  · rintro ⟨he, hName⟩
    obtain ⟨k, hFound⟩ := exists_lookup_eq_some he hName
    obtain ⟨hk, hOther⟩ := of_lookup_eq_some hFound
    rw [hFound, h.eq_of_isNamedBy he hk hName hOther]

theorem isActive_eq_blank_iff :
    g.isActive raw = .error .blankEngineId ↔ Text.isBlank raw = true := by
  rw [isActive]
  split
  · rename_i hBlank
    exact iff_of_true rfl hBlank
  · rename_i hInk
    exact iff_of_false (fun h => nomatch h) hInk

theorem Distinct.isActive_eq_true_iff (h : g.Distinct) (hInk : Text.isBlank raw = false) :
    g.isActive raw = .ok true ↔ ∃ e ∈ g.activeEngines, e.id.isNamedBy raw = true := by
  rw [isActive, if_neg (ne_true_of_eq_false hInk), Except.ok.injEq, Option.any_eq_true]
  constructor
  · rintro ⟨e, hFound, hActive⟩
    obtain ⟨he, hName⟩ := h.lookup_eq_some_iff.mp hFound
    exact ⟨e, mem_activeEngines.mpr ⟨he, Engine.isActive_iff.mp hActive⟩, hName⟩
  · rintro ⟨e, hActive, hName⟩
    obtain ⟨he, hWorks⟩ := mem_activeEngines.mp hActive
    exact ⟨e, h.lookup_eq_some_iff.mpr ⟨he, hName⟩, Engine.isActive_iff.mpr hWorks⟩

/-! ## Changes -/

/-- The second registry is the first one with one engine in another state. -/
def Replaces (g : Registry) (e e' : Engine) (other : Registry) : Prop :=
  ∃ before after, g.engines = before ++ e :: after ∧
    other = { g with engines := before ++ e' :: after }

/-- How a change of the engine that a raw text names can end. -/
inductive Modified (g : Registry) (raw : String) (f : Engine → Engine) : Outcome → Prop
  | blank (hBlank : Text.isBlank raw = true) :
      Modified g raw f (g.unchanged (.error .blankEngineId) [])
  | unknown (hInk : Text.isBlank raw = false) (hNone : g.lookup raw = none) :
      Modified g raw f (g.unchanged (.error (.unknownEngine raw)) [])
  | found {e : Engine} {outcome : Outcome} (hInk : Text.isBlank raw = false)
      (hFound : g.lookup raw = some e) (hResult : outcome.result = .ok ())
      (hReplaces : g.Replaces e (f e) outcome.registry) :
      Modified g raw f outcome

theorem modifyFirst_append {p : Engine → Bool} (f : Engine → Engine) {before : List Engine}
    (after : List Engine) (hBefore : ∀ k ∈ before, (!p k) = true) (he : p e = true) :
    modifyFirst p f (before ++ e :: after) = before ++ f e :: after := by
  induction before with
  | nil => rw [List.nil_append, modifyFirst, if_pos he, List.nil_append]
  | cons k before ih =>
    have hk : ¬ p k = true := by simpa using hBefore k List.mem_cons_self
    rw [List.cons_append, modifyFirst, if_neg hk,
      ih fun x hx => hBefore x (List.mem_cons_of_mem k hx), List.cons_append]

theorem modify_modified (g : Registry) (raw : String) (f : Engine → Engine)
    (report : Engine → List Log.Event) : Modified g raw f (g.modify raw f report) := by
  rw [modify]
  split
  · rename_i hBlank
    exact .blank hBlank
  · rename_i hInk
    have hInk := eq_false_of_ne_true hInk
    split
    · rename_i hNone
      exact .unknown hInk hNone
    · rename_i e hFound
      obtain ⟨hName, before, after, hSplit, hBefore⟩ := List.find?_eq_some_iff_append.mp hFound
      refine .found hInk hFound rfl ⟨before, after, hSplit, ?_⟩
      rw [hSplit, modifyFirst_append f after hBefore hName]

theorem setEnabled_modified (g : Registry) (raw : String) (enabled : Bool) :
    Modified g raw (fun e => { e with enabled := enabled }) (g.setEnabled raw enabled) :=
  g.modify_modified raw _ _

theorem selectRole_modified (g : Registry) (raw : String) (r : Role) :
    Modified g raw (fun e => if e.declares r then { e with currentRole := r } else e)
      (g.selectRole raw r) :=
  g.modify_modified raw _ _

/-- A change by identifier fails for a blank text and for one that names no engine; otherwise it
replaces the engine that looking up the text finds. -/
structure ChangesNamed (g : Registry) (raw : String) (f : Engine → Engine) (outcome : Outcome) :
    Prop where
  blank_iff : outcome.result = .error .blankEngineId ↔ Text.isBlank raw = true
  unknown_iff : Text.isBlank raw = false →
    (outcome.result = .error (.unknownEngine raw) ↔ g.lookup raw = none)
  replaces : outcome.result = .ok () →
    ∃ e, g.lookup raw = some e ∧ g.Replaces e (f e) outcome.registry

theorem Modified.changesNamed {f : Engine → Engine} {outcome : Outcome}
    (h : Modified g raw f outcome) : g.ChangesNamed raw f outcome := by
  cases h with
  | blank hBlank =>
    refine ⟨iff_of_true rfl hBlank, ?_, fun h => nomatch h⟩
    intro hInk
    rw [hBlank] at hInk
    cases hInk
  | unknown hInk hNone =>
    exact ⟨iff_of_false (fun h => nomatch h) (ne_true_of_eq_false hInk),
      fun _ => iff_of_true rfl hNone, fun h => nomatch h⟩
  | found hInk hFound hResult hReplaces =>
    refine ⟨?_, ?_, fun _ => ⟨_, hFound, hReplaces⟩⟩
    · rw [hResult]
      exact iff_of_false (fun h => nomatch h) (ne_true_of_eq_false hInk)
    · intro _
      rw [hResult, hFound]
      exact iff_of_false (fun h => nomatch h) (fun h => nomatch h)

/-! ## Agreement -/

/-- All operations by identifier mean the same engine by a raw text, or none. -/
structure AgreesOn (g : Registry) (raw : String) : Prop where
  lookup_blank : Text.isBlank raw = true → g.lookup raw = none
  isActive_blank_iff : g.isActive raw = .error .blankEngineId ↔ Text.isBlank raw = true
  isActive_iff : Text.isBlank raw = false →
    (g.isActive raw = .ok true ↔ ∃ e ∈ g.activeEngines, e.id.isNamedBy raw = true)
  executableFor : g.executableFor raw = (g.lookup raw).bind Engine.executable
  setEnabled : ∀ enabled,
    g.ChangesNamed raw (fun e => { e with enabled := enabled }) (g.setEnabled raw enabled)
  selectRole : ∀ r, g.ChangesNamed raw
    (fun e => if e.declares r then { e with currentRole := r } else e) (g.selectRole raw r)

theorem Distinct.agreesOn (h : g.Distinct) (hSpelt : ∀ e ∈ g.engines, e.id.IsSpelt)
    (raw : String) : g.AgreesOn raw where
  lookup_blank hBlank := by
    rw [lookup, List.find?_eq_none]
    intro e he
    rw [(hSpelt e he).isNamedBy_of_isBlank hBlank]
    exact Bool.false_ne_true
  isActive_blank_iff := isActive_eq_blank_iff
  isActive_iff hInk := h.isActive_eq_true_iff hInk
  executableFor := rfl
  setEnabled enabled := (g.setEnabled_modified raw enabled).changesNamed
  selectRole r := (g.selectRole_modified raw r).changesNamed

/-- In a registry whose engines have identifiers made from texts that are not blank, the identifiers
differ, a raw text names one engine at most, every respelling of an identifier leads to its engine,
and all operations by identifier agree on it. -/
theorem addressing_applyAll (settings : Settings) (history : List (Environment × Operation))
    (hSpelt : ∀ e ∈ ((empty settings).applyAll history).engines, e.id.IsSpelt) :
    let g := (empty settings).applyAll history
    (g.engines.Pairwise fun a b => a.id.same b.id = false) ∧
    (∀ raw, (g.engines.filter (·.id.isNamedBy raw)).length ≤ 1) ∧
    (∀ e ∈ g.engines, ∀ raw, e.id.RespeltBy raw → g.lookup raw = some e) ∧
    ∀ raw, g.AgreesOn raw := by
  intro g
  have hDistinct : g.Distinct := ((empty settings).run_applyAll history).distinct List.Pairwise.nil
  refine ⟨List.pairwise_map.mp hDistinct, ?_, ?_, hDistinct.agreesOn hSpelt⟩
  · intro raw
    exact hDistinct.length_filter_le (p := (·.isNamedBy raw)) fun _ _ =>
      EngineId.same_of_isNamedBy
  · intro e he raw hRespelt
    exact hDistinct.lookup_eq_some_iff.mpr ⟨he, (hSpelt e he).isNamedBy_iff.mpr hRespelt⟩

/-- The half-installed engine is disabled under a respelling of its identifier. -/
theorem addressing_halfInstalled :
    let g := (empty .none).applyAll [(answering, .register halfInstalled)]
    let raw := "\tffmpegVIDEO\u3000"
    (∀ e ∈ g.engines, e.id.IsSpelt) ∧ ∃ e ∈ g.engines, e.id.RespeltBy raw ∧
      g.lookup raw = some e ∧ (g.setEnabled raw false).result = .ok () ∧
      g.Replaces e { e with enabled := false } (g.setEnabled raw false).registry := by
  intro g raw
  have hIds : ∀ e ∈ g.engines, e.id = ⟨"FFmpegVideo"⟩ := by decide +kernel
  have hSpelt : ∀ e ∈ g.engines, e.id.IsSpelt := by
    intro e he
    rw [hIds e he]
    exact ⟨"FFmpegVideo", by decide, by decide⟩
  have hSome : ∃ e ∈ g.engines, e.id = ⟨"FFmpegVideo"⟩ := by decide +kernel
  obtain ⟨e, he, hId⟩ := hSome
  have hRespelt : e.id.RespeltBy raw := by
    rw [hId]
    exact ⟨"\t", "ffmpegVIDEO", "\u3000", by decide, by decide, by decide, by decide⟩
  have hResult : (g.setEnabled raw false).result = .ok () := by decide +kernel
  obtain ⟨_, _, hLookup, hAgrees⟩ :=
    addressing_applyAll .none [(answering, .register halfInstalled)] hSpelt
  have hFound := hLookup e he raw hRespelt
  obtain ⟨k, hSame, hReplaces⟩ := ((hAgrees raw).setEnabled false).replaces hResult
  obtain rfl : e = k := Option.some.inj (hFound.symm.trans hSame)
  exact ⟨hSpelt, e, he, hRespelt, hFound, hResult, hReplaces⟩

end Registry

end TranscodingEngines
