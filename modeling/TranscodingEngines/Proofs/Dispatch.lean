import TranscodingEngines.Registry.Basic

/-!
# What a search finds

A search finds active engines that the resource is compatible with: the first of them, or all of
them in the order of the list. The resource is asked about active engines only, in the order of the
list, and about none behind the first match if no more are wanted; a resource that answers the same
about those it is asked about is served the same.
-/

set_option autoImplicit false

namespace TranscodingEngines

theorem Engine.isActive_iff {e : Engine} :
    e.isActive = true ↔ e.enabled = true ∧ e.isAvailable = true := by
  rw [isActive, Bool.and_eq_true]

namespace Dispatch

variable (resource : Resource)

/-- An active engine that the resource is compatible with. -/
def accepts (e : Engine) : Bool := e.isActive && resource.isCompatible e

theorem found_searchFirst (engines : List Engine) :
    (searchFirst resource engines).found = (engines.find? (accepts resource)).toList := by
  induction engines with
  | nil => rfl
  | cons e rest ih =>
    rw [searchFirst, List.find?_cons, accepts]
    cases e.isActive with
    | true =>
      cases resource.isCompatible e with
      | true => rfl
      | false => exact ih
    | false => exact ih

theorem found_searchAll (engines : List Engine) :
    (searchAll resource engines).found = engines.filter (accepts resource) := by
  induction engines with
  | nil => rfl
  | cons e rest ih =>
    rw [searchAll, List.filter_cons, accepts, ← ih]
    cases e.isActive with
    | true =>
      cases resource.isCompatible e with
      | true => rfl
      | false => rfl
    | false => rfl

/-! ## Whom the resource is asked about -/

/-- The course of a search for the first match through the candidates: all of them were asked about
in vain, or those up to the first match. -/
inductive EndsAtMatch (candidates : List Engine) (search : Search) : Prop
  | exhausted (hNone : ∀ e ∈ candidates, resource.isCompatible e = false)
      (hFound : search.found = []) (hAsked : search.asked = candidates)
  | matched {before after : List Engine} {e : Engine} (hSplit : candidates = before ++ e :: after)
      (hBefore : ∀ x ∈ before, resource.isCompatible x = false)
      (hMatch : resource.isCompatible e = true)
      (hFound : search.found = [e]) (hAsked : search.asked = before ++ [e])

variable {resource} in
theorem EndsAtMatch.cons {candidates : List Engine} {search later : Search} {e : Engine}
    (h : EndsAtMatch resource candidates later) (hReject : resource.isCompatible e = false)
    (hFound : search.found = later.found) (hAsked : search.asked = e :: later.asked) :
    EndsAtMatch resource (e :: candidates) search := by
  cases h with
  | exhausted hNone hLater hAll =>
    refine .exhausted ?_ (hFound.trans hLater) (by rw [hAsked, hAll])
    intro x hx
    rcases List.mem_cons.mp hx with rfl | hx
    · exact hReject
    · exact hNone x hx
  | @matched before after m hSplit hBefore hMatch hLater hPart =>
    have hCons : e :: candidates = (e :: before) ++ m :: after := by
      rw [hSplit, List.cons_append]
    refine .matched hCons ?_ hMatch (hFound.trans hLater) (by rw [hAsked, hPart, List.cons_append])
    intro x hx
    rcases List.mem_cons.mp hx with rfl | hx
    · exact hReject
    · exact hBefore x hx

theorem searchFirst_endsAtMatch (engines : List Engine) :
    EndsAtMatch resource (engines.filter Engine.isActive) (searchFirst resource engines) := by
  induction engines with
  | nil => exact .exhausted (fun e he => nomatch he) rfl rfl
  | cons e rest ih =>
    rw [searchFirst, List.filter_cons]
    cases e.isActive with
    | true =>
      cases hMatch : resource.isCompatible e with
      | true =>
        exact .matched (List.nil_append (e :: _)).symm (fun x hx => nomatch hx) hMatch rfl rfl
      | false => exact ih.cons hMatch rfl rfl
    | false =>
      -- An engine that is not active leaves what is found and asked as it is.
      rcases ih with ⟨hNone, hFound, hAsked⟩ | ⟨hSplit, hBefore, hMatch, hFound, hAsked⟩
      · exact .exhausted hNone hFound hAsked
      · exact .matched hSplit hBefore hMatch hFound hAsked

theorem asked_searchAll (engines : List Engine) :
    (searchAll resource engines).asked = engines.filter Engine.isActive := by
  induction engines with
  | nil => rfl
  | cons e rest ih =>
    rw [searchAll, List.filter_cons, ← ih]
    cases e.isActive with
    | true => rfl
    | false => rfl

/-- A resource of the same name with the same answers about those asked about. -/
structure AnswersAlike (other : Resource) (asked : List Engine) : Prop where
  name : other.name = resource.name
  answers : ∀ e ∈ asked, other.isCompatible e = resource.isCompatible e

variable {resource} {other : Resource}

theorem answer_congr {e : Engine} (hName : other.name = resource.name)
    (hAnswer : other.isCompatible e = resource.isCompatible e) :
    answer other e = answer resource e := by
  rw [answer, answer, hAnswer, hName]

theorem searchFirst_congr {engines : List Engine}
    (h : AnswersAlike resource other (searchFirst resource engines).asked) :
    searchFirst other engines = searchFirst resource engines := by
  induction engines with
  | nil => rfl
  | cons e rest ih =>
    rw [searchFirst] at h ⊢
    rw [searchFirst]
    cases hActive : e.isActive with
    | true =>
      simp only [hActive, if_true] at h ⊢
      cases hMatch : resource.isCompatible e with
      | true =>
        simp only [hMatch, if_true] at h ⊢
        have hSame := h.answers e List.mem_cons_self
        rw [answer_congr h.name hSame, hSame, hMatch, if_pos rfl]
      | false =>
        simp only [hMatch] at h ⊢
        have hSame := h.answers e List.mem_cons_self
        have hLater := ih ⟨h.name, fun x hx => h.answers x (List.mem_cons_of_mem _ hx)⟩
        rw [answer_congr h.name hSame, hSame, hMatch, hLater]
    | false =>
      simp only [hActive] at h ⊢
      rw [ih ⟨h.name, h.answers⟩]
      rfl

theorem first_congr {engines : List Engine}
    (h : AnswersAlike resource other (first resource engines).asked) :
    first other engines = first resource engines := by
  simp only [first, searchFirst_congr ⟨h.name, h.answers⟩, h.name]

theorem all_congr {engines : List Engine}
    (h : AnswersAlike resource other (all resource engines).asked) :
    all other engines = all resource engines := by
  rw [all] at h ⊢
  rw [all]
  induction engines with
  | nil => rfl
  | cons e rest ih =>
    rw [searchAll] at h ⊢
    rw [searchAll]
    cases hActive : e.isActive with
    | true =>
      simp only [hActive, if_true] at h ⊢
      have hSame := h.answers e List.mem_cons_self
      have hLater := ih ⟨h.name, fun x hx => h.answers x (List.mem_cons_of_mem _ hx)⟩
      rw [answer_congr h.name hSame, hSame, hLater]
    | false =>
      simp only [hActive] at h ⊢
      rw [ih ⟨h.name, h.answers⟩]
      rfl

end Dispatch

namespace Registry

variable {g : Registry} {e : Engine}

theorem mem_activeEngines :
    e ∈ g.activeEngines ↔ e ∈ g.engines ∧ e.enabled = true ∧ e.isAvailable = true := by
  simp [activeEngines, select]

theorem found_engineFor (resource : Resource) : (g.engineFor resource).found
    = (g.engines.find? (Dispatch.accepts resource)).toList :=
  Dispatch.found_searchFirst resource g.engines

theorem found_enginesFor (resource : Resource) : (g.enginesFor resource).found
    = g.engines.filter (Dispatch.accepts resource) :=
  Dispatch.found_searchAll resource g.engines

theorem mem_activeEngines_of_enginesFor {resource : Resource}
    (h : e ∈ (g.enginesFor resource).found) : e ∈ g.activeEngines := by
  rw [found_enginesFor, List.mem_filter, Dispatch.accepts, Bool.and_eq_true] at h
  obtain ⟨hMem, hActive, _⟩ := h
  exact mem_activeEngines.mpr ⟨hMem, Engine.isActive_iff.mp hActive⟩

theorem mem_enginesFor_of_engineFor {resource : Resource}
    (h : e ∈ (g.engineFor resource).found) : e ∈ (g.enginesFor resource).found := by
  rw [found_engineFor, Option.mem_toList] at h
  rw [found_enginesFor, List.mem_filter]
  exact ⟨List.mem_of_find?_eq_some h, List.find?_some h⟩

end Registry

end TranscodingEngines
