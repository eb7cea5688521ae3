import TranscodingEngines.Proofs.Dispatch
import TranscodingEngines.Proofs.Registry.History

/-!
# Searches in a registry

The engines found for a resource are the active engines that it is compatible with, and the engine
found is the first of them. Both searches ask about active engines only, at most once each and in
the order of priority.
-/

set_option autoImplicit false

namespace TranscodingEngines

namespace Dispatch

/-- What the two searches for a resource find and ask about, when these are the active engines. -/
structure Serves (resource : Resource) (active : List Engine) (first all : Search) : Prop where
  found_all : all.found = active.filter resource.isCompatible
  asked_all : all.asked = active
  found_first : first.found = all.found.head?.toList
  found_first_eq_nil_iff : first.found = [] ↔ all.found = []
  endsAtMatch : EndsAtMatch resource active first

variable (resource : Resource) (engines : List Engine)

theorem filter_accepts :
    engines.filter (accepts resource)
      = (engines.filter Engine.isActive).filter resource.isCompatible := by
  rw [List.filter_filter]
  exact List.filter_congr fun e _ => Bool.and_comm _ _

theorem serves :
    Serves resource (engines.filter Engine.isActive) (first resource engines)
      (all resource engines) := by
  have hAll : (all resource engines).found = engines.filter (accepts resource) :=
    found_searchAll resource engines
  have hFirst : (first resource engines).found = (all resource engines).found.head?.toList := by
    rw [hAll, List.head?_filter]
    exact found_searchFirst resource engines
  refine ⟨by rw [hAll, filter_accepts], asked_searchAll resource engines, hFirst, ?_, ?_⟩
  · rw [hFirst, Option.toList_eq_nil_iff, List.head?_eq_none_iff]
  · rcases searchFirst_endsAtMatch resource engines with
      ⟨hNone, hFound, hAsked⟩ | ⟨hSplit, hBefore, hMatch, hFound, hAsked⟩
    · exact .exhausted hNone hFound hAsked
    · exact .matched hSplit hBefore hMatch hFound hAsked

end Dispatch

namespace Registry

theorem activeEngines_eq (g : Registry) : g.activeEngines = g.engines.filter Engine.isActive := by
  rw [activeEngines, select]
  exact List.filter_congr fun e _ => rfl

theorem activeEngines_sublist (g : Registry) : g.activeEngines.Sublist g.engines :=
  List.filter_sublist

/-- In any list of engines the two searches find the active engines that the resource is compatible
with, and nothing they do depends on an answer that they did not ask for. In a registry the active
engines are those listed as such, in the order of their ranks and without repetition. -/
theorem searches_applyAll (resource : Resource) :
    (∀ engines : List Engine,
      Dispatch.Serves resource (engines.filter fun e => e.enabled && e.isAvailable)
        (Dispatch.first resource engines) (Dispatch.all resource engines) ∧
      ∀ other,
        (Dispatch.AnswersAlike resource other (Dispatch.first resource engines).asked →
          Dispatch.first other engines = Dispatch.first resource engines) ∧
        (Dispatch.AnswersAlike resource other (Dispatch.all resource engines).asked →
          Dispatch.all other engines = Dispatch.all resource engines)) ∧
    ∀ (settings : Settings) (history : List (Environment × Operation)),
      let g := (empty settings).applyAll history
      Dispatch.Serves resource g.activeEngines (g.engineFor resource) (g.enginesFor resource) ∧
      (g.activeEngines.Sublist g.engines ∧
        g.activeEngines.Pairwise fun a b => a.id.same b.id = false) ∧
      g.activeEngines.Pairwise (fun a b => g.settings.rankOf a ≤ g.settings.rankOf b) ∧
      (g.enginesFor resource).found.Pairwise fun a b => g.settings.rankOf a ≤ g.settings.rankOf b := by
  constructor
  · intro engines
    refine ⟨Dispatch.serves resource engines, ?_⟩
    intro other
    exact ⟨Dispatch.first_congr, Dispatch.all_congr⟩
  · intro settings history g
    have hRun := (empty settings).run_applyAll history
    have hSorted : g.Sorted := hRun.sorted List.Pairwise.nil
    have hDistinct : g.Distinct := hRun.distinct List.Pairwise.nil
    have hServes := Dispatch.serves resource g.engines
    rw [← g.activeEngines_eq] at hServes
    have hActive := g.activeEngines_sublist
    refine ⟨hServes, ⟨hActive, (List.pairwise_map.mp hDistinct).sublist hActive⟩,
      hSorted.sublist hActive, ?_⟩
    have hFound : (g.enginesFor resource).found.Sublist g.activeEngines := by
      change (Dispatch.all resource g.engines).found.Sublist g.activeEngines
      rw [hServes.found_all]
      exact List.filter_sublist
    exact hSorted.sublist (hFound.trans hActive)

/-- The search for a song ends at the engine for sound, so what the resource says about the engine for
films behind it does not matter. -/
theorem searches_halfInstalled :
    let sound := { halfInstalled with id := ⟨"FFmpegAudio"⟩, purpose := .audioFile }
    let history := [(answering, Operation.register sound), (answering, .register halfInstalled)]
    let g := (empty .none).applyAll history
    let song : Resource := ⟨"song.flac", fun e => e.purpose == .audioFile⟩
    let other : Resource := ⟨"song.flac", fun _ => true⟩
    g.activeEngines.map (·.id) = [sound.id, halfInstalled.id] ∧
    (g.engineFor song).asked.map (·.id) = [sound.id] ∧
    (g.engineFor song).found = (g.enginesFor song).found.head?.toList ∧
    Dispatch.AnswersAlike song other (g.engineFor song).asked ∧
    g.engineFor other = g.engineFor song := by
  intro sound history g song other
  let before := (empty .none).applyAll [(answering, .register sound)]
  have hSorted : before.Sorted := ((empty .none).run_applyAll _).sorted List.Pairwise.nil
  have hEngines : g.engines = before.engines
      ++ [(⟨before, answering, halfInstalled⟩ : Admission).verified.engine] :=
    engines_register_of_last answering (by decide +kernel) hSorted (by decide +kernel)
  have hActive : g.activeEngines.map (·.id) = [sound.id, halfInstalled.id] := by
    rw [activeEngines_eq, hEngines]
    decide +kernel
  have hAsked : (g.engineFor song).asked.map (·.id) = [sound.id] := by
    rw [engineFor, hEngines]
    decide +kernel
  have hAnswers : Dispatch.AnswersAlike song other (g.engineFor song).asked := by
    refine ⟨rfl, ?_⟩
    rw [engineFor, hEngines]
    decide +kernel
  obtain ⟨hLists, hRegistries⟩ := searches_applyAll song
  obtain ⟨hServes, _⟩ := hRegistries .none history
  exact ⟨hActive, hAsked, hServes.found_first, hAnswers, ((hLists g.engines).2 other).1 hAnswers⟩

end Registry

end TranscodingEngines
