import TranscodingEngines.Media
import TranscodingEngines.Log

/-!
# Dispatch

Looking for an engine goes through a list in its order. Only an enabled and available engine is a
candidate, and only candidates are asked whether the resource is compatible with them. The first
match stops at the first engine that says yes; all matches go to the end. Both report what they did,
and `asked` reads off whom the resource was asked about.
-/

set_option autoImplicit false

namespace TranscodingEngines

/-- The course of a search: the engines found, those asked about, and what was reported. -/
structure Search where
  found : List Engine
  asked : List Engine
  events : List Log.Event

namespace Dispatch

def dismissal (e : Engine) : Log.Event :=
  let name := "Engine \"" ++ e.name ++ "\""
  if e.isAvailable then ⟨.trace, name ++ " is disabled"⟩
  else if e.enabled then ⟨.trace, name ++ " isn't available"⟩
  else ⟨.trace, name ++ " is neither available nor enabled"⟩

def answer (resource : Resource) (e : Engine) : Log.Event :=
  if resource.isCompatible e then
    ⟨.trace, "Engine \"" ++ e.name ++ "\" is compatible with resource \"" ++ resource.name ++ "\""⟩
  else ⟨.trace, "Engine \"" ++ e.name ++ "\" is incompatible"⟩

def searchFirst (resource : Resource) : List Engine → Search
  | [] => ⟨[], [], []⟩
  | e :: rest =>
    if e.isActive then
      if resource.isCompatible e then ⟨[e], [e], [answer resource e]⟩
      else
        let later := searchFirst resource rest
        ⟨later.found, e :: later.asked, answer resource e :: later.events⟩
    else
      let later := searchFirst resource rest
      { later with events := dismissal e :: later.events }

def searchAll (resource : Resource) : List Engine → Search
  | [] => ⟨[], [], []⟩
  | e :: rest =>
    let later := searchAll resource rest
    if e.isActive then
      ⟨if resource.isCompatible e then e :: later.found else later.found, e :: later.asked,
        answer resource e :: later.events⟩
    else { later with events := dismissal e :: later.events }

def first (resource : Resource) (engines : List Engine) : Search :=
  let search := searchFirst resource engines
  let opening : Log.Event := ⟨.trace, "Getting engine for resource \"" ++ resource.name ++ "\""⟩
  let closing : List Log.Event :=
    if search.found.isEmpty then [⟨.trace, "No engine found for " ++ resource.name⟩] else []
  { search with events := opening :: search.events ++ closing }

def all (resource : Resource) (engines : List Engine) : Search := searchAll resource engines

end Dispatch

end TranscodingEngines
