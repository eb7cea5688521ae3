import TranscodingEngines.Host.Basic

/-!
# Where walks arrive

A walk that ends well takes one of a few kinds of steps at every name. `Arrives` lists them, and a
walk arrives exactly where it ends. A walk looks at directories and links on its way only, so putting
a file at its end changes nothing but what stands there.
-/

set_option autoImplicit false

namespace TranscodingEngines

def Destination.location : Destination → Location
  | entry at_ _ => at_
  | free at_ _ => at_

def Destination.entry? : Destination → Option TreeEntry
  | entry _ found => some found
  | free _ _ => none

namespace FileTree

/-! ## The entry at a location -/

theorem get?_erase_of_ne (t : FileTree) {at_ other : Location} (h : other ≠ at_) :
    (t.erase at_).get? other = t.get? other := by
  cases other with
  | nil => rfl
  | cons name rest =>
    change (List.find? _ (t.entries.filter _)).map _ = (t.entries.find? _).map _
    rw [List.find?_filter]
    congr 2
    funext entry
    by_cases hEntry : entry.1 = name :: rest
    · have hOther : entry.1 ≠ at_ := fun hAt => h (hEntry.symm.trans hAt)
      simp [hEntry, hEntry ▸ hOther]
    · simp [hEntry]

theorem get?_put_of_ne (t : FileTree) {at_ other : Location} (h : other ≠ at_) (entry : TreeEntry) :
    (t.put at_ entry).get? other = t.get? other := by
  rw [← get?_erase_of_ne t h]
  cases other with
  | nil => rfl
  | cons name rest =>
    change (List.find? _ ((t.erase at_).entries ++ [(at_, entry)])).map _ = _
    rw [List.find?_append]
    have hLast : List.find? (·.1 == name :: rest) [(at_, entry)] = none := by
      simpa using Ne.symm h
    rw [hLast, Option.or_none]
    rfl

theorem get?_put_self (t : FileTree) {at_ : Location} (h : at_ ≠ []) (entry : TreeEntry) :
    (t.put at_ entry).get? at_ = some entry := by
  cases at_ with
  | nil => exact absurd rfl h
  | cons name rest =>
    change (List.find? _ ((t.erase (name :: rest)).entries ++ [(name :: rest, entry)])).map _ = _
    have hGone : (t.erase (name :: rest)).entries.find? (·.1 == name :: rest) = none := by
      rw [erase, List.find?_filter]
      simp
    rw [List.find?_append, hGone]
    simp

/-! ## The steps of a walk -/

/-- A directory is there that the caller may search. -/
def Enterable (t : FileTree) (caller : Caller) (here : Location) (permissions : Permissions) : Prop :=
  t.get? here = some (.directory permissions) ∧ caller.maySearch permissions = true

/-- A name that stands for an entry of a directory. -/
structure IsProper (name : String) : Prop where
  dot : (name == ".") = false
  up : (name == "..") = false
  short : ¬ longestName < byteLength name

/-- A link is followed at this point of a walk. -/
structure IsFollowed (aim : Aim) (rest : List String) (target : String) : Prop where
  name : (rest.isEmpty && aim == .name) = false
  some : target.isEmpty = false
  file : (rest.isEmpty && aim == .file && FilePath.endsInSlash ⟨target⟩) = false

/-- A walk with these steps arrives at the destination. -/
inductive Arrives (t : FileTree) (caller : Caller) (aim : Aim) :
    (links : Nat) → Location → List String → Destination → Prop where
  | done {links : Nat} {here : Location} {entry : TreeEntry} (hHere : t.get? here = some entry) :
      Arrives t caller aim links here [] (.entry here entry)
  | dot {links : Nat} {here : Location} {rest : List String} {permissions : Permissions}
      {d : Destination} (hHere : t.Enterable caller here permissions)
      (hRest : Arrives t caller aim links here rest d) :
      Arrives t caller aim links here ("." :: rest) d
  | up {links : Nat} {here : Location} {rest : List String} {permissions : Permissions}
      {d : Destination} (hHere : t.Enterable caller here permissions)
      (hRest : Arrives t caller aim links here.dropLast rest d) :
      Arrives t caller aim links here (".." :: rest) d
  | free {links : Nat} {here : Location} {name : String} {permissions : Permissions}
      (hHere : t.Enterable caller here permissions) (hName : IsProper name)
      (hFree : t.get? (here ++ [name]) = none) :
      Arrives t caller aim links here [name] (.free (here ++ [name]) permissions)
  | stop {links : Nat} {here : Location} {name target : String} {permissions : Permissions}
      (hHere : t.Enterable caller here permissions) (hName : IsProper name)
      (hLink : t.get? (here ++ [name]) = some (.link target)) (hAim : aim = .name) :
      Arrives t caller aim links here [name] (.entry (here ++ [name]) (.link target))
  | link {links : Nat} {here : Location} {name target : String} {rest : List String}
      {permissions : Permissions} {d : Destination}
      (hHere : t.Enterable caller here permissions) (hName : IsProper name)
      (hLink : t.get? (here ++ [name]) = some (.link target)) (hFollowed : IsFollowed aim rest target)
      (hRest : Arrives t caller aim links (startOf target here) (stepsOf target ++ rest) d) :
      Arrives t caller aim (links + 1) here (name :: rest) d
  | down {links : Nat} {here : Location} {name : String} {rest : List String}
      {permissions : Permissions} {entry : TreeEntry} {d : Destination}
      (hHere : t.Enterable caller here permissions) (hName : IsProper name)
      (hEntry : t.get? (here ++ [name]) = some entry) (hLink : ∀ target, entry ≠ .link target)
      (hRest : Arrives t caller aim links (here ++ [name]) rest d) :
      Arrives t caller aim links here (name :: rest) d

variable {t : FileTree} {caller : Caller} {aim : Aim} {links : Nat} {here : Location}
  {steps : List String} {d : Destination}

theorem arrives_of_walk (h : t.walk caller aim links here steps = .ok d) :
    t.Arrives caller aim links here steps d := by
  fun_induction t.walk caller aim links here steps with
  | case1 aim links here entry hHere =>
    cases h
    exact .done hHere
  | case4 aim links here name rest permissions hHere hSearch hDot ih =>
    obtain rfl : name = "." := by simpa using hDot
    exact .dot ⟨hHere, by simpa using hSearch⟩ (ih h)
  | case5 aim links here name rest permissions hHere hSearch hDot hUp ih =>
    obtain rfl : name = ".." := by simpa using hUp
    exact .up ⟨hHere, by simpa using hSearch⟩ (ih h)
  | case7 aim links here name rest permissions hHere hSearch hDot hUp hShort hFree hRest =>
    obtain rfl : rest = [] := by simpa using hRest
    cases h
    exact .free ⟨hHere, by simpa using hSearch⟩ ⟨by simpa using hDot, by simpa using hUp, hShort⟩ hFree
  | case9 aim links here name rest permissions hHere hSearch hDot hUp hShort target hLink hAim =>
    obtain ⟨rfl, rfl⟩ : rest = [] ∧ aim = .name := by simpa using hAim
    cases h
    exact .stop ⟨hHere, by simpa using hSearch⟩ ⟨by simpa using hDot, by simpa using hUp, hShort⟩
      hLink rfl
  | case14 aim here name rest permissions hHere hSearch hDot hUp hShort target hLink hAim links start
      hTarget hFile ih =>
    exact .link ⟨hHere, by simpa using hSearch⟩ ⟨by simpa using hDot, by simpa using hUp, hShort⟩
      hLink ⟨eq_false_of_ne_true hAim, eq_false_of_ne_true hTarget, eq_false_of_ne_true hFile⟩ (ih h)
  | case15 aim links here name rest permissions hHere hSearch hDot hUp hShort entry hLink hEntry ih =>
    exact .down ⟨hHere, by simpa using hSearch⟩ ⟨by simpa using hDot, by simpa using hUp, hShort⟩
      hEntry hLink (ih h)
  | _ => cases h

section Steps

variable {name : String} {rest : List String} {permissions : Permissions}
  (hHere : t.Enterable caller here permissions)

include hHere

theorem walk_dot :
    t.walk caller aim links here ("." :: rest) = t.walk caller aim links here rest := by
  obtain ⟨hDirectory, hSearch⟩ := hHere
  rw [walk]
  simp only [hDirectory, hSearch, Bool.not_true, Bool.false_eq_true, if_false, beq_self_eq_true,
    if_true]

theorem walk_up :
    t.walk caller aim links here (".." :: rest) = t.walk caller aim links here.dropLast rest := by
  obtain ⟨hDirectory, hSearch⟩ := hHere
  have hDot : (".." == ".") = false := by decide
  rw [walk]
  simp only [hDirectory, hSearch, hDot, Bool.not_true, Bool.false_eq_true, if_false,
    beq_self_eq_true, if_true]

variable (hName : IsProper name)

include hName

theorem walk_free (hFree : t.get? (here ++ [name]) = none) :
    t.walk caller aim links here [name] = .ok (.free (here ++ [name]) permissions) := by
  obtain ⟨hDirectory, hSearch⟩ := hHere
  rw [walk]
  simp only [hDirectory, hSearch, hName.dot, hName.up, hName.short, hFree, Bool.not_true,
    Bool.false_eq_true, if_false, List.isEmpty_nil, if_true]

theorem walk_stop {target : String} (hLink : t.get? (here ++ [name]) = some (.link target)) :
    t.walk caller .name links here [name] = .ok (.entry (here ++ [name]) (.link target)) := by
  obtain ⟨hDirectory, hSearch⟩ := hHere
  rw [walk]
  simp only [hDirectory, hSearch, hName.dot, hName.up, hName.short, hLink, Bool.not_true,
    Bool.false_eq_true, if_false, List.isEmpty_nil, beq_self_eq_true, Bool.and_self, if_true]

theorem walk_link {target : String} (hLink : t.get? (here ++ [name]) = some (.link target))
    (hFollowed : IsFollowed aim rest target) :
    t.walk caller aim (links + 1) here (name :: rest)
      = t.walk caller aim links (startOf target here) (stepsOf target ++ rest) := by
  obtain ⟨hDirectory, hSearch⟩ := hHere
  rw [walk]
  simp only [hDirectory, hSearch, hName.dot, hName.up, hName.short, hLink, hFollowed.name,
    hFollowed.some, hFollowed.file, Bool.not_true, Bool.false_eq_true, if_false]

theorem walk_down {entry : TreeEntry} (hEntry : t.get? (here ++ [name]) = some entry)
    (hLink : ∀ target, entry ≠ .link target) :
    t.walk caller aim links here (name :: rest)
      = t.walk caller aim links (here ++ [name]) rest := by
  obtain ⟨hDirectory, hSearch⟩ := hHere
  rw [walk]
  simp only [hDirectory, hSearch, hName.dot, hName.up, hName.short, hEntry, Bool.not_true,
    Bool.false_eq_true, if_false]

end Steps

theorem walk_of_arrives (h : t.Arrives caller aim links here steps d) :
    t.walk caller aim links here steps = .ok d := by
  induction h with
  | done hHere =>
    rw [walk]
    simp only [hHere]
  | dot hHere hRest ih => rw [walk_dot hHere, ih]
  | up hHere hRest ih => rw [walk_up hHere, ih]
  | free hHere hName hFree => exact walk_free hHere hName hFree
  | stop hHere hName hLink hAim => exact hAim ▸ walk_stop hHere hName hLink
  | link hHere hName hLink hFollowed hRest ih => rw [walk_link hHere hName hLink hFollowed, ih]
  | down hHere hName hEntry hLink hRest ih => rw [walk_down hHere hName hEntry hLink, ih]

/-- A walk ends well exactly where its steps arrive. -/
theorem walk_eq_ok_iff :
    t.walk caller aim links here steps = .ok d ↔ t.Arrives caller aim links here steps d :=
  ⟨arrives_of_walk, walk_of_arrives⟩

/-! ## Files put where a walk arrives -/

namespace Arrives

theorem get?_location (h : t.Arrives caller aim links here steps d) :
    t.get? d.location = d.entry? := by
  induction h with
  | done hHere => exact hHere
  | free _ _ hFree => exact hFree
  | stop _ _ hLink _ => exact hLink
  | dot _ _ ih | up _ _ ih | link _ _ _ _ _ ih | down _ _ _ _ _ ih => exact ih

/-- A walk to a file that may be made goes through the same entries as a walk to what is there. -/
theorem entry_of_file (h : t.Arrives caller .file links here steps d) :
    t.Arrives caller .entry links here steps d := by
  generalize hAim : Aim.file = aim at h
  induction h with
  | done hHere => exact .done hHere
  | dot hHere _ ih => exact .dot hHere ih
  | up hHere _ ih => exact .up hHere ih
  | free hHere hName hFree => exact .free hHere hName hFree
  | stop _ _ _ hName => exact absurd (hAim.trans hName) (by decide)
  | link hHere hName hLink hFollowed _ ih =>
    refine .link hHere hName hLink ⟨?_, hFollowed.some, ?_⟩ ih
    · exact Bool.and_false _
    · rw [show (Aim.entry == Aim.file) = false from rfl, Bool.and_false, Bool.false_and]
  | down hHere hName hEntry hLink _ ih => exact .down hHere hName hEntry hLink ih

end Arrives

/-- A file stands at a location, or nothing does. -/
def TakesFile (t : FileTree) (at_ : Location) : Prop :=
  t.get? at_ = none ∨ ∃ permissions bytes, t.get? at_ = some (.file permissions bytes)

theorem TakesFile.ne_nil {at_ : Location} (h : t.TakesFile at_) : at_ ≠ [] := by
  rintro rfl
  rcases h with h | ⟨_, _, h⟩ <;> cases h

theorem TakesFile.ne_of_enterable {at_ : Location} (h : t.TakesFile at_) {permissions : Permissions}
    (hHere : t.Enterable caller here permissions) : here ≠ at_ := by
  rintro rfl
  rcases h with h | ⟨_, _, h⟩ <;> cases h.symm.trans hHere.1

section Put

variable {at_ : Location} (hTakes : t.TakesFile at_) (permissions : Permissions) (bytes : List UInt8)

include hTakes

theorem TakesFile.enterable_put {other : Permissions} (hHere : t.Enterable caller here other) :
    (t.put at_ (.file permissions bytes)).Enterable caller here other :=
  ⟨(get?_put_of_ne t (hTakes.ne_of_enterable hHere) _).trans hHere.1, hHere.2⟩

/-- The walk that found the place of a file leads to the file after it was put there. -/
theorem Arrives.put (h : t.Arrives caller .entry links here steps d)
    (hEnd : d.location = at_) :
    (t.put at_ (.file permissions bytes)).Arrives caller .entry links here steps
      (.entry at_ (.file permissions bytes)) := by
  have hSelf := get?_put_self t hTakes.ne_nil (.file permissions bytes)
  generalize hAim : Aim.entry = aim at h ⊢
  induction h with
  | done hHere =>
    obtain rfl := hEnd
    exact .done hSelf
  | dot hHere _ ih => exact .dot (hTakes.enterable_put permissions bytes hHere) (ih hEnd)
  | up hHere _ ih => exact .up (hTakes.enterable_put permissions bytes hHere) (ih hEnd)
  | free hHere hName hFree =>
    obtain rfl := hEnd
    exact .down (hTakes.enterable_put permissions bytes hHere) hName hSelf
      (fun _ h => nomatch h) (.done hSelf)
  | stop _ _ _ hName => exact absurd (hAim.trans hName) (by decide)
  | @link _ here name _ _ _ _ hHere hName hLink hFollowed _ ih =>
    have hOther : here ++ [name] ≠ at_ := by
      rintro rfl
      rcases hTakes with h | ⟨_, _, h⟩ <;> cases h.symm.trans hLink
    exact .link (hTakes.enterable_put permissions bytes hHere) hName
      ((get?_put_of_ne t hOther _).trans hLink) hFollowed (ih hEnd)
  | @down _ here name _ _ entry _ hHere hName hEntry hLink _ ih =>
    by_cases hThere : here ++ [name] = at_
    · exact .down (hTakes.enterable_put permissions bytes hHere) hName
        ((congrArg _ hThere).trans hSelf) (fun _ h => nomatch h) (ih hEnd)
    · exact .down (hTakes.enterable_put permissions bytes hHere) hName
        ((get?_put_of_ne t hThere _).trans hEntry) hLink (ih hEnd)

end Put

end FileTree

end TranscodingEngines
