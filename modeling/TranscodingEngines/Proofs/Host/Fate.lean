import TranscodingEngines.Proofs.Host.ReadBack

/-!
# What a path comes to

A path leads to an entry, or something on the way is missing or in the way, may not be searched or
cannot be named, or there are more links than are followed. `Ends` says which, step by step, with the
number of links and without a bound on it, so steps that go round come to nothing. A walk that may
follow as many links answers accordingly, and a walk that does not give up has come to something. So
the answer to a path tells what it comes to.
-/

set_option autoImplicit false

namespace TranscodingEngines

/-- What a path comes to. -/
inductive Fate where
  /-- It leads to an entry. -/
  | entry (at_ : Location) (entry : TreeEntry)
  /-- A name on the way or at the end is missing, or a link leads nowhere. -/
  | missing
  /-- A name before the last one is no directory. -/
  | blocked
  /-- A directory on the way may not be searched. -/
  | denied
  /-- The path or one of its names is longer than any can be. -/
  | tooLong
  /-- The path holds a character that none can hold. -/
  | unwritable
  /-- More links come on the way than are followed, be it that they go round. -/
  | lost
  deriving DecidableEq

def Fate.answer : Fate → Except SystemError (Location × TreeEntry)
  | entry at_ found => .ok (at_, found)
  | missing => .error .noSuchEntry
  | blocked => .error .notDirectory
  | denied => .error .permissionDenied
  | tooLong => .error .nameTooLong
  | unwritable => .error .nulInName
  | lost => .error .tooManyLinks

theorem Fate.answer_inj {f g : Fate} : f.answer = g.answer ↔ f = g := by
  cases f <;> cases g <;> simp [answer]

namespace FileTree

/-- The steps come to this, after so many links. -/
inductive Ends (t : FileTree) (caller : Caller) :
    (followed : Nat) → Location → List String → Fate → Prop where
  | done {here : Location} {entry : TreeEntry} (hHere : t.get? here = some entry) :
      Ends t caller 0 here [] (.entry here entry)
  | nowhere {here : Location} {steps : List String} (hHere : t.get? here = none) :
      Ends t caller 0 here steps .missing
  | blocked {here : Location} {name : String} {rest : List String} {entry : TreeEntry}
      (hHere : t.get? here = some entry) (hOther : ∀ permissions, entry ≠ .directory permissions) :
      Ends t caller 0 here (name :: rest) .blocked
  | denied {here : Location} {name : String} {rest : List String} {permissions : Permissions}
      (hHere : t.get? here = some (.directory permissions))
      (hSearch : caller.maySearch permissions = false) :
      Ends t caller 0 here (name :: rest) .denied
  | dot {n : Nat} {here : Location} {rest : List String} {permissions : Permissions} {f : Fate}
      (hHere : t.Enterable caller here permissions) (hRest : Ends t caller n here rest f) :
      Ends t caller n here ("." :: rest) f
  | up {n : Nat} {here : Location} {rest : List String} {permissions : Permissions} {f : Fate}
      (hHere : t.Enterable caller here permissions) (hRest : Ends t caller n here.dropLast rest f) :
      Ends t caller n here (".." :: rest) f
  | tooLong {here : Location} {name : String} {rest : List String} {permissions : Permissions}
      (hHere : t.Enterable caller here permissions) (hLong : longestName < byteLength name) :
      Ends t caller 0 here (name :: rest) .tooLong
  | missing {here : Location} {name : String} {rest : List String} {permissions : Permissions}
      (hHere : t.Enterable caller here permissions) (hName : IsProper name)
      (hNone : t.get? (here ++ [name]) = none) : Ends t caller 0 here (name :: rest) .missing
  | hollow {here : Location} {name target : String} {rest : List String} {permissions : Permissions}
      (hHere : t.Enterable caller here permissions) (hName : IsProper name)
      (hLink : t.get? (here ++ [name]) = some (.link target)) (hTarget : target.isEmpty = true) :
      Ends t caller 1 here (name :: rest) .missing
  | link {n : Nat} {here : Location} {name target : String} {rest : List String}
      {permissions : Permissions} {f : Fate} (hHere : t.Enterable caller here permissions)
      (hName : IsProper name) (hLink : t.get? (here ++ [name]) = some (.link target))
      (hTarget : target.isEmpty = false)
      (hRest : Ends t caller n (startOf target here) (stepsOf target ++ rest) f) :
      Ends t caller (n + 1) here (name :: rest) f
  | down {n : Nat} {here : Location} {name : String} {rest : List String}
      {permissions : Permissions} {entry : TreeEntry} {f : Fate}
      (hHere : t.Enterable caller here permissions) (hName : IsProper name)
      (hEntry : t.get? (here ++ [name]) = some entry) (hLink : ∀ target, entry ≠ .link target)
      (hRest : Ends t caller n (here ++ [name]) rest f) :
      Ends t caller n here (name :: rest) f

variable {t : FileTree} {caller : Caller} {n links : Nat} {here : Location} {steps : List String}
  {f : Fate}

/-! ## Walks that stop -/

/-- The entry that a walk ended at; a free place holds none. -/
def entryOf : Except SystemError Destination → Except SystemError (Location × TreeEntry)
  | .ok (.entry at_ entry) => .ok (at_, entry)
  | .ok (.free _ _) => .error .noSuchEntry
  | .error cause => .error cause

theorem walk_nowhere {aim : Aim} (hHere : t.get? here = none) :
    t.walk caller aim links here steps = .error .noSuchEntry := by
  cases steps <;> rw [walk] <;> simp only [hHere]

section Stops

variable {aim : Aim} {name : String} {rest : List String} {permissions : Permissions}

theorem walk_blocked {entry : TreeEntry} (hHere : t.get? here = some entry)
    (hOther : ∀ permissions, entry ≠ .directory permissions) :
    t.walk caller aim links here (name :: rest) = .error .notDirectory := by
  rw [walk]
  cases entry with
  | directory permissions => exact absurd rfl (hOther permissions)
  | _ => simp only [hHere]

theorem walk_denied (hHere : t.get? here = some (.directory permissions))
    (hSearch : caller.maySearch permissions = false) :
    t.walk caller aim links here (name :: rest) = .error .permissionDenied := by
  rw [walk]
  simp only [hHere, hSearch, Bool.not_false, if_true]

variable (hHere : t.Enterable caller here permissions)

include hHere

theorem walk_tooLong (hLong : longestName < byteLength name) :
    t.walk caller aim links here (name :: rest) = .error .nameTooLong := by
  obtain ⟨hDirectory, hSearch⟩ := hHere
  have hDot : (name == ".") = false := by
    refine beq_false_of_ne ?_
    rintro rfl
    exact absurd hLong (by decide +kernel)
  have hUp : (name == "..") = false := by
    refine beq_false_of_ne ?_
    rintro rfl
    exact absurd hLong (by decide +kernel)
  rw [walk]
  simp only [hDirectory, hSearch, hDot, hUp, hLong, Bool.not_true, Bool.false_eq_true, if_false,
    if_true]

variable (hName : IsProper name)

include hName

theorem entryOf_walk_missing (hNone : t.get? (here ++ [name]) = none) :
    entryOf (t.walk caller aim links here (name :: rest)) = .error .noSuchEntry := by
  obtain ⟨hDirectory, hSearch⟩ := hHere
  rw [walk]
  simp only [hDirectory, hSearch, hName.dot, hName.up, hName.short, hNone, Bool.not_true,
    Bool.false_eq_true, if_false]
  split <;> rfl

theorem walk_hollow {target : String} (hLink : t.get? (here ++ [name]) = some (.link target))
    (hTarget : target.isEmpty = true) :
    t.walk caller .entry (links + 1) here (name :: rest) = .error .noSuchEntry := by
  obtain ⟨hDirectory, hSearch⟩ := hHere
  have hAim : (rest.isEmpty && Aim.entry == Aim.name) = false := Bool.and_false _
  rw [walk]
  simp only [hDirectory, hSearch, hName.dot, hName.up, hName.short, hLink, hAim, hTarget,
    Bool.not_true, Bool.false_eq_true, if_false, if_true]

end Stops

theorem isFollowed_entry {rest : List String} {target : String} (h : target.isEmpty = false) :
    IsFollowed .entry rest target := by
  refine ⟨Bool.and_false _, h, ?_⟩
  rw [show (Aim.entry == Aim.file) = false from rfl, Bool.and_false, Bool.false_and]

/-! ## Walks and fates -/

/-- A walk that may follow the links that come on the way answers what the steps come to. -/
theorem entryOf_walk_of_ends (h : t.Ends caller n here steps f) (hLinks : n ≤ links) :
    entryOf (t.walk caller .entry links here steps) = f.answer := by
  induction h generalizing links with
  | done hHere =>
    rw [walk]
    simp only [hHere]
    rfl
  | nowhere hHere =>
    rw [walk_nowhere hHere]
    rfl
  | blocked hHere hOther =>
    rw [walk_blocked hHere hOther]
    rfl
  | denied hHere hSearch =>
    rw [walk_denied hHere hSearch]
    rfl
  | dot hHere _ ih =>
    rw [walk_dot hHere]
    exact ih hLinks
  | up hHere _ ih =>
    rw [walk_up hHere]
    exact ih hLinks
  | tooLong hHere hLong =>
    rw [walk_tooLong hHere hLong]
    rfl
  | missing hHere hName hNone => exact entryOf_walk_missing hHere hName hNone
  | hollow hHere hName hLink hTarget =>
    obtain ⟨links, rfl⟩ := Nat.exists_eq_add_of_le' hLinks
    rw [walk_hollow hHere hName hLink hTarget]
    rfl
  | link hHere hName hLink hTarget _ ih =>
    obtain ⟨links, rfl⟩ := Nat.exists_eq_add_of_le' (Nat.le_of_add_left_le hLinks)
    rw [walk_link hHere hName hLink (isFollowed_entry hTarget)]
    exact ih (Nat.le_of_succ_le_succ hLinks)
  | down hHere hName hEntry hLink _ ih =>
    rw [walk_down hHere hName hEntry hLink]
    exact ih hLinks

/-- Unless it gives up, a walk has come to something. -/
theorem exists_ends_of_walk (h : t.walk caller .entry links here steps ≠ .error .tooManyLinks) :
    ∃ n ≤ links, ∃ f, t.Ends caller n here steps f := by
  generalize hAim : Aim.entry = aim at h
  fun_induction t.walk caller aim links here steps with
  | case1 aim links here entry hHere => exact ⟨0, Nat.zero_le _, _, .done hHere⟩
  | case2 aim links here hHere => exact ⟨0, Nat.zero_le _, _, .nowhere hHere⟩
  | case3 aim links here name rest permissions hHere hSearch =>
    exact ⟨0, Nat.zero_le _, _, .denied hHere (by simpa using hSearch)⟩
  | case4 aim links here name rest permissions hHere hSearch hDot ih =>
    obtain rfl : name = "." := by simpa using hDot
    obtain ⟨n, hLinks, f, hRest⟩ := ih hAim h
    exact ⟨n, hLinks, f, .dot ⟨hHere, by simpa using hSearch⟩ hRest⟩
  | case5 aim links here name rest permissions hHere hSearch hDot hUp ih =>
    obtain rfl : name = ".." := by simpa using hUp
    obtain ⟨n, hLinks, f, hRest⟩ := ih hAim h
    exact ⟨n, hLinks, f, .up ⟨hHere, by simpa using hSearch⟩ hRest⟩
  | case6 aim links here name rest permissions hHere hSearch hDot hUp hLong =>
    exact ⟨0, Nat.zero_le _, _, .tooLong ⟨hHere, by simpa using hSearch⟩ hLong⟩
  | case7 aim links here name rest permissions hHere hSearch hDot hUp hShort hNone
  | case8 aim links here name rest permissions hHere hSearch hDot hUp hShort hNone =>
    exact ⟨0, Nat.zero_le _, _, .missing ⟨hHere, by simpa using hSearch⟩
      ⟨by simpa using hDot, by simpa using hUp, hShort⟩ hNone⟩
  | case9 aim links here name rest permissions hHere hSearch hDot hUp hShort target hLink hName =>
    obtain ⟨-, rfl⟩ : rest = [] ∧ aim = .name := by simpa using hName
    cases hAim
  | case10 => exact absurd rfl h
  | case11 aim here name rest permissions hHere hSearch hDot hUp hShort target hLink hName links
      hTarget =>
    exact ⟨1, Nat.le_add_left _ _, _, .hollow ⟨hHere, by simpa using hSearch⟩
      ⟨by simpa using hDot, by simpa using hUp, hShort⟩ hLink hTarget⟩
  | case12 aim here name rest permissions hHere hSearch hDot hUp hShort target hLink hName links
      start hTarget hFile
  | case13 aim here name rest permissions hHere hSearch hDot hUp hShort target hLink hName links
      start hTarget hFile =>
    rw [← hAim, show (Aim.entry == Aim.file) = false from rfl, Bool.and_false] at hFile
    cases hFile
  | case14 aim here name rest permissions hHere hSearch hDot hUp hShort target hLink hName links
      start hTarget hFile ih =>
    obtain ⟨n, hLinks, f, hRest⟩ := ih hAim h
    exact ⟨n + 1, Nat.succ_le_succ hLinks, f, .link ⟨hHere, by simpa using hSearch⟩
      ⟨by simpa using hDot, by simpa using hUp, hShort⟩ hLink (eq_false_of_ne_true hTarget) hRest⟩
  | case15 aim links here name rest permissions hHere hSearch hDot hUp hShort entry hLink hEntry ih =>
    obtain ⟨n, hLinks, f, hRest⟩ := ih hAim h
    exact ⟨n, hLinks, f, .down ⟨hHere, by simpa using hSearch⟩
      ⟨by simpa using hDot, by simpa using hUp, hShort⟩ hEntry hLink hRest⟩
  | case16 aim links here name rest entry hOther hHere =>
    exact ⟨0, Nat.zero_le _, _, .blocked hHere fun permissions => hOther permissions⟩
  | case17 aim links here name rest hHere => exact ⟨0, Nat.zero_le _, _, .nowhere hHere⟩

/-- At a link the steps go on where it leads, one link further. -/
theorem Ends.of_link {name target : String} {rest : List String} {permissions : Permissions}
    (h : t.Ends caller n here (name :: rest) f) (hHere : t.Enterable caller here permissions)
    (hName : IsProper name) (hLink : t.get? (here ++ [name]) = some (.link target))
    (hTarget : target.isEmpty = false) :
    ∃ m, n = m + 1 ∧ t.Ends caller m (startOf target here) (stepsOf target ++ rest) f := by
  cases h with
  | nowhere hNone => cases hNone.symm.trans hHere.1
  | blocked hEntry hOther =>
    cases hEntry.symm.trans hHere.1
    exact absurd rfl (hOther permissions)
  | denied hDirectory hSearch =>
    cases hDirectory.symm.trans hHere.1
    rw [hHere.2] at hSearch
    cases hSearch
  | dot => cases hName.dot
  | up => cases hName.up
  | tooLong _ hLong => exact absurd hLong hName.short
  | missing _ _ hNone => cases hNone.symm.trans hLink
  | hollow _ _ hOther hEmpty =>
    cases hOther.symm.trans hLink
    rw [hTarget] at hEmpty
    cases hEmpty
  | link _ _ hOther _ hRest =>
    cases hOther.symm.trans hLink
    exact ⟨_, rfl, hRest⟩
  | down _ _ hEntry hOther =>
    cases hEntry.symm.trans hLink
    exact absurd rfl (hOther target)

theorem not_ends_of_selfLink {name : String} {rest : List String} {permissions : Permissions}
    (hHere : t.Enterable caller here permissions) (hName : IsProper name)
    (hLink : t.get? (here ++ [name]) = some (.link name)) (hTarget : name.isEmpty = false)
    (hStart : startOf name here = here) (hSteps : stepsOf name = [name]) :
    ¬ t.Ends caller n here (name :: rest) f := by
  induction n with
  | zero =>
    intro h
    obtain ⟨m, hNone, -⟩ := h.of_link hHere hName hLink hTarget
    cases hNone
  | succ n ih =>
    intro h
    obtain ⟨m, hMore, hRest⟩ := h.of_link hHere hName hLink hTarget
    cases hMore
    rw [hStart, hSteps] at hRest
    exact ih hRest

end FileTree

namespace Host

open FileTree

/-- What a path comes to on a machine, whose walks follow no more than forty links. -/
inductive Meets (h : Host) (path : FilePath) : Fate → Prop
  | unwritable (hNul : path.text.toList.contains '\x00' = true) : Meets h path .unwritable
  | tooLong (hPlain : path.text.toList.contains '\x00' = false)
      (hLong : longestPath < byteLength path.text) : Meets h path .tooLong
  | empty (hEmpty : path.isEmpty = true) : Meets h path .missing
  | ends {n : Nat} {f : Fate} (hPath : path.IsFollowable) (hLinks : n ≤ mostLinks)
      (hEnds : h.files.Ends h.caller n (startOf path.text h.directory) (stepsOf path.text) f) :
      Meets h path f
  | lost (hPath : path.IsFollowable) (hLost : ∀ n ≤ mostLinks, ∀ f,
      ¬ h.files.Ends h.caller n (startOf path.text h.directory) (stepsOf path.text) f) :
      Meets h path .lost

variable {h : Host} {path : FilePath} {f g : Fate}

theorem find_eq (h : Host) (path : FilePath) : h.find path
    = entryOf (h.files.follow h.caller h.directory .entry path) := by
  rw [find, FileTree.find]
  cases h.files.follow h.caller h.directory .entry path with
  | error cause => rfl
  | ok d => cases d <;> rfl

theorem find_of_isFollowable (hPath : path.IsFollowable) : h.find path = entryOf
    (h.files.walk h.caller .entry mostLinks (startOf path.text h.directory) (stepsOf path.text)) := by
  obtain ⟨hPlain, hShort, hSome⟩ := hPath
  simp only [find_eq, follow, hPlain, hShort, hSome, Bool.false_eq_true, if_false]

theorem Meets.find_eq (hMeets : h.Meets path f) : h.find path = f.answer := by
  cases hMeets with
  | unwritable hNul =>
    simp only [Host.find_eq, follow, hNul, if_true]
    rfl
  | tooLong hPlain hLong =>
    simp only [Host.find_eq, follow, hPlain, hLong, Bool.false_eq_true, if_false, if_true]
    rfl
  | empty hEmpty =>
    have hText : path.text = "" := String.isEmpty_iff.mp hEmpty
    have hPlain : path.text.toList.contains '\x00' = false := by
      rw [hText]
      rfl
    have hShort : ¬ longestPath < byteLength path.text := by
      rw [hText]
      decide +kernel
    simp only [Host.find_eq, follow, hPlain, hShort, hEmpty, Bool.false_eq_true, if_false, if_true]
    rfl
  | ends hPath hLinks hEnds =>
    rw [find_of_isFollowable hPath]
    exact entryOf_walk_of_ends hEnds hLinks
  | lost hPath hLost =>
    by_cases hWalk : h.files.walk h.caller .entry mostLinks (startOf path.text h.directory)
        (stepsOf path.text) = .error .tooManyLinks
    · rw [find_of_isFollowable hPath, hWalk]
      rfl
    · obtain ⟨n, hLinks, f, hEnds⟩ := exists_ends_of_walk hWalk
      exact absurd hEnds (hLost n hLinks f)

theorem exists_meets (h : Host) (path : FilePath) : ∃ f, h.Meets path f := by
  cases hNul : path.text.toList.contains '\x00' with
  | true => exact ⟨_, .unwritable hNul⟩
  | false =>
    by_cases hLong : longestPath < byteLength path.text
    · exact ⟨_, .tooLong hNul hLong⟩
    · cases hEmpty : path.isEmpty with
      | true => exact ⟨_, .empty hEmpty⟩
      | false =>
        have hPath : path.IsFollowable := ⟨hNul, hLong, hEmpty⟩
        by_cases hEnds : ∃ n ≤ mostLinks, ∃ f, h.files.Ends h.caller n
            (startOf path.text h.directory) (stepsOf path.text) f
        · obtain ⟨n, hLinks, f, hEnds⟩ := hEnds
          exact ⟨f, .ends hPath hLinks hEnds⟩
        · exact ⟨_, .lost hPath fun n hLinks f h => hEnds ⟨n, hLinks, f, h⟩⟩

theorem Meets.unique (hf : h.Meets path f) (hg : h.Meets path g) : f = g :=
  Fate.answer_inj.mp (hf.find_eq.symm.trans hg.find_eq)

end Host

end TranscodingEngines
