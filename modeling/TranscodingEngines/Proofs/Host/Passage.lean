import TranscodingEngines.Proofs.Host.Walk

/-!
# Passages

The steps before the last one of a walk pass through directories and links. A passage leads to one
location, whatever the walk is for, and uses up one number of links, however many it may follow. So
it never comes back to a link that it is following. A passage is kept where the tree changes at a
location only that is no directory, unless it follows the link that stands there.
-/

set_option autoImplicit false

namespace TranscodingEngines.FileTree

/-- Everything above a location is a directory. -/
def Reachable (t : FileTree) (at_ : Location) : Prop :=
  ∀ above, above <+: at_ → above ≠ at_ → ∃ permissions, t.get? above = some (.directory permissions)

/-- What can be reached in the first tree is in the second one too, unless it is lost. -/
def Keeps (t t' : FileTree) (lost : Location → Prop) : Prop :=
  ∀ at_ entry, t.Reachable at_ → ¬ lost at_ → t.get? at_ = some entry → t'.get? at_ = some entry

/-- The steps lead from one location to another, and so many links may still be followed then. -/
inductive Passes (t : FileTree) (caller : Caller) :
    (links : Nat) → Location → List String → (left : Nat) → Location → Prop where
  | done {links : Nat} {here : Location} : Passes t caller links here [] links here
  | dot {links left : Nat} {here there : Location} {rest : List String} {permissions : Permissions}
      (hHere : t.Enterable caller here permissions)
      (hRest : Passes t caller links here rest left there) :
      Passes t caller links here ("." :: rest) left there
  | up {links left : Nat} {here there : Location} {rest : List String} {permissions : Permissions}
      (hHere : t.Enterable caller here permissions)
      (hRest : Passes t caller links here.dropLast rest left there) :
      Passes t caller links here (".." :: rest) left there
  | link {links left : Nat} {here there : Location} {name target : String} {rest : List String}
      {permissions : Permissions} (hHere : t.Enterable caller here permissions)
      (hName : IsProper name) (hLink : t.get? (here ++ [name]) = some (.link target))
      (hTarget : target.isEmpty = false)
      (hRest : Passes t caller links (startOf target here) (stepsOf target ++ rest) left there) :
      Passes t caller (links + 1) here (name :: rest) left there
  | down {links left : Nat} {here there : Location} {name : String} {rest : List String}
      {permissions : Permissions} {entry : TreeEntry} (hHere : t.Enterable caller here permissions)
      (hName : IsProper name) (hEntry : t.get? (here ++ [name]) = some entry)
      (hLink : ∀ target, entry ≠ .link target)
      (hRest : Passes t caller links (here ++ [name]) rest left there) :
      Passes t caller links here (name :: rest) left there

variable {t : FileTree} {caller : Caller} {aim : Aim} {links left : Nat} {here there : Location}
  {xs ys : List String} {d : Destination}

namespace Passes

theorem left_le (h : t.Passes caller links here xs left there) : left ≤ links := by
  induction h with
  | done => exact Nat.le_refl _
  | dot _ _ ih | up _ _ ih | down _ _ _ _ _ ih => exact ih
  | link _ _ _ _ _ ih => exact Nat.le_succ_of_le ih

theorem enterable {name : String} (h : t.Passes caller links here (name :: xs) left there) :
    ∃ permissions, t.Enterable caller here permissions := by
  cases h with
  | dot hHere | up hHere | link hHere | down hHere => exact ⟨_, hHere⟩

theorem first {name : String} (h : t.Passes caller links here (name :: xs) left there) :
    (name = "." ∧ t.Passes caller links here xs left there) ∨
    (name = ".." ∧ t.Passes caller links here.dropLast xs left there) ∨
    IsProper name ∧ ((∃ target links', t.get? (here ++ [name]) = some (.link target) ∧
        links = links' + 1 ∧ target.isEmpty = false ∧
        t.Passes caller links' (startOf target here) (stepsOf target ++ xs) left there) ∨
      ∃ entry, t.get? (here ++ [name]) = some entry ∧ (∀ target, entry ≠ .link target) ∧
        t.Passes caller links (here ++ [name]) xs left there) := by
  cases h with
  | dot _ hRest => exact .inl ⟨rfl, hRest⟩
  | up _ hRest => exact .inr (.inl ⟨rfl, hRest⟩)
  | link _ hName hLink hTarget hRest =>
    exact .inr (.inr ⟨hName, .inl ⟨_, _, hLink, rfl, hTarget, hRest⟩⟩)
  | down _ hName hEntry hOther hRest =>
    exact .inr (.inr ⟨hName, .inr ⟨_, hEntry, hOther, hRest⟩⟩)

theorem unique {left' : Nat} {there' : Location} (h : t.Passes caller links here xs left there)
    (h' : t.Passes caller links here xs left' there') : left = left' ∧ there = there' := by
  induction h with
  | done =>
    cases h'
    exact ⟨rfl, rfl⟩
  | dot _ _ ih =>
    rcases h'.first with ⟨_, hRest⟩ | ⟨hUp, _⟩ | ⟨hName, _⟩
    · exact ih hRest
    · exact absurd hUp (by decide)
    · cases hName.dot
  | up _ _ ih =>
    rcases h'.first with ⟨hDot, _⟩ | ⟨_, hRest⟩ | ⟨hName, _⟩
    · exact absurd hDot (by decide)
    · exact ih hRest
    · cases hName.up
  | link _ hName hLink _ _ ih =>
    rcases h'.first with ⟨rfl, _⟩ | ⟨rfl, _⟩ |
      ⟨_, ⟨_, _, hLink', hLinks, _, hRest⟩ | ⟨_, hEntry, hOther, _⟩⟩
    · cases hName.dot
    · cases hName.up
    · cases hLink.symm.trans hLink'
      cases hLinks
      exact ih hRest
    · cases hLink.symm.trans hEntry
      exact absurd rfl (hOther _)
  | down _ hName hEntry hOther _ ih =>
    rcases h'.first with ⟨rfl, _⟩ | ⟨rfl, _⟩ | ⟨_, ⟨_, _, hLink, _⟩ | ⟨_, _, _, hRest⟩⟩
    · cases hName.dot
    · cases hName.up
    · cases hLink.symm.trans hEntry
      exact absurd rfl (hOther _)
    · exact ih hRest

theorem add (h : t.Passes caller links here xs left there) (more : Nat) :
    t.Passes caller (links + more) here xs (left + more) there := by
  induction h with
  | done => exact .done
  | dot hHere _ ih => exact .dot hHere ih
  | up hHere _ ih => exact .up hHere ih
  | link hHere hName hLink hTarget _ ih =>
    rw [Nat.add_right_comm]
    exact .link hHere hName hLink hTarget ih
  | down hHere hName hEntry hOther _ ih => exact .down hHere hName hEntry hOther ih

/-- A passage uses up one number of links, however many it may follow. -/
theorem used_eq {links' left' : Nat} {there' : Location}
    (h : t.Passes caller links here xs left there)
    (h' : t.Passes caller links' here xs left' there') :
    links - left = links' - left' ∧ there = there' := by
  -- With the links of both, the two passages start alike.
  have hMore := h.add links'
  have hMore' := h'.add links
  rw [Nat.add_comm links' links] at hMore'
  obtain ⟨hLeft, hThere⟩ := hMore.unique hMore'
  have hLe := h.left_le
  have hLe' := h'.left_le
  exact ⟨by omega, hThere⟩

/-- A passage goes through the location that the first of its steps lead to. -/
theorem split {left' : Nat} {end_ : Location}
    (h : t.Passes caller links here (xs ++ ys) left' end_) :
    ∃ left there, t.Passes caller links here xs left there ∧
      t.Passes caller left there ys left' end_ := by
  generalize hSteps : xs ++ ys = steps at h
  induction h generalizing xs with
  | done =>
    obtain ⟨rfl, rfl⟩ := List.append_eq_nil_iff.mp hSteps
    exact ⟨_, _, .done, .done⟩
  | dot hHere hRest ih =>
    rcases List.append_eq_cons_iff.mp hSteps with ⟨rfl, rfl⟩ | ⟨xs, rfl, rfl⟩
    · exact ⟨_, _, .done, .dot hHere hRest⟩
    · obtain ⟨left, there, hFirst, hSecond⟩ := ih rfl
      exact ⟨left, there, .dot hHere hFirst, hSecond⟩
  | up hHere hRest ih =>
    rcases List.append_eq_cons_iff.mp hSteps with ⟨rfl, rfl⟩ | ⟨xs, rfl, rfl⟩
    · exact ⟨_, _, .done, .up hHere hRest⟩
    · obtain ⟨left, there, hFirst, hSecond⟩ := ih rfl
      exact ⟨left, there, .up hHere hFirst, hSecond⟩
  | link hHere hName hLink hTarget hRest ih =>
    rcases List.append_eq_cons_iff.mp hSteps with ⟨rfl, rfl⟩ | ⟨xs, rfl, rfl⟩
    · exact ⟨_, _, .done, .link hHere hName hLink hTarget hRest⟩
    · obtain ⟨left, there, hFirst, hSecond⟩ := ih (List.append_assoc _ _ _)
      exact ⟨left, there, .link hHere hName hLink hTarget hFirst, hSecond⟩
  | down hHere hName hEntry hOther hRest ih =>
    rcases List.append_eq_cons_iff.mp hSteps with ⟨rfl, rfl⟩ | ⟨xs, rfl, rfl⟩
    · exact ⟨_, _, .done, .down hHere hName hEntry hOther hRest⟩
    · obtain ⟨left, there, hFirst, hSecond⟩ := ih rfl
      exact ⟨left, there, .down hHere hName hEntry hOther hFirst, hSecond⟩

end Passes

/-! ## Walks and passages -/

theorem isFollowed_append (hys : ys ≠ []) (target : String) (hTarget : target.isEmpty = false) :
    IsFollowed aim (xs ++ ys) target := by
  have hSome : (xs ++ ys).isEmpty = false := by
    rw [List.isEmpty_eq_false_iff]
    exact List.append_ne_nil_of_right_ne_nil xs hys
  refine ⟨?_, hTarget, ?_⟩ <;> rw [hSome] <;> rfl

theorem Passes.arrives (h : t.Passes caller links here xs left there) (hys : ys ≠ [])
    (hEnd : t.Arrives caller aim left there ys d) :
    t.Arrives caller aim links here (xs ++ ys) d := by
  induction h with
  | done => exact hEnd
  | dot hHere _ ih => exact .dot hHere (ih hEnd)
  | up hHere _ ih => exact .up hHere (ih hEnd)
  | link hHere hName hLink hTarget _ ih =>
    refine .link hHere hName hLink (isFollowed_append hys _ hTarget) ?_
    exact (List.append_assoc _ _ _) ▸ ih hEnd
  | down hHere hName hEntry hOther _ ih => exact .down hHere hName hEntry hOther (ih hEnd)

/-- A walk passes to where its last steps are taken. -/
theorem Arrives.split (h : t.Arrives caller aim links here (xs ++ ys) d) (hys : ys ≠ []) :
    ∃ left there, t.Passes caller links here xs left there ∧
      t.Arrives caller aim left there ys d := by
  generalize hSteps : xs ++ ys = steps at h
  induction h generalizing xs with
  | done => exact absurd (List.append_eq_nil_iff.mp hSteps).2 hys
  | dot hHere hRest ih =>
    rcases List.append_eq_cons_iff.mp hSteps with ⟨rfl, rfl⟩ | ⟨xs, rfl, rfl⟩
    · exact ⟨_, _, .done, .dot hHere hRest⟩
    · obtain ⟨left, there, hFirst, hSecond⟩ := ih rfl
      exact ⟨left, there, .dot hHere hFirst, hSecond⟩
  | up hHere hRest ih =>
    rcases List.append_eq_cons_iff.mp hSteps with ⟨rfl, rfl⟩ | ⟨xs, rfl, rfl⟩
    · exact ⟨_, _, .done, .up hHere hRest⟩
    · obtain ⟨left, there, hFirst, hSecond⟩ := ih rfl
      exact ⟨left, there, .up hHere hFirst, hSecond⟩
  | free hHere hName hFree =>
    rcases List.append_eq_cons_iff.mp hSteps with ⟨rfl, rfl⟩ | ⟨xs, rfl, hNil⟩
    · exact ⟨_, _, .done, .free hHere hName hFree⟩
    · exact absurd (List.append_eq_nil_iff.mp hNil.symm).2 hys
  | stop hHere hName hLink hAim =>
    rcases List.append_eq_cons_iff.mp hSteps with ⟨rfl, rfl⟩ | ⟨xs, rfl, hNil⟩
    · exact ⟨_, _, .done, .stop hHere hName hLink hAim⟩
    · exact absurd (List.append_eq_nil_iff.mp hNil.symm).2 hys
  | link hHere hName hLink hFollowed hRest ih =>
    rcases List.append_eq_cons_iff.mp hSteps with ⟨rfl, rfl⟩ | ⟨xs, rfl, rfl⟩
    · exact ⟨_, _, .done, .link hHere hName hLink hFollowed hRest⟩
    · obtain ⟨left, there, hFirst, hSecond⟩ := ih (List.append_assoc _ _ _)
      exact ⟨left, there, .link hHere hName hLink hFollowed.some hFirst, hSecond⟩
  | down hHere hName hEntry hOther hRest ih =>
    rcases List.append_eq_cons_iff.mp hSteps with ⟨rfl, rfl⟩ | ⟨xs, rfl, rfl⟩
    · exact ⟨_, _, .done, .down hHere hName hEntry hOther hRest⟩
    · obtain ⟨left, there, hFirst, hSecond⟩ := ih rfl
      exact ⟨left, there, .down hHere hName hEntry hOther hFirst, hSecond⟩

theorem arrives_entry_iff {entry : TreeEntry} :
    t.Arrives caller .entry links here xs (.entry there entry) ↔
      t.get? there = some entry ∧ ∃ left, t.Passes caller links here xs left there := by
  constructor
  · intro h
    refine ⟨h.get?_location, ?_⟩
    generalize hAim : Aim.entry = aim at h
    generalize hEnd : Destination.entry there entry = d at h
    induction h with
    | done =>
      cases hEnd
      exact ⟨_, .done⟩
    | dot hHere _ ih =>
      obtain ⟨left, hRest⟩ := ih hEnd
      exact ⟨left, .dot hHere hRest⟩
    | up hHere _ ih =>
      obtain ⟨left, hRest⟩ := ih hEnd
      exact ⟨left, .up hHere hRest⟩
    | free => cases hEnd
    | stop _ _ _ hName => exact absurd (hAim.trans hName) (by decide)
    | link hHere hName hLink hFollowed _ ih =>
      obtain ⟨left, hRest⟩ := ih hEnd
      exact ⟨left, .link hHere hName hLink hFollowed.some hRest⟩
    | down hHere hName hEntry hOther _ ih =>
      obtain ⟨left, hRest⟩ := ih hEnd
      exact ⟨left, .down hHere hName hEntry hOther hRest⟩
  · rintro ⟨hEntry, left, h⟩
    induction h with
    | done => exact .done hEntry
    | dot hHere _ ih => exact .dot hHere (ih hEntry)
    | up hHere _ ih => exact .up hHere (ih hEntry)
    | link hHere hName hLink hTarget _ ih =>
      refine .link hHere hName hLink ⟨Bool.and_false _, hTarget, ?_⟩ (ih hEntry)
      rw [show (Aim.entry == Aim.file) = false from rfl, Bool.and_false, Bool.false_and]
    | down hHere hName hOn hOther _ ih => exact .down hHere hName hOn hOther (ih hEntry)

theorem Passes.dots (h : t.Passes caller links here xs left there)
    (hDots : ∀ step ∈ xs, step = ".") : left = links ∧ there = here := by
  induction xs with
  | nil =>
    cases h
    exact ⟨rfl, rfl⟩
  | cons step xs ih =>
    rw [hDots step List.mem_cons_self] at h
    rcases h.first with ⟨_, hRest⟩ | ⟨hUp, _⟩ | ⟨hName, _⟩
    · exact ih hRest fun other hOther => hDots other (List.mem_cons_of_mem _ hOther)
    · exact absurd hUp (by decide)
    · cases hName.dot

theorem Arrives.of_name {name : String} (h : t.Arrives caller .name links here [name] d)
    (hDot : name ≠ ".") (hUp : name ≠ "..") :
    IsProper name ∧ d.location = here ++ [name] ∧
      ∃ permissions, t.Enterable caller here permissions := by
  generalize hAim : Aim.name = aim at h
  cases h with
  | dot => exact absurd rfl hDot
  | up => exact absurd rfl hUp
  | free hHere hName => exact ⟨hName, rfl, _, hHere⟩
  | stop hHere hName => exact ⟨hName, rfl, _, hHere⟩
  | link _ _ _ hFollowed =>
    have hName := hFollowed.name
    rw [← hAim] at hName
    cases hName
  | down hHere hName _ _ hRest =>
    cases hRest
    exact ⟨hName, rfl, _, hHere⟩

/-! ## Reachable locations -/

theorem reachable_nil : t.Reachable [] := by
  intro above hAbove hOther
  exact absurd (List.prefix_nil.mp hAbove) hOther

theorem Reachable.dropLast (h : t.Reachable here) : t.Reachable here.dropLast := by
  intro above hAbove hOther
  refine h above (hAbove.trans (List.dropLast_prefix here)) ?_
  rintro rfl
  exact hOther (hAbove.eq_of_length_le (List.dropLast_prefix above).length_le)

theorem Reachable.concat (h : t.Reachable here) {permissions : Permissions}
    (hHere : t.Enterable caller here permissions) (name : String) :
    t.Reachable (here ++ [name]) := by
  intro above hAbove hOther
  have hPrefix := (List.prefix_concat_iff.mp hAbove).resolve_left hOther
  by_cases hSame : above = here
  · rw [hSame]
    exact ⟨permissions, hHere.1⟩
  · exact h above hPrefix hSame

theorem Reachable.startOf (h : t.Reachable here) (target : String) :
    t.Reachable (startOf target here) := by
  rw [FileTree.startOf]
  split
  · exact reachable_nil
  · exact h

theorem Reachable.of_prefix {above : Location} (h : t.Reachable here) (hAbove : above <+: here) :
    t.Reachable above := by
  intro other hOther hNe
  refine h other (hOther.trans hAbove) ?_
  rintro rfl
  exact hNe (hOther.eq_of_length_le hAbove.length_le)

theorem Reachable.mono {t' : FileTree} (h : t.Reachable here)
    (hStays : ∀ at_ permissions, t.Reachable at_ → t.get? at_ = some (.directory permissions) →
      t'.get? at_ = some (.directory permissions)) : t'.Reachable here := by
  intro above hAbove hNe
  obtain ⟨permissions, hDirectory⟩ := h above hAbove hNe
  exact ⟨permissions, hStays above permissions (h.of_prefix hAbove) hDirectory⟩

theorem Passes.reachable (h : t.Passes caller links here xs left there)
    (hHere : t.Reachable here) : t.Reachable there := by
  induction h with
  | done => exact hHere
  | dot _ _ ih => exact ih hHere
  | up _ _ ih => exact ih hHere.dropLast
  | link _ _ _ _ _ ih => exact ih (hHere.startOf _)
  | down hEnterable _ _ _ _ ih => exact ih (hHere.concat hEnterable _)

/-! ## Changed trees -/

section Keep

variable {t' : FileTree} {lost : Location → Prop} (hKeeps : t.Keeps t' lost)
  (hLost : ∀ at_, lost at_ → ∀ permissions, t.get? at_ ≠ some (.directory permissions))

include hKeeps hLost

theorem Keeps.enterable {permissions : Permissions} (hReach : t.Reachable here)
    (hHere : t.Enterable caller here permissions) : t'.Enterable caller here permissions :=
  ⟨hKeeps here _ hReach (fun h => hLost here h permissions hHere.1) hHere.1, hHere.2⟩

/-- A passage is kept, or it follows a link that is lost. -/
theorem Keeps.passes_or (h : t.Passes caller links here xs left there) (hReach : t.Reachable here)
    (hThere : ¬ lost there) : t'.Passes caller links here xs left there ∨
      ∃ above name target fewer rest, lost (above ++ [name]) ∧
        t.get? (above ++ [name]) = some (.link target) ∧ fewer < links ∧
        t.Passes caller fewer (startOf target above) (stepsOf target ++ rest) left there := by
  induction h with
  | done => exact .inl .done
  | dot hHere _ ih =>
    exact (ih hReach hThere).imp_left (.dot (hKeeps.enterable hLost hReach hHere))
  | up hHere _ ih =>
    exact (ih hReach.dropLast hThere).imp_left (.up (hKeeps.enterable hLost hReach hHere))
  | @link _ _ here _ name target rest _ hHere hName hLink hTarget hRest ih =>
    by_cases hGone : lost (here ++ [name])
    · exact .inr ⟨here, name, target, _, rest, hGone, hLink, Nat.lt_succ_self _, hRest⟩
    · have hReachLink := hReach.concat hHere name
      rcases ih (hReach.startOf target) hThere with
        hKept | ⟨a, n, l, fewer, r, hAt, hOn, hLt, hMore⟩
      · exact .inl (.link (hKeeps.enterable hLost hReach hHere) hName
          (hKeeps _ _ hReachLink hGone hLink) hTarget hKept)
      · exact .inr ⟨a, n, l, fewer, r, hAt, hOn, Nat.lt_succ_of_lt hLt, hMore⟩
  | @down _ _ here _ name rest _ entry hHere hName hEntry hOther hRest ih =>
    have hReachEntry := hReach.concat hHere name
    have hStays : ¬ lost (here ++ [name]) := by
      intro hGone
      cases rest with
      | nil =>
        cases hRest
        exact hThere hGone
      | cons next rest =>
        obtain ⟨permissions, hDirectory, _⟩ := hRest.enterable
        exact hLost _ hGone permissions hDirectory
    refine (ih hReachEntry hThere).imp_left fun hKept => ?_
    exact .down (hKeeps.enterable hLost hReach hHere) hName
      (hKeeps _ _ hReachEntry hStays hEntry) hOther hKept

theorem Keeps.passes (h : t.Passes caller links here xs left there) (hReach : t.Reachable here)
    (hThere : ¬ lost there)
    (hNoLink : ∀ at_, lost at_ → ∀ target, t.get? at_ ≠ some (.link target)) :
    t'.Passes caller links here xs left there := by
  rcases hKeeps.passes_or hLost h hReach hThere with
    hKept | ⟨above, name, target, _, _, hGone, hLink, _⟩
  · exact hKept
  · exact absurd hLink (hNoLink _ hGone target)

section Link

-- The only link that is lost leads to a location that is no directory.
variable {above at_ : Location} {name target : String} {most fewest : Nat}
  (hOnly : ∀ gone, lost gone → ∀ other, t.get? gone = some (.link other) →
    gone = above ++ [name] ∧ other = target)
  (hLead : t.Passes caller most (startOf target above) (stepsOf target) fewest at_)

include hOnly hLead

/-- What the lost link leads to is still where it was led to. -/
theorem Keeps.passes_lead (hReach : t.Reachable (startOf target above)) (hAt : ¬ lost at_) :
    t'.Passes caller most (startOf target above) (stepsOf target) fewest at_ := by
  rcases hKeeps.passes_or hLost hLead hReach hAt with
    hKept | ⟨above', name', target', fewer, rest, hGone, hLink, hFewer, hAgain⟩
  · exact hKept
  · -- The passage would follow the link again, with fewer links left than it has used.
    obtain ⟨hSame, rfl⟩ := hOnly _ hGone _ hLink
    obtain ⟨rfl, -⟩ := List.append_inj' hSame rfl
    obtain ⟨left, there, hFirst, hSecond⟩ := hAgain.split
    have hUsed := (hLead.used_eq hFirst).1
    have hLeft := hFirst.left_le
    have hFewest := hSecond.left_le
    omega

/-- A passage to a directory does not go through the lost link. -/
theorem Keeps.passes_directory (h : t.Passes caller links here xs left there)
    (hReach : t.Reachable here) {permissions : Permissions}
    (hThere : t.get? there = some (.directory permissions))
    (hAt : ∀ permissions, t.get? at_ ≠ some (.directory permissions)) :
    t'.Passes caller links here xs left there := by
  rcases hKeeps.passes_or hLost h hReach (fun hGone => hLost _ hGone _ hThere) with
    hKept | ⟨above', name', target', fewer, rest, hGone, hLink, _, hAgain⟩
  · exact hKept
  · obtain ⟨hSame, rfl⟩ := hOnly _ hGone _ hLink
    obtain ⟨rfl, -⟩ := List.append_inj' hSame rfl
    obtain ⟨left, mid, hFirst, hSecond⟩ := hAgain.split
    -- The link leads to `at_` every time, where no passage goes on and none ends in a directory.
    obtain rfl := (hLead.used_eq hFirst).2
    cases rest with
    | nil =>
      cases hSecond
      exact absurd hThere (hAt _)
    | cons next rest =>
      obtain ⟨_, hDirectory, _⟩ := hSecond.enterable
      exact absurd hDirectory (hAt _)

end Link

end Keep

/-- A walk to a file leads to the file that takes its place. -/
theorem Arrives.refill {t' : FileTree} {at_ : Location} {old new : Permissions}
    {before after : List UInt8}
    (h : t.Arrives caller aim links here xs (.entry at_ (.file old before)))
    (hKeeps : t.Keeps t' (· = at_)) (hNew : t'.get? at_ = some (.file new after))
    (hReach : t.Reachable here) :
    t'.Arrives caller aim links here xs (.entry at_ (.file new after)) := by
  have hOld := h.get?_location
  have hLost : ∀ gone, gone = at_ → ∀ permissions, t.get? gone ≠ some (.directory permissions) := by
    rintro gone rfl permissions hDirectory
    cases hOld.symm.trans hDirectory
  generalize hEnd : Destination.entry at_ (.file old before) = d at h
  induction h with
  | done =>
    cases hEnd
    exact .done hNew
  | dot hHere _ ih => exact .dot (hKeeps.enterable hLost hReach hHere) (ih hReach hEnd)
  | up hHere _ ih => exact .up (hKeeps.enterable hLost hReach hHere) (ih hReach.dropLast hEnd)
  | free => cases hEnd
  | stop => cases hEnd
  | link hHere hName hLink hFollowed _ ih =>
    refine .link (hKeeps.enterable hLost hReach hHere) hName
      (hKeeps _ _ (hReach.concat hHere _) ?_ hLink) hFollowed (ih (hReach.startOf _) hEnd)
    rintro rfl
    cases hOld.symm.trans hLink
  | @down _ here name _ _ _ _ hHere hName hEntry hOther _ ih =>
    -- The entry of this step may be the file itself, the only one that changes.
    have hReachEntry := hReach.concat hHere name
    by_cases hThere : here ++ [name] = at_
    · exact .down (hKeeps.enterable hLost hReach hHere) hName ((congrArg _ hThere).trans hNew)
        (fun _ h => by cases h) (ih hReachEntry hEnd)
    · exact .down (hKeeps.enterable hLost hReach hHere) hName
        (hKeeps _ _ hReachEntry hThere hEntry) hOther (ih hReachEntry hEnd)

end TranscodingEngines.FileTree
