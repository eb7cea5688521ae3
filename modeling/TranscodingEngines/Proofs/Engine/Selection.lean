import Mathlib.Data.List.Nodup
import TranscodingEngines.Proofs.Registry.RoleStates

/-!
# Choosing the current role

The best role can be used exactly if any role can. Which one it is follows from a rule of four
steps, read off the roles that can be used; in which order distinct roles were declared plays no
part, since it leaves no trace in the engine.
-/

set_option autoImplicit false

namespace TranscodingEngines

namespace Engine

variable {e : Engine} {preferred : Option Role}

/-! ## The best role -/

theorem mem_roles_of_isAvailableFor {r : Role} (h : e.isAvailableFor r = true) : r ∈ e.roles := by
  obtain ⟨_, _, hDeclared⟩ := declares_of_isAvailableFor h
  exact mem_roles.mpr hDeclared

theorem isAvailableFor_bestRole_iff : e.isAvailableFor (e.bestRole preferred) = true ↔
    ∃ r, e.isAvailableFor r = true := by
  rw [bestRole]
  split
  · rename_i h
    exact iff_of_true h ⟨_, h⟩
  split
  · rename_i h
    exact iff_of_true h ⟨_, h⟩
  · rename_i hPreferred _
    cases hFind : e.roles.find? e.isAvailableFor with
    | some r =>
      have hAvailable := List.find?_some hFind
      exact iff_of_true hAvailable ⟨r, hAvailable⟩
    | none =>
      refine iff_of_false hPreferred ?_
      rintro ⟨r, hAvailable⟩
      exact List.find?_eq_none.mp hFind r (mem_roles_of_isAvailableFor hAvailable) hAvailable

theorem find?_roles_eq {r : Role} (hAvailable : e.isAvailableFor r = true)
    (hFirst : ∀ q, [q, r].Sublist Role.all → e.isAvailableFor q = false) :
    e.roles.find? e.isAvailableFor = some r := by
  obtain ⟨before, behind, hRoles⟩ := List.append_of_mem (mem_roles_of_isAvailableFor hAvailable)
  refine List.find?_eq_some_iff_append.mpr ⟨hAvailable, before, behind, hRoles, ?_⟩
  intro q hq
  have hPair : [q, r].Sublist e.roles := by
    rw [hRoles]
    exact (List.singleton_sublist.mpr hq).append
      (List.singleton_sublist.mpr List.mem_cons_self)
  rw [hFirst q (hPair.trans List.filter_sublist)]
  rfl

/-- The current role is the one that the rule picks, given a role that is preferred. -/
structure Picks (e : Engine) (wanted : Role) : Prop where
  preferred : e.isAvailableFor wanted = true → e.currentRole = wanted
  fallback : e.isAvailableFor wanted = false → e.isAvailableFor e.defaultRole = true →
    e.currentRole = e.defaultRole
  /-- The first usable role, in the order of the roles. -/
  first : e.isAvailableFor wanted = false → e.isAvailableFor e.defaultRole = false →
    ∀ r, e.isAvailableFor r = true →
      (∀ q, [q, r].Sublist Role.all → e.isAvailableFor q = false) → e.currentRole = r
  unusable : (∀ r, e.isAvailableFor r = false) → e.currentRole = wanted

theorem picks_of_currentRole (h : e.currentRole = e.bestRole preferred) :
    e.Picks (preferred.getD e.defaultRole) := by
  rw [bestRole] at h
  constructor
  · intro hPreferred
    rw [h, if_pos hPreferred]
  · intro hPreferred hDefault
    rw [h, if_neg (ne_true_of_eq_false hPreferred), if_pos hDefault]
  · intro hPreferred hDefault r hAvailable hFirst
    rw [h, if_neg (ne_true_of_eq_false hPreferred), if_neg (ne_true_of_eq_false hDefault),
      find?_roles_eq hAvailable hFirst]
    rfl
  · intro hNone
    have hFind : e.roles.find? e.isAvailableFor = none :=
      List.find?_eq_none.mpr fun r _ => ne_true_of_eq_false (hNone r)
    rw [h, if_neg (ne_true_of_eq_false (hNone _)), if_neg (ne_true_of_eq_false (hNone _)), hFind]
    rfl

/-! ## Declaring roles -/

/-- Declares roles one after the other, each with its configured path. -/
def withExecutables (e : Engine) (declared : List (Role × Option FilePath)) : Engine :=
  declared.foldl (fun e d => e.withExecutable d.1 d.2) e

theorem withExecutable_comm (e : Engine) {r s : Role} (h : r ≠ s) (p q : Option FilePath) :
    (e.withExecutable r p).withExecutable s q = (e.withExecutable s q).withExecutable r p := by
  have hTable : (e.executables.set r (some (.unverified p))).set s (some (.unverified q))
      = (e.executables.set s (some (.unverified q))).set r (some (.unverified p)) := by
    cases r <;> cases s <;> first | rfl | exact absurd rfl h
  simp only [withExecutable, hTable]

theorem withExecutables_perm (e : Engine) {declared declared' : List (Role × Option FilePath)}
    (hPerm : declared.Perm declared') (hNodup : (declared.map (·.1)).Nodup) :
    e.withExecutables declared = e.withExecutables declared' := by
  apply hPerm.foldl_eq'
  intro x hx y hy k
  by_cases hSame : x = y
  · rw [hSame]
  · exact k.withExecutable_comm (fun hRole => hSame (List.inj_on_of_nodup_map hNodup hx hy hRole))
      x.2 y.2

end Engine

end TranscodingEngines
