import Mathlib.Data.List.Pairwise
import Mathlib.Data.List.Perm.Basic
import TranscodingEngines.Config.Basic
import TranscodingEngines.Proofs.Engine.Naming

/-!
# Respelled configurations

Two texts are respellings of each other when they differ in the case of letters and in the blank
characters around them: exactly then they spell the same identifier. Configurations whose entries
are respelled answer alike for one engine. A role table keeps its entries in the order of their
keys, so respelling the keys may also move the entries; if no two keys spell the same identifier,
an engine still finds its own entry.
-/

set_option autoImplicit false

namespace TranscodingEngines

/-- The two texts differ at most in the case of letters and the blank characters around them. -/
def Text.Respelt (s t : String) : Prop := Text.sameLetters (Text.trim s) (Text.trim t) = true

instance (s t : String) : Decidable (Text.Respelt s t) :=
  inferInstanceAs (Decidable (Text.sameLetters (Text.trim s) (Text.trim t) = true))

namespace Text.Respelt

variable {s t : String}

@[symm]
theorem symm (h : Text.Respelt s t) : Text.Respelt t s := by
  rw [Text.Respelt, Text.sameLetters_comm]
  exact h

theorem same_ofText (h : Text.Respelt s t) : (EngineId.ofText s).same (.ofText t) = true := h

theorem isBlank_of (h : Text.Respelt s t) (hs : Text.isBlank s = true) :
    Text.isBlank t = true := by
  have hLetters := Text.sameLetters_iff.mp h
  rw [Text.trim_eq_empty_iff.mpr hs, String.toList_empty, List.map_nil, eq_comm,
    List.map_eq_nil_iff, String.toList_eq_nil_iff] at hLetters
  exact Text.trim_eq_empty_iff.mp hLetters

theorem isBlank_eq (h : Text.Respelt s t) : Text.isBlank s = Text.isBlank t :=
  Bool.eq_iff_iff.mpr ⟨h.isBlank_of, h.symm.isBlank_of⟩

end Text.Respelt

theorem EngineId.isNamedBy_eq {a b : EngineId} {raw raw' : String} (hSame : a.same b = true)
    (hRaw : Text.Respelt raw raw') : a.isNamedBy raw = b.isNamedBy raw' := by
  apply Bool.eq_iff_iff.mpr
  constructor
  · intro hName
    rw [same_comm] at hSame
    exact Text.sameLetters_trans (Text.sameLetters_trans hSame hName) hRaw
  · intro hName
    exact Text.sameLetters_trans (Text.sameLetters_trans hSame hName) hRaw.symm

/-! ## Settings that answer alike -/

/-- The settings answer alike for identifiers that are the same. -/
structure Settings.Alike (s s' : Settings) : Prop where
  isEnabled : ∀ {a b : EngineId}, a.same b = true → s.isEnabled a = s'.isEnabled b
  rank : ∀ {a b : EngineId}, a.same b = true → s.rank a = s'.rank b
  preferredRole : ∀ {a b : EngineId}, a.same b = true → s.preferredRole a = s'.preferredRole b

theorem map_eq_of_forall₂ {α β γ : Type} {R : α → β → Prop} {f : α → γ} {f' : β → γ} {xs : List α}
    {ys : List β} (h : List.Forall₂ R xs ys) (hf : ∀ x y, R x y → f x = f' y) :
    xs.map f = ys.map f' := by
  induction h with
  | nil => rfl
  | cons hR _ ih => rw [List.map_cons, List.map_cons, ih, hf _ _ hR]

theorem any_eq_of_forall₂ {α β : Type} {R : α → β → Prop} {p : α → Bool} {q : β → Bool}
    {xs : List α} {ys : List β} (h : List.Forall₂ R xs ys) (hp : ∀ x y, R x y → p x = q y) :
    xs.any p = ys.any q := by
  have hMap := congrArg (List.any · id) (map_eq_of_forall₂ h hp)
  simpa only [List.any_map, Function.id_comp] using hMap

theorem findIdx?_eq_of_forall₂ {α β : Type} {R : α → β → Prop} {p : α → Bool} {q : β → Bool}
    {xs : List α} {ys : List β} (h : List.Forall₂ R xs ys) (hp : ∀ x y, R x y → p x = q y) :
    xs.findIdx? p = ys.findIdx? q := by
  have hMap := congrArg (List.findIdx? id) (map_eq_of_forall₂ h hp)
  simpa only [List.findIdx?_map, Function.id_comp] using hMap

/-! ## Role tables -/

/-- No two keys of the entries spell the same identifier. -/
def ClearKeys (entries : List (String × Role)) : Prop :=
  entries.Pairwise fun entry other => ¬ Text.Respelt entry.1 other.1

/-- The entries are those of the other list with their keys respelled, perhaps in another order. -/
def RespelledKeys (entries entries' : List (String × Role)) : Prop :=
  ∃ moved, moved.Perm entries' ∧
    List.Forall₂ (fun entry other => Text.Respelt entry.1 other.1 ∧ entry.2 = other.2) entries moved

theorem ClearKeys.lookup_eq_some_iff {entries : List (String × Role)} (h : ClearKeys entries)
    {id : EngineId} {r : Role} :
    id.lookup entries = some r ↔ ∃ key, (key, r) ∈ entries ∧ id.isNamedBy key = true := by
  rw [EngineId.lookup, Option.map_eq_some_iff]
  constructor
  · rintro ⟨⟨key, role⟩, hFound, rfl⟩
    have hName := List.find?_some hFound
    exact ⟨key, List.mem_of_find?_eq_some hFound, hName⟩
  · rintro ⟨key, hMem, hName⟩
    have hSome : (entries.find? fun entry => id.isNamedBy entry.1).isSome :=
      List.find?_isSome.mpr ⟨_, hMem, hName⟩
    obtain ⟨⟨other, role⟩, hFound⟩ := Option.isSome_iff_exists.mp hSome
    have hOther := List.find?_some hFound
    -- Both keys name the identifier, so they belong to one entry.
    have hRespelt : Text.Respelt other key := by
      rw [EngineId.isNamedBy, Text.sameLetters_comm] at hOther
      exact Text.sameLetters_trans hOther hName
    have : Std.Symm fun entry other : String × Role => ¬ Text.Respelt entry.1 other.1 :=
      ⟨fun _ _ hApart hBack => hApart hBack.symm⟩
    have hEntry : (other, role) = (key, r) := by
      by_contra hne
      exact h.forall (List.mem_of_find?_eq_some hFound) hMem hne hRespelt
    exact ⟨_, hFound, congrArg Prod.snd hEntry⟩

theorem forall₂_exists_of_mem {α β : Type} {R : α → β → Prop} {xs : List α} {ys : List β}
    (h : List.Forall₂ R xs ys) {x : α} (hx : x ∈ xs) : ∃ y ∈ ys, R x y := by
  induction h with
  | nil => cases hx
  | cons hR _ ih =>
    rcases List.mem_cons.mp hx with rfl | hx
    · exact ⟨_, List.mem_cons_self, hR⟩
    · obtain ⟨y, hy, hR⟩ := ih hx
      exact ⟨y, List.mem_cons_of_mem _ hy, hR⟩

theorem RespelledKeys.exists_mem {entries entries' : List (String × Role)}
    (h : RespelledKeys entries entries') {key : String} {r : Role} (hMem : (key, r) ∈ entries) :
    ∃ key', (key', r) ∈ entries' ∧ Text.Respelt key key' := by
  obtain ⟨moved, hPerm, hRelated⟩ := h
  obtain ⟨⟨key', r'⟩, hMoved, hKey, rfl⟩ := forall₂_exists_of_mem hRelated hMem
  exact ⟨key', hPerm.mem_iff.mp hMoved, hKey⟩

theorem RespelledKeys.symm {entries entries' : List (String × Role)}
    (h : RespelledKeys entries entries') : RespelledKeys entries' entries := by
  obtain ⟨moved, hPerm, hRelated⟩ := h
  have hFlip : List.Forall₂ (fun entry other => Text.Respelt entry.1 other.1 ∧ entry.2 = other.2)
      moved entries := by
    refine (List.Forall₂.flip hRelated).imp fun _ _ hEntry => ?_
    exact ⟨hEntry.1.symm, hEntry.2.symm⟩
  exact (List.perm_comp_forall₂ hPerm.symm hFlip).imp fun _ h => h.symm

theorem RespelledKeys.lookup_eq {entries entries' : List (String × Role)}
    (h : RespelledKeys entries entries') (hClear : ClearKeys entries)
    (hClear' : ClearKeys entries') {a b : EngineId} (hSame : a.same b = true) :
    a.lookup entries = b.lookup entries' := by
  ext r
  rw [hClear.lookup_eq_some_iff, hClear'.lookup_eq_some_iff]
  constructor
  · rintro ⟨key, hMem, hName⟩
    obtain ⟨key', hMem', hRespelt⟩ := h.exists_mem hMem
    exact ⟨key', hMem', EngineId.isNamedBy_eq hSame hRespelt ▸ hName⟩
  · rintro ⟨key, hMem, hName⟩
    obtain ⟨key', hMem', hRespelt⟩ := h.symm.exists_mem hMem
    exact ⟨key', hMem', EngineId.isNamedBy_eq hSame hRespelt.symm ▸ hName⟩

/-! ## Configurations -/

/-- The second configuration has the entries of the first one, respelled, and in neither do two
role keys spell the same identifier. -/
structure Config.Respells (c c' : Config) : Prop where
  priority : List.Forall₂ Text.Respelt c.priority c'.priority
  disabled : List.Forall₂ Text.Respelt c.disabled c'.disabled
  roles : RespelledKeys c.roles.entries c'.roles.entries
  clear : ClearKeys c.roles.entries
  clear' : ClearKeys c'.roles.entries

theorem Config.Respells.settings_alike {c c' : Config} (h : c.Respells c') :
    c.settings.Alike c'.settings where
  isEnabled hSame := congrArg (!·) <|
    any_eq_of_forall₂ h.disabled fun _ _ => EngineId.isNamedBy_eq hSame
  rank hSame := congrArg (Option.map UInt64.ofNat) <|
    findIdx?_eq_of_forall₂ h.priority fun _ _ => EngineId.isNamedBy_eq hSame
  preferredRole hSame := h.roles.lookup_eq h.clear h.clear' hSame

end TranscodingEngines
