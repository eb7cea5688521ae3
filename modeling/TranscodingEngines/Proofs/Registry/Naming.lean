import TranscodingEngines.Proofs.Registry.Addressing

/-!
# Identifiers that texts can name

Sameness of identifiers is an equivalence, and it is what a raw text is compared by once the blank
characters around it are gone. The two relations agree on identifiers made from texts, which are
trimmed. An identifier that was read back with blank characters around it is named by no text at
all: neither its own text nor an entry of the settings reaches an engine that carries it.
-/

set_option autoImplicit false

namespace TranscodingEngines

namespace EngineId

variable {a b : EngineId} {raw : String}

def IsTrimmed (a : EngineId) : Prop := Text.trim a.text = a.text

instance (a : EngineId) : Decidable a.IsTrimmed :=
  inferInstanceAs (Decidable (Text.trim a.text = a.text))

theorem isTrimmed_ofText (s : String) : (ofText s).IsTrimmed := Text.trim_trim s

theorem same_equivalence : Equivalence fun a b : EngineId => a.same b = true where
  refl := same_self
  symm {a b} h := (same_comm b a).trans h
  trans := same_trans

theorem same_ofText_iff : a.same (ofText a.text) = true ↔ a.IsTrimmed := by
  constructor
  · intro h
    exact Text.trim_eq_self_of_length (Text.length_eq_of_sameLetters h).symm
  · intro h
    rw [ofText, h]
    exact same_self a

theorem isNamedBy_append_append {before after : String} (hBefore : Text.isBlank before = true)
    (hAfter : Text.isBlank after = true) :
    a.isNamedBy (before ++ raw ++ after) = a.isNamedBy raw := by
  rw [isNamedBy, Text.trim_append_append raw hBefore hAfter, isNamedBy]

theorem isTrimmed_of_isNamedBy (h : a.isNamedBy raw = true) : a.IsTrimmed := by
  have hTrimmed := Text.sameLetters_trim h
  rw [Text.trim_trim] at hTrimmed
  have hLength := (Text.length_eq_of_sameLetters hTrimmed).trans
    (Text.length_eq_of_sameLetters h).symm
  exact Text.trim_eq_self_of_length hLength

theorem isNamedBy_self_iff : a.isNamedBy a.text = true ↔ a.IsTrimmed := same_ofText_iff

/-- Naming and sameness differ at an untrimmed identifier exactly if another one is the same as it,
or as what trimming makes of it. -/
theorem isNamedBy_eq_same_iff : a.isNamedBy b.text = a.same b ↔
    b.IsTrimmed ∨ a.same b = false ∧ a.same (ofText b.text) = false := by
  change a.same (ofText b.text) = a.same b ↔ _
  constructor
  · intro h
    rw [h, and_self]
    cases hSame : a.same b with
    | false => exact .inr rfl
    | true =>
      -- Both are the same as the first one, so trimming changes nothing.
      rw [hSame] at h
      rw [same_comm] at hSame
      exact .inl (same_ofText_iff.mp (same_trans hSame h))
  · rintro (hTrimmed | ⟨hSame, hSpelt⟩)
    · rw [ofText, hTrimmed]
    · rw [hSame, hSpelt]

end EngineId

/-! ## Settings -/

namespace Settings

variable {id : EngineId} {disabled priority : List String} {roles : List (String × Role)}

theorem isEnabled_ofLists_eq_false_iff : (ofLists disabled priority roles).isEnabled id = false ↔
    ∃ entry ∈ disabled, id.isNamedBy entry = true := by
  simp [ofLists]

theorem rank_ofLists_ne_none_iff : (ofLists disabled priority roles).rank id ≠ .none ↔
    ∃ entry ∈ priority, id.isNamedBy entry = true := by
  simp [ofLists, EngineId.position]

theorem preferredRole_ofLists_ne_none_iff :
    (ofLists disabled priority roles).preferredRole id ≠ .none ↔
      ∃ entry ∈ roles, id.isNamedBy entry.1 = true := by
  simp [ofLists, EngineId.lookup]

/-- The tables that settings are made of say something about an identifier: they switch it off,
rank it, or prefer a role of it. -/
def Mentions (s : Settings) (id : EngineId) : Prop :=
  s.isEnabled id = false ∨ s.rank id ≠ .none ∨ s.preferredRole id ≠ .none

theorem isTrimmed_of_mentions (h : (ofLists disabled priority roles).Mentions id) :
    id.IsTrimmed := by
  rcases h with hOff | hRanked | hPreferred
  · obtain ⟨entry, -, hName⟩ := isEnabled_ofLists_eq_false_iff.mp hOff
    exact EngineId.isTrimmed_of_isNamedBy hName
  · obtain ⟨entry, -, hName⟩ := rank_ofLists_ne_none_iff.mp hRanked
    exact EngineId.isTrimmed_of_isNamedBy hName
  · obtain ⟨entry, -, hName⟩ := preferredRole_ofLists_ne_none_iff.mp hPreferred
    exact EngineId.isTrimmed_of_isNamedBy hName

/-- Entries that are the text of a trimmed identifier take effect on it. -/
theorem ofLists_of_isTrimmed (h : id.IsTrimmed) :
    (id.text ∈ disabled → (ofLists disabled priority roles).isEnabled id = false) ∧
    (id.text ∈ priority → (ofLists disabled priority roles).rank id ≠ .none) ∧
    ∀ r, (id.text, r) ∈ roles → (ofLists disabled priority roles).preferredRole id ≠ .none := by
  have hSelf := EngineId.isNamedBy_self_iff.mpr h
  refine ⟨fun hListed => ?_, fun hListed => ?_, fun r hListed => ?_⟩
  · exact isEnabled_ofLists_eq_false_iff.mpr ⟨_, hListed, hSelf⟩
  · exact rank_ofLists_ne_none_iff.mpr ⟨_, hListed, hSelf⟩
  · exact preferredRole_ofLists_ne_none_iff.mpr ⟨_, hListed, hSelf⟩

end Settings

/-! ## Engines -/

namespace Registry

theorem Distinct.lookup_self_iff {g : Registry} (h : g.Distinct) {e : Engine}
    (he : e ∈ g.engines) : g.lookup e.id.text = some e ↔ e.id.IsTrimmed := by
  rw [h.lookup_eq_some_iff, and_iff_right he]
  exact EngineId.isNamedBy_self_iff

/-- How an engine of a registry is addressed: by its own text if its identifier is trimmed, and by
no text otherwise, so that switching engines leaves it as it is. -/
structure AddressedIfTrimmed (g : Registry) (e : Engine) : Prop where
  found_iff : g.lookup e.id.text = some e ↔ e.id.IsTrimmed
  reached_iff : (∃ raw, g.lookup raw = some e) ↔ e.id.IsTrimmed
  switched : e.id.IsTrimmed → Text.isBlank e.id.text = false → ∀ enabled,
    (g.setEnabled e.id.text enabled).result = .ok () ∧
      g.Replaces e { e with enabled := enabled } (g.setEnabled e.id.text enabled).registry
  left : ¬ e.id.IsTrimmed → ∀ raw enabled, e ∈ (g.setEnabled raw enabled).registry.engines

theorem Replaces.mem_of_ne {g other : Registry} {k k' e : Engine} (h : g.Replaces k k' other)
    (he : e ∈ g.engines) (hne : e ≠ k) : e ∈ other.engines := by
  obtain ⟨before, after, hSplit, rfl⟩ := h
  simp only [hSplit, List.mem_append, List.mem_cons] at he ⊢
  exact he.imp_right fun h => .inr (h.resolve_left hne)

theorem Modified.of_lookup {g : Registry} {raw : String} {f : Engine → Engine} {e : Engine}
    {outcome : Outcome} (h : Modified g raw f outcome) (hInk : Text.isBlank raw = false)
    (hLookup : g.lookup raw = some e) :
    outcome.result = .ok () ∧ g.Replaces e (f e) outcome.registry := by
  cases h with
  | blank hBlank => cases hInk.symm.trans hBlank
  | unknown _ hNone => cases hLookup.symm.trans hNone
  | found _ hFound hResult hReplaces =>
    obtain rfl := Option.some.inj (hLookup.symm.trans hFound)
    exact ⟨hResult, hReplaces⟩

theorem Modified.mem_of_not_named {g : Registry} {raw : String} {f : Engine → Engine} {e : Engine}
    {outcome : Outcome} (h : Modified g raw f outcome) (he : e ∈ g.engines)
    (hOther : ¬ e.id.isNamedBy raw = true) : e ∈ outcome.registry.engines := by
  cases h with
  | blank => exact he
  | unknown => exact he
  | found _ hFound _ hReplaces =>
    refine hReplaces.mem_of_ne he ?_
    rintro rfl
    exact hOther (of_lookup_eq_some hFound).2

theorem Distinct.addressedIfTrimmed {g : Registry} (h : g.Distinct) {e : Engine}
    (he : e ∈ g.engines) : g.AddressedIfTrimmed e where
  found_iff := h.lookup_self_iff he
  reached_iff := by
    constructor
    · rintro ⟨raw, hFound⟩
      exact EngineId.isTrimmed_of_isNamedBy (of_lookup_eq_some hFound).2
    · intro hTrimmed
      exact ⟨e.id.text, (h.lookup_self_iff he).mpr hTrimmed⟩
  switched hTrimmed hInk enabled :=
    (g.setEnabled_modified e.id.text enabled).of_lookup hInk ((h.lookup_self_iff he).mpr hTrimmed)
  left hUntrimmed raw enabled :=
    (g.setEnabled_modified raw enabled).mem_of_not_named he
      fun hName => hUntrimmed (EngineId.isTrimmed_of_isNamedBy hName)

/-- Sameness is an equivalence, and a raw text names the same identifiers with blank characters
around it. An identifier spelt by a text is trimmed; one read back from the text is the same exactly
if it is trimmed too. Exactly the trimmed identifiers are named by their own text, and among
them naming is sameness either way round; no text names another one, and where naming by the text of
another one differs from sameness is told by trimming it. So exactly the registered engines with a
trimmed identifier are found, switched off, ranked or given a role by a text. -/
theorem naming_isTrimmed (a b : EngineId) (s : String) (settings : Settings)
    (history : List (Environment × Operation)) :
    (Equivalence fun a b : EngineId => a.same b = true) ∧
    (∀ before raw after : String, Text.isBlank before = true → Text.isBlank after = true →
      a.isNamedBy (before ++ raw ++ after) = a.isNamedBy raw) ∧
    ((EngineId.ofText s).IsTrimmed ∧
      ((EngineId.ofStored s).same (.ofText s) = true ↔ (EngineId.ofStored s).IsTrimmed)) ∧
    ((a.isNamedBy a.text = true ↔ a.IsTrimmed) ∧
      ((∃ raw, a.isNamedBy raw = true) ↔ a.IsTrimmed)) ∧
    (a.IsTrimmed → b.IsTrimmed →
      a.isNamedBy b.text = a.same b ∧ b.isNamedBy a.text = a.same b) ∧
    (a.isNamedBy b.text = a.same b ↔
      b.IsTrimmed ∨ a.same b = false ∧ a.same (.ofText b.text) = false) ∧
    (∀ e ∈ ((empty settings).applyAll history).engines,
      ((empty settings).applyAll history).AddressedIfTrimmed e) ∧
    ∀ (disabled priority : List String) (roles : List (String × Role)),
      let tables := Settings.ofLists disabled priority roles
      (tables.Mentions a → a.IsTrimmed) ∧
      (a.IsTrimmed → (a.text ∈ disabled → tables.isEnabled a = false) ∧
        (a.text ∈ priority → tables.rank a ≠ none) ∧
        ∀ r, (a.text, r) ∈ roles → tables.preferredRole a ≠ none) := by
  have hNamed : (∃ raw, a.isNamedBy raw = true) ↔ a.IsTrimmed := by
    constructor
    · rintro ⟨raw, hName⟩
      exact EngineId.isTrimmed_of_isNamedBy hName
    · intro hTrimmed
      exact ⟨a.text, EngineId.isNamedBy_self_iff.mpr hTrimmed⟩
  refine ⟨EngineId.same_equivalence, ?_, ⟨EngineId.isTrimmed_ofText s, EngineId.same_ofText_iff⟩,
    ⟨EngineId.isNamedBy_self_iff, hNamed⟩, ?_, EngineId.isNamedBy_eq_same_iff, ?_, ?_⟩
  · intro before raw after hBefore hAfter
    exact EngineId.isNamedBy_append_append hBefore hAfter
  · intro ha hb
    refine ⟨EngineId.isNamedBy_eq_same_iff.mpr (.inl hb), ?_⟩
    rw [EngineId.same_comm]
    exact EngineId.isNamedBy_eq_same_iff.mpr (.inl ha)
  · intro e he
    have hRun := (empty settings).run_applyAll history
    exact (hRun.distinct List.Pairwise.nil).addressedIfTrimmed he
  · intro disabled priority roles tables
    exact ⟨Settings.isTrimmed_of_mentions, Settings.ofLists_of_isTrimmed⟩

/-- An identifier that was spelt with blank characters around it is addressed by its own text. -/
theorem naming_isTrimmed_spelt :
    let a := EngineId.ofText " tsMuxeR Video\u2003"
    let b := EngineId.ofStored "TSMUXER VIDEO"
    a.IsTrimmed ∧ b.IsTrimmed ∧ a.isNamedBy b.text = true ∧ b.isNamedBy a.text = true ∧
      a.isNamedBy ("\t" ++ "tsmuxer video" ++ "\u00a0") = true := by
  intro a b
  obtain ⟨-, hBlank, -, -, hBoth, -⟩ := naming_isTrimmed a b a.text (.ofLists [] [] []) []
  have ha : a.IsTrimmed := by decide +kernel
  have hb : b.IsTrimmed := by decide +kernel
  have hSame : a.same b = true := by decide +kernel
  obtain ⟨hLeft, hRight⟩ := hBoth ha hb
  refine ⟨ha, hb, hLeft.trans hSame, hRight.trans hSame, ?_⟩
  rw [hBlank "\t" "tsmuxer video" "\u00a0" (by decide +kernel) (by decide +kernel)]
  decide +kernel

/-- An identifier that is read back with a blank character in front is neither the one that its text
spells nor named by that text, although the text names the other one. -/
theorem naming_untrimmed :
    let stored := EngineId.ofStored " DCRaw"
    stored.same (.ofText " DCRaw") = false ∧ stored.isNamedBy " DCRaw" = false ∧
      stored.same stored = true ∧ (EngineId.ofText " DCRaw").isNamedBy " DCRaw" = true := by
  decide +kernel

end Registry

end TranscodingEngines
