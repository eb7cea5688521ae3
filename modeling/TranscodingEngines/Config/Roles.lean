import TranscodingEngines.Engine.Role

/-!
# Preferred roles

The preferred roles of engines, by the text that names the engine. A table has at most one entry for
a key and keeps its entries in the order of their keys, so that tables which say the same are equal.
-/

set_option autoImplicit false

namespace TranscodingEngines

structure RoleTable where
  entries : List (String × Role)
  ordered : entries.Pairwise fun a b => a.1 < b.1
  deriving DecidableEq, Repr

namespace RoleTable

def empty : RoleTable := ⟨[], .nil⟩

def insertEntry (key : String) (role : Role) : List (String × Role) → List (String × Role)
  | [] => [(key, role)]
  | entry :: rest =>
    if key < entry.1 then (key, role) :: entry :: rest
    else if entry.1 < key then entry :: insertEntry key role rest
    else (key, role) :: rest

theorem mem_insertEntry {key : String} {role : Role} {entries : List (String × Role)}
    {entry : String × Role} (h : entry ∈ insertEntry key role entries) :
    entry = (key, role) ∨ entry ∈ entries := by
  induction entries with
  | nil => exact .inl (List.mem_singleton.mp h)
  | cons first rest ih =>
    unfold insertEntry at h
    split at h
    · exact List.mem_cons.mp h
    · split at h
      · rcases List.mem_cons.mp h with h | h
        · exact .inr (List.mem_cons.mpr (.inl h))
        · exact (ih h).imp id fun h => List.mem_cons_of_mem _ h
      · exact (List.mem_cons.mp h).imp id fun h => List.mem_cons_of_mem _ h

theorem insertEntry_ordered (key : String) (role : Role) {entries : List (String × Role)}
    (h : entries.Pairwise fun a b => a.1 < b.1) :
    (insertEntry key role entries).Pairwise fun a b => a.1 < b.1 := by
  induction entries with
  | nil => exact List.pairwise_singleton _ _
  | cons first rest ih =>
    have ⟨hfirst, hrest⟩ := List.pairwise_cons.mp h
    unfold insertEntry
    split
    next hlt =>
      refine List.pairwise_cons.mpr ⟨fun entry hmem => ?_, h⟩
      rcases List.mem_cons.mp hmem with rfl | hmem
      · exact hlt
      · exact String.lt_trans hlt (hfirst entry hmem)
    next hge =>
      split
      next hgt =>
        refine List.pairwise_cons.mpr ⟨fun entry hmem => ?_, ih hrest⟩
        rcases mem_insertEntry hmem with rfl | hmem
        · exact hgt
        · exact hfirst entry hmem
      next hle =>
        have heq : key = first.1 :=
          String.le_antisymm (String.not_lt.mp hle) (String.not_lt.mp hge)
        refine List.pairwise_cons.mpr ⟨fun entry hmem => ?_, hrest⟩
        exact heq ▸ hfirst entry hmem

theorem insertEntry_of_forall_lt {key : String} (role : Role) {entries : List (String × Role)}
    (h : ∀ entry ∈ entries, entry.1 < key) :
    insertEntry key role entries = entries ++ [(key, role)] := by
  induction entries with
  | nil => rfl
  | cons first rest ih =>
    have hfirst := h first List.mem_cons_self
    rw [insertEntry, if_neg (String.lt_asymm hfirst), if_pos hfirst,
      ih fun entry hmem => h entry (List.mem_cons_of_mem _ hmem), List.cons_append]

def insert (table : RoleTable) (key : String) (role : Role) : RoleTable :=
  ⟨insertEntry key role table.entries, insertEntry_ordered key role table.ordered⟩

def ofList (entries : List (String × Role)) : RoleTable :=
  entries.foldl (fun table entry => table.insert entry.1 entry.2) empty

theorem foldl_insert_entries (table : RoleTable) {entries : List (String × Role)}
    (h : (table.entries ++ entries).Pairwise fun a b => a.1 < b.1) :
    (entries.foldl (fun table entry => table.insert entry.1 entry.2) table).entries
      = table.entries ++ entries := by
  induction entries generalizing table with
  | nil => exact (List.append_nil _).symm
  | cons entry rest ih =>
    have hins : (table.insert entry.1 entry.2).entries = table.entries ++ [entry] :=
      insertEntry_of_forall_lt entry.2 fun other hmem =>
        (List.pairwise_append.mp h).2.2 other hmem entry List.mem_cons_self
    rw [List.foldl_cons, ih _ (by rw [hins, List.append_assoc]; exact h), hins,
      List.append_assoc, List.singleton_append]

theorem ext_entries {t u : RoleTable} (h : t.entries = u.entries) : t = u := by
  cases t
  cases u
  cases h
  rfl

theorem ofList_entries (table : RoleTable) : ofList table.entries = table :=
  ext_entries (foldl_insert_entries empty table.ordered)

end RoleTable

end TranscodingEngines
