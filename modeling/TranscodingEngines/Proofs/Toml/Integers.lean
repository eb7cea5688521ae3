import TranscodingEngines.Proofs.Toml.Numeral
import TranscodingEngines.Toml.Reader

/-!
# The integers of a document

No integer in a document that was read is too large to be written. Scalars are checked when they are
read, and building tables only moves values around.
-/

set_option autoImplicit false

namespace TranscodingEngines.Toml

/-- No integer in the value is larger than one that can be read. -/
inductive Value.Fits : Value → Prop where
  | string (text : String) : Fits (.string text)
  | integer {number : Int} (h : number ≤ largestInteger) : Fits (.integer number)
  | float (text : String) : Fits (.float text)
  | boolean (truth : Bool) : Fits (.boolean truth)
  | moment (text : String) : Fits (.moment text)
  | array {items : List Value} (h : ∀ v ∈ items, v.Fits) : Fits (.array items)
  | tables {items : List Value} (h : ∀ v ∈ items, v.Fits) : Fits (.tables items)
  | inlineTable {entries : List (String × Value)} (h : ∀ e ∈ entries, e.2.Fits) :
      Fits (.inlineTable entries)
  | table {origin : Origin} {entries : List (String × Value)} (h : ∀ e ∈ entries, e.2.Fits) :
      Fits (.table origin entries)

def Entries.Fit (entries : Entries) : Prop := ∀ e ∈ entries, e.2.Fits

def AllFit (items : List Value) : Prop := ∀ v ∈ items, v.Fits

theorem Value.Fits.entries {origin : Origin} {inner : Entries} (h : Value.Fits (.table origin inner)) :
    inner.Fit := by
  cases h with
  | table h => exact h

theorem Value.Fits.items {items : List Value} (h : Value.Fits (.tables items)) : AllFit items := by
  cases h with
  | tables h => exact h

/-! ## Entries -/

namespace Entries

variable {entries : Entries} {key : String} {v : Value}

theorem Fit.nil : Fit [] := fun _ h => nomatch h

theorem Fit.get? (h : entries.Fit) (hGet : entries.get? key = some v) : v.Fits := by
  obtain ⟨entry, hFind, rfl⟩ := Option.map_eq_some_iff.mp hGet
  exact h entry (List.mem_of_find?_eq_some hFind)

theorem Fit.append (h : entries.Fit) (hValue : v.Fits) : Fit (entries ++ [(key, v)]) := by
  intro entry hEntry
  rcases List.mem_append.mp hEntry with hEntry | hEntry
  · exact h entry hEntry
  · obtain rfl := List.mem_singleton.mp hEntry
    exact hValue

theorem Fit.put (h : entries.Fit) (hValue : v.Fits) : (entries.put key v).Fit := by
  induction entries with
  | nil => exact Fit.append Fit.nil hValue
  | cons entry rest ih =>
    obtain ⟨hEntry, hRest⟩ := List.forall_mem_cons.mp h
    rw [Entries.put]
    split
    · exact List.forall_mem_cons.mpr ⟨hValue, hRest⟩
    · exact List.forall_mem_cons.mpr ⟨hEntry, ih hRest⟩

end Entries

open Entries (Fit)

/-! ## Changes -/

/-- The change makes nothing out of entries that fit but entries that fit. -/
def KeepsFit (f : Entries → Option Entries) : Prop :=
  ∀ {entries changed}, entries.Fit → f entries = some changed → changed.Fit

theorem changeLast_fit {f : Entries → Option Entries} (hf : KeepsFit f) {items changed : List Value}
    (h : AllFit items) (hChange : changeLast f items = some changed) : AllFit changed := by
  fun_induction changeLast f items generalizing changed with
  | case1 => cases hChange
  | case2 origin entries =>
    obtain ⟨made, hMade, rfl⟩ := Option.map_eq_some_iff.mp hChange
    have hEntries := (h _ List.mem_cons_self).entries
    exact List.forall_mem_singleton.mpr (.table (hf hEntries hMade))
  | case3 item rest hOther ih =>
    obtain ⟨made, hMade, rfl⟩ := Option.map_eq_some_iff.mp hChange
    obtain ⟨hItem, hRest⟩ := List.forall_mem_cons.mp h
    exact List.forall_mem_cons.mpr ⟨hItem, ih hRest hMade⟩

theorem changeAt_keepsFit {way : Way} {f : Origin → Entries → Option Entries}
    (hf : ∀ origin, KeepsFit (f origin)) (origin : Origin) (path : List String) :
    KeepsFit (changeAt way f origin path) := by
  intro entries changed h hChange
  induction path generalizing origin entries changed with
  | nil =>
    rw [changeAt] at hChange
    exact hf origin h hChange
  | cons key rest ih =>
    rw [changeAt] at hChange
    split at hChange
    · obtain ⟨made, hMade, rfl⟩ := Option.map_eq_some_iff.mp hChange
      exact h.put (.table (ih _ Fit.nil hMade))
    · rename_i hGet
      split at hChange
      · cases hChange
      · obtain ⟨made, hMade, rfl⟩ := Option.map_eq_some_iff.mp hChange
        exact h.put (.table (ih _ (h.get? hGet).entries hMade))
    · rename_i hGet
      obtain ⟨made, hMade, rfl⟩ := Option.map_eq_some_iff.mp hChange
      exact h.put (.tables (changeLast_fit (ih _) (h.get? hGet).items hMade))
    · cases hChange

theorem openTable_keepsFit (key : String) : KeepsFit (openTable key) := by
  intro entries changed h hOpen
  rw [openTable] at hOpen
  split at hOpen
  · cases hOpen
    exact h.put (.table Fit.nil)
  · rename_i hGet
    cases hOpen
    exact h.put (.table (h.get? hGet).entries)
  · cases hOpen

theorem openElement_keepsFit (key : String) : KeepsFit (openElement key) := by
  intro entries changed h hOpen
  rw [openElement] at hOpen
  have hNew : Value.Fits (.table .explicit []) := .table Fit.nil
  split at hOpen
  · cases hOpen
    exact h.put (.tables (List.forall_mem_singleton.mpr hNew))
  · rename_i hGet
    cases hOpen
    exact h.put (.tables (List.forall_mem_append.mpr
      ⟨(h.get? hGet).items, List.forall_mem_singleton.mpr hNew⟩))
  · cases hOpen

section Assignments

variable {v : Value} (hValue : v.Fits)

include hValue

theorem addKey_keepsFit (key : String) : KeepsFit (addKey key v) := by
  intro entries changed h hAdd
  rw [addKey] at hAdd
  split at hAdd
  · cases hAdd
    exact h.append hValue
  · cases hAdd

theorem assign_keepsFit (path : List String) (key : String) : KeepsFit (assign path key v) := by
  intro entries changed h hAssign
  rw [assign.eq_def] at hAssign
  split at hAssign
  · exact addKey_keepsFit hValue key h hAssign
  · refine changeAt_keepsFit (fun origin inner made hInner hMade => ?_) _ _ h hAssign
    split at hMade
    · exact addKey_keepsFit hValue key hInner hMade
    · cases hMade

end Assignments

/-! ## Values -/

theorem fitting_le {n number : Int} (h : fitting n = some number) : number ≤ largestInteger := by
  rw [fitting] at h
  split at h
  · rename_i hRange
    cases h
    exact hRange.2
  · cases h

theorem integer?_le {word : List Char} {number : Int} (h : integer? word = some number) :
    number ≤ largestInteger := by
  rw [integer?.eq_def] at h
  split at h
  all_goals
    obtain ⟨_, _, hFitting⟩ := Option.bind_eq_some_iff.mp h
    exact fitting_le hFitting

theorem scalar?_fits {word : List Char} {v : Value} (h : scalar? word = some v) : v.Fits := by
  rw [scalar?] at h
  split at h
  · cases h
    exact .boolean _
  split at h
  · cases h
    exact .boolean _
  split at h
  · cases h
    exact .moment _
  split at h
  · cases h
    exact .float _
  · obtain ⟨number, hNumber, rfl⟩ := Option.map_eq_some_iff.mp h
    exact .integer (integer?_le hNumber)

/-- What a reader finds has a property. -/
def Yields {α : Type} (P : α → Prop) (found : Found α) : Prop := ∀ r, found = some r → P r.1

namespace Yields

variable {α β : Type} {P : α → Prop} {Q : β → Prop}

theorem none : Yields P none := fun _ h => nomatch h

theorem some {a : α} (h : P a) (rest : List Char) : Yields P (some (a, rest)) := by
  rintro _ ⟨⟩
  exact h

theorem map {found : Found α} {f : α × List Char → β × List Char} (h : Yields P found)
    (hf : ∀ r, P r.1 → Q (f r).1) : Yields Q (found.map f) := by
  intro r hr
  obtain ⟨r, hFound, rfl⟩ := Option.map_eq_some_iff.mp hr
  exact hf r (h r hFound)

theorem bind {found : Found α} {f : α × List Char → Found β} (h : Yields P found)
    (hf : ∀ r, P r.1 → Yields Q (f r)) : Yields Q (found.bind f) := by
  intro r hr
  obtain ⟨first, hFound, hRest⟩ := Option.bind_eq_some_iff.mp hr
  exact hf first (h first hFound) r hRest

end Yields

theorem scalar_fits (cs : List Char) : Yields Value.Fits (scalar cs) := by
  intro r h
  rw [scalar] at h
  split at h
  · split at h
    · cases h
      exact .moment _
    · cases h
  · obtain ⟨v, hv, rfl⟩ := Option.map_eq_some_iff.mp h
    exact scalar?_fits hv

def AssignedFit (assignments : List (List String × Value)) : Prop := ∀ a ∈ assignments, a.2.Fits

theorem foldlM_fit {α : Type} {f : Entries → α → Option Entries} {as : List α}
    (hf : ∀ a ∈ as, KeepsFit fun entries => f entries a) {entries made : Entries}
    (h : entries.Fit) (hFold : as.foldlM f entries = some made) : made.Fit := by
  induction as generalizing entries with
  | nil =>
    cases hFold
    exact h
  | cons a rest ih =>
    obtain ⟨hFirst, hRest⟩ := List.forall_mem_cons.mp hf
    rw [List.foldlM_cons] at hFold
    obtain ⟨next, hNext, hFold⟩ := Option.bind_eq_some_iff.mp hFold
    exact ih hRest (hFirst h hNext) hFold

theorem inlineTable?_fits {assignments : List (List String × Value)} {table : Value}
    (h : AssignedFit assignments) (hTable : inlineTable? assignments = some table) :
    table.Fits := by
  obtain ⟨made, hMade, rfl⟩ := Option.map_eq_some_iff.mp hTable
  refine .inlineTable (foldlM_fit (fun a ha entries changed hEntries hStep => ?_) Fit.nil hMade)
  obtain ⟨parts, _, hAssign⟩ := Option.bind_eq_some_iff.mp hStep
  exact assign_keepsFit (h a ha) _ _ hEntries hAssign

section Steps

variable {steps : Nat}

theorem value_succ_fits (hItems : ∀ depth cs, Yields AllFit (items steps depth cs))
    (hPairs : ∀ depth cs, Yields AssignedFit (pairs steps depth cs)) (depth : Nat) (cs : List Char) :
    Yields Value.Fits (value (steps + 1) depth cs) := by
  have hQuoted : Yields Value.Fits
      ((quoted cs).map fun found => (.string (String.ofList found.1), found.2)) :=
    Yields.map (P := fun _ => True) (fun _ _ => trivial) fun _ _ => .string _
  rw [value.eq_def]
  simp only
  split
  · exact hQuoted
  · exact hQuoted
  · split
    · exact .none
    · exact (hItems _ _).map fun _ h => .array h
  · split
    · exact .none
    · split
      · exact .some (.inlineTable Fit.nil) _
      · refine (hPairs _ _).bind fun found hFound r hr => ?_
        obtain ⟨table, hTable, rfl⟩ := Option.map_eq_some_iff.mp hr
        exact inlineTable?_fits hFound hTable
  · exact scalar_fits _

variable (hValue : ∀ depth cs, Yields Value.Fits (value steps depth cs))

include hValue

theorem items_succ_fits (hItems : ∀ depth cs, Yields AllFit (items steps depth cs)) (depth : Nat)
    (cs : List Char) : Yields AllFit (items (steps + 1) depth cs) := by
  rw [items.eq_def]
  simp only
  split
  · exact .some (fun _ h => nomatch h) _
  · refine (hValue _ _).bind fun item hItem => ?_
    split
    · exact (hItems _ _).map fun _ h => List.forall_mem_cons.mpr ⟨hItem, h⟩
    · exact .some (List.forall_mem_singleton.mpr hItem) _
    · exact .none

theorem pairs_succ_fits (hPairs : ∀ depth cs, Yields AssignedFit (pairs steps depth cs))
    (depth : Nat) (cs : List Char) : Yields AssignedFit (pairs (steps + 1) depth cs) := by
  rw [pairs]
  refine Yields.bind (P := fun _ => True) (fun _ _ => trivial) fun path _ r hr => ?_
  obtain ⟨rest, _, hr⟩ := Option.bind_eq_some_iff.mp hr
  refine (hValue _ _).bind (Q := AssignedFit) (fun found hFound => ?_) r hr
  have hLast : AssignedFit [(path.1, found.1)] := by
    intro a ha
    obtain rfl := List.mem_singleton.mp ha
    exact hFound
  split
  · exact (hPairs _ _).map fun _ h => List.forall_mem_cons.mpr ⟨hFound, h⟩
  · exact .some hLast _
  · exact .none

end Steps

/-- Reading comes to values that fit, whatever the steps and the depth. -/
theorem reads_fit (steps : Nat) :
    (∀ depth cs, Yields Value.Fits (value steps depth cs)) ∧
      (∀ depth cs, Yields AllFit (items steps depth cs)) ∧
      ∀ depth cs, Yields AssignedFit (pairs steps depth cs) := by
  -- The three readers call each other with one step less.
  induction steps with
  | zero =>
    refine ⟨fun depth cs => ?_, fun depth cs => ?_, fun depth cs => ?_⟩
    · rw [value]
      exact .none
    · rw [items]
      exact .none
    · rw [pairs]
      exact .none
  | succ steps ih =>
    obtain ⟨hValue, hItems, hPairs⟩ := ih
    exact ⟨value_succ_fits hItems hPairs, items_succ_fits hValue hItems,
      pairs_succ_fits hValue hPairs⟩

/-! ## Documents -/

def Statement.Fits : Statement → Prop
  | .assignment _ v => v.Fits
  | _ => True

theorem statement_fits (cs : List Char) : Yields Statement.Fits (statement cs) := by
  intro r h
  rw [statement.eq_def] at h
  split at h
  · cases h
    trivial
  · cases h
    trivial
  · cases h
    trivial
  · cases h
    trivial
  · obtain ⟨path, _, h⟩ := Option.bind_eq_some_iff.mp h
    obtain ⟨_, _, h⟩ := Option.bind_eq_some_iff.mp h
    obtain ⟨_, _, h⟩ := Option.bind_eq_some_iff.mp h
    cases h
    trivial
  · obtain ⟨path, _, h⟩ := Option.bind_eq_some_iff.mp h
    obtain ⟨_, _, h⟩ := Option.bind_eq_some_iff.mp h
    cases h
    trivial
  · obtain ⟨path, _, h⟩ := Option.bind_eq_some_iff.mp h
    obtain ⟨rest, _, h⟩ := Option.bind_eq_some_iff.mp h
    obtain ⟨found, hFound, h⟩ := Option.bind_eq_some_iff.mp h
    cases h
    exact (reads_fit _).1 _ _ found hFound

theorem add_fit {d added : Draft} {said : Statement} (h : d.entries.Fit) (hSaid : said.Fits)
    (hAdd : d.add said = some added) : added.entries.Fit := by
  cases said with
  | blank =>
    cases hAdd
    exact h
  | header path =>
    obtain ⟨parts, _, hAdd⟩ := Option.bind_eq_some_iff.mp hAdd
    obtain ⟨entries, hEntries, hAdd⟩ := Option.bind_eq_some_iff.mp hAdd
    cases hAdd
    exact changeAt_keepsFit (fun _ => openTable_keepsFit _) _ _ h hEntries
  | elementHeader path =>
    obtain ⟨parts, _, hAdd⟩ := Option.bind_eq_some_iff.mp hAdd
    obtain ⟨entries, hEntries, hAdd⟩ := Option.bind_eq_some_iff.mp hAdd
    cases hAdd
    exact changeAt_keepsFit (fun _ => openElement_keepsFit _) _ _ h hEntries
  | assignment path v =>
    obtain ⟨parts, _, hAdd⟩ := Option.bind_eq_some_iff.mp hAdd
    obtain ⟨entries, hEntries, hAdd⟩ := Option.bind_eq_some_iff.mp hAdd
    cases hAdd
    exact changeAt_keepsFit (fun _ => assign_keepsFit hSaid _ _) _ _ h hEntries

theorem readLines_fit {rounds line : Nat} {d made : Draft} {cs : List Char} (h : d.entries.Fit)
    (hRead : readLines rounds line d cs = .ok made) : made.entries.Fit := by
  fun_induction readLines rounds line d cs with
  | case1 => cases hRead
  | case2 =>
    cases hRead
    exact h
  | case3 => cases hRead
  | case4 rounds line d cs _ said rest hSaid after added hAdd hEnd ih =>
    exact ih (add_fit h (statement_fits _ _ hSaid) hAdd) hRead
  | case5 => cases hRead

/-- No integer in a document that was read is too large to be written. -/
theorem read_fit {text : String} {entries : Entries} (h : read text = .ok entries) :
    entries.Fit := by
  rw [read] at h
  cases hRead : readLines ((skipMark text.toList).length + 1) 1 .empty (skipMark text.toList) with
  | error cause =>
    simp only [hRead] at h
    cases h
  | ok d =>
    simp only [hRead] at h
    cases h
    exact readLines_fit Fit.nil hRead

end TranscodingEngines.Toml
