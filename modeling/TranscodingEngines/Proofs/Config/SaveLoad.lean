import TranscodingEngines.Config.File
import TranscodingEngines.Proofs.Config.RoundTrip
import TranscodingEngines.Proofs.Host.ReadBack
import TranscodingEngines.Proofs.Toml.Integers

/-!
# Configurations saved and loaded

The time limit of a configuration that was read is one that can be written, and a configuration that
was saved to a file is the one that is loaded from it.
-/

set_option autoImplicit false

namespace TranscodingEngines.Config

open Toml (Value largestInteger)

/-! ## The time limit -/

theorem fields_fit {keys : List String} {value : Value} {values : List (Option Value)}
    (h : value.Fits) (hFields : fields keys value = some values) :
    ∀ found ∈ values, ∀ v, found = some v → v.Fits := by
  have hEntries : ∀ entries, tableEntries? value = some entries → entries.Fit := by
    rintro entries hTable
    cases h <;> cases hTable <;> assumption
  have hItems : ∀ items, arrayItems? value = some items → Toml.AllFit items := by
    rintro items hArray
    cases h <;> cases hArray <;> assumption
  rw [fields.eq_def] at hFields
  split at hFields
  · cases hFields
    rintro found hFound v rfl
    obtain ⟨_, _, hNone⟩ := List.mem_map.mp hFound
    cases hNone
  · split at hFields
    · rename_i entries hTable
      cases hFields
      rintro found hFound v rfl
      obtain ⟨key, _, hGet⟩ := List.mem_map.mp hFound
      exact (hEntries entries hTable).get? hGet
    · rename_i items _ hArray
      cases hFields
      rintro found hFound v rfl
      obtain ⟨i, _, hGet⟩ := List.mem_map.mp hFound
      exact hItems items hArray v (List.mem_of_getElem? hGet)
    · cases hFields

theorem count?_le {value : Value} {n : Nat} (h : value.Fits) (hCount : count? value = some n) :
    n ≤ largestInteger := by
  rw [count?.eq_def] at hCount
  split at hCount
  · split at hCount
    · cases hCount
      cases h with
      | integer h => exact Int.toNat_le.mpr h
    · cases hCount
  · cases hCount

/-- What a field comes to is within the limit if its default and every value that is read are. -/
theorem field_le {fallback n : Nat} {read : Value → Option Nat} {found : Option Value}
    (hFallback : fallback ≤ largestInteger)
    (hRead : ∀ v, v.Fits → ∀ m, read v = some m → m ≤ largestInteger)
    (h : ∀ v, found = some v → v.Fits) (hField : field fallback read found = some n) :
    n ≤ largestInteger := by
  cases found with
  | none =>
    cases hField
    exact hFallback
  | some v => exact hRead v (h v rfl) n hField

theorem defaultTimeoutSecs_le : defaultTimeoutSecs ≤ largestInteger := by decide

theorem timeout?_le {value : Value} {n : Nat} (h : value.Fits) (hTimeout : timeout? value = some n) :
    n ≤ largestInteger := by
  obtain ⟨values, hFields, hTimeout⟩ := Option.bind_eq_some_iff.mp hTimeout
  split at hTimeout
  · exact field_le defaultTimeoutSecs_le (fun v hv m => count?_le hv)
      (fields_fit h hFields _ List.mem_cons_self) hTimeout
  · cases hTimeout

theorem timeoutSecs_le_of_parse {text : String} {c : Config} (h : parse text = .ok c) :
    c.timeoutSecs ≤ largestInteger := by
  rw [parse] at h
  split at h
  · cases h
  · rename_i entries hRead
    split at h
    · rename_i made hEntries
      cases h
      obtain ⟨lists, _, hEntries⟩ := Option.bind_eq_some_iff.mp hEntries
      obtain ⟨tools, _, hEntries⟩ := Option.bind_eq_some_iff.mp hEntries
      obtain ⟨timeout, hTimeout, hMade⟩ := Option.bind_eq_some_iff.mp hEntries
      cases hMade
      exact field_le defaultTimeoutSecs_le (fun v hv m => timeout?_le hv)
        (fun v => (Toml.read_fit hRead).get?) hTimeout
    · cases h

/-! ## The file -/

variable {c : Config} {h : Host} {path : FilePath}

/-- The file holds what the configuration is written as. -/
theorem readText_save (hTakes : (makeRoom h path).2.TakesText path)
    (hSaved : (c.save h path).result = .ok ()) :
    (c.save h path).host.pathExists path = true ∧
      (c.save h path).host.readText path = .ok c.encode := by
  rw [save] at hSaved ⊢
  split at hSaved
  · cases hSaved
  · rename_i ready hRoom
    rw [hRoom] at hTakes
    split at hSaved
    · cases hSaved
    · rename_i written hWrite
      exact Host.readText_write hTakes hWrite

theorem load_of_readText (hTimeout : c.timeoutSecs ≤ largestInteger)
    (hExists : h.pathExists path = true) (hText : h.readText path = .ok c.encode) :
    load h path = ⟨.ok c, h, []⟩ := by
  have hRead : read h path = .ok c := by
    rw [read, hText]
    simp only [parse_encode hTimeout]
  rw [load, if_pos hExists, hRead]

/-- Saving and loading a configuration loses nothing. What a configuration is written as is read as
the same configuration, and a configuration that was saved to a file is the one that is loaded from
it, and nothing is changed or reported then. The time limit has to be one that can be written, as it
is for every configuration that was read. Once the directory of the file is there, the path has to
lead to nothing yet or to a file that the caller may read: a device would keep no text. -/
theorem load_save :
    (∀ text c, parse text = .ok c → c.timeoutSecs ≤ largestInteger) ∧
    ∀ c : Config, c.timeoutSecs ≤ largestInteger →
      parse c.encode = .ok c ∧
      ∀ h path, (makeRoom h path).2.TakesText path → (c.save h path).result = .ok () →
        let saved := (c.save h path).host
        saved.readText path = .ok c.encode ∧ load saved path = ⟨.ok c, saved, []⟩ := by
  refine ⟨fun text c hParse => timeoutSecs_le_of_parse hParse, fun c hTimeout =>
    ⟨parse_encode hTimeout, fun h path hTakes hSaved => ?_⟩⟩
  obtain ⟨hExists, hText⟩ := readText_save hTakes hSaved
  exact ⟨hText, load_of_readText hTimeout hExists hText⟩

/-- A configuration with no order of preference, no roles, and no path for one of the tools. -/
def sparse : Config :=
  { default with
    priority := []
    disabled := ["", "two\nlines", "\"quoted\" \\ '''", "\u0001\u007f\u00e9\u4e2d"]
    tools := { defaultTools with ffmpeg := ⟨none, none, none⟩ } }

def vacant : Host where
  files := .empty
  caller := ⟨0, [0]⟩
  directory := []
  home := none
  searchPath := []
  clock := ⟨2024, 5, 17, 9, 30, 0⟩
  started := ⟨0⟩
  journal := []

theorem follow_vacant (aim : Aim) :
    vacant.files.follow vacant.caller vacant.directory aim ⟨"c.toml"⟩
      = .ok (.free ["c.toml"] FileTree.rootPermissions) := by
  have hSteps : stepsOf "c.toml" = ["c.toml"] := by decide +kernel
  rw [FileTree.follow_eq_ok_iff, hSteps]
  refine ⟨⟨by decide +kernel, by decide +kernel, by decide +kernel⟩, ?_⟩
  exact .free ⟨rfl, by decide⟩ ⟨by decide, by decide, by decide +kernel⟩ rfl

/-- What is left out of a saved configuration stays left out, and no default takes its place. -/
theorem load_save_sparse :
    let saved := (sparse.save vacant ⟨"c.toml"⟩).host
    sparse.timeoutSecs ≤ largestInteger ∧ (makeRoom vacant ⟨"c.toml"⟩).2.TakesText ⟨"c.toml"⟩ ∧
    (sparse.save vacant ⟨"c.toml"⟩).result = .ok () ∧
    load saved ⟨"c.toml"⟩ = ⟨.ok sparse, saved, []⟩ := by
  intro saved
  have hTimeout : sparse.timeoutSecs ≤ largestInteger := by decide
  have hRoom : makeRoom vacant ⟨"c.toml"⟩ = (.ok (), vacant) := rfl
  have hTakes : vacant.TakesText ⟨"c.toml"⟩ := by
    left
    rw [Host.pathExists, Host.find, FileTree.find, follow_vacant]
    rfl
  have hSaved : (sparse.save vacant ⟨"c.toml"⟩).result = .ok () := by
    have hPlace : vacant.placeOf ⟨"c.toml"⟩ 0o644
        = .ok (some (["c.toml"], vacant.ownPermissions 0o644)) := by
      rw [Host.placeOf, if_neg (by decide +kernel), follow_vacant]
      rfl
    rw [save, hRoom]
    simp only [Host.write, hPlace]
    rfl
  have hRoomTakes : (makeRoom vacant ⟨"c.toml"⟩).2.TakesText ⟨"c.toml"⟩ := by
    rw [hRoom]
    exact hTakes
  exact ⟨hTimeout, hRoomTakes, hSaved,
    ((load_save.2 sparse hTimeout).2 vacant ⟨"c.toml"⟩ hRoomTakes hSaved).2⟩

end TranscodingEngines.Config
