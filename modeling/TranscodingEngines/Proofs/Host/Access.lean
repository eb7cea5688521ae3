import TranscodingEngines.Proofs.Host.Fate

/-!
# What the access check tells

The check passes if the path leads to a regular file that the caller may execute. It finds nothing
if something is missing, and no permission if the path leads to something else or may not be
searched. A path that strays, since a name before its last one is no directory, since its links go
round or are more than the system follows or since nothing can have its text, leads to nothing at
all, but is taken for one without permission.
-/

set_option autoImplicit false

namespace TranscodingEngines

def TreeEntry.isExecutableBy (caller : Caller) : TreeEntry → Bool
  | file permissions _ => caller.mayExecute permissions
  | program permissions _ => caller.mayExecute permissions
  | _ => false

namespace Fate

/-- Nothing is there, but no name that was looked up in a directory is missing. -/
def isStray : Fate → Bool
  | blocked => true
  | tooLong => true
  | unwritable => true
  | lost => true
  | _ => false

/-- What becomes of an engine whose executable is at the path. -/
def access (caller : Caller) (engine : String) (path : FilePath) : Fate → Except Unavailability Unit
  | entry _ found =>
    if found.isExecutableBy caller then .ok () else .error (.noExecutePermission path engine)
  | missing => .error (.notFound path engine)
  | _ => .error (.noExecutePermission path engine)

end Fate

namespace Host

open FileTree

/-- The path leads to a regular file that the caller may execute. -/
def LeadsToExecutable (h : Host) (path : FilePath) : Prop :=
  ∃ at_ entry, h.Meets path (.entry at_ entry) ∧ entry.isExecutableBy h.caller = true

/-- The path leads to something else. -/
def LeadsElsewhere (h : Host) (path : FilePath) : Prop :=
  ∃ at_ entry, h.Meets path (.entry at_ entry) ∧ entry.isExecutableBy h.caller = false

def Strays (h : Host) (path : FilePath) : Prop := ∃ f, h.Meets path f ∧ f.isStray = true

/-- Nothing exists at the path. -/
def IsAbsent (h : Host) (path : FilePath) : Prop := h.Meets path .missing ∨ h.Strays path

variable {h : Host} {path : FilePath} {f : Fate}

theorem Meets.verifyAccess_eq (hMeets : h.Meets path f) (e : Engine) (r : Role) :
    (verifyAccess h.checkExecutable e r path).1 = f.access h.caller e.name path := by
  have hFind := hMeets.find_eq
  cases f with
  | entry at_ found =>
    rw [Fate.answer] at hFind
    cases found with
    | file permissions bytes | program permissions utility =>
      cases hMode : h.caller.mayExecute permissions <;>
        simp [verifyAccess, checkExecutable, hFind, hMode, Fate.access, TreeEntry.isExecutableBy,
          AccessFailure.reason]
    | directory | device | link =>
      simp [verifyAccess, checkExecutable, hFind, Fate.access, TreeEntry.isExecutableBy,
        AccessFailure.reason]
  | _ =>
    rw [Fate.answer] at hFind
    simp [verifyAccess, checkExecutable, hFind, Fate.access, AccessFailure.reason]

theorem Meets.iff_eq (hMeets : h.Meets path f) {g : Fate} : h.Meets path g ↔ g = f := by
  constructor
  · exact fun hg => hg.unique hMeets
  · rintro rfl
    exact hMeets

theorem Meets.strays_iff (hMeets : h.Meets path f) : h.Strays path ↔ f.isStray = true := by
  simp [Strays, hMeets.iff_eq]

theorem Meets.leadsToExecutable_iff {at_ : Location} {found : TreeEntry}
    (hMeets : h.Meets path (.entry at_ found)) :
    h.LeadsToExecutable path ↔ found.isExecutableBy h.caller = true := by
  constructor
  · rintro ⟨_, _, hOther, hMode⟩
    cases hOther.unique hMeets
    exact hMode
  · exact fun hMode => ⟨at_, found, hMeets, hMode⟩

theorem Meets.leadsElsewhere_iff {at_ : Location} {found : TreeEntry}
    (hMeets : h.Meets path (.entry at_ found)) :
    h.LeadsElsewhere path ↔ found.isExecutableBy h.caller = false := by
  constructor
  · rintro ⟨_, _, hOther, hMode⟩
    cases hOther.unique hMeets
    exact hMode
  · exact fun hMode => ⟨at_, found, hMeets, hMode⟩

/-- The check passes exactly if the path leads to a regular file that the caller may execute. Unless
the path strays, nothing is found exactly if nothing exists there, and permission is missing exactly
if the path leads to something else or may not be searched. If it strays, nothing exists there, and
yet it is permission that is said to be missing. -/
theorem verifyAccess_tells (h : Host) (e : Engine) (r : Role) (path : FilePath) :
    let answer := (verifyAccess h.checkExecutable e r path).1
    (answer = .ok () ↔ h.LeadsToExecutable path) ∧
    (¬ h.Strays path →
      (answer = .error (.notFound path e.name) ↔ h.IsAbsent path) ∧
      (answer = .error (.noExecutePermission path e.name) ↔
        h.LeadsElsewhere path ∨ h.Meets path .denied)) ∧
    (h.Strays path → answer = .error (.noExecutePermission path e.name) ∧ h.IsAbsent path ∧
      ¬ (h.LeadsElsewhere path ∨ h.Meets path .denied)) := by
  intro answer
  obtain ⟨f, hMeets⟩ := h.exists_meets path
  have hAnswer : answer = f.access h.caller e.name path := hMeets.verifyAccess_eq e r
  rw [hAnswer]
  cases f with
  | entry at_ found =>
    rw [hMeets.leadsToExecutable_iff, hMeets.leadsElsewhere_iff]
    simp only [IsAbsent, hMeets.strays_iff, hMeets.iff_eq]
    cases hMode : found.isExecutableBy h.caller <;> simp [Fate.access, Fate.isStray, hMode]
  | _ =>
    simp [LeadsToExecutable, LeadsElsewhere, IsAbsent, hMeets.strays_iff, hMeets.iff_eq,
      Fate.access, Fate.isStray]

/-! ## Tools, links and stray paths -/

/-- A machine with a tool that everyone may execute, notes that nobody may, and a link that leads to
itself. -/
def equipped : Host where
  files := ⟨[(["tool"], .file ⟨0, 0, 0o755⟩ []), (["notes"], .file ⟨0, 0, 0o644⟩ []),
    (["loop"], .link "loop")]⟩
  caller := ⟨1000, [1000]⟩
  directory := []
  home := none
  searchPath := []
  clock := ⟨2024, 5, 17, 9, 30, 0⟩
  started := ⟨0⟩
  journal := []

theorem equipped_root : equipped.files.Enterable equipped.caller [] rootPermissions :=
  ⟨rfl, by decide⟩

theorem meets_equipped {steps : List String} {path : FilePath} {f : Fate}
    (hPath : path.IsFollowable) (hSteps : stepsOf path.text = steps)
    (hEnds : equipped.files.Ends equipped.caller 0 [] steps f) : equipped.Meets path f := by
  have hStart : startOf path.text equipped.directory = [] := ite_self _
  refine .ends hPath (Nat.zero_le _) ?_
  rw [hStart, hSteps]
  exact hEnds

theorem meets_file {name : String} {permissions : Permissions} {bytes : List UInt8}
    (hPath : (⟨name⟩ : FilePath).IsFollowable) (hSteps : stepsOf name = [name])
    (hName : IsProper name) (hFile : equipped.files.get? [name] = some (.file permissions bytes)) :
    equipped.Meets ⟨name⟩ (.entry [name] (.file permissions bytes)) :=
  meets_equipped hPath hSteps (.down equipped_root hName hFile (fun _ h => nomatch h) (.done hFile))

theorem meets_tool : equipped.Meets ⟨"tool"⟩ (.entry ["tool"] (.file ⟨0, 0, 0o755⟩ [])) :=
  meets_file ⟨by decide, by decide +kernel, by decide⟩ (by decide +kernel)
    ⟨by decide, by decide, by decide +kernel⟩ rfl

theorem meets_notes : equipped.Meets ⟨"notes"⟩ (.entry ["notes"] (.file ⟨0, 0, 0o644⟩ [])) :=
  meets_file ⟨by decide, by decide +kernel, by decide⟩ (by decide +kernel)
    ⟨by decide, by decide, by decide +kernel⟩ rfl

theorem meets_gone : equipped.Meets ⟨"gone"⟩ .missing := by
  have hSteps : stepsOf "gone" = ["gone"] := by decide +kernel
  exact meets_equipped ⟨by decide, by decide +kernel, by decide⟩ hSteps
    (.missing equipped_root ⟨by decide, by decide, by decide +kernel⟩ rfl)

theorem meets_behind_tool : equipped.Meets ⟨"tool/x"⟩ .blocked := by
  have hSteps : stepsOf "tool/x" = ["tool", "x"] := by decide +kernel
  have hFile : equipped.files.get? ["tool"] = some (.file ⟨0, 0, 0o755⟩ []) := rfl
  exact meets_equipped ⟨by decide, by decide +kernel, by decide⟩ hSteps
    (.down equipped_root ⟨by decide, by decide, by decide +kernel⟩ hFile (fun _ h => nomatch h)
      (.blocked hFile fun _ h => nomatch h))

theorem meets_loop : equipped.Meets ⟨"loop"⟩ .lost := by
  have hSteps : stepsOf "loop" = ["loop"] := by decide +kernel
  refine .lost ⟨by decide, by decide +kernel, by decide⟩ fun n _ f => ?_
  rw [hSteps]
  exact not_ends_of_selfLink equipped_root ⟨by decide, by decide, by decide +kernel⟩ rfl (by decide)
    rfl hSteps

/-- The tool may be executed, what is gone is not found, the notes may not be executed, and neither
may the link, it is said, although it leads to nothing. -/
theorem verifyAccess_tells_equipped :
    let e := Engine.new ⟨"VLCVideo"⟩ "VLC Video" .vlc .videoFile
    let answer := fun path => (verifyAccess equipped.checkExecutable e .custom path).1
    (equipped.LeadsToExecutable ⟨"tool"⟩ ∧ answer ⟨"tool"⟩ = .ok ()) ∧
    (¬ equipped.Strays ⟨"gone"⟩ ∧ equipped.IsAbsent ⟨"gone"⟩ ∧
      answer ⟨"gone"⟩ = .error (.notFound ⟨"gone"⟩ "VLC Video")) ∧
    (¬ equipped.Strays ⟨"notes"⟩ ∧ equipped.LeadsElsewhere ⟨"notes"⟩ ∧
      answer ⟨"notes"⟩ = .error (.noExecutePermission ⟨"notes"⟩ "VLC Video")) ∧
    (equipped.Strays ⟨"loop"⟩ ∧ equipped.IsAbsent ⟨"loop"⟩ ∧
      answer ⟨"loop"⟩ = .error (.noExecutePermission ⟨"loop"⟩ "VLC Video")) := by
  intro e answer
  have hTells := verifyAccess_tells equipped e .custom
  have hTool : equipped.LeadsToExecutable ⟨"tool"⟩ := ⟨_, _, meets_tool, by decide⟩
  have hGone : ¬ equipped.Strays ⟨"gone"⟩ := by simp [meets_gone.strays_iff, Fate.isStray]
  have hAbsent : equipped.IsAbsent ⟨"gone"⟩ := .inl meets_gone
  have hNotes : ¬ equipped.Strays ⟨"notes"⟩ := by simp [meets_notes.strays_iff, Fate.isStray]
  have hElsewhere : equipped.LeadsElsewhere ⟨"notes"⟩ := ⟨_, _, meets_notes, by decide⟩
  have hLoop : equipped.Strays ⟨"loop"⟩ := ⟨_, meets_loop, rfl⟩
  obtain ⟨hDenied, hNothing, -⟩ := (hTells ⟨"loop"⟩).2.2 hLoop
  exact ⟨⟨hTool, (hTells ⟨"tool"⟩).1.mpr hTool⟩,
    ⟨hGone, hAbsent, ((hTells ⟨"gone"⟩).2.1 hGone).1.mpr hAbsent⟩,
    ⟨hNotes, hElsewhere, ((hTells ⟨"notes"⟩).2.1 hNotes).2.mpr (.inl hElsewhere)⟩,
    ⟨hLoop, hNothing, hDenied⟩⟩

/-- Nothing can exist behind a file, but it is not said that nothing was found there. -/
theorem verifyAccess_behind_tool :
    let e := Engine.new ⟨"VLCVideo"⟩ "VLC Video" .vlc .videoFile
    equipped.IsAbsent ⟨"tool/x"⟩ ∧ (verifyAccess equipped.checkExecutable e .custom ⟨"tool/x"⟩).1
      ≠ .error (.notFound ⟨"tool/x"⟩ "VLC Video") := by
  intro e
  refine ⟨.inr ⟨_, meets_behind_tool, rfl⟩, ?_⟩
  rw [meets_behind_tool.verifyAccess_eq e .custom]
  simp [Fate.access]

end Host

end TranscodingEngines
