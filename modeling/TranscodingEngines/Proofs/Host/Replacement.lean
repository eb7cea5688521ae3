import TranscodingEngines.Proofs.Host.Renaming
import TranscodingEngines.Proofs.Host.Siblings

/-!
# Files replaced

A file is replaced by renaming what its path names to a sibling, making directories where they are
missing, and writing the path. The new file stands then where the old one had its name, the sibling
has what was renamed, and nothing else is lost that can be reached. Also a path that ends in a link
is replaced in this way: the link is what is renamed, and it still leads to the old file, unless the
new name was taken by that file itself or by a link.
-/

set_option autoImplicit false

namespace TranscodingEngines.Host

open FileTree

variable {h : Host} {path : FilePath} {at_ : Location}

theorem startOf_congr {p q : FilePath} (h : p.isAbsolute = q.isAbsolute) (here : Location) :
    startOf p.text here = startOf q.text here := by
  rw [FilePath.isAbsolute, FilePath.isAbsolute] at h
  rw [startOf, startOf, h]

/-! ## The way to a name -/

/-- The way to a name: the steps to its directory, with dots behind them, the name, the links that
may still be followed there, and the directory. -/
structure Way where
  steps : List String
  dots : List String
  last : String
  left : Nat
  above : Location

def Way.place (w : Way) : Location := w.above ++ [w.last]

def Way.beside (w : Way) (name : String) : Location := w.above ++ [name]

theorem Way.place_ne_nil (w : Way) : w.place ≠ [] :=
  List.append_ne_nil_of_right_ne_nil _ (List.cons_ne_nil _ _)

theorem Way.beside_ne_nil (w : Way) (name : String) : w.beside name ≠ [] :=
  List.append_ne_nil_of_right_ne_nil _ (List.cons_ne_nil _ _)

theorem not_prefix_of_ne {above : Location} {name other : String} (h : name ≠ other) :
    ¬ above ++ [name] <+: above ++ [other] := by
  intro hPrefix
  have hSame := hPrefix.eq_of_length (by simp)
  exact h (List.singleton_inj.mp (List.append_cancel_left hSame))

theorem Way.place_ne_beside (w : Way) {name : String} (h : w.last ≠ name) :
    w.place ≠ w.beside name := by
  intro hSame
  exact h (List.singleton_inj.mp (List.append_cancel_left hSame))

/-- The way leads to the name that a path ends in. -/
structure Way.Leads (w : Way) (h : Host) (path : FilePath) : Prop where
  followable : path.IsFollowable
  slash : path.endsInSlash = false
  ends : path.EndsIn w.steps w.dots w.last
  passes : h.files.Passes h.caller mostLinks (startOf path.text h.directory) w.steps w.left w.above
  dotted : h.files.Passes h.caller mostLinks (startOf path.text h.directory) (w.steps ++ w.dots)
    w.left w.above
  enterable : ∃ permissions, h.files.Enterable h.caller w.above permissions
  proper : IsProper w.last

theorem followName_eq_ok_iff (hSlash : path.endsInSlash = false) {d : Destination} :
    h.followName path = .ok d ↔ path.IsFollowable ∧
      h.files.Arrives h.caller .name mostLinks (startOf path.text h.directory) (stepsOf path.text)
        d := by
  rw [followName, FilePath.withoutSlashes_eq hSlash, follow_eq_ok_iff]

theorem exists_leads (hSlash : path.endsInSlash = false) (hDots : endsInDots path = false)
    {d : Destination} (hFollow : h.followName path = .ok d) :
    ∃ w : Way, w.Leads h path ∧ d.location = w.place := by
  obtain ⟨steps, dots, last, hEnds⟩ := FilePath.exists_endsIn hSlash hDots
  obtain ⟨hFollowable, hArrives⟩ := (followName_eq_ok_iff hSlash).mp hFollow
  rw [hEnds.stepsOf_eq] at hArrives
  obtain ⟨left, above, hDotted, hLast⟩ := hArrives.split (List.cons_ne_nil _ _)
  obtain ⟨left', above', hPasses, hOnlyDots⟩ := hDotted.split
  obtain ⟨rfl, rfl⟩ := hOnlyDots.dots hEnds.idle
  obtain ⟨hProper, hLocation, hEnterable⟩ := hLast.of_name hEnds.isName.ne_dot hEnds.isName.ne_up
  exact ⟨⟨steps, dots, last, _, _⟩,
    ⟨hFollowable, hSlash, hEnds, hPasses, hDotted, hEnterable, hProper⟩, hLocation⟩

/-- How a path leads on from its name: it stays there, or it follows the link that has the name. -/
inductive Way.Found (w : Way) (h : Host) : Location → Prop where
  | named {entry : TreeEntry} (hEntry : h.files.get? w.place = some entry)
      (hOther : ∀ target, entry ≠ .link target) : Found w h w.place
  | linked {target : String} {links left : Nat} {at_ : Location}
      (hLink : h.files.get? w.place = some (.link target)) (hTarget : target.isEmpty = false)
      (hLinks : w.left = links + 1)
      (hLead : h.files.Passes h.caller links (startOf target w.above) (stepsOf target) left at_) :
      Found w h at_

namespace Way.Leads

variable {w : Way} (hLeads : w.Leads h path)

include hLeads

theorem found {entry : TreeEntry} (hFound : h.find path = .ok (at_, entry)) :
    h.files.get? at_ = some entry ∧ w.Found h at_ := by
  obtain ⟨-, hArrives⟩ := follow_eq_ok_iff.mp (find_eq_ok_iff.mp hFound)
  rw [hLeads.ends.stepsOf_eq] at hArrives
  obtain ⟨hEntry, left, hPasses⟩ := arrives_entry_iff.mp hArrives
  obtain ⟨left', above, hDotted, hLast⟩ := hPasses.split
  obtain ⟨hLeft, rfl⟩ := hDotted.unique hLeads.dotted
  refine ⟨hEntry, ?_⟩
  rcases hLast.first with ⟨hDot, _⟩ | ⟨hUp, _⟩ |
    ⟨_, ⟨target, links, hLink, hLinks, hTarget, hLead⟩ | hStays⟩
  · exact absurd hDot hLeads.ends.isName.ne_dot
  · exact absurd hUp hLeads.ends.isName.ne_up
  · rw [List.append_nil] at hLead
    exact .linked hLink hTarget (hLeft.symm.trans hLinks) hLead
  · obtain ⟨other, hOther, hNoLink, hRest⟩ := hStays
    cases hRest
    exact .named hOther hNoLink

theorem location {d : Destination} (hFollow : h.followName path = .ok d) :
    d.location = w.place := by
  obtain ⟨-, hArrives⟩ := (followName_eq_ok_iff hLeads.slash).mp hFollow
  rw [hLeads.ends.stepsOf_eq] at hArrives
  obtain ⟨left, above, hPasses, hLast⟩ := hArrives.split (List.cons_ne_nil _ _)
  obtain ⟨-, rfl⟩ := hPasses.unique hLeads.dotted
  exact (hLast.of_name hLeads.ends.isName.ne_dot hLeads.ends.isName.ne_up).2.1

theorem location_sibling {name : String} (hName : (⟨name⟩ : FilePath).IsName) {d : Destination}
    (hFollow : h.followName (path.withFileName name) = .ok d) :
    (path.withFileName name).IsFollowable ∧ IsProper name ∧ d.location = w.beside name := by
  obtain ⟨hSteps, hRoot, hSlash⟩ := hLeads.ends.sibling name hName
  obtain ⟨hFollowable, hArrives⟩ := (followName_eq_ok_iff hSlash).mp hFollow
  rw [hSteps, startOf_congr hRoot] at hArrives
  obtain ⟨left, above, hPasses, hLast⟩ := hArrives.split (List.cons_ne_nil _ _)
  obtain ⟨-, rfl⟩ := hPasses.unique hLeads.passes
  obtain ⟨hProper, hLocation, -⟩ := hLast.of_name hName.ne_dot hName.ne_up
  exact ⟨hFollowable, hProper, hLocation⟩

end Way.Leads

/-- Neither a directory nor a link is at the location. -/
structure IsPlain (t : FileTree) (at_ : Location) : Prop where
  directory : ∀ permissions, t.get? at_ ≠ some (.directory permissions)
  link : ∀ target, t.get? at_ ≠ some (.link target)

theorem isPlain_of_file {t : FileTree} {permissions : Permissions} {bytes : List UInt8}
    (hFile : t.get? at_ = some (.file permissions bytes)) : IsPlain t at_ := by
  refine ⟨fun _ hDirectory => ?_, fun _ hLink => ?_⟩
  · cases hFile.symm.trans hDirectory
  · cases hFile.symm.trans hLink

theorem lost_link {w : Way} {lost : Location → Prop}
    (hLost : ∀ gone, lost gone → gone = w.place ∨ IsPlain h.files gone) {target : String}
    (hLink : h.files.get? w.place = some (.link target)) (gone : Location) (hGone : lost gone)
    (other : String) (hOther : h.files.get? gone = some (.link other)) :
    gone = w.above ++ [w.last] ∧ other = target := by
  rcases hLost gone hGone with rfl | hPlain
  · cases hLink.symm.trans hOther
    exact ⟨rfl, rfl⟩
  · exact absurd hOther (hPlain.link other)

section Kept

variable {w : Way} {permissions : Permissions} {bytes : List UInt8} (hFound : w.Found h at_)
  (hFile : h.files.get? at_ = some (.file permissions bytes))

include hFound hFile

theorem Way.Found.directory :
    ∀ permissions, h.files.get? w.place ≠ some (.directory permissions) := by
  intro other hDirectory
  cases hFound with
  | named => cases hFile.symm.trans hDirectory
  | linked hLink => cases hLink.symm.trans hDirectory

variable {t' : FileTree} {lost : Location → Prop} (hKeeps : h.files.Keeps t' lost)
  (hReach : h.files.Reachable h.directory)
  (hLost : ∀ gone, lost gone → gone = w.place ∨ IsPlain h.files gone)

include hLost

theorem Way.Found.lost_directory (gone : Location) (hGone : lost gone) :
    ∀ permissions, h.files.get? gone ≠ some (.directory permissions) := by
  rcases hLost gone hGone with rfl | hPlain
  · exact hFound.directory hFile
  · exact hPlain.directory

include hKeeps hReach

/-- The way to the name of a file is kept where nothing is lost but the name and what is neither a
directory nor a link. -/
theorem Way.Found.passes (hLeads : w.Leads h path) {steps : List String} {left : Nat}
    (hPasses : h.files.Passes h.caller mostLinks (startOf path.text h.directory) steps left
      w.above) :
    t'.Passes h.caller mostLinks (startOf path.text h.directory) steps left w.above := by
  obtain ⟨directory, hAbove, -⟩ := hLeads.enterable
  have hDirectory := hFound.lost_directory hFile hLost
  have hStart := hReach.startOf path.text
  cases hFound with
  | named hEntry hOther =>
    refine hKeeps.passes hDirectory hPasses hStart (fun hGone => hDirectory _ hGone _ hAbove) ?_
    intro gone hGone target hLink
    rcases hLost gone hGone with rfl | hPlain
    · cases hEntry.symm.trans hLink
      exact hOther _ rfl
    · exact hPlain.link target hLink
  | @linked target links fewest _ hLink _ _ hLead =>
    -- A passage through the link at the name would end at the file, not in a directory.
    refine hKeeps.passes_directory hDirectory (lost_link hLost hLink) hLead hPasses hStart hAbove ?_
    simp [hFile]

end Kept

/-- A path leads to the same entry where nothing on its way is lost. -/
theorem find_of_keeps {h' : Host} {lost : Location → Prop} (hKeeps : h.files.Keeps h'.files lost)
    (hLost : ∀ gone, lost gone → IsPlain h.files gone) (hCaller : h'.caller = h.caller)
    (hDirectory : h'.directory = h.directory) (hReach : h.files.Reachable h.directory)
    {entry : TreeEntry} (hFound : h.find path = .ok (at_, entry)) (hStays : ¬ lost at_) :
    h'.find path = .ok (at_, entry) := by
  obtain ⟨hFollowable, hArrives⟩ := follow_eq_ok_iff.mp (find_eq_ok_iff.mp hFound)
  obtain ⟨hEntry, left, hPasses⟩ := arrives_entry_iff.mp hArrives
  have hStart := hReach.startOf path.text
  rw [find_eq_ok_iff, follow_eq_ok_iff, hCaller, hDirectory, arrives_entry_iff]
  exact ⟨hFollowable, hKeeps _ _ (hPasses.reachable hStart) hStays hEntry, left,
    hKeeps.passes (fun gone hGone => (hLost gone hGone).directory) hPasses hStart hStays
      fun gone hGone => (hLost gone hGone).link⟩

/-! ## A name given to a sibling -/

/-- The name of a file was given up for another one in its directory, which is not taken by a
directory or a link. -/
structure Aside (h : Host) (path : FilePath) (name : String) (moved : Host) (w : Way) : Prop where
  leads : w.Leads h path
  isName : (⟨name⟩ : FilePath).IsName
  followable : (path.withFileName name).IsFollowable
  proper : IsProper name
  other : w.last ≠ name
  plain : IsPlain h.files (w.beside name)
  files : moved.files = h.files.move w.place (w.beside name)
  caller : moved.caller = h.caller
  directory : moved.directory = h.directory

theorem directory_of_mayReplace {entry taken : TreeEntry}
    (hEntry : ∀ permissions, entry ≠ .directory permissions)
    (hReplace : h.mayReplace entry at_ taken = .ok ()) (permissions : Permissions) :
    taken ≠ .directory permissions := by
  rintro rfl
  cases entry with
  | directory other => exact absurd rfl (hEntry other)
  | _ => cases hReplace

theorem isPlain_of_renamed {target : FilePath} {moved : Host} {place : Location} {entry : TreeEntry}
    {aim : Destination} (hRenamed : h.Renamed path target moved place entry aim)
    (hEntry : ∀ permissions, entry ≠ .directory permissions) (hApart : place ≠ aim.location)
    (hLink : ∀ aside text, h.followName target ≠ .ok (.entry aside (.link text))) :
    IsPlain h.files aim.location := by
  have hTaken : h.files.get? aim.location = aim.entry? := get?_of_follow hRenamed.aimed
  constructor
  · intro permissions hDirectory
    have hReplace := hRenamed.mayReplace _ (hTaken.symm.trans hDirectory) hApart
    exact directory_of_mayReplace hEntry hReplace permissions rfl
  · intro text hText
    rw [hTaken] at hText
    cases aim with
    | free => cases hText
    | entry aside taken =>
      cases hText
      exact hLink _ _ hRenamed.aimed

theorem exists_aside {name : String} {moved : Host} {permissions : Permissions} {bytes : List UInt8}
    (hSlash : path.endsInSlash = false) (hName : (⟨name⟩ : FilePath).IsName)
    (hOther : path.fileName ≠ some name)
    (hFound : h.find path = .ok (at_, .file permissions bytes))
    (hRename : h.rename path (path.withFileName name) = .ok moved)
    (hLink : ∀ aside target,
      h.followName (path.withFileName name) ≠ .ok (.entry aside (.link target))) :
    ∃ w, Aside h path name moved w := by
  obtain ⟨place, entry, aim, hRenamed⟩ := renamed_of_rename hRename
  obtain ⟨w, hLeads, hPlace⟩ := exists_leads hSlash hRenamed.sourceDots hRenamed.found
  obtain rfl : place = w.place := hPlace
  obtain ⟨hFollowable, hProper, hAside⟩ := hLeads.location_sibling hName hRenamed.aimed
  have hNe : w.last ≠ name := by
    rintro rfl
    exact hOther hLeads.ends.fileName_eq
  have hApart : w.place ≠ aim.location := by
    rw [hAside]
    exact w.place_ne_beside hNe
  obtain ⟨hFile, hWay⟩ := hLeads.found hFound
  have hEntry : ∀ permissions, entry ≠ .directory permissions := by
    rintro other rfl
    exact hWay.directory hFile other (get?_of_follow hRenamed.found)
  have hPlain := isPlain_of_renamed hRenamed hEntry hApart hLink
  rw [hAside] at hPlain
  obtain ⟨hSame, -⟩ | hFiles := hRenamed.files
  · exact absurd hSame hApart
  · rw [hAside] at hFiles
    subst hFiles
    exact ⟨w, hLeads, hName, hFollowable, hProper, hNe, hPlain, rfl, rfl, rfl⟩

/-- What is lost when a name is given up for another one. -/
def Lost (w : Way) (name : String) (gone : Location) : Prop := gone = w.place ∨ gone = w.beside name

theorem Aside.lost {name : String} {moved : Host} {w : Way} (hAside : Aside h path name moved w)
    (gone : Location) (hGone : Lost w name gone) : gone = w.place ∨ IsPlain h.files gone := by
  rcases hGone with hPlace | rfl
  · exact .inl hPlace
  · exact .inr hAside.plain

/-- The second host has the entry of the name under the other one, and nothing else is lost. -/
structure Later (h : Host) (w : Way) (name : String) (later : Host) : Prop where
  keeps : h.files.Keeps later.files (Lost w name)
  beside : ∀ entry, h.files.get? w.place = some entry →
    later.files.get? (w.beside name) = some entry
  caller : later.caller = h.caller
  directory : later.directory = h.directory

section Later

variable {name : String} {moved later : Host} {w : Way} {permissions : Permissions}
  {bytes : List UInt8} (hAside : Aside h path name moved w) (hFound : w.Found h at_)
  (hFile : h.files.get? at_ = some (.file permissions bytes))
  (hReach : h.files.Reachable h.directory) (hLater : Later h w name later)

include hAside hFound hFile hReach hLater

theorem Later.enterable :
    ∃ permissions, later.files.Enterable later.caller w.above permissions := by
  obtain ⟨parent, hAbove⟩ := hAside.leads.enterable
  have hDirectory := hFound.lost_directory hFile hAside.lost
  rw [hLater.caller]
  exact ⟨parent, hLater.keeps.enterable hDirectory
    (hAside.leads.passes.reachable (hReach.startOf _)) hAbove⟩

/-- A way to the directory of the name leads there still. -/
theorem Later.follow {steps : List String} {left : Nat} {last : String} {d : Destination}
    {aim : Aim} {p : FilePath} (hFollowable : p.IsFollowable)
    (hRoot : p.isAbsolute = path.isAbsolute) (hSteps : stepsOf p.text = steps ++ [last])
    (hPasses : h.files.Passes h.caller mostLinks (startOf path.text h.directory) steps left w.above)
    (hLast : later.files.Arrives later.caller aim left w.above [last] d) :
    later.files.follow later.caller later.directory aim p = .ok d := by
  have hKept := hFound.passes hFile hLater.keeps hReach hAside.lost hAside.leads hPasses
  rw [follow_eq_ok_iff, hSteps, startOf_congr hRoot, hLater.directory]
  rw [hLater.caller] at hLast ⊢
  exact ⟨hFollowable, hKept.arrives (List.cons_ne_nil _ _) hLast⟩

/-- The sibling leads to the file that the path led to, unless the sibling had the name of that
file. -/
theorem Later.find_beside (hAt : at_ ≠ w.beside name) : ∃ place, place ≠ w.place ∧
      later.find (path.withFileName name) = .ok (place, .file permissions bytes) := by
  obtain ⟨hSteps, hRoot, hSlash⟩ := hAside.leads.ends.sibling name hAside.isName
  obtain ⟨parent, hAbove⟩ := hLater.enterable hAside hFound hFile hReach
  have hFind : ∀ {place}, later.files.Arrives later.caller .entry w.left w.above [name]
      (.entry place (.file permissions bytes)) →
      later.find (path.withFileName name) = .ok (place, .file permissions bytes) := by
    intro place hLast
    exact find_eq_ok_iff.mpr (hLater.follow hAside hFound hFile hReach hAside.followable hRoot
      hSteps hAside.leads.passes hLast)
  have hReachAbove := hAside.leads.passes.reachable (hReach.startOf path.text)
  have hDirectory := hFound.lost_directory hFile hAside.lost
  cases hFound with
  | named hEntry hOther =>
    have hBeside := hLater.beside _ hFile
    refine ⟨w.beside name, (w.place_ne_beside hAside.other).symm, hFind ?_⟩
    exact .down hAbove hAside.proper hBeside (fun _ h => by cases h) (.done hBeside)
  | @linked target links fewest _ hLink hTarget hLinks hLead =>
    -- The link itself has the other name now, and leads on from the same directory.
    have hPlace : at_ ≠ w.place := by
      rintro rfl
      cases hLink.symm.trans hFile
    have hStays : ¬ Lost w name at_ := by
      rintro (hGone | hGone)
      · exact hPlace hGone
      · exact hAt hGone
    have hReachLink := hReachAbove.startOf target
    have hKept : later.files.get? at_ = some (.file permissions bytes) :=
      hLater.keeps _ _ (hLead.reachable hReachLink) hStays hFile
    have hKeptLead := hLater.keeps.passes_lead hDirectory
      (lost_link hAside.lost hLink) hLead hReachLink hStays
    have hEnd : later.files.Arrives later.caller .entry links (startOf target w.above)
        (stepsOf target ++ []) (.entry at_ (.file permissions bytes)) := by
      rw [List.append_nil, hLater.caller, arrives_entry_iff]
      exact ⟨hKept, _, hKeptLead⟩
    refine ⟨at_, hPlace, hFind ?_⟩
    rw [hLinks]
    exact .link hAbove hAside.proper (hLater.beside _ hLink) ⟨rfl, hTarget, rfl⟩ hEnd

end Later

/-! ## The name given to a new file -/

/-- The path was given a new file, after its name had been given up for another one. -/
structure Replaced (h : Host) (path : FilePath) (name : String) (bytes : List UInt8) (w : Way)
    (written : Host) : Prop where
  later : Later h w name written
  found : written.find path = .ok (w.place, .file (h.ownPermissions 0o644) bytes)
  named : written.followName path = .ok (.entry w.place (.file (h.ownPermissions 0o644) bytes))

section Replaced

variable {name : String} {moved ready written : Host} {w : Way} {permissions : Permissions}
  {bytes : List UInt8} (hAside : Aside h path name moved w) (hReady : moved.Extends ready)

include hAside hReady

/-- The name is free then, or a directory was made that has it. -/
theorem Aside.get?_place : ready.files.get? w.place = none ∨
    ∃ permissions, ready.files.get? w.place = some (.directory permissions) := by
  cases hEntry : ready.files.get? w.place with
  | none => exact .inl rfl
  | some entry =>
    rcases hReady.made _ _ hEntry with hMoved | ⟨other, rfl⟩
    · have hApart : ¬ w.beside name <+: w.place := not_prefix_of_ne hAside.other.symm
      rw [hAside.files, get?_move_source w.place_ne_nil hApart] at hMoved
      cases hMoved
    · exact .inr ⟨other, rfl⟩

variable (hFound : w.Found h at_) (hFile : h.files.get? at_ = some (.file permissions bytes))

include hFound hFile

theorem Aside.later : Later h w name ready where
  keeps other entry hReach hStays hEntry := by
    refine hReady.kept other entry ?_
    rw [hAside.files]
    exact keeps_move (hFound.directory hFile) hAside.plain.directory other entry hReach hStays
      hEntry
  beside entry hEntry := by
    refine hReady.kept _ _ ?_
    rw [hAside.files, get?_move_target w.place_ne_nil (w.beside_ne_nil name)
      (not_prefix_of_ne hAside.other)]
    exact hEntry
  caller := hReady.caller.trans hAside.caller
  directory := hReady.directory.trans hAside.directory

variable (hReach : h.files.Reachable h.directory) {new : List UInt8}
  (hWrite : ready.write path new = .ok written)

include hReach hWrite

/-- What is written to the path then is a new file, which has the name. -/
theorem Aside.written_eq : written = ready.changed
    (ready.files.put w.place (.file (h.ownPermissions 0o644) new)) (.write path new) := by
  have hLater := hAside.later hReady hFound hFile
  have hLeads := hAside.leads
  obtain ⟨parent, hAbove⟩ := hLater.enterable hAside hFound hFile hReach
  have hFollow : ∀ {d}, ready.files.Arrives ready.caller .entry w.left w.above [w.last] d →
      ready.files.follow ready.caller ready.directory .entry path = .ok d :=
    hLater.follow hAside hFound hFile hReach hLeads.followable rfl hLeads.ends.stepsOf_eq
      hLeads.dotted
  obtain ⟨-, place, hPlaceOf, hWritten⟩ := place_of_write hWrite
  have hOwn : ready.ownPermissions 0o644 = h.ownPermissions 0o644 := by
    rw [ownPermissions, hLater.caller, ownPermissions]
  -- A directory that was made in the place of the name would not have been written.
  rcases hAside.get?_place hReady with hFree | ⟨other, hDirectory⟩
  · have hEnd := hFollow (.free hAbove hLeads.proper hFree)
    have hPlace : place = some (w.place, h.ownPermissions 0o644) := by
      cases place_of_placeOf hPlaceOf with
      | file hOld => cases (find_eq_ok_iff.mp hOld).symm.trans hEnd
      | free hOld =>
        cases hOld.symm.trans hEnd
        rw [hOwn]
        rfl
      | other hOld => cases (find_eq_ok_iff.mp hOld).symm.trans hEnd
    rw [hPlace] at hWritten
    exact hWritten
  · have hEnd := hFollow (.down hAbove hLeads.proper hDirectory (fun _ h => by cases h)
      (.done hDirectory))
    exact absurd (find_eq_ok_iff.mpr hEnd) (not_directory_of_placeOf hPlaceOf)

theorem Aside.replaced : Replaced h path name new w written := by
  have hReadyLater := hAside.later hReady hFound hFile
  have hWritten := hAside.written_eq hReady hFound hFile hReach hWrite
  have hNew : written.files.get? w.place = some (.file (h.ownPermissions 0o644) new) := by
    rw [hWritten]
    exact get?_put_self _ w.place_ne_nil _
  have hOther : ∀ other, other ≠ w.place → written.files.get? other = ready.files.get? other := by
    intro other hNe
    rw [hWritten]
    exact get?_put_of_ne _ hNe _
  have hLater : Later h w name written := by
    refine ⟨?_, ?_, ?_, ?_⟩
    · intro other entry hReachOther hStays hEntry
      rw [hOther other (fun hPlace => hStays (.inl hPlace))]
      exact hReadyLater.keeps other entry hReachOther hStays hEntry
    · intro entry hEntry
      rw [hOther _ (w.place_ne_beside hAside.other).symm]
      exact hReadyLater.beside entry hEntry
    · rw [hWritten]
      exact hReadyLater.caller
    · rw [hWritten]
      exact hReadyLater.directory
  obtain ⟨parent, hAbove⟩ := hLater.enterable hAside hFound hFile hReach
  have hFollow : ∀ aim, written.files.follow written.caller written.directory aim path
      = .ok (.entry w.place (.file (h.ownPermissions 0o644) new)) := by
    intro aim
    refine hLater.follow hAside hFound hFile hReach hAside.leads.followable rfl
      hAside.leads.ends.stepsOf_eq hAside.leads.dotted ?_
    exact .down hAbove hAside.leads.proper hNew (fun _ h => by cases h) (.done hNew)
  refine ⟨hLater, find_eq_ok_iff.mpr (hFollow .entry), ?_⟩
  rw [followName, FilePath.withoutSlashes_eq hAside.leads.slash]
  exact hFollow .name

end Replaced

end TranscodingEngines.Host
