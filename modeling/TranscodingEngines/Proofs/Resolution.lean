import TranscodingEngines.Host.Program
import TranscodingEngines.Proofs.FilePath
import TranscodingEngines.Proofs.Verification.Examination

/-!
# Bare names and checked paths

A completed path that is not a name with a slash and idle pieces behind it resolves to a bare name
only if it holds no slash: it is then loaded from the search path, and it shares records of probes
with no other name. With a slash it resolves to an absolute path, which is probed only after the
access check. The excepted spellings resolve to a bare executable that holds a slash: it is probed
without any check, and loaded from where the path leads and not from the search path.
-/

set_option autoImplicit false

namespace TranscodingEngines

/-! ## Loading -/

namespace Host

variable {h : Host} {args : List String} {image : Image}

theorem exists_of_loadFirst {denied : Bool} {paths : List FilePath}
    (hLoad : h.loadFirst args denied paths = .ok image) :
    ∃ place ∈ paths, h.loadAt place args = .ok image := by
  induction paths generalizing denied with
  | nil => cases hLoad
  | cons path rest ih =>
    rw [loadFirst] at hLoad
    have hRest : ∀ {denied}, h.loadFirst args denied rest = .ok image →
        ∃ place ∈ path :: rest, h.loadAt place args = .ok image := by
      intro denied hLoad
      obtain ⟨place, hPlace, hAt⟩ := ih hLoad
      exact ⟨place, List.mem_cons_of_mem _ hPlace, hAt⟩
    split at hLoad
    · exact hRest hLoad
    · exact hRest hLoad
    · exact hRest hLoad
    · exact ⟨path, List.mem_cons_self, hLoad⟩

/-- A program that goes by a name without a slash comes from the search path. -/
theorem exists_of_load {program : String} (hSlash : '/' ∉ program.toList)
    (hLoad : h.load program args = .ok image) :
    ∃ place ∈ h.candidates program, ∃ loaded, h.loadAt place args = .ok loaded ∧
      image.utility = loaded.utility ∧ image.args = loaded.args := by
  rw [load] at hLoad
  split at hLoad
  · cases hLoad
  split at hLoad
  · cases hLoad
  rw [if_neg (by simpa using hSlash)] at hLoad
  split at hLoad
  · cases hLoad
  cases hFirst : h.loadFirst args false (h.candidates program) with
  | error cause =>
    rw [hFirst] at hLoad
    cases hLoad
  | ok loaded =>
    rw [hFirst] at hLoad
    cases hLoad
    obtain ⟨place, hPlace, hAt⟩ := exists_of_loadFirst hFirst
    refine ⟨place, hPlace, loaded, hAt, ?_⟩
    simp only
    split <;> exact ⟨rfl, rfl⟩

theorem loadAt_of_load {program : String} (hSlash : '/' ∈ program.toList)
    (hLoad : h.load program args = .ok image) : h.loadAt ⟨program⟩ args = .ok image := by
  rw [load] at hLoad
  split at hLoad
  · cases hLoad
  split at hLoad
  · cases hLoad
  rwa [if_pos (by simpa using hSlash)] at hLoad

end Host

/-! ## Resolving -/

namespace FilePath

variable {p : FilePath} {workingDirectory : Except SystemError FilePath}

theorem eq_of_locate_bare {q : FilePath} (h : p.locate workingDirectory = .ok (.bare q)) :
    q = p ∧ p.isBare = true := by
  rw [locate] at h
  split at h
  · rename_i hBare
    cases h
    exact ⟨rfl, hBare⟩
  split at h
  · cases h
  · cases workingDirectory <;> cases h

theorem isAbsolute_of_locate {q : FilePath}
    (hBase : ∀ base, workingDirectory = .ok base → base.isAbsolute = true)
    (h : p.locate workingDirectory = .ok (.absolute q)) : q.isAbsolute = true := by
  rw [locate] at h
  split at h
  · cases h
  split at h
  · rename_i hRoot
    cases h
    exact isAbsolute_absolute fun _ => hRoot
  · cases workingDirectory with
    | error cause => cases h
    | ok base =>
      cases h
      exact isAbsolute_absolute fun _ => hBase base rfl

theorem exists_locate_absolute (hBare : p.isBare = false)
    (hBase : p.isAbsolute = true ∨ ∃ base, workingDirectory = .ok base) :
    ∃ q, p.locate workingDirectory = .ok (.absolute q) := by
  rw [locate, if_neg (ne_true_of_eq_false hBare)]
  split
  · exact ⟨_, rfl⟩
  · rename_i hRoot
    obtain ⟨base, rfl⟩ := hBase.resolve_left hRoot
    exact ⟨_, rfl⟩

end FilePath

namespace Environment

/-- What the path of a role resolves to. -/
def resolved (env : Environment) (e : Engine) (r : Role) : Except Unavailability Executable :=
  (e.resolve r env.platform env.workingDirectory).1

/-- The engine can be had on the platform as far as AviSynth goes. -/
def suits (env : Environment) (e : Engine) : Bool := !e.requiresAvisynth || env.platform.isWindows

variable {env : Environment} {e : Engine} {r : Role} {configured : FilePath}

theorem locate_of_resolved {x : Executable} (hPath : e.usablePath r = some configured)
    (h : env.resolved e r = .ok x) :
    (configured.completed env.platform).locate env.workingDirectory = .ok x := by
  rw [resolved, Engine.resolve, hPath] at h
  simp only at h
  split at h
  · cases h
  split at h
  · rename_i hLocate
    cases h
    exact hLocate
  · cases h

theorem resolved_of_locate {x : Executable} (hPath : e.usablePath r = some configured)
    (hSuits : env.suits e = true)
    (hLocate : (configured.completed env.platform).locate env.workingDirectory = .ok x) :
    env.resolved e r = .ok x := by
  have hPlatform : (e.requiresAvisynth && !env.platform.isWindows) = false := by
    rw [suits] at hSuits
    rw [← Bool.not_inj_iff, Bool.not_and, Bool.not_not, hSuits, Bool.not_false]
  rw [resolved, Engine.resolve, hPath]
  simp only [hPlatform, hLocate, Bool.false_eq_true, if_false]

theorem isBare_of_resolved {q : FilePath} (h : env.resolved e r = .ok (.bare q)) :
    q.isBare = true := by
  cases hPath : e.usablePath r with
  | none =>
    rw [resolved, Engine.resolve, hPath] at h
    cases h
  | some configured =>
    obtain ⟨rfl, hIsBare⟩ := FilePath.eq_of_locate_bare (locate_of_resolved hPath h)
    exact hIsBare

theorem isName_of_resolved {q : FilePath} (h : env.resolved e r = .ok (.bare q))
    (hTrailed : ¬ q.IsTrailed) : q.IsName :=
  (FilePath.isBare_iff.mp (isBare_of_resolved h)).resolve_right hTrailed

/-- What becomes of a completed path whose spelling tells names apart from other paths. -/
structure TellsNames (env : Environment) (e : Engine) (r : Role) (p : FilePath) : Prop where
  /-- A bare executable is a name without a slash. -/
  named : ∀ q, env.resolved e r = .ok (.bare q) → q = p ∧ q.IsName
  /-- It is loaded from the search path. -/
  searched : ∀ q, env.resolved e r = .ok (.bare q) → ∀ (h : Host) args image,
    h.load q.text args = .ok image →
      ∃ place ∈ h.candidates q.text, ∃ loaded, h.loadAt place args = .ok loaded ∧
        image.utility = loaded.utility ∧ image.args = loaded.args
  /-- A path with a slash becomes absolute, provided that there is a directory to start from. -/
  located : '/' ∈ p.text.toList → env.suits e = true →
    (p.isAbsolute = true ∨ ∃ base, env.workingDirectory = .ok base) →
      ∃ q, env.resolved e r = .ok (.absolute q)
  /-- It never becomes bare. -/
  slashed : '/' ∈ p.text.toList → ∀ q, env.resolved e r ≠ .ok (.bare q)
  /-- An absolute executable starts at the root. -/
  rooted : ∀ q, env.resolved e r = .ok (.absolute q) → q.isAbsolute = true
  /-- It is not probed unless it passes the access check. -/
  checked : ∀ q, env.resolved e r = .ok (.absolute q) → ∀ met failure,
    env.access met.calls q = .error failure →
      (env.examine e r met).1 = .refused (failure.reason e.name q) ∧ (env.examine e r met).2.1 = met

theorem tellsNames {p : FilePath} (hPath : e.usablePath r = some configured)
    (hCompleted : configured.completed env.platform = p)
    (hBase : ∀ base, env.workingDirectory = .ok base → base.isAbsolute = true)
    (hTrailed : ¬ p.IsTrailed) : env.TellsNames e r p := by
  subst hCompleted
  have hNamed : ∀ q, env.resolved e r = .ok (.bare q) →
      q = configured.completed env.platform ∧ q.IsName := by
    intro q hBare
    obtain ⟨rfl, hIsBare⟩ := FilePath.eq_of_locate_bare (locate_of_resolved hPath hBare)
    exact ⟨rfl, (FilePath.isBare_iff.mp hIsBare).resolve_right hTrailed⟩
  refine ⟨hNamed, ?_, ?_, ?_, ?_, ?_⟩
  · intro q hBare h args image
    exact Host.exists_of_load (hNamed q hBare).2.noSlash
  · intro hSlash hSuits hStart
    have hIsBare : (configured.completed env.platform).isBare = false := by
      refine eq_false_of_ne_true fun hBare => ?_
      exact ((FilePath.isBare_iff.mp hBare).resolve_right hTrailed).noSlash hSlash
    obtain ⟨q, hLocate⟩ := FilePath.exists_locate_absolute hIsBare hStart
    exact ⟨q, resolved_of_locate hPath hSuits hLocate⟩
  · intro hSlash q hBare
    obtain ⟨rfl, hName⟩ := hNamed q hBare
    exact hName.noSlash hSlash
  · intro q hAbsolute
    exact FilePath.isAbsolute_of_locate hBase (locate_of_resolved hPath hAbsolute)
  · intro q hAbsolute met failure hAccess
    exact (Examined.inaccessible hAbsolute hAccess).examine_eq

/-- What becomes of a completed path that is a name with a slash and idle pieces behind it. -/
structure MistakesForName (env : Environment) (e : Engine) (r : Role) (p : FilePath) : Prop where
  slashed : '/' ∈ p.text.toList
  /-- It counts as bare all the same. -/
  bare : env.suits e = true → env.resolved e r = .ok (.bare p)
  /-- It is loaded from where it leads. -/
  loaded : ∀ (h : Host) args image, h.load p.text args = .ok image → h.loadAt p args = .ok image
  /-- What the access check would say of it makes no difference. -/
  unchecked : ∀ access met, { env with access := access }.examine e r met = env.examine e r met
  /-- It shares its record with a name. -/
  shared : ∃ q : FilePath, q.IsName ∧ p.same q = true

theorem examine_access (hRelative : ∀ q, env.resolved e r ≠ .ok (.absolute q))
    (access : List Call → AccessCheck) (met : ProbeLedger) :
    { env with access := access }.examine e r met = env.examine e r met := by
  rcases hResolve : e.resolve r env.platform env.workingDirectory with ⟨result, events⟩
  cases result with
  | error reason => simp only [examine, hResolve]
  | ok executable =>
    cases executable with
    | bare path =>
      simp only [examine, hResolve, checkAccess]
      rfl
    | absolute path =>
      refine absurd ?_ (hRelative path)
      rw [resolved, hResolve]

theorem mistakesForName {p : FilePath} (hPath : e.usablePath r = some configured)
    (hCompleted : configured.completed env.platform = p) (hTrailed : p.IsTrailed) :
    env.MistakesForName e r p := by
  subst hCompleted
  have hLocate : (configured.completed env.platform).locate env.workingDirectory
      = .ok (.bare (configured.completed env.platform)) := by
    rw [FilePath.locate, if_pos (FilePath.isBare_iff.mpr (.inr hTrailed))]
  refine ⟨hTrailed.mem, fun hSuits => resolved_of_locate hPath hSuits hLocate,
    fun h args image => Host.loadAt_of_load hTrailed.mem, ?_, hTrailed.exists_same⟩
  -- The path is located as bare, so the access check is never asked.
  refine examine_access fun q hAbsolute => ?_
  have hOther := locate_of_resolved hPath hAbsolute
  rw [hLocate] at hOther
  cases hOther

/-- Which bare executables are names is a matter of the spelling alone, and names that share a
record of a probe are one name. -/
theorem names_resolved (env : Environment)
    (hBase : ∀ base, env.workingDirectory = .ok base → base.isAbsolute = true) :
    (∀ e r configured, e.usablePath r = some configured →
      (¬ (configured.completed env.platform).IsTrailed →
        env.TellsNames e r (configured.completed env.platform)) ∧
      ((configured.completed env.platform).IsTrailed →
        env.MistakesForName e r (configured.completed env.platform))) ∧
    ∀ e e' r r' q q', env.resolved e r = .ok (.bare q) → env.resolved e' r' = .ok (.bare q') →
      ¬ q.IsTrailed → ¬ q'.IsTrailed → ∀ (cache : ProbeCache) record,
        cache.get? q = some record → cache.get? q' = some record → q = q' := by
  refine ⟨fun e r configured hPath => ⟨tellsNames hPath rfl hBase, mistakesForName hPath rfl⟩, ?_⟩
  intro e e' r r' q q' hBare hBare' hTrailed hTrailed' cache record hRecord hRecord'
  have hName := isName_of_resolved hBare hTrailed
  have hName' := isName_of_resolved hBare' hTrailed'
  have hSame := FilePath.same_iff.mp (ProbeCache.same_of_get? hRecord)
  have hSame' := FilePath.same_iff.mp (ProbeCache.same_of_get? hRecord')
  exact hName.eq_of_same hName' (FilePath.same_iff.mpr (hSame.symm.trans hSame'))

/-- An ordinary server on which no program answers. -/
def silent : Environment where
  platform := .linux64
  workingDirectory := .ok ⟨"/srv"⟩
  access := fun _ _ => .error .notFound
  runner := fun _ _ => .error (.launch "")
  clock := fun _ => ⟨2024, 5, 17, 9, 30, 0⟩

/-- An engine whose installed executable is looked for at a path. -/
def ffmpegAt (path : FilePath) : Engine :=
  (Engine.new (.ofText "FFmpegVideo") "FFmpeg Video" .ffmpeg .videoFile).withExecutable .installed
    (some path)

/-- A path in a directory is checked, a name with a slash behind it is not. -/
theorem names_resolved_silent :
    (∀ base, silent.workingDirectory = .ok base → base.isAbsolute = true) ∧
      silent.TellsNames (ffmpegAt ⟨"tools/ffmpeg"⟩) .installed ⟨"tools/ffmpeg"⟩ ∧
      silent.MistakesForName (ffmpegAt ⟨"ffmpeg/"⟩) .installed ⟨"ffmpeg/"⟩ := by
  have hBase : ∀ base, silent.workingDirectory = .ok base → base.isAbsolute = true := by
    rintro base ⟨⟩
    decide +kernel
  have hOther : ¬ (⟨"tools/ffmpeg"⟩ : FilePath).IsTrailed := by
    intro hTrailed
    have hBare : (⟨"tools/ffmpeg"⟩ : FilePath).isBare = false := by decide +kernel
    rw [FilePath.isBare_iff.mpr (.inr hTrailed)] at hBare
    cases hBare
  have hTrailed : (⟨"ffmpeg/"⟩ : FilePath).IsTrailed :=
    ⟨"ffmpeg".toList, [], by decide +kernel, by decide +kernel, by decide +kernel,
      by decide +kernel, by decide +kernel⟩
  obtain ⟨hResolved, -⟩ := names_resolved silent hBase
  exact ⟨hBase, (hResolved _ .installed ⟨"tools/ffmpeg"⟩ (by decide +kernel)).1 hOther,
    (hResolved _ .installed ⟨"ffmpeg/"⟩ (by decide +kernel)).2 hTrailed⟩

/-- A bare executable may hold a slash, and it shares its record with the name in front of it. -/
theorem slash_resolved :
    silent.resolved (ffmpegAt ⟨"ffmpeg/"⟩) .installed = .ok (.bare ⟨"ffmpeg/"⟩) ∧
      '/' ∈ (⟨"ffmpeg/"⟩ : FilePath).text.toList ∧
      (⟨"ffmpeg/"⟩ : FilePath).same ⟨"ffmpeg"⟩ = true :=
  ⟨by rfl, by decide +kernel, by decide +kernel⟩

end Environment

end TranscodingEngines
