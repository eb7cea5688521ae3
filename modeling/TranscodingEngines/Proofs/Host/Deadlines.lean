import TranscodingEngines.Host.Process

/-!
# Deadlines that the clock cannot name

The deadline of a run is as many whole seconds after its start as the limit has, so the clock can
name it exactly if the sum of the seconds does not exceed the last one. The moment until which
output is collected is at most a fraction of a second behind the deadline. A run for which one of
the two cannot be named takes the program down; every other run ends in one of the four ways that
whoever asked for it can tell apart. All this holds whatever system the programs are started by.
-/

set_option autoImplicit false

namespace TranscodingEngines

/-! ## The steady clock -/

namespace Instant

variable {i j : Instant} {d : Duration}

theorem after?_eq_none_iff : i.after? d = none ↔ lastSec < (i.later d).secs := by
  rw [after?, isNameable]
  by_cases hSecs : (i.later d).secs ≤ lastSec
  · simp [hSecs]
  · simp [hSecs, Nat.lt_of_not_le hSecs]

theorem secs_later_ofSecs (i : Instant) (n : Nat) : (i.later (.ofSecs n)).secs = i.secs + n := by
  simp only [secs, later, Duration.ofSecs, nanosPerSec]
  omega

theorem secs_mono (h : i.nanos ≤ j.nanos) : i.secs ≤ j.secs := Nat.div_le_div_right h

theorem secs_le_later (i : Instant) (d : Duration) : i.secs ≤ (i.later d).secs :=
  secs_mono (Nat.le_add_left _ _)

theorem eq_of_after? (h : i.after? d = some j) : j = i.later d := by
  rw [after?] at h
  split at h
  · exact (Option.some.inj h).symm
  · cases h

theorem secs_latest_le {n : Nat} (hi : i.secs ≤ n) (hj : j.secs ≤ n) : (i.latest j).secs ≤ n := by
  rw [latest]
  split
  · exact hj
  · exact hi

end Instant

namespace Host

/-! ## The looks -/

theorem lastLook_le (limit : Duration) (interruptedAt : Option Nat) :
    lastLook limit interruptedAt ≤ deadlineLook limit :=
  Nat.min_le_left _ _

/-- A limit of whole seconds is used up at a look. -/
theorem deadlineLook_ofSecs (n : Nat) : deadlineLook (.ofSecs n) = n * 100 := by
  simp only [deadlineLook, lookAt, microsUp, Duration.ofSecs, lookEvery]
  omega

theorem givenUp_eq (limit : Duration) (interruptedAt : Option Nat) :
    givenUp limit interruptedAt = .timedOut limit ∨
      givenUp limit interruptedAt = .interrupted ∧ interruptedAt.isSome = true := by
  cases interruptedAt with
  | none => exact .inl rfl
  | some millis =>
    rw [givenUp]
    split
    · exact .inr ⟨rfl, rfl⟩
    · exact .inl rfl

/-- No look comes later than the limit, in whole seconds. -/
theorem timeOf_le (h : Host) {n look : Nat} (hLook : look ≤ n * 100) :
    (h.timeOf look).nanos ≤ (h.started.later (.ofSecs n)).nanos := by
  simp only [timeOf, Instant.later, Duration.ofMicros, Duration.ofSecs, lookEvery]
  omega

/-- The collecting of output is over at most a second behind the deadline. -/
theorem microsUp_wait_le (h : Host) {n look : Nat} (hLook : look ≤ n * 100) :
    microsUp (((h.started.later (.ofSecs n)).latest ((h.timeOf look).later drainGrace)).since
      h.started) ≤ (n + 1) * 1000000 := by
  have hTime := h.timeOf_le hLook
  have hGrace : drainGrace.nanos = 200000000 := rfl
  rw [Instant.latest]
  simp only [Instant.later, Duration.ofSecs] at hTime
  split <;> simp only [microsUp, Instant.since, Instant.later, Duration.ofSecs, hGrace] <;> omega

/-- Output is not waited for longer than a second behind the deadline. -/
theorem secs_grace_le (h : Host) {n look : Nat} (hLook : look ≤ n * 100) :
    ((h.timeOf look).later drainGrace).secs ≤ h.started.secs + (n + 1) := by
  have hTime := h.timeOf_le hLook
  rw [← Instant.secs_later_ofSecs]
  apply Instant.secs_mono
  simp only [Instant.later, Duration.ofSecs, drainGrace, Duration.ofMillis] at hTime ⊢
  omega

end Host

namespace System

variable {s : System} {h : Host} {limit : Duration} {interruptedAt : Option Nat} {call : Call}
  {loaded : s.Loaded}

theorem le_of_endSeen {p : s.UnderWay} {last look : Nat} {ending : ProcessEnd}
    (hSeen : s.endSeen p last = some (ending, look)) : look ≤ last := by
  rw [endSeen] at hSeen
  split at hSeen
  · cases hSeen
  · simp only at hSeen
    split at hSeen
    · cases hSeen
    · rename_i hLook
      obtain ⟨_, rfl⟩ := Prod.mk.inj (Option.some.inj hSeen)
      exact Nat.le_of_not_lt hLook

/-! ## How a run ends -/

/-- A look finds the program ended. -/
def Ends (s : System) (h : Host) (limit : Duration) (interruptedAt : Option Nat)
    (loaded : s.Loaded) (ending : ProcessEnd) (look : Nat) : Prop :=
  s.endSeen (s.perform h loaded limit interruptedAt) (Host.lastLook limit interruptedAt)
    = some (ending, look)

/-- A program is started, and the clock cannot name its deadline, or else the moment until which
its output is waited for. -/
def Exhausts (s : System) (h : Host) (limit : Duration) (interruptedAt : Option Nat)
    (call : Call) : Prop :=
  ∃ loaded, s.load h call = .ok loaded ∧
    (h.started.after? limit = none ∨
      ∃ ending look, s.Ends h limit interruptedAt loaded ending look ∧
        (h.timeOf look).after? drainGrace = none)

/-- The ways in which a run ends that whoever asked for it can tell apart. -/
inductive Fares (s : System) (h : Host) (limit : Duration) (interruptedAt : Option Nat)
    (call : Call) : Ending → Prop
  | launch {cause : SystemError} (hLoad : s.load h call = .error cause) :
      Fares s h limit interruptedAt call (.error (.failed (.launch cause.message)))
  | exit {loaded : s.Loaded} {ending : ProcessEnd} {look : Nat} {output : Output}
      (hLoad : s.load h call = .ok loaded)
      (hEnds : s.Ends h limit interruptedAt loaded ending look)
      (hCode : output.exitCode = ending.exitCode) :
      Fares s h limit interruptedAt call (.ok output)
  | timedOut {loaded : s.Loaded} (hLoad : s.load h call = .ok loaded)
      (hNever : ∀ ending look, ¬ s.Ends h limit interruptedAt loaded ending look) :
      Fares s h limit interruptedAt call (.error (.failed (.timedOut limit)))
  | interrupted {loaded : s.Loaded} (hLoad : s.load h call = .ok loaded)
      (hNever : ∀ ending look, ¬ s.Ends h limit interruptedAt loaded ending look)
      (hWish : interruptedAt.isSome = true) :
      Fares s h limit interruptedAt call (.error (.failed .interrupted))

theorem collect_cases (s : System) (h : Host) (p : s.UnderWay) (ending : ProcessEnd) (look : Nat)
    (deadline : Instant) :
    ((h.timeOf look).after? drainGrace = none ∧
        (s.collect h p ending look deadline).1 = .error .clockExhausted) ∨
      ((h.timeOf look).after? drainGrace ≠ none ∧ ∃ output : Output,
        (s.collect h p ending look deadline).1 = .ok output ∧
          output.exitCode = ending.exitCode) := by
  rw [collect]
  cases hGrace : (h.timeOf look).after? drainGrace with
  | none => exact .inl ⟨rfl, rfl⟩
  | some grace => exact .inr ⟨Option.some_ne_none _, _, rfl, by rw [collected]⟩

theorem run_of_not_loaded {cause : SystemError} (hLoad : s.load h call = .error cause) :
    s.run h limit interruptedAt call = (.error (.failed (.launch cause.message)), h) := by
  simp only [run, hLoad]

theorem run_of_late (hLoad : s.load h call = .ok loaded)
    (hDeadline : h.started.after? limit = none) :
    s.run h limit interruptedAt call = (.error .clockExhausted, h) := by
  simp only [run, hLoad, hDeadline]

theorem run_of_ends {deadline : Instant} {ending : ProcessEnd} {look : Nat}
    (hLoad : s.load h call = .ok loaded) (hDeadline : h.started.after? limit = some deadline)
    (hEnds : s.Ends h limit interruptedAt loaded ending look) : s.run h limit interruptedAt call
      = s.collect h (s.perform h loaded limit interruptedAt) ending look deadline := by
  rw [Ends] at hEnds
  simp only [run, hLoad, hDeadline, hEnds]

theorem run_of_not_ends {deadline : Instant} (hLoad : s.load h call = .ok loaded)
    (hDeadline : h.started.after? limit = some deadline)
    (hNever : ∀ ending look, ¬ s.Ends h limit interruptedAt loaded ending look) :
    s.run h limit interruptedAt call
      = (.error (.failed (Host.givenUp limit interruptedAt)),
        (s.hostNow (s.perform h loaded limit interruptedAt)).showing
          (h.timeOf (Host.lastLook limit interruptedAt))) := by
  have hNone : s.endSeen (s.perform h loaded limit interruptedAt)
      (Host.lastLook limit interruptedAt) = none := by
    rw [Option.eq_none_iff_forall_ne_some]
    exact fun found hSeen => hNever found.1 found.2 hSeen
  simp only [run, hLoad, hDeadline, hNone]

/-- A run takes the program down if a moment that it needs cannot be named, and ends otherwise. -/
theorem run_cases (s : System) (h : Host) (limit : Duration) (interruptedAt : Option Nat)
    (call : Call) :
    (s.Exhausts h limit interruptedAt call ∧
        (s.run h limit interruptedAt call).1 = .error .clockExhausted) ∨
      (¬ s.Exhausts h limit interruptedAt call ∧
        s.Fares h limit interruptedAt call (s.run h limit interruptedAt call).1) := by
  cases hLoad : s.load h call with
  | error cause =>
    refine .inr ⟨?_, ?_⟩
    · rintro ⟨loaded, hLoaded, _⟩
      cases hLoad.symm.trans hLoaded
    · rw [run_of_not_loaded hLoad]
      exact .launch hLoad
  | ok loaded =>
    cases hDeadline : h.started.after? limit with
    | none =>
      refine .inl ⟨⟨loaded, hLoad, .inl hDeadline⟩, ?_⟩
      rw [run_of_late hLoad hDeadline]
    | some deadline =>
      have hExhausts : s.Exhausts h limit interruptedAt call ↔ ∃ ending look,
          s.Ends h limit interruptedAt loaded ending look ∧
            (h.timeOf look).after? drainGrace = none := by
        simp [Exhausts, hLoad, hDeadline]
      rw [hExhausts]
      by_cases hSeen : ∃ ending look, s.Ends h limit interruptedAt loaded ending look
      · obtain ⟨ending, look, hEnds⟩ := hSeen
        rw [run_of_ends hLoad hDeadline hEnds]
        rcases s.collect_cases h (s.perform h loaded limit interruptedAt) ending look deadline with
          ⟨hNone, hEnding⟩ | ⟨hSome, output, hEnding, hCode⟩
        · exact .inl ⟨⟨ending, look, hEnds, hNone⟩, hEnding⟩
        · rw [hEnding]
          refine .inr ⟨?_, .exit hLoad hEnds hCode⟩
          rintro ⟨ending', look', hOther, hNone⟩
          obtain ⟨_, rfl⟩ := Prod.mk.inj (Option.some.inj (hEnds.symm.trans hOther))
          exact hSome hNone
      · have hNever : ∀ ending look, ¬ s.Ends h limit interruptedAt loaded ending look :=
          fun ending look hEnds => hSeen ⟨ending, look, hEnds⟩
        rw [run_of_not_ends hLoad hDeadline hNever]
        refine .inr ⟨fun ⟨ending, look, hEnds, _⟩ => hNever ending look hEnds, ?_⟩
        rcases Host.givenUp_eq limit interruptedAt with hGiven | ⟨hGiven, hWish⟩
        · rw [hGiven]
          exact .timedOut hLoad hNever
        · rw [hGiven]
          exact .interrupted hLoad hNever hWish

theorem Fares.ne_clockExhausted {ending : Ending}
    (hFares : s.Fares h limit interruptedAt call ending) : ending ≠ .error .clockExhausted := by
  cases hFares <;> simp

theorem run_eq_clockExhausted_iff : (s.run h limit interruptedAt call).1 = .error .clockExhausted ↔
    s.Exhausts h limit interruptedAt call := by
  rcases s.run_cases h limit interruptedAt call with ⟨hExhausts, hEnding⟩ | ⟨hFits, hFares⟩
  · exact iff_of_true hEnding hExhausts
  · exact iff_of_false hFares.ne_clockExhausted hFits

/-! ## Limits of whole seconds -/

section Seconds

variable {n : Nat}

theorem Ends.look_le {ending : ProcessEnd} {look : Nat}
    (hEnds : s.Ends h (.ofSecs n) interruptedAt loaded ending look) : look ≤ n * 100 := by
  rw [← Host.deadlineLook_ofSecs]
  exact Nat.le_trans (le_of_endSeen hEnds) (Host.lastLook_le _ _)

theorem exhausts_of_lt (hLoad : s.load h call = .ok loaded)
    (hLate : Instant.lastSec < h.started.secs + n) :
    s.Exhausts h (.ofSecs n) interruptedAt call := by
  refine ⟨loaded, hLoad, .inl (Instant.after?_eq_none_iff.mpr ?_)⟩
  rwa [Instant.secs_later_ofSecs]

theorem not_exhausts_of_lt (hEarly : h.started.secs + n < Instant.lastSec) :
    ¬ s.Exhausts h (.ofSecs n) interruptedAt call := by
  rintro ⟨loaded, _, hNone | ⟨ending, look, hEnds, hNone⟩⟩
  · rw [Instant.after?_eq_none_iff, Instant.secs_later_ofSecs] at hNone
    omega
  · rw [Instant.after?_eq_none_iff] at hNone
    have hGrace := h.secs_grace_le hEnds.look_le
    omega

/-- Unless the deadline lies in the last second, it alone decides. -/
theorem exhausts_ofSecs_iff (hOther : h.started.secs + n ≠ Instant.lastSec) :
    s.Exhausts h (.ofSecs n) interruptedAt call ↔
      (∃ loaded, s.load h call = .ok loaded) ∧ Instant.lastSec < h.started.secs + n := by
  constructor
  · intro hExhausts
    have hLate : ¬ h.started.secs + n < Instant.lastSec := fun hEarly =>
      not_exhausts_of_lt hEarly hExhausts
    obtain ⟨loaded, hLoad, _⟩ := hExhausts
    exact ⟨⟨loaded, hLoad⟩, by omega⟩
  · rintro ⟨⟨loaded, hLoad⟩, hLate⟩
    exact exhausts_of_lt hLoad hLate

theorem collectedAt_le (s : System) (p : s.UnderWay) (last : Nat) : s.collectedAt p last ≤ last :=
  Nat.min_le_left _ _

theorem secs_collect_le (s : System) (h : Host) (p : s.UnderWay) (ending : ProcessEnd)
    {look : Nat} {deadline : Instant} (hDeadline : deadline = h.started.later (.ofSecs n))
    (hLook : look ≤ n * 100) :
    (s.collect h p ending look deadline).2.started.secs ≤ h.started.secs + (n + 1) := by
  have hSeen : (h.timeOf look).secs ≤ h.started.secs + (n + 1) :=
    Nat.le_trans (Instant.secs_le_later _ _) (h.secs_grace_le hLook)
  rw [collect]
  split
  · exact hSeen
  · rename_i grace hGrace
    obtain rfl := Instant.eq_of_after? hGrace
    refine Instant.secs_latest_le hSeen ?_
    have hWait := h.microsUp_wait_le hLook
    rw [← hDeadline] at hWait
    generalize Host.microsUp ((deadline.latest ((h.timeOf look).later drainGrace)).since h.started)
      = last at hWait ⊢
    have hLast := Nat.le_trans (s.collectedAt_le (s.advance last p) last) hWait
    rw [← Instant.secs_later_ofSecs]
    apply Instant.secs_mono
    simp only [Instant.later, Duration.ofMicros, Duration.ofSecs] at hLast ⊢
    omega

/-- A run takes no longer than its limit and a second. -/
theorem secs_run_le (s : System) (h : Host) (n : Nat) (interruptedAt : Option Nat) (call : Call) :
    (s.run h (.ofSecs n) interruptedAt call).2.started.secs ≤ h.started.secs + (n + 1) := by
  cases hLoad : s.load h call with
  | error cause =>
    rw [run_of_not_loaded hLoad]
    exact Nat.le_add_right _ _
  | ok loaded =>
    cases hDeadline : h.started.after? (.ofSecs n) with
    | none =>
      rw [run_of_late hLoad hDeadline]
      exact Nat.le_add_right _ _
    | some deadline =>
      by_cases hSeen : ∃ ending look, s.Ends h (.ofSecs n) interruptedAt loaded ending look
      · obtain ⟨ending, look, hEnds⟩ := hSeen
        rw [run_of_ends hLoad hDeadline hEnds]
        exact s.secs_collect_le h _ ending (Instant.eq_of_after? hDeadline) hEnds.look_le
      · have hNever : ∀ ending look, ¬ s.Ends h (.ofSecs n) interruptedAt loaded ending look :=
          fun ending look hEnds => hSeen ⟨ending, look, hEnds⟩
        rw [run_of_not_ends hLoad hDeadline hNever]
        have hLast : Host.lastLook (.ofSecs n) interruptedAt ≤ n * 100 := by
          rw [← Host.deadlineLook_ofSecs]
          exact Host.lastLook_le _ _
        have hTime := Instant.secs_mono (h.timeOf_le hLast)
        rw [Instant.secs_later_ofSecs] at hTime
        simp only [Host.showing]
        omega

end Seconds

end System

/-! ## Programs of a system that nobody interrupts -/

namespace Programs

variable {s : System} {h : Host} {limit : Duration} {call : Call} {earlier calls : List Call}

theorem takesDown_cons {programs : Programs} :
    programs.takesDown limit h (call :: calls) = true ↔
      (programs h limit call).1 = .error .clockExhausted ∨
        programs.takesDown limit (programs h limit call).2 calls = true := by
  rw [takesDown]
  rcases hRun : programs h limit call with ⟨(_ | _) | _, after⟩ <;> simp

theorem takesDown_iff {programs : Programs} : programs.takesDown limit h calls = true ↔
    ∃ new call later, calls = new ++ call :: later ∧
      (programs (programs.after h limit new) limit call).1 = .error .clockExhausted := by
  induction calls generalizing h with
  | nil => simp [takesDown]
  | cons first rest ih =>
    rw [takesDown_cons, ih]
    constructor
    · rintro (hNow | ⟨new, call, later, rfl, hEnding⟩)
      · exact ⟨[], first, rest, rfl, hNow⟩
      · exact ⟨first :: new, call, later, rfl, hEnding⟩
    · rintro ⟨new, call, later, hSplit, hEnding⟩
      cases new with
      | nil =>
        obtain ⟨rfl, rfl⟩ := List.cons.inj hSplit
        exact .inl hEnding
      | cons x new =>
        obtain ⟨rfl, rfl⟩ := List.cons.inj hSplit
        exact .inr ⟨new, call, later, rfl, hEnding⟩

/-- Nobody interrupts these programs, so the runs that look interrupted are those that take the
program down. -/
theorem runner_eq_interrupted_iff :
    (ofSystem s false).runner h limit earlier call = .error .interrupted ↔
      s.Exhausts ((ofSystem s false).after h limit earlier) limit none call := by
  let reached := (ofSystem s false).after h limit earlier
  change (s.run reached limit none call).1.mapError Unfinished.failure = _ ↔ _
  rcases s.run_cases reached limit none call with ⟨hExhausts, hEnding⟩ | ⟨hFits, hFares⟩
  · rw [hEnding]
    exact iff_of_true rfl hExhausts
  · refine iff_of_false ?_ hFits
    generalize (s.run reached limit none call).1 = ending at hFares
    cases hFares with
    | interrupted _ _ hWish => cases hWish
    | _ => rintro ⟨⟩

/-- Each call takes no longer than its limit and a second. -/
theorem secs_after_le (s : System) (h : Host) (n : Nat) (calls : List Call) :
    ((ofSystem s false).after h (.ofSecs n) calls).started.secs
      ≤ h.started.secs + calls.length * (n + 1) := by
  induction calls generalizing h with
  | nil => exact Nat.le_add_right _ _
  | cons call rest ih =>
    have hFirst := s.secs_run_le h n none call
    have hRest := ih (s.run h (.ofSecs n) none call).2
    rw [List.length_cons, Nat.add_one_mul]
    exact Nat.le_trans hRest (by omega)

end Programs

end TranscodingEngines
