import TranscodingEngines.Probe.Basic

/-!
# How the ledger of probes grows

An exchange is a call together with its answer and the engine it was made for. The ledger grows by
one exchange after the other, each for an executable that is in no record yet. So the calls are
those of the exchanges, the records are those of the exchanges that led to a verdict, and a verdict
ends the calls for its executable.
-/

set_option autoImplicit false

namespace TranscodingEngines

/-! ## The cache -/

namespace ProbeCache

theorem same_of_get? {c : ProbeCache} {p : FilePath} {r : ProbeRecord} (h : c.get? p = some r) :
    r.executable.same p = true := by
  simpa using List.find?_some h

theorem get?_congr (c : ProbeCache) {p q : FilePath} (h : p.same q = true) :
    c.get? p = c.get? q := by
  simp only [get?, FilePath.same, FilePath.same_iff.mp h]

theorem get?_of_prefix {c d : ProbeCache} (hPrefix : c.kept <+: d.kept) {p : FilePath}
    {r : ProbeRecord} (h : c.get? p = some r) : d.get? p = some r := by
  obtain ⟨more, hMore⟩ := hPrefix
  have hFind : c.kept.find? (·.executable.same p) = some r := h
  rw [get?, ← hMore, List.find?_append, hFind, Option.some_or]

theorem kept_insertIfNew {c : ProbeCache} {r : ProbeRecord} (h : c.get? r.executable = none) :
    (c.insertIfNew r).kept = c.kept ++ [r] := by
  rw [insertIfNew, h]

theorem get?_insertIfNew (c : ProbeCache) (r : ProbeRecord) (p : FilePath) :
    (c.insertIfNew r).get? p
      = (c.get? p).or (if r.executable.same p = true then some r else none) := by
  cases h : c.get? r.executable with
  | none =>
    rw [get?, kept_insertIfNew h, List.find?_append, List.find?_singleton]
    rfl
  | some k =>
    have hSame : c.insertIfNew r = c := by rw [insertIfNew, h]
    rw [hSame]
    split
    · rename_i hPath
      rw [← c.get?_congr hPath, h, Option.some_or]
    · rw [Option.or_none]

end ProbeCache

/-! ## Exchanges -/

/-- A call, the engine and platform that it was made for, and the runner that answered it after the
earlier calls, with the clock. -/
structure Exchange where
  engine : Engine
  platform : Platform
  runner : Runner
  clock : List Call → LocalTime
  earlier : List Call
  call : Call

namespace Exchange

def reply (x : Exchange) : Reply := x.runner x.earlier x.call

def moment (x : Exchange) : LocalTime := x.clock (x.earlier ++ [x.call])

def verdict? (x : Exchange) : Option Verdict :=
  x.engine.family.descriptor?.bind fun d => d.judge x.engine.name x.platform x.reply

def record? (x : Exchange) : Option ProbeRecord :=
  x.verdict?.map fun v => ⟨x.call.program, v, x.moment⟩

/-- The call is the one by which tools of the engine's family are probed. -/
def IsProbe (x : Exchange) : Prop :=
  ∃ d, x.engine.family.descriptor? = some d ∧ x.call.args = d.args

end Exchange

theorem Descriptor.judge_eq_none_iff {d : Descriptor} {engine : String} {platform : Platform}
    {reply : Reply} : d.judge engine platform reply = none ↔ reply = .error .interrupted := by
  rcases reply with (_ | _ | _) | output <;> simp [judge]

theorem Descriptor.judge_eq_some_iff {d : Descriptor} {engine : String} {platform : Platform}
    {reply : Reply} {v : Verdict} : d.judge engine platform reply = some v ↔
      (∃ output, reply = .ok output ∧ v = d.evaluate engine output platform) ∨
      (∃ failure, reply = .error failure ∧ failure ≠ .interrupted ∧
        v = .error (.launchFailed (withDetail engine failure.message))) := by
  rcases reply with (_ | _ | _) | output <;> simp [judge, eq_comm]

namespace Exchange

/-- The answer leads to the verdict: a finished run is judged as the family of the engine says, and
a run that failed, but was not interrupted, is a failed launch. -/
def Yields (x : Exchange) (v : Verdict) : Prop :=
  ∃ d, x.engine.family.descriptor? = some d ∧
    ((∃ output, x.reply = .ok output ∧ v = d.evaluate x.engine.name output x.platform) ∨
      ∃ failure, x.reply = .error failure ∧ failure ≠ .interrupted ∧
        v = .error (.launchFailed (withDetail x.engine.name failure.message)))

theorem verdict?_eq_some_iff {x : Exchange} {v : Verdict} : x.verdict? = some v ↔ x.Yields v := by
  rw [verdict?, Option.bind_eq_some_iff]
  constructor
  · rintro ⟨d, hFamily, hJudge⟩
    exact ⟨d, hFamily, Descriptor.judge_eq_some_iff.mp hJudge⟩
  · rintro ⟨d, hFamily, hYields⟩
    exact ⟨d, hFamily, Descriptor.judge_eq_some_iff.mpr hYields⟩

theorem verdict?_eq_none_iff {x : Exchange} (h : x.IsProbe) :
    x.verdict? = none ↔ x.reply = .error .interrupted := by
  obtain ⟨d, hFamily, _⟩ := h
  rw [verdict?, hFamily, Option.bind_some, Descriptor.judge_eq_none_iff]

theorem record?_of_interrupted {x : Exchange} (h : x.reply = .error .interrupted) :
    x.record? = none := by
  rw [record?, verdict?, h]
  cases x.engine.family.descriptor? <;> rfl

theorem record?_eq_some_iff {x : Exchange} {r : ProbeRecord} :
    x.record? = some r ↔
      r.executable = x.call.program ∧ x.Yields r.verdict ∧ r.probedAt = x.moment := by
  rw [record?, Option.map_eq_some_iff]
  constructor
  · rintro ⟨v, hVerdict, rfl⟩
    exact ⟨rfl, verdict?_eq_some_iff.mp hVerdict, rfl⟩
  · rintro ⟨hExecutable, hYields, hMoment⟩
    refine ⟨r.verdict, verdict?_eq_some_iff.mpr hYields, ?_⟩
    rw [← hExecutable, ← hMoment]

end Exchange

def Availability.FromProbe (a : Availability) : Prop :=
  (∃ version, a = .available version) ∨
    (∃ diagnostic, a = .unavailable (.launchFailed diagnostic)) ∨
    ∃ diagnostic, a = .unavailable (.rejected diagnostic)

theorem Availability.FromProbe.ne_avisynthNotFound {a : Availability} (h : a.FromProbe)
    (engine : String) : a ≠ .unavailable (.avisynthNotFound engine) := by
  rcases h with ⟨_, rfl⟩ | ⟨_, rfl⟩ | ⟨_, rfl⟩ <;> simp

theorem Descriptor.fromProbe_of_judge {d : Descriptor} {engine : String} {platform : Platform}
    {reply : Reply} {v : Verdict} (h : d.judge engine platform reply = some v) :
    (Availability.ofVerdict v).FromProbe := by
  rcases judge_eq_some_iff.mp h with ⟨output, _, rfl⟩ | ⟨failure, _, _, rfl⟩
  · rw [evaluate]
    split
    · exact .inl ⟨_, rfl⟩
    · exact .inr (.inr ⟨_, rfl⟩)
  · exact .inr (.inl ⟨_, rfl⟩)

namespace ProbeLedger

def after (l : ProbeLedger) (x : Exchange) : ProbeLedger :=
  match x.verdict? with
  | none => l.called x.call
  | some v => (l.called x.call).keep x.call.program v x.moment

@[simp]
theorem calls_after (l : ProbeLedger) (x : Exchange) : (l.after x).calls = l.calls ++ [x.call] := by
  rw [after]
  split <;> rfl

theorem kept_after {l : ProbeLedger} {x : Exchange} (h : l.cache.get? x.call.program = none) :
    (l.after x).cache.kept = l.cache.kept ++ x.record?.toList := by
  rw [after, Exchange.record?]
  split
  · rename_i hVerdict
    rw [hVerdict, Option.map_none, Option.toList_none, List.append_nil]
    rfl
  · rename_i v hVerdict
    rw [hVerdict]
    exact ProbeCache.kept_insertIfNew h

theorem get?_after (l : ProbeLedger) (x : Exchange) (p : FilePath) :
    (l.after x).cache.get? p
      = (l.cache.get? p).or (if x.call.program.same p = true then x.record? else none) := by
  rw [after, Exchange.record?]
  split
  · rename_i hVerdict
    rw [hVerdict, Option.map_none, ite_self, Option.or_none]
    rfl
  · rename_i v hVerdict
    rw [hVerdict]
    exact ProbeCache.get?_insertIfNew l.cache ⟨x.call.program, v, x.moment⟩ p

theorem get?_after_self {l : ProbeLedger} {x : Exchange}
    (h : l.cache.get? x.call.program = none) :
    (l.after x).cache.get? x.call.program = x.record? := by
  rw [get?_after, h, Option.none_or, if_pos (FilePath.same_self _)]

/-- The second ledger is the first one after exchanges for executables that were in no record. -/
inductive Grows (l : ProbeLedger) : List Exchange → ProbeLedger → Prop
  | refl : Grows l [] l
  | exchange {xs : List Exchange} {m : ProbeLedger} (h : Grows l xs m) (x : Exchange)
      (hProbe : x.IsProbe) (hEarlier : x.earlier = m.calls)
      (hNew : m.cache.get? x.call.program = none) :
      Grows l (xs ++ [x]) (m.after x)

namespace Grows

variable {l m n : ProbeLedger} {xs ys : List Exchange}

theorem trans (h : Grows l xs m) (h' : Grows m ys n) : Grows l (xs ++ ys) n := by
  induction h' with
  | refl => simpa using h
  | exchange _ x hProbe hEarlier hNew ih =>
    rw [← List.append_assoc]
    exact ih.exchange x hProbe hEarlier hNew

theorem eq_of_nil (h : Grows l [] m) : m = l := by
  generalize hNil : ([] : List Exchange) = xs at h
  cases h with
  | refl => rfl
  | exchange => simp at hNil

theorem calls_eq (h : Grows l xs m) : m.calls = l.calls ++ xs.map (·.call) := by
  induction h with
  | refl => simp
  | exchange _ x _ _ _ ih => simp [ih]

theorem kept_eq (h : Grows l xs m) :
    m.cache.kept = l.cache.kept ++ xs.filterMap Exchange.record? := by
  induction h with
  | refl => simp
  | exchange _ x _ _ hNew ih =>
    rw [kept_after hNew, ih, List.filterMap_append, List.append_assoc]
    cases hRecord : x.record? <;> simp [hRecord]

theorem get?_mono (h : Grows l xs m) {p : FilePath} {r : ProbeRecord}
    (hRecord : l.cache.get? p = some r) : m.cache.get? p = some r :=
  ProbeCache.get?_of_prefix ⟨_, h.kept_eq.symm⟩ hRecord

theorem isProbe (h : Grows l xs m) : ∀ x ∈ xs, x.IsProbe := by
  induction h with
  | refl => simp
  | exchange _ x hProbe _ _ ih =>
    intro y hy
    rcases List.mem_append.mp hy with hy | hy
    · exact ih y hy
    · exact List.mem_singleton.mp hy ▸ hProbe

theorem earlier_eq (h : Grows l xs m) {before after : List Exchange} {x : Exchange}
    (hSplit : xs = before ++ x :: after) : x.earlier = l.calls ++ before.map (·.call) := by
  induction h generalizing after with
  | refl => simp at hSplit
  | exchange hGrows y _ hEarlier _ ih =>
    rcases List.eq_nil_or_concat after with rfl | ⟨rest, z, rfl⟩
    · -- The exchange asked for is the one just made.
      obtain ⟨rfl, hLast⟩ := List.append_inj' hSplit rfl
      obtain rfl := (List.cons.inj hLast).1
      rw [hEarlier, hGrows.calls_eq]
    · rw [List.concat_eq_append, ← List.cons_append, ← List.append_assoc] at hSplit
      exact ih (List.append_inj' hSplit rfl).1

theorem get?_eq_some_iff (h : Grows l xs m) {p : FilePath} (hNone : l.cache.get? p = none)
    {r : ProbeRecord} : m.cache.get? p = some r ↔
      ∃ x ∈ xs, x.call.program.same p = true ∧ x.record? = some r := by
  induction h with
  | refl => simp [hNone]
  | @exchange xs m _ x _ _ hNew ih =>
    rw [get?_after]
    constructor
    · intro hSome
      rcases Option.or_eq_some_iff.mp hSome with hOld | ⟨_, hLast⟩
      · obtain ⟨y, hy, hPath, hRecord⟩ := ih.mp hOld
        exact ⟨y, List.mem_append_left _ hy, hPath, hRecord⟩
      · split at hLast
        · rename_i hPath
          exact ⟨x, by simp, hPath, hLast⟩
        · cases hLast
    · rintro ⟨y, hy, hPath, hRecord⟩
      rcases List.mem_append.mp hy with hy | hy
      · rw [ih.mpr ⟨y, hy, hPath, hRecord⟩, Option.some_or]
      · rw [List.mem_singleton.mp hy] at hPath hRecord
        rw [← m.cache.get?_congr hPath, hNew, Option.none_or, if_pos hPath, hRecord]

/-- Calls for an executable go on only as long as they are interrupted. -/
theorem pairwise_verdict? (h : Grows l xs m) : xs.Pairwise fun x y =>
    x.call.program.same y.call.program = true → x.verdict? = none := by
  induction h with
  | refl => exact List.Pairwise.nil
  | @exchange xs m hGrows x _ _ hNew ih =>
    rw [List.pairwise_append]
    refine ⟨ih, List.pairwise_singleton _ _, ?_⟩
    intro y hy z hz hPath
    rw [List.mem_singleton.mp hz] at hPath
    -- Had the earlier call led to a verdict, its record would have kept the later one away.
    have hBefore : l.cache.get? x.call.program = none := by
      cases hOld : l.cache.get? x.call.program with
      | none => rfl
      | some r => rw [hGrows.get?_mono hOld] at hNew; cases hNew
    cases hVerdict : y.verdict? with
    | none => rfl
    | some v =>
      have hKept := (hGrows.get?_eq_some_iff hBefore).mpr
        ⟨y, hy, hPath, by rw [Exchange.record?, hVerdict]; rfl⟩
      rw [hNew] at hKept
      cases hKept

theorem fromProbe {p : FilePath} {r : ProbeRecord} (h : Grows .empty xs m)
    (hRecord : m.cache.get? p = some r) : (Availability.ofVerdict r.verdict).FromProbe := by
  obtain ⟨x, _, _, hKept⟩ := (h.get?_eq_some_iff rfl).mp hRecord
  obtain ⟨v, hVerdict, rfl⟩ := Option.map_eq_some_iff.mp hKept
  obtain ⟨d, _, hJudge⟩ := Option.bind_eq_some_iff.mp hVerdict
  exact Descriptor.fromProbe_of_judge hJudge

end Grows

end ProbeLedger

end TranscodingEngines
