import TranscodingEngines.Proofs.Registry.Interruption
import TranscodingEngines.Proofs.Registry.Probes

/-!
# How registrations come to their end

A registration succeeds exactly if none of its calls was interrupted. If it fails, the interrupted
call is the last one that was made. So its result can be told from the calls and from the runner
that answered them.
-/

set_option autoImplicit false

namespace TranscodingEngines

/-- The result of registering engines fits the exchanges made for it: none was interrupted if it
succeeded, and the last one was if it failed. -/
inductive Concluded : List Exchange → Except RegistryError Unit → Prop
  | answered {xs : List Exchange} (hAnswered : ∀ x ∈ xs, x.reply ≠ .error .interrupted) :
      Concluded xs (.ok ())
  | cut {xs : List Exchange} {x : Exchange} {name : String}
      (hReply : x.reply = .error .interrupted) : Concluded (xs ++ [x]) (.error (.interrupted name))

/-- A runner interrupts none of the calls. -/
def Runner.Answers (runner : Runner) (earlier calls : List Call) : Prop :=
  ∀ new call later, calls = earlier ++ new ++ call :: later →
    runner (earlier ++ new) call ≠ .error .interrupted

/-- The result of registering engines fits the calls made beyond the earlier ones. -/
inductive Closes (runner : Runner) (earlier calls : List Call) : Except RegistryError Unit → Prop
  | finished (hAnswers : runner.Answers earlier calls) : Closes runner earlier calls (.ok ())
  | broken {new : List Call} {call : Call} {name : String}
      (hCalls : calls = earlier ++ new ++ [call])
      (hReply : runner (earlier ++ new) call = .error .interrupted) :
      Closes runner earlier calls (.error (.interrupted name))

namespace Concluded

variable {xs ys : List Exchange} {result : Except RegistryError Unit}

theorem append_left (hAnswered : ∀ x ∈ xs, x.reply ≠ .error .interrupted)
    (h : Concluded ys result) : Concluded (xs ++ ys) result := by
  cases h with
  | answered hRest =>
    refine .answered fun x hx => ?_
    rcases List.mem_append.mp hx with hx | hx
    · exact hAnswered x hx
    · exact hRest x hx
  | cut hReply =>
    rw [← List.append_assoc]
    exact .cut hReply

theorem closes {l m : ProbeLedger} {runner : Runner} (h : Concluded xs result)
    (hGrows : l.Grows xs m) (hRunner : ∀ x ∈ xs, x.runner = runner) :
    Closes runner l.calls m.calls result := by
  have hReply : ∀ {before after : List Exchange} {x : Exchange}, xs = before ++ x :: after →
      x.reply = runner (l.calls ++ before.map (·.call)) x.call := by
    intro before after x hSplit
    have hx : x ∈ xs := hSplit ▸ List.mem_append_right _ List.mem_cons_self
    rw [Exchange.reply, hRunner x hx, hGrows.earlier_eq hSplit]
  cases h with
  | answered hAnswered =>
    refine .finished fun new call later hCalls hInterrupted => ?_
    rw [hGrows.calls_eq, List.append_assoc, List.append_cancel_left_eq] at hCalls
    obtain ⟨before, rest, hSplit, rfl, hRest⟩ := List.map_eq_append_iff.mp hCalls
    obtain ⟨x, after, rfl, rfl, _⟩ := List.map_eq_cons_iff.mp hRest
    exact hAnswered x (hSplit ▸ List.mem_append_right _ List.mem_cons_self)
      ((hReply hSplit).trans hInterrupted)
  | @cut before x name hInterrupted =>
    refine .broken ?_ ((hReply rfl).symm.trans hInterrupted)
    rw [hGrows.calls_eq, List.map_append, List.append_assoc, List.map_singleton]

end Concluded

theorem Closes.eq_ok_iff {runner : Runner} {earlier calls : List Call}
    {result : Except RegistryError Unit} (h : Closes runner earlier calls result) :
    result = .ok () ↔ runner.Answers earlier calls := by
  cases h with
  | finished hAnswers => exact iff_of_true rfl hAnswers
  | broken hCalls hReply =>
    exact iff_of_false (by simp) fun hAnswers => hAnswers _ _ [] hCalls hReply

namespace Registry

theorem environment_of_mem_admission? {g : Registry} {env : Environment} {e : Engine}
    {a : Admission} (ha : a ∈ g.admission? env e) : a.environment = env := by
  rw [admission?] at ha
  split at ha
  · cases ha
  · rw [List.mem_singleton.mp ha]

theorem environment_of_mem_admissionsOfAll {g : Registry} {env : Environment}
    {engines : List Engine} {a : Admission} (ha : a ∈ g.admissionsOfAll env engines) :
    a.environment = env := by
  induction engines generalizing g with
  | nil => cases ha
  | cons e rest ih =>
    rw [admissionsOfAll, List.mem_append] at ha
    rcases ha with ha | ha
    · exact environment_of_mem_admission? ha
    · split at ha
      · cases ha
      · exact ih ha

theorem runner_of_mem_exchanges {env : Environment} {log : List Admission}
    (hLog : ∀ a ∈ log, a.environment = env) {x : Exchange}
    (hx : x ∈ log.flatMap Admission.exchanges) : x.runner = env.runner := by
  obtain ⟨a, ha, hx⟩ := List.mem_flatMap.mp hx
  rw [(Admission.of_mem_exchanges hx).2.2.1, hLog a ha]

variable (g : Registry) (env : Environment)

theorem register_concluded (e : Engine) :
    Concluded ((g.admission? env e).flatMap Admission.exchanges) (g.register env e).result := by
  rw [admission?]
  cases hKnown : g.knows e.id with
  | true =>
    rw [if_pos rfl, (register_of_knows env hKnown).1]
    exact .answered fun x hx => by cases hx
  | false =>
    let a : Admission := ⟨g, env, e⟩
    rw [if_neg Bool.false_ne_true, (register_of_new env hKnown).1, List.flatMap_singleton]
    change Concluded a.exchanges (if a.verified.interruptedAt.isSome then _ else _)
    rcases env.completes_or_exists e e.roles g.ledger with
      hAll | ⟨earlier, r, later, hRoles, hBefore, hStops⟩
    · have hNone : a.verified.interruptedAt = none := Admission.interruptedAt_of_completes hAll
      rw [hNone]
      exact .answered fun x hx => hAll.replied hx
    · have hFirst : a.environment.InterruptedFirst a.engine a.registry.ledger earlier r later :=
        ⟨hRoles, hBefore, hStops⟩
      obtain ⟨executable, d, _, hReply, _, hExchange⟩ := hStops.examination
      rw [Admission.interruptedAt_of_interruptedFirst hFirst, Admission.exchanges,
        Environment.exchanges, hFirst.course_eq, List.flatMap_append, List.flatMap_singleton]
      rw [show a.environment = env from rfl, show a.engine = e from rfl,
        show a.registry = g from rfl, hExchange]
      exact .cut hReply

theorem registerAll_concluded (engines : List Engine) :
    Concluded ((g.admissionsOfAll env engines).flatMap Admission.exchanges)
      (g.registerAll env engines).result := by
  induction engines generalizing g with
  | nil => exact .answered fun x hx => by cases hx
  | cons e rest ih =>
    have hFirst := g.register_concluded env e
    rw [admissionsOfAll, registerAll, List.flatMap_append]
    generalize (g.admission? env e).flatMap Admission.exchanges = xs at hFirst
    cases hResult : (g.register env e).result with
    | error cause =>
      rw [hResult] at hFirst
      rw [List.flatMap_nil, List.append_nil]
      exact hFirst
    | ok =>
      rw [hResult] at hFirst
      cases hFirst with
      | answered hAnswered => exact (ih _).append_left hAnswered

theorem register_closes (e : Engine) :
    let outcome := g.register env e
    Closes env.runner g.ledger.calls outcome.registry.ledger.calls outcome.result :=
  (g.register_concluded env e).closes (g.run_register env e).grows fun _ hx =>
    runner_of_mem_exchanges (fun _ => environment_of_mem_admission?) hx

theorem registerAll_closes (engines : List Engine) :
    let outcome := g.registerAll env engines
    Closes env.runner g.ledger.calls outcome.registry.ledger.calls outcome.result :=
  (g.registerAll_concluded env engines).closes (g.run_registerAll env engines).grows fun _ hx =>
    runner_of_mem_exchanges (fun _ => environment_of_mem_admissionsOfAll) hx

end Registry

end TranscodingEngines
