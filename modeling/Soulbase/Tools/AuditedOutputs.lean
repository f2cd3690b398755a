/-
# The digest of an output in the audit

The event after an invocation carries a digest of its output, with which an auditor compares what
was returned. It should be the digest of the output as it is returned.

The loop keeps the digest that the sandbox has recorded with the last operation, as a tagged text
in Base64 of the output before the obligations. Only where no operation comes with a digest is
the returned output digested, in hexadecimal. So the digest is right iff none was recorded, and
the sandbox records one with every result. Two invocations that return the same are then told
apart by what the obligations have hidden.
-/

import Soulbase.Sandbox.Trace
import Soulbase.Tools.Invocations

namespace Soulbase.Tools

open Soulbase.Foundation
open Soulbase.Sandbox (ExecOp ExecResult ExecuteRequest ExecutionOutcome SandboxResult)

/-- The digest in the evidence of an operation, as the event shows it. -/
def recordedDigest : ToolStep → Option String
  | ⟨.execute _, .ok outcome⟩ =>
      match outcome.finish with
      | .finish finish => finish.outputsDigest.map fun digest => digest.algo ++ ":" ++ digest.b64
      | .begin _ => none
  | _ => none

/-- The last digest that is recorded in some calls. -/
def lastRecorded (steps : List ToolStep) : Option String :=
  (steps.filterMap recordedDigest).getLast?

/-- An invocation that has executed its operations and returned a result. -/
structure Audited (crates : ToolCrates) where
  request : InvokeRequest
  steps : List ToolStep
  result : InvokeResult
  event : ToolInvokeEnd
  runs : Runs (request.invoke crates) steps (.ok result)
  ended : ⟨.onInvokeEnd event, ()⟩ ∈ steps

/-- The event carries the digest of the output that is returned. -/
def Audited.Matches {crates : ToolCrates} (audited : Audited crates) : Prop :=
  ∃ output, audited.result.output = some output ∧
    audited.event.outputDigest = some (digestJson crates output)

section Loop

variable {crates : ToolCrates} {request : InvokeRequest} {course last : Course}
variable {steps before after : List ToolStep}

theorem lastRecorded_append :
    lastRecorded (before ++ after) = (lastRecorded after).or (lastRecorded before) := by
  rw [lastRecorded, List.filterMap_append, List.getLast?_append]
  rfl

theorem lastRecorded_cons {step : ToolStep} :
    lastRecorded (step :: steps) = (lastRecorded steps).or (recordedDigest step) := by
  have hsingle : lastRecorded [step] = recordedDigest step := by
    unfold lastRecorded
    cases hrecorded : recordedDigest step <;> simp [hrecorded]
  rw [← hsingle, ← lastRecorded_append]
  rfl

/-- Where nothing has failed, the status says so. -/
def Course.Sound (course : Course) : Prop := course.failure = none → course.status = .ok

theorem Course.Sound.conclude {result : ExecResult} (h : course.Sound) :
    (course.conclude result).Sound := by
  unfold Course.conclude
  dsimp only
  split
  · exact h
  · intro hfailure
    cases hfailure

theorem Course.Sound.take {execution : SandboxResult ExecutionOutcome} (h : course.Sound) :
    (course.take execution).Sound := by
  cases execution with
  | error err =>
      intro hfailure
      cases hfailure
  | ok outcome =>
      have haccount : (course.account outcome.finish).Sound := by
        cases outcome.finish <;> exact h
      exact haccount.conclude

theorem Course.outputDigest_conclude {result : ExecResult} :
    (course.conclude result).outputDigest = course.outputDigest := by
  unfold conclude
  dsimp only
  split <;> rfl

/-- An operation replaces the digest where its evidence comes with one. -/
theorem Course.outputDigest_take {asked : ExecuteRequest}
    {execution : SandboxResult ExecutionOutcome} :
    (course.take execution).outputDigest =
      (recordedDigest ⟨.execute asked, execution⟩).or course.outputDigest := by
  cases execution with
  | error err => rfl
  | ok outcome =>
      rw [take, outputDigest_conclude, recordedDigest]
      cases hfinish : outcome.finish with
      | begin evidence => rfl
      | finish evidence => exact Option.orElse_eq_or

/-- The loop ends with the last digest that was recorded. -/
theorem outputDigest_of_runs {ops : List ExecOp} {idx : ℕ} (hsound : course.Sound)
    (h : Runs (request.runOps idx ops course) steps last) :
    last.Sound ∧ last.outputDigest = (lastRecorded steps).or course.outputDigest := by
  induction ops generalizing idx course steps with
  | nil =>
      obtain ⟨rfl, rfl⟩ := runs_done_iff.mp h
      exact ⟨hsound, rfl⟩
  | cons op rest ih =>
      obtain ⟨execution, after, rfl, hrest⟩ := runs_call_iff.mp h
      rw [lastRecorded_cons, Option.or_assoc, ← Course.outputDigest_take]
      change Runs (if _ then _ else _) _ _ at hrest
      split at hrest
      · obtain ⟨rfl, rfl⟩ := runs_done_iff.mp hrest
        exact ⟨hsound.take, rfl⟩
      · exact ih hsound.take hrest

/-- An operation that leaves no failure has returned a result. -/
theorem Course.ok_of_take {execution : SandboxResult ExecutionOutcome}
    (h : (course.take execution).failure = none) :
    ∃ outcome, execution = .ok outcome ∧ outcome.result.ok = true := by
  cases execution with
  | error err => cases h
  | ok outcome =>
      refine ⟨outcome, rfl, ?_⟩
      by_contra hresult
      rw [take, conclude, if_neg hresult] at h
      cases h

/-- Where the loop has not failed, an operation has returned a result. -/
theorem executed_of_runs {ops : List ExecOp} {idx : ℕ} (hne : ops ≠ [])
    (hfailure : last.failure = none) (h : Runs (request.runOps idx ops course) steps last) :
    ∃ asked outcome, ⟨.execute asked, .ok outcome⟩ ∈ steps ∧ outcome.result.ok = true := by
  cases ops with
  | nil => exact absurd rfl hne
  | cons op rest =>
      obtain ⟨execution, after, rfl, hrest⟩ := runs_call_iff.mp h
      have hfirst : (course.take execution).failure = none := by
        by_contra hfailed
        change Runs (if _ then _ else _) _ _ at hrest
        rw [if_pos (Option.isSome_iff_ne_none.mpr hfailed)] at hrest
        obtain ⟨_, rfl⟩ := runs_done_iff.mp hrest
        exact hfailed hfailure
      obtain ⟨outcome, rfl, hok⟩ := Course.ok_of_take hfirst
      exact ⟨_, outcome, List.mem_cons_self, hok⟩

end Loop

/-- A call that neither executes an operation nor reports the end. -/
def ToolOp.isQuiet : ToolOp → Bool
  | execute _ | onInvokeEnd _ => false
  | _ => true

/-- What some calls of an invocation say of the event at its end. -/
structure Reports (crates : ToolCrates) (steps : List ToolStep) (event : ToolInvokeEnd)
    (result : InvokeResult) : Prop where
  only : ∀ other, ⟨.onInvokeEnd other, ()⟩ ∈ steps → other = event
  digest : ∃ output, result.output = some output ∧
    event.outputDigest = (lastRecorded steps).or (some (digestJson crates output))
  executed : ∃ asked outcome, ⟨.execute asked, .ok outcome⟩ ∈ steps ∧ outcome.result.ok = true

section Invocation

variable {crates : ToolCrates} {request : InvokeRequest} {course : Course}
variable {steps before after : List ToolStep} {output : Json.Value} {startedAt : Instant}
variable {result : InvokeResult} {event : ToolInvokeEnd}

theorem lastRecorded_of_quiet (h : ∀ step ∈ steps, step.1.isQuiet = true) :
    lastRecorded steps = none := by
  have hnone : ∀ step ∈ steps, recordedDigest step = none := by
    rintro ⟨op, answer⟩ hmem
    have hquiet := h _ hmem
    cases op with
    | execute _ | onInvokeEnd _ => cases hquiet
    | _ => rfl
  rw [lastRecorded, List.filterMap_eq_nil_iff.mpr hnone]
  rfl

/-- Quiet calls before it do not matter. -/
theorem Reports.cons {step : ToolStep} (h : Reports crates steps event result)
    (hstep : step.1.isQuiet = true) : Reports crates (step :: steps) event result where
  only other hmem := by
    rcases List.mem_cons.mp hmem with rfl | hmem
    · cases hstep
    · exact h.only other hmem
  digest := by
    have hquiet : ∀ other ∈ [step], other.1.isQuiet = true := by simpa using hstep
    rw [← List.singleton_append, lastRecorded_append, lastRecorded_of_quiet hquiet,
      Option.or_none]
    exact h.digest
  executed := by
    obtain ⟨asked, outcome, hmem, hok⟩ := h.executed
    exact ⟨asked, outcome, List.mem_cons_of_mem _ hmem, hok⟩

/-- Neither do quiet calls after it. -/
theorem Reports.append (h : Reports crates steps event result)
    (hafter : ∀ step ∈ after, step.1.isQuiet = true) :
    Reports crates (steps ++ after) event result where
  only other hmem := by
    rcases List.mem_append.mp hmem with hmem | hmem
    · exact h.only other hmem
    · cases hafter _ hmem
  digest := by
    rw [lastRecorded_append, lastRecorded_of_quiet hafter, Option.none_or]
    exact h.digest
  executed := by
    obtain ⟨asked, outcome, hmem, hok⟩ := h.executed
    exact ⟨asked, outcome, List.mem_append_left _ hmem, hok⟩

/-- The event comes after the loop. -/
theorem Reports.ended (hloop : ∀ step ∈ steps, ∃ asked, step.1 = .execute asked)
    (houtput : result.output = some output) (endedAt : Instant)
    (hdigest : event.outputDigest = (lastRecorded steps).or (some (digestJson crates output)))
    (hexecuted : ∃ asked outcome, ⟨.execute asked, .ok outcome⟩ ∈ steps ∧
      outcome.result.ok = true) :
    Reports crates (steps ++ [⟨.now, endedAt⟩, ⟨.onInvokeEnd event, ()⟩]) event result where
  only other hmem := by
    rcases List.mem_append.mp hmem with hmem | hmem
    · obtain ⟨asked, hop⟩ := hloop _ hmem
      cases hop
    · simp only [List.mem_cons, List.not_mem_nil, or_false] at hmem
      rcases hmem with hmem | hmem <;> cases hmem
      rfl
  digest := by
    rw [lastRecorded_append]
    exact ⟨output, houtput, hdigest⟩
  executed := by
    obtain ⟨asked, outcome, hmem, hok⟩ := hexecuted
    exact ⟨asked, outcome, List.mem_append_left _ hmem, hok⟩

/-- The report after the loop. -/
theorem steps_of_report (h : Runs (request.report crates course output startedAt) steps ()) :
    ∃ duration endedAt recorded, (∀ step ∈ recorded, step.1.isQuiet = true) ∧
      steps = [⟨.now, endedAt⟩] ++
        ([⟨.onInvokeEnd (request.endEvent crates course output duration), ()⟩] ++ recorded) := by
  obtain ⟨endedAt, _, rfl, hread⟩ := runs_call_iff.mp h
  obtain ⟨_, _, rfl, hended⟩ := runs_call_iff.mp hread
  obtain ⟨_, _, rfl, hrecorded⟩ := runs_call_iff.mp hended
  obtain ⟨_, _, rfl, hdone⟩ := runs_call_iff.mp hrecorded
  obtain ⟨rfl, _⟩ := runs_done_iff.mp hdone
  refine ⟨_, endedAt, _, ?_, rfl⟩
  intro step hstep
  simp only [List.mem_cons, List.not_mem_nil, or_false] at hstep
  rcases hstep with rfl | rfl <;> rfl

theorem quiet_keep (result : InvokeResult) :
    (request.keep result).CallsOnly fun op => op.isQuiet = true := by
  unfold InvokeRequest.keep
  cases request.idempotencyKey with
  | none => exact Program.callsOnly_done _
  | some key => exact Program.callsOnly_perform rfl

/-- A result is returned where nothing has failed. -/
theorem of_runs_conclude (h : Runs (request.conclude course output) steps (.ok result)) :
    course.failure = none ∧ result.output = some output ∧
      ∀ step ∈ steps, step.1.isQuiet = true := by
  unfold InvokeRequest.conclude at h
  cases hfailure : course.failure with
  | some err =>
      rw [hfailure] at h
      cases (runs_done_iff.mp h).2
  | none =>
      rw [hfailure] at h
      obtain ⟨kept, _, after, rfl, hkeep, hreturn⟩ := runs_bind_iff.mp h
      obtain ⟨rfl, hresult⟩ := runs_done_iff.mp hreturn
      cases hresult
      refine ⟨rfl, rfl, ?_⟩
      rw [List.append_nil]
      exact (quiet_keep _).of_runs hkeep

/-- What becomes of the output leaves the digest alone. -/
theorem Course.settle_of_failure {plan : PreflightPlan} (hsound : course.Sound)
    (h : (course.settle crates plan).1.failure = none) :
    (course.settle crates plan).1.status = .ok ∧
      (course.settle crates plan).1.outputDigest = course.outputDigest ∧
        course.failure = none := by
  have hstays : (course.settle crates plan).1 = course := by
    revert h
    unfold settle
    split
    · split
      · intro hfailure
        cases hfailure
      · split
        · intro hfailure
          cases hfailure
        · exact fun _ => rfl
    · exact fun _ => rfl
  rw [hstays] at h ⊢
  exact ⟨hsound h, rfl, h⟩

/-- The part under the guard. -/
theorem reports_of_runs_run (h : Runs (request.run crates startedAt) steps (.ok result)) :
    ∃ event, Reports crates steps event result := by
  unfold InvokeRequest.run at h
  split at h
  case isTrue => cases (runs_done_iff.mp h).2
  case isFalse hempty =>
    have hne : request.plan.plannedOps ≠ [] := fun hnil => hempty (by rw [hnil]; rfl)
    obtain ⟨_, _, rfl, hbegun⟩ := runs_call_iff.mp h
    change Runs (request.runOps 0 request.plan.plannedOps {} >>= _) _ _ at hbegun
    obtain ⟨loop, course, _, rfl, hloop, hlooped⟩ := runs_bind_iff.mp hbegun
    obtain ⟨_, _, concluding, rfl, hreport, hconclude⟩ := runs_bind_iff.mp hlooped
    obtain ⟨duration, endedAt, recorded, hrecorded, rfl⟩ := steps_of_report hreport
    obtain ⟨hfailure, houtput, hconcluding⟩ := of_runs_conclude hconclude
    obtain ⟨hsound, hdigest⟩ := outputDigest_of_runs (fun _ => rfl) hloop
    obtain ⟨hstatus, hsettled, hunfailed⟩ := Course.settle_of_failure hsound hfailure
    have hexecutes := (request.executes_runOps _ _ _).of_runs hloop
    rw [Option.or_none] at hdigest
    have hevent : (request.endEvent crates (course.settle crates request.plan).1
        (course.settle crates request.plan).2 duration).outputDigest =
          (lastRecorded loop).or
            (some (digestJson crates (course.settle crates request.plan).2)) := by
      rw [InvokeRequest.endEvent, if_pos hstatus, hsettled, hdigest, Option.orElse_eq_or]
    have hreports := Reports.ended hexecutes houtput endedAt hevent
      (executed_of_runs hne hunfailed hloop)
    have hafter : ∀ step ∈ recorded ++ concluding, step.1.isQuiet = true := by
      intro step hstep
      exact (List.mem_append.mp hstep).elim (hrecorded step) (hconcluding step)
    have hrest := hreports.append hafter
    simp only [List.append_assoc, List.cons_append, List.nil_append] at hrest ⊢
    exact ⟨_, hrest.cons rfl⟩

theorem reports_of_runs_runGuarded
    (h : Runs (request.runGuarded crates startedAt) steps (.ok result)) :
    ∃ event, Reports crates steps event result := by
  unfold InvokeRequest.runGuarded at h
  split at h
  · obtain ⟨_, _, rfl, hlocked⟩ := runs_call_iff.mp h
    change Runs (request.run crates startedAt >>= _) _ _ at hlocked
    obtain ⟨_, returned, _, rfl, hrun, hunlock⟩ := runs_bind_iff.mp hlocked
    obtain ⟨_, _, rfl, hdone⟩ := runs_call_iff.mp hunlock
    obtain ⟨rfl, hresult⟩ := runs_done_iff.mp hdone
    cases hresult
    obtain ⟨event, hreports⟩ := reports_of_runs_run hrun
    have hafter : ∀ step ∈ [(⟨.unlock request.lockKey, ()⟩ : ToolStep)],
        step.1.isQuiet = true := by simp [ToolOp.isQuiet]
    exact ⟨event, (hreports.append hafter).cons rfl⟩
  · exact reports_of_runs_run h

/-- The whole invocation, unless it is answered from the store. -/
theorem reports_of_runs_invoke (h : Runs (request.invoke crates) steps (.ok result))
    (hended : ⟨.onInvokeEnd event, ()⟩ ∈ steps) : Reports crates steps event result := by
  suffices hreports : ∃ event, Reports crates steps event result by
    obtain ⟨other, hreports⟩ := hreports
    rwa [hreports.only event hended]
  unfold InvokeRequest.invoke at h
  cases hkey : request.idempotencyKey with
  | none =>
      rw [hkey] at h
      obtain ⟨_, _, rfl, hstarted⟩ := runs_call_iff.mp h
      obtain ⟨event, hreports⟩ := reports_of_runs_runGuarded hstarted
      exact ⟨event, hreports.cons rfl⟩
  | some key =>
      rw [hkey] at h
      obtain ⟨_, _, rfl, hstarted⟩ := runs_call_iff.mp h
      obtain ⟨found, _, rfl, hfound⟩ := runs_call_iff.mp hstarted
      cases found with
      | some hit =>
          obtain ⟨rfl, _⟩ := runs_done_iff.mp hfound
          simp at hended
      | none =>
          obtain ⟨event, hreports⟩ := reports_of_runs_runGuarded hfound
          exact ⟨event, (hreports.cons rfl).cons rfl⟩

end Invocation

/-! ## The audit -/

namespace Audited

variable {crates : ToolCrates} (first second : Audited crates)

/-- What the event says of the output. -/
theorem exists_output (audited : Audited crates) :
    ∃ output, audited.result.output = some output ∧ audited.event.outputDigest =
      (lastRecorded audited.steps).or (some (digestJson crates output)) :=
  (reports_of_runs_invoke audited.runs audited.ended).digest

/-- A digest that is recorded is a tagged text. -/
theorem colon_mem_of_lastRecorded {steps : List ToolStep} {digest : String}
    (h : lastRecorded steps = some digest) : ':' ∈ digest.toList := by
  obtain ⟨step, -, hstep⟩ := List.mem_filterMap.mp (List.mem_of_getLast? h)
  unfold recordedDigest at hstep
  split at hstep
  · split at hstep
    · obtain ⟨recorded, -, rfl⟩ := Option.map_eq_some_iff.mp hstep
      simp
    · cases hstep
  · cases hstep

/-- Hexadecimal digits are not a tagged text. -/
theorem recorded_ne (steps : List ToolStep) (output : Json.Value)
    (hhex : ∀ bytes, ':' ∉ (crates.hashing.sha256Hex bytes).toList) :
    lastRecorded steps ≠ some (digestJson crates output) := by
  intro hrecorded
  exact hhex _ (colon_mem_of_lastRecorded hrecorded)

theorem matches_iff_unrecorded
    (hhex : ∀ bytes, ':' ∉ (crates.hashing.sha256Hex bytes).toList) :
    first.Matches ↔ lastRecorded first.steps = none := by
  obtain ⟨output, houtput, hdigest⟩ := first.exists_output
  rw [Matches, hdigest, houtput]
  cases hrecorded : lastRecorded first.steps with
  | none => simp
  | some digest =>
      have hne := recorded_ne first.steps output hhex
      rw [hrecorded] at hne
      simpa using hne

theorem outputDigest_eq_iff_lastRecorded
    (hhex : ∀ bytes, ':' ∉ (crates.hashing.sha256Hex bytes).toList)
    (hsame : first.result.output = second.result.output) :
    first.event.outputDigest = second.event.outputDigest ↔
      lastRecorded first.steps = lastRecorded second.steps := by
  obtain ⟨output, houtput, hdigest⟩ := first.exists_output
  obtain ⟨output', houtput', hdigest'⟩ := second.exists_output
  obtain rfl : output = output' := Option.some.inj (houtput.symm.trans (hsame.trans houtput'))
  have hfirst := recorded_ne first.steps output hhex
  have hsecond := recorded_ne second.steps output hhex
  rw [hdigest, hdigest']
  revert hfirst hsecond
  cases lastRecorded first.steps <;> cases lastRecorded second.steps <;> simp +contextual [eq_comm]

/-- The event of an invocation has the digest of its output exactly where the sandbox has
recorded none, and two invocations that return the same have one digest exactly where the same
was recorded last. -/
theorem digests_iff (hhex : ∀ bytes, ':' ∉ (crates.hashing.sha256Hex bytes).toList) :
    (first.Matches ↔ lastRecorded first.steps = none) ∧
      (first.result.output = second.result.output →
        (first.event.outputDigest = second.event.outputDigest ↔
          lastRecorded first.steps = lastRecorded second.steps)) :=
  ⟨matches_iff_unrecorded first hhex, outputDigest_eq_iff_lastRecorded first second hhex⟩

/-- The operations are executed by a sandbox. -/
def ExecutedBy (audited : Audited crates) (sandbox : Sandbox.Sandbox) : Prop :=
  ∀ asked execution, ⟨.execute asked, execution⟩ ∈ audited.steps →
    ∃ calls, Runs (sandbox.execute asked).run calls execution

/-- The sandbox records a digest with every result. -/
theorem recordedDigest_of_ok {sandbox : Sandbox.Sandbox} {asked : ExecuteRequest}
    {calls : List Sandbox.SandboxCall} {outcome : ExecutionOutcome}
    (h : Runs (sandbox.execute asked).run calls (.ok outcome)) (hok : outcome.result.ok = true) :
    ∃ digest, recordedDigest ⟨.execute asked, .ok outcome⟩ = some digest := by
  cases Sandbox.course_of_runs h with
  | failed clearance startedAt finishedAt err => cases hok
  | finished clearance startedAt finishedAt execResult husage => exact ⟨_, rfl⟩

/-- So with the sandbox as it is, the event never has the digest of the output. -/
theorem not_matches_of_executedBy {audited : Audited crates} {sandbox : Sandbox.Sandbox}
    (hhex : ∀ bytes, ':' ∉ (crates.hashing.sha256Hex bytes).toList)
    (h : audited.ExecutedBy sandbox) : ¬audited.Matches := by
  obtain ⟨asked, outcome, hmem, hok⟩ :=
    (reports_of_runs_invoke audited.runs audited.ended).executed
  obtain ⟨calls, hcalls⟩ := h asked _ hmem
  obtain ⟨digest, hdigest⟩ := recordedDigest_of_ok hcalls hok
  rw [matches_iff_unrecorded audited hhex, lastRecorded, List.getLast?_eq_none_iff,
    List.filterMap_eq_nil_iff]
  intro hnone
  rw [hnone _ hmem] at hdigest
  cases hdigest

end Audited

namespace EchoedOk

/-- What the operation returns. -/
def output : Json.Value := .object [("body", .string "ok")]

/-- The bytes of the output. -/
def outputBytes : List UInt8 := [123, 34, 98, 111, 100, 121, 34, 58, 34, 111, 107, 34, 125]

/-- The bytes of the arguments. -/
def argsBytes : List UInt8 :=
  [123, 34, 117, 114, 108, 34, 58, 34, 104, 116, 116, 112, 115, 58, 47, 47, 101, 120, 97, 109,
    112, 108, 101, 46, 99, 111, 109, 47, 116, 101, 115, 116, 34, 125]

/-- The digests of both, in hexadecimal. -/
def sha256Hex (bytes : List UInt8) : String :=
  if bytes = outputBytes then
    "d672df351d7f2ec5a6f370dd8f50cc8e92bdddbb0987d6a7629ee34b3a17e6c3"
  else "2366a2e00d8c5688c6029e1e34e27fef9da4fcf8be3afc62f5425017cff46ead"

/-- Other crates, as far as they matter for the two. -/
def crates : ToolCrates :=
  { echoCrates with
    sandbox :=
      { echoCrates.sandbox with
        digestValue := fun _ =>
          { algo := "sha256", b64 := "1nLfNR1/LsWm83Ddj1DMjpK93bsJh9anYp7jSzoX5sM=", size := 13 } }
    hashing := { echoCrates.hashing with sha256Hex := sha256Hex }
    toVec := fun value => some (if (value.get "body").isSome then outputBytes else argsBytes) }

/-- The sandbox records the digest of the output. -/
def outcome (request : ExecuteRequest) : ExecutionOutcome :=
  let builder : Sandbox.EvidenceBuilder :=
    { profile := (echoRequest request.grant.tenant.asStr).plan.profile
      capability := .netHttp "example.com" none (some "https") ["GET"]
      envelopeId := request.envelopeId
      startedAt := ⟨0⟩ }
  let result := ExecResult.success output { calls := 1 } []
  { begin := .begin (builder.beginEvidence none)
    finish := Sandbox.finishedEvidence crates.sandbox builder none result ⟨0⟩
    result := result }

/-- What is answered to the invocation. -/
def reply : ToolChoice
  | .execute request => .ok (outcome request)
  | op => echoChoice "ok" op

/-- The calls of the invocation. -/
def steps : List ToolStep := (((echoRequest "tenant-a").invoke crates).answered reply).1

/-- The event at its end. -/
def event : ToolInvokeEnd :=
  (echoRequest "tenant-a").endEvent crates
    { budgetUsed := { calls := 1 }
      outputDigest := some "sha256:1nLfNR1/LsWm83Ddj1DMjpK93bsJh9anYp7jSzoX5sM=" } output 0

theorem runs : Runs ((echoRequest "tenant-a").invoke crates) steps
    (.ok (.ok output (some ⟨"call-1"⟩))) :=
  runs_answered reply _

/-- The invocation. -/
def audited : Audited crates where
  request := echoRequest "tenant-a"
  steps := steps
  result := .ok output (some ⟨"call-1"⟩)
  event := event
  runs := runs
  ended := List.mem_of_getElem? (i := 6) rfl

theorem colon_notMem (bytes : List UInt8) : ':' ∉ (crates.hashing.sha256Hex bytes).toList := by
  change ':' ∉ (sha256Hex bytes).toList
  unfold sha256Hex
  split <;> decide

end EchoedOk

/-- The digest of the event is not the one of the output. -/
theorem not_matches_echoed :
    ¬ ∀ (crates : ToolCrates) (audited : Audited crates),
        (∀ bytes, ':' ∉ (crates.hashing.sha256Hex bytes).toList) → audited.Matches := by
  intro h
  obtain ⟨output, houtput, hdigest⟩ := h EchoedOk.crates EchoedOk.audited EchoedOk.colon_notMem
  obtain rfl : EchoedOk.output = output := Option.some.inj houtput
  exact absurd hdigest (by decide)

theorem digests_iff_echoed :
    (EchoedOk.audited.Matches ↔ lastRecorded EchoedOk.steps = none) ∧
      (EchoedOk.audited.result.output = EchoedOk.audited.result.output →
        (EchoedOk.audited.event.outputDigest = EchoedOk.audited.event.outputDigest ↔
          lastRecorded EchoedOk.steps = lastRecorded EchoedOk.steps)) :=
  Audited.digests_iff EchoedOk.audited EchoedOk.audited EchoedOk.colon_notMem

end Soulbase.Tools
