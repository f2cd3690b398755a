/-
# Closing what was opened

A request makes one reservation and begins the evidence of one call. It closes both
wherever the executor fails and wherever its usage keeps to the limits of the profile.
Where the usage exceeds a limit, the effects of the executor have happened and both stay
open.
-/

import Mathlib.Data.List.Basic
import Soulbase.Sandbox.Trace

namespace Soulbase.Sandbox

open Soulbase.Foundation

/-- A commit or a rollback. -/
def SandboxOp.settles : SandboxOp → Bool
  | commit _ | rollback _ => true
  | now | isRevoked _ | build .. | validate .. | reserve _ | emit _ | execute .. => false

/-- The end of the evidence of the same call. -/
def SandboxOp.ends (opened : BeginEvidence) : SandboxOp → Bool
  | emit (.finish ended) =>
      ended.envelopeId = opened.envelopeId && ended.callId = opened.callId
  | emit (.begin _) | now | isRevoked _ | build .. | validate .. | reserve _ | commit _
  | rollback _ | execute .. => false

/-- Every reservation that was made is settled once, and every evidence that was begun is
ended once. -/
structure Closed (calls : List SandboxCall) : Prop where
  reservations : ∀ before after request,
    calls = before ++ ⟨.reserve request, .ok ()⟩ :: after → after.countP (·.1.settles) = 1
  evidence : ∀ before after opened,
    calls = before ++ ⟨.emit (.begin opened), ()⟩ :: after → after.countP (·.1.ends opened) = 1

/-- The usage keeps to the limits. -/
structure WithinLimits (limits : Limits) (usage : ExecUsage) : Prop where
  bytesIn : ∀ max, limits.maxBytesIn = some max → usage.bytesIn ≤ max
  bytesOut : ∀ max, limits.maxBytesOut = some max → usage.bytesOut ≤ max
  files : ∀ max, limits.maxFiles = some max → usage.fileCount ≤ max

/-- The check of one limit. -/
theorem any_exceeds_eq_false_iff {limit : Option UInt64} {amount : UInt64} :
    limit.any (amount > ·) = false ↔ ∀ max, limit = some max → amount ≤ max := by
  cases limit <;> simp

theorem ensureUsageWithinLimits_eq_ok_iff {profile : Profile} {usage : ExecUsage} :
    ensureUsageWithinLimits profile usage = .ok () ↔ WithinLimits profile.limits usage := by
  simp only [ensureUsageWithinLimits, rejectIf_bind_eq_ok_iff, rejectIf_eq_ok_iff,
    any_exceeds_eq_false_iff]
  constructor
  · intro h
    exact ⟨h.1, h.2.1, h.2.2⟩
  · intro h
    exact ⟨h.bytesIn, h.bytesOut, h.files⟩

/-- A reservation that was made, or the begin of some evidence. -/
def SandboxCall.opens : SandboxCall → Bool
  | ⟨.reserve _, .ok _⟩ => true
  | ⟨.emit (.begin _), _⟩ => true
  | _ => false

section Opens

variable {calls : List SandboxCall} {sandbox : Sandbox} {request : ExecuteRequest}

theorem not_mem_of_opens {call : SandboxCall} (hopens : call.opens = true)
    (h : ∀ call ∈ calls, call.opens = false) : call ∉ calls := by
  intro hmem
  rw [h call hmem] at hopens
  cases hopens

/-- Where nothing is opened, all is closed. -/
theorem closed_of_opens_nothing (h : ∀ call ∈ calls, call.opens = false) : Closed calls where
  reservations := by
    rintro before after request rfl
    cases h ⟨.reserve request, .ok ()⟩ (by simp)
  evidence := by
    rintro before after opened rfl
    cases h ⟨.emit (.begin opened), ()⟩ (by simp)

theorem opens_of_isCheck {call : SandboxCall} (h : call.1.isCheck = true) :
    call.opens = false := by
  obtain ⟨op, answer⟩ := call
  cases op <;> first | rfl | cases h

theorem Clearance.opens_calls (clearance : Clearance sandbox request) :
    ∀ call ∈ clearance.calls, call.opens = false :=
  fun call hcall => opens_of_isCheck (clearance.checks call hcall)

section Executed

variable {clearance : Clearance sandbox request} {startedAt : DateTime}
variable {answer : SandboxResult ExecResult} {rest before after : List SandboxCall}

/-- What follows the reservation. -/
theorem after_reserve (hrest : ∀ call ∈ rest, call.opens = false) {reserved : Budget}
    (h : clearance.opening startedAt ++ clearance.executed answer :: rest =
      before ++ ⟨.reserve reserved, .ok ()⟩ :: after) :
    after = ⟨.now, startedAt⟩ :: ⟨.emit (clearance.beginEvent startedAt), ()⟩ ::
      clearance.executed answer :: rest := by
  have hbefore : ⟨.reserve reserved, .ok ()⟩ ∉ clearance.calls :=
    not_mem_of_opens rfl clearance.opens_calls
  have hafter : ⟨.reserve reserved, .ok ()⟩ ∉ ⟨.now, startedAt⟩ ::
      ⟨.emit (clearance.beginEvent startedAt), ()⟩ :: clearance.executed answer :: rest := by
    simp only [List.mem_cons, not_or]
    exact ⟨nofun, nofun, nofun, not_mem_of_opens rfl hrest⟩
  rw [Clearance.opening, List.append_assoc] at h
  exact ((List.append_cons_inj_of_notMem hbefore hafter).mp h).2.2.symm

/-- What follows the begin of the evidence. -/
theorem after_begin (hrest : ∀ call ∈ rest, call.opens = false) {opened : BeginEvidence}
    (h : clearance.opening startedAt ++ clearance.executed answer :: rest =
      before ++ ⟨.emit (.begin opened), ()⟩ :: after) :
    opened = (clearance.builder startedAt).beginEvidence clearance.inputDigest ∧
      after = clearance.executed answer :: rest := by
  have hbefore : ⟨.emit (.begin opened), ()⟩ ∉
      clearance.calls ++ [⟨.reserve clearance.reservation, .ok ()⟩, ⟨.now, startedAt⟩] := by
    simp only [List.mem_append, List.mem_cons, List.not_mem_nil, or_false, not_or]
    exact ⟨not_mem_of_opens rfl clearance.opens_calls, nofun, nofun⟩
  have hafter : ⟨.emit (.begin opened), ()⟩ ∉ clearance.executed answer :: rest := by
    simp only [List.mem_cons, not_or]
    exact ⟨nofun, not_mem_of_opens rfl hrest⟩
  have hcalls :
      (clearance.calls ++ [⟨.reserve clearance.reservation, .ok ()⟩, ⟨.now, startedAt⟩]) ++
      ⟨.emit (clearance.beginEvent startedAt), ()⟩ :: clearance.executed answer :: rest =
        before ++ ⟨.emit (.begin opened), ()⟩ :: after := by
    rw [← h, Clearance.opening, List.append_assoc, List.append_assoc]
    rfl
  obtain ⟨_, hbegin, rfl⟩ := (List.append_cons_inj_of_notMem hbefore hafter).mp hcalls
  cases hbegin
  exact ⟨rfl, rfl⟩

/-- What is opened for the operation is closed by what follows the call of the executor,
or not at all. -/
theorem closed_executed_iff (hrest : ∀ call ∈ rest, call.opens = false) :
    Closed (clearance.opening startedAt ++ clearance.executed answer :: rest) ↔
      rest.countP (·.1.settles) = 1 ∧
        rest.countP
          (·.1.ends ((clearance.builder startedAt).beginEvidence clearance.inputDigest)) = 1 := by
  constructor
  · intro h
    constructor
    · have hsettled := h.reservations clearance.calls _ clearance.reservation
        (by rw [Clearance.opening, List.append_assoc]; rfl)
      simpa [SandboxOp.settles, Clearance.executed] using hsettled
    · have hended := h.evidence (clearance.calls ++ [⟨.reserve clearance.reservation, .ok ()⟩,
        ⟨.now, startedAt⟩]) (clearance.executed answer :: rest) _
        (by rw [Clearance.opening, List.append_assoc, List.append_assoc]; rfl)
      simpa [SandboxOp.ends, Clearance.executed] using hended
  · rintro ⟨hsettles, hends⟩
    constructor
    · intro before after reserved hcalls
      rw [after_reserve hrest hcalls]
      simpa [SandboxOp.settles, Clearance.executed] using hsettles
    · intro before after opened hcalls
      obtain ⟨rfl, rfl⟩ := after_begin hrest hcalls
      simpa [SandboxOp.ends, Clearance.executed] using hends

theorem closed_failed {finishedAt : DateTime} {err : SandboxError} :
    Closed (clearance.opening startedAt ++ clearance.executed (.error err) ::
      [⟨.rollback clearance.reservation, ()⟩, ⟨.now, finishedAt⟩,
        ⟨.emit (clearance.failedEvent startedAt finishedAt err), ()⟩]) := by
  have hrest : ∀ call ∈ ([⟨.rollback clearance.reservation, ()⟩, ⟨.now, finishedAt⟩,
      ⟨.emit (clearance.failedEvent startedAt finishedAt err), ()⟩] : List SandboxCall),
      call.opens = false := by
    simp [SandboxCall.opens, Clearance.failedEvent, failedEvidence]
  apply (closed_executed_iff hrest).mpr
  constructor
  · rfl
  · simp [SandboxOp.ends, Clearance.failedEvent, failedEvidence, EvidenceBuilder.endEvidence,
      EvidenceBuilder.beginEvidence]

theorem closed_finished {finishedAt : DateTime} {execResult : ExecResult} :
    Closed (clearance.opening startedAt ++ clearance.executed (.ok execResult) ::
      [⟨.commit execResult.usage.toBudget, ()⟩, ⟨.now, finishedAt⟩,
        ⟨.emit (clearance.finishedEvent startedAt finishedAt execResult), ()⟩]) := by
  apply (closed_executed_iff
    (by simp [SandboxCall.opens, Clearance.finishedEvent, finishedEvidence])).mpr
  constructor
  · rfl
  · simp [SandboxOp.ends, Clearance.finishedEvent, finishedEvidence,
      EvidenceBuilder.endEvidence, EvidenceBuilder.beginEvidence]

theorem not_closed_executed :
    ¬Closed (clearance.opening startedAt ++ clearance.executed answer :: []) := by
  intro h
  have hsettles := ((closed_executed_iff (by simp)).mp h).1
  simp at hsettles

end Executed

end Opens

/-- Where an executor returns a result, its usage keeps to the limits of the profile. -/
def UsageWithinLimits (calls : List SandboxCall) : Prop :=
  ∀ kind profile op execResult, ⟨.execute kind profile op, .ok execResult⟩ ∈ calls →
    WithinLimits profile.limits execResult.usage

section Usage

variable {sandbox : Sandbox} {request : ExecuteRequest} {calls : List SandboxCall}

theorem usageWithinLimits_of_no_execute (h : ∀ call ∈ calls, call.1.isExecute = false) :
    UsageWithinLimits calls := by
  intro kind profile op execResult hmem
  cases h _ hmem

theorem usageWithinLimits_executed_iff {clearance : Clearance sandbox request}
    {startedAt : DateTime} {answer : SandboxResult ExecResult} {rest : List SandboxCall}
    (hrest : ∀ call ∈ rest, call.1.isExecute = false) :
    UsageWithinLimits (clearance.opening startedAt ++ clearance.executed answer :: rest) ↔
      ∀ execResult, answer = .ok execResult →
        WithinLimits clearance.profile.limits execResult.usage := by
  constructor
  · rintro h execResult rfl
    exact h _ _ _ execResult (List.mem_append_right _ List.mem_cons_self)
  · intro h kind profile op execResult hmem
    rcases List.mem_append.mp hmem with hopening | hmem
    · cases clearance.opening_isExecute startedAt _ hopening
    · rcases List.mem_cons.mp hmem with hexecuted | hmem
      · cases hexecuted
        exact h execResult rfl
      · cases hrest _ hmem

end Usage

/-- A request closes what it opens iff the executor, where it returns a result, has kept
to the limits of the profile. -/
theorem closed_iff_usageWithinLimits (sandbox : Sandbox) (request : ExecuteRequest)
    (calls : List SandboxCall) (result : SandboxResult ExecutionOutcome)
    (hruns : Runs (sandbox.execute request).run calls result) :
    Closed calls ↔ UsageWithinLimits calls := by
  cases course_of_runs hruns with
  | refused hchecks =>
      exact iff_of_true
        (closed_of_opens_nothing fun call hcall => opens_of_isCheck (hchecks call hcall))
        (usageWithinLimits_of_no_execute fun call hcall =>
          isExecute_of_isCheck (hchecks call hcall))
  | unreserved clearance error =>
      apply iff_of_true
      · apply closed_of_opens_nothing
        intro call hcall
        rcases List.mem_append.mp hcall with hcheck | hreserve
        · exact clearance.opens_calls call hcheck
        · obtain rfl := List.mem_singleton.mp hreserve
          rfl
      · apply usageWithinLimits_of_no_execute
        intro call hcall
        rcases List.mem_append.mp hcall with hcheck | hreserve
        · exact isExecute_of_isCheck (clearance.checks call hcheck)
        · obtain rfl := List.mem_singleton.mp hreserve
          rfl
  | failed clearance startedAt finishedAt err =>
      apply iff_of_true closed_failed
      exact (usageWithinLimits_executed_iff (by simp [SandboxOp.isExecute])).mpr nofun
  | overused clearance startedAt execResult error husage =>
      apply iff_of_false not_closed_executed
      intro h
      have hwithin := (usageWithinLimits_executed_iff (by simp)).mp h execResult rfl
      rw [ensureUsageWithinLimits_eq_ok_iff.mpr hwithin] at husage
      cases husage
  | finished clearance startedAt finishedAt execResult husage =>
      apply iff_of_true closed_finished
      apply (usageWithinLimits_executed_iff (by simp [SandboxOp.isExecute])).mpr
      intro given hgiven
      cases hgiven
      exact ensureUsageWithinLimits_eq_ok_iff.mp husage

namespace Overuse

/-- Temporary space is granted. -/
def grant : Grant := .forCall "scratch" [.tmpUse]

/-- The profile of that grant, for up to ten bytes. -/
def profile : Profile := { grant.profile with limits := { maxBytesOut := some 10 } }

/-- Eight bytes are asked for. -/
def request : ExecuteRequest := grant.request (.tmpAlloc 8)

/-- A sandbox with temporary space. -/
def sandbox : Sandbox where
  crates := .ascii
  registered kind := kind = .tmpUse

/-- Nothing fails, and the executor uses so many bytes. -/
def reply (used : UInt64) : (op : SandboxOp) → op.Answer
  | .now => ⟨0⟩
  | .isRevoked _ => .ok false
  | .build .. => .ok profile
  | .validate .. => .ok ()
  | .reserve _ => .ok ()
  | .commit _ => ()
  | .rollback _ => ()
  | .emit _ => ()
  | .execute .. => .ok (.success .null { calls := 1, bytesOut := used } [])

/-- The calls of the request and its result. -/
def run (used : UInt64) : List SandboxCall × SandboxResult ExecutionOutcome :=
  (sandbox.execute request).run.answered (reply used)

end Overuse

/-- An executor that uses as many bytes as it was asked for. -/
theorem closed_iff_usageWithinLimits_asked :
    Closed (Overuse.run 8).1 ↔ UsageWithinLimits (Overuse.run 8).1 :=
  closed_iff_usageWithinLimits Overuse.sandbox Overuse.request _ (Overuse.run 8).2
    (runs_answered (Overuse.reply 8) _)

/-- One that writes sixteen bytes leaves a reservation and the evidence open. -/
theorem not_closed_overuse :
    ¬∀ (sandbox : Sandbox) (request : ExecuteRequest) (calls : List SandboxCall)
      (result : SandboxResult ExecutionOutcome),
      Runs (sandbox.execute request).run calls result → Closed calls := by
  intro h
  have hclosed := h Overuse.sandbox Overuse.request _ _ (runs_answered (Overuse.reply 16) _)
  have hsettled := hclosed.reservations ((Overuse.run 16).1.take 3) ((Overuse.run 16).1.drop 4)
    { calls := 1, bytesOut := 8 } rfl
  exact absurd hsettled (by decide)

end Soulbase.Sandbox
