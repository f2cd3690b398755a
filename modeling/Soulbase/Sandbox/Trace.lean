/-
# The calls of a request

`course_of_runs` lists the ways in which `Sandbox::execute` can go, whatever it is answered:
it stops in the checks, the reservation fails, or the checks have left a `Clearance`, an
executor is called once, and what follows depends on its answer alone.
-/

import Soulbase.Sandbox.Manager

namespace Soulbase.Sandbox

open Soulbase.Foundation SandboxComputation

section Parts

variable {α β : Type} {calls : List SandboxCall}

theorem runs_pure_iff {value : α} {result : SandboxResult α} :
    Runs (pure value : SandboxComputation α).run calls result ↔
      calls = [] ∧ result = .ok value :=
  runs_done_iff

theorem runs_ofResult_iff {given result : SandboxResult α} :
    Runs (ofResult given).run calls result ↔ calls = [] ∧ result = given :=
  runs_done_iff

theorem runs_call_bind_iff {op : SandboxOp} {second : op.Answer → SandboxComputation β}
    {result : SandboxResult β} :
    Runs (call op >>= second).run calls result ↔
      ∃ answer rest, calls = ⟨op, answer⟩ :: rest ∧ Runs (second answer).run rest result :=
  runs_call_iff

theorem runs_ofResult_bind_iff {given : SandboxResult α} {second : α → SandboxComputation β}
    {result : SandboxResult β} :
    Runs (ofResult given >>= second).run calls result ↔
      (∃ error, given = .error error ∧ calls = [] ∧ result = .error error) ∨
        ∃ value, given = .ok value ∧ Runs (second value).run calls result := by
  cases given with
  | error error =>
      constructor
      · intro h
        obtain ⟨hcalls, hresult⟩ := runs_done_iff.mp h
        exact .inl ⟨error, rfl, hcalls, hresult⟩
      · rintro (⟨_, herror, rfl, rfl⟩ | ⟨_, hok, _⟩)
        · cases herror
          exact .done _
        · cases hok
  | ok value =>
      constructor
      · exact fun h => .inr ⟨value, rfl, h⟩
      · rintro (⟨_, herror, _, _⟩ | ⟨_, hok, h⟩)
        · cases herror
        · cases hok
          exact h

theorem runs_ofResult_bind_ok_iff {given : SandboxResult α} {second : α → SandboxComputation β}
    {value : β} :
    Runs (ofResult given >>= second).run calls (.ok value) ↔
      ∃ middle, given = .ok middle ∧ Runs (second middle).run calls (.ok value) := by
  rw [runs_ofResult_bind_iff]
  constructor
  · rintro (⟨_, _, _, hok⟩ | h)
    · cases hok
    · exact h
  · exact .inr

end Parts

/-- A call of the checks before the reservation. -/
def SandboxOp.isCheck : SandboxOp → Bool
  | now | isRevoked _ | build .. | validate .. => true
  | reserve _ | commit _ | rollback _ | emit _ | execute .. => false

/-- A call of an executor. -/
def SandboxOp.isExecute : SandboxOp → Bool
  | execute .. => true
  | now | isRevoked _ | build .. | validate .. | reserve _ | commit _ | rollback _ | emit _ =>
      false

theorem isExecute_of_isCheck {op : SandboxOp} (h : op.isCheck = true) : op.isExecute = false := by
  cases op <;> first | rfl | cases h

/-- What `ensure_grant_active` has called where it lets a grant pass. -/
def GrantActive (grant : Grant) (calls : List SandboxCall) : Prop :=
  (grant.expiresAt ≤ 0 ∧ calls = []) ∨
    ∃ now, calls = [⟨.now, now⟩] ∧ now.timestampMillis < grant.expiresAt

/-- What `ensure_consent` has called where it lets a consent pass. -/
def ConsentActive (consent : Consent) (calls : List SandboxCall) : Prop :=
  (consent.expiresAt = none ∧ calls = []) ∨
    ∃ expiresAt now, consent.expiresAt = some expiresAt ∧ calls = [⟨.now, now⟩] ∧
      now.timestampMillis < expiresAt.asMillis

/-- What `ensure_consent` has called where it lets an operation pass. -/
def Consented (required : Bool) (grant : Grant) (calls : List SandboxCall) : Prop :=
  (required = false ∧ calls = []) ∨
    ∃ consent, grant.consent = some consent ∧ ConsentActive consent calls

/-- What the checks have found where they let a request pass. -/
structure Clearance (sandbox : Sandbox) (request : ExecuteRequest) where
  /-- What the builder made. -/
  profile : Profile
  /-- What was chosen. -/
  capability : Capability
  /-- What is to be reserved. -/
  reservation : Budget
  /-- Readings of the clock for the grant. -/
  grantCalls : List SandboxCall
  /-- Readings of the clock for the consent. -/
  consentCalls : List SandboxCall
  active : GrantActive request.grant grantCalls
  selected : selectCapability sandbox.crates profile request.op = .ok capability
  consented : Consented (requiresConsent sandbox.crates capability request.op profile)
    request.grant consentCalls
  registered : sandbox.registered capability.kind = true
  estimated : estimateBudget sandbox.crates request.op = .ok reservation

namespace Clearance

variable {sandbox : Sandbox} {request : ExecuteRequest}

/-- The calls of the checks. -/
def calls (clearance : Clearance sandbox request) : List SandboxCall :=
  clearance.grantCalls ++
    [⟨.isRevoked request.grant, .ok false⟩,
      ⟨.build request.grant request.manifest request.policy, .ok clearance.profile⟩] ++
    clearance.consentCalls ++ [⟨.validate clearance.profile clearance.capability, .ok ()⟩]

/-- The builder of the evidence, from a reading of the clock. -/
def builder (clearance : Clearance sandbox request) (startedAt : DateTime) : EvidenceBuilder where
  profile := clearance.profile
  capability := clearance.capability
  envelopeId := request.envelopeId
  startedAt := startedAt

end Clearance

section Checks

variable {sandbox : Sandbox} {request : ExecuteRequest} {grant : Grant} {consent : Consent}
variable {crates : Crates} {capability : Capability} {op : ExecOp} {profile : Profile}
variable {calls : List SandboxCall}

theorem grantActive_of_runs (h : Runs (ensureGrantActive grant).run calls (.ok ())) :
    GrantActive grant calls := by
  unfold ensureGrantActive at h
  split at h
  case isTrue hexpires =>
    obtain ⟨now, rest, rfl, hrest⟩ := runs_call_bind_iff.mp h
    obtain ⟨rfl, hok⟩ := runs_ofResult_iff.mp hrest
    have hlater := rejectIf_eq_ok_iff.mp hok.symm
    exact .inr ⟨now, rfl, by simpa using hlater⟩
  case isFalse hexpires =>
    obtain ⟨rfl, _⟩ := runs_pure_iff.mp h
    exact .inl ⟨by simpa using hexpires, rfl⟩

theorem consentActive_of_runs (h : Runs (ensureUnexpired consent).run calls (.ok ())) :
    ConsentActive consent calls := by
  unfold ensureUnexpired at h
  split at h
  case h_1 hexpires =>
    obtain ⟨rfl, _⟩ := runs_pure_iff.mp h
    exact .inl ⟨hexpires, rfl⟩
  case h_2 expiresAt hexpires =>
    obtain ⟨now, rest, rfl, hrest⟩ := runs_call_bind_iff.mp h
    obtain ⟨rfl, hok⟩ := runs_ofResult_iff.mp hrest
    have hlater := rejectIf_eq_ok_iff.mp hok.symm
    exact .inr ⟨expiresAt, now, hexpires, rfl, by simpa using hlater⟩

theorem consented_of_runs
    (h : Runs (ensureConsent crates grant capability op profile).run calls (.ok ())) :
    Consented (requiresConsent crates capability op profile) grant calls := by
  unfold ensureConsent at h
  split at h
  case isTrue hrequired =>
    obtain ⟨consent, hconsent, h⟩ := runs_ofResult_bind_ok_iff.mp h
    exact .inr ⟨consent, okOr_eq_ok_iff.mp hconsent, consentActive_of_runs h⟩
  case isFalse hrequired =>
    obtain ⟨rfl, _⟩ := runs_pure_iff.mp h
    exact .inl ⟨by simpa using hrequired, rfl⟩

theorem GrantActive.checks {grant : Grant} {calls : List SandboxCall}
    (h : GrantActive grant calls) :
    ∀ call ∈ calls, call.1.isCheck = true := by
  rcases h with ⟨_, rfl⟩ | ⟨now, rfl, _⟩ <;> simp [SandboxOp.isCheck]

theorem Consented.checks {required : Bool} {grant : Grant} {calls : List SandboxCall}
    (h : Consented required grant calls) : ∀ call ∈ calls, call.1.isCheck = true := by
  rcases h with ⟨_, rfl⟩ | ⟨consent, _, ⟨_, rfl⟩ | ⟨expiresAt, now, _, rfl, _⟩⟩ <;>
    simp [SandboxOp.isCheck]

theorem Clearance.checks (clearance : Clearance sandbox request) :
    ∀ call ∈ clearance.calls, call.1.isCheck = true := by
  intro call hcall
  simp only [Clearance.calls, List.mem_append, List.mem_cons, List.not_mem_nil, or_false] at hcall
  rcases hcall with ((hgrant | rfl | rfl) | hconsent) | rfl
  · exact clearance.active.checks call hgrant
  · rfl
  · rfl
  · exact clearance.consented.checks call hconsent
  · rfl

/-- Where the checks return, they have left a clearance. -/
theorem clearance_of_runs {cleared : Profile × Capability × Budget}
    (h : Runs (authorize sandbox request).run calls (.ok cleared)) :
    ∃ clearance : Clearance sandbox request, calls = clearance.calls ∧
      cleared = (clearance.profile, clearance.capability, clearance.reservation) := by
  obtain ⟨_, _, _, rfl, hadmitted, hestimate⟩ := runs_bind_ok_iff.mp h
  obtain ⟨reservation, hestimated, hreturn⟩ := runs_ofResult_bind_ok_iff.mp hestimate
  obtain ⟨rfl, hok⟩ := runs_pure_iff.mp hreturn
  cases hok
  obtain ⟨grantCalls, _, _, rfl, hactive, hrevocation⟩ := runs_bind_ok_iff.mp hadmitted
  obtain ⟨_, _, rfl, hanswered⟩ := runs_call_bind_iff.mp hrevocation
  obtain ⟨revoked, rfl, hknown⟩ := runs_ofResult_bind_ok_iff.mp hanswered
  obtain ⟨_, hrevoked, hbuild⟩ := runs_ofResult_bind_ok_iff.mp hknown
  obtain rfl := rejectIf_eq_ok_iff.mp hrevoked
  obtain ⟨_, _, rfl, hbuilt⟩ := runs_call_bind_iff.mp hbuild
  obtain ⟨profile, rfl, hselect⟩ := runs_ofResult_bind_ok_iff.mp hbuilt
  obtain ⟨capability, hselected, hconsent⟩ := runs_ofResult_bind_ok_iff.mp hselect
  obtain ⟨consentCalls, _, _, rfl, hconsented, hguard⟩ := runs_bind_ok_iff.mp hconsent
  obtain ⟨_, _, rfl, hguarded⟩ := runs_call_bind_iff.mp hguard
  obtain ⟨_, rfl, hregistry⟩ := runs_ofResult_bind_ok_iff.mp hguarded
  obtain ⟨_, hregistered, hfound⟩ := runs_ofResult_bind_ok_iff.mp hregistry
  obtain ⟨rfl, hok⟩ := runs_pure_iff.mp hfound
  cases hok
  exact ⟨{
    profile := profile
    capability := capability
    reservation := reservation
    grantCalls := grantCalls
    consentCalls := consentCalls
    active := grantActive_of_runs hactive
    selected := hselected
    consented := consented_of_runs hconsented
    registered := by simpa using rejectIf_eq_ok_iff.mp hregistered
    estimated := hestimated }, by simp [Clearance.calls], rfl⟩

theorem checks_ofResult {α : Type} (result : SandboxResult α) :
    (ofResult result).run.CallsOnly (SandboxOp.isCheck · = true) :=
  Program.callsOnly_done result

theorem checks_call {op : SandboxOp} (h : op.isCheck = true) :
    (call op).run.CallsOnly (SandboxOp.isCheck · = true) :=
  Program.callsOnly_perform h

theorem checks_ensureGrantActive :
    (ensureGrantActive grant).run.CallsOnly (SandboxOp.isCheck · = true) := by
  unfold ensureGrantActive
  split
  case isTrue =>
    apply callsOnly_fallible_bind (checks_call rfl)
    intro now
    exact checks_ofResult _
  case isFalse => exact Program.callsOnly_done _

theorem checks_ensureConsent :
    (ensureConsent crates grant capability op profile).run.CallsOnly
      (SandboxOp.isCheck · = true) := by
  unfold ensureConsent
  split
  case isTrue =>
    apply callsOnly_fallible_bind (checks_ofResult _)
    intro consent
    unfold ensureUnexpired
    split
    case h_1 => exact Program.callsOnly_done _
    case h_2 =>
      apply callsOnly_fallible_bind (checks_call rfl)
      intro now
      exact checks_ofResult _
  case isFalse => exact Program.callsOnly_done _

theorem checks_lookUp :
    (lookUp sandbox request).run.CallsOnly (SandboxOp.isCheck · = true) := by
  apply callsOnly_fallible_bind (checks_call rfl)
  intro built
  apply callsOnly_fallible_bind (checks_ofResult _)
  intro profile
  apply callsOnly_fallible_bind (checks_ofResult _)
  intro capability
  apply callsOnly_fallible_bind checks_ensureConsent
  intro _
  apply callsOnly_fallible_bind (checks_call rfl)
  intro accepted
  apply callsOnly_fallible_bind (checks_ofResult _)
  intro _
  apply callsOnly_fallible_bind (checks_ofResult _)
  intro _
  exact Program.callsOnly_done _

/-- Admission makes the calls of the checks only. -/
theorem checks_admission :
    (admission sandbox request).run.CallsOnly (SandboxOp.isCheck · = true) := by
  apply callsOnly_fallible_bind checks_ensureGrantActive
  intro _
  apply callsOnly_fallible_bind (checks_call rfl)
  intro answer
  apply callsOnly_fallible_bind (checks_ofResult _)
  intro revoked
  apply callsOnly_fallible_bind (checks_ofResult _)
  intro _
  exact checks_lookUp

/-- The checks call nothing else. -/
theorem checks_authorize :
    (authorize sandbox request).run.CallsOnly (SandboxOp.isCheck · = true) := by
  apply callsOnly_fallible_bind checks_admission
  intro accepted
  apply callsOnly_fallible_bind (checks_ofResult _)
  intro reservation
  exact Program.callsOnly_done _

end Checks

/-! ## The whole request -/

section Course

variable {sandbox : Sandbox} {request : ExecuteRequest}

namespace Clearance

/-- The digest of the operation. -/
def inputDigest (_ : Clearance sandbox request) : Option DataDigest :=
  some (sandbox.crates.digestValue request.op.toValue)

/-- The event that is emitted before the operation. -/
def beginEvent (clearance : Clearance sandbox request) (startedAt : DateTime) : EvidenceEvent :=
  .begin ((clearance.builder startedAt).beginEvidence clearance.inputDigest)

/-- What is opened for the operation. -/
def opened (clearance : Clearance sandbox request) (startedAt : DateTime) : List SandboxCall :=
  [⟨.reserve clearance.reservation, .ok ()⟩, ⟨.now, startedAt⟩,
    ⟨.emit (clearance.beginEvent startedAt), ()⟩]

/-- The calls up to the one of the executor. -/
def opening (clearance : Clearance sandbox request) (startedAt : DateTime) : List SandboxCall :=
  clearance.calls ++ clearance.opened startedAt

/-- The call of the executor. -/
def executed (clearance : Clearance sandbox request) (answer : SandboxResult ExecResult) :
    SandboxCall :=
  ⟨.execute clearance.capability.kind clearance.profile request.op, answer⟩

/-- The event that is emitted for an error of the executor. -/
def failedEvent (clearance : Clearance sandbox request) (startedAt finishedAt : DateTime)
    (err : SandboxError) : EvidenceEvent :=
  failedEvidence (clearance.builder startedAt) clearance.inputDigest err finishedAt

/-- The event that is emitted for a result of the executor. -/
def finishedEvent (clearance : Clearance sandbox request) (startedAt finishedAt : DateTime)
    (execResult : ExecResult) : EvidenceEvent :=
  finishedEvidence sandbox.crates (clearance.builder startedAt) clearance.inputDigest execResult
    finishedAt

end Clearance

/-- The calls before the one of the executor do not call one. -/
theorem Clearance.opening_isExecute (clearance : Clearance sandbox request)
    (startedAt : DateTime) : ∀ call ∈ clearance.opening startedAt, call.1.isExecute = false := by
  intro call hcall
  rcases List.mem_append.mp hcall with hcheck | hopened
  · exact isExecute_of_isCheck (clearance.checks call hcheck)
  · simp only [Clearance.opened, List.mem_cons, List.not_mem_nil, or_false] at hopened
    rcases hopened with rfl | rfl | rfl <;> rfl

/-- The calls that `execute` makes, and what it returns. -/
inductive Course (sandbox : Sandbox) (request : ExecuteRequest) :
    List SandboxCall → SandboxResult ExecutionOutcome → Prop
  /-- A check has failed. -/
  | refused {calls : List SandboxCall} {error : SandboxError}
      (hchecks : ∀ call ∈ calls, call.1.isCheck = true) :
      Course sandbox request calls (.error error)
  /-- The reservation has failed. -/
  | unreserved (clearance : Clearance sandbox request) (error : SandboxError) :
      Course sandbox request
        (clearance.calls ++ [⟨.reserve clearance.reservation, .error error⟩]) (.error error)
  /-- The executor has failed. -/
  | failed (clearance : Clearance sandbox request) (startedAt finishedAt : DateTime)
      (err : SandboxError) :
      Course sandbox request
        (clearance.opening startedAt ++ clearance.executed (.error err) ::
          [⟨.rollback clearance.reservation, ()⟩, ⟨.now, finishedAt⟩,
            ⟨.emit (clearance.failedEvent startedAt finishedAt err), ()⟩])
        (.ok { begin := clearance.beginEvent startedAt
               finish := clearance.failedEvent startedAt finishedAt err
               result := .failure err.toPublic.code (some err.toPublic.message) })
  /-- The executor has used more than a limit. -/
  | overused (clearance : Clearance sandbox request) (startedAt : DateTime)
      (execResult : ExecResult) (error : SandboxError)
      (husage : ensureUsageWithinLimits clearance.profile execResult.usage = .error error) :
      Course sandbox request
        (clearance.opening startedAt ++ clearance.executed (.ok execResult) :: []) (.error error)
  /-- The executor has returned a result. -/
  | finished (clearance : Clearance sandbox request) (startedAt finishedAt : DateTime)
      (execResult : ExecResult)
      (husage : ensureUsageWithinLimits clearance.profile execResult.usage = .ok ()) :
      Course sandbox request
        (clearance.opening startedAt ++ clearance.executed (.ok execResult) ::
          [⟨.commit execResult.usage.toBudget, ()⟩, ⟨.now, finishedAt⟩,
            ⟨.emit (clearance.finishedEvent startedAt finishedAt execResult), ()⟩])
        (.ok { begin := clearance.beginEvent startedAt
               finish := clearance.finishedEvent startedAt finishedAt execResult
               result := execResult })

variable {builder : EvidenceBuilder} {inputDigest : Option DataDigest} {calls : List SandboxCall}
variable {result : SandboxResult ExecutionOutcome}

theorem calls_of_closeFailed {reservation : Budget} {err : SandboxError}
    (h : Runs (closeFailed builder inputDigest reservation err).run calls result) :
    ∃ finishedAt, calls = [⟨.rollback reservation, ()⟩, ⟨.now, finishedAt⟩,
        ⟨.emit (failedEvidence builder inputDigest err finishedAt), ()⟩] ∧
      result = .ok { begin := .begin (builder.beginEvidence inputDigest)
                     finish := failedEvidence builder inputDigest err finishedAt
                     result := .failure err.toPublic.code (some err.toPublic.message) } := by
  obtain ⟨_, _, rfl, hrolledBack⟩ := runs_call_bind_iff.mp h
  obtain ⟨finishedAt, _, rfl, hread⟩ := runs_call_bind_iff.mp hrolledBack
  obtain ⟨_, _, rfl, hemitted⟩ := runs_call_bind_iff.mp hread
  obtain ⟨rfl, hresult⟩ := runs_pure_iff.mp hemitted
  exact ⟨finishedAt, rfl, hresult⟩

theorem calls_of_closeFinished {crates : Crates} {execResult : ExecResult}
    (h : Runs (closeFinished crates builder inputDigest execResult).run calls result) :
    (∃ error, ensureUsageWithinLimits builder.profile execResult.usage = .error error ∧
        calls = [] ∧ result = .error error) ∨
      ∃ finishedAt, ensureUsageWithinLimits builder.profile execResult.usage = .ok () ∧
        calls = [⟨.commit execResult.usage.toBudget, ()⟩, ⟨.now, finishedAt⟩,
          ⟨.emit (finishedEvidence crates builder inputDigest execResult finishedAt), ()⟩] ∧
        result = .ok { begin := .begin (builder.beginEvidence inputDigest)
                       finish := finishedEvidence crates builder inputDigest execResult finishedAt
                       result := execResult } := by
  rcases runs_ofResult_bind_iff.mp h with hover | ⟨_, husage, hwithin⟩
  · exact .inl hover
  · obtain ⟨_, _, rfl, hcommitted⟩ := runs_call_bind_iff.mp hwithin
    obtain ⟨finishedAt, _, rfl, hread⟩ := runs_call_bind_iff.mp hcommitted
    obtain ⟨_, _, rfl, hemitted⟩ := runs_call_bind_iff.mp hread
    obtain ⟨rfl, hresult⟩ := runs_pure_iff.mp hemitted
    exact .inr ⟨finishedAt, husage, rfl, hresult⟩

/-- All that a request can do. -/
theorem course_of_runs (h : Runs (sandbox.execute request).run calls result) :
    Course sandbox request calls result := by
  rcases runs_fallible_bind_iff.mp h with ⟨error, hrefused, rfl⟩ | ⟨_, _, _, rfl, hcleared, hrest⟩
  · exact .refused (checks_authorize.of_runs hrefused)
  · obtain ⟨clearance, rfl, rfl⟩ := clearance_of_runs hcleared
    obtain ⟨reserved, _, rfl, hreserved⟩ := runs_call_bind_iff.mp hrest
    rcases runs_ofResult_bind_iff.mp hreserved with ⟨error, rfl, rfl, rfl⟩ | ⟨_, rfl, hopen⟩
    · exact .unreserved clearance error
    · obtain ⟨startedAt, _, rfl, hread⟩ := runs_call_bind_iff.mp hopen
      obtain ⟨_, _, rfl, hbegun⟩ := runs_call_bind_iff.mp hread
      obtain ⟨answer, _, rfl, hanswered⟩ := runs_call_bind_iff.mp hbegun
      cases answer with
      | error err =>
          obtain ⟨finishedAt, rfl, rfl⟩ := calls_of_closeFailed hanswered
          have hcourse := Course.failed clearance startedAt finishedAt err
          rw [Clearance.opening, List.append_assoc] at hcourse
          exact hcourse
      | ok execResult =>
          rcases calls_of_closeFinished hanswered with
            ⟨error, husage, rfl, rfl⟩ | ⟨finishedAt, husage, rfl, rfl⟩
          · have hcourse := Course.overused clearance startedAt execResult error husage
            rw [Clearance.opening, List.append_assoc] at hcourse
            exact hcourse
          · have hcourse := Course.finished clearance startedAt finishedAt execResult husage
            rw [Clearance.opening, List.append_assoc] at hcourse
            exact hcourse

end Course

end Soulbase.Sandbox
