/-
# The reference monitor

No executor is called before the grant, the consent, the guard and the meter have been
asked, whatever they and everything else answer. A request that is turned down before has
left neither evidence nor a reservation.
-/

import Mathlib.Data.List.Basic
import Soulbase.Sandbox.Trace

namespace Soulbase.Sandbox

open Soulbase.Foundation

/-- A call of the evidence sink. -/
def SandboxOp.isEmit : SandboxOp → Bool
  | emit _ => true
  | now | isRevoked _ | build .. | validate .. | reserve _ | commit _ | rollback _ | execute .. =>
      false

/-- A reservation that was made. -/
def SandboxCall.reserves : SandboxCall → Bool
  | ⟨.reserve _, .ok _⟩ => true
  | _ => false

/-- The operations that need a consent: writes, processes, requests that are not `GET` or
`HEAD`, and a browser where the profile is of the high class. -/
def NeedsConsent (crates : Crates) (profile : Profile) : ExecOp → Prop
  | .fsWrite .. | .procExec .. => True
  | .netHttp method _ _ _ =>
      Text.toUppercase crates.upper method ≠ "GET" ∧ Text.toUppercase crates.upper method ≠ "HEAD"
  | .browserNav _ | .browserScreenshot .. => profile.safety = .high
  | .fsRead .. | .fsList _ | .tmpAlloc _ => False

/-- What must have been called, and answered, before an executor is called. -/
structure Authorized (sandbox : Sandbox) (request : ExecuteRequest) (before : List SandboxCall)
    (kind : CapabilityKind) (profile : Profile) (op : ExecOp) : Prop where
  op_eq : op = request.op
  /-- The grant has not expired where the request begins. -/
  unexpired : request.grant.expiresAt ≤ 0 ∨ ∃ now : DateTime,
    [⟨.now, now⟩, ⟨.isRevoked request.grant, .ok false⟩] <+: before ∧
      now.timestampMillis < request.grant.expiresAt
  notRevoked : ⟨.isRevoked request.grant, .ok false⟩ ∈ before
  built : ⟨.build request.grant request.manifest request.policy, .ok profile⟩ ∈ before
  /-- The chosen capability is one of the profile's, of the kind of the operation, and the
  guard has accepted it. -/
  chosen : ∃ capability, selectCapability sandbox.crates profile op = .ok capability ∧
    capability ∈ profile.capabilities ∧ capability.kind = op.kind ∧ kind = capability.kind ∧
      ⟨.validate profile capability, .ok ()⟩ ∈ before
  /-- A consent is there, and has not expired once the profile is built. -/
  consented : NeedsConsent sandbox.crates profile op →
    ∃ consent, request.grant.consent = some consent ∧
      ∀ expiresAt, consent.expiresAt = some expiresAt → ∃ now : DateTime,
        [⟨.build request.grant request.manifest request.policy, .ok profile⟩, ⟨.now, now⟩] <:+:
            before ∧
          now.timestampMillis < expiresAt.asMillis
  registered : sandbox.registered kind = true
  reserved : ∃ reservation, ⟨.reserve reservation, .ok ()⟩ ∈ before

/-- A request whose calls are guarded. -/
structure ReferenceMonitored (sandbox : Sandbox) (request : ExecuteRequest)
    (calls : List SandboxCall) (result : SandboxResult ExecutionOutcome) : Prop where
  once : calls.countP (·.1.isExecute) ≤ 1
  authorized : ∀ before after kind profile op answer,
    calls = before ++ ⟨.execute kind profile op, answer⟩ :: after →
      Authorized sandbox request before kind profile op
  refused : ∀ error, result = .error error → (∀ call ∈ calls, call.1.isExecute = false) →
    ∀ call ∈ calls, call.1.isEmit = false ∧ call.reserves = false

section Checks

variable {sandbox : Sandbox} {request : ExecuteRequest} {crates : Crates}
variable {capability : Capability} {op : ExecOp} {profile : Profile}

/-- The rule of the code is by the capability, and this one is by the operation. -/
theorem requiresConsent_iff (hkind : capability.kind = op.kind) :
    requiresConsent crates capability op profile = true ↔ NeedsConsent crates profile op := by
  cases op <;> cases capability <;> cases hkind <;> simp [requiresConsent, NeedsConsent]

/-- A check neither emits nor reserves. -/
theorem quiet_of_isCheck {call : SandboxCall} (h : call.1.isCheck = true) :
    call.1.isEmit = false ∧ call.reserves = false := by
  obtain ⟨op, answer⟩ := call
  cases op <;> first | exact ⟨rfl, rfl⟩ | cases h

namespace Clearance

variable (clearance : Clearance sandbox request) (startedAt : DateTime)

/-- The calls before the one of the executor have asked for everything that is to be
asked. -/
theorem authorized : Authorized sandbox request (clearance.opening startedAt)
    clearance.capability.kind clearance.profile request.op where
  op_eq := rfl
  unexpired := by
    rcases clearance.active with ⟨hforever, _⟩ | ⟨now, hcalls, hlater⟩
    · exact .inl hforever
    · refine .inr ⟨now, ?_, hlater⟩
      rw [opening, calls, hcalls]
      simp
  notRevoked := by simp [opening, calls]
  built := by simp [opening, calls]
  chosen := by
    obtain ⟨hmem, hkind⟩ := mem_and_kind_of_selectCapability clearance.selected
    exact ⟨clearance.capability, clearance.selected, hmem, hkind, rfl, by simp [opening, calls]⟩
  consented := by
    intro hneeds
    have hkind := (mem_and_kind_of_selectCapability clearance.selected).2
    have hrequired := (requiresConsent_iff hkind).mpr hneeds
    rcases clearance.consented with ⟨hnot, _⟩ | ⟨consent, hconsent, hactive⟩
    · rw [hrequired] at hnot
      cases hnot
    · refine ⟨consent, hconsent, ?_⟩
      intro expiresAt hexpires
      rcases hactive with ⟨hforever, _⟩ | ⟨expiresAt', now, hexpires', hcalls, hlater⟩
      · rw [hforever] at hexpires
        cases hexpires
      · rw [hexpires'] at hexpires
        cases hexpires
        refine ⟨now, ⟨clearance.grantCalls ++ [⟨.isRevoked request.grant, .ok false⟩],
          ⟨.validate clearance.profile clearance.capability, .ok ()⟩ ::
            clearance.opened startedAt, ?_⟩, hlater⟩
        rw [opening, calls, hcalls]
        simp
  registered := clearance.registered
  reserved := ⟨clearance.reservation, by simp [opening, opened]⟩

end Clearance

end Checks

section Monitored

variable {sandbox : Sandbox} {request : ExecuteRequest} {calls : List SandboxCall}
variable {result : SandboxResult ExecutionOutcome}

/-- Before the call of an executor nothing has been done that would have to be undone, and
there is one such call at most. -/
theorem Course.quiet_or_executed (h : Course sandbox request calls result) :
    (∀ call ∈ calls,
        call.1.isExecute = false ∧ call.1.isEmit = false ∧ call.reserves = false) ∨
      ∃ (clearance : Clearance sandbox request) (startedAt : DateTime)
        (answer : SandboxResult ExecResult) (rest : List SandboxCall),
        calls = clearance.opening startedAt ++ clearance.executed answer :: rest ∧
          ∀ call ∈ rest, call.1.isExecute = false := by
  cases h with
  | refused hchecks =>
      left
      intro call hcall
      exact ⟨isExecute_of_isCheck (hchecks call hcall), quiet_of_isCheck (hchecks call hcall)⟩
  | unreserved clearance error =>
      left
      intro call hcall
      rcases List.mem_append.mp hcall with hcheck | hreserve
      · exact ⟨isExecute_of_isCheck (clearance.checks call hcheck),
          quiet_of_isCheck (clearance.checks call hcheck)⟩
      · obtain rfl := List.mem_singleton.mp hreserve
        exact ⟨rfl, rfl, rfl⟩
  | failed clearance startedAt finishedAt err =>
      exact .inr ⟨clearance, startedAt, _, _, rfl, by simp [SandboxOp.isExecute]⟩
  | overused clearance startedAt execResult error husage =>
      exact .inr ⟨clearance, startedAt, _, _, rfl, by simp⟩
  | finished clearance startedAt finishedAt execResult husage =>
      exact .inr ⟨clearance, startedAt, _, _, rfl, by simp [SandboxOp.isExecute]⟩

theorem monitored_of_quiet
    (hquiet : ∀ call ∈ calls,
      call.1.isExecute = false ∧ call.1.isEmit = false ∧ call.reserves = false) :
    ReferenceMonitored sandbox request calls result where
  once := by
    have hnone : calls.countP (·.1.isExecute) = 0 := by
      rw [List.countP_eq_zero]
      intro call hcall
      simp [(hquiet call hcall).1]
    omega
  authorized := by
    rintro before after kind profile op answer rfl
    have hexecute := (hquiet ⟨.execute kind profile op, answer⟩ (by simp)).1
    cases hexecute
  refused := by
    intro error herror hnone call hcall
    exact (hquiet call hcall).2

theorem monitored_of_executed (clearance : Clearance sandbox request) (startedAt : DateTime)
    (answer : SandboxResult ExecResult) {rest : List SandboxCall}
    (hrest : ∀ call ∈ rest, call.1.isExecute = false) :
    ReferenceMonitored sandbox request
      (clearance.opening startedAt ++ clearance.executed answer :: rest) result where
  once := by
    have hbefore : (clearance.opening startedAt).countP (·.1.isExecute) = 0 := by
      rw [List.countP_eq_zero]
      intro call hcall
      simp [clearance.opening_isExecute startedAt call hcall]
    have hafter : rest.countP (·.1.isExecute) = 0 := by
      rw [List.countP_eq_zero]
      intro call hcall
      simp [hrest call hcall]
    rw [List.countP_append, List.countP_cons, hbefore, hafter]
    split <;> omega
  authorized := by
    intro before after kind profile op given hcalls
    have hsplit := (List.append_cons_inj_of_notMem (fun hmem => by
      cases clearance.opening_isExecute startedAt _ hmem) (fun hmem => by
      cases hrest _ hmem)).mp hcalls
    obtain ⟨rfl, hcall, _⟩ := hsplit
    cases hcall
    exact clearance.authorized startedAt
  refused := by
    intro error herror hnone
    cases hnone (clearance.executed answer) (by simp)

end Monitored

/-- `Sandbox::execute` is a reference monitor, whatever its calls are answered. -/
theorem referenceMonitored_of_runs (sandbox : Sandbox) (request : ExecuteRequest)
    (calls : List SandboxCall) (result : SandboxResult ExecutionOutcome)
    (hruns : Runs (sandbox.execute request).run calls result) :
    ReferenceMonitored sandbox request calls result := by
  rcases (course_of_runs hruns).quiet_or_executed with
    hquiet | ⟨clearance, startedAt, answer, rest, rfl, hrest⟩
  · exact monitored_of_quiet hquiet
  · exact monitored_of_executed clearance startedAt answer hrest

namespace ConsentedWrite

/-- Writing below `/data` is granted until the second second, with a consent until the
third. -/
def grant : Grant :=
  { Grant.forCall "writer" [.fsWrite "/data" false] with
    expiresAt := 2000
    consent := some { scopes := [], expiresAt := some ⟨3000⟩, purpose := none } }

/-- The payload is empty. -/
def request : ExecuteRequest := grant.request (.fsWrite "/data/report" "" true)

/-- A sandbox that can write. -/
def sandbox : Sandbox where
  crates :=
    { Crates.ascii with decodeBase64 := fun data => if data = "" then some [] else none }
  registered kind := kind = .fsWrite

/-- It is one second after the epoch, the guard is the default one, and nothing fails. -/
def reply : (op : SandboxOp) → op.Answer
  | .now => ⟨1000000000⟩
  | .isRevoked _ => .ok false
  | .build grant .. => .ok grant.profile
  | .validate profile capability => DefaultPolicyGuard.validate profile capability
  | .reserve _ => .ok ()
  | .commit _ => ()
  | .rollback _ => ()
  | .emit _ => ()
  | .execute .. => .ok (.success .null { calls := 1, fileCount := 1 } [])

/-- The calls of the request and its result. -/
def run : List SandboxCall × SandboxResult ExecutionOutcome :=
  (sandbox.execute request).run.answered reply

end ConsentedWrite

/-- The executor is called, and the request is guarded. -/
theorem referenceMonitored_consentedWrite :
    ConsentedWrite.run.1.countP (·.1.isExecute) = 1 ∧
      ReferenceMonitored ConsentedWrite.sandbox ConsentedWrite.request ConsentedWrite.run.1
        ConsentedWrite.run.2 :=
  ⟨by decide, referenceMonitored_of_runs _ _ _ _ (runs_answered ConsentedWrite.reply _)⟩

end Soulbase.Sandbox
