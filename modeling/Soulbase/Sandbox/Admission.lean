/-
# Admission

What `Sandbox::execute` does up to the lookup of the executor, with the default parts. At
a reading of the clock, and where nothing is revoked, the checks are answered in one way
only, `DefaultSandbox.admits_iff_answered`.
-/

import Soulbase.Sandbox.Defaults

namespace Soulbase.Sandbox

open Soulbase.Foundation SandboxComputation SandboxError

/-- A consent is there, and has not expired. -/
def ConsentedAt (now : DateTime) (consent : Option Consent) : Prop :=
  ∃ given, consent = some given ∧
    ∀ expiresAt, given.expiresAt = some expiresAt → now.timestampMillis < expiresAt.asMillis

namespace DefaultSandbox

variable (host : DefaultSandbox) (now : DateTime)

/-- The answer of a call that has one, at a reading of the clock and where nothing is
revoked. -/
def AnswersAt : SandboxCall → Prop
  | ⟨.now, answer⟩ => answer = now
  | ⟨.isRevoked _, answer⟩ => answer = .ok false
  | call => host.Answers call

/-- A request is turned down neither by the selection of a capability, nor for its consent, nor
by the guard, nor for a missing executor. -/
def Admits (request : ExecuteRequest) : Prop :=
  ∀ calls result, Runs (admission host.sandbox request).run calls result →
    (∀ call ∈ calls, host.AnswersAt now call) → ∃ accepted, result = .ok accepted

/-- The answers of the checks. -/
def reply : (op : SandboxOp) → op.Answer
  | .now => now
  | .isRevoked _ => .ok false
  | .build grant manifest policy => DefaultProfileBuilder.build host.hashing grant manifest policy
  | .validate profile capability => DefaultPolicyGuard.validate profile capability
  | .reserve request => NoopBudgetMeter.reserve request
  | .execute .. => .error (capabilityMissing "executor not registered")
  | .commit _ | .rollback _ | .emit _ => ()

variable {host now} {request : ExecuteRequest}

theorem answersAt_iff_of_isCheck {call : SandboxCall} (h : call.1.isCheck = true) :
    host.AnswersAt now call ↔ call.2 = host.reply now call.1 := by
  obtain ⟨op, answer⟩ := call
  cases op <;> first | exact Iff.rfl | cases h

/-- The checks are answered one way only. -/
theorem admits_iff_answered :
    host.Admits now request ↔
      ∃ accepted,
        answeredValue (host.reply now) (admission host.sandbox request) = .ok accepted := by
  have hcheck : ∀ {calls result}, Runs (admission host.sandbox request).run calls result →
      ∀ call ∈ calls, call.1.isCheck = true := fun hruns => checks_admission.of_runs hruns
  constructor
  · intro h
    have hruns := runs_answered (host.reply now) (admission host.sandbox request).run
    apply h _ _ hruns
    intro call hcall
    rw [answersAt_iff_of_isCheck (hcheck hruns call hcall)]
    exact answer_of_mem_answered call hcall
  · rintro ⟨accepted, haccepted⟩ calls result hruns hanswers
    have hanswered := hruns.eq_answered fun call hcall =>
      (answersAt_iff_of_isCheck (hcheck hruns call hcall)).mp (hanswers call hcall)
    refine ⟨accepted, ?_⟩
    rw [← haccepted, answeredValue, hanswered]

/-- What the part from the profile on comes to. -/
theorem answeredValue_lookUp :
    answeredValue (host.reply now) (lookUp host.sandbox request) = do
      let profile ← DefaultProfileBuilder.build host.hashing request.grant request.manifest
        request.policy
      let capability ← selectCapability host.crates profile request.op
      answeredValue (host.reply now)
        (ensureConsent host.crates request.grant capability request.op profile)
      DefaultPolicyGuard.validate profile capability
      rejectIf (!(host.executors capability.kind).isSome)
        (capabilityMissing "executor not registered")
      return (profile, capability) := by
  simp only [lookUp, answeredValue_bind]
  rfl

/-- What comes before looks at the grant only. -/
theorem answeredValue_admission :
    answeredValue (host.reply now) (admission host.sandbox request) = (do
      answeredValue (host.reply now) (ensureGrantActive request.grant)
      answeredValue (host.reply now) (lookUp host.sandbox request)) := by
  simp only [admission, answeredValue_bind]
  rfl

/-- The rule of consents, at a reading of the clock. -/
theorem ensureConsent_eq_ok_iff {crates : Crates} {grant : Grant} {capability : Capability}
    {op : ExecOp} {profile : Profile} {value : Unit} :
    answeredValue (host.reply now) (ensureConsent crates grant capability op profile) = .ok value ↔
      (requiresConsent crates capability op profile = true → ConsentedAt now grant.consent) := by
  unfold ensureConsent
  split
  case isTrue hrequired =>
    rw [answeredValue_bind, bind_eq_ok_iff]
    change (∃ consent, okOr _ grant.consent = .ok consent ∧ _) ↔ _
    simp only [hrequired, forall_const, okOr_eq_ok_iff, ConsentedAt]
    refine exists_congr fun consent => and_congr_right fun _ => ?_
    unfold ensureUnexpired
    cases consent.expiresAt with
    | none => simp
    | some expiresAt =>
        change rejectIf (expiresAt.asMillis ≤ now.timestampMillis) _ = .ok value ↔ _
        simp
  case isFalse hrequired => simp [hrequired]

/-- A request whose grant does not expire, for the profile that is built for it. -/
theorem admits_iff {profile : Profile} (hforever : request.grant.expiresAt = 0)
    (hprofile : DefaultProfileBuilder.build host.hashing request.grant request.manifest
      request.policy = .ok profile) :
    host.Admits now request ↔ ∃ capability,
      selectCapability host.crates profile request.op = .ok capability ∧
        (requiresConsent host.crates capability request.op profile = true →
          ConsentedAt now request.grant.consent) ∧
            DefaultPolicyGuard.validate profile capability = .ok () ∧
              (host.executors capability.kind).isSome = true := by
  have hactive : answeredValue (host.reply now) (ensureGrantActive request.grant) = .ok () := by
    rw [ensureGrantActive, hforever]
    rfl
  rw [admits_iff_answered, answeredValue_admission, hactive, answeredValue_lookUp, hprofile]
  simp only [bind_eq_ok_iff, ensureConsent_eq_ok_iff, Except.ok.injEq, exists_eq_left',
    rejectIf_eq_ok_iff]
  constructor
  · rintro ⟨_, _, _, capability, hselected, _, hconsent, _, haccepted, _, hregistered, _⟩
    exact ⟨capability, hselected, hconsent, haccepted, by simpa using hregistered⟩
  · rintro ⟨capability, hselected, hconsent, haccepted, hregistered⟩
    exact ⟨_, (), trivial, capability, hselected, (), hconsent, (), haccepted, (),
      by simpa using hregistered, rfl⟩

end DefaultSandbox

end Soulbase.Sandbox
