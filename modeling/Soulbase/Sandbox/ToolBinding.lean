/-
# Grants and their tools

A grant names the tool that it was given for, and so does a manifest. Nothing compares
the two: what the grant and the manifest share is allowed, whoever asks.

`staysOut_iff_turnedDown` lists what turns down a request whose names differ, in every
run: the same checks that turn down one whose names agree.
-/

import Soulbase.Sandbox.GrantBudget

namespace Soulbase.Sandbox

open Soulbase.Foundation SandboxComputation

/-- The request is refused, and no executor is called. -/
def StaysOut (calls : List SandboxCall) (result : SandboxResult ExecutionOutcome) : Prop :=
  (∃ error, result = .error error) ∧ ∀ call ∈ calls, call.1.isExecute = false

/-- The profiles are built by the default builder. -/
def BuiltByDefault (hashing : Hashing) (calls : List SandboxCall) : Prop :=
  ∀ grant manifest policy answer, ⟨.build grant manifest policy, answer⟩ ∈ calls →
    answer = DefaultProfileBuilder.build hashing grant manifest policy

/-- What turns a request down: what it says, or what the clock, the watcher, the guard and
the meter have answered. -/
inductive TurnedDown (sandbox : Sandbox) (hashing : Hashing) (request : ExecuteRequest)
    (calls : List SandboxCall) : Prop
  /-- The grant has expired. -/
  | expired (now : DateTime) (hexpires : 0 < request.grant.expiresAt)
      (hread : [⟨.now, now⟩] <+: calls)
      (hlate : request.grant.expiresAt ≤ now.timestampMillis)
  /-- It has been revoked, or nobody knows. -/
  | revoked (answer : SandboxResult Bool)
      (hasked : ⟨.isRevoked request.grant, answer⟩ ∈ calls) (hanswer : answer ≠ .ok false)
  /-- No capability is shared by the grant, the manifest and the policy. -/
  | nothingShared (hnone : ∀ capability ∈ request.grant.capabilities,
      ¬Permits request.manifest request.policy capability)
  /-- None that is shared covers the operation. -/
  | uncovered (profile : Profile)
      (hbuilt : DefaultProfileBuilder.build hashing request.grant request.manifest
        request.policy = .ok profile)
      (hnone : ∀ capability, selectCapability sandbox.crates profile request.op ≠ .ok capability)
  /-- There is no consent where one is required. -/
  | unconsented (profile : Profile) (capability : Capability)
      (hbuilt : DefaultProfileBuilder.build hashing request.grant request.manifest
        request.policy = .ok profile)
      (hselected : selectCapability sandbox.crates profile request.op = .ok capability)
      (hrequired : requiresConsent sandbox.crates capability request.op profile = true)
      (hnone : request.grant.consent = none)
  /-- The consent has expired. -/
  | consentExpired (profile : Profile) (consent : Consent) (expiresAt : Timestamp)
      (now : DateTime) (hconsent : request.grant.consent = some consent)
      (hexpires : consent.expiresAt = some expiresAt)
      (hread : [⟨.build request.grant request.manifest request.policy, .ok profile⟩,
        ⟨.now, now⟩] <:+: calls)
      (hlate : expiresAt.asMillis ≤ now.timestampMillis)
  /-- The guard refuses. -/
  | unguarded (profile : Profile) (capability : Capability) (error : SandboxError)
      (hasked : ⟨.validate profile capability, .error error⟩ ∈ calls)
  /-- No executor is registered. -/
  | unregistered (hnone : sandbox.registered request.op.kind = false)
  /-- The payload cannot be read. -/
  | undecodable (error : SandboxError)
      (herror : estimateBudget sandbox.crates request.op = .error error)
  /-- The meter refuses. -/
  | unreserved (reservation : Budget) (error : SandboxError)
      (hasked : ⟨.reserve reservation, .error error⟩ ∈ calls)

/-- A call that may turn a request down by its answer. -/
def SandboxOp.asks : SandboxOp → Bool
  | isRevoked _ | build .. | validate .. | reserve _ => true
  | now | commit _ | rollback _ | emit _ | execute .. => false

section Cleared

variable {sandbox : Sandbox} {hashing : Hashing} {request : ExecuteRequest}
variable {calls rest : List SandboxCall} {result : SandboxResult ExecutionOutcome}
variable {clearance : Clearance sandbox request} {startedAt : DateTime}
variable {answer : SandboxResult ExecResult}

theorem GrantActive.asks {grant : Grant} (h : GrantActive grant calls) :
    ∀ call ∈ calls, call.1.asks = false := by
  rcases h with ⟨_, rfl⟩ | ⟨now, rfl, _⟩ <;> simp [SandboxOp.asks]

theorem Consented.asks {required : Bool} {grant : Grant} (h : Consented required grant calls) :
    ∀ call ∈ calls, call.1.asks = false := by
  rcases h with ⟨_, rfl⟩ | ⟨consent, _, ⟨_, rfl⟩ | ⟨expiresAt, now, _, rfl, _⟩⟩ <;>
    simp [SandboxOp.asks]

/-- The calls that were asked, where an executor is called. -/
theorem mem_of_asks (hrest : ∀ call ∈ rest, call.1.asks = false) {call : SandboxCall}
    (hasks : call.1.asks = true)
    (hmem : call ∈ clearance.opening startedAt ++ clearance.executed answer :: rest) :
    call ∈ ([⟨.isRevoked request.grant, .ok false⟩,
      ⟨.build request.grant request.manifest request.policy, .ok clearance.profile⟩,
      ⟨.validate clearance.profile clearance.capability, .ok ()⟩,
      ⟨.reserve clearance.reservation, .ok ()⟩] : List SandboxCall) := by
  have hquiet : ∀ {others : List SandboxCall}, (∀ other ∈ others, other.1.asks = false) →
      call ∉ others := by
    intro others hothers hcall
    rw [hothers call hcall] at hasks
    cases hasks
  simp only [Clearance.opening, Clearance.calls, Clearance.opened, List.append_assoc,
    List.mem_append, List.mem_cons, List.not_mem_nil, or_false] at hmem ⊢
  rcases hmem with hgrant | (hrevoked | hbuilt) | hconsent | hguard | (hreserve | hread | hbegin)
    | hexecuted | hmem
  · exact absurd hgrant (hquiet clearance.active.asks)
  · exact .inl hrevoked
  · exact .inr (.inl hbuilt)
  · exact absurd hconsent (hquiet clearance.consented.asks)
  · exact .inr (.inr (.inl hguard))
  · exact .inr (.inr (.inr hreserve))
  · rw [hread] at hasks
    cases hasks
  · rw [hbegin] at hasks
    cases hasks
  · rw [hexecuted] at hasks
    cases hasks
  · exact absurd hmem (hquiet hrest)

/-- A consent that was read has not expired. -/
theorem not_consentExpired (hrest : ∀ call ∈ rest, call.1.asks = false) {profile : Profile}
    {consent : Consent} {expiresAt : Timestamp} {now : DateTime}
    (hconsent : request.grant.consent = some consent)
    (hexpires : consent.expiresAt = some expiresAt)
    (hread : [⟨.build request.grant request.manifest request.policy, .ok profile⟩,
      ⟨.now, now⟩] <:+: clearance.opening startedAt ++ clearance.executed answer :: rest) :
    now.timestampMillis < expiresAt.asMillis := by
  obtain ⟨before, after, hcalls⟩ := hread
  have hmem := mem_of_asks hrest rfl (hcalls ▸ by simp :
    ⟨.build request.grant request.manifest request.policy, .ok profile⟩ ∈
      clearance.opening startedAt ++ clearance.executed answer :: rest)
  obtain rfl : profile = clearance.profile := by simpa using hmem
  have hfirst : ⟨.build request.grant request.manifest request.policy, .ok clearance.profile⟩ ∉
      clearance.grantCalls ++ [⟨.isRevoked request.grant, .ok false⟩] := by
    intro hmem
    rcases List.mem_append.mp hmem with hgrant | hrevoked
    · cases clearance.active.asks _ hgrant
    · cases List.mem_singleton.mp hrevoked
  have hlast : ⟨.build request.grant request.manifest request.policy, .ok clearance.profile⟩ ∉
      clearance.consentCalls ++ (⟨.validate clearance.profile clearance.capability, .ok ()⟩ ::
        (clearance.opened startedAt ++ clearance.executed answer :: rest)) := by
    intro hmem
    rcases List.mem_append.mp hmem with hconsent | hmem
    · cases clearance.consented.asks _ hconsent
    · simp only [Clearance.opened, List.mem_cons, List.cons_append, List.nil_append] at hmem
      rcases hmem with h | h | h | h | h | h
      · cases h
      · cases h
      · cases h
      · cases h
      · cases h
      · cases hrest _ h
  have hsplit : clearance.opening startedAt ++ clearance.executed answer :: rest =
      (clearance.grantCalls ++ [⟨.isRevoked request.grant, .ok false⟩]) ++
        ⟨.build request.grant request.manifest request.policy, .ok clearance.profile⟩ ::
          (clearance.consentCalls ++ (⟨.validate clearance.profile clearance.capability, .ok ()⟩ ::
            (clearance.opened startedAt ++ clearance.executed answer :: rest))) := by
    simp [Clearance.opening, Clearance.calls]
  have hjoined : (clearance.grantCalls ++ [⟨.isRevoked request.grant, .ok false⟩]) ++
        ⟨.build request.grant request.manifest request.policy, .ok clearance.profile⟩ ::
          (clearance.consentCalls ++ (⟨.validate clearance.profile clearance.capability, .ok ()⟩ ::
            (clearance.opened startedAt ++ clearance.executed answer :: rest))) =
      before ++ ⟨.build request.grant request.manifest request.policy, .ok clearance.profile⟩ ::
        (⟨.now, now⟩ :: after) := by
    rw [← hsplit, ← hcalls]
    simp
  obtain ⟨_, _, hafter⟩ := (List.append_cons_inj_of_notMem hfirst hlast).mp hjoined
  rcases clearance.consented with ⟨_, hnone⟩ | ⟨given, hgiven, ⟨hforever, _⟩ | hactive⟩
  · rw [hnone] at hafter
    cases hafter
  · cases hconsent.symm.trans hgiven
    rw [hforever] at hexpires
    cases hexpires
  · obtain ⟨limit, reading, hlimit, hreading, hlater⟩ := hactive
    cases hconsent.symm.trans hgiven
    cases hexpires.symm.trans hlimit
    rw [hreading] at hafter
    cases hafter
    exact hlater

/-- A request whose executor is called is not turned down. -/
theorem not_turnedDown (hrest : ∀ call ∈ rest, call.1.asks = false)
    (hbuilt : BuiltByDefault hashing
      (clearance.opening startedAt ++ clearance.executed answer :: rest)) :
    ¬TurnedDown sandbox hashing request
      (clearance.opening startedAt ++ clearance.executed answer :: rest) := by
  have hprofile := hbuilt request.grant request.manifest request.policy (.ok clearance.profile)
    (by simp [Clearance.opening, Clearance.calls])
  intro h
  cases h with
  | expired now hexpires hread hlate =>
      rcases clearance.active with ⟨hforever, _⟩ | ⟨reading, hcalls, hlater⟩
      · exact absurd hexpires (Int64.not_lt.mpr hforever)
      · obtain ⟨after, hafter⟩ := hread
        simp only [Clearance.opening, Clearance.calls, hcalls, List.cons_append,
          List.nil_append, List.cons.injEq] at hafter
        cases hafter.1
        exact absurd hlater (Int64.not_lt.mpr hlate)
  | revoked given hasked hanswer =>
      have hmem := mem_of_asks hrest rfl hasked
      exact hanswer (by simpa using hmem)
  | nothingShared hnone =>
      cases hprofile.trans (build_eq_error_iff.mpr ⟨hnone, rfl⟩)
  | uncovered profile hdefault hnone =>
      cases hprofile.trans hdefault
      exact hnone clearance.capability clearance.selected
  | unconsented profile capability hdefault hselected hrequired hnone =>
      cases hprofile.trans hdefault
      cases clearance.selected.symm.trans hselected
      rcases clearance.consented with ⟨hnot, _⟩ | ⟨given, hgiven, _⟩
      · rw [hnot] at hrequired
        cases hrequired
      · rw [hnone] at hgiven
        cases hgiven
  | consentExpired profile consent expiresAt now hconsent hexpires hread hlate =>
      exact absurd (not_consentExpired hrest hconsent hexpires hread) (Int64.not_lt.mpr hlate)
  | unguarded profile capability error hasked =>
      have hmem := mem_of_asks hrest rfl hasked
      simp at hmem
  | unregistered hnone =>
      have hregistered := clearance.registered
      rw [(mem_and_kind_of_selectCapability clearance.selected).2, hnone] at hregistered
      cases hregistered
  | undecodable error herror =>
      cases clearance.estimated.symm.trans herror
  | unreserved reservation error hasked =>
      have hmem := mem_of_asks hrest rfl hasked
      simp at hmem

end Cleared

/-! ## Requests that are turned down -/

section Refused

variable {sandbox : Sandbox} {hashing : Hashing} {request : ExecuteRequest}
variable {calls : List SandboxCall} {error : SandboxError}

theorem refused_grant {grant : Grant}
    (h : Runs (ensureGrantActive grant).run calls (.error error)) :
    ∃ now : DateTime, 0 < grant.expiresAt ∧ calls = [⟨.now, now⟩] ∧
      grant.expiresAt ≤ now.timestampMillis := by
  unfold ensureGrantActive at h
  split at h
  case isTrue hexpires =>
    obtain ⟨now, rest, rfl, hrest⟩ := runs_call_bind_iff.mp h
    obtain ⟨rfl, herror⟩ := runs_ofResult_iff.mp hrest
    have hlate := condition_of_rejectIf_eq_error herror.symm
    exact ⟨now, hexpires, rfl, by simpa using hlate⟩
  case isFalse => cases (runs_pure_iff.mp h).2

/-- Where the consent is refused, there is none, or it was found to have expired. -/
theorem refused_consent {crates : Crates} {grant : Grant} {capability : Capability}
    {op : ExecOp} {profile : Profile}
    (h : Runs (ensureConsent crates grant capability op profile).run calls (.error error)) :
    (requiresConsent crates capability op profile = true ∧ grant.consent = none) ∨
      ∃ consent expiresAt now, grant.consent = some consent ∧
        consent.expiresAt = some expiresAt ∧ calls = [⟨.now, now⟩] ∧
          expiresAt.asMillis ≤ DateTime.timestampMillis now := by
  unfold ensureConsent at h
  split at h
  case isTrue hrequired =>
    rcases runs_ofResult_bind_iff.mp h with ⟨_, hnone, _⟩ | ⟨consent, hconsent, h⟩
    · left
      cases hgiven : grant.consent with
      | none => exact ⟨hrequired, rfl⟩
      | some consent =>
          rw [hgiven] at hnone
          cases hnone
    · right
      unfold ensureUnexpired at h
      split at h
      case h_1 => cases (runs_pure_iff.mp h).2
      case h_2 expiresAt hexpires =>
        obtain ⟨now, rest, rfl, hrest⟩ := runs_call_bind_iff.mp h
        obtain ⟨rfl, herror⟩ := runs_ofResult_iff.mp hrest
        have hlate := condition_of_rejectIf_eq_error herror.symm
        exact ⟨consent, expiresAt, now, okOr_eq_ok_iff.mp hconsent, hexpires, rfl,
          by simpa using hlate⟩
  case isFalse => cases (runs_pure_iff.mp h).2

/-- Where the lookup fails, it has turned the request down. -/
theorem turnedDown_of_lookUp {before : List SandboxCall}
    (h : Runs (lookUp sandbox request).run calls (.error error))
    (hbuilt : BuiltByDefault hashing (before ++ calls)) :
    TurnedDown sandbox hashing request (before ++ calls) := by
  obtain ⟨built, _, rfl, hmade⟩ := runs_call_bind_iff.mp h
  have hdefault := hbuilt request.grant request.manifest request.policy built (by simp)
  rcases runs_ofResult_bind_iff.mp hmade with ⟨_, rfl, rfl, _⟩ | ⟨profile, rfl, hselect⟩
  · exact .nothingShared (build_eq_error_iff.mp hdefault.symm).1
  rcases runs_ofResult_bind_iff.mp hselect with
    ⟨_, hselected, rfl, _⟩ | ⟨capability, hselected, hconsented⟩
  · refine .uncovered profile hdefault.symm ?_
    intro capability hcapability
    cases hselected.symm.trans hcapability
  rcases runs_fallible_bind_iff.mp hconsented with
    ⟨_, hrefused, _⟩ | ⟨consentCalls, _, _, rfl, _, hguard⟩
  · rcases refused_consent hrefused with
      ⟨hrequired, hnone⟩ | ⟨consent, expiresAt, now, hconsent, hexpires, rfl, hlate⟩
    · exact .unconsented profile capability hdefault.symm hselected hrequired hnone
    · exact .consentExpired profile consent expiresAt now hconsent hexpires
        ⟨before, [], by simp⟩ hlate
  obtain ⟨guarded, _, rfl, hguarded⟩ := runs_call_bind_iff.mp hguard
  rcases runs_ofResult_bind_iff.mp hguarded with
    ⟨refusal, rfl, rfl, _⟩ | ⟨_, rfl, hregistry⟩
  · exact .unguarded profile capability refusal (by simp)
  rcases runs_ofResult_bind_iff.mp hregistry with ⟨_, hregistered, rfl, _⟩ | ⟨_, _, hreturn⟩
  · have hnone := condition_of_rejectIf_eq_error hregistered
    rw [(mem_and_kind_of_selectCapability hselected).2] at hnone
    exact .unregistered (by simpa using hnone)
  · cases (runs_pure_iff.mp hreturn).2

/-- Where the request is not admitted, one of the checks has turned it down. -/
theorem turnedDown_of_admission (h : Runs (admission sandbox request).run calls (.error error))
    (hbuilt : BuiltByDefault hashing calls) : TurnedDown sandbox hashing request calls := by
  rcases runs_fallible_bind_iff.mp h with ⟨_, hgrant, _⟩ | ⟨grantCalls, _, _, rfl, _, hrevocation⟩
  · obtain ⟨now, hexpires, rfl, hlate⟩ := refused_grant hgrant
    exact .expired now hexpires List.prefix_rfl hlate
  obtain ⟨revoked, looked, rfl, hanswered⟩ := runs_call_bind_iff.mp hrevocation
  rcases runs_ofResult_bind_iff.mp hanswered with
    ⟨failure, rfl, rfl, _⟩ | ⟨known, rfl, hknown⟩
  · exact .revoked (.error failure) (by simp) nofun
  rcases runs_ofResult_bind_iff.mp hknown with ⟨_, hrevoked, rfl, _⟩ | ⟨_, _, hfound⟩
  · obtain rfl := condition_of_rejectIf_eq_error hrevoked
    exact .revoked (.ok true) (by simp) nofun
  rw [List.append_cons] at hbuilt ⊢
  exact turnedDown_of_lookUp hfound hbuilt

/-- Where the checks fail, one of them has turned the request down. -/
theorem turnedDown_of_authorize (h : Runs (authorize sandbox request).run calls (.error error))
    (hbuilt : BuiltByDefault hashing calls) : TurnedDown sandbox hashing request calls := by
  rcases runs_fallible_bind_iff.mp h with
    ⟨_, hrefused, _⟩ | ⟨admitted, _, _, rfl, _, hestimate⟩
  · exact turnedDown_of_admission hrefused hbuilt
  rcases runs_ofResult_bind_iff.mp hestimate with ⟨_, herror, rfl, _⟩ | ⟨_, _, hreturn⟩
  · exact .undecodable _ herror
  · cases (runs_pure_iff.mp hreturn).2

end Refused

/-- A request that made checks only was turned down by one of them. -/
theorem turnedDown_of_checks {sandbox : Sandbox} {hashing : Hashing} {request : ExecuteRequest}
    {calls : List SandboxCall} {result : SandboxResult ExecutionOutcome}
    (hruns : Runs (sandbox.execute request).run calls result)
    (hchecks : ∀ call ∈ calls, call.1.isCheck = true)
    (hbuilt : BuiltByDefault hashing calls) : TurnedDown sandbox hashing request calls := by
  rcases runs_fallible_bind_iff.mp hruns with ⟨_, hrefused, _⟩ | ⟨_, _, _, rfl, _, hrest⟩
  · exact turnedDown_of_authorize hrefused hbuilt
  · obtain ⟨reserved, _, rfl, _⟩ := runs_call_bind_iff.mp hrest
    cases hchecks ⟨.reserve _, reserved⟩ (by simp)

/-- A request stays out iff it is turned down, whether the grant and the manifest name one
tool or two. -/
theorem staysOut_iff_turnedDown (sandbox : Sandbox) (hashing : Hashing)
    (request : ExecuteRequest) (calls : List SandboxCall)
    (result : SandboxResult ExecutionOutcome)
    (hruns : Runs (sandbox.execute request).run calls result)
    (hbuilt : BuiltByDefault hashing calls) :
    StaysOut calls result ↔ TurnedDown sandbox hashing request calls := by
  have hcalled : ∀ {clearance : Clearance sandbox request} {startedAt : DateTime}
      {answer : SandboxResult ExecResult} {rest : List SandboxCall},
      ¬StaysOut (clearance.opening startedAt ++ clearance.executed answer :: rest) result := by
    intro clearance startedAt answer rest h
    cases h.2 (clearance.executed answer) (by simp)
  cases course_of_runs hruns with
  | refused hchecks =>
      exact iff_of_true ⟨⟨_, rfl⟩, fun call hcall => isExecute_of_isCheck (hchecks call hcall)⟩
        (turnedDown_of_checks hruns hchecks hbuilt)
  | unreserved clearance error =>
      refine iff_of_true ⟨⟨error, rfl⟩, ?_⟩ (.unreserved clearance.reservation error (by simp))
      intro call hcall
      rcases List.mem_append.mp hcall with hcheck | hreserve
      · exact isExecute_of_isCheck (clearance.checks call hcheck)
      · obtain rfl := List.mem_singleton.mp hreserve
        rfl
  | failed clearance startedAt finishedAt err =>
      exact iff_of_false hcalled (not_turnedDown (by simp [SandboxOp.asks]) hbuilt)
  | overused clearance startedAt execResult error husage =>
      exact iff_of_false hcalled (not_turnedDown (by simp) hbuilt)
  | finished clearance startedAt finishedAt execResult husage =>
      exact iff_of_false hcalled (not_turnedDown (by simp [SandboxOp.asks]) hbuilt)

namespace BorrowedGrant

/-- Another tool asks with the grant of `scratch`. -/
def request : ExecuteRequest :=
  { TwoAllocations.request with manifest := { TwoAllocations.grant.manifest with name := "other" } }

/-- The calls of the request and its result, where nothing fails. -/
def run : List SandboxCall × SandboxResult ExecutionOutcome :=
  (TwoAllocations.host.sandbox.execute request).run.answered TwoAllocations.reply

theorem builtByDefault : BuiltByDefault TwoAllocations.host.hashing run.1 := by
  intro grant manifest policy answer hmem
  exact answer_of_mem_answered _ hmem

/-- The executor is called. -/
theorem executes : run.1.countP (·.1.isExecute) = 1 := by decide

end BorrowedGrant

/-- A grant for `scratch` in the hands of another tool. -/
theorem staysOut_iff_turnedDown_borrowed :
    StaysOut BorrowedGrant.run.1 BorrowedGrant.run.2 ↔
      TurnedDown TwoAllocations.host.sandbox TwoAllocations.host.hashing BorrowedGrant.request
        BorrowedGrant.run.1 :=
  staysOut_iff_turnedDown TwoAllocations.host.sandbox TwoAllocations.host.hashing
    BorrowedGrant.request _ BorrowedGrant.run.2 (runs_answered TwoAllocations.reply _)
    BorrowedGrant.builtByDefault

/-- It is good for the other tool. -/
theorem not_staysOut_borrowed :
    ¬∀ (sandbox : Sandbox) (hashing : Hashing) (request : ExecuteRequest)
      (calls : List SandboxCall) (result : SandboxResult ExecutionOutcome),
      request.manifest.name ≠ request.grant.toolName →
        Runs (sandbox.execute request).run calls result → BuiltByDefault hashing calls →
          StaysOut calls result := by
  intro h
  have hout := h TwoAllocations.host.sandbox TwoAllocations.host.hashing BorrowedGrant.request
    BorrowedGrant.run.1 BorrowedGrant.run.2 (by decide)
    (runs_answered TwoAllocations.reply _) BorrowedGrant.builtByDefault
  have hnone : BorrowedGrant.run.1.countP (·.1.isExecute) = 0 := by
    rw [List.countP_eq_zero]
    intro call hcall
    simp [hout.2 call hcall]
  rw [BorrowedGrant.executes] at hnone
  cases hnone

end Soulbase.Sandbox
