/-
# Preflight and execution

A call that preflight has allowed comes with planned operations. The sandbox that is to
execute them, `default_sandbox_with_executors`, should then find a capability for each, accept
the consent and the capability, and have an executor.

Preflight asks about the declared capabilities and follows its own rule of consents, and the
sandbox asks about the path or the address of the operation. So an operation is turned down
where its path or address is not a declared one, where a write or a request that changes
something comes without a consent or at its last instant, and every write, for which there is
no executor.
-/

import Soulbase.Sandbox.Admission
import Soulbase.Sandbox.ReferenceMonitor
import Soulbase.Tools.Preflight

namespace Soulbase.Tools

open Soulbase.Foundation
open Soulbase.Sandbox (Capability CapabilityKind Profile ExecOp ExecuteRequest SandboxCall
  SandboxOp SandboxComputation SandboxResult BuiltinExecutor DefaultSandbox)

/-- The executors of `default_sandbox_with_executors`. -/
def defaultExecutors : CapabilityKind → Option BuiltinExecutor
  | .netHttp => some .net
  | .fsRead => some .fs
  | .tmpUse => some .tmp
  | .fsWrite | .fsList | .browserUse | .procExec | .sysGpu => none

/-- `default_sandbox_with_executors`. -/
def defaultSandboxWithExecutors (crates : ToolCrates)
    (parseIp : String → Option Sandbox.IpAddr) : DefaultSandbox where
  crates := crates.sandbox
  hashing := crates.hashing
  parseIp := parseIp
  executors := defaultExecutors

/-- A declaration to read files covers a path. -/
structure CapabilityDecl.Reads (decl : CapabilityDecl) (path : String) : Prop where
  domain : decl.domain = "fs"
  action : decl.action = "read"
  covers : Text.startsWith (Sandbox.normalizePath path) (Sandbox.normalizePath decl.resource) = true

/-- A declaration for the network covers an address, for a method. -/
structure CapabilityDecl.Reaches (crates : Sandbox.Crates) (decl : CapabilityDecl)
    (url method : String) : Prop where
  domain : decl.domain = "net.http"
  covers : ∃ parsed host, crates.parseUrl url = some parsed ∧ parsed.hostStr = some host ∧
    Text.eqIgnoreAsciiCase "https" parsed.scheme = true ∧
      Text.eqIgnoreAsciiCase (Text.toUppercase crates.upper decl.action)
          (Text.toUppercase crates.upper method) = true ∧
        Text.endsWith host decl.resource = true

/-- An operation that can be executed: a path or an address is a declared one, a request that
changes something has a consent, and nothing is written. -/
def Executable (crates : Sandbox.Crates) (decls : List CapabilityDecl) (consent : Option Consent)
    (now : DateTime) : ExecOp → Prop
  | .fsRead path _ _ => ∃ decl ∈ decls, decl.Reads path
  | .netHttp method url _ _ =>
      (∃ decl ∈ decls, decl.Reaches crates url method) ∧
        (Text.toUppercase crates.upper method = "GET" ∨
          Text.toUppercase crates.upper method = "HEAD" ∨ Sandbox.ConsentedAt now consent)
  | .tmpAlloc _ => True
  | .fsWrite .. | .fsList _ | .browserNav _ | .browserScreenshot .. | .procExec .. => False

/-- What a declaration asks for, with the arguments of a call, can be executed. -/
def CapabilityDecl.Ready (crates : Sandbox.Crates) (decls : List CapabilityDecl)
    (toolCall : ToolCall) (now : DateTime) (decl : CapabilityDecl) : Prop :=
  match decl.domain with
  | "net.http" =>
      let method := Text.toUppercase crates.upper decl.action
      ∀ url, (toolCall.args.get "url").bind Json.Value.asStr = some url →
        (∃ other ∈ decls, other.Reaches crates url method) ∧
          (Text.toUppercase crates.upper method = "GET" ∨
            Text.toUppercase crates.upper method = "HEAD" ∨
              Sandbox.ConsentedAt now toolCall.consent)
  | "fs" =>
      match decl.action with
      | "read" =>
          ∀ path, (toolCall.args.get "path").bind Json.Value.asStr = some path →
            ∃ other ∈ decls, other.Reads path
      | "write" => False
      | _ => True
  | _ => True

/-- A call that was made and answered. -/
abbrev PreflightCall := Sigma PreflightOp.Answer

/-- A call that preflight has allowed, of a tool of a registry, at a reading of the clock. -/
structure Planned (crates : ToolCrates) where
  registry : InMemoryRegistry crates.validator
  toolCall : ToolCall
  now : DateTime
  calls : List PreflightCall
  output : PreflightOutput
  plan : PreflightPlan
  runs : Runs (preflight crates toolCall).run calls (.ok output)
  allowed : output.allow = true
  planned : output.plan = some plan
  registered : ∀ id tenant found, ⟨.registryGet id tenant, found⟩ ∈ calls →
    found = registry.get id
  clock : ∀ reading, ⟨.now, reading⟩ ∈ calls → reading = now

namespace Planned

variable {crates : ToolCrates} (planned : Planned crates)

/-- The request to the sandbox for an operation of the plan. -/
def request (op : ExecOp) (envelopeId : Id) : ExecuteRequest where
  grant := planned.plan.grant
  manifest := planned.plan.sandboxManifest
  policy := planned.plan.policy
  op := op
  envelopeId := envelopeId

/-- What the manifest and the arguments ask for can be executed. -/
def Ready : Prop :=
  ∀ spec, planned.registry.get planned.toolCall.toolId = some spec →
    ∀ decl ∈ spec.manifest.capabilities,
      decl.Ready crates.sandbox spec.manifest.capabilities planned.toolCall planned.now

/-- The sandbox admits every planned operation. -/
def Agrees (parseIp : String → Option Sandbox.IpAddr) : Prop :=
  ∀ op ∈ planned.plan.plannedOps, ∀ envelopeId,
    (defaultSandboxWithExecutors crates parseIp).Admits planned.now (planned.request op envelopeId)

end Planned

section Preflight

variable {crates : ToolCrates} {toolCall : ToolCall} {spec : AvailableSpec}
variable {calls : List PreflightCall} {output : PreflightOutput} {plan : PreflightPlan}

/-- A plan was made for a manifest. -/
structure PlanFor (crates : ToolCrates) (toolCall : ToolCall) (manifest : ToolManifest)
    (plan : PreflightPlan) : Prop where
  grant : plan.grant = buildGrant crates.sandbox.upper toolCall manifest
  sandboxManifest : plan.sandboxManifest = toSandboxManifest crates.sandbox.upper manifest
  capabilities : plan.policy.capabilities = manifestToCapabilities crates.sandbox.upper manifest
  built : Sandbox.DefaultProfileBuilder.build crates.hashing plan.grant plan.sandboxManifest
    plan.policy = .ok plan.profile
  accepted :
    validateAll plan.profile (manifestToCapabilities crates.sandbox.upper manifest) = .ok ()
  ops : planExecOps crates.sandbox.upper manifest toolCall.args = .ok plan.plannedOps

open PreflightComputation

/-- An outcome that denies does not allow. -/
theorem allow_of_runs_deny {reason code : String}
    (h : Runs (deny toolCall reason code).run calls (.ok output)) : output.allow = false := by
  obtain ⟨_, _, _, _, _, hreturn⟩ := runs_lift_bind_iff.mp h
  obtain ⟨_, houtput⟩ := runs_done_iff.mp hreturn
  cases houtput
  rfl

theorem manifest_of_runs_refresh {fingerprint : ConfigFingerprint} {refreshed : AvailableSpec}
    (h : Runs (refresh spec fingerprint).run calls (.ok refreshed)) :
    refreshed.manifest = spec.manifest := by
  unfold refresh at h
  split at h
  · obtain ⟨_, hspec⟩ := runs_done_iff.mp h
    cases hspec
    rfl
  · obtain ⟨_, _, _, _, _, h⟩ := runs_lift_bind_iff.mp h
    obtain ⟨_, _, h⟩ := runs_result_bind_ok_iff.mp h
    obtain ⟨_, hspec⟩ := runs_done_iff.mp h
    cases hspec
    rfl

theorem planFor_of_runs_planCall {obligations : List Auth.Obligation}
    (h : Runs (planCall crates toolCall spec obligations).run calls (.ok output))
    (hplan : output.plan = some plan) : PlanFor crates toolCall spec.manifest plan := by
  obtain ⟨ops, hops, h⟩ := runs_result_bind_ok_iff.mp h
  obtain ⟨_, _, h⟩ := runs_result_bind_ok_iff.mp h
  obtain ⟨_, current, _, _, _, h⟩ := runs_lift_bind_iff.mp h
  obtain ⟨_, refreshed, _, _, hrefresh, h⟩ := runs_bind_ok_iff.mp h
  obtain ⟨profile, hprofile, h⟩ := runs_result_bind_ok_iff.mp h
  obtain ⟨_, now, _, _, _, h⟩ := runs_lift_bind_iff.mp h
  obtain ⟨_, _, _, _, _, h⟩ := runs_lift_bind_iff.mp h
  obtain ⟨_, houtput⟩ := runs_done_iff.mp h
  have hmanifest := manifest_of_runs_refresh hrefresh
  obtain ⟨built, hbuilt, hprofile⟩ := except_bind_eq_ok_iff.mp hprofile
  obtain ⟨_, haccepted, hprofile⟩ := except_bind_eq_ok_iff.mp hprofile
  cases hprofile
  cases houtput
  cases hplan
  rw [hmanifest] at hbuilt haccepted
  exact
    { grant := by rw [assemble, hmanifest]
      sandboxManifest := by rw [assemble, hmanifest]
      capabilities := by rw [assemble, buildPolicyConfig, hmanifest]
      built := by
        rw [assemble, hmanifest]
        exact blocked_eq_ok_iff.mp hbuilt
      accepted := haccepted
      ops := hops }

/-- Where preflight allows a call, it has asked the registry, and made a plan. -/
theorem planFor_of_runs_preflight (h : Runs (preflight crates toolCall).run calls (.ok output))
    (hallow : output.allow = true) (hplan : output.plan = some plan) :
    ∃ spec, ⟨.registryGet toolCall.toolId toolCall.tenant, some spec⟩ ∈ calls ∧
      PlanFor crates toolCall spec.manifest plan := by
  have hdeny : ∀ {reason code : String} {calls},
      ¬Runs (deny toolCall reason code).run calls (.ok output) := by
    intro reason code calls hruns
    cases hallow.symm.trans (allow_of_runs_deny hruns)
  obtain ⟨before, found, rest, hcalls, hget, h⟩ := runs_lift_bind_iff.mp h
  obtain ⟨answer, _, rfl, hanswer⟩ := runs_call_iff.mp hget
  obtain ⟨rfl, rfl⟩ := runs_done_iff.mp hanswer
  rw [hcalls]
  cases found with
  | none => exact absurd h hdeny
  | some spec =>
      refine ⟨spec, List.mem_cons_self, ?_⟩
      dsimp only at h
      split at h
      case isFalse => exact absurd h hdeny
      case isTrue =>
        unfold screen at h
        split at h
        case isTrue => exact absurd h hdeny
        case isFalse =>
          split at h
          case isTrue => exact absurd h hdeny
          case isFalse =>
            obtain ⟨_, _, h⟩ := runs_result_bind_ok_iff.mp h
            obtain ⟨_, consented, _, _, _, h⟩ := runs_lift_bind_iff.mp h
            cases consented with
            | error failure => exact absurd h hdeny
            | ok _ =>
                obtain ⟨_, decided, _, _, _, h⟩ := runs_lift_bind_iff.mp h
                obtain ⟨decision, _, h⟩ := runs_result_bind_ok_iff.mp h
                split at h
                case isFalse => exact absurd h hdeny
                case isTrue => exact planFor_of_runs_planCall h hplan

end Preflight

/-! ## Declared and chosen capabilities -/

section Declared

variable {crates : Sandbox.Crates} {profile : Profile} {decls : List CapabilityDecl}
variable {manifest : ToolManifest} {capability : Capability} {path : String}

theorem toCapability_eq_fsRead_iff {upper : Char → List Char} {decl : CapabilityDecl} :
    decl.toCapability upper = some (.fsRead path) ↔
      decl.domain = "fs" ∧ decl.action = "read" ∧ path = decl.resource := by
  constructor
  · intro h
    unfold CapabilityDecl.toCapability at h
    split at h
    case h_1 hdomain =>
      split at h
      case h_1 haction =>
        cases h
        exact ⟨hdomain, haction, rfl⟩
      all_goals cases h
    all_goals cases h
  · rintro ⟨hdomain, haction, rfl⟩
    rw [CapabilityDecl.toCapability, hdomain, haction]
    rfl

theorem toCapability_eq_netHttp_iff {upper : Char → List Char} {decl : CapabilityDecl}
    {host : String} {port : Option UInt16} {scheme : Option String} {methods : List String} :
    decl.toCapability upper = some (.netHttp host port scheme methods) ↔
      decl.domain = "net.http" ∧ host = decl.resource ∧ port = none ∧ scheme = some "https" ∧
        methods = [Text.toUppercase upper decl.action] := by
  constructor
  · intro h
    unfold CapabilityDecl.toCapability at h
    split at h
    case h_2 hdomain =>
      cases h
      exact ⟨hdomain, rfl, rfl, rfl, rfl⟩
    case h_1 => split at h <;> cases h
    all_goals cases h
  · rintro ⟨hdomain, rfl, rfl, rfl, rfl⟩
    rw [CapabilityDecl.toCapability, hdomain]
    rfl

/-- A path can be read where a declaration covers it. -/
theorem selects_fsRead_iff (h : profile.capabilities = manifestToCapabilities crates.upper manifest)
    {offset len : Option UInt64} :
    (∃ capability, Sandbox.selectCapability crates profile (.fsRead path offset len) =
        .ok capability) ↔ ∃ decl ∈ manifest.capabilities, decl.Reads path := by
  change (∃ capability, Sandbox.okOr _ _ = .ok capability) ↔ _
  simp only [Sandbox.okOr_eq_ok_iff, ← Option.isSome_iff_exists, List.find?_isSome,
    List.mem_filter, decide_eq_true_eq, h]
  constructor
  · rintro ⟨capability, ⟨hmem, hkind⟩, hcovers⟩
    obtain ⟨decl, hdecl, heq⟩ := mem_manifestToCapabilities_iff.mp hmem
    cases capability with
    | fsRead resource =>
        obtain ⟨hdomain, haction, rfl⟩ := toCapability_eq_fsRead_iff.mp heq
        exact ⟨decl, hdecl, hdomain, haction, hcovers⟩
    | _ => cases hkind
  · rintro ⟨decl, hdecl, hdomain, haction, hcovers⟩
    refine ⟨.fsRead decl.resource, ⟨?_, rfl⟩, hcovers⟩
    exact mem_manifestToCapabilities_iff.mpr
      ⟨decl, hdecl, toCapability_eq_fsRead_iff.mpr ⟨hdomain, haction, rfl⟩⟩

/-- An address can be reached where a declaration covers it. -/
theorem selects_netHttp_iff
    (h : profile.capabilities = manifestToCapabilities crates.upper manifest)
    {url method : String} {headers : Json.Value} {bodyB64 : Option String} :
    (∃ capability, Sandbox.selectCapability crates profile (.netHttp method url headers bodyB64) =
        .ok capability) ↔ ∃ decl ∈ manifest.capabilities, decl.Reaches crates url method := by
  change (∃ capability, Sandbox.findNetCapability crates profile url method = .ok capability) ↔ _
  simp only [Sandbox.findNetCapability, Sandbox.bind_eq_ok_iff, Sandbox.okOr_eq_ok_iff]
  constructor
  · rintro ⟨capability, parsed, hparsed, host, hhost, hfind⟩
    obtain ⟨hmem, _⟩ := List.mem_filter.mp (List.mem_of_find?_eq_some hfind)
    have hcovers := List.find?_some hfind
    rw [h] at hmem
    obtain ⟨decl, hdecl, heq⟩ := mem_manifestToCapabilities_iff.mp hmem
    cases capability with
    | netHttp allowed port scheme methods =>
        obtain ⟨hdomain, rfl, rfl, rfl, rfl⟩ := toCapability_eq_netHttp_iff.mp heq
        refine ⟨decl, hdecl, hdomain, parsed, host, hparsed, hhost, ?_⟩
        simpa [Sandbox.coversUrl, Sandbox.allowsMethod, and_assoc, and_left_comm] using hcovers
    | _ => cases hcovers
  · rintro ⟨decl, hdecl, hdomain, parsed, host, hparsed, hhost, hcovers⟩
    have hcapability : Capability.netHttp decl.resource none (some "https")
        [Text.toUppercase crates.upper decl.action] ∈ profile.capabilities := by
      rw [h, mem_manifestToCapabilities_iff]
      exact ⟨decl, hdecl, toCapability_eq_netHttp_iff.mpr ⟨hdomain, rfl, rfl, rfl, rfl⟩⟩
    have hfound : ((profile.capabilities.filter Capability.isNet).find?
        (Sandbox.coversUrl crates parsed host method)).isSome = true := by
      rw [List.find?_isSome]
      refine ⟨_, List.mem_filter.mpr ⟨hcapability, rfl⟩, ?_⟩
      simpa [Sandbox.coversUrl, Sandbox.allowsMethod, and_assoc, and_left_comm] using hcovers
    obtain ⟨capability, hfind⟩ := Option.isSome_iff_exists.mp hfound
    exact ⟨capability, parsed, hparsed, host, hhost, hfind⟩

/-- The planned operations are those of the declarations. -/
theorem mem_planDecls_iff {upper : Char → List Char} {args : Json.Value} {ops : List ExecOp}
    {op : ExecOp} (h : planDecls upper args decls = .ok ops) :
    op ∈ ops ↔ ∃ decl ∈ decls, decl.planOp upper args = .ok (some op) := by
  induction decls generalizing ops with
  | nil =>
      cases h
      simp
  | cons decl rest ih =>
      obtain ⟨planned, hplanned, h⟩ := except_bind_eq_ok_iff.mp h
      obtain ⟨later, hlater, h⟩ := except_bind_eq_ok_iff.mp h
      cases h
      rw [List.mem_append, ih hlater, Option.mem_toList]
      simp [hplanned]

theorem planOp_of_planDecls {upper : Char → List Char} {args : Json.Value} {ops : List ExecOp}
    {decl : CapabilityDecl} (h : planDecls upper args decls = .ok ops) (hdecl : decl ∈ decls) :
    ∃ planned, decl.planOp upper args = .ok planned := by
  induction decls generalizing ops with
  | nil => cases hdecl
  | cons first rest ih =>
      obtain ⟨planned, hplanned, h⟩ := except_bind_eq_ok_iff.mp h
      obtain ⟨later, hlater, _⟩ := except_bind_eq_ok_iff.mp h
      rcases List.mem_cons.mp hdecl with rfl | hdecl
      · exact ⟨planned, hplanned⟩
      · exact ih hlater hdecl

theorem requireStr_eq_ok_iff {args : Json.Value} {field text : String} :
    requireStr args field = .ok text ↔ (args.get field).bind Json.Value.asStr = some text := by
  unfold requireStr
  cases (args.get field).bind Json.Value.asStr <;> simp

/-- What is planned for a declaration. -/
inductive CapabilityDecl.Plans (upper : Char → List Char) (args : Json.Value)
    (decl : CapabilityDecl) : Option ExecOp → Prop
  | http {url : String} {headers : Json.Value} {bodyB64 : Option String}
      (hdomain : decl.domain = "net.http")
      (hurl : (args.get "url").bind Json.Value.asStr = some url) :
      Plans upper args decl
        (some (.netHttp (Text.toUppercase upper decl.action) url headers bodyB64))
  | fsRead {path : String} {offset len : Option UInt64} (hdomain : decl.domain = "fs")
      (haction : decl.action = "read")
      (hpath : (args.get "path").bind Json.Value.asStr = some path) :
      Plans upper args decl (some (.fsRead path offset len))
  | fsWrite {path bytesB64 : String} {overwrite : Bool} (hdomain : decl.domain = "fs")
      (haction : decl.action = "write") :
      Plans upper args decl (some (.fsWrite path bytesB64 overwrite))
  | tmp {sizeBytes : UInt64} (hdomain : decl.domain = "tmp") :
      Plans upper args decl (some (.tmpAlloc sizeBytes))
  | nothing (hhttp : decl.domain ≠ "net.http")
      (hfs : decl.domain = "fs" → decl.action ≠ "read" ∧ decl.action ≠ "write") :
      Plans upper args decl none

theorem CapabilityDecl.plans_of_planOp {upper : Char → List Char} {args : Json.Value}
    {decl : CapabilityDecl} {planned : Option ExecOp} (h : decl.planOp upper args = .ok planned) :
    decl.Plans upper args planned := by
  unfold CapabilityDecl.planOp at h
  split at h
  case h_1 hdomain =>
    obtain ⟨_, hop, heq⟩ := except_bind_eq_ok_iff.mp h
    obtain ⟨url, hurl, hop⟩ := except_bind_eq_ok_iff.mp hop
    cases hop
    cases heq
    exact .http hdomain (requireStr_eq_ok_iff.mp hurl)
  case h_2 hdomain =>
    split at h
    case h_1 haction =>
      obtain ⟨_, hop, heq⟩ := except_bind_eq_ok_iff.mp h
      obtain ⟨path, hpath, hop⟩ := except_bind_eq_ok_iff.mp hop
      cases hop
      cases heq
      exact .fsRead hdomain haction (requireStr_eq_ok_iff.mp hpath)
    case h_2 haction =>
      obtain ⟨_, hop, heq⟩ := except_bind_eq_ok_iff.mp h
      obtain ⟨_, _, hop⟩ := except_bind_eq_ok_iff.mp hop
      obtain ⟨_, _, hop⟩ := except_bind_eq_ok_iff.mp hop
      cases hop
      cases heq
      exact .fsWrite hdomain haction
    case h_3 hread hwrite =>
      cases h
      exact .nothing (by simp [hdomain]) fun _ => ⟨hread, hwrite⟩
  case h_3 hdomain =>
    cases h
    exact .tmp hdomain
  case h_4 hhttp hfs _ =>
    cases h
    exact .nothing hhttp fun hdomain => absurd hdomain hfs

/-- A declaration is ready where what is planned for it can be executed. -/
theorem CapabilityDecl.ready_iff {decl : CapabilityDecl} {toolCall : ToolCall} {now : DateTime}
    {planned : Option ExecOp} (h : decl.Plans crates.upper toolCall.args planned) :
    decl.Ready crates decls toolCall now ↔
      ∀ op, planned = some op → Executable crates decls toolCall.consent now op := by
  cases h with
  | @http url _ _ hdomain hurl =>
      simp only [CapabilityDecl.Ready, hdomain]
      constructor
      · rintro hready _ ⟨⟩
        exact hready url hurl
      · intro hexecutable given hgiven
        cases hurl.symm.trans hgiven
        exact hexecutable _ rfl
  | @fsRead path _ _ hdomain haction hpath =>
      simp only [CapabilityDecl.Ready, hdomain, haction]
      constructor
      · rintro hready _ ⟨⟩
        exact hready path hpath
      · intro hexecutable given hgiven
        cases hpath.symm.trans hgiven
        exact hexecutable _ rfl
  | fsWrite hdomain haction =>
      simp only [CapabilityDecl.Ready, hdomain, haction]
      exact iff_of_false id fun hexecutable => hexecutable _ rfl
  | tmp hdomain =>
      simp only [CapabilityDecl.Ready, hdomain]
      refine iff_of_true trivial ?_
      rintro _ ⟨⟩
      trivial
  | nothing hhttp hfs =>
      refine iff_of_true ?_ nofun
      unfold CapabilityDecl.Ready
      split
      case h_1 hdomain => exact absurd hdomain hhttp
      case h_2 hdomain =>
        split
        case h_1 haction => exact absurd haction (hfs hdomain).1
        case h_2 haction => exact absurd haction (hfs hdomain).2
        case h_3 => trivial
      case h_3 => trivial

end Declared

namespace PlanFor

variable {crates : ToolCrates} {toolCall : ToolCall} {manifest : ToolManifest}
variable {plan : PreflightPlan} {now : DateTime} {op : ExecOp}

/-- The profile has the declared capabilities. -/
theorem capabilities_eq (h : PlanFor crates toolCall manifest plan) :
    plan.profile.capabilities = manifestToCapabilities crates.sandbox.upper manifest := by
  obtain ⟨hcapabilities, -, -⟩ := Sandbox.DefaultProfileBuilder.of_build h.built
  rw [hcapabilities, h.grant, h.sandboxManifest, h.capabilities]
  exact Sandbox.intersectCapabilities_self _

/-- The guard has accepted them all. -/
theorem validate_of_mem (h : PlanFor crates toolCall manifest plan) {capability : Capability}
    (hmem : capability ∈ plan.profile.capabilities) :
    Sandbox.DefaultPolicyGuard.validate plan.profile capability = .ok () := by
  rw [h.capabilities_eq] at hmem
  exact validateAll_eq_ok_iff.mp h.accepted capability hmem

/-- What the sandbox looks at for a planned operation. -/
theorem admits_iff (h : PlanFor crates toolCall manifest plan)
    (parseIp : String → Option Sandbox.IpAddr) (envelopeId : Id) :
    (defaultSandboxWithExecutors crates parseIp).Admits now
        { grant := plan.grant, manifest := plan.sandboxManifest, policy := plan.policy, op := op,
          envelopeId := envelopeId } ↔
      (∃ capability, Sandbox.selectCapability crates.sandbox plan.profile op = .ok capability) ∧
        (Sandbox.NeedsConsent crates.sandbox plan.profile op →
          Sandbox.ConsentedAt now toolCall.consent) ∧
            (defaultExecutors op.kind).isSome = true := by
  have hforever : plan.grant.expiresAt = 0 := by
    rw [h.grant]
    rfl
  have hconsent : plan.grant.consent = toolCall.consent := by
    rw [h.grant]
    rfl
  rw [DefaultSandbox.admits_iff hforever h.built]
  constructor
  · rintro ⟨capability, hselected, hconsented, _, hregistered⟩
    have hkind := (Sandbox.mem_and_kind_of_selectCapability hselected).2
    rw [hconsent] at hconsented
    exact ⟨⟨capability, hselected⟩,
      fun hneeds => hconsented ((Sandbox.requiresConsent_iff hkind).mpr hneeds),
      hkind ▸ hregistered⟩
  · rintro ⟨⟨capability, hselected⟩, hconsented, hregistered⟩
    obtain ⟨hmem, hkind⟩ := Sandbox.mem_and_kind_of_selectCapability hselected
    refine ⟨capability, hselected, ?_, h.validate_of_mem hmem, ?_⟩
    · intro hrequired
      rw [hconsent]
      exact hconsented ((Sandbox.requiresConsent_iff hkind).mp hrequired)
    · rw [hkind]
      exact hregistered

/-- A planned operation is admitted where it can be executed. -/
theorem admits_iff_executable (h : PlanFor crates toolCall manifest plan)
    (hop : op ∈ plan.plannedOps) (parseIp : String → Option Sandbox.IpAddr) (envelopeId : Id) :
    (defaultSandboxWithExecutors crates parseIp).Admits now
        { grant := plan.grant, manifest := plan.sandboxManifest, policy := plan.policy, op := op,
          envelopeId := envelopeId } ↔
      Executable crates.sandbox manifest.capabilities toolCall.consent now op := by
  rw [h.admits_iff]
  cases op with
  | fsRead path offset len =>
      rw [selects_fsRead_iff h.capabilities_eq]
      exact ⟨fun h => h.1, fun h => ⟨h, nofun, rfl⟩⟩
  | netHttp method url headers bodyB64 =>
      rw [selects_netHttp_iff h.capabilities_eq]
      change _ ∧ (_ ≠ _ ∧ _ ≠ _ → _) ∧ _ ↔ _ ∧ (_ ∨ _ ∨ _)
      refine and_congr_right fun _ => ?_
      rw [← or_assoc, or_iff_not_imp_left, not_or]
      exact and_iff_left rfl
  | tmpAlloc sizeBytes =>
      refine iff_of_true ⟨?_, nofun, rfl⟩ trivial
      obtain ⟨decl, hdecl, hplanned⟩ := (mem_planDecls_iff h.ops).mp hop
      have hmem : Capability.tmpUse ∈ plan.profile.capabilities := by
        rw [h.capabilities_eq, mem_manifestToCapabilities_iff]
        refine ⟨decl, hdecl, ?_⟩
        cases CapabilityDecl.plans_of_planOp hplanned with
        | tmp hdomain =>
            rw [CapabilityDecl.toCapability, hdomain]
            rfl
      have hfound : (plan.profile.capabilities.find? (·.kind = .tmpUse)).isSome = true :=
        List.find?_isSome.mpr ⟨_, hmem, rfl⟩
      obtain ⟨capability, hfind⟩ := Option.isSome_iff_exists.mp hfound
      exact ⟨capability, Sandbox.okOr_eq_ok_iff.mpr hfind⟩
  | fsWrite _ _ _ | fsList _ | browserNav _ | browserScreenshot _ _ | procExec _ _ _ =>
      exact iff_of_false (fun h => nomatch h.2.2) id

end PlanFor

/-- Preflight and execution agree on a call iff what its manifest and arguments ask for can be
executed. -/
theorem Planned.agrees_iff_ready {crates : ToolCrates} (planned : Planned crates)
    (parseIp : String → Option Sandbox.IpAddr) : planned.Agrees parseIp ↔ planned.Ready := by
  obtain ⟨spec, hfound, hplan⟩ :=
    planFor_of_runs_preflight planned.runs planned.allowed planned.planned
  have hspec := planned.registered _ _ _ hfound
  constructor
  · intro hagrees given hgiven decl hdecl
    cases hspec.trans hgiven
    obtain ⟨found, hfound⟩ := planOp_of_planDecls hplan.ops hdecl
    rw [CapabilityDecl.ready_iff (CapabilityDecl.plans_of_planOp hfound)]
    rintro op rfl
    have hplanned := (mem_planDecls_iff hplan.ops).mpr ⟨decl, hdecl, hfound⟩
    exact (hplan.admits_iff_executable hplanned parseIp ⟨""⟩).mp (hagrees op hplanned ⟨""⟩)
  · intro hready op hop envelopeId
    obtain ⟨decl, hdecl, hplanned⟩ := (mem_planDecls_iff hplan.ops).mp hop
    have hdecl_ready := hready spec hspec.symm decl hdecl
    exact (hplan.admits_iff_executable hop parseIp envelopeId).mpr
      ((CapabilityDecl.ready_iff (CapabilityDecl.plans_of_planOp hplanned)).mp hdecl_ready op rfl)

namespace AnotherAddress

/-- The tool is registered for one address. -/
def registry : InMemoryRegistry echoCrates.validator :=
  (InMemoryRegistry.new.register
    (echoManifest [⟨"net.http", "get", "example.org"⟩])).toOption.get rfl

/-- And called for another one. -/
def toolCall : ToolCall := echoCall "tenant-a" "https://example.com/test"

/-- Everybody may use the tools of the registry. -/
def reply : (op : PreflightOp) → op.Answer
  | .registryGet id _ => registry.get id
  | op => echoReply echoSpec op

/-- What preflight comes to. -/
def answered : List PreflightCall × ToolResult PreflightOutput :=
  (preflight echoCrates toolCall).run.answered reply

/-- Preflight allows the call. -/
def planned : Planned echoCrates where
  registry := registry
  toolCall := toolCall
  now := ⟨0⟩
  calls := answered.1
  output := answered.2.toOption.get rfl
  plan := ((answered.2.toOption.get rfl).plan).get rfl
  runs := runs_answered reply _
  allowed := rfl
  planned := rfl
  registered _ _ _ hcall := answer_of_mem_answered _ hcall
  clock _ hcall := answer_of_mem_answered _ hcall

/-- What it has planned. -/
def op : ExecOp := .netHttp "GET" "https://example.com/test" (.object []) none

end AnotherAddress

/-- A planned operation on an address that is not declared is turned down. -/
theorem not_agrees_address :
    ¬∀ crates (planned : Planned crates) parseIp, planned.Agrees parseIp := by
  intro h
  have hop : AnotherAddress.op ∈ AnotherAddress.planned.plan.plannedOps :=
    List.mem_of_getElem? (i := 0) rfl
  have hadmits := h _ AnotherAddress.planned (fun _ => none) _ hop ⟨"envelope-1"⟩
  obtain ⟨_, haccepted⟩ := DefaultSandbox.admits_iff_answered.mp hadmits
  cases haccepted

end Soulbase.Tools
