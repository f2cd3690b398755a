/-
# Plans and the registry

Tools are registered, updated, paused and given policies while calls are in the middle of their
preflight, and every preflight that knows the configuration writes its fingerprint back into the
registry. `PreflightService::preflight` asks the registry once. So a plan may be out of date when
it is returned, and what can be said of it is that it was vetted against one record that the
registry had at some moment of the preflight: that record was validated and enabled, and the
profile, the grant, the policy and the operations of the plan are all made from it.

Preflights in their turn change nothing in the registry but the fingerprints of configurations.
-/

import Soulbase.Foundation.Moments
import Soulbase.Tools.PlannedExecution

namespace Soulbase.Tools

open Soulbase.Foundation PreflightComputation

/-- The answers of all that is not the registry. -/
abbrev PreflightChoice := (op : PreflightOp) → op.Answer

namespace InMemoryRegistry

variable {validator : SchemaValidator}

/-- The registry after an operation. One that fails changes nothing. -/
def after (registry : InMemoryRegistry validator) :
    ToolResult (InMemoryRegistry validator) → InMemoryRegistry validator
  | .ok changed => changed
  | .error _ => registry

/-- The calls of a preflight. -/
def answer : Handler PreflightOp PreflightOp.Answer PreflightChoice
    (InMemoryRegistry validator) := fun registry choice op =>
  match op with
  | .registryGet id _ => some (registry.get id, registry)
  | .updateConfigFingerprint id version hash =>
      let updated := registry.updateConfigFingerprint id version hash
      some (updated.map fun _ => (), registry.after updated)
  | op => some (choice op, registry)

end InMemoryRegistry

/-- A registry, and the preflights that are under way. -/
abbrev PreflightPool (ι : Type) (crates : ToolCrates) :=
  Pool ι PreflightOp PreflightOp.Answer (ToolResult PreflightOutput)
    (InMemoryRegistry crates.validator)

/-- What may happen next. -/
inductive RegistryAction (ι : Type)
  | register (manifest : ToolManifest)
  | update (manifest : ToolManifest)
  | setState (id : ToolId) (state : ToolState)
  | updatePolicy (id : ToolId) (policyHash : Option String) (visibleToLlm : Option Bool)
  | updateConfigFingerprint (id : ToolId) (version hash : Option String)
  /-- The preflight of a call is begun. -/
  | begin (i : ι) (toolCall : ToolCall)
  /-- A preflight makes its next call. -/
  | call (i : ι) (choice : PreflightChoice)

namespace RegistryAction

variable {ι : Type}

/-- The preflight that is begun. -/
def begins : RegistryAction ι → Option ι
  | .begin i _ => some i
  | _ => none

/-- A step of a preflight. -/
def isPreflight : RegistryAction ι → Bool
  | .begin .. | .call .. => true
  | _ => false

end RegistryAction

namespace PreflightPool

variable {ι : Type} {crates : ToolCrates}

/-- An operation on the registry, from outside the preflights. -/
def change (pool : PreflightPool ι crates)
    (result : ToolResult (InMemoryRegistry crates.validator)) : PreflightPool ι crates :=
  { pool with shared := pool.shared.after result }

variable [DecidableEq ι]

/-- The step function. -/
def next (pool : PreflightPool ι crates) : RegistryAction ι → Option (PreflightPool ι crates)
  | .register manifest => some (pool.change (pool.shared.register manifest))
  | .update manifest => some (pool.change (pool.shared.update manifest))
  | .setState id state => some (pool.change (pool.shared.setState id state))
  | .updatePolicy id policyHash visibleToLlm =>
      some (pool.change (pool.shared.updatePolicy id policyHash visibleToLlm))
  | .updateConfigFingerprint id version hash =>
      some (pool.change (pool.shared.updateConfigFingerprint id version hash))
  | .begin i toolCall => pool.spawn i (preflight crates toolCall).run
  | .call i choice => pool.call InMemoryRegistry.answer i choice

variable (ι crates) in
/-- A new registry, and callers that are all free. -/
def system : TransitionSystem (PreflightPool ι crates) (RegistryAction ι) where
  init pool := pool.shared = .new ∧ ∀ i, (pool.threads i).returned = true
  step pool action after := pool.next action = some after

end PreflightPool

/-- The configuration that a plan was made under. -/
def PreflightPlan.fingerprint (plan : PreflightPlan) : ConfigFingerprint where
  version := plan.configVersion
  hash := plan.configHash

/-- A plan was vetted against what the registry gives out for a tool. -/
structure Vetted (crates : ToolCrates) (toolCall : ToolCall) (spec : AvailableSpec)
    (plan : PreflightPlan) : Prop where
  enabled : spec.enabled = true
  id : spec.manifest.id = toolCall.toolId
  validated : spec.manifest.validate crates.validator = .ok ()
  keyed : spec.manifest.idempotency = .keyed → toolCall.idempotencyKey ≠ none
  visible : toolCall.origin = .llm → spec.visibleToLlm = true
  args : crates.validator.check "input" spec.manifest.inputSchema toolCall.args = .ok ()
  consented : spec.manifest.consent.required = true →
    ∃ consent, toolCall.consent = some consent ∧ checkScopes spec.manifest consent = .ok ()
  planFor : PlanFor crates toolCall spec.manifest plan
  planned : plan.plannedOps ≠ []
  same : plan.spec.manifest = spec.manifest ∧ plan.spec.policyHash = spec.policyHash
  policy : plan.policy = buildPolicyConfig crates.sandbox.upper plan.spec plan.fingerprint

/-- A step in which a preflight gets an answer. -/
def Asked {ι : Type} (i : ι) (holds : PreflightChoice → Prop) {crates : ToolCrates}
    (_ : PreflightPool ι crates) (action : RegistryAction ι) (_ : PreflightPool ι crates) :
    Prop :=
  ∃ choice, action = .call i choice ∧ holds choice

/-- What is known of a plan that a preflight has returned, after a run that began with it. -/
structure MadeDuring {ι : Type} [DecidableEq ι] {crates : ToolCrates}
    (state : PreflightPool ι crates) (actions : List (RegistryAction ι))
    (target : PreflightPool ι crates) (i : ι) (toolCall : ToolCall) (spec : AvailableSpec)
    (plan : PreflightPlan) : Prop where
  vetted : Vetted crates toolCall spec plan
  /-- The registry had what the plan was vetted against. -/
  registered : (PreflightPool.system ι crates).Moment state actions target fun before _ _ =>
    before.shared.get toolCall.toolId = some spec
  /-- The call was authorised with the obligations of the plan. -/
  authorized : (PreflightPool.system ι crates).Moment state actions target
    (Asked i fun choice => ∃ decision, choice (.authorize toolCall spec) = .ok decision ∧
      decision.allow = true ∧ decision.obligations = plan.obligations)
  /-- A consent with an end was good at some moment. -/
  unexpired : spec.manifest.consent.required = true →
    ∀ consent expiresAt, toolCall.consent = some consent → consent.expiresAt = some expiresAt →
      (PreflightPool.system ι crates).Moment state actions target (Asked i fun choice =>
        checkExpiry spec.manifest.consent expiresAt.asMillis
          (choice .now).timestampMillis = .ok ())
  /-- The configuration was the current one at some moment. -/
  configured : (PreflightPool.system ι crates).Moment state actions target
    (Asked i fun choice => (choice .currentConfig).getD {} = plan.fingerprint)
  /-- It was written into the registry, unless there was none. -/
  recorded : plan.fingerprint.isEmpty = false →
    (PreflightPool.system ι crates).Moment state actions target fun before _ after =>
      before.shared.updateConfigFingerprint toolCall.toolId plan.configVersion plan.configHash =
        .ok after.shared

/-- What a record says, but for the configuration. -/
def RegistryRecord.substance (record : RegistryRecord) : RegistryRecord :=
  { record with configVersion := none, configHash := none }

/-- What holds of a registry and its preflights, in any interleaving. -/
structure PlansRegistered (ι : Type) [DecidableEq ι] (crates : ToolCrates) : Prop where
  /-- A plan was made from one record of the registry, which was there during the preflight. -/
  made : ∀ state i toolCall actions target output plan,
    (PreflightPool.system ι crates).Reachable state →
      (PreflightPool.system ι crates).Run state (.begin i toolCall :: actions) target →
        (∀ action ∈ actions, action.begins ≠ some i) →
          target.threads i = .done (.ok output) → output.plan = some plan →
            ∃ spec, MadeDuring state (.begin i toolCall :: actions) target i toolCall spec plan
  /-- Preflights change no more than the configuration of a record. -/
  frame : ∀ (state : PreflightPool ι crates) actions target,
    (PreflightPool.system ι crates).Run state actions target →
      (∀ action ∈ actions, action.isPreflight = true) → ∀ id,
        (target.shared.records.get id).map RegistryRecord.substance =
          (state.shared.records.get id).map RegistryRecord.substance
  /-- A tool that is registered stays registered. -/
  kept : ∀ (state : PreflightPool ι crates) actions target,
    (PreflightPool.system ι crates).Run state actions target → ∀ id,
      (state.shared.get id).isSome = true → (target.shared.get id).isSome = true

section Calls

variable {crates : ToolCrates} {toolCall : ToolCall} {spec : AvailableSpec}
variable {calls : List PreflightCall} {output : PreflightOutput} {plan : PreflightPlan}

/-- The calls behind a plan. -/
structure PlanCalls (crates : ToolCrates) (toolCall : ToolCall) (spec : AvailableSpec)
    (plan : PreflightPlan) (calls : List PreflightCall) : Prop where
  authorized : ∃ decision, ⟨.authorize toolCall spec, .ok decision⟩ ∈ calls ∧
    decision.allow = true ∧ decision.obligations = plan.obligations
  unexpired : spec.manifest.consent.required = true →
    ∀ consent expiresAt, toolCall.consent = some consent → consent.expiresAt = some expiresAt →
      ∃ reading, ⟨.now, reading⟩ ∈ calls ∧
        checkExpiry spec.manifest.consent expiresAt.asMillis reading.timestampMillis = .ok ()
  configured : ∃ current, ⟨.currentConfig, current⟩ ∈ calls ∧ current.getD {} = plan.fingerprint
  recorded : plan.fingerprint.isEmpty = false →
    ⟨.updateConfigFingerprint spec.manifest.id plan.configVersion plan.configHash, .ok ()⟩ ∈ calls

/-- An outcome that denies has no plan. -/
theorem plan_of_runs_deny {reason code : String}
    (h : Runs (deny toolCall reason code).run calls (.ok output)) : output.plan = none := by
  obtain ⟨_, _, _, _, _, hreturn⟩ := runs_lift_bind_iff.mp h
  obtain ⟨_, houtput⟩ := runs_done_iff.mp hreturn
  cases houtput
  rfl

theorem not_runs_deny {reason code : String} (hplan : output.plan = some plan) :
    ¬Runs (deny toolCall reason code).run calls (.ok output) := by
  intro h
  cases hplan.symm.trans (plan_of_runs_deny h)

/-- A call is the first of a computation that begins with it. -/
theorem runs_call_op_iff {α : Type} {op : PreflightOp}
    {rest : op.Answer → PreflightComputation α} {result : ToolResult α} :
    Runs (call op >>= rest).run calls result ↔
      ∃ answer later, calls = ⟨op, answer⟩ :: later ∧ Runs (rest answer).run later result :=
  runs_call_iff

/-- What `refresh` does to the registry and to the description of the tool. -/
theorem runs_refresh {fingerprint : ConfigFingerprint} {refreshed : AvailableSpec}
    (h : Runs (refresh spec fingerprint).run calls (.ok refreshed)) :
    refreshed.policyHash = spec.policyHash ∧
      (fingerprint.isEmpty = false →
        ⟨.updateConfigFingerprint spec.manifest.id fingerprint.version fingerprint.hash, .ok ()⟩ ∈
          calls) := by
  unfold refresh at h
  split at h
  case isTrue hempty =>
    obtain ⟨_, hspec⟩ := runs_done_iff.mp h
    cases hspec
    exact ⟨rfl, fun hfull => absurd (hempty.symm.trans hfull) nofun⟩
  case isFalse =>
    obtain ⟨answer, later, rfl, hanswered⟩ := runs_call_op_iff.mp h
    obtain ⟨_, rfl, hreturn⟩ := runs_result_bind_ok_iff.mp hanswered
    obtain ⟨_, hspec⟩ := runs_done_iff.mp hreturn
    cases hspec
    exact ⟨rfl, fun _ => List.mem_cons_self⟩

/-- What is planned after the authorisation. -/
structure PlanningCalls (crates : ToolCrates) (spec : AvailableSpec)
    (obligations : List Auth.Obligation) (plan : PreflightPlan) (calls : List PreflightCall) :
    Prop where
  obligations : plan.obligations = obligations
  planned : plan.plannedOps ≠ []
  same : plan.spec.manifest = spec.manifest ∧ plan.spec.policyHash = spec.policyHash
  policy : plan.policy = buildPolicyConfig crates.sandbox.upper plan.spec plan.fingerprint
  configured : ∃ current, ⟨.currentConfig, current⟩ ∈ calls ∧ current.getD {} = plan.fingerprint
  recorded : plan.fingerprint.isEmpty = false →
    ⟨.updateConfigFingerprint spec.manifest.id plan.configVersion plan.configHash, .ok ()⟩ ∈ calls

theorem planningCalls_of_runs {obligations : List Auth.Obligation}
    (h : Runs (planCall crates toolCall spec obligations).run calls (.ok output))
    (hplan : output.plan = some plan) : PlanningCalls crates spec obligations plan calls := by
  obtain ⟨ops, _, hops⟩ := runs_result_bind_ok_iff.mp h
  obtain ⟨_, hnonempty, hplanning⟩ := runs_result_bind_ok_iff.mp hops
  obtain ⟨current, later, rfl, hcurrent⟩ := runs_call_op_iff.mp hplanning
  obtain ⟨refreshing, refreshed, building, rfl, hrefresh, hbuilding⟩ :=
    runs_bind_ok_iff.mp hcurrent
  obtain ⟨profile, _, hprofile⟩ := runs_result_bind_ok_iff.mp hbuilding
  obtain ⟨now, clocked, rfl, hclock⟩ := runs_call_op_iff.mp hprofile
  obtain ⟨_, recording, rfl, hreturn⟩ := runs_call_op_iff.mp hclock
  obtain ⟨_, houtput⟩ := runs_done_iff.mp hreturn
  cases houtput
  cases hplan
  obtain ⟨hpolicy, hrecorded⟩ := runs_refresh hrefresh
  constructor
  case obligations => rfl
  case planned =>
    intro hnil
    rw [show ops = [] from hnil] at hnonempty
    cases hnonempty
  case same => exact ⟨manifest_of_runs_refresh hrefresh, hpolicy⟩
  case policy => rfl
  case configured => exact ⟨current, List.mem_cons_self, rfl⟩
  case recorded =>
    intro hfull
    exact List.mem_cons_of_mem _ (List.mem_append_left _ (hrecorded hfull))

/-- Where `ensure_consent` is content. -/
theorem runs_ensureConsent {manifest : ToolManifest}
    (h : Runs (ensureConsent manifest toolCall) calls (.ok ()))
    (hrequired : manifest.consent.required = true) :
    ∃ consent, toolCall.consent = some consent ∧ checkScopes manifest consent = .ok () ∧
      ∀ expiresAt, consent.expiresAt = some expiresAt → ∃ reading, ⟨.now, reading⟩ ∈ calls ∧
        checkExpiry manifest.consent expiresAt.asMillis reading.timestampMillis = .ok () := by
  rw [ensureConsent, if_pos hrequired] at h
  cases hconsent : toolCall.consent with
  | none =>
      rw [hconsent] at h
      obtain ⟨_, hresult⟩ := runs_done_iff.mp h
      cases hresult
  | some consent =>
      rw [hconsent] at h
      dsimp only at h
      refine ⟨consent, rfl, ?_⟩
      cases hexpires : consent.expiresAt with
      | none =>
          rw [hexpires] at h
          obtain ⟨_, hresult⟩ := runs_done_iff.mp h
          exact ⟨hresult.symm, nofun⟩
      | some expiresAt =>
          rw [hexpires] at h
          obtain ⟨reading, later, rfl, hreturn⟩ := runs_call_iff.mp h
          obtain ⟨_, hresult⟩ := runs_done_iff.mp hreturn
          obtain ⟨_, hexpiry, hscopes⟩ := except_bind_eq_ok_iff.mp hresult.symm
          refine ⟨hscopes, ?_⟩
          rintro _ ⟨⟩
          exact ⟨reading, List.mem_cons_self, hexpiry⟩

theorem PlanCalls.cons (h : PlanCalls crates toolCall spec plan calls) (call : PreflightCall) :
    PlanCalls crates toolCall spec plan (call :: calls) where
  authorized := by
    obtain ⟨decision, hmem, hdecision⟩ := h.authorized
    exact ⟨decision, List.mem_cons_of_mem _ hmem, hdecision⟩
  unexpired hrequired consent expiresAt hconsent hexpires := by
    obtain ⟨reading, hmem, hexpiry⟩ := h.unexpired hrequired consent expiresAt hconsent hexpires
    exact ⟨reading, List.mem_cons_of_mem _ hmem, hexpiry⟩
  configured := by
    obtain ⟨current, hmem, hcurrent⟩ := h.configured
    exact ⟨current, List.mem_cons_of_mem _ hmem, hcurrent⟩
  recorded hfull := List.mem_cons_of_mem _ (h.recorded hfull)

/-- The screening of an enabled tool, up to a plan. -/
theorem vetted_of_runs_screen (h : Runs (screen crates toolCall spec).run calls (.ok output))
    (hplan : output.plan = some plan) :
    PlanCalls crates toolCall spec plan calls ∧
      (spec.enabled = true → spec.manifest.id = toolCall.toolId →
        spec.manifest.validate crates.validator = .ok () → Vetted crates toolCall spec plan) := by
  unfold screen at h
  split at h
  case isTrue => exact absurd h (not_runs_deny hplan)
  case isFalse hkeyed =>
    split at h
    case isTrue => exact absurd h (not_runs_deny hplan)
    case isFalse hvisible =>
      obtain ⟨_, hargs, hchecked⟩ := runs_result_bind_ok_iff.mp h
      obtain ⟨consenting, consented, authorizing, rfl, hconsent, hauthorizing⟩ :=
        runs_lift_bind_iff.mp hchecked
      cases consented with
      | error failure => exact absurd hauthorizing (not_runs_deny hplan)
      | ok _ =>
          obtain ⟨decided, planning, rfl, hdecided⟩ := runs_call_op_iff.mp hauthorizing
          obtain ⟨decision, rfl, hplanning⟩ := runs_result_bind_ok_iff.mp hdecided
          split at hplanning
          case isFalse => exact absurd hplanning (not_runs_deny hplan)
          case isTrue hallow =>
            have hplanned := planningCalls_of_runs hplanning hplan
            have hconsented := runs_ensureConsent hconsent
            refine ⟨?_, ?_⟩
            · constructor
              case authorized =>
                exact ⟨decision, List.mem_append_right _ List.mem_cons_self, hallow,
                  hplanned.obligations.symm⟩
              case unexpired =>
                intro hrequired consent expiresAt hconsent hexpires
                obtain ⟨given, hgiven, _, hunexpired⟩ := hconsented hrequired
                cases hgiven.symm.trans hconsent
                obtain ⟨reading, hmem, hexpiry⟩ := hunexpired expiresAt hexpires
                exact ⟨reading, List.mem_append_left _ hmem, hexpiry⟩
              case configured =>
                obtain ⟨current, hmem, hcurrent⟩ := hplanned.configured
                exact ⟨current, List.mem_append_right _ (List.mem_cons_of_mem _ hmem), hcurrent⟩
              case recorded =>
                intro hfull
                exact List.mem_append_right _
                  (List.mem_cons_of_mem _ (hplanned.recorded hfull))
            · intro henabled hid hvalidated
              constructor
              case enabled => exact henabled
              case id => exact hid
              case validated => exact hvalidated
              case keyed => exact fun hkind hnone => hkeyed ⟨hkind, hnone⟩
              case visible =>
                intro horigin
                by_contra hhidden
                exact hvisible ⟨horigin, Bool.eq_false_of_not_eq_true hhidden⟩
              case args => exact hargs
              case consented =>
                intro hrequired
                obtain ⟨consent, hconsent, hscopes, _⟩ := hconsented hrequired
                exact ⟨consent, hconsent, hscopes⟩
              case planFor => exact planFor_of_runs_planCall hplanning hplan
              case planned => exact hplanned.planned
              case same => exact hplanned.same
              case policy => exact hplanned.policy

/-- Where a preflight returns a plan, it has asked the registry first, and the plan was vetted
against the answer. -/
theorem vetted_of_runs (h : Runs (preflight crates toolCall).run calls (.ok output))
    (hplan : output.plan = some plan) :
    ∃ spec, ⟨.registryGet toolCall.toolId toolCall.tenant, some spec⟩ ∈ calls ∧
      PlanCalls crates toolCall spec plan calls ∧
        (spec.manifest.id = toolCall.toolId → spec.manifest.validate crates.validator = .ok () →
          Vetted crates toolCall spec plan) := by
  obtain ⟨found, screening, rfl, hfound⟩ := runs_call_op_iff.mp h
  cases found with
  | none => exact absurd hfound (not_runs_deny hplan)
  | some spec =>
      dsimp only at hfound
      split at hfound
      case isFalse => exact absurd hfound (not_runs_deny hplan)
      case isTrue henabled =>
        obtain ⟨hcalls, hvetted⟩ := vetted_of_runs_screen hfound hplan
        refine ⟨spec, List.mem_cons_self, hcalls.cons _, ?_⟩
        intro hid hvalidated
        exact hvetted henabled hid hvalidated

end Calls

/-! ## What happens to the registry -/

namespace InMemoryRegistry

variable {validator : SchemaValidator} {registry changed : InMemoryRegistry validator}

/-- An operation stores a record. -/
def Stores (registry changed : InMemoryRegistry validator) : Prop :=
  ∃ id record, changed.records = registry.records.put id record

theorem modify_eq_ok {id : ToolId} {change : RegistryRecord → RegistryRecord}
    {hchange : ∀ record, (change record).manifest = record.manifest}
    (h : registry.modify id change hchange = .ok changed) :
    ∃ record, registry.records.get id = some record ∧
      changed.records = registry.records.put id (change record) := by
  unfold modify at h
  split at h
  case h_1 => cases h
  case h_2 record hrecord =>
    cases h
    refine ⟨record, hrecord, ?_⟩
    have hid : (change record).manifest.id = id := by
      rw [hchange]
      exact (registry.accepted id record hrecord).1
    exact congrArg (fun stored => registry.records.put stored (change record)) hid

theorem stores_register {manifest : ToolManifest} (h : registry.register manifest = .ok changed) :
    registry.Stores changed := by
  unfold register at h
  split at h
  case h_1 => cases h
  case h_2 =>
    split at h
    case isTrue => cases h
    case isFalse =>
      cases h
      exact ⟨_, _, rfl⟩

theorem stores_update {manifest : ToolManifest} (h : registry.update manifest = .ok changed) :
    registry.Stores changed := by
  unfold update at h
  split at h
  case h_1 => cases h
  case h_2 =>
    split at h
    case h_1 => cases h
    case h_2 =>
      cases h
      exact ⟨_, _, rfl⟩

theorem stores_modify {id : ToolId} {change : RegistryRecord → RegistryRecord}
    {hchange : ∀ record, (change record).manifest = record.manifest}
    (h : registry.modify id change hchange = .ok changed) : registry.Stores changed := by
  obtain ⟨record, _, hrecords⟩ := modify_eq_ok h
  exact ⟨id, change record, hrecords⟩

/-- What is stored stays stored. -/
theorem isSome_get_after {result : ToolResult (InMemoryRegistry validator)}
    (h : ∀ changed, result = .ok changed → registry.Stores changed) {id : ToolId}
    (hsome : (registry.get id).isSome = true) :
    ((registry.after result).get id).isSome = true := by
  cases result with
  | error _ => exact hsome
  | ok changed =>
      obtain ⟨stored, record, hrecords⟩ := h changed rfl
      unfold get at hsome ⊢
      rw [Option.isSome_map] at hsome ⊢
      rw [after, hrecords, HashMap.get_put]
      split
      · rfl
      · exact hsome

/-- A fingerprint is no part of the substance. -/
theorem substance_updateConfigFingerprint (registry : InMemoryRegistry validator) (id : ToolId)
    (version hash : Option String) (other : ToolId) :
    ((registry.after (registry.updateConfigFingerprint id version hash)).records.get other).map
        RegistryRecord.substance =
      (registry.records.get other).map RegistryRecord.substance := by
  cases hupdated : registry.updateConfigFingerprint id version hash with
  | error _ => rfl
  | ok changed =>
      obtain ⟨record, hrecord, hrecords⟩ := modify_eq_ok hupdated
      rw [after, hrecords, HashMap.get_put]
      split
      case isTrue hother =>
        rw [hother, hrecord]
        rfl
      case isFalse => rfl

section Answers

variable {choice : PreflightChoice} {op : PreflightOp} {reply : op.Answer}

/-- The calls of a preflight change nothing in the registry but fingerprints. -/
theorem substance_answer (h : answer registry choice op = some (reply, changed))
    (id : ToolId) :
    (changed.records.get id).map RegistryRecord.substance =
      (registry.records.get id).map RegistryRecord.substance := by
  cases op with
  | updateConfigFingerprint stored version hash =>
      cases h
      exact substance_updateConfigFingerprint registry stored version hash id
  | _ =>
      cases h
      rfl

theorem isSome_get_answer (h : answer registry choice op = some (reply, changed)) {id : ToolId}
    (hsome : (registry.get id).isSome = true) : (changed.get id).isSome = true := by
  cases op with
  | updateConfigFingerprint stored version hash =>
      cases h
      exact isSome_get_after (fun _ => stores_modify) hsome
  | _ =>
      cases h
      exact hsome

/-- A fingerprint that is accepted is written. -/
theorem updated_of_answer {id : ToolId} {version hash : Option String}
    (h : answer registry choice (.updateConfigFingerprint id version hash) =
      some (.ok (), changed)) :
    registry.updateConfigFingerprint id version hash = .ok changed := by
  cases hupdated : registry.updateConfigFingerprint id version hash with
  | error err =>
      simp only [answer, hupdated] at h
      cases h
  | ok updated =>
      simp only [answer, hupdated] at h
      cases h
      rfl

end Answers

end InMemoryRegistry

namespace PreflightPool

variable {ι : Type} [DecidableEq ι] {crates : ToolCrates}
variable {pool before after : PreflightPool ι crates} {action : RegistryAction ι}

/-- The step in which a preflight gets the answer to a call. -/
def Answered (i : ι) (call : PreflightCall) (before : PreflightPool ι crates)
    (action : RegistryAction ι) (after : PreflightPool ι crates) : Prop :=
  ∃ choice, action = .call i choice ∧
    InMemoryRegistry.answer before.shared choice call.1 = some (call.2, after.shared)

/-- No step but its own moves a preflight on. -/
theorem answers_of_next {i : ι} (hbegins : action.begins ≠ some i)
    (h : before.next action = some after) :
    TransitionSystem.Answers (fun pool => pool.threads i) (Answered i) before action after := by
  cases action with
  | begin j toolCall =>
      obtain ⟨_, rfl⟩ := Pool.spawn_eq_some_iff.mp h
      have hne : i ≠ j := fun heq => hbegins (congrArg some heq.symm)
      exact .inl (Function.update_of_ne hne _ _)
  | call j choice =>
      obtain ⟨op, resume, answer, registry, hthread, hanswer, rfl⟩ := Pool.call_eq_some_iff.mp h
      by_cases hj : i = j
      · subst hj
        exact .inr ⟨op, resume, answer, hthread, Function.update_self _ _ _, choice, rfl, hanswer⟩
      · exact .inl (Function.update_of_ne hj _ _)
  | register | update | setState | updatePolicy | updateConfigFingerprint =>
      cases h
      exact .inl rfl

theorem substance_next (hpreflight : action.isPreflight = true)
    (h : before.next action = some after) (id : ToolId) :
    (after.shared.records.get id).map RegistryRecord.substance =
      (before.shared.records.get id).map RegistryRecord.substance := by
  cases action with
  | begin i toolCall =>
      obtain ⟨_, rfl⟩ := Pool.spawn_eq_some_iff.mp h
      rfl
  | call i choice =>
      obtain ⟨op, resume, answer, registry, _, hanswer, rfl⟩ := Pool.call_eq_some_iff.mp h
      exact InMemoryRegistry.substance_answer hanswer id
  | register | update | setState | updatePolicy | updateConfigFingerprint => cases hpreflight

theorem isSome_get_next (h : before.next action = some after) {id : ToolId}
    (hsome : (before.shared.get id).isSome = true) : (after.shared.get id).isSome = true := by
  cases action with
  | begin i toolCall =>
      obtain ⟨_, rfl⟩ := Pool.spawn_eq_some_iff.mp h
      exact hsome
  | call i choice =>
      obtain ⟨op, resume, answer, registry, _, hanswer, rfl⟩ := Pool.call_eq_some_iff.mp h
      exact InMemoryRegistry.isSome_get_answer hanswer hsome
  | register manifest =>
      cases h
      exact InMemoryRegistry.isSome_get_after (fun _ => InMemoryRegistry.stores_register) hsome
  | update manifest =>
      cases h
      exact InMemoryRegistry.isSome_get_after (fun _ => InMemoryRegistry.stores_update) hsome
  | setState | updatePolicy | updateConfigFingerprint =>
      cases h
      exact InMemoryRegistry.isSome_get_after (fun _ => InMemoryRegistry.stores_modify) hsome

/-- The calls of a preflight that has returned, each at its moment. -/
theorem runs_of_returned {state target : PreflightPool ι crates} {i : ι}
    {actions : List (RegistryAction ι)} {result : ToolResult PreflightOutput}
    (hrun : (system ι crates).Run state actions target)
    (hothers : ∀ action ∈ actions, action.begins ≠ some i)
    (hdone : target.threads i = .done result) :
    ∃ calls, Runs (state.threads i) calls result ∧
      ∀ call ∈ calls, (system ι crates).Moment state actions target (Answered i call) := by
  have hanswers : ∀ before action after, action ∈ actions →
      (system ι crates).step before action after →
        TransitionSystem.Answers (fun pool => pool.threads i) (Answered i) before action after :=
    fun _ _ _ hmem hstep => answers_of_next (hothers _ hmem) hstep
  exact TransitionSystem.runs_of_run hrun hanswers hdone

/-- The plan of a preflight that is run among others. -/
theorem madeDuring {state begun target : PreflightPool ι crates} {i : ι} {toolCall : ToolCall}
    {actions : List (RegistryAction ι)} {output : PreflightOutput} {plan : PreflightPlan}
    (hbegin : state.next (.begin i toolCall) = some begun)
    (hrun : (system ι crates).Run begun actions target)
    (hothers : ∀ action ∈ actions, action.begins ≠ some i)
    (hdone : target.threads i = .done (.ok output)) (hplan : output.plan = some plan) :
    ∃ spec, MadeDuring state (.begin i toolCall :: actions) target i toolCall spec plan := by
  obtain ⟨calls, hruns, hmoments⟩ := runs_of_returned hrun hothers hdone
  have hstep : (system ι crates).step state (.begin i toolCall) begun := hbegin
  obtain ⟨_, rfl⟩ := Pool.spawn_eq_some_iff.mp hbegin
  dsimp only at hruns
  rw [Function.update_self] at hruns
  obtain ⟨spec, hget, hcalls, hvetted⟩ := vetted_of_runs hruns hplan
  have hregistered := (hmoments _ hget).mono fun before _ _ hanswered => by
    obtain ⟨choice, _, hanswer⟩ := hanswered
    exact (Prod.mk.inj (Option.some.inj hanswer)).1
  obtain ⟨before, _, _, _, hbefore⟩ := hregistered.mem
  obtain ⟨hid, hvalidated⟩ := InMemoryRegistry.validate_of_get hbefore
  refine ⟨spec, ?_⟩
  constructor
  case vetted => exact hvetted hid hvalidated
  case registered => exact hregistered.cons hstep
  case authorized =>
    obtain ⟨decision, hmem, hallow, hobligations⟩ := hcalls.authorized
    refine ((hmoments _ hmem).mono ?_).cons hstep
    rintro _ _ _ ⟨choice, rfl, hanswer⟩
    exact ⟨choice, rfl, decision, (Prod.mk.inj (Option.some.inj hanswer)).1, hallow, hobligations⟩
  case unexpired =>
    intro hrequired consent expiresAt hconsent hexpires
    obtain ⟨reading, hmem, hexpiry⟩ :=
      hcalls.unexpired hrequired consent expiresAt hconsent hexpires
    refine ((hmoments _ hmem).mono ?_).cons hstep
    rintro _ _ _ ⟨choice, rfl, hanswer⟩
    have hreading : choice .now = reading := (Prod.mk.inj (Option.some.inj hanswer)).1
    rw [← hreading] at hexpiry
    exact ⟨choice, rfl, hexpiry⟩
  case configured =>
    obtain ⟨current, hmem, hcurrent⟩ := hcalls.configured
    refine ((hmoments _ hmem).mono ?_).cons hstep
    rintro _ _ _ ⟨choice, rfl, hanswer⟩
    have hanswered : choice .currentConfig = current := (Prod.mk.inj (Option.some.inj hanswer)).1
    rw [← hanswered] at hcurrent
    exact ⟨choice, rfl, hcurrent⟩
  case recorded =>
    intro hfull
    refine ((hmoments _ (hcalls.recorded hfull)).mono ?_).cons hstep
    rintro _ _ _ ⟨choice, rfl, hanswer⟩
    rw [hid] at hanswer
    exact InMemoryRegistry.updated_of_answer hanswer

end PreflightPool

/-- In any interleaving of preflights and changes of the registry, a plan was vetted against one
record that was there at the time. -/
theorem plansRegistered (ι : Type) [DecidableEq ι] (crates : ToolCrates) :
    PlansRegistered ι crates := by
  constructor
  case made =>
    intro state i toolCall actions target output plan _ hrun hothers hdone hplan
    cases hrun with
    | cons hbegin hrest => exact PreflightPool.madeDuring hbegin hrest hothers hdone hplan
  case frame =>
    intro state actions target hrun hpreflight id
    induction hrun with
    | nil _ => rfl
    | cons hstep _ ih =>
        rw [ih fun action hmem => hpreflight action (List.mem_cons_of_mem _ hmem)]
        exact PreflightPool.substance_next (hpreflight _ List.mem_cons_self) hstep id
  case kept =>
    intro state actions target hrun id hsome
    induction hrun with
    | nil _ => exact hsome
    | cons hstep _ ih => exact ih (PreflightPool.isSome_get_next hstep hsome)

end Soulbase.Tools
