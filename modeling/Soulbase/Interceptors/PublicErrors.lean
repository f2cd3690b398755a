/-
# What an error tells

An error carries a message for developers, which is for logs and audits. Errors that agree in
everything else count as the same here, and with them the answers of calls that may fail. A
chain is discreet if it cannot tell such answers apart: it makes the same calls and returns what
counts as the same. The stages of the crate are discreet, and so are the chains made of them.
-/

import Soulbase.Foundation.Alike
import Soulbase.Interceptors.ResponseStages

namespace Soulbase.Errors

/-- The error, without the message for developers. -/
def FullErrorObj.withoutDev (error : FullErrorObj) : FullErrorObj :=
  { error with messageDev := none }

/-- The errors differ at most in the message for developers. -/
def FullErrorObj.SamePublic (error error' : FullErrorObj) : Prop :=
  error.withoutDev = error'.withoutDev

namespace FullErrorObj.SamePublic

variable {error error' : FullErrorObj}

theorem retryable (h : error.SamePublic error') : error.retryable = error'.retryable :=
  (congrArg FullErrorObj.retryable h : error.withoutDev.retryable = error'.withoutDev.retryable)

theorem toHttpStatus (h : error.SamePublic error') : error.toHttpStatus = error'.toHttpStatus :=
  (congrArg FullErrorObj.toHttpStatus h :
    error.withoutDev.toHttpStatus = error'.withoutDev.toHttpStatus)

theorem correlationId (h : error.SamePublic error') :
    error.correlationId = error'.correlationId :=
  (congrArg FullErrorObj.correlationId h :
    error.withoutDev.correlationId = error'.withoutDev.correlationId)

theorem toPublic (h : error.SamePublic error') :
    error.toErrorObj.toPublic = error'.toErrorObj.toPublic :=
  (congrArg (fun error : FullErrorObj => error.toErrorObj.toPublic) h :
    error.withoutDev.toErrorObj.toPublic = error'.withoutDev.toErrorObj.toPublic)

end FullErrorObj.SamePublic

end Soulbase.Errors

namespace Soulbase.Auth

open Soulbase.Foundation Soulbase.Errors

/-- The answers of a call of the facade differ at most in the messages for developers. -/
def AuthOp.Same : (op : AuthOp) → op.Answer → op.Answer → Prop
  | .authenticate _, answer, answer' => Result.Alike FullErrorObj.SamePublic Eq answer answer'
  | .decide _, answer, answer' => Result.Alike FullErrorObj.SamePublic Eq answer answer'
  | .verify .., answer, answer' => Result.Alike FullErrorObj.SamePublic Eq answer answer'
  | .checkAndConsume .., answer, answer' => Result.Alike FullErrorObj.SamePublic Eq answer answer'
  | .attributesFor .., answer, answer' => answer = answer'
  | .cacheGet _, answer, answer' => answer = answer'
  | .cachePut .., answer, answer' => answer = answer'

/-- A computation of the facade cannot tell the answers apart. -/
abbrev Discreet {α : Type} (computation : AuthComputation α) : Prop :=
  Program.Alike AuthOp.Same (Result.Alike FullErrorObj.SamePublic Eq) computation.run
    computation.run

namespace AuthFacade

theorem discreet_pure {α : Type} (value : α) : Discreet (pure value) := .done (.ok rfl)

theorem discreet_throw {α : Type} (error : AuthError) :
    Discreet (throw error : AuthComputation α) :=
  .done (.error rfl)

theorem discreet_bind {α β : Type} {first : AuthComputation α} {second : α → AuthComputation β}
    (hfirst : Discreet first) (hsecond : ∀ value, Discreet (second value)) :
    Discreet (first >>= second) := by
  apply alike_fallible_bind hfirst
  rintro value _ rfl
  exact hsecond value

theorem discreet_lift {op : AuthOp} (hop : op.Same = fun answer answer' => answer = answer') :
    Discreet (ExceptT.lift (call op)) := by
  refine .call fun answer answer' hsame => ?_
  rw [hop] at hsame
  exact .done (.ok hsame)

theorem discreet_checkConsent (request : AuthzRequest) : Discreet (checkConsent request) := by
  unfold checkConsent
  split
  · exact discreet_pure ()
  · refine discreet_bind ?_ fun verified => ?_
    · exact .call fun _ _ hsame => .done hsame
    · split
      · exact discreet_pure ()
      · exact discreet_throw _

theorem discreet_consumeQuota (subject : Subject) (ctx : AuthContext) :
    Discreet (consumeQuota subject ctx) := by
  refine discreet_bind ?_ fun outcome => ?_
  · exact .call fun _ _ hsame => .done hsame
  · cases outcome with
    | allowed => exact discreet_pure ()
    | rateLimited => exact discreet_throw _
    | budgetExceeded => exact discreet_throw _

theorem discreet_decideAnew (subject : Subject) (ctx : AuthContext) (key : DecisionKey)
    (attrs : Json.Value) : Discreet (decideAnew subject ctx key attrs) := by
  refine discreet_bind ?_ fun decision => discreet_bind ?_ fun _ => discreet_bind ?_ fun _ => ?_
  · exact .call fun _ _ hsame => .done hsame
  · unfold meetConditions
    split
    · exact discreet_bind (discreet_checkConsent _) fun _ => discreet_consumeQuota _ _
    · exact discreet_pure ()
  · unfold remember
    split
    · exact discreet_lift rfl
    · exact discreet_pure ()
  · exact discreet_pure _

/-- The facade passes no message for developers on, but in errors. -/
theorem discreet_authorize (facade : AuthFacade) (ctx : AuthContext) :
    Discreet (facade.authorize ctx) := by
  refine discreet_bind ?_ fun subject => ?_
  · exact .call fun _ _ hsame => .done hsame
  · refine discreet_bind (discreet_lift rfl) fun provided => ?_
    refine discreet_bind (discreet_lift rfl) fun cached => ?_
    cases cached with
    | none => exact discreet_decideAnew _ _ _ _
    | some decision => exact discreet_pure _

end AuthFacade

end Soulbase.Auth

namespace Soulbase.Interceptors

open Soulbase.Foundation Soulbase.Errors Soulbase.Auth InterceptorChain

/-- The results differ at most in the message for developers of an error. -/
abbrev SameResult {α : Type} : Except InterceptError α → Except InterceptError α → Prop :=
  Result.Alike (fun error error' => error.inner.SamePublic error'.inner) Eq

/-- So do the results, and the contexts are equal. -/
def SameReturned {α : Type} (returned returned' : Returned α) : Prop :=
  SameResult returned.1 returned'.1 ∧ returned.2 = returned'.2

theorem sameResult_refl {α : Type} (result : Except InterceptError α) :
    SameResult result result := by
  cases result with
  | ok value => exact .ok rfl
  | error error => exact .error rfl

theorem sameReturned_refl {α : Type} (returned : Returned α) : SameReturned returned returned :=
  ⟨sameResult_refl returned.1, rfl⟩

namespace ChainOp

/-- The answers of a call differ at most in the messages for developers. -/
def Same : (op : ChainOp) → op.Answer → op.Answer → Prop
  | readJson, answer, answer' => SameResult answer answer'
  | authenticate _, answer, answer' => Result.Alike FullErrorObj.SamePublic Eq answer answer'
  | auth op, answer, answer' => op.Same answer answer'
  | callHandler .., answer, answer' => SameReturned answer answer'
  | callHandlerWithin .., answer, answer' =>
      Option.Rel SameResult answer.1 answer'.1 ∧ answer.2 = answer'.2
  | writeJson _, answer, answer' => SameResult answer answer'
  | newRequestId, answer, answer' => answer = answer'
  | timestampMillis, answer, answer' => answer = answer'
  | snapshot, answer, answer' => answer = answer'
  | idempotencyGet _, answer, answer' => answer = answer'
  | idempotencyPut .., answer, answer' => answer = answer'
  | outside _, answer, answer' => answer = answer'
  | acquirePermit, answer, answer' => answer = answer'
  | sleep _, answer, answer' => answer = answer'
  | setStatus _, answer, answer' => answer = answer'
  | insertHeader .., answer, answer' => answer = answer'

/-- A call that cannot fail with an error. -/
def isSure : ChainOp → Bool
  | readJson | authenticate _ | auth _ | callHandler .. | callHandlerWithin .. | writeJson _ =>
      false
  | _ => true

theorem eq_of_isSure {op : ChainOp} (h : op.isSure = true) {answer answer' : op.Answer}
    (hsame : op.Same answer answer') : answer = answer' := by
  cases op <;> first | exact hsame | cases h

theorem isSure_of_isSync {op : ChainOp} (h : op.isSync = true) : op.isSure = true := by
  cases op <;> first | rfl | cases h

theorem isSure_of_isStore {op : ChainOp} (h : op.isStore = true) : op.isSure = true := by
  cases op <;> first | rfl | cases h

end ChainOp

/-- Two programs of a chain that are alike, where errors may differ in what they tell developers. -/
abbrev Discreet {α : Type} (related : α → α → Prop) : ChainProgram α → ChainProgram α → Prop :=
  Program.Alike ChainOp.Same related

theorem discreet_call_bind {α : Type} {related : α → α → Prop} {op : ChainOp}
    {second second' : op.Answer → ChainProgram α}
    (h : ∀ answer answer', op.Same answer answer' →
      Discreet related (second answer) (second' answer')) :
    Discreet related (call op >>= second) (call op >>= second') :=
  .call h

/-- Programs whose calls cannot fail. -/
theorem discreet_of_callsSure {α : Type} {related : α → α → Prop} {program : ChainProgram α}
    (h : program.CallsOnly fun op => op.isSure = true) (hrefl : ∀ value, related value value) :
    Discreet related program program := by
  have heq : Discreet Eq program program :=
    Program.alike_of_callsOnly h fun _ hop _ _ hsame => ChainOp.eq_of_isSure hop hsame
  exact heq.mono fun value _ hvalue => hvalue ▸ hrefl value

/-- A stage that is alike to itself. -/
def Stage.Discreet (stage : Stage) : Prop :=
  ∀ cx req, Interceptors.Discreet SameReturned (stage.handle cx req) (stage.handle cx req)

/-- A response stage that is alike to itself. -/
def ResponseStage.Discreet (stage : ResponseStage) : Prop :=
  ∀ cx, Interceptors.Discreet SameReturned (stage.handleResponse cx) (stage.handleResponse cx)

/-- A responder that answers errors alike which differ in what they tell developers. -/
def ErrorResponder.Discreet (responder : ErrorResponder) : Prop :=
  ∀ cx (error error' : InterceptError), error.inner.SamePublic error'.inner →
    Interceptors.Discreet SameReturned (responder.handleError cx error)
      (responder.handleError cx error')

/-! ## The stages of the crate -/

theorem ContextInitStage.discreet (stage : ContextInitStage) : stage.toStage.Discreet := by
  intro cx req
  refine discreet_of_callsSure ?_ sameReturned_refl
  apply callsOnly_handle <;> rfl

theorem RoutePolicyStage.discreet (stage : RoutePolicyStage) : stage.toStage.Discreet := by
  intro cx req
  have hattributes : ∀ spec, Interceptors.Discreet Eq (attributes spec) (attributes spec) := by
    intro spec
    unfold attributes
    split
    case isTrue =>
      refine discreet_call_bind fun answer answer' hsame => ?_
      cases hsame with
      | ok hbody => exact .done hbody
      | error _ => exact .done rfl
    case isFalse => exact .done rfl
  change Interceptors.Discreet SameReturned (stage.handle cx req) (stage.handle cx req)
  unfold handle
  split
  · exact .done (sameReturned_refl _)
  · refine (hattributes _).bind ?_
    rintro attrs _ rfl
    exact .done (sameReturned_refl _)

theorem SchemaGuardStage.discreet (crates : Crates) (stage : SchemaGuardStage) :
    (stage.toStage crates).Discreet := by
  intro cx req
  change Interceptors.Discreet SameReturned (stage.handle crates cx req)
    (stage.handle crates cx req)
  unfold handle
  split
  · exact .done (sameReturned_refl _)
  · refine discreet_call_bind fun answer answer' hsame => ?_
    cases hsame with
    | error herror => exact .done ⟨.error herror, rfl⟩
    | @ok payload _ hpayload =>
        subst hpayload
        dsimp only
        cases stage.guard crates _ payload <;> exact .done (sameReturned_refl _)

theorem IdempotencyStage.discreet (crates : Crates) (stage : IdempotencyStage) :
    (stage.toStage crates).Discreet := by
  intro cx req
  refine discreet_of_callsSure ?_ sameReturned_refl
  exact (stage.callsStore_handle crates cx req).mono fun _ => ChainOp.isSure_of_isStore

theorem AuthnMapStage.discreet : AuthnMapStage.Discreet := by
  intro cx req
  change Interceptors.Discreet SameReturned (handle cx req) (handle cx req)
  unfold handle
  split
  · exact .done (sameReturned_refl _)
  · refine discreet_call_bind fun answer answer' hsame => ?_
    cases hsame with
    | error herror => exact .done ⟨.error herror, rfl⟩
    | @ok subject _ hsubject =>
        subst hsubject
        exact .done (sameReturned_refl _)

theorem AuthzQuotaStage.discreet_authorize (stage : AuthzQuotaStage) (ctx : AuthContext) :
    Interceptors.Discreet (Result.Alike FullErrorObj.SamePublic Eq) (stage.authorize ctx)
      (stage.authorize ctx) :=
  (AuthFacade.discreet_authorize stage.facade ctx).embed fun _ _ _ hsame => hsame

theorem AuthzQuotaStage.discreet (crates : Crates) (stage : AuthzQuotaStage) :
    (stage.toStage crates).Discreet := by
  intro cx req
  change Interceptors.Discreet SameReturned (stage.handle crates cx req)
    (stage.handle crates cx req)
  unfold handle
  split
  · exact .done (sameReturned_refl _)
  · exact .done (sameReturned_refl _)
  · split
    · exact .done (sameReturned_refl _)
    · split
      · exact .done (sameReturned_refl _)
      · refine (stage.discreet_authorize _).bind ?_
        intro _ _ hresult
        cases hresult with
        | error herror => exact .done ⟨.error herror, rfl⟩
        | @ok result _ heq =>
            subst heq
            exact .done (sameReturned_refl _)

/-- A request stage of the crate. -/
inductive OwnStage (crates : Crates) : Stage → Prop
  | contextInit (stage : ContextInitStage) : OwnStage crates stage.toStage
  | routePolicy (stage : RoutePolicyStage) : OwnStage crates stage.toStage
  | schemaGuard (stage : SchemaGuardStage) : OwnStage crates (stage.toStage crates)
  | idempotency (stage : IdempotencyStage) : OwnStage crates (stage.toStage crates)
  | authnMap : OwnStage crates AuthnMapStage
  | authzQuota (stage : AuthzQuotaStage) : OwnStage crates (stage.toStage crates)

theorem OwnStage.discreet {crates : Crates} {stage : Stage} (h : OwnStage crates stage) :
    stage.Discreet := by
  cases h with
  | contextInit stage => exact stage.discreet
  | routePolicy stage => exact stage.discreet
  | schemaGuard stage => exact stage.discreet crates
  | idempotency stage => exact stage.discreet crates
  | authnMap => exact AuthnMapStage.discreet
  | authzQuota stage => exact stage.discreet crates

/-- A response stage cannot ask for anything that fails. -/
theorem ResponseStage.discreet (stage : ResponseStage) : stage.Discreet := by
  intro cx
  refine discreet_of_callsSure ?_ sameReturned_refl
  exact (stage.calls_sync cx).mono fun _ => ChainOp.isSure_of_isSync

theorem InterceptError.toPublic_congr {error error' : InterceptError}
    (h : error.inner.SamePublic error'.inner) : error.toPublic = error'.toPublic := by
  unfold toPublic
  rw [h.toPublic, h.correlationId]

theorem DefaultErrorResponder.discreet : DefaultErrorResponder.Discreet := by
  intro cx error error' herror
  change Interceptors.Discreet SameReturned (handleError cx error) (handleError cx error')
  unfold handleError
  rw [InterceptError.toPublic_congr herror, herror.toHttpStatus]
  refine discreet_call_bind fun _ _ _ => discreet_call_bind fun _ _ _ => ?_
  exact discreet_call_bind fun _ _ hwritten => .done ⟨hwritten, rfl⟩

/-- The request stages and the responder of a chain are discreet. Nothing is asked of the response
stages, nor of the handler. -/
structure InterceptorChain.Discreet (chain : InterceptorChain) : Prop where
  stages : ∀ stage ∈ chain.requestStages, stage.Discreet
  responder : chain.errorResponder.Discreet

section Parts

variable {chain : InterceptorChain}

theorem discreet_runStages {stages : List Stage} (h : ∀ stage ∈ stages, stage.Discreet)
    (cx : InterceptContext) (req : ProtoRequest) :
    Interceptors.Discreet SameReturned (runStages stages cx req) (runStages stages cx req) := by
  induction stages generalizing cx with
  | nil => exact .done (sameReturned_refl _)
  | cons stage rest ih =>
      refine (h stage List.mem_cons_self cx req).bind ?_
      rintro ⟨outcome, cx'⟩ ⟨outcome', _⟩ ⟨hsame, rfl⟩
      cases hsame with
      | error herror => exact .done ⟨.error herror, rfl⟩
      | @ok outcome _ heq =>
          subst heq
          cases outcome with
          | proceed => exact ih (fun stage hstage => h stage (List.mem_cons_of_mem _ hstage)) cx'
          | shortCircuit => exact .done (sameReturned_refl _)

theorem discreet_runResponseStages (stages : List ResponseStage) (cx : InterceptContext) :
    Interceptors.Discreet SameReturned (runResponseStages stages cx)
      (runResponseStages stages cx) := by
  induction stages generalizing cx with
  | nil => exact .done (sameReturned_refl _)
  | cons stage rest ih =>
      refine (stage.discreet cx).bind ?_
      rintro ⟨outcome, cx'⟩ ⟨outcome', _⟩ ⟨hsame, rfl⟩
      cases hsame with
      | error herror => exact .done ⟨.error herror, rfl⟩
      | ok _ => exact ih cx'

theorem discreet_attempt (policy : ResiliencePolicy) (cx : InterceptContext)
    (req : ProtoRequest) :
    Interceptors.Discreet (fun ended ended' => Option.Rel SameResult ended.1 ended'.1 ∧
      ended.2 = ended'.2) (policy.attempt cx req) (policy.attempt cx req) := by
  unfold ResiliencePolicy.attempt
  split
  · exact .call fun _ _ hsame => .done hsame
  · refine discreet_call_bind ?_
    rintro ⟨result, cx'⟩ ⟨result', _⟩ ⟨hsame, rfl⟩
    exact .done ⟨.some hsame, rfl⟩

theorem discreet_backOff (policy : ResiliencePolicy) :
    Interceptors.Discreet Eq policy.backOff policy.backOff := by
  unfold ResiliencePolicy.backOff
  split
  · exact .call fun _ _ hsame => .done hsame
  · exact .done rfl

/-- The loop looks at the class of an error only. -/
theorem discreet_conclude {policy : ResiliencePolicy}
    {retry : Option (InterceptContext → ChainProgram (Returned Json.Value))}
    (hretry : ∀ again ∈ retry, ∀ cx, Interceptors.Discreet SameReturned (again cx) (again cx))
    {ended ended' : Option (Except InterceptError Json.Value)} (cx : InterceptContext)
    (h : Option.Rel SameResult ended ended') :
    Interceptors.Discreet SameReturned (policy.conclude retry (ended, cx))
      (policy.conclude retry (ended', cx)) := by
  cases h with
  | none => exact .done (sameReturned_refl _)
  | some hsame =>
      cases hsame with
      | ok hbody => exact .done ⟨.ok hbody, rfl⟩
      | @error error error' herror =>
          unfold ResiliencePolicy.conclude
          dsimp only
          rw [← herror.retryable]
          split
          case h_1 again _ => exact (discreet_backOff policy).bind fun _ _ _ => hretry again rfl cx
          case h_2 => exact .done ⟨.error herror, rfl⟩

theorem discreet_executeFrom (policy : ResiliencePolicy) (req : ProtoRequest) (left : ℕ)
    (cx : InterceptContext) :
    Interceptors.Discreet SameReturned (policy.executeFrom req left cx)
      (policy.executeFrom req left cx) := by
  induction left generalizing cx with
  | zero =>
      refine (discreet_attempt policy cx req).bind ?_
      rintro ⟨ended, cx'⟩ ⟨ended', _⟩ ⟨hsame, rfl⟩
      exact discreet_conclude (by simp) cx' hsame
  | succ left ih =>
      refine (discreet_attempt policy cx req).bind ?_
      rintro ⟨ended, cx'⟩ ⟨ended', _⟩ ⟨hsame, rfl⟩
      refine discreet_conclude ?_ cx' hsame
      rintro again hagain cx
      cases hagain
      exact ih cx

theorem discreet_produce (outcome : StageOutcome) (cx : InterceptContext) (req : ProtoRequest) :
    Interceptors.Discreet SameReturned (chain.produce outcome cx req)
      (chain.produce outcome cx req) := by
  unfold produce
  split
  · refine (discreet_executeFrom _ _ _ _).bind ?_
    rintro ⟨result, cx'⟩ ⟨result', _⟩ ⟨hsame, rfl⟩
    cases hsame with
    | error herror => exact .done ⟨.error herror, rfl⟩
    | @ok body _ hbody =>
        subst hbody
        exact .done (sameReturned_refl _)
  · exact .done (sameReturned_refl _)

theorem discreet_acquire (outcome : StageOutcome) :
    Interceptors.Discreet SameResult (chain.acquire outcome) (chain.acquire outcome) := by
  unfold acquire
  split
  · refine discreet_call_bind ?_
    rintro acquired _ rfl
    cases acquired <;> exact .done (sameResult_refl _)
  · exact .done (sameResult_refl _)

theorem discreet_keep (cx : InterceptContext) :
    Interceptors.Discreet SameResult (chain.keep cx) (chain.keep cx) := by
  refine discreet_of_callsSure ?_ sameResult_refl
  unfold keep
  split
  · split
    · exact Program.callsOnly_done _
    · split
      · exact Program.callsOnly_done _
      · exact Program.callsOnly_call rfl fun _ => Program.callsOnly_done _
  · exact Program.callsOnly_done _

theorem discreet_write (cx : InterceptContext) :
    Interceptors.Discreet SameResult (write cx) (write cx) := by
  have hheaders : Interceptors.Discreet Eq (writeHeaders cx.responseHeaders)
      (writeHeaders cx.responseHeaders) := by
    refine discreet_of_callsSure ?_ fun _ => rfl
    exact (callsSync_writeHeaders cx.responseHeaders).mono fun _ => ChainOp.isSure_of_isSync
  refine discreet_call_bind fun _ _ _ => hheaders.bind fun _ _ _ => ?_
  exact .call fun _ _ hsame => .done hsame

theorem discreet_respond (cx : InterceptContext) :
    Interceptors.Discreet SameResult (chain.respond cx) (chain.respond cx) := by
  refine (discreet_runResponseStages chain.responseStages cx).bind ?_
  rintro ⟨result, cx'⟩ ⟨result', _⟩ ⟨hsame, rfl⟩
  cases hsame with
  | error herror => exact .done (.error herror)
  | ok _ =>
      refine (discreet_keep cx').bind ?_
      intro kept kept' hkept
      cases hkept with
      | error herror => exact .done (.error herror)
      | ok _ => exact discreet_write cx'

variable (h : chain.Discreet)
include h

theorem discreet_refuse (cx : InterceptContext) {error error' : InterceptError}
    (herror : error.inner.SamePublic error'.inner) :
    Interceptors.Discreet SameResult (chain.refuse cx error) (chain.refuse cx error') := by
  refine (h.responder cx error error' herror).bind ?_
  rintro ⟨written, _⟩ ⟨written', _⟩ ⟨hsame, _⟩
  exact .done hsame

theorem discreet_finish (outcome : StageOutcome) (cx : InterceptContext) (req : ProtoRequest) :
    Interceptors.Discreet SameResult (chain.finish outcome cx req)
      (chain.finish outcome cx req) := by
  refine (discreet_acquire outcome).bind ?_
  intro acquired acquired' hacquired
  cases hacquired with
  | error herror => exact .done (.error herror)
  | ok _ =>
      refine (discreet_produce outcome cx req).bind ?_
      rintro ⟨result, cx'⟩ ⟨result', _⟩ ⟨hsame, rfl⟩
      cases hsame with
      | error herror => exact discreet_refuse h cx' herror
      | ok _ => exact discreet_respond cx'

/-- A chain of discreet stages is discreet as a whole. -/
theorem discreet_runWithHandler (cx : InterceptContext) (req : ProtoRequest) :
    Interceptors.Discreet SameResult (chain.runWithHandler cx req)
      (chain.runWithHandler cx req) := by
  refine (discreet_runStages h.stages cx req).bind ?_
  rintro ⟨result, cx'⟩ ⟨result', _⟩ ⟨hsame, rfl⟩
  cases hsame with
  | error herror => exact discreet_refuse h cx' herror
  | @ok outcome _ heq =>
      subst heq
      exact discreet_finish h outcome cx' req

end Parts

end Soulbase.Interceptors
