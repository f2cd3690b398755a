/-
# Authorizing a request

`AuthFacade::authorize` as a program over its calls of the authenticator, the attribute
provider, the decision cache, the authorizer, the consent verifier and the quota store, and
the in-memory decision cache. `authorized_of_runs` says what has been called where it returns.
-/

import Soulbase.Auth.Model
import Soulbase.Foundation.FiniteMap
import Soulbase.Foundation.Program

namespace Soulbase.Auth

open Soulbase.Foundation

/-- What `AuthFacade` calls. -/
inductive AuthOp
  /-- `Authenticator::authenticate`. -/
  | authenticate (input : AuthnInput)
  /-- `AttributeProvider::attributes_for`. -/
  | attributesFor (subject : Subject) (resource : ResourceUrn)
  /-- `DecisionCache::get`. -/
  | cacheGet (key : DecisionKey)
  /-- `DecisionCache::put`. -/
  | cachePut (key : DecisionKey) (decision : Decision)
  /-- `Authorizer::decide`. -/
  | decide (request : AuthzRequest)
  /-- `ConsentVerifier::verify`. -/
  | verify (consent : Consent) (request : AuthzRequest)
  /-- `QuotaStore::check_and_consume`. -/
  | checkAndConsume (key : QuotaKey) (cost : Int64)

/-- What a call returns. -/
@[reducible]
def AuthOp.Answer : AuthOp → Type
  | authenticate _ => Except AuthError Subject
  | attributesFor .. => Json.Value
  | cacheGet _ => Option Decision
  | cachePut .. => Unit
  | decide _ => Except AuthError Decision
  | verify .. => Except AuthError Bool
  | checkAndConsume .. => Except AuthError QuotaOutcome

/-- A call that was made and answered. -/
abbrev AuthCall := Sigma AuthOp.Answer

/-- A computation of the facade. -/
abbrev AuthComputation := ExceptT AuthError (Program AuthOp AuthOp.Answer)

/-- Make a call. -/
def call (op : AuthOp) : Program AuthOp AuthOp.Answer op.Answer := perform op

/-- Stop where a call fails. -/
def attempt {α : Type} (program : Program AuthOp AuthOp.Answer (Except AuthError α)) :
    AuthComputation α :=
  ExceptT.mk program

/-- `AuthContext`. -/
structure AuthContext where
  input : AuthnInput
  resource : ResourceUrn
  action : Action
  attrs : Json.Value
  consent : Option Consent
  correlationId : Option String
  cost : Int64

/-- `AuthResult`. -/
structure AuthResult where
  subject : Subject
  decision : Decision

/-- `AuthFacade`. What it calls are the operations; `hashAttrs` is `hash_attrs`, a hash of the
rendered attributes. -/
structure AuthFacade where
  hashAttrs : Json.Value → UInt64

namespace AuthFacade

/-- The `DecisionKey` of a request. -/
def decisionKey (facade : AuthFacade) (subject : Subject) (ctx : AuthContext)
    (attrs : Json.Value) : DecisionKey where
  tenant := subject.tenant.asStr
  subjectId := subject.subjectId.asStr
  resource := ctx.resource
  action := ctx.action
  attrsHash := facade.hashAttrs attrs

/-- The `AuthzRequest` of a request. -/
def authzRequest (subject : Subject) (ctx : AuthContext) (attrs : Json.Value) :
    AuthzRequest where
  subject := subject
  resource := ctx.resource
  action := ctx.action
  attrs := attrs
  consent := ctx.consent
  correlationId := ctx.correlationId

/-- The check of the consent, where there is one. -/
def checkConsent (request : AuthzRequest) : AuthComputation Unit :=
  match request.consent with
  | none => pure ()
  | some consent => do
      let verified ← attempt (call (.verify consent request))
      if verified then pure () else throw (AuthError.policyDeny "consent invalid")

/-- The use of the quota. -/
def consumeQuota (subject : Subject) (ctx : AuthContext) : AuthComputation Unit := do
  let key : QuotaKey :=
    { tenant := subject.tenant.asStr
      subjectId := subject.subjectId.asStr
      resource := ctx.resource
      action := ctx.action }
  match ← attempt (call (.checkAndConsume key ctx.cost)) with
  | .allowed => pure ()
  | .rateLimited => throw AuthError.rateLimited
  | .budgetExceeded => throw AuthError.budgetExceeded

/-- What an allowing decision still depends on. -/
def meetConditions (request : AuthzRequest) (ctx : AuthContext) (decision : Decision) :
    AuthComputation Unit :=
  if decision.allow then do
    checkConsent request
    consumeQuota request.subject ctx
  else pure ()

/-- Keep a decision that may be kept. -/
def remember (key : DecisionKey) (decision : Decision) : AuthComputation Unit :=
  if decision.cacheTtlMs > 0 then ExceptT.lift (call (.cachePut key decision)) else pure ()

/-- What follows where the cache knows no decision. -/
def decideAnew (subject : Subject) (ctx : AuthContext) (key : DecisionKey)
    (attrs : Json.Value) : AuthComputation AuthResult := do
  let request := authzRequest subject ctx attrs
  let decision ← attempt (call (.decide request))
  meetConditions request ctx decision
  remember key decision
  return { subject, decision }

/-- `AuthFacade::authorize`. -/
def authorize (facade : AuthFacade) (ctx : AuthContext) : AuthComputation AuthResult := do
  let subject ← attempt (call (.authenticate ctx.input))
  let provided ← ExceptT.lift (call (.attributesFor subject ctx.resource))
  let attrs := mergeJson provided ctx.attrs
  let key := facade.decisionKey subject ctx attrs
  match ← ExceptT.lift (call (.cacheGet key)) with
  | some decision => return { subject, decision }
  | none => decideAnew subject ctx key attrs

/-- The key of a decision that was made about a request. -/
structure Covers (key : DecisionKey) (request : AuthzRequest) : Prop where
  tenant : key.tenant = request.subject.tenant.asStr
  subjectId : key.subjectId = request.subject.subjectId.asStr
  resource : key.resource = request.resource
  action : key.action = request.action

theorem covers_authzRequest (facade : AuthFacade) (subject : Subject) (ctx : AuthContext)
    (attrs attrs' : Json.Value) :
    Covers (facade.decisionKey subject ctx attrs) (authzRequest subject ctx attrs') :=
  ⟨rfl, rfl, rfl, rfl⟩

/-- What the key of a subject covers is about that subject. -/
theorem Covers.isAbout {facade : AuthFacade} {subject : Subject} {ctx : AuthContext}
    {attrs : Json.Value} {request : AuthzRequest}
    (h : Covers (facade.decisionKey subject ctx attrs) request) :
    request.IsAbout subject ctx.resource ctx.action where
  tenant := TenantId.ext h.tenant.symm
  subjectId := Id.asStr_inj.mp h.subjectId.symm
  resource := h.resource.symm
  action := h.action.symm

/-- A call that does not change the cache. -/
def LeavesCache (op : AuthOp) : Prop := ∀ key decision, op ≠ .cachePut key decision

theorem leavesCache_meetConditions (request : AuthzRequest) (ctx : AuthContext)
    (decision : Decision) :
    (meetConditions request ctx decision).run.CallsOnly LeavesCache := by
  unfold meetConditions
  split
  case isFalse => exact Program.callsOnly_done _
  case isTrue =>
    apply callsOnly_fallible_bind
    · unfold checkConsent
      split
      · exact Program.callsOnly_done _
      · apply callsOnly_fallible_bind
        · exact Program.callsOnly_perform fun _ _ h => by cases h
        · intro verified
          cases verified <;> exact Program.callsOnly_done _
    · intro _
      apply callsOnly_fallible_bind
      · exact Program.callsOnly_perform fun _ _ h => by cases h
      · intro outcome
        cases outcome <;> exact Program.callsOnly_done _

variable {facade : AuthFacade} {ctx : AuthContext} {calls : List AuthCall}

/-- The calls where the cache knows no decision: the authorizer decides, and only what it
has decided is kept. -/
theorem decided_of_runs {subject : Subject} {key : DecisionKey} {attrs : Json.Value}
    {result : Except AuthError AuthResult}
    (h : Runs (decideAnew subject ctx key attrs).run calls result) :
    ∃ answer rest, calls = ⟨.decide (authzRequest subject ctx attrs), answer⟩ :: rest ∧
      (∀ call ∈ rest, ∀ key' decision, call.1 = .cachePut key' decision →
        key' = key ∧ answer = .ok decision) ∧
      ∀ value, result = .ok value → value.subject = subject ∧ answer = .ok value.decision := by
  rcases runs_fallible_bind_iff.mp h with
    ⟨error, hdecide, rfl⟩ | ⟨before, decision, after, rfl, hdecide, hrest⟩
  · obtain ⟨answer, rest, rfl, hdone⟩ := runs_call_iff.mp hdecide
    obtain ⟨rfl, rfl⟩ := runs_done_iff.mp hdone
    exact ⟨.error error, [], rfl, by simp, by simp⟩
  · obtain ⟨answer, rest, rfl, hdone⟩ := runs_call_iff.mp hdecide
    obtain ⟨rfl, rfl⟩ := runs_done_iff.mp hdone
    refine ⟨.ok decision, after, rfl, ?_, ?_⟩
    · intro call hcall key' decision' hput
      rcases runs_fallible_bind_iff.mp hrest with
        ⟨_, hconditions, _⟩ | ⟨admitted, _, kept, rfl, hconditions, hkeep⟩
      · exact absurd hput ((leavesCache_meetConditions _ _ _).of_runs hconditions call hcall _ _)
      · rcases List.mem_append.mp hcall with hmem | hmem
        · exact absurd hput ((leavesCache_meetConditions _ _ _).of_runs hconditions call hmem _ _)
        · rw [remember] at hkeep
          split at hkeep
          case isFalse =>
            rcases runs_fallible_bind_iff.mp hkeep with
              ⟨_, hpure, _⟩ | ⟨_, _, _, rfl, hpure, hreturn⟩
            · obtain ⟨rfl, _⟩ := runs_done_iff.mp hpure
              cases hmem
            · obtain ⟨rfl, _⟩ := runs_done_iff.mp hpure
              obtain ⟨rfl, _⟩ := runs_done_iff.mp hreturn
              cases hmem
          case isTrue =>
            obtain ⟨answer, rest, rfl, hreturn⟩ := runs_call_iff.mp hkeep
            obtain ⟨rfl, _⟩ := runs_done_iff.mp hreturn
            obtain rfl := List.mem_singleton.mp hmem
            cases hput
            exact ⟨rfl, rfl⟩
    · rintro value rfl
      obtain ⟨_, _, _, rfl, _, hkeep⟩ := runs_bind_ok_iff.mp hrest
      obtain ⟨_, _, _, rfl, _, hreturn⟩ := runs_bind_ok_iff.mp hkeep
      cases (runs_done_iff.mp hreturn).2
      exact ⟨rfl, rfl⟩

/-- The calls of the facade begin with the authenticator, the attributes and the cache. -/
theorem authorize_cases {result : Except AuthError AuthResult}
    (h : Runs (facade.authorize ctx).run calls result) :
    (∃ error, calls = [⟨.authenticate ctx.input, .error error⟩] ∧ result = .error error) ∨
      ∃ subject provided cached rest,
        calls = ⟨.authenticate ctx.input, .ok subject⟩ ::
          ⟨.attributesFor subject ctx.resource, provided⟩ ::
            ⟨.cacheGet (facade.decisionKey subject ctx (mergeJson provided ctx.attrs)), cached⟩ ::
              rest ∧
        ((∃ decision, cached = some decision ∧ rest = [] ∧ result = .ok ⟨subject, decision⟩) ∨
          cached = none ∧
            Runs (decideAnew subject ctx
              (facade.decisionKey subject ctx (mergeJson provided ctx.attrs))
              (mergeJson provided ctx.attrs)).run rest result) := by
  rcases runs_fallible_bind_iff.mp h with
    ⟨error, hauth, rfl⟩ | ⟨before, subject, after, rfl, hauth, hrest⟩
  · obtain ⟨answer, rest, rfl, hdone⟩ := runs_call_iff.mp hauth
    obtain ⟨rfl, rfl⟩ := runs_done_iff.mp hdone
    exact .inl ⟨error, rfl, rfl⟩
  · obtain ⟨answer, rest, rfl, hdone⟩ := runs_call_iff.mp hauth
    obtain ⟨rfl, rfl⟩ := runs_done_iff.mp hdone
    obtain ⟨provided, rest, rfl, hcache⟩ := runs_call_iff.mp hrest
    obtain ⟨cached, rest, rfl, hlast⟩ := runs_call_iff.mp hcache
    refine .inr ⟨subject, provided, cached, rest, rfl, ?_⟩
    cases cached with
    | some decision =>
        obtain ⟨rfl, rfl⟩ := runs_done_iff.mp hlast
        exact .inl ⟨decision, rfl, rfl, rfl⟩
    | none => exact .inr ⟨rfl, hlast⟩

/-- Where the facade returns, the authenticator has accepted the input, and the decision is
either known for this subject or made about it. -/
theorem authorized_of_runs {result : AuthResult}
    (h : Runs (facade.authorize ctx).run calls (.ok result)) :
    ⟨.authenticate ctx.input, .ok result.subject⟩ ∈ calls ∧ ∃ attrs,
      ⟨.cacheGet (facade.decisionKey result.subject ctx attrs), some result.decision⟩ ∈ calls ∨
        ⟨.decide (authzRequest result.subject ctx attrs), .ok result.decision⟩ ∈ calls := by
  rcases authorize_cases h with
    ⟨_, _, hfail⟩ | ⟨subject, provided, cached, rest, rfl, hhit | ⟨rfl, hanew⟩⟩
  · cases hfail
  · obtain ⟨decision, rfl, rfl, hok⟩ := hhit
    cases hok
    exact ⟨by simp, mergeJson provided ctx.attrs, .inl (by simp)⟩
  · obtain ⟨answer, rest', rfl, _, hreturn⟩ := decided_of_runs hanew
    obtain ⟨rfl, rfl⟩ := hreturn result rfl
    exact ⟨by simp, mergeJson provided ctx.attrs, .inr (by simp)⟩

/-- Only what the authorizer has decided is kept, under a key that covers the request. -/
theorem decided_of_cachePut {result : Except AuthError AuthResult}
    (h : Runs (facade.authorize ctx).run calls result) {key : DecisionKey}
    {decision : Decision} {answer : (AuthOp.cachePut key decision).Answer}
    (hput : ⟨.cachePut key decision, answer⟩ ∈ calls) :
    ∃ request, ⟨.decide request, .ok decision⟩ ∈ calls ∧ Covers key request := by
  rcases authorize_cases h with
    ⟨_, rfl, _⟩ | ⟨subject, provided, cached, rest, rfl, ⟨_, _, rfl, _⟩ | ⟨rfl, hanew⟩⟩
  · simp at hput
  · simp at hput
  · obtain ⟨answer', rest', rfl, hkept, _⟩ := decided_of_runs hanew
    have hmem : (⟨.cachePut key decision, answer⟩ : AuthCall) ∈ rest' := by simpa using hput
    obtain ⟨rfl, rfl⟩ := hkept _ hmem key decision rfl
    exact ⟨authzRequest subject ctx (mergeJson provided ctx.attrs), by simp,
      covers_authzRequest _ _ _ _ _⟩

end AuthFacade

end Soulbase.Auth
