/-
# Authorizations one after the other

A call of `AuthFacade::authorize` over a decision cache and a quota store, with what the
authenticator, the attribute provider, the authorizer and the consent verifier answer and
what the clock reads. `comes` says what a call comes to, and what it leaves behind.
-/

import Soulbase.Auth.Cache
import Soulbase.Auth.Quota

namespace Soulbase.Auth

open Soulbase.Foundation

/-- `DecisionCache`, with a reading of the clock for each call. -/
structure DecisionCache (κ : Type) where
  get : κ → DecisionKey → Instant → Option Decision × κ
  put : κ → DecisionKey → Decision → Instant → κ

/-- `QuotaStore`. -/
structure QuotaStore (σ : Type) where
  checkAndConsume : σ → QuotaKey → Int64 → Except AuthError QuotaOutcome × σ

/-- `MemoryDecisionCache`. -/
def memoryCache : DecisionCache MemoryDecisionCache where
  get := MemoryDecisionCache.get
  put := MemoryDecisionCache.put

/-- No cache. -/
def noCache : DecisionCache Unit where
  get _ _ _ := (none, ())
  put _ _ _ _ := ()

/-- `MemoryQuotaStore`. -/
def memoryQuota : QuotaStore MemoryQuotaStore where
  checkAndConsume store key cost :=
    ((.ok (store.checkAndConsume key cost).1), (store.checkAndConsume key cost).2)

/-- A quota without limits. -/
def unlimited : QuotaStore Unit where
  checkAndConsume _ _ _ := (.ok .allowed, ())

/-- The stores of a facade. -/
structure AuthStores (κ σ : Type) where
  cache : DecisionCache κ
  quota : QuotaStore σ

/-- What is in the stores. -/
structure AuthWorld (κ σ : Type) where
  cache : κ
  quota : σ

/-- An authorizer and a consent verifier. -/
structure Judges where
  decide : AuthzRequest → Except AuthError Decision
  verify : Consent → AuthzRequest → Except AuthError Bool

/-- The consent of a request, if there is one, is accepted. -/
def Judges.Accepts (judges : Judges) (request : AuthzRequest) : Prop :=
  ∀ consent, request.consent = some consent → judges.verify consent request = .ok true

/-- A call of the facade, with the answers about the caller and what the clock reads at the
lookup and where a decision is stored. -/
structure Asked where
  ctx : AuthContext
  authenticate : AuthnInput → Except AuthError Subject
  attributesFor : Subject → ResourceUrn → Json.Value
  lookedUpAt : Instant
  storedAt : Instant

namespace Asked

variable (asked : Asked)

/-- The attributes of the request. -/
def attrs (subject : Subject) : Json.Value :=
  mergeJson (asked.attributesFor subject asked.ctx.resource) asked.ctx.attrs

/-- The request to the authorizer. -/
def request (subject : Subject) : AuthzRequest :=
  AuthFacade.authzRequest subject asked.ctx (asked.attrs subject)

/-- The key of the decision. -/
def key (facade : AuthFacade) (subject : Subject) : DecisionKey :=
  facade.decisionKey subject asked.ctx (asked.attrs subject)

/-- The key of the quota. -/
def quotaKey (subject : Subject) : QuotaKey where
  tenant := subject.tenant.asStr
  subjectId := subject.subjectId.asStr
  resource := asked.ctx.resource
  action := asked.ctx.action

end Asked

section Stores

variable {κ σ : Type}

/-- What is answered to a call. -/
def AuthStores.respond (stores : AuthStores κ σ) (judges : Judges) (asked : Asked) :
    (op : AuthOp) → AuthWorld κ σ → op.Answer × AuthWorld κ σ
  | .authenticate input, world => (asked.authenticate input, world)
  | .attributesFor subject resource, world => (asked.attributesFor subject resource, world)
  | .cacheGet key, world =>
      let found := stores.cache.get world.cache key asked.lookedUpAt
      (found.1, { world with cache := found.2 })
  | .cachePut key decision, world =>
      ((), { world with cache := stores.cache.put world.cache key decision asked.storedAt })
  | .decide request, world => (judges.decide request, world)
  | .verify consent request, world => (judges.verify consent request, world)
  | .checkAndConsume key cost, world =>
      let checked := stores.quota.checkAndConsume world.quota key cost
      (checked.1, { world with quota := checked.2 })

/-- A call of the facade over its stores. -/
def AuthFacade.authorizeIn (facade : AuthFacade) (stores : AuthStores κ σ) (judges : Judges)
    (asked : Asked) (world : AuthWorld κ σ) : Except AuthError AuthResult × AuthWorld κ σ :=
  (facade.authorize asked.ctx).run.runIn (stores.respond judges asked) world

/-- The cache, after a decision was made. -/
def AuthStores.remember (stores : AuthStores κ σ) (asked : Asked) (key : DecisionKey)
    (decision : Decision) (cache : κ) : κ :=
  if decision.cacheTtlMs > 0 then stores.cache.put cache key decision asked.storedAt else cache

/-- What a call of the facade for a subject comes to, where the cache knows no decision. -/
inductive Decides (facade : AuthFacade) (stores : AuthStores κ σ) (judges : Judges) (asked : Asked)
    (subject : Subject) (world : AuthWorld κ σ) :
    Except AuthError AuthResult × AuthWorld κ σ → Prop
  | undecided {err : AuthError} (hdecision : judges.decide (asked.request subject) = .error err) :
      Decides facade stores judges asked subject world (.error err, world)
  | denied {decision : Decision}
      (hdecision : judges.decide (asked.request subject) = .ok decision)
      (hdenied : decision.allow = false) :
      Decides facade stores judges asked subject world (.ok ⟨subject, decision⟩,
        { world with
          cache := stores.remember asked (asked.key facade subject) decision world.cache })
  | unconsented {decision : Decision} {err : AuthError}
      (hdecision : judges.decide (asked.request subject) = .ok decision)
      (hallow : decision.allow = true) (hrejects : ¬judges.Accepts (asked.request subject)) :
      Decides facade stores judges asked subject world (.error err, world)
  | exhausted {decision : Decision} {err : AuthError} {checked : Except AuthError QuotaOutcome}
      {quota : σ} (hdecision : judges.decide (asked.request subject) = .ok decision)
      (hallow : decision.allow = true) (haccepts : judges.Accepts (asked.request subject))
      (hchecked : stores.quota.checkAndConsume world.quota (asked.quotaKey subject)
        asked.ctx.cost = (checked, quota))
      (hrefused : checked ≠ .ok .allowed) :
      Decides facade stores judges asked subject world (.error err, { world with quota := quota })
  | allowed {decision : Decision} {quota : σ}
      (hdecision : judges.decide (asked.request subject) = .ok decision)
      (hallow : decision.allow = true) (haccepts : judges.Accepts (asked.request subject))
      (hchecked : stores.quota.checkAndConsume world.quota (asked.quotaKey subject)
        asked.ctx.cost = (.ok .allowed, quota)) :
      Decides facade stores judges asked subject world (.ok ⟨subject, decision⟩,
        { cache := stores.remember asked (asked.key facade subject) decision world.cache
          quota := quota })

/-- What a call of the facade comes to. -/
inductive Comes (facade : AuthFacade) (stores : AuthStores κ σ) (judges : Judges) (asked : Asked)
    (world : AuthWorld κ σ) : Except AuthError AuthResult × AuthWorld κ σ → Prop
  | unauthenticated {err : AuthError}
      (hsubject : asked.authenticate asked.ctx.input = .error err) :
      Comes facade stores judges asked world (.error err, world)
  | cached {subject : Subject} {decision : Decision} {cache : κ}
      (hsubject : asked.authenticate asked.ctx.input = .ok subject)
      (hfound : stores.cache.get world.cache (asked.key facade subject) asked.lookedUpAt =
        (some decision, cache)) :
      Comes facade stores judges asked world
        (.ok ⟨subject, decision⟩, { world with cache := cache })
  | anew {subject : Subject} {cache : κ} {outcome : Except AuthError AuthResult × AuthWorld κ σ}
      (hsubject : asked.authenticate asked.ctx.input = .ok subject)
      (hfound : stores.cache.get world.cache (asked.key facade subject) asked.lookedUpAt =
        (none, cache))
      (hdecides :
        Decides facade stores judges asked subject { world with cache := cache } outcome) :
      Comes facade stores judges asked world outcome

variable {facade : AuthFacade} {stores : AuthStores κ σ} {judges : Judges} {asked : Asked}
variable {world : AuthWorld κ σ}

/-- Run a part of a call. -/
def AuthStores.run {α : Type} (stores : AuthStores κ σ) (judges : Judges) (asked : Asked)
    (part : AuthComputation α) (world : AuthWorld κ σ) : Except AuthError α × AuthWorld κ σ :=
  part.run.runIn (stores.respond judges asked) world

section Parts

variable {α β : Type} {first : AuthComputation α} {second : α → AuthComputation β}
variable {next : AuthWorld κ σ}

theorem run_bind_ok {value : α} (h : stores.run judges asked first world = (.ok value, next)) :
    stores.run judges asked (first >>= second) world =
      stores.run judges asked (second value) next :=
  runIn_bind_ok h

theorem run_bind_error {err : AuthError}
    (h : stores.run judges asked first world = (.error err, next)) :
    stores.run judges asked (first >>= second) world = (.error err, next) :=
  runIn_bind_error h

end Parts

/-- The check of the consent leaves the stores alone. -/
theorem run_checkConsent (stores : AuthStores κ σ) (judges : Judges) (asked : Asked)
    (request : AuthzRequest) (world : AuthWorld κ σ) :
    (stores.run judges asked (AuthFacade.checkConsent request) world = (.ok (), world) ∧
        judges.Accepts request) ∨
      ∃ err, stores.run judges asked (AuthFacade.checkConsent request) world = (.error err, world) ∧
        ¬judges.Accepts request := by
  unfold AuthFacade.checkConsent Judges.Accepts
  cases hconsent : request.consent with
  | none => exact .inl ⟨rfl, nofun⟩
  | some consent =>
      simp only [Option.some.injEq, forall_eq']
      cases hverified : judges.verify consent request with
      | error err =>
          have hcall : stores.run judges asked (attempt (call (.verify consent request))) world =
              (.error err, world) := Prod.ext hverified rfl
          exact .inr ⟨err, run_bind_error hcall, nofun⟩
      | ok verified =>
          have hcall : stores.run judges asked (attempt (call (.verify consent request))) world =
              (.ok verified, world) := Prod.ext hverified rfl
          cases verified with
          | true => exact .inl ⟨run_bind_ok hcall, rfl⟩
          | false => exact .inr ⟨_, run_bind_ok hcall, nofun⟩

/-- The use of the quota. -/
theorem run_consumeQuota (stores : AuthStores κ σ) (judges : Judges) (asked : Asked)
    (subject : Subject) (world : AuthWorld κ σ) :
    ∃ checked quota, stores.quota.checkAndConsume world.quota (asked.quotaKey subject)
        asked.ctx.cost = (checked, quota) ∧
      ((stores.run judges asked (AuthFacade.consumeQuota subject asked.ctx) world =
          (.ok (), { world with quota := quota }) ∧ checked = .ok .allowed) ∨
        ∃ err, stores.run judges asked (AuthFacade.consumeQuota subject asked.ctx) world =
          (.error err, { world with quota := quota }) ∧ checked ≠ .ok .allowed) := by
  generalize hchecked : stores.quota.checkAndConsume world.quota (asked.quotaKey subject)
    asked.ctx.cost = outcome
  obtain ⟨checked, quota⟩ := outcome
  refine ⟨checked, quota, rfl, ?_⟩
  have hcall : stores.run judges asked
      (attempt (call (.checkAndConsume (asked.quotaKey subject) asked.ctx.cost))) world =
        (checked, { world with quota := quota }) :=
    congrArg (fun outcome => (outcome.1, { world with quota := outcome.2 })) hchecked
  cases checked with
  | error err => exact .inr ⟨err, run_bind_error hcall, nofun⟩
  | ok outcome =>
      cases outcome with
      | allowed => exact .inl ⟨run_bind_ok hcall, rfl⟩
      | rateLimited => exact .inr ⟨_, run_bind_ok hcall, nofun⟩
      | budgetExceeded => exact .inr ⟨_, run_bind_ok hcall, nofun⟩

theorem run_remember (stores : AuthStores κ σ) (judges : Judges) (asked : Asked)
    (key : DecisionKey) (decision : Decision) (world : AuthWorld κ σ) :
    stores.run judges asked (AuthFacade.remember key decision) world =
      (.ok (), { world with cache := stores.remember asked key decision world.cache }) := by
  unfold AuthFacade.remember AuthStores.remember
  split <;> rfl

/-- What follows where the cache knows no decision. -/
theorem decides (facade : AuthFacade) (stores : AuthStores κ σ) (judges : Judges) (asked : Asked)
    (subject : Subject) (world : AuthWorld κ σ) :
    Decides facade stores judges asked subject world (stores.run judges asked
      (AuthFacade.decideAnew subject asked.ctx (asked.key facade subject) (asked.attrs subject))
        world) := by
  change Decides _ _ _ _ _ _ (stores.run judges asked
    (attempt (call (.decide (asked.request subject))) >>= _) world)
  cases hdecision : judges.decide (asked.request subject) with
  | error err =>
      have hcall : stores.run judges asked (attempt (call (.decide (asked.request subject))))
          world = (.error err, world) := Prod.ext hdecision rfl
      rw [run_bind_error hcall]
      exact .undecided hdecision
  | ok decision =>
      have hcall : stores.run judges asked (attempt (call (.decide (asked.request subject))))
          world = (.ok decision, world) := Prod.ext hdecision rfl
      rw [run_bind_ok hcall]
      change Decides _ _ _ _ _ _ (stores.run judges asked ((if decision.allow = true then
        AuthFacade.checkConsent (asked.request subject) >>= fun _ =>
          AuthFacade.consumeQuota subject asked.ctx else pure ()) >>= _) world)
      split
      case isFalse hdenied =>
        rw [run_bind_ok rfl, run_bind_ok (run_remember ..)]
        exact .denied hdecision (Bool.eq_false_iff.mpr hdenied)
      case isTrue hallow =>
        rw [bind_assoc]
        rcases run_checkConsent stores judges asked (asked.request subject) world with
          ⟨hconsent, haccepts⟩ | ⟨err, hconsent, hrejects⟩
        · rw [run_bind_ok hconsent]
          obtain ⟨checked, quota, hchecked, ⟨hquota, rfl⟩ | ⟨err, hquota, hrefused⟩⟩ :=
            run_consumeQuota stores judges asked subject world
          · rw [run_bind_ok hquota, run_bind_ok (run_remember ..)]
            exact .allowed hdecision hallow haccepts hchecked
          · rw [run_bind_error hquota]
            exact .exhausted hdecision hallow haccepts hchecked hrefused
        · rw [run_bind_error hconsent]
          exact .unconsented hdecision hallow hrejects

theorem comes (facade : AuthFacade) (stores : AuthStores κ σ) (judges : Judges) (asked : Asked)
    (world : AuthWorld κ σ) :
    Comes facade stores judges asked world (facade.authorizeIn stores judges asked world) := by
  change Comes _ _ _ _ _ (stores.run judges asked (facade.authorize asked.ctx) world)
  unfold AuthFacade.authorize
  cases hsubject : asked.authenticate asked.ctx.input with
  | error err =>
      have hcall : stores.run judges asked (attempt (call (.authenticate asked.ctx.input))) world =
          (.error err, world) := Prod.ext hsubject rfl
      rw [run_bind_error hcall]
      exact .unauthenticated hsubject
  | ok subject =>
      have hcall : stores.run judges asked (attempt (call (.authenticate asked.ctx.input))) world =
          (.ok subject, world) := Prod.ext hsubject rfl
      rw [run_bind_ok hcall, run_bind_ok rfl]
      change Comes _ _ _ _ _ (stores.run judges asked
        (ExceptT.lift (call (.cacheGet (asked.key facade subject))) >>= _) world)
      generalize hfound : stores.cache.get world.cache (asked.key facade subject)
        asked.lookedUpAt = found
      obtain ⟨known, cache⟩ := found
      have hget : stores.run judges asked
          (ExceptT.lift (call (.cacheGet (asked.key facade subject)))) world =
            (.ok known, { world with cache := cache }) :=
        congrArg (fun found => (Except.ok found.1, { world with cache := found.2 })) hfound
      cases known with
      | some decision =>
          rw [run_bind_ok hget]
          exact .cached hsubject hfound
      | none =>
          rw [run_bind_ok hget]
          exact .anew hsubject hfound (decides ..)

end Stores

namespace BrowserTool

def facade : AuthFacade := ⟨fun _ => 0⟩

def subject : Subject where
  kind := .user
  subjectId := ⟨"user1"⟩
  tenant := ⟨"tenantA"⟩
  claims := []

/-- The subject may use the tool for a second. -/
def decision : Decision where
  allow := true
  reason := none
  obligations := []
  evidence := .object [("policy", .string "static_allow")]
  cacheTtlMs := 1000

/-- The subject wants to use the tool. -/
def asked (consent : Option Consent) : Asked where
  ctx :=
    { input := .bearer "token123"
      resource := ⟨"soul:tool:browser"⟩
      action := .invoke
      attrs := .object []
      consent := consent
      correlationId := none
      cost := 1 }
  authenticate _ := .ok subject
  attributesFor _ _ := .object []
  lookedUpAt := 0
  storedAt := 0

end BrowserTool

end Soulbase.Auth
