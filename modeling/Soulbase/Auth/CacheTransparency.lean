/-
# Decisions from the cache

Calls of a facade with an in-memory decision cache follow one another. Where a call is
answered from the cache with a decision that allows it, it should also be allowed without a
cache, with the same obligations.

A decision is known under the tenant, the subject's id, the resource, the action and the
attributes. What else the authorizer looks at, the kind and the claims of the subject, the
consent and the correlation id, is not part of the key, and the consent of a call that is
answered from the cache is not verified. So the cache is transparent iff the authorizer and
the verifier do not tell such a call from the one that filled the entry.
-/

import Soulbase.Auth.Authorizations

namespace Soulbase.Auth

open Soulbase.Foundation

/-- A facade with a cache, and without limits. -/
def cachedStores : AuthStores MemoryDecisionCache Unit where
  cache := memoryCache
  quota := unlimited

/-- The same without a cache. -/
def uncachedStores : AuthStores Unit Unit where
  cache := noCache
  quota := unlimited

section Runs

variable (facade : AuthFacade) (judges : Judges)

/-- A call of the facade with a cache. -/
def authorizeCached (asked : Asked) (cache : MemoryDecisionCache) :
    Except AuthError AuthResult × AuthWorld MemoryDecisionCache Unit :=
  facade.authorizeIn cachedStores judges asked { cache := cache, quota := () }

/-- The same call without a cache. -/
def authorizeUncached (asked : Asked) : Except AuthError AuthResult :=
  (facade.authorizeIn uncachedStores judges asked { cache := (), quota := () }).1

/-- The cache after calls, the latest first. -/
def cacheAfter : List Asked → MemoryDecisionCache
  | [] => .default
  | asked :: earlier => (authorizeCached facade judges asked (cacheAfter earlier)).2.cache

/-- A call is answered from the cache, with a decision that allows it. -/
structure AnsweredFromCache (earlier : List Asked) (asked : Asked) (subject : Subject)
    (decision : Decision) : Prop where
  authenticated : asked.authenticate asked.ctx.input = .ok subject
  known : ((cacheAfter facade judges earlier).get (asked.key facade subject)
    asked.lookedUpAt).1 = some decision
  allow : decision.allow = true

/-- What is allowed from the cache is allowed without it, with the same obligations. -/
def Transparent (asks : List Asked) : Prop :=
  ∀ asked earlier, asked :: earlier <:+ asks → ∀ subject decision,
    AnsweredFromCache facade judges earlier asked subject decision →
      ∃ other, authorizeUncached facade judges asked = .ok ⟨subject, other⟩ ∧
        other.allow = true ∧ other.obligations = decision.obligations

/-- The attributes of the calls are told apart by their hashes. -/
def HashesApart (asks : List Asked) : Prop :=
  ∀ asked ∈ asks, ∀ other ∈ asks, ∀ subject owner,
    facade.hashAttrs (asked.attrs subject) = facade.hashAttrs (other.attrs owner) →
      asked.attrs subject = other.attrs owner

/-- The key and the request of a call that has a decision made and kept. -/
def kept (asked : Asked) (earlier : List Asked) : Option (DecisionKey × AuthzRequest) :=
  let cache := cacheAfter facade judges earlier
  match asked.authenticate asked.ctx.input, (authorizeCached facade judges asked cache).1 with
  | .ok subject, .ok result =>
      let key := asked.key facade subject
      if (cache.get key asked.lookedUpAt).1.isNone ∧ result.decision.cacheTtlMs > 0 then
        some (key, asked.request subject)
      else none
  | _, _ => none

/-- The last request whose decision was kept under a key. -/
def source (key : DecisionKey) : List Asked → Option AuthzRequest
  | [] => none
  | asked :: earlier =>
      match kept facade judges asked earlier with
      | some (found, request) => if found = key then some request else source key earlier
      | none => source key earlier

/-- The authorizer decides two requests the same way, and the verifier accepts the consents of
both or of neither. -/
structure Judges.SameFor (request other : AuthzRequest) : Prop where
  decision : ∃ first second, judges.decide request = .ok first ∧ judges.decide other = .ok second ∧
    first.allow = second.allow ∧ first.obligations = second.obligations
  consent : judges.Accepts request ↔ judges.Accepts other

/-- A call that is answered from the cache is not told from the one that filled the entry. -/
def Undistinguished (asks : List Asked) : Prop :=
  ∀ asked earlier, asked :: earlier <:+ asks → ∀ subject decision,
    AnsweredFromCache facade judges earlier asked subject decision →
      ∀ request, source facade judges (asked.key facade subject) earlier = some request →
        judges.SameFor request (asked.request subject)

end Runs

section Sources

variable {facade : AuthFacade} {judges : Judges} {asked : Asked} {asks earlier : List Asked}
variable {subject : Subject} {decision : Decision} {key : DecisionKey}

/-- A call that fails keeps nothing. -/
theorem kept_of_error {err : AuthError}
    (h : (authorizeCached facade judges asked (cacheAfter facade judges earlier)).1 =
      .error err) : kept facade judges asked earlier = none := by
  unfold kept
  dsimp only
  rw [h]
  split <;> trivial

theorem source_of_kept_eq_none (h : kept facade judges asked earlier = none) :
    source facade judges key (asked :: earlier) = source facade judges key earlier := by
  rw [source, h]

/-- The entry of a key is what was decided about its source, with an accepted consent where it
allows the request. -/
structure Filled (judges : Judges) (decision : Decision) (request : AuthzRequest) : Prop where
  decided : judges.decide request = .ok decision
  accepted : decision.allow = true → judges.Accepts request

/-- A call that has a decision made, and keeps it where it may. -/
theorem filled_remember {result : AuthResult}
    (hsubject : asked.authenticate asked.ctx.input = .ok subject)
    (hfound : ((cacheAfter facade judges earlier).get (asked.key facade subject)
      asked.lookedUpAt).1 = none)
    (hresult : (authorizeCached facade judges asked (cacheAfter facade judges earlier)).1 =
      .ok result)
    (hdecides : Filled judges result.decision (asked.request subject))
    (hearlier : ∀ key decision, (cacheAfter facade judges earlier).Holds key decision →
      ∃ request, source facade judges key earlier = some request ∧ Filled judges decision request)
    (hholds : (cachedStores.remember asked (asked.key facade subject) result.decision
      ((cacheAfter facade judges earlier).get (asked.key facade subject) asked.lookedUpAt).2).Holds
        key decision) :
    ∃ request, source facade judges key (asked :: earlier) = some request ∧
      Filled judges decision request := by
  have hkept : kept facade judges asked earlier =
      if result.decision.cacheTtlMs > 0 then
        some (asked.key facade subject, asked.request subject) else none := by
    simp [kept, hsubject, hresult, hfound]
  rw [source, hkept]
  unfold AuthStores.remember at hholds
  split at hholds
  case isTrue hlives =>
    rw [if_pos hlives]
    change MemoryDecisionCache.Holds (MemoryDecisionCache.put ..) _ _ at hholds
    rw [MemoryDecisionCache.holds_put_iff] at hholds
    dsimp only
    split at hholds
    case isTrue hkey =>
      subst hkey hholds
      exact ⟨_, if_pos rfl, hdecides⟩
    case isFalse hkey =>
      rw [if_neg fun h => hkey h.symm]
      exact hearlier _ _ (MemoryDecisionCache.holds_of_holds_get hholds)
  case isFalse hdies =>
    rw [if_neg hdies]
    exact hearlier _ _ (MemoryDecisionCache.holds_of_holds_get hholds)

/-- Every entry is what was decided about its source. -/
theorem filled_of_holds (h : (cacheAfter facade judges asks).Holds key decision) :
    ∃ request, source facade judges key asks = some request ∧ Filled judges decision request := by
  induction asks generalizing key decision with
  | nil => exact absurd h MemoryDecisionCache.not_holds_default
  | cons asked earlier ih =>
      have hcomes : Comes facade cachedStores judges asked
          { cache := cacheAfter facade judges earlier, quota := () }
          (authorizeCached facade judges asked (cacheAfter facade judges earlier)) := comes ..
      rw [cacheAfter] at h
      generalize houtcome : authorizeCached facade judges asked (cacheAfter facade judges earlier) =
        outcome at hcomes h
      have hresult := congrArg Prod.fst houtcome
      cases hcomes with
      | unauthenticated _ =>
          rw [source_of_kept_eq_none (kept_of_error hresult)]
          exact ih h
      | cached hsubject hfound =>
          have hnone : kept facade judges asked earlier = none := by
            have hsome := congrArg Prod.fst hfound
            change (MemoryDecisionCache.get ..).1 = _ at hsome
            simp [kept, hsubject, hresult, hsome]
          rw [source_of_kept_eq_none hnone]
          obtain ⟨_, rfl⟩ := Prod.ext_iff.mp hfound
          exact ih (MemoryDecisionCache.holds_of_holds_get h)
      | anew hsubject hfound hdecides =>
          obtain ⟨hnone, rfl⟩ := Prod.ext_iff.mp hfound
          cases hdecides with
          | undecided _ | unconsented _ _ _ | exhausted _ _ _ _ _ =>
              rw [source_of_kept_eq_none (kept_of_error hresult)]
              exact ih (MemoryDecisionCache.holds_of_holds_get h)
          | denied hdecision hdenied =>
              refine filled_remember hsubject hnone hresult ⟨hdecision, ?_⟩ (fun _ _ => ih) h
              intro hallow
              cases hallow.symm.trans hdenied
          | allowed hdecision _ haccepts _ =>
              exact filled_remember hsubject hnone hresult ⟨hdecision, fun _ => haccepts⟩
                (fun _ _ => ih) h

/-- Without a cache a call is allowed iff the authorizer allows it and the verifier accepts its
consent. -/
theorem authorizeUncached_eq_ok_iff (hsubject : asked.authenticate asked.ctx.input = .ok subject)
    (hallow : decision.allow = true) :
    authorizeUncached facade judges asked = .ok ⟨subject, decision⟩ ↔
      judges.decide (asked.request subject) = .ok decision ∧
        judges.Accepts (asked.request subject) := by
  have hcomes := comes facade uncachedStores judges asked { cache := (), quota := () }
  rw [authorizeUncached]
  generalize facade.authorizeIn uncachedStores judges asked { cache := (), quota := () } = outcome
    at hcomes ⊢
  cases hcomes with
  | unauthenticated herror => cases hsubject.symm.trans herror
  | cached _ hfound => cases hfound
  | anew howner _ hdecides =>
      cases hsubject.symm.trans howner
      cases hdecides with
      | undecided hdecision => simp [hdecision]
      | denied hdecision hdenied =>
          refine iff_of_false ?_ ?_
          · intro h
            cases h
            cases hallow.symm.trans hdenied
          · rintro ⟨hother, _⟩
            cases hdecision.symm.trans hother
            cases hallow.symm.trans hdenied
      | unconsented _ _ hrejects => exact iff_of_false nofun fun h => hrejects h.2
      | exhausted _ _ _ hchecked hrefused =>
          exact absurd (congrArg Prod.fst hchecked).symm hrefused
      | allowed hdecision _ haccepts _ =>
          rw [hdecision]
          constructor
          · intro h
            cases h
            exact ⟨rfl, haccepts⟩
          · rintro ⟨hother, _⟩
            cases hother
            rfl

end Sources

/-- The cache is transparent iff no call that it answers is told from the one that filled the
entry. -/
theorem transparent_iff_undistinguished (facade : AuthFacade) (judges : Judges)
    (asks : List Asked) :
    Transparent facade judges asks ↔ Undistinguished facade judges asks := by
  constructor
  · intro htransparent asked earlier hsuffix subject decision hanswered request hsource
    obtain ⟨other, huncached, hallow, hobligations⟩ :=
      htransparent asked earlier hsuffix subject decision hanswered
    rw [authorizeUncached_eq_ok_iff hanswered.authenticated hallow] at huncached
    obtain ⟨filler, hfiller, hfilled⟩ :=
      filled_of_holds (MemoryDecisionCache.holds_of_get hanswered.known)
    cases hsource.symm.trans hfiller
    exact
      { decision := ⟨decision, other, hfilled.decided, huncached.1,
          hanswered.allow.trans hallow.symm, hobligations.symm⟩
        consent := iff_of_true (hfilled.accepted hanswered.allow) huncached.2 }
  · intro hsame asked earlier hsuffix subject decision hanswered
    obtain ⟨request, hsource, hfilled⟩ :=
      filled_of_holds (MemoryDecisionCache.holds_of_get hanswered.known)
    have hagrees := hsame asked earlier hsuffix subject decision hanswered request hsource
    obtain ⟨first, second, hfirst, hsecond, hallow, hobligations⟩ := hagrees.decision
    cases hfilled.decided.symm.trans hfirst
    have hallowed := hallow.symm.trans hanswered.allow
    refine ⟨second, ?_, hallowed, hobligations.symm⟩
    rw [authorizeUncached_eq_ok_iff hanswered.authenticated hallowed]
    exact ⟨hsecond, hagrees.consent.mp (hfilled.accepted hanswered.allow)⟩

namespace ExpiredConsent

open BrowserTool

/-- The tool may be used for a second. -/
def judges : Judges where
  decide _ := .ok decision
  verify consent request := .ok (basicVerify 2000 consent request)

/-- A request with a consent that expires at a time. -/
def request (expiresAt : Int64) : Asked :=
  asked (some
    { scopes := [⟨"soul:tool:browser", "invoke", []⟩]
      expiresAt := some ⟨expiresAt⟩
      purpose := none })

/-- A valid consent, and then one that has expired. -/
def asks : List Asked := [request 1000, request 3000]

theorem hashesApart : HashesApart facade asks := by
  intro asked hasked other hother _ _ _
  simp only [asks, List.mem_cons, List.not_mem_nil, or_false] at hasked hother
  rcases hasked with rfl | rfl <;> rcases hother with rfl | rfl <;> rfl

theorem answered :
    AnsweredFromCache facade judges [request 3000] (request 1000) subject decision :=
  ⟨rfl, rfl, rfl⟩

end ExpiredConsent

/-- A call with a consent that has expired is allowed where one with a valid consent was. -/
theorem not_transparent_expired :
    ¬∀ facade judges asks, HashesApart facade asks → Transparent facade judges asks := by
  intro h
  obtain ⟨_, huncached, _⟩ := h _ ExpiredConsent.judges _ ExpiredConsent.hashesApart _ _
    List.suffix_rfl _ _ ExpiredConsent.answered
  cases huncached

end Soulbase.Auth
