/-
# Who is answered with what a handler returned

A chain with the stages of the crate in the order of its tests, over any sequence of requests.
A body that comes from the handler is only written for a request whose credentials were
accepted and whose route was allowed. A body that comes from the idempotency store is written
before anybody is asked, so the same holds of a run as long as nothing is found there.
-/

import Soulbase.Interceptors.Service

namespace Soulbase.Interceptors

open Soulbase.Foundation Soulbase.Errors Soulbase.Auth InterceptorChain

/-- What a chain with these request stages may still choose. -/
structure GuardedChain where
  crates : Crates
  contextInit : ContextInitStage
  routePolicy : RoutePolicyStage
  schemaGuard : SchemaGuardStage
  idempotency : IdempotencyStage
  authzQuota : AuthzQuotaStage
  responseStages : List ResponseStage
  errorResponder : ErrorResponder
  resilience : ResiliencePolicy
  concurrencyLimit : Option ℕ
  toVec : Json.Value → Except String (List UInt8)

namespace GuardedChain

/-- The stages before the lookup. -/
def opening (guarded : GuardedChain) : List Stage :=
  [guarded.contextInit.toStage, guarded.routePolicy.toStage,
    guarded.schemaGuard.toStage guarded.crates]

/-- The stages after it. -/
def checks (guarded : GuardedChain) : List Stage :=
  [AuthnMapStage, guarded.authzQuota.toStage guarded.crates]

/-- The chain. -/
def toChain (guarded : GuardedChain) : InterceptorChain where
  requestStages :=
    guarded.opening ++ guarded.idempotency.toStage guarded.crates :: guarded.checks
  responseStages := guarded.responseStages
  errorResponder := guarded.errorResponder
  resilience := guarded.resilience
  concurrencyLimit := guarded.concurrencyLimit
  toVec := guarded.toVec

end GuardedChain

namespace ServedRequest

/-- A body is written that came from a handler, in this request or replayed. -/
structure Delivers (served : ServedRequest) : Prop where
  produced : ∃ call ∈ served.calls, call.isHandled = true ∨ call.isReplayed = true
  written : ∃ call ∈ served.calls, call.isWritten = true

/-- The request carries credentials that were accepted for a subject. -/
def AcceptedFor (served : ServedRequest) (subject : Subject) : Prop :=
  ∃ header, served.req.header "Authorization" = some header ∧
    (∃ known, ⟨.authenticate (.bearer (AuthnMapStage.bearerToken header)), .ok known⟩ ∈
      served.calls) ∧
    ⟨.auth (.authenticate (.bearer (AuthnMapStage.bearerToken header))), .ok subject⟩ ∈
      served.calls

/-- The request may be answered for a subject: its credentials are the ones of the subject,
the authorizer has allowed the subject what the route of the request is for, and a response
that was found is one that the subject has brought about. -/
structure EntitledFor (guarded : GuardedChain) (history : List ServedRequest)
    (served : ServedRequest) (subject : Subject) : Prop where
  accepted : served.AcceptedFor subject
  allowed : ∃ spec request decision,
    guarded.routePolicy.policy.matchHttp served.req.method served.req.path = some spec ∧
      ⟨.auth (.decide request), .ok decision⟩ ∈ callsOf (history ++ [served]) ∧
        decision.allow = true ∧ request.IsAbout subject ⟨spec.bind.resource⟩
          (RoutePolicyStage.convertAction spec.bind.action)
  brought : ∀ key response, ⟨.idempotencyGet key, some response⟩ ∈ served.calls →
    ∃ producer ∈ history, producer.AcceptedFor subject ∧
      ∃ ttl, ⟨.idempotencyPut key response ttl, ()⟩ ∈ producer.calls

/-- The key under which the request is looked up, if it is. -/
def lookupKey (guarded : GuardedChain) (served : ServedRequest) : Option String :=
  guarded.idempotency.lookupKey guarded.crates
    { served.cx with tenantHeader := served.req.header "X-Soul-Tenant" } served.req

/-- When the request begins there is no response under its key that still counts. -/
def FindsNothing (guarded : GuardedChain) (served : ServedRequest) : Prop :=
  ∀ key, served.lookupKey guarded = some key →
    served.before.responses.live key served.before.clock = none

end ServedRequest

/-- Whoever is answered with what a handler returned is entitled to it. -/
def AnswersEntitled (guarded : GuardedChain) (requests : List ServedRequest) : Prop :=
  ∀ history served rest, requests = history ++ served :: rest → served.Delivers →
    ∃ subject, served.EntitledFor guarded history subject

section Opening

variable {guarded : GuardedChain} {env last : ChainWorld} {calls : List ChainCall}
variable {cx cx' : InterceptContext} {req : ProtoRequest}

theorem callsPlain_opening (guarded : GuardedChain) (cx : InterceptContext)
    (req : ProtoRequest) : CallsPlain (runStages guarded.opening cx req) := by
  apply callsOnly_runStages
  intro stage hstage
  simp only [GuardedChain.opening, List.mem_cons, List.not_mem_nil, or_false] at hstage
  rcases hstage with rfl | rfl | rfl
  · exact guarded.contextInit.callsPlain_handle
  · exact guarded.routePolicy.callsPlain_handle
  · exact guarded.schemaGuard.callsPlain_handle guarded.crates

/-- What the context is at the lookup. -/
theorem opened_of_trail
    (h : Trail ChainWorld.answer (runStages guarded.opening cx req) env calls
      (.ok .proceed, cx') last) :
    cx'.tenantHeader = req.header "X-Soul-Tenant" ∧ cx'.subject = cx.subject ∧
      ∃ spec attrs, guarded.routePolicy.policy.matchHttp req.method req.path = some spec ∧
        cx'.route = some (RoutePolicyStage.binding spec attrs) := by
  obtain ⟨_, first, _, _, rfl, hinit, hrest⟩ := trail_runStages_cons h
  obtain ⟨_, second, _, _, rfl, hroute, hrest⟩ := trail_runStages_cons hrest
  obtain ⟨_, third, _, _, rfl, hguard, hrest⟩ := trail_runStages_cons hrest
  obtain ⟨rfl, _, rfl, rfl⟩ := trail_runStages_nil hrest
  obtain ⟨_, _, _, _, _, rfl⟩ := ContextInitStage.runs_handle hinit.runs
  obtain ⟨_, spec, attrs, hspec, rfl⟩ := RoutePolicyStage.route_of_runs hroute.runs
  obtain ⟨_, _, rfl⟩ := SchemaGuardStage.extensions_of_runs req hguard.runs
  exact ⟨rfl, rfl, spec, attrs, hspec, rfl⟩

/-- The stages before the lookup leave the responses alone. -/
theorem responses_of_opening {result : Returned StageOutcome}
    (h : Trail ChainWorld.answer (runStages guarded.opening cx req) env calls result last) :
    last.responses = env.responses ∧ env.clock ≤ last.clock := by
  exact ⟨ChainWorld.responses_of_aside h (callsPlain_opening guarded cx req).callsAside,
    ChainWorld.clock_le_of_trail h⟩

end Opening

section Lookup

variable {guarded : GuardedChain} {env last : ChainWorld} {calls : List ChainCall}
variable {cx cx' : InterceptContext} {req : ProtoRequest}

theorem callsAside_checks (guarded : GuardedChain) (cx : InterceptContext)
    (req : ProtoRequest) : CallsAside (runStages guarded.checks cx req) := by
  apply callsOnly_runStages
  intro stage hstage
  simp only [GuardedChain.checks, List.mem_cons, List.not_mem_nil, or_false] at hstage
  rcases hstage with rfl | rfl
  · exact fun cx req => (AuthnMapStage.callsPlain_handle cx req).callsAside
  · exact guarded.authzQuota.callsAside_handle guarded.crates

/-- A lookup that finds a response ends the stages, and what it finds counts at some time
after its beginning. -/
theorem live_of_lookup {outcome : Except InterceptError StageOutcome}
    (h : Trail ChainWorld.answer (guarded.idempotency.handle guarded.crates cx req) env calls
      (outcome, cx') last) {call : ChainCall} (hcall : call ∈ calls)
    (hreplayed : call.isReplayed = true) :
    outcome = .ok .shortCircuit ∧ ∃ key now,
      guarded.idempotency.lookupKey guarded.crates cx req = some key ∧ env.clock ≤ now ∧
        env.responses.live key now ≠ none := by
  rcases guarded.idempotency.handle_cases guarded.crates cx req with
    ⟨_, hhandle | hhandle⟩ | ⟨layer, key, _, hkey, hhandle⟩
  · rw [hhandle] at h
    obtain ⟨rfl, _, _⟩ := trail_done_iff.mp h
    cases hcall
  · rw [hhandle] at h
    obtain ⟨rfl, _, _⟩ := trail_done_iff.mp h
    cases hcall
  · rw [hhandle] at h
    obtain ⟨choice, answer, middle, rest, rfl, hanswer, hrest⟩ := trail_call_iff.mp h
    have hfound : (env.responses.get key (env.clock + choice.elapsed)).1 = answer :=
      congrArg Prod.fst (ChainWorld.answer_eq_some_iff.mp hanswer)
    rw [MemoryIdempotencyStore.get_fst] at hfound
    cases answer with
    | none =>
        obtain ⟨rfl, _, _⟩ := trail_done_iff.mp hrest
        obtain rfl := List.mem_singleton.mp hcall
        cases hreplayed
    | some response =>
        obtain ⟨rfl, heq, _⟩ := trail_done_iff.mp hrest
        cases heq
        exact ⟨rfl, key, env.clock + choice.elapsed, hkey, Nat.le_add_right _ _, by simp [hfound]⟩

/-- A request that finds a response goes from the lookup straight to the response stages. -/
theorem course_of_replayed {served : ServedRequest} (hserved : served.Happens guarded.toChain)
    {call : ChainCall} (hcall : call ∈ served.calls) (hreplayed : call.isReplayed = true) :
    ∃ early opened opening looked found looking late,
      served.calls = early ++ looked ++ late ∧ call ∈ looked ∧
        Trail ChainWorld.answer (runStages guarded.opening served.cx served.req) served.before
          early (.ok .proceed, opened) opening ∧
        Trail ChainWorld.answer (guarded.idempotency.handle guarded.crates opened served.req)
          opening looked (.ok .shortCircuit, found) looking ∧
        Trail ChainWorld.answer (guarded.toChain.respond found) looking late served.result
          served.after := by
  obtain ⟨key, hop⟩ := ChainCall.lookup_of_isReplayed hreplayed
  obtain ⟨before, stopped, between, middle, after, hcalls, hstages, hrest⟩ :=
    course_of_trail hserved
  have hbefore : call ∈ before := by
    rw [hcalls] at hcall
    rcases List.mem_append.mp hcall with hmem | hmem
    · exact hmem
    · rcases hrest with ⟨error, _, hrefuse⟩ | ⟨outcome, _, hfinish⟩
      · have hreply := (callsReply_refuse _ between error).of_runs hrefuse.runs call hmem
        rw [hop] at hreply
        cases hreply
      · have hlate := (callsLate_finish _ outcome between served.req).of_runs hfinish.runs call
          hmem
        rw [hop] at hlate
        cases hlate
  have hsplit := runStages_append guarded.opening
    (guarded.idempotency.toStage guarded.crates :: guarded.checks) served.cx served.req
  have hopened : Trail ChainWorld.answer (runStages (guarded.opening ++
      guarded.idempotency.toStage guarded.crates :: guarded.checks) served.cx served.req)
      served.before before (stopped, between) middle := hstages
  rw [hsplit] at hopened
  obtain ⟨early, outcome, opened, opening, rest, rfl, hfirst, hlate⟩ := trail_advance hopened
  have hrest_mem : call ∈ rest := by
    rcases List.mem_append.mp hbefore with hearly | hmem
    · have hplain := (callsPlain_opening guarded served.cx served.req).of_runs hfirst.runs call
        hearly
      rw [hop] at hplain
      cases hplain
    · exact hmem
  rcases hlate with ⟨rfl, hlate⟩ | ⟨_, rfl, _⟩
  · obtain ⟨looked, outcome, found, looking, checked, rfl, hlookup, hchecks⟩ :=
      trail_advance hlate
    have hlooked : call ∈ looked := by
      rcases List.mem_append.mp hrest_mem with hmem | hchecked
      · exact hmem
      · rcases hchecks with ⟨_, hchecks⟩ | ⟨_, rfl, _⟩
        · have haside := (callsAside_checks guarded found served.req).of_runs hchecks.runs call
            hchecked
          rw [hop] at haside
          cases haside
        · cases hchecked
    obtain ⟨rfl, _⟩ := live_of_lookup hlookup hlooked hreplayed
    obtain ⟨hne, _⟩ | ⟨_, rfl, rfl, rfl, rfl⟩ := hchecks
    · cases hne
    · obtain ⟨_, herror, _⟩ | ⟨_, hok, hfinish⟩ := hrest
      · cases herror
      · cases hok
        rw [finish_shortCircuit] at hfinish
        exact ⟨early, opened, opening, looked, between, middle, after,
          by rw [hcalls, List.append_nil], hlooked, hfirst, hlookup, hfinish⟩
  · cases hrest_mem

/-- Where nothing is to be found, nothing is. -/
theorem not_replayed {served : ServedRequest} (hserved : served.Happens guarded.toChain)
    (hnothing : served.FindsNothing guarded) {call : ChainCall} (hcall : call ∈ served.calls) :
    call.isReplayed = false := by
  by_contra hreplayed
  rw [Bool.not_eq_false] at hreplayed
  obtain ⟨_, opened, opening, _, _, _, _, _, hlooked, hfirst, hlookup, _⟩ :=
    course_of_replayed hserved hcall hreplayed
  obtain ⟨_, key, now, hkey, hnow, hlive⟩ := live_of_lookup hlookup hlooked hreplayed
  obtain ⟨htenant, hsubject, _⟩ := opened_of_trail hfirst
  obtain ⟨hresponses, hclock⟩ := responses_of_opening hfirst
  have hsame : served.lookupKey guarded =
      guarded.idempotency.lookupKey guarded.crates opened served.req :=
    @IdempotencyStage.lookupKey_congr guarded.crates guarded.idempotency
      { served.cx with tenantHeader := served.req.header "X-Soul-Tenant" } opened
      htenant.symm hsubject.symm served.req
  rw [hresponses] at hlive
  apply hlive
  apply MemoryIdempotencyStore.live_eq_none_of_le _ (hclock.trans hnow)
  exact hnothing key (hsame.trans hkey)

/-- A request that finds a response is entitled to nothing, whoever sends it: its
credentials are not looked at. -/
theorem not_entitledFor_of_replayed {history : List ServedRequest} {served : ServedRequest}
    (hserved : served.Happens guarded.toChain) {call : ChainCall} (hcall : call ∈ served.calls)
    (hreplayed : call.isReplayed = true) (subject : Subject) :
    ¬served.EntitledFor guarded history subject := by
  intro hentitled
  obtain ⟨header, _, _, haccepted⟩ := hentitled.accepted
  obtain ⟨early, opened, _, looked, found, _, late, hcalls, _, hfirst, hlookup, hrespond⟩ :=
    course_of_replayed hserved hcall hreplayed
  rw [hcalls, List.mem_append, List.mem_append] at haccepted
  rcases haccepted with (hearly | hmem) | hlate
  · have hplain := (callsPlain_opening guarded _ _).of_runs hfirst.runs _ hearly
    cases hplain
  · have hstore := (guarded.idempotency.callsStore_handle guarded.crates opened served.req).of_runs
      hlookup.runs _ hmem
    cases hstore
  · have hreply := (callsReply_respond _ found).of_runs hrespond.runs _ hlate
    cases hreply

end Lookup

/-! ## The decisions -/

section Decisions

/-- Every decision that is kept was made about a request that its key covers. -/
def KeepsDecided (calls : List ChainCall) : Prop :=
  ∀ key decision answer, ⟨.auth (.cachePut key decision), answer⟩ ∈ calls →
    ∃ request, ⟨.auth (.decide request), .ok decision⟩ ∈ calls ∧ AuthFacade.Covers key request

theorem KeepsDecided.append {calls more : List ChainCall} (h : KeepsDecided calls)
    (hmore : KeepsDecided more) : KeepsDecided (calls ++ more) := by
  intro key decision answer hput
  rcases List.mem_append.mp hput with hmem | hmem
  · obtain ⟨request, hdecide, hcovers⟩ := h key decision answer hmem
    exact ⟨request, List.mem_append_left _ hdecide, hcovers⟩
  · obtain ⟨request, hdecide, hcovers⟩ := hmore key decision answer hmem
    exact ⟨request, List.mem_append_right _ hdecide, hcovers⟩

theorem keepsDecided_of_callsOnly {α : Type} {program : ChainProgram α}
    {permits : ChainOp → Prop} {calls : List ChainCall} {value : α}
    (h : program.CallsOnly permits) (hauth : ∀ op, ¬permits (.auth op))
    (hruns : Runs program calls value) : KeepsDecided calls := by
  intro key decision answer hput
  exact absurd (h.of_runs hruns _ hput) (hauth _)

/-- What holds of the calls of each stage holds of those of all stages. -/
theorem runs_runStages {holds : List ChainCall → Prop} (hnil : holds [])
    (happend : ∀ {calls more}, holds calls → holds more → holds (calls ++ more))
    {stages : List Stage} {req : ProtoRequest}
    (hstage : ∀ stage ∈ stages, ∀ cx calls returned,
      Runs (stage.handle cx req) calls returned → holds calls)
    {cx : InterceptContext} {calls : List ChainCall} {returned : Returned StageOutcome}
    (h : Runs (runStages stages cx req) calls returned) : holds calls := by
  induction stages generalizing cx calls with
  | nil =>
      obtain ⟨rfl, _⟩ := runs_done_iff.mp h
      exact hnil
  | cons stage rest ih =>
      obtain ⟨before, ⟨outcome, between⟩, after, rfl, hfirst, hrest⟩ := runs_bind_iff.mp h
      apply happend (hstage stage List.mem_cons_self cx before _ hfirst)
      match outcome with
      | .ok .proceed =>
          exact ih (fun stage hmem => hstage stage (List.mem_cons_of_mem _ hmem)) hrest
      | .ok .shortCircuit =>
          obtain ⟨rfl, _⟩ := runs_done_iff.mp hrest
          exact hnil
      | .error _ =>
          obtain ⟨rfl, _⟩ := runs_done_iff.mp hrest
          exact hnil

theorem keepsDecided_authzQuota {crates : Crates} {stage : AuthzQuotaStage}
    {cx : InterceptContext} (req : ProtoRequest) {calls : List ChainCall}
    {returned : Returned StageOutcome} (h : Runs (stage.handle crates cx req) calls returned) :
    KeepsDecided calls := by
  have hnil : ∀ {returned'}, Runs (.done returned' : ChainProgram (Returned StageOutcome)) calls
      returned → KeepsDecided calls := by
    intro returned' hdone
    obtain ⟨rfl, _⟩ := runs_done_iff.mp hdone
    exact fun _ _ _ hput => by cases hput
  unfold AuthzQuotaStage.handle at h
  split at h
  · exact hnil h
  · exact hnil h
  · split at h
    · exact hnil h
    · split at h
      · exact hnil h
      · obtain ⟨before, answer, after, rfl, hfacade, hrest⟩ := runs_bind_iff.mp h
        obtain ⟨inner, rfl, hinner⟩ := AuthzQuotaStage.runs_authorize_iff.mp hfacade
        have hafter : after = [] := by
          cases answer <;> exact (runs_done_iff.mp hrest).1
        subst hafter
        rw [List.append_nil]
        intro key decision reply hput
        obtain ⟨request, hdecide, hcovers⟩ :=
          AuthFacade.decided_of_cachePut hinner (AuthzQuotaStage.mem_map_authCall_iff.mp hput)
        exact ⟨request, AuthzQuotaStage.mem_map_authCall_iff.mpr hdecide, hcovers⟩

/-- Every request keeps only decisions that it was given. -/
theorem keepsDecided_of_happens {guarded : GuardedChain} {served : ServedRequest}
    (h : served.Happens guarded.toChain) : KeepsDecided served.calls := by
  obtain ⟨before, stopped, between, middle, after, hcalls, hstages, hrest⟩ := course_of_trail h
  have hnil : KeepsDecided [] := fun _ _ _ hput => by cases hput
  have hbefore : KeepsDecided before := by
    apply runs_runStages hnil KeepsDecided.append _ hstages.runs
    intro stage hstage cx calls returned hruns
    simp only [GuardedChain.toChain, GuardedChain.opening, GuardedChain.checks, List.cons_append,
      List.nil_append, List.mem_cons, List.not_mem_nil, or_false] at hstage
    have hplain : CallsPlain (stage.handle cx served.req) → KeepsDecided calls :=
      fun hplain => keepsDecided_of_callsOnly hplain (fun _ hop => by cases hop) hruns
    rcases hstage with rfl | rfl | rfl | rfl | rfl | rfl
    · exact hplain (guarded.contextInit.callsPlain_handle cx served.req)
    · exact hplain (guarded.routePolicy.callsPlain_handle cx served.req)
    · exact hplain (guarded.schemaGuard.callsPlain_handle guarded.crates cx served.req)
    · exact keepsDecided_of_callsOnly
        (guarded.idempotency.callsStore_handle guarded.crates cx served.req)
        (fun _ hop => by cases hop) hruns
    · exact hplain (AuthnMapStage.callsPlain_handle cx served.req)
    · exact keepsDecided_authzQuota served.req hruns
  have hafter : KeepsDecided after := by
    rcases hrest with ⟨error, _, hrefuse⟩ | ⟨outcome, _, hfinish⟩
    · exact keepsDecided_of_callsOnly (callsReply_refuse _ between error)
        (fun _ hop => by cases hop) hrefuse.runs
    · exact keepsDecided_of_callsOnly (callsLate_finish _ outcome between served.req)
        (fun _ hop => by cases hop) hfinish.runs
  rw [hcalls]
  exact hbefore.append hafter

theorem keepsDecided_callsOf {requests : List ServedRequest}
    (h : ∀ served ∈ requests, KeepsDecided served.calls) : KeepsDecided (callsOf requests) := by
  induction requests with
  | nil => exact fun _ _ _ hput => by cases hput
  | cons first rest ih =>
      rw [callsOf, List.flatMap_cons]
      exact (h first List.mem_cons_self).append
        (ih fun served hserved => h served (List.mem_cons_of_mem _ hserved))

/-- A decision that a request finds in the cache was made in an earlier request or in this
one. -/
theorem decided_of_found {guarded : GuardedChain} {history rest : List ServedRequest}
    {served : ServedRequest} {start : Instant}
    (h : Serves guarded.toChain (.new start) (history ++ served :: rest)) {key : DecisionKey}
    {decision : Decision}
    (hfound : ⟨.auth (.cacheGet key), some decision⟩ ∈ served.calls) :
    ∃ request, ⟨.auth (.decide request), .ok decision⟩ ∈ callsOf (history ++ [served]) ∧
      AuthFacade.Covers key request := by
  -- whatever the cache holds was put there by a call
  let kept (calls : List ChainCall) (world : ChainWorld) : Prop :=
    ∀ key decision, world.decisions.Holds key decision →
      ∃ answer, ⟨.auth (.cachePut key decision), answer⟩ ∈ calls
  have hcall : ∀ before world choice op reply next,
      ChainWorld.answer world choice op = some (reply, next) → kept before world →
        kept (before ++ [⟨op, reply⟩]) next := by
    intro before world choice op reply next hanswer hkept key decision hholds
    rcases ChainWorld.holds_of_answer hanswer hholds with rfl | hbefore
    · exact ⟨reply, by simp⟩
    · obtain ⟨answer, hput⟩ := hkept key decision hbefore
      exact ⟨answer, List.mem_append_left _ hput⟩
  have hnew : kept [] (.new start) := fun key decision hholds =>
    absurd hholds MemoryDecisionCache.not_holds_default
  have hhappens := h.happens
  have hserved : served.Happens guarded.toChain := hhappens served (by simp)
  have hbefore := h.preserves kept hcall hnew
  obtain ⟨earlier, world, choice, next, hearlier, hkept, hanswer⟩ :=
    hserved.answered kept hcall hbefore hfound
  have hholds : world.decisions.Holds key decision := by
    have hgot := congrArg Prod.fst (ChainWorld.answer_eq_some_iff.mp hanswer)
    exact MemoryDecisionCache.holds_of_get hgot
  obtain ⟨answer, hput⟩ := hkept key decision hholds
  have hall : KeepsDecided (callsOf (history ++ [served])) :=
    keepsDecided_callsOf fun other hother =>
      keepsDecided_of_happens (hhappens other (by
        simp only [List.mem_append, List.mem_cons, List.not_mem_nil, or_false] at hother ⊢
        tauto))
  apply hall key decision answer
  have hsub := hearlier hput
  simpa [callsOf] using hsub

end Decisions

/-- A request whose handler has returned a body is entitled to it. -/
theorem entitled_of_handled {guarded : GuardedChain} {history rest : List ServedRequest}
    {served : ServedRequest} {start : Instant}
    (h : Serves guarded.toChain (.new start) (history ++ served :: rest))
    (hnothing : served.FindsNothing guarded) {call : ChainCall} (hcall : call ∈ served.calls)
    (hhandled : call.isHandled = true) :
    ∃ subject, served.EntitledFor guarded history subject := by
  have hserved : served.Happens guarded.toChain := h.happens served (by simp)
  obtain ⟨before, between, middle, after, hcalls, hstages, _⟩ :=
    proceeded_of_handled hserved hcall hhandled
  have hsplit := runStages_append guarded.opening
    (guarded.idempotency.toStage guarded.crates :: guarded.checks) served.cx served.req
  have hopened : Trail ChainWorld.answer (runStages (guarded.opening ++
      guarded.idempotency.toStage guarded.crates :: guarded.checks) served.cx served.req)
      served.before before (.ok .proceed, between) middle := hstages
  rw [hsplit] at hopened
  obtain ⟨early, _, opened, opening, late, rfl, hfirst, ⟨rfl, hlate⟩ | hstopped⟩ :=
    trail_advance hopened
  · obtain ⟨_, _, spec, attrs, hspec, hroute⟩ := opened_of_trail hfirst
    obtain ⟨looked, found, _, rest', rfl, hlookup, hlate⟩ := trail_runStages_cons hlate
    obtain ⟨authn, known, _, rest', rfl, hauthn, hlate⟩ := trail_runStages_cons hlate
    obtain ⟨authz, allowed, _, rest', rfl, hauthz, hlate⟩ := trail_runStages_cons hlate
    obtain ⟨layer, key, rfl⟩ := IdempotencyStage.lookedUp_of_runs hlookup.runs
    obtain ⟨_, header, subject, hheader, rfl, rfl⟩ :=
      AuthnMapStage.accepted_of_runs hauthn.runs
    obtain ⟨_, input, route, consent, result, hinput, hbound, hfacade, hallow, _⟩ :=
      AuthzQuotaStage.allowed_of_runs served.req hauthz.runs
    obtain rfl := Option.some.inj hinput
    obtain rfl := Option.some.inj (hroute.symm.trans hbound)
    obtain ⟨inner, rfl, hinner⟩ := AuthzQuotaStage.runs_authorize_iff.mp hfacade
    obtain ⟨haccepted, attrs', hdecision⟩ := AuthFacade.authorized_of_runs hinner
    have hinside : ∀ call ∈ inner.map AuthzQuotaStage.authCall,
        call ∈ served.calls := by
      intro call hmem
      rw [hcalls]
      simp [hmem]
    refine ⟨result.subject, ?_, ?_, ?_⟩
    · refine ⟨header, hheader, ⟨subject, ?_⟩,
        hinside _ (AuthzQuotaStage.mem_map_authCall_iff.mpr haccepted)⟩
      rw [hcalls]
      simp
    · rcases hdecision with hfound | hdecided
      · obtain ⟨request, hdecide, hcovers⟩ :=
          decided_of_found h (hinside _ (AuthzQuotaStage.mem_map_authCall_iff.mpr hfound))
        exact ⟨spec, request, result.decision, hspec, hdecide, hallow, hcovers.isAbout⟩
      · have hdecide := hinside _ (AuthzQuotaStage.mem_map_authCall_iff.mpr hdecided)
        have hnow : served.calls ⊆ callsOf (history ++ [served]) := by
          rw [callsOf, List.flatMap_append, List.flatMap_singleton]
          exact List.subset_append_right _ _
        exact ⟨spec, _, result.decision, hspec, hnow hdecide, hallow, rfl, rfl, rfl, rfl⟩
    · intro key response hreplayed
      have hfalse := not_replayed hserved hnothing hreplayed
      cases hfalse
  · exact absurd hstopped.2.2.1.symm hstopped.1

/-- As long as no request finds a response, whoever is answered with what a handler returned
is entitled to it. -/
theorem answersEntitled_of_findsNothing (guarded : GuardedChain)
    (run : ServedRun guarded.toChain)
    (hnothing : ∀ served ∈ run.requests, served.FindsNothing guarded) :
    AnswersEntitled guarded run.requests := by
  intro history served rest hrequests hdelivers
  have hserves : Serves guarded.toChain (.new run.start) (history ++ served :: rest) := by
    rw [← hrequests]
    exact run.follows
  have hfinds := hnothing served (by rw [hrequests]; simp)
  obtain ⟨call, hcall, hhandled | hreplayed⟩ := hdelivers.produced
  · exact entitled_of_handled hserves hfinds hcall hhandled
  · have hserved : served.Happens guarded.toChain := hserves.happens served (by simp)
    rw [not_replayed hserved hfinds hcall] at hreplayed
    cases hreplayed

/-- The chain of the test `idempotency_replays_cached_response`. -/
def taskChain : GuardedChain where
  crates := taskCrates
  contextInit := ⟨false⟩
  routePolicy :=
    ⟨⟨[⟨.http "POST" "/v1/tasks", ⟨"soul:tool:browser", "Invoke", false, none, none⟩⟩]⟩⟩
  schemaGuard := ⟨none⟩
  idempotency := ⟨some ⟨120000000000, 32768⟩⟩
  authzQuota := ⟨⟨fun _ => 0⟩, 1⟩
  responseStages := [SchemaGuardStage.toResponseStage taskCrates ⟨none⟩, ResponseStampStage]
  errorResponder := DefaultErrorResponder
  resilience := .default
  concurrencyLimit := none
  toVec _ := .ok [123, 34, 111, 107, 34, 58, 116, 114, 117, 101, 125]

/-- A millisecond passes before each call. -/
def taskChoices : List ChainChoice := List.replicate 16 ⟨1000000, taskReply⟩

/-- The user asks for the task. -/
def firstTask : ServedRequest :=
  (serveWith taskChain.toChain taskChoices (.new 0) (taskRequest (some "Bearer token"))).get rfl

/-- Somebody without credentials asks for it again. -/
def secondTask : ServedRequest :=
  (serveWith taskChain.toChain taskChoices firstTask.after (taskRequest none)).get rfl

theorem happens_firstTask : firstTask.Happens taskChain.toChain := (happens_serveWith rfl).2

theorem happens_secondTask : secondTask.Happens taskChain.toChain := (happens_serveWith rfl).2

/-- The user is answered by the handler, and entitled to it. -/
theorem answersEntitled_firstTask :
    firstTask.Delivers ∧ AnswersEntitled taskChain [firstTask] := by
  have hhandled : firstTask.calls.any (·.isHandled) = true := rfl
  have hwritten : firstTask.calls.any (·.isWritten) = true := rfl
  obtain ⟨call, hcall, hcall_handled⟩ := List.any_eq_true.mp hhandled
  refine ⟨⟨⟨call, hcall, .inl hcall_handled⟩, List.any_eq_true.mp hwritten⟩, ?_⟩
  apply answersEntitled_of_findsNothing taskChain
    ⟨0, [firstTask], rfl, happens_firstTask, trivial⟩
  intro served hserved
  obtain rfl := List.mem_singleton.mp hserved
  exact fun key _ => MemoryIdempotencyStore.live_new

/-- The request without credentials is answered with what the user was given. -/
theorem not_answersEntitled_replay :
    ¬∀ (guarded : GuardedChain) (run : ServedRun guarded.toChain),
      AnswersEntitled guarded run.requests := by
  intro h
  have hreplayed : secondTask.calls.any (·.isReplayed) = true := rfl
  have hwritten : secondTask.calls.any (·.isWritten) = true := rfl
  obtain ⟨call, hcall, hcall_replayed⟩ := List.any_eq_true.mp hreplayed
  obtain ⟨subject, hentitled⟩ := h taskChain
    ⟨0, [firstTask, secondTask], rfl, happens_firstTask, rfl, happens_secondTask, trivial⟩
    [firstTask] secondTask [] rfl
    ⟨⟨call, hcall, .inr hcall_replayed⟩, List.any_eq_true.mp hwritten⟩
  obtain ⟨header, hheader, _⟩ := hentitled.accepted
  have hmissing : secondTask.req.header "Authorization" = none := rfl
  rw [hmissing] at hheader
  cases hheader

end Soulbase.Interceptors
