/-
# Whether a replay repeats the response

A request that finds a stored response goes on to the response stages with it, and these work
on it as if it came from the handler: its body is checked against the schema of the route, and
the obligations that the request carries are applied to it. The stored body is one that has
been through this already. So the replay repeats the response if and only if the response
stages leave their own result as it is.
-/

import Soulbase.Interceptors.Service

namespace Soulbase.Interceptors

open Soulbase.Foundation Soulbase.Errors Soulbase.Auth InterceptorChain

/-- What the guard says of a body, for a route with a response schema. -/
def SchemaGuardStage.accept (crates : Crates) (stage : SchemaGuardStage) (schema : Option String)
    (body : Json.Value) : Except InterceptError Unit :=
  match schema with
  | some schema => stage.guard crates schema body
  | none => .ok ()

/-- What the response stages make of a body, for such a route and for obligations. -/
def rewrite (crates : Crates) (stage : SchemaGuardStage) (schema : Option String)
    (obligations : List Obligation) (body : Json.Value) : Except InterceptError Json.Value := do
  stage.accept crates schema body
  applyObligations obligations body

/-- The response stages in the order of the tests. -/
def rewritingStages (crates : Crates) (stage : SchemaGuardStage) : List ResponseStage :=
  [stage.toResponseStage crates, ObligationsStage, ResponseStampStage]

section Rewriting

variable {crates : Crates} {stage : SchemaGuardStage} {cx : InterceptContext} {body : Json.Value}

theorem verdict_eq_accept (hbody : cx.responseBody = some body) :
    stage.verdict crates cx = stage.accept crates (cx.route.bind (·.responseSchema)) body := by
  unfold SchemaGuardStage.verdict SchemaGuardStage.accept
  rw [hbody]
  cases cx.route.bind (·.responseSchema) <;> rfl

/-- The stages do to the body of a response what `rewrite` says, and nothing else to the
context. -/
theorem rewritten_of_runs (hbody : cx.responseBody = some body) {calls : List ChainCall}
    {result : Except InterceptError Unit} {left : InterceptContext}
    (h : Runs (runResponseStages (rewritingStages crates stage) cx) calls (result, left)) :
    (∃ error, rewrite crates stage (cx.route.bind (·.responseSchema)) cx.obligations body =
        .error error ∧ result = .error error) ∨
      ∃ edited, rewrite crates stage (cx.route.bind (·.responseSchema)) cx.obligations body =
          .ok edited ∧
        result = .ok () ∧ left = { cx with responseBody := some edited } := by
  have hguard : (stage.toResponseStage crates).handleResponse cx =
      return (stage.accept crates (cx.route.bind (·.responseSchema)) body, cx) := by
    rw [← verdict_eq_accept hbody]
    rfl
  rw [rewritingStages] at h
  unfold rewrite
  cases haccept : stage.accept crates (cx.route.bind (·.responseSchema)) body with
  | error error =>
      rw [haccept] at hguard
      rw [runResponseStages_error hguard] at h
      cases (runs_done_iff.mp h).2
      exact .inl ⟨error, rfl, rfl⟩
  | ok _ =>
      rw [haccept] at hguard
      rw [runResponseStages_ok hguard] at h
      have hobligations : ObligationsStage.handleResponse cx =
          return ObligationsStage.applyEach cx.obligations cx := rfl
      rcases ObligationsStage.applyEach_of_body hbody with
        ⟨error, happly, hfailed⟩ | ⟨edited, happly, hedited⟩
      · cases happlied : ObligationsStage.applyEach cx.obligations cx with
        | mk outcome cx' =>
            rw [happlied] at hobligations hfailed
            obtain rfl : outcome = .error error := hfailed
            rw [runResponseStages_error hobligations] at h
            cases (runs_done_iff.mp h).2
            exact .inl ⟨error, happly, rfl⟩
      · rw [hedited] at hobligations
        rw [runResponseStages_ok hobligations] at h
        obtain ⟨_, ⟨stamped, _⟩, _, _, hstamp, hrest⟩ := runs_bind_iff.mp h
        obtain ⟨_, _, _, _, _, hdone⟩ := runs_bind_iff.mp hstamp
        cases (runs_done_iff.mp hdone).2
        cases (runs_done_iff.mp hrest).2
        exact .inr ⟨edited, happly, rfl, rfl⟩

end Rewriting

/-- A request stage of the crate, or another one that keeps off the idempotency store and the
obligations. -/
inductive RequestStage
  | contextInit (stage : ContextInitStage)
  | routePolicy (stage : RoutePolicyStage)
  | schemaGuard (stage : SchemaGuardStage)
  | authnMap
  | authzQuota (stage : AuthzQuotaStage)
  | other (stage : Stage) (calls_aside : ∀ cx req, CallsAside (stage.handle cx req))
      (leaves : ∀ cx req calls cx', Runs (stage.handle cx req) calls (.ok .proceed, cx') →
        cx'.obligations = cx.obligations)

namespace RequestStage

/-- The stage itself. -/
def toStage (crates : Crates) : RequestStage → Stage
  | contextInit stage => stage.toStage
  | routePolicy stage => stage.toStage
  | schemaGuard stage => stage.toStage crates
  | authnMap => AuthnMapStage
  | authzQuota stage => stage.toStage crates
  | other stage _ _ => stage

/-- The stage is `RoutePolicy`. -/
def isRoutePolicy : RequestStage → Bool
  | routePolicy _ => true
  | _ => false

/-- The stage is `AuthzQuota`. -/
def isAuthzQuota : RequestStage → Bool
  | authzQuota _ => true
  | _ => false

theorem callsAside_handle (crates : Crates) (stage : RequestStage) (cx : InterceptContext)
    (req : ProtoRequest) : CallsAside ((stage.toStage crates).handle cx req) := by
  cases stage with
  | contextInit stage => exact (stage.callsPlain_handle cx req).callsAside
  | routePolicy stage => exact (stage.callsPlain_handle cx req).callsAside
  | schemaGuard stage => exact (stage.callsPlain_handle crates cx req).callsAside
  | authnMap => exact (AuthnMapStage.callsPlain_handle cx req).callsAside
  | authzQuota stage => exact stage.callsAside_handle crates cx req
  | other stage calls_aside _ => exact calls_aside cx req

/-- Obligations come from `AuthzQuota` only. -/
theorem obligations_of_runs {crates : Crates} {stage : RequestStage}
    (hstage : stage.isAuthzQuota = false) {cx cx' : InterceptContext} {req : ProtoRequest}
    {calls : List ChainCall}
    (h : Runs ((stage.toStage crates).handle cx req) calls (.ok .proceed, cx')) :
    cx'.obligations = cx.obligations := by
  cases stage with
  | contextInit stage =>
      obtain ⟨_, _, _, _, _, rfl⟩ := ContextInitStage.runs_handle h
      rfl
  | routePolicy stage =>
      obtain ⟨_, _, _, _, rfl⟩ := RoutePolicyStage.route_of_runs h
      rfl
  | schemaGuard stage =>
      obtain ⟨_, _, rfl⟩ := SchemaGuardStage.extensions_of_runs req h
      rfl
  | authnMap =>
      obtain ⟨_, _, _, _, _, rfl⟩ := AuthnMapStage.accepted_of_runs h
      rfl
  | authzQuota stage => cases hstage
  | other stage _ leaves => exact leaves cx req calls cx' h

/-- The stages before a request is decided on carry no obligations along. -/
theorem obligations_of_runStages {crates : Crates} {stages : List RequestStage}
    (hstages : stages.any isAuthzQuota = false) {cx cx' : InterceptContext} {req : ProtoRequest}
    {calls : List ChainCall}
    (h : Runs (runStages (stages.map (toStage crates)) cx req) calls (.ok .proceed, cx')) :
    cx'.obligations = cx.obligations := by
  induction stages generalizing cx calls with
  | nil =>
      cases (runs_done_iff.mp h).2
      rfl
  | cons stage rest ih =>
      rw [List.any_cons, Bool.or_eq_false_iff] at hstages
      obtain ⟨_, ⟨outcome, between⟩, _, _, hstage, hrest⟩ := runs_bind_iff.mp h
      match outcome with
      | .ok .proceed => exact (ih hstages.2 hrest).trans (obligations_of_runs hstages.1 hstage)
      | .ok .shortCircuit => cases (runs_done_iff.mp hrest).2
      | .error _ => cases (runs_done_iff.mp hrest).2

end RequestStage

/-- A chain with `RoutePolicy` before `Idempotency`, `AuthzQuota` before or after it, and the
response stages of the crate. -/
structure ReplayChain where
  crates : Crates
  early : List RequestStage
  idempotency : IdempotencyStage
  late : List RequestStage
  schemaGuard : SchemaGuardStage
  errorResponder : ErrorResponder
  resilience : ResiliencePolicy
  concurrencyLimit : Option ℕ
  toVec : Json.Value → Except String (List UInt8)
  routed : early.any (·.isRoutePolicy) = true
  decided : (early ++ late).any (·.isAuthzQuota) = true

namespace ReplayChain

/-- The stages before the lookup. -/
def opening (replaying : ReplayChain) : List Stage :=
  replaying.early.map (·.toStage replaying.crates)

/-- The chain. -/
def toChain (replaying : ReplayChain) : InterceptorChain where
  requestStages := replaying.opening ++ replaying.idempotency.toStage replaying.crates ::
    replaying.late.map (·.toStage replaying.crates)
  responseStages := rewritingStages replaying.crates replaying.schemaGuard
  errorResponder := replaying.errorResponder
  resilience := replaying.resilience
  concurrencyLimit := replaying.concurrencyLimit
  toVec := replaying.toVec

/-- The obligations that a request has at the lookup, of those that it is let through with. -/
def carried (replaying : ReplayChain) (obligations : List Obligation) : List Obligation :=
  if replaying.early.any (·.isAuthzQuota) then obligations else []

/-- The response stages leave what they have made of a body as it is: they accept it, for the
obligations that a replay carries, and do not change it. -/
def Repeats (replaying : ReplayChain) (schema : Option String) (obligations : List Obligation)
    (body : Json.Value) : Prop :=
  (rewrite replaying.crates replaying.schemaGuard schema obligations body >>=
      rewrite replaying.crates replaying.schemaGuard schema (replaying.carried obligations)) =
    rewrite replaying.crates replaying.schemaGuard schema obligations body

end ReplayChain

namespace ServedRequest

/-- The statuses that are set. -/
def statuses (served : ServedRequest) : List UInt16 := served.calls.filterMap ChainCall.status?

/-- The bodies that are written. -/
def bodies (served : ServedRequest) : List Json.Value := served.calls.filterMap ChainCall.body?

end ServedRequest

/-- A request that has succeeded and whose response was stored, and a later one with the same
key. -/
structure Replay (replaying : ReplayChain) where
  body : Json.Value
  schema : Option String
  obligations : List Obligation
  /-- The request that calls the handler. -/
  first : ServedRequest
  first_happens : first.Happens replaying.toChain
  succeeded : first.result = .ok ()
  /-- The context as the handler leaves it. -/
  handled : InterceptContext
  produced : ∃ call ∈ first.calls, ChainCall.produced call = some (body, handled)
  first_schema : handled.route.bind (·.responseSchema) = schema
  first_obligations : handled.obligations = obligations
  key : String
  response : StoredResponse
  ttl : Duration
  stored : ⟨.idempotencyPut key response ttl, ()⟩ ∈ first.calls
  /-- The request that finds the response. -/
  later : ServedRequest
  later_happens : later.Happens replaying.toChain
  later_undecided : later.cx.obligations = []
  /-- The calls of the stages before the lookup, and the context in which they let the request
  through. -/
  opening : List ChainCall
  opened : InterceptContext
  opening_prefix : opening <+: later.calls
  opening_runs : Runs (runStages replaying.opening later.cx later.req) opening
    (.ok .proceed, opened)
  later_schema : opened.route.bind (·.responseSchema) = schema
  later_obligations : replaying.early.any (·.isAuthzQuota) = true →
    opened.obligations = obligations
  same_key : replaying.idempotency.lookupKey replaying.crates opened later.req = some key
  /-- The stored response has neither been replaced nor does it expire. -/
  kept : later.before.responses.inner.get key = first.after.responses.inner.get key
  within : ∀ expiry stored, first.after.responses.inner.get key = some (expiry, stored) →
    later.after.clock < expiry
  /-- What is written to the response gets there. -/
  written : ∀ body answer, ⟨.writeJson body, answer⟩ ∈ later.calls → answer = .ok ()

namespace Replay

/-- The later request succeeds, with the same status and the same body. -/
structure Faithful {replaying : ReplayChain} (replay : Replay replaying) : Prop where
  succeeds : replay.later.result = .ok ()
  status : replay.later.statuses.getLast? = replay.first.statuses.getLast?
  body : replay.later.bodies.getLast? = replay.first.bodies.getLast?

end Replay

section Response

variable {replaying : ReplayChain} {cx : InterceptContext} {body : Json.Value}

/-- What `run_with_handler` makes of a response, for the route and the obligations of its
context. -/
def ReplayChain.rewrite (replaying : ReplayChain) (cx : InterceptContext) (body : Json.Value) :
    Except InterceptError Json.Value :=
  Interceptors.rewrite replaying.crates replaying.schemaGuard
    (cx.route.bind (·.responseSchema)) cx.obligations body

/-- A response fails, or is stored where it is due, and written. -/
theorem trail_respond {Choice Env : Type} {H : Handler ChainOp ChainOp.Answer Choice Env}
    {env last : Env} {calls : List ChainCall} {result : Except InterceptError Unit}
    (h : Trail H (replaying.toChain.respond cx) env calls result last)
    (hbody : cx.responseBody = some body) :
    (∃ error, replaying.rewrite cx body = .error error ∧ result = .error error) ∨
      ∃ edited stamped keeping kept env' env'' rest,
        replaying.rewrite cx body = .ok edited ∧ calls = stamped ++ keeping ++ rest ∧
          (∀ call ∈ stamped, call.1.isSync = true) ∧
          Trail H (replaying.toChain.keep { cx with responseBody := some edited }) env' keeping
            kept env'' ∧
          ((∃ error, kept = .error error ∧ rest = [] ∧ result = .error error ∧ last = env'') ∨
            kept = .ok () ∧
              Trail H (write { cx with responseBody := some edited }) env'' rest result last) := by
  obtain ⟨stamped, ⟨outcome, left⟩, env', after, rfl, hstages, hrest⟩ := trail_bind_iff.mp h
  have hsync := (callsSync_runResponseStages _ _).of_runs hstages.runs
  rcases rewritten_of_runs hbody hstages.runs with
    ⟨error, hrewrite, rfl⟩ | ⟨edited, hrewrite, rfl, rfl⟩
  · obtain ⟨_, rfl, _⟩ := trail_done_iff.mp hrest
    exact .inl ⟨error, hrewrite, rfl⟩
  · obtain ⟨keeping, kept, env'', rest, rfl, hkeep, hwrite⟩ := trail_bind_iff.mp hrest
    refine .inr ⟨edited, stamped, keeping, kept, env', env'', rest, hrewrite, by simp, hsync,
      hkeep, ?_⟩
    cases kept with
    | error error =>
        obtain ⟨rfl, rfl, rfl⟩ := trail_done_iff.mp hwrite
        exact .inl ⟨error, rfl, rfl, rfl, rfl⟩
    | ok _ => exact .inr ⟨rfl, hwrite⟩

/-- Only a response that is stored goes to the store. -/
theorem stored_of_keep {Choice Env : Type} {H : Handler ChainOp ChainOp.Answer Choice Env}
    {chain : InterceptorChain} {env last : Env} {calls : List ChainCall}
    {kept : Except InterceptError Unit} (h : Trail H (chain.keep cx) env calls kept last)
    {key : String} {response : StoredResponse} {ttl : Duration}
    (hput : ⟨.idempotencyPut key response ttl, ()⟩ ∈ calls) :
    kept = .ok () ∧ cx.responseBody = some response.body ∧ response.status = status cx ∧
      ∃ choice, H env choice (.idempotencyPut key response ttl) = some ((), last) := by
  unfold keep at h
  split at h
  · rename_i layer key' body hlayer hkey hfresh hbody
    split at h
    · rw [(trail_done_iff.mp h).1] at hput
      cases hput
    · split at h
      · rw [(trail_done_iff.mp h).1] at hput
        cases hput
      · obtain ⟨choice, answer, middle, rest, rfl, hanswer, hdone⟩ := trail_call_iff.mp h
        obtain ⟨rfl, rfl, rfl⟩ := trail_done_iff.mp hdone
        cases List.mem_singleton.mp hput
        exact ⟨rfl, hbody, rfl, choice, hanswer⟩
  · rw [(trail_done_iff.mp h).1] at hput
    cases hput

/-- A replay is not stored again. -/
theorem keep_of_replay {chain : InterceptorChain} (h : cx.idempotencyReplay = true) :
    chain.keep cx = return .ok () := by
  unfold keep
  split
  · rename_i hfresh _
    rw [h] at hfresh
    cases hfresh
  · rfl

end Response

namespace Replay

variable {replaying : ReplayChain} (replay : Replay replaying)

/-! ## The first request -/

/-- No request stage stores a response. -/
theorem not_put_of_runStages {cx : InterceptContext} {req : ProtoRequest}
    {calls : List ChainCall} {returned : Returned StageOutcome}
    (h : Runs (runStages replaying.toChain.requestStages cx req) calls returned)
    {key : String} {response : StoredResponse} {ttl : Duration} :
    ⟨.idempotencyPut key response ttl, ()⟩ ∉ calls := by
  have hcalls : (runStages replaying.toChain.requestStages cx req).CallsOnly fun op =>
      ∀ key response ttl, op ≠ .idempotencyPut key response ttl := by
    apply callsOnly_runStages
    intro stage hstage cx req
    have haside : ∀ stage : RequestStage, ((stage.toStage replaying.crates).handle cx req).CallsOnly
        fun op => ∀ key response ttl, op ≠ .idempotencyPut key response ttl := by
      intro stage
      refine (stage.callsAside_handle replaying.crates cx req).mono ?_
      rintro _ hop key response ttl rfl
      cases hop
    rcases List.mem_append.mp hstage with hearly | hrest
    · obtain ⟨early, _, rfl⟩ := List.mem_map.mp hearly
      exact haside early
    · rcases List.mem_cons.mp hrest with rfl | hlate
      · refine (replaying.idempotency.callsLookup_handle replaying.crates cx req).mono ?_
        rintro _ ⟨_, rfl⟩ _ _ _
        nofun
      · obtain ⟨late, _, rfl⟩ := List.mem_map.mp hlate
        exact haside late
  exact fun hmem => hcalls.of_runs h _ hmem _ _ _ rfl

/-- What the first request stores is what the response stages have made of the handler's body,
and what it is answered with. It is in the store when the request is over. -/
theorem first_stored :
    rewrite replaying.crates replaying.schemaGuard replay.schema replay.obligations replay.body =
        .ok replay.response.body ∧
      replay.first.statuses.getLast? = some replay.response.status ∧
      replay.first.bodies.getLast? = some replay.response.body ∧
      ∃ expiry, replay.first.after.responses.inner.get replay.key =
        some (expiry, replay.response) := by
  obtain ⟨call, hcall, hproduced⟩ := replay.produced
  obtain ⟨staged, between, running, middle, after, hcalls, hstages, hrunning, hrespond⟩ :=
    respond_of_produced replay.first_happens hcall hproduced
  have hput : ⟨.idempotencyPut replay.key replay.response replay.ttl, ()⟩ ∈ after := by
    have hstored := replay.stored
    rw [hcalls, List.mem_append, List.mem_append] at hstored
    rcases hstored with (hmem | hmem) | hmem
    · exact absurd hmem (not_put_of_runStages hstages)
    · cases hrunning _ hmem
    · exact hmem
  rcases trail_respond hrespond rfl with
    ⟨error, _, herror⟩ | ⟨edited, stamped, keeping, kept, env', env'', rest, hrewrite, rfl, hsync,
      hkeep, hrest⟩
  · rw [replay.succeeded] at herror
    cases herror
  rcases hrest with ⟨error, rfl, rfl, herror, _⟩ | ⟨rfl, hwrite⟩
  · rw [replay.succeeded] at herror
    cases herror
  have hkeeping : ⟨.idempotencyPut replay.key replay.response replay.ttl, ()⟩ ∈ keeping := by
    rw [List.mem_append, List.mem_append] at hput
    rcases hput with (hmem | hmem) | hmem
    · cases hsync _ hmem
    · exact hmem
    · rw [calls_of_write hwrite.runs] at hmem
      simp [ChainCall.header] at hmem
  obtain ⟨_, hbody, hstatus, choice, hanswer⟩ := stored_of_keep hkeep hkeeping
  obtain rfl : edited = replay.response.body := Option.some.inj hbody
  have hlast := getLast?_write hwrite.runs (staged ++ running ++ (stamped ++ keeping))
  have hall : replay.first.calls = staged ++ running ++ (stamped ++ keeping) ++ rest := by
    rw [hcalls, List.append_assoc (staged ++ running)]
  rw [← hall] at hlast
  refine ⟨?_, ?_, hlast.2, ?_⟩
  · rw [← replay.first_schema, ← replay.first_obligations]
    exact hrewrite
  · rw [hstatus]
    exact hlast.1
  · have hresponses : replay.first.after.responses = env''.responses :=
      ChainWorld.responses_of_aside hwrite
        ((callsResponse_write _).mono fun _ => ChainOp.isAside_of_isResponse)
    have hstored : env''.responses = env'.responses.put replay.key replay.response replay.ttl
        (env'.clock + choice.elapsed) :=
      (congrArg (fun outcome => outcome.2.responses)
        (ChainWorld.answer_eq_some_iff.mp hanswer)).symm
    refine ⟨env'.clock + choice.elapsed + replay.ttl, ?_⟩
    rw [hresponses, hstored]
    exact HashMap.get_put_self _ _ _

/-- A lookup finds a response that is stored and does not expire in the meantime, and ends the
stages with it. -/
theorem found_of_lookup {cx found : InterceptContext} {req : ProtoRequest} {env last : ChainWorld}
    {calls : List ChainCall} {outcome : Except InterceptError StageOutcome} {key : String}
    {expiry : Instant} {response : StoredResponse}
    (h : Trail ChainWorld.answer (replaying.idempotency.handle replaying.crates cx req) env calls
      (outcome, found) last)
    (hkey : replaying.idempotency.lookupKey replaying.crates cx req = some key)
    (hentry : env.responses.inner.get key = some (expiry, response))
    (hexpiry : last.clock < expiry) :
    outcome = .ok .shortCircuit ∧ ∃ layer, found = { cx with
      idempotencyLayer := some layer
      idempotencyReplay := true
      idempotencyKey := some key
      responseStatus := some response.status
      responseBody := some response.body
      responseHeaders := cx.responseHeaders ++ response.headers } := by
  rcases replaying.idempotency.handle_cases replaying.crates cx req with
    ⟨hnone, _⟩ | ⟨layer, key', _, hkey', hhandle⟩
  · rw [hkey] at hnone
    cases hnone
  · obtain rfl : key = key' := Option.some.inj (hkey.symm.trans hkey')
    rw [hhandle] at h
    obtain ⟨choice, answer, middle, rest, rfl, hanswer, hrest⟩ := trail_call_iff.mp h
    have hserved := ChainWorld.answer_eq_some_iff.mp hanswer
    have hclock : middle.clock = env.clock + choice.elapsed :=
      (congrArg (fun outcome => outcome.2.clock) hserved).symm
    have hlive : env.responses.live key (env.clock + choice.elapsed) = some response := by
      rw [MemoryIdempotencyStore.live_eq_some_iff]
      refine ⟨expiry, hentry, ?_⟩
      rw [← hclock]
      exact (ChainWorld.clock_le_of_trail hrest).trans_lt hexpiry
    have hanswered : answer = some response := by
      rw [← hlive, ← MemoryIdempotencyStore.get_fst]
      exact (congrArg Prod.fst hserved).symm
    subst hanswered
    cases (trail_done_iff.mp hrest).2.1
    exact ⟨rfl, layer, rfl⟩

/-- The later request finds the response and goes on to the response stages with it. -/
theorem later_found :
    ∃ cx before middle after, cx.route = replay.opened.route ∧
      cx.obligations = replay.opened.obligations ∧ cx.responseBody = some replay.response.body ∧
        status cx = replay.response.status ∧ cx.idempotencyReplay = true ∧
          replay.later.calls = before ++ after ∧
            Trail ChainWorld.answer (replaying.toChain.respond cx) middle after
              replay.later.result replay.later.after := by
  obtain ⟨_, _, _, expiry, hentry⟩ := replay.first_stored
  have hwithin := replay.within expiry replay.response hentry
  rw [← replay.kept] at hentry
  obtain ⟨before, stopped, between, middle, after, hcalls, hstages, hrest⟩ :=
    course_of_trail replay.later_happens
  have hsplit := runStages_append replaying.opening
    (replaying.idempotency.toStage replaying.crates ::
      replaying.late.map (·.toStage replaying.crates)) replay.later.cx replay.later.req
  have hstages : Trail ChainWorld.answer (runStages (replaying.opening ++
      replaying.idempotency.toStage replaying.crates ::
        replaying.late.map (·.toStage replaying.crates)) replay.later.cx replay.later.req)
      replay.later.before before (stopped, between) middle := hstages
  rw [hsplit] at hstages
  obtain ⟨early, outcome, opened, opening, looked, rfl, hopening, hlate⟩ := trail_advance hstages
  obtain ⟨_, heq⟩ := replay.opening_runs.unique_of_prefix hopening.runs replay.opening_prefix
    ⟨looked ++ after, by rw [hcalls, List.append_assoc]⟩
  obtain ⟨rfl, rfl⟩ := Prod.mk.inj heq.symm
  have hafter : middle.clock ≤ replay.later.after.clock := by
    rcases hrest with ⟨_, _, hrefuse⟩ | ⟨_, _, hfinish⟩
    · exact ChainWorld.clock_le_of_trail hrefuse
    · exact ChainWorld.clock_le_of_trail hfinish
  have haside : CallsAside (runStages replaying.opening replay.later.cx replay.later.req) := by
    apply callsOnly_runStages
    intro stage hstage
    obtain ⟨early, _, rfl⟩ := List.mem_map.mp hstage
    exact early.callsAside_handle replaying.crates
  rw [← ChainWorld.responses_of_aside hopening haside] at hentry
  rcases hlate with ⟨_, hlate⟩ | ⟨hne, _⟩
  case inr => exact absurd rfl hne
  obtain ⟨looking, outcome, found, looked, checked, rfl, hlookup, hchecks⟩ := trail_advance hlate
  have hlooked : looked.clock ≤ middle.clock := by
    rcases hchecks with ⟨_, hchecks⟩ | ⟨_, _, _, _, rfl⟩
    · exact ChainWorld.clock_le_of_trail hchecks
    · exact le_rfl
  obtain ⟨rfl, layer, rfl⟩ := found_of_lookup hlookup replay.same_key hentry
    ((hlooked.trans hafter).trans_lt hwithin)
  rcases hchecks with ⟨hproceed, _⟩ | ⟨_, rfl, rfl, rfl, rfl⟩
  case inl => cases hproceed
  rcases hrest with ⟨_, herror, _⟩ | ⟨_, hok, hfinish⟩
  case inl => cases herror
  cases hok
  rw [finish_shortCircuit] at hfinish
  refine ⟨_, _, middle, after, ?_, ?_, ?_, ?_, ?_, hcalls, hfinish⟩ <;> rfl

/-- The obligations that the later request carries. -/
theorem later_carried : replay.opened.obligations = replaying.carried replay.obligations := by
  unfold ReplayChain.carried
  split
  · exact replay.later_obligations ‹_›
  · rename_i hundecided
    rw [Bool.not_eq_true] at hundecided
    exact (RequestStage.obligations_of_runStages hundecided replay.opening_runs).trans
      replay.later_undecided

/-- A replay repeats the response if and only if the response stages leave what they have made
of the body as it is. -/
theorem faithful_iff_repeats :
    replay.Faithful ↔ replaying.Repeats replay.schema replay.obligations replay.body := by
  obtain ⟨hfirst, hstatus, hbody, _⟩ := replay.first_stored
  obtain ⟨cx, before, middle, after, hroute, hobligations, hresponse, hcode, hreplay, hcalls,
    hrespond⟩ := replay.later_found
  have hrewrite : replaying.rewrite cx replay.response.body =
      rewrite replaying.crates replaying.schemaGuard replay.schema
        (replaying.carried replay.obligations) replay.response.body := by
    rw [ReplayChain.rewrite, hroute, hobligations, replay.later_schema, replay.later_carried]
  have hrepeats : replaying.Repeats replay.schema replay.obligations replay.body ↔
      replaying.rewrite cx replay.response.body = .ok replay.response.body := by
    rw [ReplayChain.Repeats, hfirst, hrewrite]
    rfl
  rw [hrepeats]
  rcases trail_respond hrespond hresponse with
    ⟨error, herror, hfailed⟩ | ⟨edited, stamped, keeping, kept, env', env'', rest, hedited, rfl, _,
      hkeep, hrest⟩
  · rw [herror]
    constructor
    · intro hfaithful
      have hsucceeds := hfaithful.succeeds
      rw [hfailed] at hsucceeds
      cases hsucceeds
    · nofun
  · have hunkept : replaying.toChain.keep { cx with responseBody := some edited } =
        return .ok () := keep_of_replay hreplay
    rw [hunkept] at hkeep
    obtain ⟨rfl, rfl, rfl⟩ := trail_done_iff.mp hkeep
    rcases hrest with ⟨_, hkept, _⟩ | ⟨_, hwrite⟩
    case inl => cases hkept
    have hlast := getLast?_write hwrite.runs (before ++ (stamped ++ []))
    rw [List.append_assoc, ← hcalls] at hlast
    have hwritten : replay.later.result = .ok () := by
      apply replay.written edited
      rw [hcalls, calls_of_write hwrite.runs]
      simp
    rw [hedited]
    constructor
    · intro hfaithful
      have hsame := hlast.2.symm.trans (hfaithful.body.trans hbody)
      cases hsame
      rfl
    · intro hsame
      cases hsame
      refine ⟨hwritten, ?_, ?_⟩
      · exact hlast.1.trans ((congrArg some hcode).trans hstatus.symm)
      · exact hlast.2.trans hbody.symm

end Replay

namespace RedactedTask

/-- What the handler returns. -/
def body : Json.Value := .object [("ok", .bool true), ("secret", .string "s")]

/-- The secret is not for everybody. -/
def redact : Obligation := ⟨"redact", .object [("path", .string "secret")]⟩

/-- An environment that allows the user everything but the secret. -/
def reply : (op : ChainOp) → op.Answer
  | .auth (.decide _) => .ok ⟨true, none, [redact], .null, 1000⟩
  | .callHandlerWithin cx _ _ => (some (.ok body), cx)
  | op => taskReply op

/-- A chain that authorizes requests before it looks them up. -/
def chain : ReplayChain where
  crates := taskCrates
  early := [.contextInit ⟨false⟩, .routePolicy taskRoutes, .authnMap, .authzQuota ⟨⟨fun _ => 0⟩, 1⟩]
  idempotency := ⟨some ⟨120000000000, 32768⟩⟩
  late := []
  schemaGuard := ⟨none⟩
  errorResponder := DefaultErrorResponder
  resilience := .default
  concurrencyLimit := none
  toVec _ := .ok [123, 34, 111, 107, 34, 58, 116, 114, 117, 101, 125]
  routed := rfl
  decided := rfl

/-- The request, both times. -/
def request : ProtoRequest := taskRequest (some "Bearer token")

/-- A millisecond passes before each call. -/
def choices : List ChainChoice := List.replicate 24 ⟨1000000, reply⟩

/-- The first time. -/
def first : ServedRequest := (serveWith chain.toChain choices (.new 0) request).get rfl

/-- The second time. -/
def later : ServedRequest := (serveWith chain.toChain choices first.after request).get rfl

/-- What the stages before the second lookup do. -/
def opening : List ChainCall × Returned StageOutcome × ChainWorld :=
  (trailWith ChainWorld.answer choices (runStages chain.opening .new request) first.after).get rfl

theorem trail_opening :
    Trail ChainWorld.answer (runStages chain.opening .new request) first.after opening.1
      (.ok .proceed, opening.2.1.2) opening.2.2 :=
  trail_of_trailWith choices rfl

/-- The call of the handler. -/
def handling : ChainCall := (first.calls.find? ChainCall.isHandled).get rfl

/-- The two requests. -/
def replay : Replay chain where
  body := body
  schema := none
  obligations := [redact]
  first := first
  first_happens := (happens_serveWith rfl).2
  succeeded := rfl
  handled := ((ChainCall.produced handling).get rfl).2
  produced := ⟨handling, List.mem_of_find?_eq_some (Option.some_get rfl).symm, rfl⟩
  first_schema := rfl
  first_obligations := rfl
  key := "tenant:POST:/v1/tasks:abc123"
  response := ⟨200, .object [("ok", .bool true)], []⟩
  ttl := 120000000000
  stored := List.mem_of_getElem? (i := 13) rfl
  later := later
  later_happens := (happens_serveWith rfl).2
  later_undecided := rfl
  opening := opening.1
  opened := opening.2.1.2
  opening_prefix := ⟨later.calls.drop opening.1.length, rfl⟩
  opening_runs := trail_opening.runs
  later_schema := rfl
  later_obligations _ := rfl
  same_key := rfl
  kept := rfl
  within expiry stored hentry := by
    have hwithin : (first.after.responses.inner.get "tenant:POST:/v1/tasks:abc123").all
        (fun entry => decide (later.after.clock < entry.1)) = true := by decide +kernel
    rw [hentry] at hwithin
    exact of_decide_eq_true hwithin
  written body answer hmem := by
    have hnone : later.bodies = [] := rfl
    have hbody : body ∈ later.bodies := List.mem_filterMap.mpr ⟨_, hmem, rfl⟩
    rw [hnone] at hbody
    cases hbody

end RedactedTask

/-- A body from which a field was removed fails when the field is to be removed again. -/
theorem not_faithful_redacted :
    ¬∀ (replaying : ReplayChain) (replay : Replay replaying), replay.Faithful := by
  intro h
  have hsucceeds := (h RedactedTask.chain RedactedTask.replay).succeeds
  have hfails : RedactedTask.replay.later.result.isOk = false := rfl
  rw [hsucceeds] at hfails
  cases hfails

end Soulbase.Interceptors
