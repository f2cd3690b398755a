/-
# The course of a request

The parts of `run_with_handler` one after the other, for any environment: the stages up to
the one that stops, the handler where none does, and the response. Each part says which calls
it makes, so a call of the handler or of the idempotency store tells where the request was.
-/

import Soulbase.Interceptors.ResponseStages

namespace Soulbase.Interceptors

open Soulbase.Foundation InterceptorChain

section Stages

variable {Choice Env : Type} {H : Handler ChainOp ChainOp.Answer Choice Env}
variable {env last : Env} {calls : List ChainCall} {cx cx' : InterceptContext}
variable {req : ProtoRequest} {result : Except InterceptError StageOutcome}

theorem runStages_append (first second : List Stage) (cx : InterceptContext)
    (req : ProtoRequest) :
    runStages (first ++ second) cx req =
      runStages first cx req >>= advance (runStages second · req) := by
  induction first generalizing cx with
  | nil => rfl
  | cons stage rest ih =>
      rw [List.cons_append, runStages, runStages, Program.bind_assoc]
      congr 1
      funext returned
      obtain ⟨outcome, cx'⟩ := returned
      match outcome with
      | .ok .proceed => exact ih cx'
      | .ok .shortCircuit => rfl
      | .error _ => rfl

/-- A part of the stages, and the rest unless it stops there. -/
theorem trail_advance {first : ChainProgram (Returned StageOutcome)}
    {rest : InterceptContext → ChainProgram (Returned StageOutcome)}
    (h : Trail H (first >>= advance rest) env calls (result, cx') last) :
    ∃ before outcome between middle after, calls = before ++ after ∧
      Trail H first env before (outcome, between) middle ∧
        ((outcome = .ok .proceed ∧ Trail H (rest between) middle after (result, cx') last) ∨
          (outcome ≠ .ok .proceed ∧ after = [] ∧ result = outcome ∧ cx' = between ∧
            last = middle)) := by
  obtain ⟨before, ⟨outcome, between⟩, middle, after, rfl, hfirst, hrest⟩ := trail_bind_iff.mp h
  refine ⟨before, outcome, between, middle, after, rfl, hfirst, ?_⟩
  match outcome with
  | .ok .proceed => exact .inl ⟨rfl, hrest⟩
  | .ok .shortCircuit =>
      obtain ⟨rfl, heq, rfl⟩ := trail_done_iff.mp hrest
      cases heq
      exact .inr ⟨by simp, rfl, rfl, rfl, rfl⟩
  | .error error =>
      obtain ⟨rfl, heq, rfl⟩ := trail_done_iff.mp hrest
      cases heq
      exact .inr ⟨by simp, rfl, rfl, rfl, rfl⟩

/-- Where all stages let a request through, each of them does. -/
theorem trail_runStages_cons {stage : Stage} {stages : List Stage}
    (h : Trail H (runStages (stage :: stages) cx req) env calls (.ok .proceed, cx') last) :
    ∃ before between middle after, calls = before ++ after ∧
      Trail H (stage.handle cx req) env before (.ok .proceed, between) middle ∧
        Trail H (runStages stages between req) middle after (.ok .proceed, cx') last := by
  obtain ⟨before, outcome, between, middle, after, rfl, hstage, ⟨rfl, hrest⟩ | hstopped⟩ :=
    trail_advance h
  · exact ⟨before, between, middle, after, rfl, hstage, hrest⟩
  · exact absurd hstopped.2.2.1.symm hstopped.1

theorem trail_runStages_nil
    (h : Trail H (runStages [] cx req) env calls (result, cx') last) :
    calls = [] ∧ result = .ok .proceed ∧ cx' = cx ∧ last = env := by
  obtain ⟨rfl, heq, rfl⟩ := trail_done_iff.mp h
  cases heq
  exact ⟨rfl, rfl, rfl, rfl⟩

theorem callsOnly_runStages {permits : ChainOp → Prop} {stages : List Stage}
    (h : ∀ stage ∈ stages, ∀ cx req, (stage.handle cx req).CallsOnly permits)
    (cx : InterceptContext) (req : ProtoRequest) : (runStages stages cx req).CallsOnly permits := by
  induction stages generalizing cx with
  | nil => exact Program.callsOnly_done _
  | cons stage rest ih =>
      apply Program.callsOnly_bind (h stage List.mem_cons_self cx req)
      rintro ⟨outcome, cx'⟩
      match outcome with
      | .ok .proceed => exact ih (fun stage hstage => h stage (List.mem_cons_of_mem _ hstage)) cx'
      | .ok .shortCircuit => exact Program.callsOnly_done _
      | .error _ => exact Program.callsOnly_done _

/-- No request stage calls the handler. -/
theorem callsStage_runStages (stages : List Stage) (cx : InterceptContext)
    (req : ProtoRequest) : CallsStage (runStages stages cx req) :=
  callsOnly_runStages (fun stage _ => stage.calls_stage) cx req

end Stages

namespace ChainOp

/-- A call that is made once there is a response. -/
def isReply : ChainOp → Bool
  | setStatus _ | insertHeader .. | outside _ | writeJson _ | idempotencyPut .. => true
  | _ => false

theorem isReply_of_isSync {op : ChainOp} (h : op.isSync = true) : op.isReply = true := by
  cases op <;> first | rfl | cases h

theorem isResponse_of_isSync {op : ChainOp} (h : op.isSync = true) : op.isResponse = true := by
  cases op <;> first | rfl | cases h

theorem isReply_of_isHandling {op : ChainOp} (h : op.isHandling = true) :
    op.isReply = false := by
  cases op <;> first | rfl | cases h

theorem isReply_of_isResponse {op : ChainOp} (h : op.isResponse = true) :
    op.isReply = true := by
  cases op <;> first | rfl | cases h

end ChainOp

/-- The program only does what is done once there is a response. -/
abbrev CallsReply {α : Type} (program : ChainProgram α) : Prop :=
  program.CallsOnly fun op => op.isReply = true

theorem callsResponse_call {op : ChainOp} (hop : op.isResponse = true) :
    CallsResponse (call op) :=
  Program.callsOnly_perform hop

section Response

variable (chain : InterceptorChain)

theorem callsSync_runResponseStages (stages : List ResponseStage) (cx : InterceptContext) :
    CallsSync (runResponseStages stages cx) := by
  induction stages generalizing cx with
  | nil => exact Program.callsOnly_done _
  | cons stage rest ih =>
      apply Program.callsOnly_bind (stage.calls_sync cx)
      rintro ⟨outcome, cx'⟩
      cases outcome with
      | ok _ => exact ih cx'
      | error _ => exact Program.callsOnly_done _

theorem callsResponse_write (cx : InterceptContext) : CallsResponse (write cx) := by
  have hheaders : CallsResponse (writeHeaders cx.responseHeaders) :=
    (callsSync_writeHeaders _).mono fun _ => ChainOp.isResponse_of_isSync
  apply Program.callsOnly_bind (callsResponse_call rfl)
  intro _
  apply Program.callsOnly_bind hheaders
  exact fun _ => callsResponse_call rfl

theorem callsReply_write (cx : InterceptContext) : CallsReply (write cx) :=
  (callsResponse_write cx).mono fun _ => ChainOp.isReply_of_isResponse

/-- Keeping a response is putting it into the store. -/
theorem callsPut_keep (cx : InterceptContext) :
    (chain.keep cx).CallsOnly fun op =>
      ∃ key response ttl, op = .idempotencyPut key response ttl := by
  unfold keep
  split
  · split
    · exact Program.callsOnly_done _
    · split
      · exact Program.callsOnly_done _
      · exact Program.callsOnly_call ⟨_, _, _, rfl⟩ fun _ => Program.callsOnly_done _
  · exact Program.callsOnly_done _

theorem callsReply_keep (cx : InterceptContext) : CallsReply (chain.keep cx) := by
  refine (callsPut_keep chain cx).mono ?_
  rintro _ ⟨_, _, _, rfl⟩
  rfl

theorem callsReply_respond (cx : InterceptContext) : CallsReply (chain.respond cx) := by
  apply Program.callsOnly_bind
  · exact (callsSync_runResponseStages _ _).mono fun _ => ChainOp.isReply_of_isSync
  · rintro ⟨outcome, cx'⟩
    cases outcome with
    | error _ => exact Program.callsOnly_done _
    | ok _ =>
        apply Program.callsOnly_bind (callsReply_keep chain cx')
        intro kept
        cases kept with
        | error _ => exact Program.callsOnly_done _
        | ok _ => exact callsReply_write cx'

theorem callsReply_refuse (cx : InterceptContext) (error : InterceptError) :
    CallsReply (chain.refuse cx error) := by
  apply Program.callsOnly_bind
  · exact (chain.errorResponder.calls_response cx error).mono fun _ =>
      ChainOp.isReply_of_isResponse
  · exact fun _ => Program.callsOnly_done _

/-- The program only does what the handler takes. -/
abbrev CallsHandling {α : Type} (program : ChainProgram α) : Prop :=
  program.CallsOnly fun op => op.isHandling = true

theorem callsHandling_attempt (policy : ResiliencePolicy) (cx : InterceptContext)
    (req : ProtoRequest) : CallsHandling (policy.attempt cx req) := by
  unfold ResiliencePolicy.attempt
  split
  · exact ⟨rfl, fun _ _ => trivial⟩
  · exact ⟨rfl, fun _ _ => trivial⟩

theorem callsHandling_conclude {policy : ResiliencePolicy}
    {retry : Option (InterceptContext → ChainProgram (Returned Json.Value))}
    (hretry : ∀ again ∈ retry, ∀ cx, CallsHandling (again cx))
    (ended : Option (Except InterceptError Json.Value) × InterceptContext) :
    CallsHandling (policy.conclude retry ended) := by
  have hpause : CallsHandling policy.backOff := by
    unfold ResiliencePolicy.backOff
    split
    · exact ⟨rfl, fun _ _ => trivial⟩
    · exact Program.callsOnly_done _
  obtain ⟨outcome, cx⟩ := ended
  match outcome with
  | none => exact Program.callsOnly_done _
  | some (.ok _) => exact Program.callsOnly_done _
  | some (.error error) =>
      unfold ResiliencePolicy.conclude
      dsimp only
      split
      · exact Program.callsOnly_bind hpause fun _ => hretry _ rfl cx
      · exact Program.callsOnly_done _

/-- The handler is called, over and over, and nothing else. -/
theorem callsHandling_executeFrom (policy : ResiliencePolicy) (req : ProtoRequest) (left : ℕ)
    (cx : InterceptContext) : CallsHandling (policy.executeFrom req left cx) := by
  induction left generalizing cx with
  | zero =>
      apply Program.callsOnly_bind (callsHandling_attempt policy cx req)
      exact callsHandling_conclude (by simp)
  | succ left ih =>
      apply Program.callsOnly_bind (callsHandling_attempt policy cx req)
      apply callsHandling_conclude
      rintro again hagain cx'
      cases hagain
      exact ih cx'

theorem callsHandling_produce (outcome : StageOutcome) (cx : InterceptContext)
    (req : ProtoRequest) : CallsHandling (chain.produce outcome cx req) := by
  unfold produce
  split
  · apply Program.callsOnly_bind (callsHandling_executeFrom _ _ _ _)
    rintro ⟨body, cx'⟩
    cases body <;> exact Program.callsOnly_done _
  · exact Program.callsOnly_done _

/-- A call that is made after the request stages. -/
def ChainOp.isLate (op : ChainOp) : Bool := op.isReply || op.isHandling

theorem callsLate_finish (outcome : StageOutcome) (cx : InterceptContext) (req : ProtoRequest) :
    (chain.finish outcome cx req).CallsOnly fun op => op.isLate = true := by
  have hreply : ∀ op : ChainOp, op.isReply = true → op.isLate = true := by
    intro op h
    simp [ChainOp.isLate, h]
  have hhandling : ∀ op : ChainOp, op.isHandling = true → op.isLate = true := by
    intro op h
    simp [ChainOp.isLate, h]
  apply Program.callsOnly_bind
  · unfold acquire
    split
    · apply Program.callsOnly_bind
      · exact Program.callsOnly_perform rfl
      · intro answer
        cases answer <;> exact Program.callsOnly_done _
    · exact Program.callsOnly_done _
  · intro acquired
    cases acquired with
    | error _ => exact Program.callsOnly_done _
    | ok _ =>
        apply Program.callsOnly_bind
        · exact (callsHandling_produce chain _ _ _).mono hhandling
        · rintro ⟨produced, cx'⟩
          cases produced with
          | error error => exact (callsReply_refuse chain cx' error).mono hreply
          | ok _ => exact (callsReply_respond chain cx').mono hreply

/-- Where a stage has ended the stages early, the handler is not called. -/
theorem finish_shortCircuit (cx : InterceptContext) (req : ProtoRequest) :
    chain.finish .shortCircuit cx req = chain.respond cx := by
  simp only [finish, acquire, produce]
  rfl

end Response

namespace ChainCall

/-- The handler has returned a body. -/
def isHandled : ChainCall → Bool
  | ⟨.callHandler .., (.ok _, _)⟩ => true
  | ⟨.callHandlerWithin .., (some (.ok _), _)⟩ => true
  | _ => false

/-- What the handler has returned, and the context as it has left it. -/
def produced : ChainCall → Option (Json.Value × InterceptContext)
  | ⟨.callHandler .., (.ok body, cx)⟩ => some (body, cx)
  | ⟨.callHandlerWithin .., (some (.ok body), cx)⟩ => some (body, cx)
  | _ => none

/-- A stored response was found. -/
def isReplayed : ChainCall → Bool
  | ⟨.idempotencyGet _, some _⟩ => true
  | _ => false

/-- The status that a call sets. -/
def status? : ChainCall → Option UInt16
  | ⟨.setStatus code, _⟩ => some code
  | _ => none

/-- The body that a call writes. -/
def body? : ChainCall → Option Json.Value
  | ⟨.writeJson body, _⟩ => some body
  | _ => none

/-- A header, as it is written. -/
def header (entry : String × String) : ChainCall := ⟨.insertHeader entry.1 entry.2, ()⟩

/-- A body is written. -/
def isWritten : ChainCall → Bool
  | ⟨.writeJson _, _⟩ => true
  | _ => false

theorem isHandling_of_isHandled {call : ChainCall} (h : call.isHandled = true) :
    call.1.isHandling = true := by
  obtain ⟨op, answer⟩ := call
  cases op <;> first | rfl | cases h

theorem isHandled_of_produced {call : ChainCall} {outcome : Json.Value × InterceptContext}
    (h : call.produced = some outcome) : call.isHandled = true := by
  obtain ⟨op, answer⟩ := call
  cases op with
  | callHandler cx req =>
      obtain ⟨ended, cx'⟩ := answer
      match ended with
      | .ok body => rfl
      | .error _ => cases h
  | callHandlerWithin cx req duration =>
      obtain ⟨ended, cx'⟩ := answer
      match ended with
      | some (.ok body) => rfl
      | some (.error _) => cases h
      | none => cases h
  | _ => cases h

/-- A response is found by a lookup only. -/
theorem lookup_of_isReplayed {call : ChainCall} (h : call.isReplayed = true) :
    ∃ key, call.1 = .idempotencyGet key := by
  obtain ⟨op, answer⟩ := call
  cases op <;> first | exact ⟨_, rfl⟩ | cases h

end ChainCall

/-! ## What is written -/

section Written

variable {calls : List ChainCall} {cx : InterceptContext}

theorem runs_writeHeaders_iff {headers : List (String × String)} :
    Runs (writeHeaders headers) calls () ↔ calls = headers.map ChainCall.header := by
  induction headers generalizing calls with
  | nil =>
      rw [writeHeaders]
      exact runs_done_iff.trans (and_iff_left rfl)
  | cons entry rest ih =>
      rw [writeHeaders, runs_call_bind_iff]
      simp only [ih]
      constructor
      · rintro ⟨_, _, rfl, rfl⟩
        rfl
      · rintro rfl
        exact ⟨(), _, rfl, rfl⟩

/-- A response is its status, its headers and its body, and fails as the writing of the body
does. -/
theorem calls_of_write {written : Except InterceptError Unit} (h : Runs (write cx) calls written) :
    calls = ⟨.setStatus (status cx), ()⟩ :: cx.responseHeaders.map ChainCall.header ++
      [⟨.writeJson (cx.responseBody.getD .null), written⟩] := by
  obtain ⟨_, rest, rfl, hrest⟩ := runs_call_bind_iff.mp h
  obtain ⟨before, _, after, rfl, hheaders, hwritten⟩ := runs_bind_iff.mp hrest
  obtain ⟨answer, last, rfl, hlast⟩ := runs_call_iff.mp hwritten
  obtain ⟨rfl, rfl⟩ := runs_done_iff.mp hlast
  rw [runs_writeHeaders_iff.mp hheaders]
  rfl

theorem filterMap_status?_headers (headers : List (String × String)) :
    (headers.map ChainCall.header).filterMap ChainCall.status? = [] := by
  simp [List.filterMap_map, Function.comp_def, ChainCall.header, ChainCall.status?]

theorem filterMap_body?_headers (headers : List (String × String)) :
    (headers.map ChainCall.header).filterMap ChainCall.body? = [] := by
  simp [List.filterMap_map, Function.comp_def, ChainCall.header, ChainCall.body?]

theorem filterMap_status?_write {written : Except InterceptError Unit}
    (h : Runs (write cx) calls written) :
    calls.filterMap ChainCall.status? = [status cx] := by
  rw [calls_of_write h, List.filterMap_append, List.filterMap_cons, filterMap_status?_headers]
  rfl

theorem filterMap_body?_write {written : Except InterceptError Unit}
    (h : Runs (write cx) calls written) :
    calls.filterMap ChainCall.body? = [cx.responseBody.getD .null] := by
  rw [calls_of_write h, List.filterMap_append, List.filterMap_cons, filterMap_body?_headers]
  rfl

/-- What is written last is the response. -/
theorem getLast?_write {written : Except InterceptError Unit} (h : Runs (write cx) calls written)
    (before : List ChainCall) :
    ((before ++ calls).filterMap ChainCall.status?).getLast? = some (status cx) ∧
      ((before ++ calls).filterMap ChainCall.body?).getLast? =
        some (cx.responseBody.getD .null) := by
  rw [List.filterMap_append, List.filterMap_append, filterMap_status?_write h,
    filterMap_body?_write h]
  simp

end Written

section Produced

variable {policy : ResiliencePolicy} {cx left : InterceptContext} {req : ProtoRequest}
variable {calls : List ChainCall} {call : ChainCall} {body : Json.Value}

theorem produced_of_attempt
    {ended : Option (Except InterceptError Json.Value) × InterceptContext}
    (h : Runs (policy.attempt cx req) calls ended) (hcall : call ∈ calls)
    (hproduced : call.produced = some (body, left)) : ended = (some (.ok body), left) := by
  unfold ResiliencePolicy.attempt at h
  cases htimeout : policy.timeout with
  | some duration =>
      rw [htimeout] at h
      obtain ⟨answer, rest, rfl, hrest⟩ := runs_call_iff.mp h
      obtain ⟨rfl, rfl⟩ := runs_done_iff.mp hrest
      obtain rfl := List.mem_singleton.mp hcall
      obtain ⟨outcome, cx'⟩ := ended
      match outcome with
      | some (.ok _) =>
          cases hproduced
          rfl
      | some (.error _) => cases hproduced
      | none => cases hproduced
  | none =>
      rw [htimeout] at h
      obtain ⟨⟨outcome, cx'⟩, rest, rfl, hrest⟩ := runs_call_bind_iff.mp h
      obtain ⟨rfl, rfl⟩ := runs_done_iff.mp hrest
      obtain rfl := List.mem_singleton.mp hcall
      match outcome with
      | .ok _ =>
          cases hproduced
          rfl
      | .error _ => cases hproduced

theorem produced_of_backOff (h : Runs policy.backOff calls ()) (hcall : call ∈ calls) :
    call.produced = none := by
  unfold ResiliencePolicy.backOff at h
  split at h
  · obtain ⟨answer, rest, rfl, hrest⟩ := runs_call_iff.mp h
    obtain ⟨rfl, _⟩ := runs_done_iff.mp hrest
    obtain rfl := List.mem_singleton.mp hcall
    rfl
  · obtain ⟨rfl, _⟩ := runs_done_iff.mp h
    cases hcall

theorem produced_of_conclude
    {retry : Option (InterceptContext → ChainProgram (Returned Json.Value))}
    (hretry : ∀ again ∈ retry, ∀ cx calls ended, Runs (again cx) calls ended → call ∈ calls →
      ended = (.ok body, left))
    {outcome : Option (Except InterceptError Json.Value) × InterceptContext}
    {ended : Returned Json.Value} (h : Runs (policy.conclude retry outcome) calls ended)
    (hcall : call ∈ calls) (hproduced : call.produced = some (body, left)) :
    ended = (.ok body, left) := by
  have hdone : ∀ {result}, Runs (.done result : ChainProgram (Returned Json.Value)) calls ended →
      ended = (.ok body, left) := by
    intro result hruns
    rw [(runs_done_iff.mp hruns).1] at hcall
    cases hcall
  obtain ⟨outcome, cx⟩ := outcome
  match outcome with
  | none => exact hdone h
  | some (.ok _) => exact hdone h
  | some (.error error) =>
      unfold ResiliencePolicy.conclude at h
      dsimp only at h
      split at h
      · obtain ⟨paused, _, rest, rfl, hpause, hrest⟩ := runs_bind_iff.mp h
        rcases List.mem_append.mp hcall with hmem | hmem
        · rw [produced_of_backOff hpause hmem] at hproduced
          cases hproduced
        · exact hretry _ rfl _ _ _ hrest hmem
      · exact hdone h

theorem produced_of_loop
    {retry : Option (InterceptContext → ChainProgram (Returned Json.Value))}
    (hretry : ∀ again ∈ retry, ∀ cx calls ended, Runs (again cx) calls ended → call ∈ calls →
      ended = (.ok body, left))
    {ended : Returned Json.Value}
    (h : Runs (policy.attempt cx req >>= policy.conclude retry) calls ended)
    (hcall : call ∈ calls) (hproduced : call.produced = some (body, left)) :
    ended = (.ok body, left) := by
  obtain ⟨before, outcome, after, rfl, hattempt, hconclude⟩ := runs_bind_iff.mp h
  rcases List.mem_append.mp hcall with hmem | hmem
  · obtain rfl := produced_of_attempt hattempt hmem hproduced
    exact (runs_done_iff.mp hconclude).2
  · exact produced_of_conclude hretry hconclude hmem hproduced

/-- What the handler has returned is what its attempts end with. -/
theorem produced_of_executeFrom {attempts : ℕ} {ended : Returned Json.Value}
    (h : Runs (policy.executeFrom req attempts cx) calls ended) (hcall : call ∈ calls)
    (hproduced : call.produced = some (body, left)) : ended = (.ok body, left) := by
  induction attempts generalizing cx calls ended with
  | zero => exact produced_of_loop (by simp) h hcall hproduced
  | succ attempts ih =>
      refine produced_of_loop ?_ h hcall hproduced
      rintro again hagain cx' calls' ended' hruns hmem
      cases hagain
      exact ih hruns hmem

/-- Nothing comes of a permit. -/
theorem calls_of_acquire {chain : InterceptorChain} {outcome : StageOutcome}
    {acquired : Except InterceptError Unit} (h : Runs (chain.acquire outcome) calls acquired) :
    ∀ call ∈ calls, call.1.isHandling = true ∧ ChainCall.produced call = none := by
  unfold acquire at h
  split at h
  · obtain ⟨answer, rest, rfl, hdone⟩ := runs_call_bind_iff.mp h
    obtain rfl : rest = [] := by
      cases answer <;> exact (runs_done_iff.mp hdone).1
    intro call hmem
    obtain rfl := List.mem_singleton.mp hmem
    exact ⟨rfl, rfl⟩
  · rw [(runs_done_iff.mp h).1]
    exact fun _ hmem => absurd hmem List.not_mem_nil

/-- What the handler has returned becomes the body of the response. -/
theorem returned_of_produce {chain : InterceptorChain} {outcome : StageOutcome}
    {returned : Returned Unit} (h : Runs (chain.produce outcome cx req) calls returned)
    (hcall : call ∈ calls) (hproduced : call.produced = some (body, left)) :
    returned = (.ok (), { left with responseBody := some body }) ∧
      ∀ call ∈ calls, call.1.isHandling = true := by
  unfold produce at h
  split at h
  · obtain ⟨running, ended, rest, rfl, hexecute, hdone⟩ := runs_bind_iff.mp h
    obtain rfl : rest = [] := by
      obtain ⟨outcome, _⟩ := ended
      cases outcome <;> exact (runs_done_iff.mp hdone).1
    rw [List.append_nil] at hcall ⊢
    obtain rfl := produced_of_executeFrom hexecute hcall hproduced
    exact ⟨(runs_done_iff.mp hdone).2, (callsHandling_executeFrom _ _ _ _).of_runs hexecute⟩
  · rw [(runs_done_iff.mp h).1] at hcall
    cases hcall

end Produced

section Course

variable {Choice Env : Type} {H : Handler ChainOp ChainOp.Answer Choice Env}
variable {env last : Env} {calls : List ChainCall} {cx : InterceptContext} {req : ProtoRequest}
variable {chain : InterceptorChain} {result : Except InterceptError Unit}

/-- A request goes through its stages, and is then refused or finished. -/
theorem course_of_trail (h : Trail H (chain.runWithHandler cx req) env calls result last) :
    ∃ before stopped between middle after, calls = before ++ after ∧
      Trail H (runStages chain.requestStages cx req) env before (stopped, between) middle ∧
        ((∃ error, stopped = .error error ∧
            Trail H (chain.refuse between error) middle after result last) ∨
          ∃ outcome, stopped = .ok outcome ∧
            Trail H (chain.finish outcome between req) middle after result last) := by
  obtain ⟨before, ⟨stopped, between⟩, middle, after, rfl, hstages, hrest⟩ := trail_bind_iff.mp h
  refine ⟨before, stopped, between, middle, after, rfl, hstages, ?_⟩
  cases stopped with
  | error error => exact .inl ⟨error, rfl, hrest⟩
  | ok outcome => exact .inr ⟨outcome, rfl, hrest⟩

/-- Where the handler has returned a body, every stage had let the request through. -/
theorem proceeded_of_handled
    (h : Trail H (chain.runWithHandler cx req) env calls result last) {call : ChainCall}
    (hcall : call ∈ calls) (hhandled : call.isHandled = true) :
    ∃ before between middle after, calls = before ++ after ∧
      Trail H (runStages chain.requestStages cx req) env before (.ok .proceed, between) middle ∧
        Trail H (chain.finish .proceed between req) middle after result last := by
  obtain ⟨before, stopped, between, middle, after, rfl, hstages, hrest⟩ := course_of_trail h
  have hnot : ∀ {α : Type} {program : ChainProgram α} {env last calls} {value : α},
      Trail H program env calls value last → CallsReply program → call ∉ calls := by
    intro α program env last calls value htrail hreply hmem
    have hop := hreply.of_runs htrail.runs call hmem
    rw [ChainOp.isReply_of_isHandling (ChainCall.isHandling_of_isHandled hhandled)] at hop
    cases hop
  rcases List.mem_append.mp hcall with hmem | hmem
  · have hop := (callsStage_runStages _ _ _).of_runs hstages.runs call hmem
    rw [ChainCall.isHandling_of_isHandled hhandled] at hop
    cases hop
  · rcases hrest with ⟨error, rfl, hrefuse⟩ | ⟨outcome, rfl, hfinish⟩
    · exact absurd hmem (hnot hrefuse (callsReply_refuse chain between error))
    · cases outcome with
      | proceed => exact ⟨before, between, middle, after, rfl, hstages, hfinish⟩
      | shortCircuit =>
          rw [finish_shortCircuit] at hfinish
          exact absurd hmem (hnot hfinish (callsReply_respond chain between))

/-- A body that the handler has returned is responded with. -/
theorem respond_of_produced
    (h : Trail H (chain.runWithHandler cx req) env calls result last) {call : ChainCall}
    (hcall : call ∈ calls) {body : Json.Value} {left : InterceptContext}
    (hproduced : call.produced = some (body, left)) :
    ∃ staged between running middle after, calls = staged ++ running ++ after ∧
      Runs (runStages chain.requestStages cx req) staged (.ok .proceed, between) ∧
        (∀ call ∈ running, call.1.isHandling = true) ∧
          Trail H (chain.respond { left with responseBody := some body }) middle after result
            last := by
  have hhandled := ChainCall.isHandled_of_produced hproduced
  have hhandling := ChainCall.isHandling_of_isHandled hhandled
  obtain ⟨staged, between, middle, late, rfl, hstages, hfinish⟩ :=
    proceeded_of_handled h hcall hhandled
  obtain ⟨acquiring, acquired, ready, rest, rfl, hacquire, hrest⟩ := trail_bind_iff.mp hfinish
  have hacquiring := calls_of_acquire hacquire.runs
  have hstaged : call ∉ staged := by
    intro hmem
    have hstage := (callsStage_runStages _ _ _).of_runs hstages.runs call hmem
    rw [hhandling] at hstage
    cases hstage
  have hrunning : call ∈ rest := by
    rcases List.mem_append.mp hcall with hmem | hmem
    · exact absurd hmem hstaged
    · rcases List.mem_append.mp hmem with hmem | hmem
      · rw [(hacquiring call hmem).2] at hproduced
        cases hproduced
      · exact hmem
  cases acquired with
  | error _ =>
      rw [(trail_done_iff.mp hrest).1] at hrunning
      cases hrunning
  | ok _ =>
      obtain ⟨producing, ⟨produced, cx'⟩, responding, after, rfl, hproduce, hrespond⟩ :=
        trail_bind_iff.mp hrest
      have hproducing : call ∈ producing := by
        rcases List.mem_append.mp hrunning with hmem | hmem
        · exact hmem
        · have hreply : call.1.isReply = true := by
            cases produced with
            | error error => exact (callsReply_refuse _ _ _).of_runs hrespond.runs call hmem
            | ok _ => exact (callsReply_respond _ _).of_runs hrespond.runs call hmem
          rw [ChainOp.isReply_of_isHandling hhandling] at hreply
          cases hreply
      obtain ⟨hreturned, hhandling⟩ := returned_of_produce hproduce.runs hproducing hproduced
      cases hreturned
      refine ⟨staged, between, acquiring ++ producing, _, after, by simp, hstages.runs, ?_,
        hrespond⟩
      intro other hother
      rcases List.mem_append.mp hother with hmem | hmem
      · exact (hacquiring other hmem).1
      · exact hhandling other hmem

end Course

end Soulbase.Interceptors
