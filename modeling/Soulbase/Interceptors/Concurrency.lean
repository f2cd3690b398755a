/-
# The concurrency limit

`InterceptorChain::with_concurrency_limit` puts a semaphore into a chain. A request that no
stage has answered takes a permit before its handler is called, and keeps it until
`run_with_handler` returns or is dropped, through all retries and the response.

Any number of requests are under way at once, and any of them may be dropped at any call. In
every interleaving there are never more handlers under way than the limit says, the permits
all come back, and a positive limit blocks nobody for good. With a limit of zero no handler is
ever called. Requests that a stage answers never wait.
-/

import Soulbase.Foundation.Permits
import Soulbase.Interceptors.Course

namespace Soulbase.Interceptors

open Soulbase.Foundation InterceptorChain

/-- `InterceptorChain::with_concurrency_limit`. -/
def InterceptorChain.withConcurrencyLimit (chain : InterceptorChain) (limit : ℕ) :
    InterceptorChain :=
  { chain with concurrencyLimit := some limit }

namespace ChainOp

/-- A call of the handler. -/
def isHandler : ChainOp → Bool
  | callHandler .. | callHandlerWithin .. => true
  | _ => false

/-- The permit goes back as the guard is dropped, at the end of the request. -/
def permitUse : PermitUse ChainOp Answer where
  taken
    | acquirePermit => some (.ok ())
    | _ => none
  given _ := none
  guarded := isHandler

/-- A call of the loop around the handler. -/
def isAttempt : ChainOp → Bool
  | callHandler .. | callHandlerWithin .. | sleep _ => true
  | _ => false

theorem isFree_of_isAttempt {op : ChainOp} (h : op.isAttempt = true) : permitUse.isFree op := by
  cases op <;> first | exact ⟨rfl, rfl⟩ | cases h

theorem isOpen_of_isHandling {op : ChainOp} (h : op.isHandling = false) :
    permitUse.isOpen op := by
  cases op <;> first | exact ⟨⟨rfl, rfl⟩, rfl⟩ | cases h

theorem isOpen_of_isReply {op : ChainOp} (h : op.isReply = true) : permitUse.isOpen op := by
  cases op <;> first | exact ⟨⟨rfl, rfl⟩, rfl⟩ | cases h

end ChainOp

/-- A request that a chain is to answer. -/
structure ChainRequest where
  cx : InterceptContext
  req : ProtoRequest

namespace InterceptorChain

variable (chain : InterceptorChain)

/-- A chain at work on any number of requests. What the environment does is left open. -/
def underWay (ι : Type) [DecidableEq ι] {Env Choice : Type}
    (H : Handler ChainOp ChainOp.Answer Choice Env) (limit : ℕ) (env : Env) :
    TransitionSystem (PermitPool ι ChainOp ChainOp.Answer (Except InterceptError Unit) Env)
      (PermitAction ι ChainRequest Choice) :=
  PermitPool.system ChainOp.permitUse H
    (fun request => (chain.withConcurrencyLimit limit).runWithHandler request.cx request.req)
    limit env

/-- The stages have let the request through. -/
def letThrough : Returned StageOutcome → Prop
  | (.ok .proceed, _) => True
  | _ => False

/-- A permit is asked for in exactly the runs in which the stages let the request through, and
after these. -/
def AsksWhenThrough (cx : InterceptContext) (req : ProtoRequest) : Prop :=
  ∀ calls result, Runs (chain.runWithHandler cx req) calls result →
    ∃ staged rest returned, calls = staged ++ rest ∧
      Runs (runStages chain.requestStages cx req) staged returned ∧
        (∀ call ∈ staged, call.1.isHandling = false) ∧
          ((∃ call ∈ rest, call.1.isHandling = true) → letThrough returned) ∧
            (letThrough returned → rest.head?.map (·.1) = some .acquirePermit)

theorem callsAttempt_conclude {policy : ResiliencePolicy}
    {retry : Option (InterceptContext → ChainProgram (Returned Json.Value))}
    (hretry : ∀ again ∈ retry, ∀ cx, (again cx).CallsOnly fun op => op.isAttempt = true)
    (ended : Option (Except InterceptError Json.Value) × InterceptContext) :
    (policy.conclude retry ended).CallsOnly fun op => op.isAttempt = true := by
  have hpause : policy.backOff.CallsOnly fun op => op.isAttempt = true := by
    unfold ResiliencePolicy.backOff
    split
    · exact ⟨rfl, fun _ _ => trivial⟩
    · exact Program.callsOnly_done _
  obtain ⟨outcome, cx⟩ := ended
  match outcome with
  | none => exact Program.callsOnly_done _
  | some (.ok _) => exact Program.callsOnly_done _
  | some (.error error) =>
      unfold ResiliencePolicy.conclude
      dsimp only
      split
      · exact Program.callsOnly_bind hpause fun _ => hretry _ rfl cx
      · exact Program.callsOnly_done _

/-- The loop never asks for a permit of its own. -/
theorem callsAttempt_executeFrom (policy : ResiliencePolicy) (req : ProtoRequest) (left : ℕ)
    (cx : InterceptContext) :
    (policy.executeFrom req left cx).CallsOnly fun op => op.isAttempt = true := by
  have hattempt : ∀ cx, (policy.attempt cx req).CallsOnly fun op => op.isAttempt = true := by
    intro cx
    unfold ResiliencePolicy.attempt
    split
    · exact ⟨rfl, fun _ _ => trivial⟩
    · exact ⟨rfl, fun _ _ => trivial⟩
  induction left generalizing cx with
  | zero => exact Program.callsOnly_bind (hattempt cx) (callsAttempt_conclude (by simp))
  | succ left ih =>
      apply Program.callsOnly_bind (hattempt cx)
      apply callsAttempt_conclude
      rintro again hagain cx'
      cases hagain
      exact ih cx'

theorem callsAttempt_produce (outcome : StageOutcome) (cx : InterceptContext)
    (req : ProtoRequest) :
    (chain.produce outcome cx req).CallsOnly fun op => op.isAttempt = true := by
  unfold produce
  split
  · apply Program.callsOnly_bind (callsAttempt_executeFrom _ _ _ _)
    rintro ⟨body, cx'⟩
    cases body <;> exact Program.callsOnly_done _
  · exact Program.callsOnly_done _

/-- What follows the permit needs no other. -/
theorem callsFree_produced (outcome : StageOutcome) (cx : InterceptContext)
    (req : ProtoRequest) :
    (do match ← chain.produce outcome cx req with
        | (.error error, cx) => chain.refuse cx error
        | (.ok (), cx) => chain.respond cx).CallsOnly ChainOp.permitUse.isFree := by
  apply Program.callsOnly_bind
  · exact (chain.callsAttempt_produce outcome cx req).mono fun _ => ChainOp.isFree_of_isAttempt
  · rintro ⟨produced, cx'⟩
    cases produced with
    | error error =>
        exact (callsReply_refuse chain cx' error).mono fun _ h => (ChainOp.isOpen_of_isReply h).1
    | ok _ => exact (callsReply_respond chain cx').mono fun _ h => (ChainOp.isOpen_of_isReply h).1

variable (limit : ℕ)

/-- A request with a limit: one permit, and the handler only with it. -/
theorem disciplined_runWithHandler (cx : InterceptContext) (req : ProtoRequest) :
    ChainOp.permitUse.Disciplined ((chain.withConcurrencyLimit limit).runWithHandler cx req) := by
  have hstages := (callsStage_runStages chain.requestStages cx req).mono fun _ =>
    ChainOp.isOpen_of_isHandling
  apply Program.Follows.bind (PermitUse.follows_of_isOpen hstages)
  rintro ⟨outcome, cx'⟩ _ rfl
  match outcome with
  | .error error =>
      have hrefuse := (callsReply_refuse (chain.withConcurrencyLimit limit) cx' error).mono
        fun _ => ChainOp.isOpen_of_isReply
      exact (PermitUse.follows_of_isOpen hrefuse).mono fun _ _ _ => trivial
  | .ok .shortCircuit =>
      have hrespond := (callsReply_respond (chain.withConcurrencyLimit limit) cx').mono
        fun _ => ChainOp.isOpen_of_isReply
      have hfinish := finish_shortCircuit (chain.withConcurrencyLimit limit) cx' req
      dsimp only
      rw [hfinish]
      exact (PermitUse.follows_of_isOpen hrespond).mono fun _ _ _ => trivial
  | .ok .proceed =>
      refine ⟨⟨fun _ => rfl, nofun, nofun⟩, ?_⟩
      intro acquired _
      cases acquired with
      | error _ => exact trivial
      | ok _ =>
          have hfree := (chain.withConcurrencyLimit limit).callsFree_produced .proceed cx' req
          exact (PermitUse.follows_of_isFree hfree).mono fun _ _ _ => trivial

/-- Only requests that the stages let through ask for a permit. -/
theorem asksWhenThrough (cx : InterceptContext) (req : ProtoRequest) :
    (chain.withConcurrencyLimit limit).AsksWhenThrough cx req := by
  intro calls result hruns
  obtain ⟨staged, returned, rest, rfl, hstaged, hrest⟩ := runs_bind_iff.mp hruns
  refine ⟨staged, rest, returned, rfl, hstaged,
    (callsStage_runStages chain.requestStages cx req).of_runs hstaged, ?_⟩
  obtain ⟨outcome, cx'⟩ := returned
  match outcome with
  | .error error =>
      have hreply := (callsReply_refuse (chain.withConcurrencyLimit limit) cx' error).of_runs hrest
      refine ⟨?_, nofun⟩
      rintro ⟨call, hcall, hhandling⟩
      have hnot := ChainOp.isReply_of_isHandling hhandling
      rw [hreply call hcall] at hnot
      cases hnot
  | .ok .shortCircuit =>
      dsimp only at hrest
      rw [finish_shortCircuit] at hrest
      have hreply := (callsReply_respond (chain.withConcurrencyLimit limit) cx').of_runs hrest
      refine ⟨?_, nofun⟩
      rintro ⟨call, hcall, hhandling⟩
      have hnot := ChainOp.isReply_of_isHandling hhandling
      rw [hreply call hcall] at hnot
      cases hnot
  | .ok .proceed =>
      refine ⟨fun _ => trivial, fun _ => ?_⟩
      obtain ⟨answer, after, rfl, _⟩ := runs_call_bind_iff.mp hrest
      rfl

end InterceptorChain

/-- In every interleaving of requests, given up at any call, handlers are limited, permits come
back, and only requests that no stage has answered wait. -/
theorem concurrencyLimited (chain : InterceptorChain) (limit : ℕ) {ι : Type} [DecidableEq ι]
    {Env Choice : Type} (H : Handler ChainOp ChainOp.Answer Choice Env) (env : Env) :
    (∀ pool, (chain.underWay ι H limit env).Reachable pool →
      pool.Sound ChainOp.permitUse limit) ∧
      ∀ cx req, (chain.withConcurrencyLimit limit).AsksWhenThrough cx req := by
  have hdisciplined : ∀ request : ChainRequest, ChainOp.permitUse.Disciplined
      ((chain.withConcurrencyLimit limit).runWithHandler request.cx request.req) :=
    fun request => chain.disciplined_runWithHandler limit request.cx request.req
  exact ⟨fun _ hpool => PermitPool.sound hdisciplined hpool, chain.asksWhenThrough limit⟩

end Soulbase.Interceptors
