/-
# Invocations of one invoker

What the calls of `invoke` do to the idempotency store and to the concurrency map, and in
which order one invocation makes them: a lookup first, and a result put at the end, once and
under the key that was looked up.
-/

import Soulbase.Foundation.Trail
import Soulbase.Tools.Invoker

namespace Soulbase.Tools

open Soulbase.Foundation

/-- What the invocations of an invoker share. -/
structure ToolWorld where
  /-- `InMemoryIdempotencyStore`. -/
  results : HashMap String InvokeResult
  /-- The map of `InvokerImpl::concurrency`. -/
  concurrency : HashMap String ℕ

/-- The answers of all that is neither the store nor the map. -/
abbrev ToolChoice := (op : ToolOp) → op.Answer

namespace ToolWorld

/-- `InvokerImpl::new`, with `InMemoryIdempotencyStore::new`. -/
def new : ToolWorld := ⟨∅, ∅⟩

/-- `ConcurrencyGuard::lock`. -/
def lock (world : ToolWorld) (key : String) : ToolWorld :=
  { world with
    concurrency := world.concurrency.put key ((world.concurrency.get key).getD 0 + 1) }

/-- `Drop for ConcurrencyGuard`. -/
def unlock (world : ToolWorld) (key : String) : ToolWorld :=
  match world.concurrency.get key with
  | none => world
  | some count =>
      if count ≤ 1 then { world with concurrency := world.concurrency.remove key }
      else { world with concurrency := world.concurrency.put key (count - 1) }

/-- The calls of an invocation. -/
def answer : Handler ToolOp ToolOp.Answer ToolChoice ToolWorld := fun world choice op =>
  match op with
  | .idempotencyGet key => some (world.results.get key, world)
  | .idempotencyPut key value => some ((), { world with results := world.results.put key value })
  | .lock key => some ((), world.lock key)
  | .unlock key => some ((), world.unlock key)
  | op => some (choice op, world)

end ToolWorld

/-- Invocations on their way, and what they have called so far. -/
abbrev InvocationPool (ι : Type*) :=
  Pool ι ToolOp ToolOp.Answer (ToolResult InvokeResult) (Logged ι ToolOp ToolOp.Answer ToolWorld)

/-- One invocation makes its next call. -/
def InvocationPool.next {ι : Type*} [DecidableEq ι] (pool : InvocationPool ι)
    (step : ι × ToolChoice) : Option (InvocationPool ι) :=
  pool.call (ToolWorld.answer.logged step.1) step.1 step.2

/-- A call of the idempotency store. -/
def ToolOp.isStore : ToolOp → Bool
  | idempotencyGet _ | idempotencyPut .. => true
  | _ => false

/-- A call of the concurrency map. -/
def ToolOp.isGuard : ToolOp → Bool
  | lock _ | unlock _ => true
  | _ => false

/-- A call that has nothing to do with either. -/
def ToolOp.isAside (op : ToolOp) : Bool := !op.isStore && !op.isGuard

section Frames

variable {world next : ToolWorld} {choice : ToolChoice} {op : ToolOp} {reply : op.Answer}

theorem ToolWorld.results_unlock (world : ToolWorld) (key : String) :
    (world.unlock key).results = world.results := by
  unfold unlock
  split
  · rfl
  · split <;> rfl

/-- Only the store changes its results. -/
theorem ToolWorld.results_of_answer (h : answer world choice op = some (reply, next))
    (hop : op.isStore = false) : next.results = world.results := by
  cases op with
  | idempotencyGet _ | idempotencyPut _ _ => cases hop
  | unlock key =>
      cases h
      exact results_unlock world key
  | _ =>
      cases h
      rfl

/-- Only the guards change the map. -/
theorem ToolWorld.concurrency_of_answer (h : answer world choice op = some (reply, next))
    (hop : op.isGuard = false) : next.concurrency = world.concurrency := by
  cases op with
  | lock _ | unlock _ => cases hop
  | _ =>
      cases h
      rfl

end Frames

namespace InvokeRequest

variable (request : InvokeRequest)

/-- The operations are executed by the sandbox. -/
theorem executes_runOps (ops : List Sandbox.ExecOp) (idx : ℕ) (course : Course) :
    (request.runOps idx ops course).CallsOnly fun op => ∃ asked, op = .execute asked := by
  induction ops generalizing idx course with
  | nil => exact Program.callsOnly_done course
  | cons op rest ih =>
      refine Program.callsOnly_call ⟨_, rfl⟩ ?_
      intro execution
      change Program.CallsOnly _ (if _ then _ else _)
      split
      · exact Program.callsOnly_done _
      · exact ih (idx + 1) _

theorem callsOnly_runOps (ops : List Sandbox.ExecOp) (idx : ℕ) (course : Course) :
    (request.runOps idx ops course).CallsOnly fun op => op.isAside = true := by
  apply (request.executes_runOps ops idx course).mono
  rintro _ ⟨asked, rfl⟩
  rfl

theorem callsOnly_report (crates : ToolCrates) (course : Course) (output : Json.Value)
    (startedAt : Instant) :
    (request.report crates course output startedAt).CallsOnly fun op => op.isAside = true := by
  refine Program.callsOnly_call rfl fun _ => ?_
  refine Program.callsOnly_call rfl fun _ => ?_
  refine Program.callsOnly_call rfl fun _ => ?_
  exact Program.callsOnly_call rfl fun _ => Program.callsOnly_done _

end InvokeRequest

/-- How far an invocation has come with its key. -/
inductive Lookup
  /-- It has not been looked up. -/
  | coming
  /-- It has been looked up in vain. -/
  | missed
  /-- It has been answered from the store. -/
  | hit (result : InvokeResult)
  /-- Its own result is stored. -/
  | stored (result : InvokeResult)

namespace Lookup

/-- What a call does to the phase of its caller. -/
def after (phase : Lookup) : (op : ToolOp) → op.Answer → Lookup
  | .idempotencyGet _, none => .missed
  | .idempotencyGet _, some result => .hit result
  | .idempotencyPut _ result, _ => .stored result
  | _, _ => phase

/-- An invocation is looked up first and stores its result at the end, under its key. -/
def discipline (key : Option String) : Discipline ToolOp ToolOp.Answer Lookup where
  permits phase
    | .idempotencyGet used => key = some used ∧ phase = .coming
    | .idempotencyPut used _ => key = some used ∧ phase = .missed
    | _ => True
  ensures _ _ := True
  after := after

/-- What an invocation with a key returns was found or is stored, unless it fails. -/
def Concludes (key : Option String) : ToolResult InvokeResult → Lookup → Prop
  | .ok result, phase => key = none ∨ phase = .hit result ∨ phase = .stored result
  | .error _, phase => key = none ∨ phase = .missed

variable {α : Type} {program : ToolProgram α} {phase : Lookup} {key : Option String}

/-- All calls but those of the store leave the phase alone. -/
theorem after_of_isStore {op : ToolOp} (hop : op.isStore = false) (answer : op.Answer) :
    phase.after op answer = phase := by
  cases op with
  | idempotencyGet _ | idempotencyPut _ _ => cases hop
  | _ => rfl

/-- A program that leaves the store alone ends in the phase in which it begins. -/
theorem follows_of_aside (h : program.CallsOnly fun op => op.isAside = true) :
    program.Follows (discipline key) (fun _ ended => ended = phase) phase := by
  refine h.follows ?_ (fun _ _ _ _ hstays => hstays) rfl
  rintro _ op rfl hop
  have hstore : op.isStore = false := by
    rw [ToolOp.isAside, Bool.and_eq_true, Bool.not_eq_true'] at hop
    exact hop.1
  refine ⟨?_, after_of_isStore hstore⟩
  cases op with
  | idempotencyGet _ | idempotencyPut _ _ => cases hstore
  | _ => exact trivial

end Lookup

namespace InvokeRequest

variable (request : InvokeRequest) {phase : Lookup}

theorem follows_conclude (hphase : request.idempotencyKey = none ∨ phase = .missed)
    (course : Course) (output : Json.Value) :
    (request.conclude course output).Follows (Lookup.discipline request.idempotencyKey)
      (Lookup.Concludes request.idempotencyKey) phase := by
  unfold conclude
  cases course.failure with
  | some err => exact hphase
  | none =>
      unfold keep
      cases hkey : request.idempotencyKey with
      | none => exact .inl rfl
      | some key =>
          have hmissed : phase = .missed := hphase.resolve_left (by simp [hkey])
          exact ⟨⟨rfl, hmissed⟩, fun _ _ => .inr (.inr rfl)⟩

theorem follows_run (crates : ToolCrates) (startedAt : Instant)
    (hphase : request.idempotencyKey = none ∨ phase = .missed) :
    (request.run crates startedAt).Follows (Lookup.discipline request.idempotencyKey)
      (Lookup.Concludes request.idempotencyKey) phase := by
  unfold run
  split
  · exact hphase
  · refine ⟨trivial, fun _ _ => ?_⟩
    apply Program.Follows.bind (Lookup.follows_of_aside (request.callsOnly_runOps _ _ _))
    rintro course _ rfl
    apply Program.Follows.bind (Lookup.follows_of_aside (request.callsOnly_report _ _ _ _))
    rintro _ _ rfl
    exact request.follows_conclude hphase _ _

theorem follows_runGuarded (crates : ToolCrates) (startedAt : Instant)
    (hphase : request.idempotencyKey = none ∨ phase = .missed) :
    (request.runGuarded crates startedAt).Follows (Lookup.discipline request.idempotencyKey)
      (Lookup.Concludes request.idempotencyKey) phase := by
  unfold runGuarded
  cases request.manifest.concurrency with
  | parallel => exact request.follows_run crates startedAt hphase
  | serial =>
      refine ⟨trivial, fun _ _ => ?_⟩
      apply Program.Follows.bind (request.follows_run crates startedAt hphase)
      intro result ended hended
      exact ⟨trivial, fun _ _ => hended⟩

/-- An invocation is looked up, and where that is in vain it stores what it returns. -/
theorem follows_invoke (crates : ToolCrates) :
    (request.invoke crates).Follows (Lookup.discipline request.idempotencyKey)
      (Lookup.Concludes request.idempotencyKey) .coming := by
  unfold InvokeRequest.invoke
  cases hkey : request.idempotencyKey with
  | some key =>
      refine ⟨trivial, fun startedAt _ => ⟨⟨rfl, rfl⟩, ?_⟩⟩
      intro found _
      cases found with
      | some hit => exact .inr (.inl rfl)
      | none =>
          have hrest := request.follows_runGuarded crates startedAt (.inr rfl)
          rwa [hkey] at hrest
  | none =>
      refine ⟨trivial, fun startedAt _ => ?_⟩
      have hrest := @follows_runGuarded request .coming crates startedAt (.inl hkey)
      rwa [hkey] at hrest

end InvokeRequest

/-- The invocation of the tool that echoes, by a tenant. -/
def echoRequest (tenant : String) : InvokeRequest where
  plan := (echoPlan echoSpec (echoCall tenant "https://example.com/test")).get rfl
  call := echoCall tenant "https://example.com/test"

/-- What the sandbox makes of an operation that returns a text. -/
def echoOutcome (request : Sandbox.ExecuteRequest) (text : String) : Sandbox.ExecutionOutcome :=
  let builder : Sandbox.EvidenceBuilder :=
    { profile := (echoRequest request.grant.tenant.asStr).plan.profile
      capability := .netHttp "example.com" none (some "https") ["GET"]
      envelopeId := request.envelopeId
      startedAt := ⟨0⟩ }
  let result := Sandbox.ExecResult.success (.object [("body", .string text)]) { calls := 1 } []
  { begin := .begin (builder.beginEvidence none)
    finish := Sandbox.finishedEvidence echoCrates.sandbox builder none result ⟨0⟩
    result := result }

/-- Every operation returns a text. -/
def echoChoice (text : String) : ToolChoice
  | .idempotencyGet _ => none
  | .execute request => .ok (echoOutcome request text)
  | .now => 0
  | .idempotencyPut .. | .lock _ | .unlock _ | .onInvokeBegin _ | .onInvokeEnd _
  | .recordInvocation .. | .recordBudget .. => ()

end Soulbase.Tools
