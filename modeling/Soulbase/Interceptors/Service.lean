/-
# A chain at work

Requests that go through one chain over the in-memory stores. The clock only goes forward, by
any amount before each call; whatever is not a store answers as it likes.
-/

import Soulbase.Auth.Cache
import Soulbase.Interceptors.Course

namespace Soulbase.Interceptors

open Soulbase.Foundation Soulbase.Errors Soulbase.Auth

/-- What the requests of a chain share. -/
structure ChainWorld where
  clock : Instant
  responses : MemoryIdempotencyStore
  decisions : MemoryDecisionCache

/-- What the environment decides about a call: the time that passes before it, and its answer
where it is not one of a store. -/
structure ChainChoice where
  elapsed : Duration
  reply : (op : ChainOp) → op.Answer

namespace ChainWorld

/-- The stores are empty. -/
def new (clock : Instant) : ChainWorld where
  clock := clock
  responses := .new
  decisions := .default

/-- The answer of a store, at the time it is asked. -/
def serve (world : ChainWorld) (choice : ChainChoice) : (op : ChainOp) → op.Answer × ChainWorld
  | .idempotencyGet key =>
      let found := world.responses.get key world.clock
      (found.1, { world with responses := found.2 })
  | .idempotencyPut key response ttl =>
      ((), { world with responses := world.responses.put key response ttl world.clock })
  | .auth (.cacheGet key) =>
      let found := world.decisions.get key world.clock
      (found.1, { world with decisions := found.2 })
  | .auth (.cachePut key decision) =>
      ((), { world with decisions := world.decisions.put key decision world.clock })
  | op => (choice.reply op, world)

/-- The same stores, some time later. -/
def later (world : ChainWorld) (elapsed : Duration) : ChainWorld :=
  { world with clock := world.clock + elapsed }

/-- The calls of a chain. -/
def answer : Handler ChainOp ChainOp.Answer ChainChoice ChainWorld :=
  fun world choice op => some ((world.later choice.elapsed).serve choice op)

variable {world next : ChainWorld} {choice : ChainChoice} {op : ChainOp} {reply : op.Answer}

theorem answer_eq_some_iff :
    answer world choice op = some (reply, next) ↔
      (world.later choice.elapsed).serve choice op = (reply, next) :=
  Option.some_inj

theorem clock_serve : (world.serve choice op).2.clock = world.clock := by
  cases op with
  | auth op => cases op <;> rfl
  | _ => rfl

/-- Time does not go back. -/
theorem clock_le_of_answer (h : answer world choice op = some (reply, next)) :
    world.clock ≤ next.clock := by
  have hnext := congrArg Prod.snd (answer_eq_some_iff.mp h)
  rw [← show _ = next from hnext, clock_serve]
  exact Nat.le_add_right _ _

theorem responses_serve (hop : op.isStore = false) :
    (world.serve choice op).2.responses = world.responses := by
  cases op with
  | auth op => cases op <;> rfl
  | idempotencyGet key => cases hop
  | idempotencyPut key response ttl => cases hop
  | _ => rfl

/-- The responses are left alone by every call of something else. -/
theorem responses_of_answer (h : answer world choice op = some (reply, next))
    (hop : op.isStore = false) : next.responses = world.responses := by
  have hnext := congrArg Prod.snd (answer_eq_some_iff.mp h)
  rw [← show _ = next from hnext, responses_serve hop]
  rfl

/-- Time does not go back while a program runs. -/
theorem clock_le_of_trail {α : Type} {program : ChainProgram α} {last : ChainWorld}
    {calls : List ChainCall} {value : α} (h : Trail answer program world calls value last) :
    world.clock ≤ last.clock := by
  induction h with
  | done value env => exact le_rfl
  | call hop _ ih => exact (clock_le_of_answer hop).trans ih

/-- A program that keeps off the store leaves the responses alone. -/
theorem responses_of_aside {α : Type} {program : ChainProgram α} {last : ChainWorld}
    {calls : List ChainCall} {value : α} (h : Trail answer program world calls value last)
    (haside : CallsAside program) : last.responses = world.responses := by
  induction h with
  | done value env => rfl
  | @call op resume env middle last choice reply calls value hop _ ih =>
      have hstore : op.isStore = false := by
        have hop := haside.1
        cases op <;> first | rfl | cases hop
      exact (ih (haside.2 reply trivial)).trans (responses_of_answer hop hstore)

theorem holds_serve {key : DecisionKey} {decision : Decision}
    (h : (world.serve choice op).2.decisions.Holds key decision) :
    op = .auth (.cachePut key decision) ∨ world.decisions.Holds key decision := by
  cases op with
  | auth op =>
      cases op with
      | cacheGet other => exact .inr (MemoryDecisionCache.holds_of_holds_get h)
      | cachePut other kept =>
          rcases MemoryDecisionCache.holds_of_holds_put h with ⟨rfl, rfl⟩ | hbefore
          · exact .inl rfl
          · exact .inr hbefore
      | _ => exact .inr h
  | _ => exact .inr h

/-- Only a call that stores a decision adds one. -/
theorem holds_of_answer {key : DecisionKey} {decision : Decision}
    (h : answer world choice op = some (reply, next)) (hholds : next.decisions.Holds key decision) :
    op = .auth (.cachePut key decision) ∨ world.decisions.Holds key decision := by
  have hnext := congrArg Prod.snd (answer_eq_some_iff.mp h)
  rw [← show _ = next from hnext] at hholds
  exact @holds_serve (world.later choice.elapsed) choice op key decision hholds

end ChainWorld

/-- A request that went through a chain, with its calls. -/
structure ServedRequest where
  cx : InterceptContext
  req : ProtoRequest
  before : ChainWorld
  calls : List ChainCall
  result : Except InterceptError Unit
  after : ChainWorld

/-- The request may go through the chain this way. -/
def ServedRequest.Happens (chain : InterceptorChain) (served : ServedRequest) : Prop :=
  Trail ChainWorld.answer (chain.runWithHandler served.cx served.req) served.before served.calls
    served.result served.after

/-- The requests follow each other, from a world on. -/
def Serves (chain : InterceptorChain) (world : ChainWorld) : List ServedRequest → Prop
  | [] => True
  | served :: rest => served.before = world ∧ served.Happens chain ∧ Serves chain served.after rest

/-- Requests that go through a chain one after the other, from empty stores on. -/
structure ServedRun (chain : InterceptorChain) where
  start : Instant
  requests : List ServedRequest
  follows : Serves chain (.new start) requests

/-- The calls of some requests. -/
def callsOf (requests : List ServedRequest) : List ChainCall := requests.flatMap (·.calls)

/-- What each call of a run keeps, given the calls before it, holds of the world in which a
request begins. -/
theorem Serves.preserves {chain : InterceptorChain} {world : ChainWorld}
    (holds : List ChainCall → ChainWorld → Prop)
    (hcall : ∀ before world choice op reply next,
      ChainWorld.answer world choice op = some (reply, next) → holds before world →
        holds (before ++ [⟨op, reply⟩]) next)
    {history rest : List ServedRequest} {served : ServedRequest} {before : List ChainCall}
    (h : Serves chain world (history ++ served :: rest)) (hworld : holds before world) :
    holds (before ++ callsOf history) served.before := by
  induction history generalizing world before with
  | nil =>
      obtain ⟨rfl, _, _⟩ := h
      simpa [callsOf] using hworld
  | cons first history ih =>
      obtain ⟨rfl, hfirst, hrest⟩ := h
      have hnext := ih hrest (hfirst.preserves holds hcall hworld)
      rwa [List.append_assoc] at hnext

/-- Every request of a run happens. -/
theorem Serves.happens {chain : InterceptorChain} {world : ChainWorld}
    {requests : List ServedRequest} (h : Serves chain world requests) :
    ∀ served ∈ requests, served.Happens chain := by
  induction requests generalizing world with
  | nil => simp
  | cons first rest ih =>
      obtain ⟨_, hfirst, hrest⟩ := h
      intro served hserved
      rcases List.mem_cons.mp hserved with rfl | hmem
      · exact hfirst
      · exact ih hrest served hmem

/-- Let a request go through a chain, on a list of choices. -/
def serveWith (chain : InterceptorChain) (choices : List ChainChoice) (world : ChainWorld)
    (req : ProtoRequest) : Option ServedRequest :=
  (trailWith ChainWorld.answer choices (chain.runWithHandler .new req) world).map fun run =>
    { cx := .new
      req := req
      before := world
      calls := run.1
      result := run.2.1
      after := run.2.2 }

theorem happens_serveWith {chain : InterceptorChain} {choices : List ChainChoice}
    {world : ChainWorld} {req : ProtoRequest}
    (h : (serveWith chain choices world req).isSome = true) :
    ((serveWith chain choices world req).get h).before = world ∧
      ((serveWith chain choices world req).get h).Happens chain := by
  obtain ⟨⟨calls, result, after⟩, hrun, hget⟩ :=
    Option.map_eq_some_iff.mp (Option.some_get h).symm
  rw [← hget]
  exact ⟨rfl, trail_of_trailWith choices hrun⟩

/-- The only user there is. -/
def taskUser : Subject := ⟨.user, ⟨"user"⟩, ⟨"tenant"⟩, []⟩

/-- An authenticator with one token. -/
def authenticateTask : AuthnInput → Except AuthError Subject
  | .bearer "token" => .ok taskUser
  | _ => .error (FullErrorObj.new codes.authUnauthenticated)

/-- An environment that allows the user everything. -/
def taskReply : (op : ChainOp) → op.Answer
  | .newRequestId => "req"
  | .timestampMillis => 0
  | .snapshot => none
  | .readJson => .ok (.object [])
  | .authenticate input => authenticateTask input
  | .auth (.authenticate input) => authenticateTask input
  | .auth (.attributesFor ..) => .null
  | .auth (.cacheGet _) => none
  | .auth (.cachePut ..) => ()
  | .auth (.decide _) => .ok ⟨true, none, [], .null, 0⟩
  | .auth (.verify ..) => .ok true
  | .auth (.checkAndConsume ..) => .ok .allowed
  | .idempotencyGet _ => none
  | .idempotencyPut .. => ()
  | .outside _ => .null
  | .acquirePermit => .ok ()
  | .callHandler cx _ => (.ok (.object [("ok", .bool true)]), cx)
  | .callHandlerWithin cx _ _ => (some (.ok (.object [("ok", .bool true)])), cx)
  | .sleep _ => ()
  | .setStatus _ => ()
  | .insertHeader .. => ()
  | .writeJson _ => .ok ()

/-- Crates for requests in ASCII, without consents and schemas. -/
def taskCrates : Crates where
  upper c := [c.toUpper]
  decodeBase64 _ := .error "no consent"
  consentFromSlice _ := .error "no consent"
  compile _ := .ok fun _ => .ok ()

/-- The route of the tasks. -/
def taskRoutes : RoutePolicyStage :=
  ⟨⟨[⟨.http "POST" "/v1/tasks", ⟨"soul:tool:browser", "Invoke", false, none, none⟩⟩]⟩⟩

/-- A request for a task, with or without credentials. -/
def taskRequest (authorization : Option String) : ProtoRequest where
  method := "POST"
  path := "/v1/tasks"
  header name :=
    if name = "Authorization" then authorization
    else if name = "X-Soul-Tenant" then some "tenant"
    else if name = "Idempotency-Key" then some "abc123"
    else none

end Soulbase.Interceptors
