/-
# One successful run of the handler to a key

Any number of requests with the same tenant, method, path and idempotency key go through one
chain, interleaved at the granularity of its calls. The handler should return a body for at
most one of them.

A lookup that misses does not stop others from missing too, and the response is stored only
after the handler, the response stages and the check of its size. So the handler runs again
for a request that is looked up in between, and for every retry where the response is never
stored. The handler runs once if no lookup is made in between and every response is stored.
-/

import Soulbase.Foundation.Transition
import Soulbase.Interceptors.Service

namespace Soulbase.Interceptors

open Soulbase.Foundation Soulbase.Errors Soulbase.Auth InterceptorChain

/-- A chain with an idempotency layer, whose store is used by nothing else. -/
structure KeyedChain where
  crates : Crates
  early : List Stage
  layer : IdempotencyLayer
  late : List Stage
  responseStages : List ResponseStage
  errorResponder : ErrorResponder
  resilience : ResiliencePolicy
  concurrencyLimit : Option ℕ
  toVec : Json.Value → Except String (List UInt8)
  calls_aside : ∀ stage ∈ early ++ late, ∀ cx req, CallsAside (stage.handle cx req)

namespace KeyedChain

/-- The stage of the layer. -/
def idempotency (keyed : KeyedChain) : IdempotencyStage := ⟨some keyed.layer⟩

/-- The chain. -/
def toChain (keyed : KeyedChain) : InterceptorChain where
  requestStages := keyed.early ++ keyed.idempotency.toStage keyed.crates :: keyed.late
  responseStages := keyed.responseStages
  errorResponder := keyed.errorResponder
  resilience := keyed.resilience
  concurrencyLimit := keyed.concurrencyLimit
  toVec := keyed.toVec

/-- A response that `run_with_handler` stores under a key. -/
structure Storable (keyed : KeyedChain) (key : String) (cx : InterceptContext) : Prop where
  layer : cx.idempotencyLayer = some keyed.layer
  key : cx.idempotencyKey = some key
  fresh : cx.idempotencyReplay = false
  fits : ∃ body bytes, cx.responseBody = some body ∧ keyed.toVec body = .ok bytes ∧
    bytes.length ≤ keyed.layer.maxBodySize

/-- The response stages accept what the handler has returned, and leave it to be stored. -/
def Keeps (keyed : KeyedChain) (key : String) (cx : InterceptContext) : Prop :=
  ∀ calls result cx', Runs (runResponseStages keyed.responseStages cx) calls (result, cx') →
    result = .ok () ∧ keyed.Storable key cx'

end KeyedChain

/-- Requests with one tenant, method, path and `Idempotency-Key`. -/
structure KeyedRequests (keyed : KeyedChain) (ι : Type*) where
  tenant : String
  method : String
  path : String
  rawKey : String
  cx : ι → InterceptContext
  req : ι → ProtoRequest
  world : ChainWorld
  method_mem : method ∈ IdempotencyStage.idempotentMethods
  method_eq : ∀ i, Text.toUppercase keyed.crates.upper (req i).method = method
  path_eq : ∀ i, (req i).path = path
  header_eq : ∀ i, ((req i).header "Idempotency-Key").map Text.trim = some rawKey

/-- Requests on their way through a chain, and what they have called so far. -/
abbrev RequestPool (ι : Type*) :=
  Pool ι ChainOp ChainOp.Answer (Except InterceptError Unit)
    (Logged ι ChainOp ChainOp.Answer ChainWorld)

namespace RequestPool

variable {ι : Type*}

/-- How often the handler has returned a body. -/
def handled (pool : RequestPool ι) : ℕ :=
  pool.shared.log.countP fun entry => ChainCall.isHandled entry.2

end RequestPool

namespace KeyedRequests

variable {keyed : KeyedChain} {ι : Type*} [DecidableEq ι] (requests : KeyedRequests keyed ι)

/-- The key of all requests. -/
def key : String :=
  requests.tenant ++ ":" ++ requests.method ++ ":" ++ requests.path ++ ":" ++ requests.rawKey

/-- The time until which a response counts that is stored from the beginning on. -/
def deadline : Instant := requests.world.clock + keyed.layer.ttl

/-- All requests have the tenant, and are looked up within the time to live of the layer. It
is with this layer that responses are stored. -/
def withinTtl (world : ChainWorld) (choice : ChainChoice) : ChainOp → Bool
  | .idempotencyGet key =>
      decide (key = requests.key ∧ world.clock + choice.elapsed < requests.deadline)
  | .idempotencyPut _ _ ttl => decide (ttl = keyed.layer.ttl)
  | _ => true

/-- No request has made a call. -/
def start : RequestPool ι where
  shared := { env := requests.world, log := [] }
  threads := fun i => keyed.toChain.runWithHandler (requests.cx i) (requests.req i)

/-- One request makes its next call. -/
def next (pool : RequestPool ι) (step : ι × ChainChoice) : Option (RequestPool ι) :=
  pool.call ((ChainWorld.answer.restrict requests.withinTtl).logged step.1) step.1 step.2

/-- The runs of the requests. -/
def system : TransitionSystem (RequestPool ι) (ι × ChainChoice) :=
  .ofNext requests.start requests.next

end KeyedRequests

/-- The handler returns a body once at most, whatever happens. -/
def HandledOnce {ι : Type*} (T : TransitionSystem (RequestPool ι) (ι × ChainChoice)) : Prop :=
  ∀ pool, T.Reachable pool → pool.handled ≤ 1

/-- How far a request has come with its key. -/
inductive Phase
  /-- It has not been looked up. -/
  | coming
  /-- It has been looked up in vain. -/
  | missed
  /-- The handler has returned a body for it. -/
  | ran
  /-- A response is stored. -/
  | settled
  deriving DecidableEq

/-- What a call does to the phase of its caller. -/
def Phase.after (key : String) (phase : Phase) : (op : ChainOp) → op.Answer → Phase
  | .idempotencyGet _, none => .missed
  | .idempotencyGet _, some _ => .settled
  | .idempotencyPut other _ _, _ => if other = key then .settled else phase
  | .callHandler .., (.ok _, _) => .ran
  | .callHandlerWithin .., (some (.ok _), _) => .ran
  | _, _ => phase

/-- What a request may call in a phase, given that whatever the handler returns is kept. -/
def KeyedChain.looking (keyed : KeyedChain) (key : String) :
    Discipline ChainOp ChainOp.Answer Phase where
  permits phase
    | .idempotencyGet _ => phase = .coming
    | .callHandler .. | .callHandlerWithin .. => phase = .missed
    | _ => True
  ensures op answer := ∀ body cx, ChainCall.produced ⟨op, answer⟩ = some (body, cx) →
    keyed.Keeps key { cx with responseBody := some body }
  after := Phase.after key

namespace KeyedRequests

variable {keyed : KeyedChain} {ι : Type*} [DecidableEq ι] (requests : KeyedRequests keyed ι)

/-- How far a request has come. -/
def phase (pool : RequestPool ι) (i : ι) : Phase :=
  (keyed.looking requests.key).standing .coming pool.shared.log i

/-- The request was looked up in vain, and has neither stored a response nor returned. -/
structure Pending (pool : RequestPool ι) (i : ι) : Prop where
  phase : requests.phase pool i = .missed ∨ requests.phase pool i = .ran
  running : (pool.threads i).returned = false

/-- A lookup is made only while no other request is pending, and what the handler returns is
stored. -/
structure Undisturbed (pool : RequestPool ι) (step : ι × ChainChoice) : Prop where
  alone : ∀ key, (pool.threads step.1).head? = some (.idempotencyGet key) →
    ∀ other, other ≠ step.1 → ¬requests.Pending pool other
  kept : ∀ op body cx, (pool.threads step.1).head? = some op →
    ChainCall.produced ⟨op, step.2.reply op⟩ = some (body, cx) →
      keyed.Keeps requests.key { cx with responseBody := some body }

end KeyedRequests

namespace KeyedChain

variable {keyed : KeyedChain} {key : String} {α : Type} {program : ChainProgram α}
variable {phase : Phase} {cx : InterceptContext} {req : ProtoRequest}

/-- A call that has nothing to do with the store or the handler leaves the phase alone. -/
theorem stays_of_isAside {op : ChainOp} (hop : op.isAside = true) :
    (keyed.looking key).permits phase op ∧
      ∀ answer, (keyed.looking key).after phase op answer = phase := by
  cases op <;> first | exact ⟨trivial, fun _ => rfl⟩ | cases hop

/-- A program of such calls ends in the phase in which it begins. -/
theorem follows_aside (h : CallsAside program) :
    program.Follows (keyed.looking key) (fun _ ended => ended = phase) phase := by
  refine h.follows ?_ (fun _ _ _ _ hstays => hstays) rfl
  rintro _ op rfl hop
  exact stays_of_isAside hop

/-- What is done once there is a response settles the request or leaves its phase alone. -/
theorem follows_reply (h : CallsReply program) (hphase : phase ≠ .ran) :
    program.Follows (keyed.looking key) (fun _ ended => ended ≠ .ran) phase := by
  refine h.follows ?_ (fun _ _ _ _ hstays => hstays) hphase
  intro phase op hphase hop
  by_cases hput : ∃ other response ttl, op = .idempotencyPut other response ttl
  · obtain ⟨other, response, ttl, rfl⟩ := hput
    refine ⟨trivial, ?_⟩
    intro _
    change (if other = key then Phase.settled else phase) ≠ .ran
    split
    · decide
    · exact hphase
  · have haside : op.isAside = true := by
      cases op <;> first | rfl | exact absurd ⟨_, _, _, rfl⟩ hput | cases hop
    obtain ⟨hpermits, hafter⟩ := stays_of_isAside haside
    exact ⟨hpermits, fun answer => (hafter answer).symm ▸ hphase⟩

/-- A stored response is put under the key. -/
theorem keep_of_storable (h : keyed.Storable key cx) :
    ∃ response, keyed.toChain.keep cx =
      call (.idempotencyPut key response keyed.layer.ttl) >>= fun _ => return .ok () := by
  obtain ⟨body, bytes, hbody, hbytes, hfits⟩ := h.fits
  refine ⟨{ status := status cx, body := body, headers := cx.responseHeaders }, ?_⟩
  have htoVec : keyed.toChain.toVec body = .ok bytes := hbytes
  simp only [keep, h.layer, h.key, h.fresh, hbody, htoVec, if_neg (Nat.not_lt.mpr hfits)]

/-- A request whose handler has returned what is kept does not end before it is settled. -/
theorem follows_respond_of_keeps (h : keyed.Keeps key cx) :
    (keyed.toChain.respond cx).Follows (keyed.looking key) (fun _ ended => ended ≠ .ran)
      .ran := by
  have hstages : (runResponseStages keyed.responseStages cx).Follows (keyed.looking key)
      (fun returned ended => ended = .ran ∧ returned.1 = .ok () ∧
        keyed.Storable key returned.2) .ran := by
    have hcall : ∀ ended (op : ChainOp), ended = Phase.ran → op.isSync = true →
        (keyed.looking key).permits ended op ∧
          ∀ answer, (keyed.looking key).after ended op answer = .ran := by
      rintro _ op rfl hop
      have haside : op.isAside = true := by
        cases op <;> first | rfl | cases hop
      exact stays_of_isAside haside
    refine (callsSync_runResponseStages keyed.responseStages cx).follows hcall ?_ rfl
    · rintro calls ⟨result, cx'⟩ _ hruns hran
      exact ⟨hran, h calls result cx' hruns⟩
  apply Program.Follows.bind hstages
  rintro ⟨result, cx'⟩ _ ⟨rfl, hresult, hstorable⟩
  obtain rfl : result = .ok () := hresult
  obtain ⟨response, hkeep⟩ := keep_of_storable hstorable
  change Program.Follows _ _ _ (keyed.toChain.keep cx' >>= _)
  rw [hkeep]
  refine ⟨trivial, ?_⟩
  intro answer _
  apply follows_reply (callsReply_write cx')
  change (if key = key then Phase.settled else .ran) ≠ .ran
  rw [if_pos rfl]
  decide

end KeyedChain

namespace KeyedChain

variable {keyed : KeyedChain} {key : String} {cx : InterceptContext} {req : ProtoRequest}

/-- Where an attempt ends: with a body that is kept, or before the handler has returned one. -/
def Attempted (keyed : KeyedChain) (key : String) :
    Option (Except InterceptError Json.Value) × InterceptContext → Phase → Prop
  | (some (.ok body), cx), ended =>
      ended = .ran ∧ keyed.Keeps key { cx with responseBody := some body }
  | _, ended => ended = .missed

theorem follows_attempt (policy : ResiliencePolicy) :
    (policy.attempt cx req).Follows (keyed.looking key) (keyed.Attempted key) .missed := by
  unfold ResiliencePolicy.attempt
  cases policy.timeout with
  | some duration =>
      refine ⟨rfl, ?_⟩
      rintro ⟨ended, cx'⟩ hkeeps
      match ended with
      | none => exact rfl
      | some (.error _) => exact rfl
      | some (.ok body) => exact ⟨rfl, hkeeps body cx' rfl⟩
  | none =>
      refine ⟨rfl, ?_⟩
      rintro ⟨ended, cx'⟩ hkeeps
      match ended with
      | .error _ => exact rfl
      | .ok body => exact ⟨rfl, hkeeps body cx' rfl⟩

/-- Where the attempts end. -/
def Executed (keyed : KeyedChain) (key : String) : Returned Json.Value → Phase → Prop
  | (.ok body, cx), ended =>
      ended = .ran ∧ keyed.Keeps key { cx with responseBody := some body }
  | (.error _, _), ended => ended = .missed

theorem follows_conclude {policy : ResiliencePolicy}
    {retry : Option (InterceptContext → ChainProgram (Returned Json.Value))}
    (hretry : ∀ again ∈ retry, ∀ cx,
      (again cx).Follows (keyed.looking key) (keyed.Executed key) .missed)
    {ended : Option (Except InterceptError Json.Value) × InterceptContext} {phase : Phase}
    (hended : keyed.Attempted key ended phase) :
    (policy.conclude retry ended).Follows (keyed.looking key) (keyed.Executed key) phase := by
  obtain ⟨outcome, cx⟩ := ended
  match outcome with
  | none => exact hended
  | some (.ok body) => exact hended
  | some (.error error) =>
      obtain rfl : phase = .missed := hended
      unfold ResiliencePolicy.conclude
      dsimp only
      split
      · have hpause : policy.backOff.Follows (keyed.looking key)
            (fun _ ended => ended = .missed) .missed := by
          unfold ResiliencePolicy.backOff
          split
          · exact ⟨trivial, fun _ _ => rfl⟩
          · exact rfl
        apply Program.Follows.bind hpause
        rintro _ _ rfl
        exact hretry _ rfl cx
      · exact rfl

/-- The attempts end with a body once at most. -/
theorem follows_executeFrom (policy : ResiliencePolicy) (left : ℕ) :
    (policy.executeFrom req left cx).Follows (keyed.looking key) (keyed.Executed key)
      .missed := by
  induction left generalizing cx with
  | zero =>
      apply Program.Follows.bind (follows_attempt policy)
      intro ended phase hended
      exact follows_conclude (by simp) hended
  | succ left ih =>
      apply Program.Follows.bind (follows_attempt policy)
      intro ended phase hended
      refine follows_conclude ?_ hended
      rintro again hagain cx'
      cases hagain
      exact ih

/-- Where there is a response: the handler has returned it and it is kept, or the handler
was not called. -/
def Produced (keyed : KeyedChain) (key : String) : Returned Unit → Phase → Prop
  | (.ok (), cx), ended => ended = .missed ∨ ended = .ran ∧ keyed.Keeps key cx
  | (.error _, _), ended => ended = .missed

theorem follows_produce :
    (keyed.toChain.produce .proceed cx req).Follows (keyed.looking key) (keyed.Produced key)
      .missed := by
  unfold produce
  cases cx.responseBody with
  | some body => exact .inl rfl
  | none =>
      apply Program.Follows.bind (follows_executeFrom keyed.resilience keyed.resilience.maxRetries)
      rintro ⟨body, cx'⟩ ended hended
      cases body with
      | error error => exact hended
      | ok body => exact .inr hended

theorem follows_finish :
    (keyed.toChain.finish .proceed cx req).Follows (keyed.looking key)
      (fun _ ended => ended ≠ .ran) .missed := by
  have hacquire : (keyed.toChain.acquire .proceed).Follows (keyed.looking key)
      (fun _ ended => ended = .missed) .missed := by
    unfold acquire
    split
    · refine ⟨trivial, ?_⟩
      intro answer _
      cases answer <;> exact rfl
    · exact rfl
  apply Program.Follows.bind hacquire
  rintro acquired _ rfl
  cases acquired with
  | error _ => exact nofun
  | ok _ =>
      apply Program.Follows.bind follows_produce
      rintro ⟨result, cx'⟩ ended hended
      cases result with
      | error error =>
          obtain rfl : ended = .missed := hended
          exact follows_reply (callsReply_refuse _ cx' error) nofun
      | ok _ =>
          rcases hended with rfl | ⟨rfl, hkeeps⟩
          · exact follows_reply (callsReply_respond _ cx') nofun
          · exact follows_respond_of_keeps hkeeps

end KeyedChain

namespace KeyedRequests

variable {keyed : KeyedChain} {ι : Type*} (requests : KeyedRequests keyed ι)

/-- The stage refuses a blank key, and looks a request up otherwise. -/
theorem handle_eq (i : ι) (cx : InterceptContext) :
    keyed.idempotency.handle keyed.crates cx (requests.req i) =
      if requests.rawKey = "" then
        return (.error (idempotencyError "Idempotency-Key is empty"), cx)
      else IdempotencyStage.lookUp keyed.layer
        (buildIdempotencyKey cx requests.rawKey requests.method requests.path) cx := by
  obtain ⟨raw, hheader, hraw⟩ := Option.map_eq_some_iff.mp (requests.header_eq i)
  simp only [IdempotencyStage.handle, KeyedChain.idempotency, hheader, hraw, requests.method_eq,
    requests.path_eq, requests.method_mem, if_true]

/-- A request comes out of the stages refused, with a response, or looked up in vain. -/
theorem follows_runStages (i : ι) :
    (runStages keyed.toChain.requestStages (requests.cx i) (requests.req i)).Follows
      (keyed.looking requests.key)
      (fun returned ended => ended = .missed ∨ ended ≠ .ran ∧ returned.1 ≠ .ok .proceed)
      .coming := by
  have hearly : CallsAside (runStages keyed.early (requests.cx i) (requests.req i)) := by
    apply callsOnly_runStages
    intro stage hstage
    exact keyed.calls_aside stage (List.mem_append_left _ hstage)
  have hlate : ∀ cx, CallsAside (runStages keyed.late cx (requests.req i)) := by
    intro cx
    apply callsOnly_runStages
    intro stage hstage
    exact keyed.calls_aside stage (List.mem_append_right _ hstage)
  rw [KeyedChain.toChain, runStages_append]
  apply Program.Follows.bind (KeyedChain.follows_aside hearly)
  rintro ⟨outcome, cx⟩ _ rfl
  match outcome with
  | .error error => exact .inr ⟨nofun, nofun⟩
  | .ok .shortCircuit => exact .inr ⟨nofun, nofun⟩
  | .ok .proceed =>
      change Program.Follows _ _ _ (keyed.idempotency.handle keyed.crates cx (requests.req i) >>= _)
      rw [requests.handle_eq]
      split
      · exact .inr ⟨nofun, nofun⟩
      · refine ⟨rfl, ?_⟩
        intro answer _
        cases answer with
        | some existing => exact .inr ⟨nofun, nofun⟩
        | none =>
            refine (KeyedChain.follows_aside (hlate _)).mono ?_
            exact fun _ _ hended => .inl hended

/-- A request goes through the chain as its phases allow, and is not left in the middle. -/
theorem follows_runWithHandler (i : ι) :
    (keyed.toChain.runWithHandler (requests.cx i) (requests.req i)).Follows
      (keyed.looking requests.key) (fun _ ended => ended ≠ .ran) .coming := by
  apply Program.Follows.bind (requests.follows_runStages i)
  rintro ⟨outcome, cx⟩ ended hended
  have hran : ended ≠ .ran := by
    rcases hended with rfl | ⟨hran, _⟩
    · nofun
    · exact hran
  match outcome with
  | .error error => exact KeyedChain.follows_reply (callsReply_refuse _ cx error) hran
  | .ok .shortCircuit =>
      change Program.Follows _ _ _ (keyed.toChain.finish .shortCircuit cx (requests.req i))
      rw [finish_shortCircuit]
      exact KeyedChain.follows_reply (callsReply_respond _ cx) hran
  | .ok .proceed =>
      rcases hended with rfl | ⟨_, hproceed⟩
      · exact KeyedChain.follows_finish
      · exact absurd rfl hproceed

end KeyedRequests

/-! ## What a call keeps -/

section Calls

variable {keyed : KeyedChain} {key : String} {phase : Phase} {op : ChainOp} {answer : op.Answer}

/-- The handler is run for a request that was looked up in vain. -/
theorem ran_of_isHandled (h : ChainCall.isHandled ⟨op, answer⟩ = true)
    (hpermits : (keyed.looking key).permits phase op) :
    phase = .missed ∧ Phase.after key phase op answer = .ran := by
  cases op with
  | callHandler cx req =>
      obtain ⟨ended, cx'⟩ := answer
      match ended with
      | .ok body => exact ⟨hpermits, rfl⟩
      | .error _ => cases h
  | callHandlerWithin cx req duration =>
      obtain ⟨ended, cx'⟩ := answer
      match ended with
      | some (.ok body) => exact ⟨hpermits, rfl⟩
      | some (.error _) => cases h
      | none => cases h
  | _ => cases h

/-- All calls but those of the store and the ones that return a body leave the phase alone. -/
theorem after_of_quiet (hhandled : ChainCall.isHandled ⟨op, answer⟩ = false)
    (hstore : op.isStore = false) : Phase.after key phase op answer = phase := by
  cases op with
  | callHandler cx req =>
      obtain ⟨ended, cx'⟩ := answer
      match ended with
      | .ok body => cases hhandled
      | .error _ => rfl
  | callHandlerWithin cx req duration =>
      obtain ⟨ended, cx'⟩ := answer
      match ended with
      | some (.ok body) => cases hhandled
      | some (.error _) => rfl
      | none => rfl
  | idempotencyGet key => cases hstore
  | idempotencyPut key response ttl => cases hstore
  | _ => rfl

/-- What the handler returns is up to the environment. -/
theorem produced_of_answer {world next : ChainWorld} {choice : ChainChoice}
    (h : ChainWorld.answer world choice op = some (answer, next)) :
    ChainCall.produced ⟨op, answer⟩ = ChainCall.produced ⟨op, choice.reply op⟩ := by
  have hanswer := congrArg Prod.fst (ChainWorld.answer_eq_some_iff.mp h)
  cases op with
  | callHandler cx req => exact congrArg (fun reply => ChainCall.produced ⟨_, reply⟩) hanswer.symm
  | callHandlerWithin cx req duration =>
      exact congrArg (fun reply => ChainCall.produced ⟨_, reply⟩) hanswer.symm
  | _ => rfl

end Calls

namespace KeyedRequests

variable {keyed : KeyedChain} {ι : Type*} [DecidableEq ι] (requests : KeyedRequests keyed ι)

/-- A response is stored that counts as long as requests are looked up. -/
def Held (pool : RequestPool ι) : Prop :=
  ∃ expiry response, pool.shared.env.responses.inner.get requests.key = some (expiry, response) ∧
    requests.deadline ≤ expiry

/-- One request at most is pending. Until it has been through the handler there was no body,
and from the only one there was to the storing of the response it is still pending. -/
structure Guarded (pool : RequestPool ι) : Prop where
  follows : ∀ i, (pool.threads i).Follows (keyed.looking requests.key)
    (fun _ ended => ended ≠ .ran) (requests.phase pool i)
  clock : requests.world.clock ≤ pool.shared.env.clock
  alone : ∀ i j, requests.Pending pool i → requests.Pending pool j → i = j
  before : ∀ i, requests.phase pool i = .missed → (pool.threads i).returned = false →
    pool.handled = 0
  handled : pool.handled = 0 ∨
    pool.handled = 1 ∧ ((∃ i, requests.phase pool i = .ran) ∨ requests.Held pool)

/-- One request makes a call and comes to a phase. -/
structure Moves (pool : RequestPool ι) (i : ι) (ended : Phase) (next : RequestPool ι) : Prop where
  running : (pool.threads i).returned = false
  phase : requests.phase next i = ended
  others : ∀ j, j ≠ i → next.threads j = pool.threads j ∧
    requests.phase next j = requests.phase pool j
  follows : ∀ j, (next.threads j).Follows (keyed.looking requests.key)
    (fun _ ended => ended ≠ .ran) (requests.phase next j)
  clock : requests.world.clock ≤ next.shared.env.clock

variable {requests} {pool next : RequestPool ι} {i j : ι} {ended : Phase}

theorem Moves.pending_iff (h : requests.Moves pool i ended next) (hj : j ≠ i) :
    requests.Pending next j ↔ requests.Pending pool j := by
  obtain ⟨hthread, hphase⟩ := h.others j hj
  constructor
  · rintro ⟨hpending, hrunning⟩
    exact ⟨hphase ▸ hpending, hthread ▸ hrunning⟩
  · rintro ⟨hpending, hrunning⟩
    exact ⟨hphase.symm ▸ hpending, hthread.symm ▸ hrunning⟩

/-- A request that has been through the handler is still running. -/
theorem Guarded.running_of_ran (h : requests.Guarded pool)
    (hran : requests.phase pool i = .ran) : (pool.threads i).returned = false := by
  have hfollows := h.follows i
  cases hthread : pool.threads i with
  | call op resume => rfl
  | done result =>
      rw [hthread] at hfollows
      exact absurd hran hfollows

/-- A call that leaves the phase of its caller alone or settles the request. -/
theorem Guarded.settles (h : requests.Guarded pool) (hmoves : requests.Moves pool i ended next)
    (hended : ended = requests.phase pool i ∨ ended = .settled)
    (hhandled : next.handled = pool.handled)
    (hheld : requests.phase pool i = .ran ∧ ended = .settled ∨ requests.Held pool →
      requests.Held next) : requests.Guarded next := by
  have hpending : ∀ j, requests.Pending next j → requests.Pending pool j := by
    intro j hj
    by_cases hji : j = i
    · subst j
      refine ⟨?_, hmoves.running⟩
      have hphase := hj.phase
      rw [hmoves.phase] at hphase
      rcases hended with rfl | rfl
      · exact hphase
      · rcases hphase with hphase | hphase <;> cases hphase
    · exact (hmoves.pending_iff hji).mp hj
  refine ⟨hmoves.follows, hmoves.clock, ?_, ?_, ?_⟩
  · intro first second hfirst hsecond
    exact h.alone first second (hpending first hfirst) (hpending second hsecond)
  · intro j hmissed hrunning
    have hbefore := hpending j ⟨.inl hmissed, hrunning⟩
    rw [hhandled]
    refine h.before j ?_ hbefore.running
    by_cases hji : j = i
    · subst j
      rw [hmoves.phase] at hmissed
      rcases hended with rfl | rfl
      · exact hmissed
      · cases hmissed
    · rw [← (hmoves.others j hji).2]
      exact hmissed
  · rw [hhandled]
    refine h.handled.imp_right (And.imp_right ?_)
    rintro (⟨j, hran⟩ | hheld')
    · by_cases hji : j = i
      · subst j
        rcases hended with rfl | rfl
        · exact .inl ⟨i, hmoves.phase.trans hran⟩
        · exact .inr (hheld (.inl ⟨hran, rfl⟩))
      · exact .inl ⟨j, (hmoves.others j hji).2.trans hran⟩
    · exact .inr (hheld (.inr hheld'))

/-- A lookup in vain, while no other request is pending. -/
theorem Guarded.misses (h : requests.Guarded pool) (hmoves : requests.Moves pool i .missed next)
    (hcoming : requests.phase pool i = .coming)
    (halone : ∀ other, other ≠ i → ¬requests.Pending pool other)
    (hhandled : next.handled = pool.handled) (hvacant : ¬requests.Held pool) :
    requests.Guarded next := by
  have hnone : pool.handled = 0 := by
    rcases h.handled with hnone | ⟨_, ⟨j, hran⟩ | hheld⟩
    · exact hnone
    · have hji : j ≠ i := by
        rintro rfl
        rw [hcoming] at hran
        cases hran
      exact absurd ⟨.inr hran, h.running_of_ran hran⟩ (halone j hji)
    · exact absurd hheld hvacant
  have hpending : ∀ j, requests.Pending next j → j = i := by
    intro j hj
    by_contra hji
    exact halone j hji ((hmoves.pending_iff hji).mp hj)
  refine ⟨hmoves.follows, hmoves.clock, ?_, ?_, ?_⟩
  · intro first second hfirst hsecond
    rw [hpending first hfirst, hpending second hsecond]
  · intro _ _ _
    rw [hhandled, hnone]
  · exact .inl (hhandled.trans hnone)

/-- The handler returns a body. -/
theorem Guarded.runs (h : requests.Guarded pool) (hmoves : requests.Moves pool i .ran next)
    (hmissed : requests.phase pool i = .missed) (hhandled : next.handled = pool.handled + 1) :
    requests.Guarded next := by
  have hi : requests.Pending pool i := ⟨.inl hmissed, hmoves.running⟩
  have hpending : ∀ j, requests.Pending next j → j = i := by
    intro j hj
    by_contra hji
    exact hji (h.alone j i ((hmoves.pending_iff hji).mp hj) hi)
  refine ⟨hmoves.follows, hmoves.clock, ?_, ?_, ?_⟩
  · intro first second hfirst hsecond
    rw [hpending first hfirst, hpending second hsecond]
  · intro j hj hrunning
    rw [hpending j ⟨.inl hj, hrunning⟩, hmoves.phase] at hj
    cases hj
  · rw [hhandled, h.before i hmissed hmoves.running]
    exact .inr ⟨rfl, .inl ⟨i, hmoves.phase⟩⟩

/-- What a call of one request does, if what the handler returns is kept: the request moves
on, and the environment answers. -/
theorem Guarded.moves (h : requests.Guarded pool) {choice : ChainChoice}
    (hundisturbed : requests.Undisturbed pool (i, choice))
    (hstep : requests.next pool (i, choice) = some next) :
    ∃ op answer, (pool.threads i).head? = some op ∧
      (keyed.looking requests.key).permits (requests.phase pool i) op ∧
      requests.withinTtl pool.shared.env choice op = true ∧
      ChainWorld.answer pool.shared.env choice op = some (answer, next.shared.env) ∧
      next.handled = pool.handled + (if ChainCall.isHandled ⟨op, answer⟩ then 1 else 0) ∧
      requests.Moves pool i (Phase.after requests.key (requests.phase pool i) op answer) next := by
  obtain ⟨op, resume, answer, shared, hthread, hlogged, rfl⟩ := Pool.call_eq_some_iff.mp hstep
  obtain ⟨env, hrestricted, rfl⟩ := Handler.logged_eq_some_iff.mp hlogged
  obtain ⟨hwithin, hanswer⟩ := Handler.restrict_eq_some_iff.mp hrestricted
  have hhead : (pool.threads i).head? = some op := by
    rw [hthread]
    rfl
  have hfollows := h.follows i
  rw [hthread] at hfollows
  have hensures : (keyed.looking requests.key).ensures op answer := by
    intro body cx hproduced
    rw [produced_of_answer hanswer] at hproduced
    exact hundisturbed.kept op body cx hhead hproduced
  refine ⟨op, answer, hhead, hfollows.1, hwithin, hanswer, List.countP_cons, ?_⟩
  refine
    { running := by
        rw [hthread]
        rfl
      phase := Function.update_self _ _ _
      others := ?_
      follows := Pool.follows_call (D := fun _ => keyed.looking requests.key) h.follows hthread
        hensures
      clock := h.clock.trans (ChainWorld.clock_le_of_answer hanswer) }
  intro j hj
  exact ⟨Function.update_of_ne hj _ _, Function.update_of_ne hj _ _⟩

omit [DecidableEq ι] in
/-- What is held is found as long as requests are looked up. -/
theorem Held.live (h : requests.Held pool) {now : Instant} (hnow : now < requests.deadline) :
    pool.shared.env.responses.live requests.key now ≠ none := by
  obtain ⟨expiry, response, hget, hexpiry⟩ := h
  rw [MemoryIdempotencyStore.live_eq_some_iff.mpr ⟨expiry, hget, hnow.trans_le hexpiry⟩]
  nofun

/-- A lookup settles the request, or is in vain. -/
theorem Guarded.looksUp (h : requests.Guarded pool) {key : String} {choice : ChainChoice}
    {answer : Option StoredResponse} (hcoming : requests.phase pool i = .coming)
    (halone : ∀ other, other ≠ i → ¬requests.Pending pool other)
    (hwithin : requests.withinTtl pool.shared.env choice (.idempotencyGet key) = true)
    (hanswer : ChainWorld.answer pool.shared.env choice (.idempotencyGet key) =
      some (answer, next.shared.env))
    (hhandled : next.handled = pool.handled)
    (hmoves : requests.Moves pool i
      (Phase.after requests.key (requests.phase pool i) (.idempotencyGet key) answer) next) :
    requests.Guarded next := by
  obtain ⟨rfl, hnow⟩ := of_decide_eq_true hwithin
  have hserved := ChainWorld.answer_eq_some_iff.mp hanswer
  have hfound : pool.shared.env.responses.live requests.key
      (pool.shared.env.clock + choice.elapsed) = answer := by
    rw [← MemoryIdempotencyStore.get_fst]
    exact congrArg Prod.fst hserved
  cases answer with
  | none =>
      refine h.misses hmoves hcoming halone hhandled ?_
      exact fun hheld => hheld.live hnow hfound
  | some response =>
      refine h.settles hmoves (.inr rfl) hhandled ?_
      rintro (⟨hran, _⟩ | hheld)
      · rw [hcoming] at hran
        cases hran
      · have hsame : next.shared.env.responses = pool.shared.env.responses := by
          have hnext : (pool.shared.env.responses.get requests.key
              (pool.shared.env.clock + choice.elapsed)).2 = next.shared.env.responses :=
            congrArg (fun outcome => outcome.2.responses) hserved
          rw [← hnext, MemoryIdempotencyStore.get_of_live hfound]
        rwa [Held, hsame]

/-- A response that is stored under the key settles the request. -/
theorem Guarded.stores (h : requests.Guarded pool) {key : String} {response : StoredResponse}
    {ttl : Duration} {choice : ChainChoice} {answer : Unit}
    (hwithin : requests.withinTtl pool.shared.env choice (.idempotencyPut key response ttl) = true)
    (hanswer : ChainWorld.answer pool.shared.env choice (.idempotencyPut key response ttl) =
      some (answer, next.shared.env))
    (hhandled : next.handled = pool.handled)
    (hmoves : requests.Moves pool i
      (Phase.after requests.key (requests.phase pool i) (.idempotencyPut key response ttl) answer)
      next) : requests.Guarded next := by
  have httl : ttl = keyed.layer.ttl := of_decide_eq_true hwithin
  have hresponses : next.shared.env.responses = pool.shared.env.responses.put key response ttl
      (pool.shared.env.clock + choice.elapsed) :=
    (congrArg (fun outcome => outcome.2.responses)
      (ChainWorld.answer_eq_some_iff.mp hanswer)).symm
  change requests.Moves pool i (if key = requests.key then .settled else _) next at hmoves
  by_cases hkey : key = requests.key
  · rw [if_pos hkey] at hmoves
    refine h.settles hmoves (.inr rfl) hhandled ?_
    intro _
    refine ⟨pool.shared.env.clock + choice.elapsed + ttl, response, ?_, ?_⟩
    · rw [hresponses, ← hkey]
      exact HashMap.get_put_self _ _ _
    · rw [deadline, httl]
      exact Nat.add_le_add_right (h.clock.trans (Nat.le_add_right _ _)) _
  · rw [if_neg hkey] at hmoves
    refine h.settles hmoves (.inl rfl) hhandled ?_
    rintro (⟨hran, hsettled⟩ | ⟨expiry, kept, hget, hexpiry⟩)
    · rw [hran] at hsettled
      cases hsettled
    · refine ⟨expiry, kept, ?_, hexpiry⟩
      rw [hresponses, MemoryIdempotencyStore.put, HashMap.get_put, if_neg (Ne.symm hkey)]
      exact hget

/-- Every call keeps the requests guarded, if it is made undisturbed. -/
theorem Guarded.step (h : requests.Guarded pool) {choice : ChainChoice}
    (hundisturbed : requests.Undisturbed pool (i, choice))
    (hstep : requests.next pool (i, choice) = some next) : requests.Guarded next := by
  obtain ⟨op, answer, hhead, hpermits, hwithin, hanswer, hcount, hmoves⟩ :=
    h.moves hundisturbed hstep
  cases hhandled : ChainCall.isHandled ⟨op, answer⟩ with
  | true =>
      obtain ⟨hmissed, hran⟩ := ran_of_isHandled hhandled hpermits
      rw [hran] at hmoves
      rw [hhandled] at hcount
      exact h.runs hmoves hmissed hcount
  | false =>
      rw [hhandled] at hcount
      cases hstore : op.isStore with
      | false =>
          rw [after_of_quiet hhandled hstore] at hmoves
          refine h.settles hmoves (.inl rfl) hcount ?_
          rintro (⟨hran, hsettled⟩ | hheld)
          · rw [hran] at hsettled
            cases hsettled
          · rwa [Held, ChainWorld.responses_of_answer hanswer hstore]
      | true =>
          cases op with
          | idempotencyGet key =>
              exact h.looksUp hpermits (hundisturbed.alone key hhead) hwithin hanswer hcount hmoves
          | idempotencyPut key response ttl => exact h.stores hwithin hanswer hcount hmoves
          | _ => cases hstore

theorem guarded_start : requests.Guarded requests.start where
  follows := requests.follows_runWithHandler
  clock := le_rfl
  alone i _ hi _ := by
    rcases hi.phase with hphase | hphase <;> cases hphase
  before _ hmissed _ := by
    cases hmissed
  handled := .inl rfl

/-- The handler returns a body for one request at most, as long as no request is looked up
while another one is pending and every body is stored. -/
theorem handledOnce_of_undisturbed (requests : KeyedRequests keyed ι) :
    HandledOnce (requests.system.restrict requests.Undisturbed) := by
  intro pool hreach
  have hguarded : requests.Guarded pool := by
    refine TransitionSystem.invariant requests.Guarded ?_ ?_ hreach
    · rintro state rfl
      exact requests.guarded_start
    · rintro source ⟨i, choice⟩ target _ hsource ⟨hundisturbed, hstep⟩
      exact hsource.step hundisturbed hstep
  rcases hguarded.handled with hnone | ⟨hone, _⟩
  · exact hnone.le.trans (Nat.zero_le 1)
  · exact hone.le

end KeyedRequests

namespace TwoTasks

/-- A body of `2 * n + 1` bytes, for an `n` that is not zero. -/
def zeros (n : ℕ) : Json.Value := .array (List.replicate n (.number (.posInt 0)))

/-- `serde_json::to_vec`, as far as arrays of zeros go. -/
def toVec : Json.Value → Except String (List UInt8)
  | .array items => .ok (91 :: ((items.map fun _ => 48).intersperse 44 ++ [93]))
  | _ => .error "not an array of zeros"

/-- A chain that looks requests up by their tenant and calls the handler. -/
def chain : KeyedChain where
  crates := taskCrates
  early := [ContextInitStage.toStage ⟨false⟩]
  layer := ⟨120000000000, 32768⟩
  late := []
  responseStages := []
  errorResponder := DefaultErrorResponder
  resilience := .default
  concurrencyLimit := none
  toVec := toVec
  calls_aside := by
    intro stage hstage
    obtain rfl := List.mem_singleton.mp hstage
    exact fun cx req => (ContextInitStage.callsPlain_handle _ cx req).callsAside

/-- The same request, over and over. -/
def requests : KeyedRequests chain ℕ where
  tenant := "tenant"
  method := "POST"
  path := "/v1/tasks"
  rawKey := "abc123"
  cx _ := .new
  req _ := taskRequest (some "Bearer token")
  world := .new 0
  method_mem := by decide
  method_eq _ := rfl
  path_eq _ := rfl
  header_eq _ := rfl

/-- An environment whose handler returns some zeros. -/
def reply (n : ℕ) : (op : ChainOp) → op.Answer
  | .callHandlerWithin cx _ _ => (some (.ok (zeros n)), cx)
  | op => taskReply op

/-- A request makes its next call, a millisecond later. -/
def go (n i : ℕ) : ℕ × ChainChoice := (i, ⟨1000000, reply n⟩)

/-- Both requests are looked up before the handler has returned for the first. -/
def concurrently : List (ℕ × ChainChoice) :=
  [go 5 0, go 5 0, go 5 0, go 5 1, go 5 1, go 5 1, go 5 0, go 5 1]

/-- The second request is sent when the first has returned 16384 zeros. -/
def oneByOne : List (ℕ × ChainChoice) :=
  [go 16384 0, go 16384 0, go 16384 0, go 16384 0,
    go 16384 1, go 16384 1, go 16384 1, go 16384 1]

/-- Where the requests are after some steps. -/
def after (steps : List (ℕ × ChainChoice)) : RequestPool ℕ :=
  (TransitionSystem.replay requests.next requests.start steps).getD requests.start

end TwoTasks

/-- A request that is sent twice at the same time is executed twice. -/
theorem not_handledOnce_concurrently :
    ¬HandledOnce TwoTasks.requests.system := by
  intro h
  have hreach : TwoTasks.requests.system.Reachable (TwoTasks.after TwoTasks.concurrently) :=
    TransitionSystem.reachable_of_replay TwoTasks.concurrently rfl
  exact absurd (h _ hreach) (by decide)

/-- A request whose response is too large to be stored is executed again by a retry. -/
theorem not_handledOnce_retry :
    ¬∀ (keyed : KeyedChain) (requests : KeyedRequests keyed ℕ), HandledOnce requests.system := by
  intro h
  have hreach : TwoTasks.requests.system.Reachable (TwoTasks.after TwoTasks.oneByOne) :=
    TransitionSystem.reachable_of_replay TwoTasks.oneByOne rfl
  exact absurd (h _ _ _ hreach) (by decide)

end Soulbase.Interceptors
