/-
# Messages for developers stay inside

Two gateways get the same requests, and the same happens to both, but for the messages for
developers in the errors of handlers, authenticators, authorizers and whatever else may fail. Over
a discreet chain nobody can tell the two apart: neither a client by the responses, nor a handler by
what it is called with, nor the next request by what is stored. `devMessagesHidden` says so of whole
runs, and the invariant is `Server.Alike`.
-/

import Soulbase.Gateway.Api
import Soulbase.Interceptors.PublicErrors

namespace Soulbase.Gateway

open Soulbase.Foundation Soulbase.Errors Soulbase.Interceptors Soulbase.Auth

/-- The environment decides the same, but for the messages for developers. -/
structure ExchangeChoice.Same (choice choice' : ExchangeChoice) : Prop where
  elapsed : choice.elapsed = choice'.elapsed
  bytes : choice.bytes = choice'.bytes
  reply : ∀ op : ChainOp, op.Same (choice.reply op) (choice'.reply op)

/-- The same happens, but for the messages for developers. -/
inductive Action.Same {ι : Type} : Action ι → Action ι → Prop
  | accept (i : ι) (request : RouteRequest) : Same (.accept i request) (.accept i request)
  | call (i : ι) {choice choice' : ExchangeChoice} : choice.Same choice' →
      Same (.call i choice) (.call i choice')
  | send (i : ι) : Same (.send i) (.send i)
  | goAway (i : ι) : Same (.goAway i) (.goAway i)

/-- What can be seen of a gateway: what is stored, what has been sent, and of each request under
way what it has read, what it has written, and what it calls next. -/
structure Shown (ι : Type) where
  world : ChainWorld
  sent : List (ι × HttpResponse)
  exchanges : ι → Option (AxumRequest × AxumResponse × Option ChainOp)

/-- What can be seen of a gateway. -/
def Server.shown {ι : Type} (server : Server ι) : Shown ι where
  world := server.world
  sent := server.sent
  exchanges i := (server.exchanges i).map fun exchange =>
    (exchange.request, exchange.response, exchange.rest.head?)

/-- The exchanges cannot be told apart, now or later. -/
structure Exchange.Alike (exchange exchange' : Exchange) : Prop where
  request : exchange.request = exchange'.request
  response : exchange.response = exchange'.response
  rest : Discreet SameResult exchange.rest exchange'.rest

section Calls

variable {choice choice' : ExchangeChoice} {world : ChainWorld}

theorem serve_world_same (h : choice.Same choice') (op : ChainOp) :
    op.Same (world.serve choice.toChainChoice op).1 (world.serve choice'.toChainChoice op).1 ∧
      (world.serve choice.toChainChoice op).2 = (world.serve choice'.toChainChoice op).2 := by
  have hreply := h.reply op
  cases op with
  | idempotencyGet key => exact ⟨rfl, rfl⟩
  | idempotencyPut key response ttl => exact ⟨rfl, rfl⟩
  | auth op =>
      cases op with
      | cacheGet key => exact ⟨rfl, rfl⟩
      | cachePut key decision => exact ⟨rfl, rfl⟩
      | _ => exact ⟨hreply, rfl⟩
  | _ => exact ⟨hreply, rfl⟩

variable (http : HttpCrates) {exchange exchange' : Exchange}

/-- Answers to one call differ at most in messages for developers, and nothing else does. -/
theorem serve_same (h : choice.Same choice') (halike : exchange.Alike exchange') (op : ChainOp) :
    op.Same (exchange.serve http world choice op).1 (exchange'.serve http world choice' op).1 ∧
      (exchange.serve http world choice op).2.1 = (exchange'.serve http world choice' op).2.1 ∧
        (exchange.serve http world choice op).2.2.request =
          (exchange'.serve http world choice' op).2.2.request ∧
        (exchange.serve http world choice op).2.2.response =
          (exchange'.serve http world choice' op).2.2.response := by
  have hworld := @serve_world_same choice choice' world h op
  cases op with
  | readJson =>
      rw [Exchange.serve, Exchange.serve, halike.request, h.bytes]
      exact ⟨sameResult_refl _, rfl, rfl, halike.response⟩
  | setStatus code =>
      rw [Exchange.serve, Exchange.serve, halike.response]
      exact ⟨rfl, rfl, halike.request, rfl⟩
  | insertHeader name value =>
      rw [Exchange.serve, Exchange.serve, halike.response]
      exact ⟨rfl, rfl, halike.request, rfl⟩
  | writeJson body =>
      rw [Exchange.serve, Exchange.serve, halike.response]
      exact ⟨sameResult_refl _, rfl, halike.request, rfl⟩
  | _ => exact ⟨hworld.1, hworld.2, halike.request, halike.response⟩

theorem advance_same (h : choice.Same choice') (halike : exchange.Alike exchange') :
    Option.Rel (fun outcome outcome' => outcome.1 = outcome'.1 ∧ outcome.2.Alike outcome'.2)
      (exchange.advance http world choice) (exchange'.advance http world choice') := by
  have hrest := halike.rest
  unfold Exchange.advance
  generalize exchange.rest = rest at hrest
  generalize exchange'.rest = rest' at hrest
  cases hrest with
  | done _ => exact .none
  | @call op resume resume' hresume =>
      dsimp only
      rw [← h.elapsed]
      obtain ⟨hanswer, hworld, hrequest, hresponse⟩ :=
        @serve_same choice choice' (world.later choice.elapsed) http exchange exchange' h halike op
      exact .some ⟨hworld, hrequest, hresponse, hresume _ _ hanswer⟩

/-- Responses to errors say the same, if the errors do. -/
theorem errorResponse_congr {error error' : InterceptError}
    (h : error.inner.SamePublic error'.inner) :
    errorResponse http error = errorResponse http error' := by
  unfold errorResponse
  rw [h.toPublic, h.correlationId]

theorem reply_same (halike : exchange.Alike exchange') :
    exchange.reply http = exchange'.reply http := by
  have hrest := halike.rest
  unfold Exchange.reply
  rw [halike.response]
  generalize exchange.rest = rest at hrest
  generalize exchange'.rest = rest' at hrest
  cases hrest with
  | call _ => rfl
  | done hresult =>
      cases hresult with
      | ok _ => rfl
      | error herror => exact congrArg some (errorResponse_congr http herror)

end Calls

section Runs

variable {ι : Type} {server server' : Server ι} {chain : InterceptorChain}

/-- The gateways cannot be told apart, now or later. -/
structure Server.Alike (server server' : Server ι) : Prop where
  world : server.world = server'.world
  sent : server.sent = server'.sent
  exchanges : ∀ i, Option.Rel Exchange.Alike (server.exchanges i) (server'.exchanges i)

theorem Server.Alike.shown (h : server.Alike server') : server.shown = server'.shown := by
  have hexchanges : server.shown.exchanges = server'.shown.exchanges := by
    funext i
    have hrel := h.exchanges i
    dsimp only [Server.shown]
    generalize server.exchanges i = found at hrel ⊢
    generalize server'.exchanges i = found' at hrel ⊢
    cases hrel with
    | none => rfl
    | some halike =>
        rw [Option.map_some, Option.map_some, halike.request, halike.response,
          halike.rest.head?_eq]
  show Shown.mk _ _ server.shown.exchanges = Shown.mk _ _ server'.shown.exchanges
  rw [h.world, h.sent, hexchanges]

/-- A request begins alike in both. -/
theorem Exchange.alike_new (hchain : chain.Discreet) (request : ProtoRequest) :
    (Exchange.new chain request).Alike (Exchange.new chain request) where
  request := rfl
  response := rfl
  rest := discreet_runWithHandler hchain _ _

theorem Server.alike_new (clock : Instant) : (Server.new clock : Server ι).Alike (.new clock) where
  world := rfl
  sent := rfl
  exchanges _ := .none

variable [DecidableEq ι]

/-- The place of one request is given to requests that are alike. -/
theorem rel_update {exchanges exchanges' : ι → Option Exchange}
    (h : ∀ i, Option.Rel Exchange.Alike (exchanges i) (exchanges' i)) (i : ι)
    {found found' : Option Exchange} (hfound : Option.Rel Exchange.Alike found found') (j : ι) :
    Option.Rel Exchange.Alike (Function.update exchanges i found j)
      (Function.update exchanges' i found' j) := by
  by_cases hj : j = i
  · subst hj
    rw [Function.update_self, Function.update_self]
    exact hfound
  · rw [Function.update_of_ne hj, Function.update_of_ne hj]
    exact h j

variable (http : HttpCrates)

theorem accept_same (hchain : chain.Discreet) (h : server.Alike server') (i : ι)
    (request : RouteRequest) :
    Option.Rel Server.Alike (server.accept http chain i request)
      (server'.accept http chain i request) := by
  have hfree := h.exchanges i
  unfold Server.accept
  generalize server.exchanges i = found at hfree
  generalize server'.exchanges i = found' at hfree
  cases hfree with
  | some _ => exact .none
  | none =>
      cases parseU64 request.tenantId with
      | none => exact .some ⟨h.world, congrArg (List.cons _) h.sent, h.exchanges⟩
      | some _ =>
          have hnew := Exchange.alike_new hchain request.inner
          exact .some ⟨h.world, h.sent, rel_update h.exchanges i (.some hnew)⟩

theorem call_same (h : server.Alike server') (i : ι) {choice choice' : ExchangeChoice}
    (hchoice : choice.Same choice') :
    Option.Rel Server.Alike (server.call http i choice) (server'.call http i choice') := by
  have hfound := h.exchanges i
  unfold Server.call
  rw [← h.world]
  generalize server.exchanges i = found at hfound
  generalize server'.exchanges i = found' at hfound
  cases hfound with
  | none => exact .none
  | @some exchange exchange' halike =>
      have hadvance :=
        @advance_same choice choice' server.world http exchange exchange' hchoice halike
      rw [Option.bind_some, Option.bind_some]
      generalize exchange.advance http server.world choice = outcome at hadvance
      generalize exchange'.advance http server.world choice' = outcome' at hadvance
      cases hadvance with
      | none => exact .none
      | some houtcome =>
          exact .some ⟨houtcome.1, h.sent, rel_update h.exchanges i (.some houtcome.2)⟩

theorem send_same (h : server.Alike server') (i : ι) :
    Option.Rel Server.Alike (server.send http i) (server'.send http i) := by
  have hfound := h.exchanges i
  unfold Server.send
  generalize server.exchanges i = found at hfound
  generalize server'.exchanges i = found' at hfound
  cases hfound with
  | none => exact .none
  | @some exchange exchange' halike =>
      rw [Option.bind_some, Option.bind_some, reply_same http halike]
      cases exchange'.reply http with
      | none => exact .none
      | some response =>
          exact .some
            ⟨h.world, congrArg (List.cons (i, response)) h.sent, rel_update h.exchanges i .none⟩

/-- One step. -/
theorem next_same (hchain : chain.Discreet) (server server' : Server ι) (action action' : Action ι)
    (h : server.Alike server') (haction : action.Same action') :
    Option.Rel Server.Alike (server.next http chain action) (server'.next http chain action') := by
  cases haction with
  | accept i request => exact accept_same http hchain h i request
  | call i hchoice => exact call_same http h i hchoice
  | send i => exact send_same http h i
  | goAway i => exact .some ⟨h.world, h.sent, rel_update h.exchanges i .none⟩

/-- Nobody can tell from a gateway what it has told its developers. -/
theorem shown_replay (hchain : chain.Discreet) (clock : Instant)
    {actions actions' : List (Action ι)} (hactions : List.Forall₂ Action.Same actions actions') :
    (TransitionSystem.replay (Server.next http chain) (.new clock) actions).map Server.shown =
      (TransitionSystem.replay (Server.next http chain) (.new clock) actions').map
        Server.shown := by
  have hrel := rel_replay (next_same http hchain) (Server.alike_new clock) hactions
  generalize TransitionSystem.replay (Server.next http chain) _ actions = last at hrel
  generalize TransitionSystem.replay (Server.next http chain) _ actions' = last' at hrel
  cases hrel with
  | none => rfl
  | some halike => exact congrArg some halike.shown

end Runs

/-- A chain of stages of the crate, which answers errors as chains do by default. -/
structure OwnChain (crates : Crates) (chain : InterceptorChain) : Prop where
  stages : ∀ stage ∈ chain.requestStages, OwnStage crates stage
  responder : chain.errorResponder = DefaultErrorResponder

/-- A gateway over any chain of the stages of the crate, its own among them: two runs with the same
requests, in which everything happens alike but for what errors tell developers, show the same. -/
theorem devMessagesHidden {ι : Type} [DecidableEq ι] (http : HttpCrates) (crates : Crates) :
    (∀ toVec, OwnChain crates (InterceptorFacade.chain toVec)) ∧
      ∀ chain, OwnChain crates chain → ∀ (clock : Instant) (actions actions' : List (Action ι)),
        List.Forall₂ Action.Same actions actions' →
          (TransitionSystem.replay (Server.next http chain) (.new clock) actions).map
              Server.shown =
            (TransitionSystem.replay (Server.next http chain) (.new clock) actions').map
              Server.shown := by
  constructor
  · intro toVec
    refine ⟨?_, rfl⟩
    intro stage hstage
    rw [List.mem_singleton.mp hstage]
    exact .contextInit _
  · intro chain hown clock actions actions' hactions
    have hchain : chain.Discreet :=
      { stages := fun stage hstage => (hown.stages stage hstage).discreet
        responder := hown.responder ▸ DefaultErrorResponder.discreet }
    exact shown_replay http hchain clock hactions

end Soulbase.Gateway
