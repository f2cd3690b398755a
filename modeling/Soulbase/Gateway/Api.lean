/-
# The gateway

`sb-gateway` serves requests through one chain. Any number of them are under way at once, over the
stores that the stages share, and a client may go away at any call. A request ends with a
response: the one that the chain has written, or one for the error that it returns.
-/

import Soulbase.Interceptors.Adapters.Http
import Soulbase.Interceptors.Service

namespace Soulbase.Gateway

open Soulbase.Foundation Soulbase.Errors Soulbase.Interceptors

/-- A JSON response of `api.rs`. -/
def jsonResponse (http : HttpCrates) (status : UInt16) (payload : Json.Value) : HttpResponse where
  status := status
  headers := (∅ : HashMap String String).put "content-type" "application/json"
  body := http.toVec payload

/-- `bad_request_response`. -/
def badRequestResponse (http : HttpCrates) (msg : String) : HttpResponse :=
  jsonResponse http 400 (.object
    [("error", .object [("code", .string "gateway.invalid_path"), ("message", .string msg)]),
      ("success", .bool false)])

/-- `error_response`. -/
def errorResponse (http : HttpCrates) (err : InterceptError) : HttpResponse :=
  let view := err.inner.toErrorObj.toPublic
  let correlationId := (err.inner.correlationId.map Json.Value.string).getD .null
  jsonResponse http 500 (.object
    [("error", .object [("code", .string view.code), ("correlation_id", correlationId),
        ("message", .string view.message)]),
      ("success", .bool false)])

/-- `str::parse::<u64>`. -/
def parseU64 (text : String) : Option UInt64 :=
  let digits := ((Text.stripPrefix text "+").getD text).toList
  let value := Nat.ofDigitChars 10 digits 0
  if digits ≠ [] ∧ digits.all Char.isDigit ∧ value < 2 ^ 64 then some (.ofNat value) else none

/-- The chain of `InterceptorFacade::new`. -/
def InterceptorFacade.chain (toVec : Json.Value → Except String (List UInt8)) :
    InterceptorChain where
  requestStages := [ContextInitStage.toStage ⟨false⟩]
  responseStages := [ResponseStampStage]
  errorResponder := DefaultErrorResponder
  resilience := .default
  concurrencyLimit := none
  toVec := toVec

/-- A request for one of the two routes, with the tenant in its path. -/
structure RouteRequest where
  tenantId : String
  inner : ProtoRequest

/-- A request with its response, and what the chain has left to do. -/
structure Exchange where
  request : AxumRequest
  response : AxumResponse
  rest : ChainProgram (Except InterceptError Unit)

/-- What the environment decides about a call: the time that passes before it, the bytes of the
body, and its answer where it is not one of a store. -/
structure ExchangeChoice extends ChainChoice where
  bytes : Option (List UInt8)

namespace Exchange

/-- `InterceptorFacade::execute`, at its start. -/
def new (chain : InterceptorChain) (request : ProtoRequest) : Exchange where
  request := .new request
  response := .new
  rest := chain.runWithHandler .new request

/-- A call is answered by the request, the response, or the world. -/
def serve (http : HttpCrates) (exchange : Exchange) (world : ChainWorld)
    (choice : ExchangeChoice) : (op : ChainOp) → op.Answer × ChainWorld × Exchange
  | .readJson =>
      let read := exchange.request.readJson http choice.bytes
      (read.1, world, { exchange with request := read.2 })
  | .setStatus code =>
      ((), world, { exchange with response := exchange.response.setStatus code })
  | .insertHeader name value =>
      ((), world, { exchange with response := exchange.response.insertHeader http name value })
  | .writeJson body =>
      (.ok (), world, { exchange with response := exchange.response.writeJson body })
  | op =>
      let served := world.serve choice.toChainChoice op
      (served.1, served.2, exchange)

/-- The exchange, with its next call answered. -/
def advance (http : HttpCrates) (exchange : Exchange) (world : ChainWorld)
    (choice : ExchangeChoice) : Option (ChainWorld × Exchange) :=
  match exchange.rest with
  | .call op resume =>
      let served := exchange.serve http (world.later choice.elapsed) choice op
      some (served.2.1, { served.2.2 with rest := resume served.1 })
  | .done _ => none

/-- What is sent in the end. -/
def reply (http : HttpCrates) (exchange : Exchange) : Option HttpResponse :=
  match exchange.rest with
  | .done (.ok ()) => some (exchange.response.intoResponse http)
  | .done (.error err) => some (errorResponse http err)
  | .call .. => none

end Exchange

/-- The gateway, with the responses that it has sent, the latest first. -/
structure Server (ι : Type) where
  world : ChainWorld
  exchanges : ι → Option Exchange
  sent : List (ι × HttpResponse)

/-- What may happen next. -/
inductive Action (ι : Type)
  /-- A request comes in. -/
  | accept (i : ι) (request : RouteRequest)
  /-- A request makes its next call. -/
  | call (i : ι) (choice : ExchangeChoice)
  /-- The response to a request is sent. -/
  | send (i : ι)
  /-- A client goes away. -/
  | goAway (i : ι)

namespace Server

variable {ι : Type} [DecidableEq ι]

/-- Nothing has happened yet. -/
def new (clock : Instant) : Server ι where
  world := .new clock
  exchanges _ := none
  sent := []

/-- `tools_execute_route` and `collab_execute_route`, up to the chain. -/
def accept (http : HttpCrates) (chain : InterceptorChain) (server : Server ι) (i : ι)
    (request : RouteRequest) : Option (Server ι) :=
  match server.exchanges i, parseU64 request.tenantId with
  | some _, _ => none
  | none, none =>
      some { server with
        sent := (i, badRequestResponse http "tenant_id 必须为数字") :: server.sent }
  | none, some _ =>
      some { server with
        exchanges := Function.update server.exchanges i (some (.new chain request.inner)) }

/-- A request makes its next call. -/
def call (http : HttpCrates) (server : Server ι) (i : ι) (choice : ExchangeChoice) :
    Option (Server ι) :=
  (server.exchanges i).bind fun exchange =>
    (exchange.advance http server.world choice).map fun outcome =>
      { server with
        world := outcome.1
        exchanges := Function.update server.exchanges i (some outcome.2) }

/-- The response to a request is sent. -/
def send (http : HttpCrates) (server : Server ι) (i : ι) : Option (Server ι) :=
  (server.exchanges i).bind fun exchange =>
    (exchange.reply http).map fun response =>
      { server with
        exchanges := Function.update server.exchanges i none
        sent := (i, response) :: server.sent }

/-- The step function. -/
def next (http : HttpCrates) (chain : InterceptorChain) (server : Server ι) :
    Action ι → Option (Server ι)
  | .accept i request => server.accept http chain i request
  | .call i choice => server.call http i choice
  | .send i => server.send http i
  | .goAway i =>
      some { server with exchanges := Function.update server.exchanges i none }

end Server

end Soulbase.Gateway
