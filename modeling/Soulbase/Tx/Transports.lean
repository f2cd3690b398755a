/-
# What a transport has delivered

A dispatcher takes a message for done when its transport returns `Ok`. The transports over Redis,
HTTP and Kafka hand requests to clients of a network. A request may fail after it has arrived, a
client may send it again, and an HTTP client follows redirections. So a send that returns an error
may have delivered the message all the same, a part of it, or all of it more than once. What a
send has given up may also arrive later: it is counted here at the send.

What a client makes of a request is a parameter, and `Client.Promises` is what its documentation
says. A fleet is run here with what has arrived on the other side. `Honest` is what is asked of one
send, and `delivers_of_honest` draws from it, for every interleaving of any number of dispatchers,
that a message is done only once its own request has arrived, and that nothing else arrives.
-/

import Soulbase.Foundation.Simulation
import Soulbase.Foundation.Text
import Soulbase.Tx.FleetDelivery

namespace Soulbase.Tx

open Soulbase.Foundation OutboxEvent

/-- What a client makes of a request: what it returns, and what arrives because of it. -/
structure Reply (Request Response : Type) where
  result : Except String Response
  arrived : List Request

/-- A client library, given what the network does meanwhile. -/
structure Client (Network Request Response : Type) where
  execute : Network → Request → Reply Request Response

/-- What is documented of a client. A request that fails may have arrived, once or more often. -/
structure Client.Promises {Network Request Response : Type}
    (client : Client Network Request Response) (sendsOn : Request → Request → Prop) (most : Nat) :
    Prop where
  /-- Only what has arrived is answered. -/
  answered : ∀ network request response,
    (client.execute network request).result = .ok response →
      request ∈ (client.execute network request).arrived
  /-- Only the request arrives, or what it is sent on as. -/
  sendsOn : ∀ network request other, other ∈ (client.execute network request).arrived →
    sendsOn request other
  /-- A request is sent again only so many times. -/
  bounded : ∀ network request, (client.execute network request).arrived.length ≤ most

/-- What a transport does with a message: what it returns, and what arrives, given what the network
does. -/
structure Transport (Network Delivery : Type) where
  send : Network → OutboxMessage → TxResult Unit × List Delivery

/-- `RedisEnvelope`. -/
structure RedisEnvelope where
  id : String
  tenant : String
  topic : String
  attempts : UInt32
  payload : Json.Value

/-- The texts that `serde_json` makes. -/
structure TransportCrates where
  envelopeText : RedisEnvelope → Except String String
  payloadText : Json.Value → Except String String

/-- A command that Redis carries out. -/
inductive RedisCommand
  | rpush (listKey body : String)
  | publish (channel body : String)

/-- Why there is no connection. -/
inductive ConnectError
  | timedOut
  | failed (err : String)

/-- What the network does to the commands of a send. -/
structure RedisNetwork (Network : Type) where
  connection : Except ConnectError Unit
  rpush : Network
  publish : Network

/-- `RedisTransport`. -/
structure RedisTransport where
  listKey : String
  channel : Option String

namespace RedisTransport

variable {Network : Type}

/-- The envelope of a message that was tried a number of times. -/
def envelope (message : OutboxMessage) (attempts : UInt32) : RedisEnvelope where
  id := message.id.asStr
  tenant := message.tenant.asStr
  topic := message.topic
  attempts := attempts
  payload := message.payload

/-- `RedisTransport::send` with the text of the envelope and a connection. -/
def push (client : Client Network RedisCommand Unit) (redis : RedisTransport)
    (network : RedisNetwork Network) (body : String) : TxResult Unit × List RedisCommand :=
  let pushed := client.execute network.rpush (.rpush redis.listKey body)
  match pushed.result with
  | .error err => (.error (.providerUnavailable s!"redis RPUSH failed: {err}"), pushed.arrived)
  | .ok () =>
      match redis.channel with
      | none => (.ok (), pushed.arrived)
      | some channel =>
          let published := client.execute network.publish (.publish channel body)
          let arrived := pushed.arrived ++ published.arrived
          match published.result with
          | .error err =>
              (.error (.providerUnavailable s!"redis publish to {channel} failed: {err}"),
                arrived)
          | .ok () => (.ok (), arrived)

/-- `RedisTransport::send`. -/
def send (crates : TransportCrates) (client : Client Network RedisCommand Unit)
    (redis : RedisTransport) (network : RedisNetwork Network) (message : OutboxMessage) :
    TxResult Unit × List RedisCommand :=
  match crates.envelopeText (envelope message (message.attempts + 1)) with
  | .error err => (.error (.schema s!"serialize redis envelope failed: {err}"), [])
  | .ok body =>
      match network.connection with
      | .error .timedOut => (.error (.providerUnavailable "redis connect timed out"), [])
      | .error (.failed err) =>
          (.error (.providerUnavailable s!"redis connect failed: {err}"), [])
      | .ok () => redis.push client network body

end RedisTransport

/-- The status of a response, with its text. -/
structure HttpStatus where
  code : UInt16
  text : String

/-- `StatusCode::is_success`. -/
def HttpStatus.isSuccess (status : HttpStatus) : Bool := 200 ≤ status.code && status.code < 300

/-- A request as it arrives. One that was redirected may have lost its body. -/
structure HttpRequest where
  method : String
  url : String
  headers : List (String × String)
  json : Option Json.Value

/-- What a client that follows redirections makes of a request: the same somewhere else (307 and
308), or one without a body (301, 302 and 303). -/
def HttpRequest.SentOn (request other : HttpRequest) : Prop :=
  (other.method = request.method ∧ other.json = request.json) ∨
    ((other.method = "GET" ∨ other.method = "HEAD") ∧ other.json = none)

/-- `HttpTransport`. -/
structure HttpTransport where
  method : String
  headers : List (String × String)

namespace HttpTransport

variable {Network : Type}

/-- `HttpTransport::build_url`. -/
def buildUrl (message : OutboxMessage) : TxResult String :=
  if Text.startsWith message.topic "http://" || Text.startsWith message.topic "https://" then
    .ok message.topic
  else .error (.schema "outbox topic must be http(s) URL for HttpTransport")

/-- `HttpTransport::send`. -/
def send (client : Client Network HttpRequest HttpStatus) (http : HttpTransport)
    (network : Network) (message : OutboxMessage) : TxResult Unit × List HttpRequest :=
  match buildUrl message with
  | .error err => (.error err, [])
  | .ok url =>
      let reply := client.execute network {
        method := http.method
        url := url
        headers := http.headers
        json := some message.payload }
      match reply.result with
      | .error err => (.error (.providerUnavailable s!"http send failed: {err}"), reply.arrived)
      | .ok status =>
          if status.isSuccess then (.ok (), reply.arrived)
          else
            (.error (.providerUnavailable ("http transport status " ++ status.text)),
              reply.arrived)

end HttpTransport

/-- `FutureRecord`, as it arrives. -/
structure KafkaRecord where
  topic : String
  key : String
  payload : String

/-- `KafkaTransport`. -/
structure KafkaTransport where
  topicOverride : Option String

namespace KafkaTransport

variable {Network : Type}

/-- `KafkaTransport::topic_for`. -/
def topicFor (kafka : KafkaTransport) (message : OutboxMessage) : TxResult String :=
  match kafka.topicOverride with
  | some topic => .ok topic
  | none =>
      match Text.stripPrefix message.topic "kafka://" with
      | some stripped => .ok stripped
      | none =>
          .error (.schema
            "outbox topic must be kafka://<topic> or set in KafkaTransportConfig")

/-- `KafkaTransport::send`. -/
def send (crates : TransportCrates) (producer : Client Network KafkaRecord Unit)
    (kafka : KafkaTransport) (network : Network) (message : OutboxMessage) :
    TxResult Unit × List KafkaRecord :=
  match kafka.topicFor message with
  | .error err => (.error err, [])
  | .ok topic =>
      match crates.payloadText message.payload with
      | .error err => (.error (.schema s!"serialize kafka payload failed: {err}"), [])
      | .ok payload =>
          let reply := producer.execute network {
            topic := topic
            key := message.id.asStr
            payload := payload }
          match reply.result with
          | .error err =>
              (.error (.providerUnavailable s!"kafka send failed: {err}"), reply.arrived)
          | .ok () => (.ok (), reply.arrived)

end KafkaTransport

/-- A fleet, and what has arrived. -/
structure Delivering (ι Delivery : Type) where
  fleet : FleetState ι
  arrived : List Delivery

/-- What may happen next. -/
inductive DeliveringAction (ι Network : Type)
  /-- A dispatcher whose next call is a send makes it over the transport. -/
  | send (i : ι) (network : Network)
  /-- Whatever else a fleet does. -/
  | other (action : FleetAction ι)

/-- The message that a program is about to send. -/
def aboutToSend {α : Type} : Program DispatchOp DispatchOp.Answer α → Option OutboxMessage
  | .call (.send message) _ => some message
  | _ => none

/-- Whether an action is a send. -/
def FleetAction.isSend {ι : Type} (state : FleetState ι) : FleetAction ι → Bool
  | .call i _ => (aboutToSend (state.threads i)).isSome
  | _ => false

namespace Fleet

variable {ι Network Delivery : Type} [DecidableEq ι]

/-- The step function of a fleet over a transport. -/
def deliver (fleet : Fleet ι) (transport : Transport Network Delivery)
    (state : Delivering ι Delivery) :
    DeliveringAction ι Network → Option (Delivering ι Delivery)
  | .send i network =>
      (aboutToSend (state.fleet.threads i)).bind fun message =>
        let outcome := transport.send network message
        (fleet.next state.fleet (.call i (.outcome outcome.1))).map fun after =>
          { fleet := after, arrived := outcome.2 ++ state.arrived }
  | .other action =>
      if action.isSend state.fleet then none
      else (fleet.next state.fleet action).map fun after => { state with fleet := after }

/-- The fleet over a transport as a transition system. Nothing has arrived at first. -/
def overTransport (fleet : Fleet ι) (transport : Transport Network Delivery) :
    TransitionSystem (Delivering ι Delivery) (DeliveringAction ι Network) :=
  .ofNext { fleet := start, arrived := [] } (fleet.deliver transport)

end Fleet

/-- What a transport has to do with the request of a message: what carries it, and when it is
delivered whole. -/
structure Meaning (Delivery : Type) where
  carries : OutboxMessage → Delivery → Prop
  accepted : OutboxMessage → List Delivery → Prop

/-- What is asked of a single send, and of what it means. -/
structure Transport.Honest {Network Delivery : Type} (transport : Transport Network Delivery)
    (meaning : Meaning Delivery) (most : Nat) : Prop where
  /-- What arrives carries the request of the message. -/
  carries : ∀ network message delivery, delivery ∈ (transport.send network message).2 →
    meaning.carries message delivery
  /-- `Ok` is returned only where the message was delivered whole. -/
  accepts : ∀ network message, (transport.send network message).1 = .ok () →
    meaning.accepted message (transport.send network message).2
  bounded : ∀ network message, (transport.send network message).2.length ≤ most
  carries_same : ∀ (message other : OutboxMessage) (delivery : Delivery),
    message.SameRequest other → meaning.carries other delivery → meaning.carries message delivery
  accepted_same : ∀ (message other : OutboxMessage) (deliveries : List Delivery),
    message.SameRequest other → meaning.accepted other deliveries →
      meaning.accepted message deliveries
  accepted_mono : ∀ (message : OutboxMessage) (deliveries more : List Delivery),
    deliveries ⊆ more → meaning.accepted message deliveries → meaning.accepted message more

/-- What is asked of a send of a message, of its outcome alone. -/
structure Meaning.Sent {Delivery : Type} (meaning : Meaning Delivery) (most : Nat)
    (message : OutboxMessage) (outcome : TxResult Unit × List Delivery) : Prop where
  carries : ∀ delivery ∈ outcome.2, meaning.carries message delivery
  accepts : outcome.1 = .ok () → meaning.accepted message outcome.2
  bounded : outcome.2.length ≤ most

/-- A send that fails before anything arrives does nothing wrong. -/
theorem Meaning.sent_error {Delivery : Type} {meaning : Meaning Delivery} {most : Nat}
    {message : OutboxMessage} {err : TxError} : meaning.Sent most message (.error err, []) where
  carries _ := nofun
  accepts := nofun
  bounded := Nat.zero_le _

/-- The sends of a record. -/
def OutboxEvent.sendsOf (log : List OutboxEvent) : List OutboxEvent :=
  log.filter fun
    | .sent .. => true
    | .leased .. | .renewed .. => false

/-- What a transport delivers for a fleet, in every reachable state. -/
structure Delivers {ι Network Delivery : Type} [DecidableEq ι] (fleet : Fleet ι)
    (transport : Transport Network Delivery) (meaning : Meaning Delivery) (most : Nat) :
    Prop where
  /-- What is done has been delivered whole. -/
  done : ∀ state key message, (fleet.overTransport transport).Reachable state →
    state.fleet.shared.store.find key = some message → message.status = .done →
      meaning.accepted message state.arrived
  /-- Nothing arrives but the requests of stored messages. -/
  arrived : ∀ state delivery, (fleet.overTransport transport).Reachable state →
    delivery ∈ state.arrived → ∃ key message, state.fleet.shared.store.find key = some message ∧
      meaning.carries message delivery
  bounded : ∀ state, (fleet.overTransport transport).Reachable state →
    state.arrived.length ≤ most * (sendsOf state.fleet.shared.log).length

section Honest

variable {ι Network Delivery : Type} [DecidableEq ι] {fleet : Fleet ι}
variable {transport : Transport Network Delivery} {meaning : Meaning Delivery} {most : Nat}

theorem mem_sendsOf {log : List OutboxEvent} {worker : String} {key : MessageKey} {ok : Bool} :
    .sent worker key ok ∈ sendsOf log ↔ .sent worker key ok ∈ log := by
  simp [sendsOf]

/-- Leases are not sends. -/
theorem sendsOf_leaseEvents (worker : String) (leaseUntil : Int64) (leased : List OutboxMessage)
    (log : List OutboxEvent) :
    sendsOf (OutboxWorld.leaseEvents worker leaseUntil leased ++ log) = sendsOf log := by
  have hnone : sendsOf (OutboxWorld.leaseEvents worker leaseUntil leased) = [] := by
    simp [sendsOf, OutboxWorld.leaseEvents]
  rw [sendsOf, List.filter_append]
  exact (congrArg (· ++ sendsOf log) hnone).trans (List.nil_append _)

/-- Only a send is recorded as one. -/
theorem sendsOf_effect {worker : String} {world after : OutboxWorld} {op : DispatchOp}
    {answer : op.Answer} (h : OutboxWorld.Effect worker world op answer after)
    (hop : ∀ message, op ≠ .send message) : sendsOf after.log = sendsOf world.log := by
  cases h with
  | lease _ => exact sendsOf_leaseEvents _ _ _ _
  | send => exact absurd rfl (hop _)
  | settle _ _ | missing _ _ | bystander _ => rfl

theorem aboutToSend_call {α : Type} {op : DispatchOp}
    {resume : op.Answer → Program DispatchOp DispatchOp.Answer α}
    (h : aboutToSend (.call op resume) = none) (message : OutboxMessage) :
    op ≠ .send message := by
  rintro rfl
  cases h

/-- What is not a send leaves the sends alone. -/
theorem sendsOf_next {state after : FleetState ι} {action : FleetAction ι}
    (hsend : action.isSend state = false) (hnext : fleet.next state action = some after) :
    sendsOf after.shared.log = sendsOf state.shared.log := by
  cases action with
  | tick i tenant nowMs =>
      obtain ⟨_, rfl⟩ := Pool.spawn_eq_some_iff.mp hnext
      rfl
  | call i choice =>
      obtain ⟨op, resume, answer, world, hthread, hanswer, rfl⟩ :=
        Pool.call_eq_some_iff.mp hnext
      have hnone : aboutToSend (state.threads i) = none := by
        simpa [FleetAction.isSend] using hsend
      rw [hthread] at hnone
      exact sendsOf_effect (OutboxWorld.effect_of_answer hanswer) (aboutToSend_call hnone)
  | enqueue message createdAt notBefore =>
      cases hnext
      rcases state.shared.enqueue_cases message createdAt notBefore with heq | ⟨_, heq⟩ <;>
        simp only [heq]
  | heartbeat i tenant id leaseUntil =>
      cases hnext
      rcases state.shared.heartbeat_cases (fleet.workerId i) tenant id leaseUntil with
        heq | ⟨_, _, _, heq⟩
      · simp only [heq]
      · simp only [heq]
        rfl
  | revive tenant id time =>
      cases hnext
      rcases state.shared.revive_cases tenant id time with heq | ⟨_, _, heq⟩ <;> simp only [heq]

/-- A send is one step of the fleet, which records it. -/
theorem shared_of_send {state after : FleetState ι} {i : ι} {message : OutboxMessage}
    {result : TxResult Unit} (hsend : aboutToSend (state.threads i) = some message)
    (hnext : fleet.next state (.call i (.outcome result)) = some after) :
    (∃ resume, state.threads i = .call (.send message) resume) ∧
      after.shared = { state.shared with
        log := .sent (fleet.workerId i) message.key result.isOk :: state.shared.log } := by
  obtain ⟨op, resume, answer, world, hthread, hanswer, rfl⟩ := Pool.call_eq_some_iff.mp hnext
  rw [hthread] at hsend
  cases op with
  | send sent =>
      cases hsend
      cases hanswer
      exact ⟨⟨resume, hthread⟩, rfl⟩
  | leaseBatch | onDispatchAttempt | ackDone | onDispatchResult | deadLetter | push | nextAfter
  | nackBackoff => cases hsend

/-- The fleet is a fleet: over a transport it does nothing that it does not do over any. -/
theorem simulation_over (fleet : Fleet ι) (transport : Transport Network Delivery) :
    Simulation (fleet.overTransport transport) fleet.system fun state inner =>
      state.fleet = inner where
  init := by
    rintro _ rfl
    exact ⟨_, rfl, rfl⟩
  step := by
    rintro state _ action after rfl hstep
    cases action with
    | send i network =>
        obtain ⟨message, _, hnext⟩ := Option.bind_eq_some_iff.mp hstep
        obtain ⟨inner, hinner, rfl⟩ := Option.map_eq_some_iff.mp hnext
        exact ⟨_, inner, hinner, rfl⟩
    | other action =>
        change (if action.isSend state.fleet then none else _) = some after at hstep
        split at hstep
        case isTrue => cases hstep
        case isFalse =>
          obtain ⟨inner, hinner, rfl⟩ := Option.map_eq_some_iff.mp hstep
          exact ⟨action, inner, hinner, rfl⟩

theorem reachable_fleet {state : Delivering ι Delivery}
    (h : (fleet.overTransport transport).Reachable state) : fleet.system.Reachable state.fleet := by
  obtain ⟨_, hreach, rfl⟩ := (simulation_over fleet transport).reachable h
  exact hreach

/-- What has arrived, and what the record says of it. -/
structure Arrivals (meaning : Meaning Delivery) (most : Nat) (state : Delivering ι Delivery) :
    Prop where
  accepted : ∀ worker key, .sent worker key true ∈ state.fleet.shared.log →
    ∃ message, state.fleet.shared.store.find key = some message ∧
      meaning.accepted message state.arrived
  carried : ∀ delivery ∈ state.arrived, ∃ key message,
    state.fleet.shared.store.find key = some message ∧ meaning.carries message delivery
  bounded : state.arrived.length ≤ most * (sendsOf state.fleet.shared.log).length

/-- No request that has arrived is lost, and nothing else is recorded of it. -/
theorem Arrivals.other (hhonest : transport.Honest meaning most)
    {state : Delivering ι Delivery} {after : FleetState ι} {action : FleetAction ι}
    (h : Arrivals meaning most state) (hsend : action.isSend state.fleet = false)
    (hnext : fleet.next state.fleet action = some after) :
    Arrivals meaning most { state with fleet := after } := by
  have hsends := sendsOf_next hsend hnext
  have hkeeps := keepsRequests_of_next hnext
  constructor
  case accepted =>
    intro worker key hmem
    have hold : .sent worker key true ∈ sendsOf state.fleet.shared.log :=
      hsends ▸ mem_sendsOf.mpr hmem
    obtain ⟨message, hfind, haccepted⟩ := h.accepted worker key (mem_sendsOf.mp hold)
    obtain ⟨kept, hkept, hsame⟩ := hkeeps key message hfind
    exact ⟨kept, hkept, hhonest.accepted_same _ _ _ hsame haccepted⟩
  case carried =>
    intro delivery hmem
    obtain ⟨key, message, hfind, hcarries⟩ := h.carried delivery hmem
    obtain ⟨kept, hkept, hsame⟩ := hkeeps key message hfind
    exact ⟨key, kept, hkept, hhonest.carries_same _ _ _ hsame hcarries⟩
  case bounded =>
    show state.arrived.length ≤ most * (sendsOf after.shared.log).length
    rw [hsends]
    exact h.bounded

omit [DecidableEq ι] in
/-- A send of the request of a stored message. -/
theorem Arrivals.send (hhonest : transport.Honest meaning most) {state : Delivering ι Delivery}
    {after : FleetState ι} {worker : String} {message stored : OutboxMessage} (network : Network)
    (h : Arrivals meaning most state)
    (hstored : state.fleet.shared.store.find message.key = some stored)
    (hsame : stored.SameRequest message)
    (hafter : after.shared = { state.fleet.shared with
      log := .sent worker message.key (transport.send network message).1.isOk ::
        state.fleet.shared.log }) :
    Arrivals meaning most
      { fleet := after, arrived := (transport.send network message).2 ++ state.arrived } := by
  have hgrown : state.arrived ⊆ (transport.send network message).2 ++ state.arrived :=
    List.subset_append_right _ _
  constructor
  case accepted =>
    intro other key hmem
    rw [hafter] at hmem ⊢
    rcases List.mem_cons.mp hmem with hnow | hold
    · -- The send itself: it returned `Ok`.
      obtain ⟨-, rfl, hok⟩ := OutboxEvent.sent.inj hnow
      have hresult : (transport.send network message).1 = .ok () := by
        cases hsent : (transport.send network message).1 with
        | ok _ => rfl
        | error _ =>
            rw [hsent] at hok
            cases hok
      exact ⟨stored, hstored, hhonest.accepted_same _ _ _ hsame
        (hhonest.accepted_mono _ _ _ (List.subset_append_left _ _)
          (hhonest.accepts network message hresult))⟩
    · obtain ⟨earlier, hfind, haccepted⟩ := h.accepted other key hold
      exact ⟨earlier, hfind, hhonest.accepted_mono _ _ _ hgrown haccepted⟩
  case carried =>
    intro delivery hmem
    rw [hafter]
    rcases List.mem_append.mp hmem with hnow | hold
    · exact ⟨message.key, stored, hstored,
        hhonest.carries_same _ _ _ hsame (hhonest.carries network message delivery hnow)⟩
    · exact h.carried delivery hold
  case bounded =>
    have hcount : (sendsOf after.shared.log).length =
        (sendsOf state.fleet.shared.log).length + 1 := by
      rw [hafter]
      rfl
    have hmost := hhonest.bounded network message
    have hbefore := h.bounded
    rw [hcount, List.length_append, Nat.mul_add]
    omega

/-- One step of a fleet over an honest transport. -/
theorem Arrivals.step (hhonest : transport.Honest meaning most)
    {state after : Delivering ι Delivery} {action : DeliveringAction ι Network}
    (hreach : (fleet.overTransport transport).Reachable state) (h : Arrivals meaning most state)
    (hstep : fleet.deliver transport state action = some after) :
    Arrivals meaning most after := by
  cases action with
  | send i network =>
      obtain ⟨message, hsend, hnext⟩ := Option.bind_eq_some_iff.mp hstep
      obtain ⟨inner, hinner, rfl⟩ := Option.map_eq_some_iff.mp hnext
      obtain ⟨⟨resume, hthread⟩, hshared⟩ := shared_of_send hsend hinner
      obtain ⟨errands, hreports, hreported⟩ := reported_of_reachable (reachable_fleet hreach)
      have hfollows := hreports i
      rw [hthread] at hfollows
      obtain ⟨⟨stored, hstored, hsame⟩, _⟩ := hreported.batch i message hfollows.1
      exact h.send hhonest network hstored hsame hshared
  | other action =>
      change (if action.isSend state.fleet then none else _) = some after at hstep
      split at hstep
      case isTrue => cases hstep
      case isFalse hsend =>
        obtain ⟨inner, hinner, rfl⟩ := Option.map_eq_some_iff.mp hstep
        exact h.other hhonest (Bool.eq_false_iff.mpr hsend) hinner

theorem arrivals_of_reachable (hhonest : transport.Honest meaning most)
    {state : Delivering ι Delivery} (h : (fleet.overTransport transport).Reachable state) :
    Arrivals meaning most state := by
  refine TransitionSystem.invariant (Arrivals meaning most) ?_ ?_ h
  · rintro _ rfl
    constructor
    case accepted => simp [Fleet.start, OutboxWorld.empty]
    case carried => simp
    case bounded => exact Nat.zero_le _
  · intro source action target hreach harrivals hstep
    exact harrivals.step hhonest hreach hstep

/-- Over an honest transport a fleet delivers. -/
theorem delivers_of_honest (fleet : Fleet ι) (hhonest : transport.Honest meaning most) :
    Delivers fleet transport meaning most := by
  constructor
  case done =>
    intro state key message hreach hfind hdone
    obtain ⟨_, _, hreported⟩ := reported_of_reachable (reachable_fleet hreach)
    obtain ⟨i, hsent⟩ := hreported.done key message hfind hdone
    obtain ⟨stored, hstored, haccepted⟩ :=
      (arrivals_of_reachable hhonest hreach).accepted _ key hsent
    cases hstored.symm.trans hfind
    exact haccepted
  case arrived =>
    intro state delivery hreach hmem
    exact (arrivals_of_reachable hhonest hreach).carried delivery hmem
  case bounded =>
    intro state hreach
    exact (arrivals_of_reachable hhonest hreach).bounded

end Honest

/-! ## The three transports -/

namespace RedisTransport

variable {Network : Type} {client : Client Network RedisCommand Unit} {most : Nat}

/-- A command carries a message if its body is an envelope of it, after some number of attempts.
The message is delivered whole by one body at the end of the list and on the channel. -/
def meaning (crates : TransportCrates) (redis : RedisTransport) : Meaning RedisCommand where
  carries message command := ∃ attempts body,
    crates.envelopeText (envelope message attempts) = .ok body ∧
      (command = .rpush redis.listKey body ∨
        ∃ channel, redis.channel = some channel ∧ command = .publish channel body)
  accepted message commands := ∃ attempts body,
    crates.envelopeText (envelope message attempts) = .ok body ∧
      .rpush redis.listKey body ∈ commands ∧
        ∀ channel, redis.channel = some channel → .publish channel body ∈ commands

/-- The transport. -/
def transport (crates : TransportCrates) (client : Client Network RedisCommand Unit)
    (redis : RedisTransport) : Transport (RedisNetwork Network) RedisCommand where
  send := redis.send crates client

theorem envelope_congr {message other : OutboxMessage} (h : message.SameRequest other)
    (attempts : UInt32) : envelope message attempts = envelope other attempts := by
  unfold envelope
  rw [h.id, h.tenant, h.topic, h.payload]

/-- What arrives of one body: what the client makes of one command, or of two. -/
theorem push_cases (client : Client Network RedisCommand Unit) (redis : RedisTransport)
    (network : RedisNetwork Network) (body : String) :
    let pushed := client.execute network.rpush (.rpush redis.listKey body)
    ((redis.push client network body).2 = pushed.arrived ∧
        ((redis.push client network body).1 = .ok () →
          pushed.result = .ok () ∧ redis.channel = none)) ∨
      ∃ channel, redis.channel = some channel ∧ pushed.result = .ok () ∧
        let published := client.execute network.publish (.publish channel body)
        (redis.push client network body).2 = pushed.arrived ++ published.arrived ∧
          ((redis.push client network body).1 = .ok () → published.result = .ok ()) := by
  intro pushed
  unfold push
  dsimp only
  split
  case h_1 => exact .inl ⟨rfl, nofun⟩
  case h_2 hpushed =>
    split
    case h_1 hchannel => exact .inl ⟨rfl, fun _ => ⟨hpushed, hchannel⟩⟩
    case h_2 channel hchannel =>
      refine .inr ⟨channel, hchannel, hpushed, ?_⟩
      split
      case h_1 => exact ⟨rfl, nofun⟩
      case h_2 hpublished => exact ⟨rfl, fun _ => hpublished⟩

theorem mem_push (hclient : client.Promises Eq most) {redis : RedisTransport}
    {network : RedisNetwork Network} {body : String} {command : RedisCommand}
    (h : command ∈ (redis.push client network body).2) :
    command = .rpush redis.listKey body ∨
      ∃ channel, redis.channel = some channel ∧ command = .publish channel body := by
  rcases push_cases client redis network body with
    ⟨harrived, _⟩ | ⟨channel, hchannel, _, harrived, _⟩
  · rw [harrived] at h
    exact .inl (hclient.sendsOn _ _ _ h).symm
  · rw [harrived] at h
    rcases List.mem_append.mp h with hpushed | hpublished
    · exact .inl (hclient.sendsOn _ _ _ hpushed).symm
    · exact .inr ⟨channel, hchannel, (hclient.sendsOn _ _ _ hpublished).symm⟩

theorem push_ok (hclient : client.Promises Eq most) {redis : RedisTransport}
    {network : RedisNetwork Network} {body : String}
    (h : (redis.push client network body).1 = .ok ()) :
    .rpush redis.listKey body ∈ (redis.push client network body).2 ∧
      ∀ channel, redis.channel = some channel →
        .publish channel body ∈ (redis.push client network body).2 := by
  rcases push_cases client redis network body with
    ⟨harrived, hok⟩ | ⟨channel, hchannel, hpushed, harrived, hok⟩
  · obtain ⟨hpushed, hnone⟩ := hok h
    rw [harrived, hnone]
    exact ⟨hclient.answered _ _ _ hpushed, nofun⟩
  · rw [harrived]
    refine ⟨List.mem_append_left _ (hclient.answered _ _ _ hpushed), ?_⟩
    intro channel' hchannel'
    cases hchannel.symm.trans hchannel'
    exact List.mem_append_right _ (hclient.answered _ _ _ (hok h))

theorem length_push_le (hclient : client.Promises Eq most) (redis : RedisTransport)
    (network : RedisNetwork Network) (body : String) :
    (redis.push client network body).2.length ≤ 2 * most := by
  have hpushed := hclient.bounded network.rpush (.rpush redis.listKey body)
  rcases push_cases client redis network body with
    ⟨harrived, _⟩ | ⟨channel, _, _, harrived, _⟩
  · rw [harrived]
    omega
  · have hpublished := hclient.bounded network.publish (.publish channel body)
    rw [harrived, List.length_append]
    omega

/-- A send fails before anything arrives, or pushes the envelope of its message. -/
theorem send_cases (crates : TransportCrates) (client : Client Network RedisCommand Unit)
    (redis : RedisTransport) (network : RedisNetwork Network) (message : OutboxMessage) :
    (∃ err, (redis.transport crates client).send network message = (.error err, [])) ∨
      ∃ body, crates.envelopeText (envelope message (message.attempts + 1)) = .ok body ∧
        (redis.transport crates client).send network message =
          redis.push client network body := by
  dsimp only [transport]
  unfold send
  cases htext : crates.envelopeText (envelope message (message.attempts + 1)) with
  | error err => exact .inl ⟨_, rfl⟩
  | ok body =>
      cases network.connection with
      | ok _ => exact .inr ⟨body, rfl, rfl⟩
      | error err => cases err <;> exact .inl ⟨_, rfl⟩

theorem sent_send (crates : TransportCrates) (redis : RedisTransport)
    (hclient : client.Promises Eq most) (network : RedisNetwork Network)
    (message : OutboxMessage) :
    (redis.meaning crates).Sent (2 * most) message
      ((redis.transport crates client).send network message) := by
  rcases send_cases crates client redis network message with ⟨err, hsend⟩ | ⟨body, htext, hsend⟩
  · rw [hsend]
    exact Meaning.sent_error
  · rw [hsend]
    constructor
    case carries => exact fun command hmem => ⟨_, body, htext, mem_push hclient hmem⟩
    case accepts => exact fun hok => ⟨_, body, htext, push_ok hclient hok⟩
    case bounded => exact length_push_le hclient redis network body

theorem honest (crates : TransportCrates) (redis : RedisTransport)
    (hclient : client.Promises Eq most) :
    (redis.transport crates client).Honest (redis.meaning crates) (2 * most) where
  carries network message := (sent_send crates redis hclient network message).carries
  accepts network message := (sent_send crates redis hclient network message).accepts
  bounded network message := (sent_send crates redis hclient network message).bounded
  carries_same := by
    rintro message other command hsame ⟨attempts, body, htext, hcommand⟩
    rw [← envelope_congr hsame] at htext
    exact ⟨attempts, body, htext, hcommand⟩
  accepted_same := by
    rintro message other commands hsame ⟨attempts, body, htext, harrived⟩
    rw [← envelope_congr hsame] at htext
    exact ⟨attempts, body, htext, harrived⟩
  accepted_mono := by
    rintro message commands more hmore ⟨attempts, body, htext, hpushed, hpublished⟩
    exact ⟨attempts, body, htext, hmore hpushed,
      fun channel hchannel => hmore (hpublished channel hchannel)⟩

end RedisTransport

/-- A message is delivered whole by a request of its own, and carried by what that is sent on as. -/
def Meaning.ofRequests {Delivery : Type} (isRequest : OutboxMessage → Delivery → Prop)
    (sendsOn : Delivery → Delivery → Prop) : Meaning Delivery where
  carries message delivery := ∃ request, isRequest message request ∧ sendsOn request delivery
  accepted message deliveries := ∃ request ∈ deliveries, isRequest message request

section Requests

variable {Network Delivery Response : Type} {transport : Transport Network Delivery}
variable {client : Client Network Delivery Response}
variable {isRequest : OutboxMessage → Delivery → Prop} {sendsOn : Delivery → Delivery → Prop}
variable {most : Nat} {network : Network} {message : OutboxMessage}

/-- A send hands one request of its message to the client, and returns `Ok` only if it was
answered. Or it fails before that. -/
def Transport.HandsOver (transport : Transport Network Delivery)
    (client : Client Network Delivery Response) (isRequest : OutboxMessage → Delivery → Prop)
    (network : Network) (message : OutboxMessage) : Prop :=
  (∃ err, transport.send network message = (.error err, [])) ∨
    ∃ request, isRequest message request ∧
      (transport.send network message).2 = (client.execute network request).arrived ∧
        ((transport.send network message).1 = .ok () →
          ∃ response, (client.execute network request).result = .ok response)

theorem Transport.HandsOver.sent (hclient : client.Promises sendsOn most)
    (h : transport.HandsOver client isRequest network message) :
    (Meaning.ofRequests isRequest sendsOn).Sent most message (transport.send network message) := by
  rcases h with ⟨err, hnone⟩ | ⟨request, hrequest, harrived, hanswered⟩
  · rw [hnone]
    exact Meaning.sent_error
  · constructor
    case carries =>
      intro delivery hmem
      rw [harrived] at hmem
      exact ⟨request, hrequest, hclient.sendsOn _ _ _ hmem⟩
    case accepts =>
      intro hok
      obtain ⟨response, hresponse⟩ := hanswered hok
      rw [harrived]
      exact ⟨request, hclient.answered _ _ _ hresponse, hrequest⟩
    case bounded =>
      rw [harrived]
      exact hclient.bounded network request

theorem Transport.Honest.ofClient (hclient : client.Promises sendsOn most)
    (hsame : ∀ (message other : OutboxMessage) (delivery : Delivery),
      message.SameRequest other → isRequest other delivery → isRequest message delivery)
    (hsend : ∀ network message, transport.HandsOver client isRequest network message) :
    transport.Honest (.ofRequests isRequest sendsOn) most where
  carries network message := ((hsend network message).sent hclient).carries
  accepts network message := ((hsend network message).sent hclient).accepts
  bounded network message := ((hsend network message).sent hclient).bounded
  carries_same := by
    rintro message other delivery hother ⟨request, hrequest, hon⟩
    exact ⟨request, hsame _ _ _ hother hrequest, hon⟩
  accepted_same := by
    rintro message other deliveries hother ⟨request, hmem, hrequest⟩
    exact ⟨request, hmem, hsame _ _ _ hother hrequest⟩
  accepted_mono := by
    rintro message deliveries more hmore ⟨request, hmem, hrequest⟩
    exact ⟨request, hmore hmem, hrequest⟩

end Requests

namespace HttpTransport

variable {Network : Type} {client : Client Network HttpRequest HttpStatus} {most : Nat}

/-- The request brings the payload of the message to its topic. -/
def IsRequest (http : HttpTransport) (message : OutboxMessage) (request : HttpRequest) : Prop :=
  buildUrl message = .ok request.url ∧ request.method = http.method ∧
    request.headers = http.headers ∧ request.json = some message.payload

/-- The message is delivered by its request, wherever that is sent on to. -/
def meaning (http : HttpTransport) : Meaning HttpRequest :=
  .ofRequests http.IsRequest HttpRequest.SentOn

/-- The transport. -/
def transport (client : Client Network HttpRequest HttpStatus) (http : HttpTransport) :
    Transport Network HttpRequest where
  send := http.send client

theorem honest (http : HttpTransport) (hclient : client.Promises HttpRequest.SentOn most) :
    (http.transport client).Honest http.meaning most := by
  apply Transport.Honest.ofClient hclient
  · rintro message other request hsame ⟨hurl, hmethod, hheaders, hjson⟩
    have htopic : buildUrl message = buildUrl other := by
      unfold buildUrl
      rw [hsame.topic]
    rw [← hsame.payload] at hjson
    exact ⟨htopic.trans hurl, hmethod, hheaders, hjson⟩
  · intro network message
    dsimp only [Transport.HandsOver, transport]
    unfold send
    cases hurl : buildUrl message with
    | error err => exact .inl ⟨err, rfl⟩
    | ok url =>
        refine .inr ⟨{
          method := http.method
          url := url
          headers := http.headers
          json := some message.payload }, ⟨hurl, rfl, rfl, rfl⟩, ?_⟩
        dsimp only
        split
        case h_1 => exact ⟨rfl, nofun⟩
        case h_2 status hresult => split <;> exact ⟨rfl, fun _ => ⟨status, hresult⟩⟩

end HttpTransport

namespace KafkaTransport

variable {Network : Type} {producer : Client Network KafkaRecord Unit} {most : Nat}

/-- The record holds the payload of the message under its id. -/
def IsRecord (crates : TransportCrates) (kafka : KafkaTransport) (message : OutboxMessage)
    (record : KafkaRecord) : Prop :=
  kafka.topicFor message = .ok record.topic ∧ record.key = message.id.asStr ∧
    crates.payloadText message.payload = .ok record.payload

/-- The message is delivered by its record. -/
def meaning (crates : TransportCrates) (kafka : KafkaTransport) : Meaning KafkaRecord :=
  .ofRequests (kafka.IsRecord crates) Eq

/-- The transport. -/
def transport (crates : TransportCrates) (producer : Client Network KafkaRecord Unit)
    (kafka : KafkaTransport) : Transport Network KafkaRecord where
  send := kafka.send crates producer

theorem honest (crates : TransportCrates) (kafka : KafkaTransport)
    (hproducer : producer.Promises Eq most) :
    (kafka.transport crates producer).Honest (kafka.meaning crates) most := by
  apply Transport.Honest.ofClient hproducer
  · rintro message other record hsame ⟨htopic, hkey, hpayload⟩
    have htopic' : kafka.topicFor message = kafka.topicFor other := by
      unfold topicFor
      rw [hsame.topic]
    rw [← hsame.payload] at hpayload
    exact ⟨htopic'.trans htopic, hkey.trans (congrArg Id.asStr hsame.id.symm), hpayload⟩
  · intro network message
    dsimp only [Transport.HandsOver, transport]
    unfold send
    cases htopic : kafka.topicFor message with
    | error err => exact .inl ⟨err, rfl⟩
    | ok topic =>
        cases hpayload : crates.payloadText message.payload with
        | error err => exact .inl ⟨_, rfl⟩
        | ok payload =>
            refine .inr ⟨{
              topic := topic
              key := message.id.asStr
              payload := payload }, ⟨htopic, rfl, hpayload⟩, ?_⟩
            dsimp only
            split
            case h_1 => exact ⟨rfl, nofun⟩
            case h_2 hresult => exact ⟨rfl, fun _ => ⟨(), hresult⟩⟩

end KafkaTransport

/-- A fleet delivers over each of the transports, whatever the networks do. -/
theorem transportsDeliver {ι N₁ N₂ N₃ : Type} [DecidableEq ι] (fleet : Fleet ι)
    (crates : TransportCrates) (redis : RedisTransport) (http : HttpTransport)
    (kafka : KafkaTransport) {commands : Client N₁ RedisCommand Unit}
    {requests : Client N₂ HttpRequest HttpStatus} {records : Client N₃ KafkaRecord Unit}
    {m₁ m₂ m₃ : Nat} (hcommands : commands.Promises Eq m₁)
    (hrequests : requests.Promises HttpRequest.SentOn m₂) (hrecords : records.Promises Eq m₃) :
    Delivers fleet (redis.transport crates commands) (redis.meaning crates) (2 * m₁) ∧
      Delivers fleet (http.transport requests) http.meaning m₂ ∧
        Delivers fleet (kafka.transport crates records) (kafka.meaning crates) m₃ :=
  ⟨delivers_of_honest fleet (redis.honest crates hcommands),
    delivers_of_honest fleet (http.honest hrequests),
    delivers_of_honest fleet (kafka.honest crates hrecords)⟩

namespace TwoWorkers

/-- A client that sends a request up to twice more while it is not answered. -/
def repeating (Request Response : Type) :
    Client (Fin 3 × Except String Response) Request Response where
  execute network request := {
    result := network.2
    arrived := List.replicate (network.1 + 1) request }

theorem promises_repeating {Request Response : Type} {sendsOn : Request → Request → Prop}
    (hrefl : ∀ request, sendsOn request request) :
    (repeating Request Response).Promises sendsOn 3 where
  answered network request _ _ := List.mem_replicate.mpr ⟨Nat.succ_ne_zero _, rfl⟩
  sendsOn network request other hmem := (List.mem_replicate.mp hmem).2 ▸ hrefl other
  bounded network request := by
    rw [repeating, List.length_replicate]
    exact network.1.isLt

/-- Texts for the witness: any will do. -/
def texts : TransportCrates where
  envelopeText envelope := .ok envelope.topic
  payloadText _ := .ok "null"

/-- Two dispatchers over transports whose clients repeat what is not answered. -/
theorem transportsDeliver_repeating :
    Delivers fleet
        (RedisTransport.transport texts (repeating RedisCommand Unit)
          { listKey := "sb:tx:outbox", channel := some "sb.tx.outbox" })
        (RedisTransport.meaning texts
          { listKey := "sb:tx:outbox", channel := some "sb.tx.outbox" }) 6 ∧
      Delivers fleet
          (HttpTransport.transport (repeating HttpRequest HttpStatus)
            { method := "POST", headers := [] })
          (HttpTransport.meaning { method := "POST", headers := [] }) 3 ∧
        Delivers fleet
          (KafkaTransport.transport texts (repeating KafkaRecord Unit) { topicOverride := none })
          (KafkaTransport.meaning texts { topicOverride := none }) 3 :=
  transportsDeliver fleet texts { listKey := "sb:tx:outbox", channel := some "sb.tx.outbox" }
    { method := "POST", headers := [] } { topicOverride := none }
    (promises_repeating fun _ => rfl) (promises_repeating fun _ => .inl ⟨rfl, rfl⟩)
    (promises_repeating fun _ => rfl)

end TwoWorkers

end Soulbase.Tx
