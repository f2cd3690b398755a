/-
# The dispatcher

One tick of a dispatcher leases a batch and works through it: ask the budget
guard, send, and then acknowledge the message, put it back with a delay or give
it up as a dead letter. The first error of any store or hook ends the tick and
leaves the rest of the batch as it is.

The tick is a program over the operations it calls, `DispatchOp`. What the
operations do is left open here. `OutboxWorld.answer` is the reading over the
in-memory outbox store, with a record of what was leased and sent.
-/

import Soulbase.Foundation.Program
import Soulbase.Tx.Memory.OutboxStore

namespace Soulbase.Tx

open Soulbase.Foundation

/-- A call that a tick makes: to the outbox store, the budget guard, the
transport, the dead store or the backoff policy. -/
inductive DispatchOp
  | leaseBatch (tenant : TenantId) (nowMs leaseMs : Int64) (batch : Nat)
      (workerId : String) (groupByKey : Bool)
  | onDispatchAttempt (tenant : TenantId) (message : OutboxMessage)
  | send (message : OutboxMessage)
  | ackDone (tenant : TenantId) (id : Id)
  | onDispatchResult (tenant : TenantId) (message : OutboxMessage) (success : Bool)
  | deadLetter (tenant : TenantId) (id : Id) (error : Option String)
  | push (letter : DeadLetter)
  | nextAfter (nowMs : Int64) (attempts : UInt32)
  | nackBackoff (tenant : TenantId) (id : Id) (notBefore : Int64) (error : Option String)

namespace DispatchOp

/-- What a call returns. -/
@[reducible]
def Answer : DispatchOp → Type
  | leaseBatch .. => TxResult (List OutboxMessage)
  | deadLetter .. => TxResult DeadLetter
  | nextAfter .. => Int64
  | onDispatchAttempt .. | send .. | ackDone .. | onDispatchResult .. | push ..
  | nackBackoff .. => TxResult Unit

/-- The message whose processing a call ends. -/
def settles : DispatchOp → Option MessageKey
  | ackDone tenant id | deadLetter tenant id _ | nackBackoff tenant id _ _ =>
      some (messageKey tenant id)
  | leaseBatch .. | onDispatchAttempt .. | send .. | onDispatchResult .. | push ..
  | nextAfter .. => none

/-- The message that a call sends or whose processing it ends. -/
def handles : DispatchOp → Option MessageKey
  | send message => some message.key
  | op => op.settles

/-- The time given to `lease_batch`. -/
def leasesAt : DispatchOp → Option Int64
  | leaseBatch _ nowMs _ _ _ _ => some nowMs
  | onDispatchAttempt .. | send .. | ackDone .. | onDispatchResult .. | deadLetter ..
  | push .. | nextAfter .. | nackBackoff .. => none

/-- What a call that ends the processing of a message makes of it. -/
def rewrite : DispatchOp → OutboxMessage → OutboxMessage
  | ackDone .. => InMemoryOutboxStore.acked
  | deadLetter _ _ error => InMemoryOutboxStore.deadened error
  | nackBackoff _ _ notBefore error => InMemoryOutboxStore.nacked notBefore error
  | leaseBatch .. | onDispatchAttempt .. | send .. | onDispatchResult .. | push ..
  | nextAfter .. => id

/-- A call that neither leases, sends nor ends the processing of a message. -/
def isBystander : DispatchOp → Bool
  | onDispatchAttempt .. | onDispatchResult .. | push .. | nextAfter .. => true
  | leaseBatch .. | send .. | ackDone .. | deadLetter .. | nackBackoff .. => false

@[simp]
theorem key_rewrite (op : DispatchOp) (message : OutboxMessage) :
    (op.rewrite message).key = message.key := by
  cases op <;> rfl

theorem handles_of_settles {op : DispatchOp} {key : MessageKey}
    (hop : op.settles = some key) : op.handles = some key := by
  cases op <;> first | exact hop | cases hop

/-- Ending the processing of a message frees it. -/
theorem worker_rewrite {op : DispatchOp} {key : MessageKey} (hop : op.settles = some key)
    (message : OutboxMessage) : (op.rewrite message).worker = none := by
  cases op <;> first | rfl | cases hop

end DispatchOp

/-- A computation that calls these operations and stops at the first error. -/
abbrev Dispatch := ExceptT TxError (Program DispatchOp DispatchOp.Answer)

/-- Call an operation and return its answer, which may be an error. -/
def call (op : DispatchOp) : Program DispatchOp DispatchOp.Answer op.Answer := perform op

/-- End the tick if the call returns an error. -/
def attempt {α : Type} (program : Program DispatchOp DispatchOp.Answer (TxResult α)) :
    Dispatch α :=
  ExceptT.mk program

/-- `Dispatcher`. The transport, the stores and the hooks are the operations. -/
structure Dispatcher where
  workerId : String
  maxAttempts : UInt32
  leaseMs : Int64
  batch : Nat
  groupByDispatchKey : Bool
  /-- Whether a dead store is configured. -/
  deadStore : Bool

namespace Dispatcher

/-- The error branch of the loop of `Dispatcher::tick`. -/
def giveUpOrRetry (dispatcher : Dispatcher) (tenant : TenantId) (nowMs : Int64)
    (message : OutboxMessage) (error : TxError) : Dispatch Unit := do
  let attempts := message.attempts + 1
  if attempts ≥ dispatcher.maxAttempts then
    let letter ← attempt (call (.deadLetter tenant message.id (some error.toString)))
    if dispatcher.deadStore then
      attempt (call (.push letter))
    attempt (call (.onDispatchResult tenant message false))
  else
    let next ← ExceptT.lift (call (.nextAfter nowMs attempts))
    attempt (call (.nackBackoff tenant message.id next (some error.toString)))
    attempt (call (.onDispatchResult tenant message false))

/-- The body of the loop of `Dispatcher::tick`. -/
def dispatch (dispatcher : Dispatcher) (tenant : TenantId) (nowMs : Int64)
    (message : OutboxMessage) : Dispatch Unit := do
  attempt (call (.onDispatchAttempt tenant message))
  match ← (call (.send message) : Dispatch (TxResult Unit)) with
  | .ok () =>
      attempt (call (.ackDone tenant message.id))
      attempt (call (.onDispatchResult tenant message true))
  | .error error => dispatcher.giveUpOrRetry tenant nowMs message error

/-- `Dispatcher::tick`. -/
def tick (dispatcher : Dispatcher) (tenant : TenantId) (nowMs : Int64) :
    Dispatch Unit := do
  let messages ← attempt (call (.leaseBatch tenant nowMs dispatcher.leaseMs
    dispatcher.batch dispatcher.workerId dispatcher.groupByDispatchKey))
  messages.forM (dispatcher.dispatch tenant nowMs)

end Dispatcher

/-- What the environment decides about a call: the order in which the map of
messages is iterated, the outcome of a hook, a push or a send, a reading of a
clock, or such a reading with the outcomes of the two hooks of a dead letter. -/
inductive DispatchChoice
  | order (keys : List MessageKey)
  | outcome (result : TxResult Unit)
  | time (nowMs : Int64)
  | hooked (nowMs : Int64) (onDeadLetter onOutboxDeadLetter : TxResult Unit)
  | none

/-- What is recorded of a run, for statements about it. -/
inductive OutboxEvent
  /-- `lease_batch` gave the message to the worker. -/
  | leased (worker : String) (key : MessageKey) (leaseUntil : Int64)
  /-- `heartbeat` moved the end of the worker's lease. -/
  | renewed (worker : String) (key : MessageKey) (leaseUntil : Int64)
  /-- The worker called the transport, and whether that returned `Ok`. -/
  | sent (worker : String) (key : MessageKey) (delivered : Bool)
  deriving DecidableEq

/-- The store with the time last given to `lease_batch` and the record of the run,
newest event first. -/
structure OutboxWorld where
  store : InMemoryOutboxStore
  clock : Int64
  log : List OutboxEvent

namespace OutboxWorld

/-- Nothing has happened. -/
def empty : OutboxWorld where
  store := .empty
  clock := Int64.minValue
  log := []

/-- The record of a lease. -/
def leaseEvents (worker : String) (leaseUntil : Int64) (leased : List OutboxMessage) :
    List OutboxEvent :=
  leased.map fun message => .leased worker message.key leaseUntil

/-- The operations of a tick of one worker over the in-memory outbox store. The
dead store is outside of this world and answers as it likes. -/
def answer (worker : String) :
    Handler DispatchOp DispatchOp.Answer DispatchChoice OutboxWorld
  | world, .order order, .leaseBatch tenant nowMs leaseMs batch workerId groupByKey =>
      if world.store.messages.Enumerates order then
        let leased :=
          world.store.leaseBatch tenant nowMs leaseMs batch workerId groupByKey order
        some (.ok leased.1,
          { store := leased.2
            clock := nowMs
            log := leaseEvents workerId (nowMs + leaseMs) leased.1 ++ world.log })
      else none
  | world, .outcome result, .onDispatchAttempt _ _ => some (result, world)
  | world, .outcome result, .send message =>
      some (result, { world with log := .sent worker message.key result.isOk :: world.log })
  | world, .none, .ackDone tenant id =>
      let acked := world.store.ackDone tenant id
      some (acked.1, { world with store := acked.2 })
  | world, .outcome result, .onDispatchResult _ _ _ => some (result, world)
  | world, .time nowMs, .deadLetter tenant id error =>
      let deadened := world.store.deadLetter tenant id error nowMs
      some (deadened.1, { world with store := deadened.2 })
  | world, .outcome result, .push _ => some (result, world)
  | world, .time nowMs, .nextAfter _ _ => some (nowMs, world)
  | world, .none, .nackBackoff tenant id notBefore error =>
      let nacked := world.store.nackBackoff tenant id notBefore error
      some (nacked.1, { world with store := nacked.2 })
  | _, _, _ => none

/-- All that one call of one worker can do to the world, with its answer. -/
inductive Effect (worker : String) (world : OutboxWorld) :
    (op : DispatchOp) → op.Answer → OutboxWorld → Prop
  /-- A batch is leased. -/
  | lease {tenant : TenantId} {nowMs leaseMs : Int64} {batch : Nat} {workerId : String}
      {groupByKey : Bool} {leased : List OutboxMessage} {after : InMemoryOutboxStore} :
      world.store.Leases tenant nowMs workerId (nowMs + leaseMs) leased after →
        Effect worker world
          (.leaseBatch tenant nowMs leaseMs batch workerId groupByKey) (.ok leased)
          { store := after
            clock := nowMs
            log := leaseEvents workerId (nowMs + leaseMs) leased ++ world.log }
  /-- The transport is called. -/
  | send {message : OutboxMessage} {result : TxResult Unit} :
      Effect worker world (.send message) result
        { world with log := .sent worker message.key result.isOk :: world.log }
  /-- The processing of a message ends. -/
  | settle {op : DispatchOp} {answer : op.Answer} {key : MessageKey}
      {message : OutboxMessage} :
      op.settles = some key → world.store.find key = some message →
        Effect worker world op answer
          { world with store := world.store.insertRaw (op.rewrite message) }
  /-- The processing of a message that does not exist ends with an error. -/
  | missing {op : DispatchOp} {answer : op.Answer} {key : MessageKey} :
      op.settles = some key → world.store.find key = none →
        Effect worker world op answer world
  /-- A hook, the dead store or the backoff policy answers. -/
  | bystander {op : DispatchOp} {answer : op.Answer} :
      op.isBystander = true → Effect worker world op answer world

theorem effect_of_withMessage {worker : String} {world : OutboxWorld}
    {tenant : TenantId} {id : Id} {α : Type} {op : DispatchOp} {answer : op.Answer}
    {value : OutboxMessage → α} (hop : op.settles = some (messageKey tenant id)) :
    Effect worker world op answer
      { world with
        store := (world.store.withMessage tenant id fun message =>
          .ok (value message, op.rewrite message)).2 } := by
  cases hfind : world.store.find (messageKey tenant id) with
  | none =>
      rw [InMemoryOutboxStore.withMessage_of_missing hfind]
      exact .missing hop hfind
  | some message =>
      rw [InMemoryOutboxStore.withMessage_of_find hfind rfl]
      exact .settle hop hfind

/-- The operations have no other effects. -/
theorem effect_of_answer {worker : String} {world after : OutboxWorld}
    {choice : DispatchChoice} {op : DispatchOp} {reply : op.Answer}
    (h : answer worker world choice op = some (reply, after)) :
    Effect worker world op reply after := by
  cases op with
  | leaseBatch tenant nowMs leaseMs batch workerId groupByKey =>
      cases choice with
      | order order =>
          simp only [answer] at h
          split at h
          case isTrue hallowed =>
            cases h
            exact .lease
              (InMemoryOutboxStore.leases_leaseBatch _ _ _ _ _ _ _ hallowed)
          case isFalse => cases h
      | outcome _ | time _ | hooked _ _ _ | none => cases h
  | send message =>
      cases choice <;> cases h
      exact .send
  | ackDone tenant id =>
      cases choice <;> cases h
      exact effect_of_withMessage rfl
  | deadLetter tenant id error =>
      cases choice <;> cases h
      exact effect_of_withMessage rfl
  | nackBackoff tenant id notBefore error =>
      cases choice <;> cases h
      exact effect_of_withMessage rfl
  | onDispatchAttempt _ _ | onDispatchResult _ _ _ | push _ | nextAfter _ _ =>
      cases choice <;> cases h
      exact .bystander rfl

end OutboxWorld

end Soulbase.Tx
