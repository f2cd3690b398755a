/-
# The in-memory transaction store

The stores of one process behind one front, which adds a budget guard, hooks for
the ledger and the switch that may turn grouping off. The answers of the guard
and of the hooks are arguments here: they are outside code and may refuse.
-/

import Soulbase.Tx.Memory.DeadStore

namespace Soulbase.Tx

open Soulbase.Foundation

/-- `InMemoryTxStore`, as far as messages, sagas and letters go. -/
structure InMemoryTxStore where
  /-- The dead store, with the outbox and the saga store that it shares. -/
  dead : InMemoryDeadStore
  /-- `config.outbox.group_by_dispatch_key`. -/
  groupByDispatchKey : Bool

namespace InMemoryTxStore

/-- `InMemoryTxStore::with_config`. -/
def withConfig (groupByDispatchKey : Bool) : InMemoryTxStore where
  dead := .empty
  groupByDispatchKey := groupByDispatchKey

/-- The outbox. -/
def outbox (store : InMemoryTxStore) : InMemoryOutboxStore := store.dead.outbox

/-- The store with another outbox. -/
def withOutbox (store : InMemoryTxStore) (outbox : InMemoryOutboxStore) :
    InMemoryTxStore :=
  { store with dead := { store.dead with outbox := outbox } }

/-- `InMemoryTxStore::enqueue`. When the budget guard refuses, the message has
been stored already. -/
def enqueue (store : InMemoryTxStore) (message : NewOutboxMessage)
    (createdAt notBefore : Int64) (onEnqueue : TxResult Unit) :
    TxResult OutboxMessage × InMemoryTxStore :=
  match store.outbox.enqueue message createdAt notBefore with
  | (.error error, outbox) => (.error error, store.withOutbox outbox)
  | (.ok stored, outbox) => (onEnqueue.map fun _ => stored, store.withOutbox outbox)

/-- `InMemoryTxStore::lease_batch`. -/
def leaseBatch (store : InMemoryTxStore) (tenant : TenantId) (nowMs leaseMs : Int64)
    (batch : Nat) (workerId : String) (groupByKey : Bool) (order : List MessageKey) :
    List OutboxMessage × InMemoryTxStore :=
  let grouping := if store.groupByDispatchKey then groupByKey else false
  let leased := store.outbox.leaseBatch tenant nowMs leaseMs batch workerId grouping order
  (leased.1, store.withOutbox leased.2)

/-- `InMemoryTxStore::ack_done`. -/
def ackDone (store : InMemoryTxStore) (tenant : TenantId) (id : Id) :
    TxResult Unit × InMemoryTxStore :=
  let acked := store.outbox.ackDone tenant id
  (acked.1, store.withOutbox acked.2)

/-- `InMemoryTxStore::nack_backoff`. -/
def nackBackoff (store : InMemoryTxStore) (tenant : TenantId) (id : Id)
    (notBefore : Int64) (error : Option String) : TxResult Unit × InMemoryTxStore :=
  let nacked := store.outbox.nackBackoff tenant id notBefore error
  (nacked.1, store.withOutbox nacked.2)

/-- `InMemoryTxStore::dead_letter`. The outbox has given the message up before the
budget guard and the ledger are told, and either may then refuse. -/
def deadLetter (store : InMemoryTxStore) (tenant : TenantId) (id : Id)
    (error : Option String) (nowMs : Int64)
    (onDeadLetter onOutboxDeadLetter : TxResult Unit) :
    TxResult DeadLetter × InMemoryTxStore :=
  match store.outbox.deadLetter tenant id error nowMs with
  | (.error error, outbox) => (.error error, store.withOutbox outbox)
  | (.ok letter, outbox) =>
      match letter.payload with
      | .outbox _ =>
          let told : TxResult DeadLetter := do
            onDeadLetter
            onOutboxDeadLetter
            return letter
          (told, store.withOutbox outbox)
      | .saga _ => (.ok letter, store.withOutbox outbox)

section DeadLetter

variable {store : InMemoryTxStore} {tenant : TenantId} {id : Id} {error : Option String}
variable {nowMs : Int64} {onDeadLetter onOutboxDeadLetter : TxResult Unit}

theorem deadLetter_of_missing (h : store.outbox.find (messageKey tenant id) = none) :
    store.deadLetter tenant id error nowMs onDeadLetter onOutboxDeadLetter =
      (.error (.unknown "outbox message missing"), store) := by
  rw [deadLetter, InMemoryOutboxStore.deadLetter_of_missing h]
  rfl

/-- The outbox is changed in any case; only the hooks decide about the answer. -/
theorem deadLetter_of_find {message : OutboxMessage}
    (h : store.outbox.find (messageKey tenant id) = some message) :
    store.deadLetter tenant id error nowMs onDeadLetter onOutboxDeadLetter =
      (do
        onDeadLetter
        onOutboxDeadLetter
        return buildDeadLetter (InMemoryOutboxStore.deadened error message) error nowMs,
        store.withOutbox
          (store.outbox.insertRaw (InMemoryOutboxStore.deadened error message))) := by
  rw [deadLetter, InMemoryOutboxStore.deadLetter_of_find h]
  rfl

end DeadLetter

end InMemoryTxStore

end Soulbase.Tx
