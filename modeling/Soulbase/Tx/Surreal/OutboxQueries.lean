/-
# The SurrealDB outbox store, query by query

What a dispatcher asks of the store, as the queries that it is made of. `lease_batch` is one query
for the candidates and then one for each of them, and other processes may come in between. A query
that fails may have been carried out or not.
-/

import Soulbase.Foundation.Layers
import Soulbase.Tx.Dispatcher
import Soulbase.Tx.Surreal.OutboxStore

namespace Soulbase.Tx

open Soulbase.Foundation Soulbase.Storage

/-- The statements that change one row of `tx_outbox`. -/
inductive OutboxUpdate
  /-- `LEASE_UPDATE`. -/
  | lease (now leaseUntil : Int64) (worker : String)
  /-- `ACK_UPDATE`. -/
  | ack
  /-- `NACK_UPDATE`. -/
  | nack (notBefore : Int64) (error : Option String)
  /-- `DEAD_UPDATE`. -/
  | dead (error : Option String)
  /-- `HEARTBEAT_UPDATE`. -/
  | heartbeat (leaseUntil : Int64) (worker : String)
  /-- `REVIVE_UPDATE`. -/
  | revive (time : Int64)

namespace OutboxUpdate

/-- The condition of the statement. -/
def applies (update : OutboxUpdate) (tenant : TenantId) (row : OutboxRow) : Bool :=
  match update with
  | lease now _ worker => row.isCandidate tenant now worker
  | heartbeat _ worker => row.isOf tenant && row.worker = some worker
  | ack | nack _ _ | dead _ | revive _ => row.isOf tenant

/-- What the statement sets. -/
def rewrite : OutboxUpdate → OutboxRow → OutboxRow
  | lease _ leaseUntil worker, row => row.leased worker leaseUntil
  | ack, row => row.acked
  | nack notBefore error, row => row.nacked notBefore error
  | dead error, row => row.deadened error
  | heartbeat leaseUntil _, row => row.renewed leaseUntil
  | revive time, row => row.revived time

end OutboxUpdate

/-- What the process of a dispatcher calls. -/
inductive OutboxQuery
  /-- `SELECT_CANDIDATES`. -/
  | selectCandidates (tenant : TenantId) (now : Int64) (worker : String) (limit : ℕ)
  | update (tenant : TenantId) (id : String) (update : OutboxUpdate)
  | nowMs
  /-- What is not a call of the store. -/
  | aside (op : DispatchOp)

/-- What a query returns. -/
@[reducible]
def OutboxQuery.Answer : OutboxQuery → Type
  | selectCandidates .. => StorageResult (List OutboxRow)
  | update .. => StorageResult (Option OutboxRow)
  | nowMs => Int64
  | aside op => op.Answer

/-- A computation that makes these calls and stops at the first error. -/
abbrev OutboxQuerying := ExceptT TxError (Program OutboxQuery OutboxQuery.Answer)

namespace SurrealOutboxStore

/-- A query, with `map_storage_error` and the question mark operator. -/
def ask {α : Type} (program : Program OutboxQuery OutboxQuery.Answer (StorageResult α)) :
    OutboxQuerying α :=
  ExceptT.mk (program >>= fun answer => .done (answer.mapError mapStorageError))

/-- The question mark operator. -/
def ofResult {α : Type} (result : TxResult α) : OutboxQuerying α := ExceptT.mk (.done result)

/-- The query of `try_lease`, and the message that it returns. -/
def tryLeaseWith (tenant : TenantId) (doc : OutboxDoc) (now leaseUntil : Int64)
    (worker : String) : OutboxQuerying (Option OutboxMessage) := do
  match ← ask (perform (OutboxQuery.update tenant doc.id (.lease now leaseUntil worker))) with
  | none => return none
  | some row => do
      let message ← ofResult (messageFromRow "outbox lease" row)
      return some message

/-- The loop of `lease_batch`, over the candidates. -/
def leaseLoopWith (tenant : TenantId) (now leaseUntil : Int64) (batch : ℕ) (worker : String)
    (groupByKey : Bool) :
    List OutboxDoc → List OutboxMessage → List String → OutboxQuerying (List OutboxMessage)
  | [], selected, _ => return selected
  | doc :: rest, selected, seenKeys =>
      if groupByKey && doc.dispatchKey.any (seenKeys.contains ·) then
        leaseLoopWith tenant now leaseUntil batch worker groupByKey rest selected seenKeys
      else do
        let found ← tryLeaseWith tenant doc now leaseUntil worker
        let selected := selected ++ found.toList
        if selected.length ≥ batch then return selected
        else
          leaseLoopWith tenant now leaseUntil batch worker groupByKey rest selected
            (if groupByKey then doc.dispatchKey.toList ++ seenKeys else seenKeys)

/-- The queries of `SurrealOutboxStore::lease_batch`. -/
def leaseBatchWith (tenant : TenantId) (nowMs leaseMs : Int64) (batch : ℕ) (workerId : String)
    (groupByKey : Bool) : OutboxQuerying (List OutboxMessage) := do
  let found ← ask (perform (OutboxQuery.selectCandidates tenant nowMs workerId (prefetch batch)))
  let docs ← ofResult (decodeVec (decodeOutboxRow "outbox select") found)
  leaseLoopWith tenant nowMs (nowMs + leaseMs) batch workerId groupByKey docs [] []

/-- A call that changes one row and does not look at what comes back. -/
def settleWith (tenant : TenantId) (id : Id) (update : OutboxUpdate) : OutboxQuerying Unit := do
  let _ ← ask
    (perform (OutboxQuery.update tenant (recordIdFor outboxTable tenant id.asStr) update))
  return ()

/-- The queries of `SurrealOutboxStore::dead_letter`. -/
def deadLetterWith (tenant : TenantId) (id : Id) (error : Option String) :
    OutboxQuerying DeadLetter := do
  let found ← ask
    (perform (OutboxQuery.update tenant (recordIdFor outboxTable tenant id.asStr) (.dead error)))
  match found with
  | none => throw (TxError.unknown "dead-letter update returned empty payload")
  | some row => do
      let message ← ofResult (messageFromRow "outbox dead-letter" row)
      let now ← ExceptT.lift (perform OutboxQuery.nowMs)
      return buildDeadLetter message row.lastError now

/-- How the calls of a tick are carried out where the store is SurrealDB. -/
def carriesOut : (op : DispatchOp) → Program OutboxQuery OutboxQuery.Answer op.Answer
  | .leaseBatch tenant nowMs leaseMs batch workerId groupByKey =>
      (leaseBatchWith tenant nowMs leaseMs batch workerId groupByKey).run
  | .ackDone tenant id => (settleWith tenant id .ack).run
  | .nackBackoff tenant id notBefore error => (settleWith tenant id (.nack notBefore error)).run
  | .deadLetter tenant id error => (deadLetterWith tenant id error).run
  | .onDispatchAttempt tenant message =>
      perform (OutboxQuery.aside (.onDispatchAttempt tenant message))
  | .send message => perform (OutboxQuery.aside (.send message))
  | .onDispatchResult tenant message success =>
      perform (OutboxQuery.aside (.onDispatchResult tenant message success))
  | .push letter => perform (OutboxQuery.aside (.push letter))
  | .nextAfter nowMs attempts => perform (OutboxQuery.aside (.nextAfter nowMs attempts))

end SurrealOutboxStore

/-- `Dispatcher::tick`, over SurrealDB. -/
def Dispatcher.tickWith (dispatcher : Dispatcher) (tenant : TenantId) (nowMs : Int64) :
    Program OutboxQuery OutboxQuery.Answer (TxResult Unit) :=
  (dispatcher.tick tenant nowMs).run.carryOut SurrealOutboxStore.carriesOut

/-- What is recorded of a run. -/
inductive RowEvent (ι : Type)
  /-- `LEASE_UPDATE` gave the row to the worker. -/
  | leased (worker id : String) (now leaseUntil : Int64)
  /-- `HEARTBEAT_UPDATE` moved the end of the worker's lease. -/
  | renewed (worker id : String) (leaseUntil : Int64)
  /-- The row is nobody's. -/
  | freed (id : String)
  /-- A dispatcher called the transport with the message of the row, and whether that returned
  `Ok`. -/
  | sent (dispatcher : ι) (id : String) (delivered : Bool)

/-- The rows, with the record of the run, newest event first. -/
structure OutboxTable (ι : Type) where
  rows : OutboxRows
  log : List (RowEvent ι)

/-- What the environment decides about a call. -/
inductive QueryOutcome
  /-- The query is carried out. The table yields its rows in this order. -/
  | answered (order : List String)
  /-- The query fails, and was carried out or not. -/
  | failed (error : StorageError) (carriedOut : Bool)
  /-- A hook, a push or a send returns. -/
  | outcome (result : TxResult Unit)
  | time (nowMs : Int64)

/-- The id of the record of a message. -/
def OutboxMessage.recordId (message : OutboxMessage) : String :=
  recordIdFor outboxTable message.tenant message.id.asStr

namespace OutboxTable

variable {ι : Type}

/-- What is recorded of an update that has found its row. -/
def eventOf (id : String) : OutboxUpdate → RowEvent ι
  | .lease now leaseUntil worker => .leased worker id now leaseUntil
  | .heartbeat leaseUntil worker => .renewed worker id leaseUntil
  | .ack | .nack _ _ | .dead _ | .revive _ => .freed id

/-- An update is carried out. -/
def carryOut (table : OutboxTable ι) (tenant : TenantId) (id : String) (update : OutboxUpdate) :
    Option OutboxRow × OutboxTable ι :=
  match table.rows.update id (update.applies tenant) update.rewrite with
  | (none, _) => (none, table)
  | (some row, rows) => (some row, { rows := rows, log := eventOf id update :: table.log })

/-- `SurrealOutboxStore::enqueue`, by anybody. -/
def enqueue (table : OutboxTable ι) (message : NewOutboxMessage) (createdAt notBefore : Int64) :
    OutboxTable ι :=
  { table with rows := (SurrealOutboxStore.enqueue table.rows message createdAt notBefore).2 }

/-- The calls of the process of a dispatcher. -/
def answer (i : ι) : Handler OutboxQuery OutboxQuery.Answer QueryOutcome (OutboxTable ι)
  | table, .answered order, .selectCandidates tenant now worker limit =>
      if table.rows.Enumerates order then
        some (.ok (SurrealOutboxStore.candidates table.rows order tenant now worker limit), table)
      else none
  | table, .failed error _, .selectCandidates _ _ _ _ => some (.error error, table)
  | table, .answered _, .update tenant id update =>
      let carried := table.carryOut tenant id update
      some (.ok carried.1, carried.2)
  | table, .failed error carriedOut, .update tenant id update =>
      some (.error error, if carriedOut then (table.carryOut tenant id update).2 else table)
  | table, .time nowMs, .nowMs => some (nowMs, table)
  | table, .outcome result, .aside (.send message) =>
      some (result, { table with log := .sent i message.recordId result.isOk :: table.log })
  | table, .outcome result, .aside (.onDispatchAttempt _ _) => some (result, table)
  | table, .outcome result, .aside (.onDispatchResult _ _ _) => some (result, table)
  | table, .outcome result, .aside (.push _) => some (result, table)
  | table, .time nowMs, .aside (.nextAfter _ _) => some (nowMs, table)
  | _, _, _ => none

/-- All that a call can do. -/
inductive Effect (i : ι) (table : OutboxTable ι) :
    (query : OutboxQuery) → query.Answer → OutboxTable ι → Prop
  | selected {tenant : TenantId} {now : Int64} {worker : String} {limit : ℕ}
      {answer : StorageResult (List OutboxRow)} :
      Effect i table (.selectCandidates tenant now worker limit) answer table
  /-- No row meets the condition, or the query did not arrive. -/
  | unchanged {tenant : TenantId} {id : String} {update : OutboxUpdate}
      {answer : StorageResult (Option OutboxRow)} : (∀ row, answer ≠ .ok (some row)) →
      Effect i table (.update tenant id update) answer table
  | updated {tenant : TenantId} {id : String} {update : OutboxUpdate} {row : OutboxRow}
      {answer : StorageResult (Option OutboxRow)} :
      table.rows.get id = some row → update.applies tenant row = true →
      (∀ found, answer = .ok found → found = some (update.rewrite row)) →
      Effect i table (.update tenant id update) answer
        { rows := table.rows.put id (update.rewrite row)
          log := eventOf id update :: table.log }
  | read {nowMs : Int64} : Effect i table .nowMs nowMs table
  | sent {message : OutboxMessage} {result : TxResult Unit} :
      Effect i table (.aside (.send message)) result
        { table with log := .sent i message.recordId result.isOk :: table.log }
  | bystander {op : DispatchOp} {answer : op.Answer} : op.isBystander = true →
      Effect i table (.aside op) answer table

variable {i : ι} {table after : OutboxTable ι} {tenant : TenantId} {id : String}
variable {update : OutboxUpdate}

theorem carryOut_cases (table : OutboxTable ι) (tenant : TenantId) (id : String)
    (update : OutboxUpdate) :
    table.carryOut tenant id update = (none, table) ∨
      ∃ row, table.rows.get id = some row ∧ update.applies tenant row = true ∧
        table.carryOut tenant id update = (some (update.rewrite row),
          { rows := table.rows.put id (update.rewrite row)
            log := eventOf id update :: table.log }) := by
  unfold carryOut
  cases hselect : table.rows.select id (update.applies tenant) with
  | none =>
      rw [Records.update_of_select_eq_none hselect]
      exact .inl rfl
  | some row =>
      rw [Records.update_of_select hselect]
      obtain ⟨hget, happlies⟩ := Option.filter_eq_some_iff.mp hselect
      exact .inr ⟨row, hget, happlies, rfl⟩

/-- The calls have no other effects. -/
theorem effect_of_answer {choice : QueryOutcome} {query : OutboxQuery} {reply : query.Answer}
    (h : answer i table choice query = some (reply, after)) :
    Effect i table query reply after := by
  cases query with
  | selectCandidates tenant now worker limit =>
      cases choice with
      | answered order =>
          obtain ⟨_, hafter⟩ := Option.ite_none_right_eq_some.mp h
          cases hafter
          exact .selected
      | failed error carriedOut =>
          cases h
          exact .selected
      | outcome _ | time _ => cases h
  | update tenant id update =>
      cases choice with
      | answered order =>
          simp only [answer] at h
          rcases carryOut_cases table tenant id update with heq | ⟨row, hget, happlies, heq⟩
          · rw [heq] at h
            cases h
            exact .unchanged (by simp)
          · rw [heq] at h
            cases h
            exact .updated hget happlies (by simp)
      | failed error carriedOut =>
          cases carriedOut with
          | false =>
              cases h
              exact .unchanged (by simp)
          | true =>
              simp only [answer, if_true] at h
              rcases carryOut_cases table tenant id update with heq | ⟨row, hget, happlies, heq⟩
              · rw [heq] at h
                cases h
                exact .unchanged (by simp)
              · rw [heq] at h
                cases h
                exact .updated hget happlies (by simp)
      | outcome _ | time _ => cases h
  | nowMs =>
      cases choice <;> cases h
      exact .read
  | aside op =>
      cases op with
      | send message =>
          cases choice <;> cases h
          exact .sent
      | onDispatchAttempt | onDispatchResult | push | nextAfter =>
          cases choice <;> cases h
          exact .bystander rfl
      | leaseBatch | ackDone | deadLetter | nackBackoff => cases choice <;> cases h

end OutboxTable

end Soulbase.Tx
