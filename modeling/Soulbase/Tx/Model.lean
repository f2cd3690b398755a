/-
# The data model of the transaction crate

Messages of the outbox, idempotency records, sagas and dead letters. Times are
`i64` milliseconds, counters of attempts `u32` and positions `usize`, which no
run of the code can exhaust and which are natural numbers here.
-/

import Soulbase.Types
import Soulbase.Tx.Errors

namespace Soulbase.Tx

/-- `OutboxStatus`. -/
inductive OutboxStatus
  | pending
  | leased
  | done
  | dead
  deriving DecidableEq

/-- `OutboxStatus::is_terminal`. -/
def OutboxStatus.isTerminal : OutboxStatus → Bool
  | .done | .dead => true
  | .pending | .leased => false

/-- `OutboxMessage`. -/
structure OutboxMessage where
  id : Id
  tenant : TenantId
  envelopeId : Id
  topic : String
  payload : Json.Value
  createdAt : Int64
  notBefore : Int64
  attempts : UInt32
  status : OutboxStatus
  lastError : Option String
  dispatchKey : Option String
  leaseUntil : Option Int64
  worker : Option String

/-- `NewOutboxMessage`, what a producer hands in. -/
structure NewOutboxMessage where
  id : Id
  tenant : TenantId
  envelopeId : Id
  topic : String
  payload : Json.Value
  notBefore : Option Int64
  dispatchKey : Option String

/-- `IdempoStatus`. -/
inductive IdempoStatus
  | inFlight
  | succeeded
  | failed
  deriving DecidableEq

/-- `IdempoRecord`. -/
structure IdempoRecord where
  key : String
  tenant : TenantId
  hash : String
  status : IdempoStatus
  resultDigest : Option String
  lastError : Option String
  ttlMs : UInt64
  createdAt : Int64
  updatedAt : Int64
  deriving DecidableEq

/-- `SagaState`. -/
inductive SagaState
  | running
  | compensating
  | completed
  | failed
  | cancelled
  | paused
  deriving DecidableEq

/-- `StepState`. -/
inductive StepState
  | ready
  | inFlight
  | succeeded
  | failed
  | compensated
  | skipped
  deriving DecidableEq

/-- `SagaStepDef`: the two URIs are all that the orchestrator reads. -/
structure SagaStepDef where
  name : String
  actionUri : String
  compensateUri : Option String
  deriving DecidableEq

/-- `SagaDefinition`. -/
structure SagaDefinition where
  name : String
  steps : List SagaStepDef
  deriving DecidableEq

/-- `SagaStepState`. -/
structure SagaStepState where
  spec : SagaStepDef
  state : StepState
  attempts : UInt32
  lastError : Option String
  startedAt : Option Int64
  completedAt : Option Int64
  deriving DecidableEq

/-- `SagaStepState::new`. -/
def SagaStepState.new (spec : SagaStepDef) : SagaStepState where
  spec := spec
  state := .ready
  attempts := 0
  lastError := none
  startedAt := none
  completedAt := none

/-- `SagaInstance`. -/
structure SagaInstance where
  id : Id
  tenant : TenantId
  state : SagaState
  defName : String
  steps : List SagaStepState
  cursor : Nat
  createdAt : Int64
  updatedAt : Int64
  timeoutAt : Option Int64
  deriving DecidableEq

/-- `DeadKind`. -/
inductive DeadKind
  | outbox
  | saga
  deriving DecidableEq

/-- `DeadLetterRef`. It does not name the tenant. -/
structure DeadLetterRef where
  kind : DeadKind
  id : Id
  deriving DecidableEq

/-- `DeadLetterPayload`: the message or the saga as it was when it died. -/
inductive DeadLetterPayload
  | outbox (message : OutboxMessage)
  | saga (saga : SagaInstance)

/-- `DeadLetter`. -/
structure DeadLetter where
  reference : DeadLetterRef
  tenant : TenantId
  error : Option String
  occurredAt : Int64
  payload : DeadLetterPayload

/-- `DeadLetter::kind`. -/
def DeadLetter.kind (letter : DeadLetter) : DeadKind := letter.reference.kind

end Soulbase.Tx
