/-
# Documents of the SurrealDB stores

How messages, idempotency records, sagas and dead letters are laid out as rows of their
tables, and how they are read back. What a table holds under the id of a record is found
again by that id alone.
-/

import Soulbase.Foundation.Text
import Soulbase.Storage
import Soulbase.Tx.Model

namespace Soulbase.Tx

open Soulbase.Foundation Soulbase.Storage

/-- `map_storage_error`. -/
def mapStorageError (error : StorageError) : TxError := ⟨error.inner⟩

/-- `OUTBOX_TABLE`. -/
def outboxTable : String := "tx_outbox"

/-- `IDEMPO_TABLE`. -/
def idempoTable : String := "tx_idempo"

/-- `SAGA_TABLE`. -/
def sagaTable : String := "tx_saga"

/-- `DEAD_TABLE`. -/
def deadTable : String := "tx_dead_letter"

/-- `decode_vec`, for the rows of an answer. -/
def decodeVec {Row Doc : Type} (decode : Row → TxResult Doc) (rows : List Row) :
    TxResult (List Doc) :=
  rows.mapM decode

section DecodeVec

variable {Row Doc : Type} {decode : Row → TxResult Doc} {rows : List Row}

/-- Every row can be decoded. -/
theorem decodeVec_of_ok {read : Row → Doc} (h : ∀ row ∈ rows, decode row = .ok (read row)) :
    decodeVec decode rows = .ok (rows.map read) := by
  unfold decodeVec
  induction rows with
  | nil => rfl
  | cons row rest ih =>
      rw [List.mapM_cons, h row List.mem_cons_self,
        ih fun other hother => h other (List.mem_cons_of_mem _ hother)]
      rfl

/-- Some row cannot be decoded. -/
theorem decodeVec_of_error {row : Row} {error : TxError} (hmem : row ∈ rows)
    (h : decode row = .error error) : ∃ error, decodeVec decode rows = .error error := by
  unfold decodeVec
  induction rows with
  | nil => cases hmem
  | cons first rest ih =>
      rw [List.mapM_cons]
      cases hfirst : decode first with
      | error error => exact ⟨error, rfl⟩
      | ok doc =>
          rcases List.mem_cons.mp hmem with rfl | hrest
          · rw [h] at hfirst
            cases hfirst
          · obtain ⟨error, herror⟩ := ih hrest
            exact ⟨error, by rw [herror]; rfl⟩

end DecodeVec

/-- `record_id_for`. -/
def recordIdFor (table : String) (tenant : TenantId) (suffix : String) : String :=
  makeRecordId table tenant suffix

/-- In one table, the records of one tenant are told apart. -/
theorem recordIdFor_inj {table : String} {tenant : TenantId} {suffix suffix' : String} :
    recordIdFor table tenant suffix = recordIdFor table tenant suffix' ↔ suffix = suffix' := by
  simp only [recordIdFor, makeRecordId, String.append_right_inj]

/-- The id is the same for two tenants and suffixes just where a tenant goes on after the
name of the other one, and the suffix of the other one makes up for it. -/
theorem recordIdFor_eq_iff {table : String} {tenant tenant' : TenantId}
    {suffix suffix' : String} :
    recordIdFor table tenant suffix = recordIdFor table tenant' suffix' ↔
      (tenant = tenant' ∧ suffix = suffix') ∨
        (∃ middle, tenant'.asStr = tenant.asStr ++ "_" ++ middle ∧
          suffix = middle ++ "_" ++ suffix') ∨
          ∃ middle, tenant.asStr = tenant'.asStr ++ "_" ++ middle ∧
            suffix' = middle ++ "_" ++ suffix := by
  have hseparator : String.singleton '_' = "_" := rfl
  simp only [recordIdFor, makeRecordId, String.append_assoc, String.append_right_inj]
  simp only [← String.append_assoc, ← hseparator, join_eq_join_iff, TenantId.ext_iff]

/-- `IdempoDoc`. -/
structure IdempoDoc where
  id : String
  tenant : String
  key : String
  hash : String
  status : String
  resultDigest : Option String
  lastError : Option String
  ttlMs : UInt64
  createdAt : Int64
  updatedAt : Int64
  deriving DecidableEq

/-- `idempo_status_to_str`. -/
def idempoStatusToStr : IdempoStatus → String
  | .inFlight => "InFlight"
  | .succeeded => "Succeeded"
  | .failed => "Failed"

/-- `idempo_status_from_str`. -/
def idempoStatusFromStr (input : String) : Option IdempoStatus :=
  if input = "InFlight" then some .inFlight
  else if input = "Succeeded" then some .succeeded
  else if input = "Failed" then some .failed
  else none

/-- `idempo_doc_from_record`. -/
def idempoDocFromRecord (record : IdempoRecord) : IdempoDoc where
  id := makeRecordId idempoTable record.tenant record.key
  tenant := record.tenant.asStr
  key := record.key
  hash := record.hash
  status := idempoStatusToStr record.status
  resultDigest := record.resultDigest
  lastError := record.lastError
  ttlMs := record.ttlMs
  createdAt := record.createdAt
  updatedAt := record.updatedAt

/-- `idempo_record_from_doc`. -/
def idempoRecordFromDoc (doc : IdempoDoc) : TxResult IdempoRecord :=
  match idempoStatusFromStr doc.status with
  | none => .error (.schema ("unknown idempotency status: " ++ doc.status))
  | some status =>
      .ok
        { key := doc.key
          tenant := ⟨doc.tenant⟩
          hash := doc.hash
          status := status
          resultDigest := doc.resultDigest
          lastError := doc.lastError
          ttlMs := doc.ttlMs
          createdAt := doc.createdAt
          updatedAt := doc.updatedAt }

@[simp]
theorem idempoStatusFromStr_toStr (status : IdempoStatus) :
    idempoStatusFromStr (idempoStatusToStr status) = some status := by
  cases status <;> rfl

/-- The name of a status determines it. -/
theorem idempoStatusFromStr_eq_some_iff {input : String} {status : IdempoStatus} :
    idempoStatusFromStr input = some status ↔ input = idempoStatusToStr status := by
  constructor
  · intro h
    unfold idempoStatusFromStr at h
    split at h
    case isTrue hinput =>
      cases h
      exact hinput
    case isFalse =>
      split at h
      case isTrue hinput =>
        cases h
        exact hinput
      case isFalse =>
        split at h
        case isTrue hinput =>
          cases h
          exact hinput
        case isFalse => cases h
  · intro h
    rw [h, idempoStatusFromStr_toStr]

/-- A record is read back as it was written. -/
@[simp]
theorem idempoRecordFromDoc_docFromRecord (record : IdempoRecord) :
    idempoRecordFromDoc (idempoDocFromRecord record) = .ok record := by
  unfold idempoRecordFromDoc
  rw [idempoDocFromRecord, idempoStatusFromStr_toStr]

/-- A row whose status has a name is a record with that status and the digest of
the row. -/
theorem of_idempoRecordFromDoc {doc : IdempoDoc} {record : IdempoRecord}
    (h : idempoRecordFromDoc doc = .ok record) :
    doc.status = idempoStatusToStr record.status ∧
      record.resultDigest = doc.resultDigest := by
  unfold idempoRecordFromDoc at h
  cases hstatus : idempoStatusFromStr doc.status with
  | none =>
      rw [hstatus] at h
      cases h
  | some status =>
      rw [hstatus] at h
      cases h
      exact ⟨idempoStatusFromStr_eq_some_iff.mp hstatus, rfl⟩

/-! ## Outbox messages -/

/-- `OutboxDoc`, for a type of the count of attempts. -/
structure OutboxFields (Count : Type) where
  id : String
  tenant : String
  messageId : String
  envelopeId : String
  topic : String
  payload : Json.Value
  createdAt : Int64
  notBefore : Int64
  attempts : Count
  status : String
  lastError : Option String
  dispatchKey : Option String
  leaseUntil : Option Int64
  worker : Option String

/-- `OutboxDoc`. -/
abbrev OutboxDoc := OutboxFields UInt32

/-- A row of `tx_outbox`. The database counts attempts on its own, and may count further
than `OutboxDoc` can. What is not there is `NULL`. -/
abbrev OutboxRow := OutboxFields Nat

/-- `outbox_status_to_str`. -/
def outboxStatusToStr : OutboxStatus → String
  | .pending => "Pending"
  | .leased => "Leased"
  | .done => "Done"
  | .dead => "Dead"

/-- `outbox_status_from_str`. -/
def outboxStatusFromStr (input : String) : Option OutboxStatus :=
  if input = "Pending" then some .pending
  else if input = "Leased" then some .leased
  else if input = "Done" then some .done
  else if input = "Dead" then some .dead
  else none

@[simp]
theorem outboxStatusFromStr_toStr (status : OutboxStatus) :
    outboxStatusFromStr (outboxStatusToStr status) = some status := by
  cases status <;> rfl

/-- `outbox_doc_from_message`. -/
def outboxDocFromMessage (message : OutboxMessage) : OutboxDoc where
  id := makeRecordId outboxTable message.tenant message.id.asStr
  tenant := message.tenant.asStr
  messageId := message.id.asStr
  envelopeId := message.envelopeId.asStr
  topic := message.topic
  payload := message.payload
  createdAt := message.createdAt
  notBefore := message.notBefore
  attempts := message.attempts
  status := outboxStatusToStr message.status
  lastError := message.lastError
  dispatchKey := message.dispatchKey
  leaseUntil := message.leaseUntil
  worker := message.worker

/-- `outbox_message_from_doc`. -/
def outboxMessageFromDoc (doc : OutboxDoc) : TxResult OutboxMessage :=
  match outboxStatusFromStr doc.status with
  | none => .error (.schema ("unknown outbox status: " ++ doc.status))
  | some status =>
      .ok
        { id := ⟨doc.messageId⟩
          tenant := ⟨doc.tenant⟩
          envelopeId := ⟨doc.envelopeId⟩
          topic := doc.topic
          payload := doc.payload
          createdAt := doc.createdAt
          notBefore := doc.notBefore
          attempts := doc.attempts
          status := status
          lastError := doc.lastError
          dispatchKey := doc.dispatchKey
          leaseUntil := doc.leaseUntil
          worker := doc.worker }

/-- A message is read back as it was written. -/
@[simp]
theorem outboxMessageFromDoc_docFromMessage (message : OutboxMessage) :
    outboxMessageFromDoc (outboxDocFromMessage message) = .ok message := by
  unfold outboxMessageFromDoc
  rw [outboxDocFromMessage, outboxStatusFromStr_toStr]

/-- `serde_json::to_value` of a document, as the database stores it. -/
def OutboxFields.toRow (doc : OutboxDoc) : OutboxRow :=
  { doc with attempts := doc.attempts.toNat }

/-- What a row is decoded to. -/
def OutboxFields.toDoc (row : OutboxRow) : OutboxDoc :=
  { row with attempts := .ofNat row.attempts }

/-- `decode_row::<OutboxDoc>`. The count of attempts may be too large. -/
def decodeOutboxRow (context : String) (row : OutboxRow) : TxResult OutboxDoc :=
  if row.attempts < UInt32.size then .ok row.toDoc
  else
    .error (.schema (context ++ ": deserialize failed: invalid value: integer `" ++
      toString row.attempts ++ "`, expected u32"))

/-- A document is decoded as it was stored. -/
@[simp]
theorem decodeOutboxRow_toRow (context : String) (doc : OutboxDoc) :
    decodeOutboxRow context doc.toRow = .ok doc := by
  have hsize : doc.toRow.attempts < UInt32.size := UInt32.toNat_lt_size doc.attempts
  rw [decodeOutboxRow, if_pos hsize]
  simp [OutboxFields.toRow, OutboxFields.toDoc]

/-- `SagaDoc`. -/
structure SagaDoc where
  id : String
  tenant : String
  sagaId : String
  state : String
  defName : String
  steps : List SagaStepState
  cursor : Nat
  createdAt : Int64
  updatedAt : Int64
  timeoutAt : Option Int64
  deriving DecidableEq

/-- `saga_state_to_str`. -/
def sagaStateToStr : SagaState → String
  | .running => "Running"
  | .compensating => "Compensating"
  | .completed => "Completed"
  | .failed => "Failed"
  | .cancelled => "Cancelled"
  | .paused => "Paused"

/-- `saga_state_from_str`. -/
def sagaStateFromStr (input : String) : Option SagaState :=
  if input = "Running" then some .running
  else if input = "Compensating" then some .compensating
  else if input = "Completed" then some .completed
  else if input = "Failed" then some .failed
  else if input = "Cancelled" then some .cancelled
  else if input = "Paused" then some .paused
  else none

@[simp]
theorem sagaStateFromStr_toStr (state : SagaState) :
    sagaStateFromStr (sagaStateToStr state) = some state := by
  cases state <;> rfl

/-- `saga_doc_from_instance`. -/
def sagaDocFromInstance (saga : SagaInstance) : SagaDoc where
  id := makeRecordId sagaTable saga.tenant saga.id.asStr
  tenant := saga.tenant.asStr
  sagaId := saga.id.asStr
  state := sagaStateToStr saga.state
  defName := saga.defName
  steps := saga.steps
  cursor := saga.cursor
  createdAt := saga.createdAt
  updatedAt := saga.updatedAt
  timeoutAt := saga.timeoutAt

/-- `saga_instance_from_doc`. -/
def sagaInstanceFromDoc (doc : SagaDoc) : TxResult SagaInstance :=
  match sagaStateFromStr doc.state with
  | none => .error (.schema ("unknown saga state: " ++ doc.state))
  | some state =>
      .ok
        { id := ⟨doc.sagaId⟩
          tenant := ⟨doc.tenant⟩
          state := state
          defName := doc.defName
          steps := doc.steps
          cursor := doc.cursor
          createdAt := doc.createdAt
          updatedAt := doc.updatedAt
          timeoutAt := doc.timeoutAt }

/-- An instance is read back as it was written. -/
@[simp]
theorem sagaInstanceFromDoc_docFromInstance (saga : SagaInstance) :
    sagaInstanceFromDoc (sagaDocFromInstance saga) = .ok saga := by
  unfold sagaInstanceFromDoc
  rw [sagaDocFromInstance, sagaStateFromStr_toStr]

/-- `DeadLetterDoc`. -/
structure DeadLetterDoc where
  id : String
  tenant : String
  referenceKind : String
  referenceId : String
  payload : Json.Value
  error : Option String
  occurredAt : Int64

/-- What `serde_json` makes of a payload. The texts are those of its errors. -/
structure PayloadCodec where
  /-- `serde_json::to_value`. -/
  toValue : DeadLetterPayload → Except String Json.Value
  /-- `serde_json::from_value`. -/
  fromValue : Json.Value → Except String DeadLetterPayload

/-- `dead_kind_to_str`. -/
def deadKindToStr : DeadKind → String
  | .outbox => "Outbox"
  | .saga => "Saga"

/-- `dead_kind_from_str`. -/
def deadKindFromStr (input : String) : Option DeadKind :=
  if input = "Outbox" then some .outbox
  else if input = "Saga" then some .saga
  else none

/-- `dead_suffix`. -/
def deadSuffix (kind : DeadKind) (id : Id) : String :=
  (deadKindToStr kind).toLower ++ "-" ++ id.asStr

/-- `dead_doc_from_letter`. -/
def deadDocFromLetter (codec : PayloadCodec) (letter : DeadLetter) : TxResult DeadLetterDoc :=
  match codec.toValue letter.payload with
  | .error err => .error (.schema ("serialize dead-letter payload failed: " ++ err))
  | .ok payload =>
      .ok
        { id := makeRecordId deadTable letter.tenant
            (deadSuffix letter.reference.kind letter.reference.id)
          tenant := letter.tenant.asStr
          referenceKind := deadKindToStr letter.reference.kind
          referenceId := letter.reference.id.asStr
          payload := payload
          error := letter.error
          occurredAt := letter.occurredAt }

/-- `dead_letter_from_doc`. -/
def deadLetterFromDoc (codec : PayloadCodec) (doc : DeadLetterDoc) : TxResult DeadLetter :=
  match deadKindFromStr doc.referenceKind with
  | none => .error (.schema ("unknown dead-letter kind: " ++ doc.referenceKind))
  | some kind =>
      match codec.fromValue doc.payload with
      | .error err => .error (.schema ("deserialize dead-letter payload failed: " ++ err))
      | .ok payload =>
          .ok
            { reference := { kind := kind, id := ⟨doc.referenceId⟩ }
              tenant := ⟨doc.tenant⟩
              error := doc.error
              occurredAt := doc.occurredAt
              payload := payload }

end Soulbase.Tx
