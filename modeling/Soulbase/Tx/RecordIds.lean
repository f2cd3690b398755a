/-
# Record ids and tenants

The statements that write a record of a table address it by its id alone, and what they do
depends on the record of that id and on no other. So two of them keep apart exactly if their
ids differ. The id joins the tenant and the suffix with an underscore, which both may
contain: `recordsKeptApart_iff` says which tenants and suffixes are confused by that.
-/

import Soulbase.Tx.Surreal.DeadStore
import Soulbase.Tx.Surreal.IdempoSolo
import Soulbase.Tx.Surreal.OutboxStore
import Soulbase.Tx.Surreal.SagaStore

namespace Soulbase.Tx

open Soulbase.Foundation

/-- The tables of the stores. -/
inductive TxTable
  | outbox
  | idempo
  | saga
  | dead

namespace TxTable

/-- The name of a table. -/
def name : TxTable → String
  | outbox => outboxTable
  | idempo => idempoTable
  | saga => sagaTable
  | dead => deadTable

/-- What a table holds. -/
abbrev Doc : TxTable → Type
  | outbox => OutboxRow
  | idempo => IdempoDoc
  | saga => SagaDoc
  | dead => DeadLetterDoc

end TxTable

/-- The calls that create, replace or delete a record by its id. -/
inductive RecordWrite : TxTable → Type
  | enqueue (message : NewOutboxMessage) (createdAt notBefore : Int64) : RecordWrite .outbox
  | checkAndPut (tenant : TenantId) (key hash : String) (ttlMs : UInt64) (now builtAt : Int64) :
      RecordWrite .idempo
  | delete (tenant : TenantId) (key : String) : RecordWrite .idempo
  | insert (saga : SagaInstance) : RecordWrite .saga
  | save (saga : SagaInstance) : RecordWrite .saga
  | push (letter : DeadLetter) : RecordWrite .dead

namespace RecordWrite

variable {table : TxTable}

/-- The tenant that a call is for. -/
def tenant : RecordWrite table → TenantId
  | enqueue message _ _ => message.tenant
  | checkAndPut tenant .. => tenant
  | delete tenant _ => tenant
  | insert saga => saga.tenant
  | save saga => saga.tenant
  | push letter => letter.tenant

/-- The suffix that a call is for. -/
def suffix : RecordWrite table → String
  | enqueue message _ _ => message.id.asStr
  | checkAndPut _ key .. => key
  | delete _ key => key
  | insert saga => saga.id.asStr
  | save saga => saga.id.asStr
  | push letter => deadSuffix letter.reference.kind letter.reference.id

/-- The id of the record that a call is for. -/
def recordId (write : RecordWrite table) : String :=
  recordIdFor table.name write.tenant write.suffix

/-- What a call returns. -/
abbrev Answer : RecordWrite table → Type
  | enqueue .. => TxResult OutboxMessage
  | checkAndPut .. => TxResult (Option String)
  | delete .. => TxResult Unit
  | insert _ => TxResult Unit
  | save _ => TxResult Unit
  | push _ => TxResult Unit

/-- The calls. -/
def run (codec : PayloadCodec) :
    (write : RecordWrite table) → Records table.Doc → write.Answer × Records table.Doc
  | enqueue message createdAt notBefore, rows =>
      SurrealOutboxStore.enqueue rows message createdAt notBefore
  | checkAndPut tenant key hash ttlMs now builtAt, rows =>
      SurrealIdempoStore.checkAndPutSolo rows tenant key hash ttlMs now builtAt
  | delete tenant key, rows => (.ok (), SurrealIdempoStore.deleteSolo rows tenant key)
  | insert saga, rows => SurrealSagaStore.insert rows saga
  | save saga, rows => SurrealSagaStore.save rows saga
  | push letter, rows => SurrealDeadStore.push codec rows letter

end RecordWrite

theorem actsAt_putSolo (tenant : TenantId) (key hash : String) (ttlMs : UInt64)
    (builtAt : Int64) :
    Records.ActsAt (recordIdFor idempoTable tenant key) fun rows =>
      SurrealIdempoStore.putSolo rows tenant key hash ttlMs builtAt := by
  have hput : ∀ rows, SurrealIdempoStore.putSolo rows tenant key hash ttlMs builtAt =
      (rows.create (recordIdFor idempoTable tenant key)
        (idempoDocFromRecord (buildRecord tenant key hash ttlMs builtAt))).elim
          (.error (mapIdempoCreateError (.conflict "record already exists")), rows)
          (Prod.mk (.ok none)) := by
    intro rows
    simp only [SurrealIdempoStore.putSolo, recordIdFor, idempoDocFromRecord, buildRecord]
    split <;> simp [*]
  exact Records.actsAt_of_create hput

/-- `check_and_put` with one client looks at one row, and writes that one only. -/
theorem actsAt_checkAndPutSolo (tenant : TenantId) (key hash : String) (ttlMs : UInt64)
    (now builtAt : Int64) :
    Records.ActsAt (recordIdFor idempoTable tenant key) fun rows =>
      SurrealIdempoStore.checkAndPutSolo rows tenant key hash ttlMs now builtAt := by
  have hput := actsAt_putSolo tenant key hash ttlMs builtAt
  constructor
  case answer =>
    intro rows others h
    have hselect : SurrealIdempoStore.selectSingle rows tenant key =
        SurrealIdempoStore.selectSingle others tenant key := congrArg (Option.filter _) h
    have hdeleted : (SurrealIdempoStore.deleteSolo rows tenant key).get
        (recordIdFor idempoTable tenant key) =
          (SurrealIdempoStore.deleteSolo others tenant key).get
            (recordIdFor idempoTable tenant key) := by
      simp only [SurrealIdempoStore.deleteSolo, Records.delete, HashMap.get_remove, if_true]
    unfold SurrealIdempoStore.checkAndPutSolo
    rw [hselect]
    cases SurrealIdempoStore.selectSingle others tenant key with
    | none => exact hput.answer _ _ h
    | some doc =>
        cases hrecord : idempoRecordFromDoc doc with
        | error error => simp only [hrecord]
        | ok record =>
            simp only [hrecord]
            split
            · exact hput.answer _ _ hdeleted
            · split <;> rfl
  case frame =>
    intro rows other hne
    have hdeleted : (SurrealIdempoStore.deleteSolo rows tenant key).get other = rows.get other :=
      Records.get_delete_of_ne hne
    unfold SurrealIdempoStore.checkAndPutSolo
    cases SurrealIdempoStore.selectSingle rows tenant key with
    | none => exact hput.frame _ _ hne
    | some doc =>
        cases hrecord : idempoRecordFromDoc doc with
        | error error => simp only [hrecord]
        | ok record =>
            simp only [hrecord]
            split
            · exact (hput.frame _ _ hne).trans hdeleted
            · split <;> rfl

theorem actsAt_enqueue (message : NewOutboxMessage) (createdAt notBefore : Int64) :
    Records.ActsAt (recordIdFor outboxTable message.tenant message.id.asStr) fun rows =>
      SurrealOutboxStore.enqueue rows message createdAt notBefore := by
  have henqueue : ∀ rows, SurrealOutboxStore.enqueue rows message createdAt notBefore =
      (rows.create (recordIdFor outboxTable message.tenant message.id.asStr)
        (outboxDocFromMessage (buildOutboxMessage message createdAt notBefore)).toRow).elim
          (.error (mapStorageError (.conflict "record already exists")), rows)
          (Prod.mk (.ok (buildOutboxMessage message createdAt notBefore))) := by
    intro rows
    cases hget : rows.get (recordIdFor outboxTable message.tenant message.id.asStr) with
    | none =>
        rw [SurrealOutboxStore.enqueue_of_get_eq_none createdAt notBefore hget,
          Records.create_of_get_eq_none hget]
        rfl
    | some row =>
        rw [SurrealOutboxStore.enqueue_of_get createdAt notBefore hget,
          Records.create_eq_none_iff.mpr ⟨row, hget⟩]
        rfl
  exact Records.actsAt_of_create henqueue

theorem actsAt_insert (saga : SagaInstance) :
    Records.ActsAt (recordIdFor sagaTable saga.tenant saga.id.asStr) fun rows =>
      SurrealSagaStore.insert rows saga := by
  have hinsert : ∀ rows, SurrealSagaStore.insert rows saga =
      (rows.create (recordIdFor sagaTable saga.tenant saga.id.asStr)
        (sagaDocFromInstance saga)).elim
          (.error (mapStorageError (.conflict "record already exists")), rows)
          (Prod.mk (.ok ())) := by
    intro rows
    simp only [SurrealSagaStore.insert, recordIdFor, sagaDocFromInstance]
    split <;> simp [*]
  exact Records.actsAt_of_create hinsert

theorem actsAt_push (codec : PayloadCodec) (letter : DeadLetter) :
    Records.ActsAt (recordIdFor deadTable letter.tenant
      (deadSuffix letter.reference.kind letter.reference.id)) fun rows =>
        SurrealDeadStore.push codec rows letter := by
  unfold SurrealDeadStore.push deadDocFromLetter
  cases codec.toValue letter.payload with
  | error err => exact ⟨fun _ _ _ => rfl, fun _ _ _ => rfl⟩
  | ok payload => exact Records.actsAt_replace _ _ _

/-- A write reads and writes the record of its id only. -/
theorem RecordWrite.actsAt (codec : PayloadCodec) {table : TxTable}
    (write : RecordWrite table) : Records.ActsAt write.recordId (write.run codec) := by
  cases write with
  | enqueue message createdAt notBefore => exact actsAt_enqueue message createdAt notBefore
  | checkAndPut tenant key hash ttlMs now builtAt =>
      exact actsAt_checkAndPutSolo tenant key hash ttlMs now builtAt
  | delete tenant key => exact Records.actsAt_delete _ _
  | insert saga => exact actsAt_insert saga
  | save saga => exact Records.actsAt_replace _ _ _
  | push letter => exact actsAt_push codec letter

/-- A call is for the tenant and the suffix. -/
def RecordWrite.IsFor {table : TxTable} (write : RecordWrite table) (tenant : TenantId)
    (suffix : String) : Prop :=
  write.tenant = tenant ∧ write.suffix = suffix

/-- Ids of a table that are the same are of the same tenant and suffix, and a write for one
tenant and suffix neither touches the record of another, nor changes what a write for it is
answered. -/
structure RecordsKeptApart (codec : PayloadCodec) (table : TxTable) (tenant : TenantId)
    (suffix : String) (otherTenant : TenantId) (otherSuffix : String) : Prop where
  ids : recordIdFor table.name tenant suffix = recordIdFor table.name otherTenant otherSuffix →
    tenant = otherTenant ∧ suffix = otherSuffix
  writes : ¬(tenant = otherTenant ∧ suffix = otherSuffix) →
    ∀ write other : RecordWrite table, write.IsFor tenant suffix →
      other.IsFor otherTenant otherSuffix → ∀ records,
        (write.run codec records).2.get other.recordId = records.get other.recordId ∧
          (other.run codec (write.run codec records).2).1 = (other.run codec records).1

/-- The name of a tenant is that of another one, an underscore and something more, and the
suffix of the other one begins with that, an underscore and the suffix of the first. -/
def RunsInto (tenant : TenantId) (suffix : String) (otherTenant : TenantId)
    (otherSuffix : String) : Prop :=
  ∃ middle, tenant.asStr = otherTenant.asStr ++ "_" ++ middle ∧
    otherSuffix = middle ++ "_" ++ suffix

/-- The name of a tenant does not go on after itself. -/
theorem not_runsInto_self (tenant : TenantId) (suffix otherSuffix : String) :
    ¬RunsInto tenant suffix tenant otherSuffix := by
  rintro ⟨middle, htenant, _⟩
  have hlength := congrArg String.length htenant
  have hseparator : "_".length = 1 := rfl
  rw [String.length_append, String.length_append, hseparator] at hlength
  omega

/-- Records are kept apart exactly if neither tenant and suffix run into the other ones. -/
theorem recordsKeptApart_iff (codec : PayloadCodec) (table : TxTable) (tenant : TenantId)
    (suffix : String) (otherTenant : TenantId) (otherSuffix : String) :
    RecordsKeptApart codec table tenant suffix otherTenant otherSuffix ↔
      ¬RunsInto tenant suffix otherTenant otherSuffix ∧
        ¬RunsInto otherTenant otherSuffix tenant suffix := by
  have hids : recordIdFor table.name tenant suffix =
      recordIdFor table.name otherTenant otherSuffix ↔
        (tenant = otherTenant ∧ suffix = otherSuffix) ∨
          RunsInto otherTenant otherSuffix tenant suffix ∨
            RunsInto tenant suffix otherTenant otherSuffix := recordIdFor_eq_iff
  constructor
  · intro hapart
    constructor
    · intro hinto
      obtain ⟨rfl, rfl⟩ := hapart.ids (hids.mpr (.inr (.inr hinto)))
      exact not_runsInto_self _ _ _ hinto
    · intro hback
      obtain ⟨rfl, rfl⟩ := hapart.ids (hids.mpr (.inr (.inl hback)))
      exact not_runsInto_self _ _ _ hback
  · rintro ⟨hinto, hback⟩
    have hne : recordIdFor table.name tenant suffix =
        recordIdFor table.name otherTenant otherSuffix →
          tenant = otherTenant ∧ suffix = otherSuffix := by
      intro hsame
      rcases hids.mp hsame with hkeys | hrun | hrun
      · exact hkeys
      · exact absurd hrun hback
      · exact absurd hrun hinto
    refine ⟨hne, fun hkeys write other hwrite hother records => ?_⟩
    have hrecords : other.recordId ≠ write.recordId := by
      intro hsame
      rw [RecordWrite.recordId, RecordWrite.recordId, hwrite.1, hwrite.2, hother.1,
        hother.2] at hsame
      exact hkeys (hne hsame.symm)
    exact ⟨(write.actsAt codec).frame records _ hrecords,
      (write.actsAt codec).answer_after (other.actsAt codec) hrecords records⟩

/-- The tenants `a_b` and `a` have records of one id. -/
theorem not_recordsKeptApart_underscore :
    ¬∀ (codec : PayloadCodec) (table : TxTable) (tenant : TenantId) (suffix : String)
      (otherTenant : TenantId) (otherSuffix : String),
        RecordsKeptApart codec table tenant suffix otherTenant otherSuffix := by
  intro h
  have hsame := (h ⟨fun _ => .ok .null, fun _ => .error ""⟩ .idempo ⟨"a_b"⟩ "c" ⟨"a"⟩ "b_c").ids
    (by decide)
  exact absurd hsame (by decide)

end Soulbase.Tx
