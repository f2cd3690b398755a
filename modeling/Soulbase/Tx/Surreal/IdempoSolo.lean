/-
# The SurrealDB idempotency store with one client

What the calls of the store do to the table where nobody else makes queries and the
database is there. `finish` and `fail` are one statement, which changes the row if there is
one and says nothing if there is none. `check_and_put` is several queries; `solo_of_exec`
says that running its program alone is the one step given here.
-/

import Soulbase.Foundation.Records
import Soulbase.Tx.Surreal.IdempoStore

namespace Soulbase.Tx

open Soulbase.Foundation Soulbase.Storage

/-- The rows of `tx_idempo`. -/
abbrev IdempoRows := Records IdempoDoc

/-- The condition `tenant = $tenant`. -/
def IdempoDoc.isOf (tenant : TenantId) (doc : IdempoDoc) : Bool := doc.tenant = tenant.asStr

namespace SurrealIdempoStore

/-- `SELECT_SINGLE`. -/
def selectSingle (rows : IdempoRows) (tenant : TenantId) (key : String) : Option IdempoDoc :=
  rows.select (recordIdFor idempoTable tenant key) (·.isOf tenant)

/-- `SurrealIdempoStore::delete`. -/
def deleteSolo (rows : IdempoRows) (tenant : TenantId) (key : String) : IdempoRows :=
  rows.delete (recordIdFor idempoTable tenant key)

/-- The end of `check_and_put`: the row is created. -/
def putSolo (rows : IdempoRows) (tenant : TenantId) (key hash : String) (ttlMs : UInt64)
    (builtAt : Int64) : TxResult (Option String) × IdempoRows :=
  let doc := idempoDocFromRecord (buildRecord tenant key hash ttlMs builtAt)
  match rows.create doc.id doc with
  | none => (.error (mapIdempoCreateError (.conflict "record already exists")), rows)
  | some created => (.ok none, created)

/-- `SurrealIdempoStore::check_and_put`, with its two readings of the clock. -/
def checkAndPutSolo (rows : IdempoRows) (tenant : TenantId) (key hash : String)
    (ttlMs : UInt64) (now builtAt : Int64) : TxResult (Option String) × IdempoRows :=
  match selectSingle rows tenant key with
  | none => putSolo rows tenant key hash ttlMs builtAt
  | some doc =>
      match idempoRecordFromDoc doc with
      | .error error => (.error error, rows)
      | .ok record =>
          if doc.ttlMs ≤ elapsedMs now doc.updatedAt then
            putSolo (deleteSolo rows tenant key) tenant key hash ttlMs builtAt
          else if doc.hash ≠ hash then (.error (.conflict "idempotency hash mismatch"), rows)
          else (record.answer, rows)

/-- The row after `IDEMPO_FINISH`. -/
def finishedDoc (resultDigest : String) (now : Int64) (doc : IdempoDoc) : IdempoDoc :=
  { doc with
    status := "Succeeded"
    resultDigest := some resultDigest
    lastError := none
    updatedAt := now }

/-- The row after `IDEMPO_FAIL`. -/
def failedDoc (error : Option String) (now : Int64) (doc : IdempoDoc) : IdempoDoc :=
  { doc with
    status := "Failed"
    lastError := error
    updatedAt := now }

/-- The shape of `finish` and `fail`. What the statement returns is not looked at. -/
def settle (rows : IdempoRows) (tenant : TenantId) (key : String)
    (change : IdempoDoc → IdempoDoc) : TxResult Unit × IdempoRows :=
  (.ok (), (rows.update (recordIdFor idempoTable tenant key) (·.isOf tenant) change).2)

/-- `SurrealIdempoStore::finish`. -/
def finish (rows : IdempoRows) (tenant : TenantId) (key resultDigest : String) (now : Int64) :
    TxResult Unit × IdempoRows :=
  settle rows tenant key (finishedDoc resultDigest now)

/-- `SurrealIdempoStore::fail`. -/
def fail (rows : IdempoRows) (tenant : TenantId) (key : String) (error : Option String)
    (now : Int64) : TxResult Unit × IdempoRows :=
  settle rows tenant key (failedDoc error now)

/-- `SurrealIdempoStore::get`. -/
def get (rows : IdempoRows) (tenant : TenantId) (key : String) :
    TxResult (Option IdempoRecord) :=
  match selectSingle rows tenant key with
  | none => .ok none
  | some doc => (idempoRecordFromDoc doc).map some

section Calls

variable {rows : IdempoRows} {tenant : TenantId} {key : String} {record : IdempoRecord}

theorem selectSingle_of_get_eq_none
    (h : rows.get (recordIdFor idempoTable tenant key) = none) :
    selectSingle rows tenant key = none :=
  Records.select_of_get_eq_none h

/-- The row of a record of the tenant is selected. -/
theorem selectSingle_of_get (htenant : record.tenant = tenant)
    (h : rows.get (recordIdFor idempoTable tenant key) = some (idempoDocFromRecord record)) :
    selectSingle rows tenant key = some (idempoDocFromRecord record) :=
  Records.select_of_get h (by simp [IdempoDoc.isOf, idempoDocFromRecord, htenant])

/-- Where there is no row, one is created. -/
theorem putSolo_of_vacant (hash : String) (ttlMs : UInt64) (builtAt : Int64)
    (h : rows.get (recordIdFor idempoTable tenant key) = none) :
    putSolo rows tenant key hash ttlMs builtAt =
      (.ok none, rows.put (recordIdFor idempoTable tenant key)
        (idempoDocFromRecord (buildRecord tenant key hash ttlMs builtAt))) := by
  unfold putSolo
  simp only
  rw [Records.create_of_get_eq_none (by exact h)]
  rfl

/-- Where there is no row, or only that of a record that has expired, the key is granted and
there is a new row. -/
theorem checkAndPutSolo_of_vacant (hash : String) (ttlMs : UInt64) (builtAt : Int64)
    {now : Int64}
    (h : rows.get (recordIdFor idempoTable tenant key) = none ∨
      ∃ record, record.tenant = tenant ∧
        rows.get (recordIdFor idempoTable tenant key) = some (idempoDocFromRecord record) ∧
          record.ttlMs ≤ elapsedMs now record.updatedAt) :
    ∃ next, checkAndPutSolo rows tenant key hash ttlMs now builtAt = (.ok none, next) ∧
      ∀ id, next.get id =
        if id = recordIdFor idempoTable tenant key then
          some (idempoDocFromRecord (buildRecord tenant key hash ttlMs builtAt))
        else rows.get id := by
  rcases h with hnone | ⟨record, htenant, hget, hexpired⟩
  · refine ⟨_, ?_, fun id => HashMap.get_put _ _ _ _⟩
    simp only [checkAndPutSolo, selectSingle_of_get_eq_none hnone]
    exact putSolo_of_vacant hash ttlMs builtAt hnone
  · have hdeleted : (rows.delete (recordIdFor idempoTable tenant key)).get
        (recordIdFor idempoTable tenant key) = none :=
      (HashMap.get_remove _ _ _).trans (if_pos rfl)
    have hcheck : checkAndPutSolo rows tenant key hash ttlMs now builtAt =
        putSolo (rows.delete (recordIdFor idempoTable tenant key)) tenant key hash ttlMs
          builtAt := by
      simp only [checkAndPutSolo, selectSingle_of_get htenant hget,
        idempoRecordFromDoc_docFromRecord]
      exact if_pos hexpired
    refine ⟨_, hcheck.trans (putSolo_of_vacant hash ttlMs builtAt hdeleted), ?_⟩
    intro id
    rw [HashMap.get_put]
    split
    · rfl
    · exact Records.get_delete_of_ne (by assumption)

/-- A record that has not expired is answered from, and nothing changes. -/
theorem checkAndPutSolo_of_live (hash : String) (ttlMs : UInt64) (builtAt : Int64) {now : Int64}
    (htenant : record.tenant = tenant)
    (hget : rows.get (recordIdFor idempoTable tenant key) = some (idempoDocFromRecord record))
    (hlive : ¬record.ttlMs ≤ elapsedMs now record.updatedAt) :
    checkAndPutSolo rows tenant key hash ttlMs now builtAt =
      (if record.hash ≠ hash then .error (.conflict "idempotency hash mismatch")
        else record.answer, rows) := by
  simp only [checkAndPutSolo, selectSingle_of_get htenant hget,
    idempoRecordFromDoc_docFromRecord]
  have hkept : ¬(idempoDocFromRecord record).ttlMs ≤
      elapsedMs now (idempoDocFromRecord record).updatedAt := hlive
  rw [if_neg hkept]
  change (if record.hash ≠ hash then _ else _) = _
  split <;> rfl

/-- Without a row, `finish` and `fail` say nothing and change nothing. -/
theorem settle_of_get_eq_none {change : IdempoDoc → IdempoDoc}
    (h : rows.get (recordIdFor idempoTable tenant key) = none) :
    settle rows tenant key change = (.ok (), rows) := by
  rw [settle, Records.update_of_select_eq_none (selectSingle_of_get_eq_none h)]

/-- `finish` and `fail` rewrite the row. -/
theorem settle_of_get {change : IdempoDoc → IdempoDoc} (htenant : record.tenant = tenant)
    (h : rows.get (recordIdFor idempoTable tenant key) = some (idempoDocFromRecord record)) :
    settle rows tenant key change =
      (.ok (), rows.put (recordIdFor idempoTable tenant key)
        (change (idempoDocFromRecord record))) := by
  rw [settle, Records.update_of_select (selectSingle_of_get htenant h)]

end Calls

/-- The database is there. -/
def reached (_ : IdempoTable) (choice : QueryChoice) (_ : IdempoQuery) : Bool :=
  choice.outage.isNone

section Solo

variable {table last : IdempoTable} {α : Type}

/-- A query that reaches the database. -/
theorem exec_ask_iff {query : IdempoQuery} {answer : query.Answer} :
    Exec (IdempoTable.answer.restrict reached) (Querying.ask query) table answer last ↔
      ∃ clock, table.clock ≤ clock ∧ (table.atTime clock).perform query = (answer, last) := by
  rw [Querying.ask, exec_perform_iff]
  simp only [Handler.restrict_eq_some_iff, IdempoTable.answer]
  constructor
  · rintro ⟨⟨clock, outage⟩, hreached, hanswer⟩
    cases outage with
    | some msg => cases hreached
    | none =>
        obtain ⟨hclock, hsome⟩ := Option.ite_none_right_eq_some.mp hanswer
        exact ⟨clock, hclock, Option.some.inj hsome⟩
  · rintro ⟨clock, hclock, hperform⟩
    exact ⟨⟨clock, none⟩, rfl, by rw [if_pos hclock, ← hperform]⟩

/-- A query whose error is mapped. -/
theorem exec_mapErr_iff {mapping : StorageError → TxError}
    {program : Program IdempoQuery IdempoQuery.Answer (Except StorageError α)}
    {result : TxResult α} {H : Handler IdempoQuery IdempoQuery.Answer QueryChoice IdempoTable} :
    Exec H (Querying.mapErr mapping program).run table result last ↔
      ∃ answer, Exec H program table answer last ∧ result = answer.mapError mapping := by
  change Exec H (program >>= fun answer => pure (answer.mapError mapping)) _ _ _ ↔ _
  rw [exec_bind_iff]
  constructor
  · rintro ⟨answer, middle, hprogram, hpure⟩
    obtain ⟨rfl, rfl⟩ := exec_done_iff.mp hpure
    exact ⟨answer, hprogram, rfl⟩
  · rintro ⟨answer, hprogram, rfl⟩
    exact ⟨answer, last, hprogram, .done _ _⟩

theorem exec_fetch_iff {tenant : TenantId} {key : String}
    {result : TxResult (Option IdempoDoc)} :
    Exec (IdempoTable.answer.restrict reached) (fetch tenant key).run table result last ↔
      ∃ clock, table.clock ≤ clock ∧ last = table.atTime clock ∧
        result = .ok (selectSingle table.rows tenant key) := by
  rw [fetch, exec_mapErr_iff]
  constructor
  · rintro ⟨answer, hask, rfl⟩
    obtain ⟨clock, hclock, hperform⟩ := exec_ask_iff.mp hask
    cases hperform
    exact ⟨clock, hclock, rfl, rfl⟩
  · rintro ⟨clock, hclock, rfl, rfl⟩
    exact ⟨_, exec_ask_iff.mpr ⟨clock, hclock, rfl⟩, rfl⟩

/-- The rows after the end of `check_and_put`, run alone, are those of one step. -/
theorem putSolo_of_exec {tenant : TenantId} {key hash : String} {ttlMs : UInt64}
    {result : TxResult (Option String)}
    (h : Exec (IdempoTable.answer.restrict reached) (put tenant key hash ttlMs).run table result
      last) :
    ∃ builtAt, table.clock ≤ builtAt ∧
      putSolo table.rows tenant key hash ttlMs builtAt = (result, last.rows) := by
  obtain ⟨builtAt, middle, hread, hrest⟩ := exec_lift_bind_iff.mp h
  obtain ⟨clock, hclock, hreading⟩ := exec_ask_iff.mp hread
  cases hreading
  refine ⟨clock, hclock, ?_⟩
  unfold putSolo Records.create
  rcases exec_fallible_bind_iff.mp hrest with
    ⟨error, hcreate, rfl⟩ | ⟨_, after, hcreate, hreturn⟩
  · obtain ⟨answer, hask, hanswer⟩ := exec_mapErr_iff.mp hcreate
    obtain ⟨later, _, hperform⟩ := exec_ask_iff.mp hask
    simp only [IdempoTable.perform, IdempoTable.atTime] at hperform
    split at hperform
    case h_1 doc hget =>
      cases hperform
      cases hanswer
      simp only [hget]
    case h_2 =>
      cases hperform
      cases hanswer
  · obtain ⟨rfl, rfl⟩ := exec_done_iff.mp hreturn
    obtain ⟨answer, hask, hanswer⟩ := exec_mapErr_iff.mp hcreate
    obtain ⟨later, _, hperform⟩ := exec_ask_iff.mp hask
    simp only [IdempoTable.perform, IdempoTable.atTime] at hperform
    split at hperform
    case h_1 =>
      cases hperform
      cases hanswer
    case h_2 hget =>
      cases hperform
      simp only [hget]

/-- `check_and_put`, run alone, is one step at two readings of the clock. -/
theorem solo_of_exec {tenant : TenantId} {key hash : String} {ttlMs : UInt64}
    {result : TxResult (Option String)}
    (h : Exec (IdempoTable.answer.restrict reached) (checkAndPut tenant key hash ttlMs).run table
      result last) :
    ∃ now builtAt, table.clock ≤ now ∧ now ≤ builtAt ∧
      checkAndPutSolo table.rows tenant key hash ttlMs now builtAt = (result, last.rows) := by
  rcases exec_fallible_bind_iff.mp h with ⟨error, hfetch, _⟩ | ⟨found, middle, hfetch, hrest⟩
  · obtain ⟨_, _, _, herror⟩ := exec_fetch_iff.mp hfetch
    cases herror
  obtain ⟨selectedAt, hselectedAt, rfl, hfound⟩ := exec_fetch_iff.mp hfetch
  cases hfound
  unfold checkAndPutSolo
  cases hselect : selectSingle table.rows tenant key with
  | none =>
      rw [hselect] at hrest
      obtain ⟨builtAt, hbuiltAt, hput⟩ := putSolo_of_exec hrest
      exact ⟨selectedAt, builtAt, hselectedAt, hbuiltAt, hput⟩
  | some doc =>
      rw [hselect] at hrest
      rcases exec_fallible_bind_iff.mp hrest with
        ⟨error, hdecode, rfl⟩ | ⟨record, decoded, hdecode, hrest⟩
      · obtain ⟨hrecord, rfl⟩ := exec_done_iff.mp hdecode
        exact ⟨selectedAt, selectedAt, hselectedAt, Int64.le_refl _, by simp only [← hrecord]; rfl⟩
      obtain ⟨hrecord, rfl⟩ := exec_done_iff.mp hdecode
      obtain ⟨now, read, hread, hrest⟩ := exec_lift_bind_iff.mp hrest
      obtain ⟨clock, hclock, hreading⟩ := exec_ask_iff.mp hread
      cases hreading
      have hnow : table.clock ≤ clock := Int64.le_trans hselectedAt hclock
      simp only [← hrecord]
      split at hrest
      case isTrue hexpired =>
        rcases exec_fallible_bind_iff.mp hrest with ⟨error, hdelete, _⟩ | ⟨_, after, hdelete, hput⟩
        · obtain ⟨answer, hask, hanswer⟩ := exec_mapErr_iff.mp hdelete
          obtain ⟨_, _, hperform⟩ := exec_ask_iff.mp hask
          cases hperform
          cases hanswer
        · obtain ⟨answer, hask, _⟩ := exec_mapErr_iff.mp hdelete
          obtain ⟨deletedAt, hdeletedAt, hperform⟩ := exec_ask_iff.mp hask
          cases hperform
          obtain ⟨builtAt, hbuiltAt, hsolo⟩ := putSolo_of_exec hput
          refine ⟨clock, builtAt, hnow, Int64.le_trans hdeletedAt hbuiltAt, ?_⟩
          rw [← hsolo]
          exact if_pos hexpired
      case isFalse hlive =>
        refine ⟨clock, clock, hnow, Int64.le_refl _, ?_⟩
        have hkept : ¬doc.ttlMs ≤ elapsedMs clock doc.updatedAt := hlive
        rw [if_neg hkept]
        split at hrest
        case isTrue hhash =>
          obtain ⟨rfl, rfl⟩ := exec_done_iff.mp hrest
          rw [if_pos hhash]
          rfl
        case isFalse hhash =>
          obtain ⟨rfl, rfl⟩ := exec_done_iff.mp hrest
          rw [if_neg hhash]
          rfl

end Solo

end SurrealIdempoStore

end Soulbase.Tx
