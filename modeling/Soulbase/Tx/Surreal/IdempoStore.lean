/-
# The SurrealDB idempotency store

`check_and_put` of this store is not one step. It selects the row of a key,
reads the clock, may delete the row, reads the clock again and creates a row,
and other clients may act between any two of these queries. It is a program over
those queries here.

The database is the table of rows. A query is atomic, `CREATE` fails with a
conflict if and only if the id is taken, `DELETE` removes the row if there is
one, and any query may fail to reach the database. The table also keeps a record
of the rows that were created.
-/

import Soulbase.Foundation.FiniteMap
import Soulbase.Foundation.Program
import Soulbase.Tx.Idempo
import Soulbase.Tx.Surreal.Mapper

namespace Soulbase.Tx

open Soulbase.Errors Soulbase.Foundation Soulbase.Storage

/-- `map_idempo_create_error`. -/
def mapIdempoCreateError (error : StorageError) : TxError :=
  if error.toPublic.code = codes.storageConflict.value then .idempoBusy
  else mapStorageError error

/-- What `check_and_put` asks of the database and the clock. -/
inductive IdempoQuery
  /-- `now_ms`. -/
  | nowMs
  /-- `SELECT_SINGLE`. -/
  | selectSingle (id tenant : String)
  /-- `DELETE_RECORD`. -/
  | deleteRecord (id : String)
  /-- `CREATE_RECORD`. -/
  | createRecord (id : String) (data : IdempoDoc)

namespace IdempoQuery

/-- What a query returns. -/
abbrev Answer : IdempoQuery → Type
  | nowMs => Int64
  | selectSingle .. => Except StorageError (Option IdempoDoc)
  | deleteRecord .. => Except StorageError Unit
  | createRecord .. => Except StorageError Unit

/-- Whether a query, answered so, has created a row. -/
def creates : (query : IdempoQuery) → query.Answer → Bool
  | createRecord .., .ok () => true
  | _, _ => false

/-- Whether the database has answered the query with an error. -/
def fails : (query : IdempoQuery) → query.Answer → Bool
  | selectSingle .., .error _ => true
  | deleteRecord .., .error _ => true
  | createRecord .., .error _ => true
  | _, _ => false

theorem creates_of_fails {query : IdempoQuery} {answer : query.Answer}
    (h : query.fails answer = true) : query.creates answer = false := by
  cases query with
  | createRecord _ _ =>
      cases answer with
      | error _ => rfl
      | ok _ => cases h
  | nowMs => rfl
  | selectSingle _ _ => rfl
  | deleteRecord _ => rfl

end IdempoQuery

/-- A computation that makes these queries and stops at the first error. -/
abbrev Querying := ExceptT TxError (Program IdempoQuery IdempoQuery.Answer)

namespace Querying

/-- Make a query and return its answer, which may be an error. -/
def ask (query : IdempoQuery) : Program IdempoQuery IdempoQuery.Answer query.Answer :=
  perform query

/-- End the computation with the mapped error if the database returns one. -/
def mapErr {α : Type} (mapping : StorageError → TxError)
    (program : Program IdempoQuery IdempoQuery.Answer (Except StorageError α)) :
    Querying α :=
  ExceptT.mk (program >>= fun answer => pure (answer.mapError mapping))

end Querying

open Querying

namespace SurrealIdempoStore

/-- `SurrealIdempoStore::fetch`. -/
def fetch (tenant : TenantId) (key : String) : Querying (Option IdempoDoc) :=
  mapErr mapStorageError
    (ask (.selectSingle (recordIdFor idempoTable tenant key) tenant.asStr))

/-- `SurrealIdempoStore::delete`. -/
def delete (tenant : TenantId) (key : String) : Querying Unit :=
  mapErr mapStorageError (ask (.deleteRecord (recordIdFor idempoTable tenant key)))

/-- The end of `check_and_put`, where the caller is granted the key. -/
def put (tenant : TenantId) (key hash : String) (ttlMs : UInt64) :
    Querying (Option String) := do
  let now ← ExceptT.lift (ask .nowMs)
  let doc := idempoDocFromRecord (buildRecord tenant key hash ttlMs now)
  mapErr mapIdempoCreateError (ask (.createRecord doc.id doc))
  return none

/-- `SurrealIdempoStore::check_and_put`. -/
def checkAndPut (tenant : TenantId) (key hash : String) (ttlMs : UInt64) :
    Querying (Option String) := do
  match ← fetch tenant key with
  | none => put tenant key hash ttlMs
  | some doc =>
      let record ← ExceptT.mk (.done (idempoRecordFromDoc doc))
      let now ← ExceptT.lift (ask .nowMs)
      if doc.ttlMs ≤ elapsedMs now doc.updatedAt then
        delete tenant key
        put tenant key hash ttlMs
      else if doc.hash ≠ hash then
        throw (.conflict "idempotency hash mismatch")
      else
        ExceptT.mk (.done record.answer)

end SurrealIdempoStore

/-- The table `tx_idempo`, the clock of its clients, and the rows created so
far, the newest first. -/
structure IdempoTable where
  rows : HashMap String IdempoDoc
  clock : Int64
  created : List IdempoDoc

/-- What the environment decides about a query: when it happens, and the message
of the transport if the database cannot be reached. -/
structure QueryChoice where
  clock : Int64
  outage : Option String

namespace IdempoTable

/-- Time has passed. -/
def atTime (table : IdempoTable) (clock : Int64) : IdempoTable := { table with clock := clock }

/-- The effect and the answer of a query that reaches the database. -/
def perform (table : IdempoTable) : (query : IdempoQuery) → query.Answer × IdempoTable
  | .nowMs => (table.clock, table)
  | .selectSingle id tenant =>
      (.ok ((table.rows.get id).filter fun doc => doc.tenant = tenant), table)
  | .deleteRecord id => (.ok (), { table with rows := table.rows.remove id })
  | .createRecord id data =>
      match table.rows.get id with
      | some _ => (.error (.conflict "record already exists"), table)
      | none =>
          (.ok (), { table with
                     rows := table.rows.put id data
                     created := data :: table.created })

/-- The answer of a query that does not reach the database. Reading the clock is
not one. -/
def refuse (msg : String) : (query : IdempoQuery) → Option query.Answer
  | .nowMs => none
  | .selectSingle .. => some (.error (.providerUnavailable msg))
  | .deleteRecord .. => some (.error (.providerUnavailable msg))
  | .createRecord .. => some (.error (.providerUnavailable msg))

/-- A query at a time that the clock has reached. -/
def answer : Handler IdempoQuery IdempoQuery.Answer QueryChoice IdempoTable :=
  fun table choice query =>
    if table.clock ≤ choice.clock then
      match choice.outage with
      | none => some ((table.atTime choice.clock).perform query)
      | some msg => (refuse msg query).map fun answer => (answer, table.atTime choice.clock)
    else none

/-- All that a query can do to the table: a failed query and a reading change
nothing, a row is removed, or a row is created where there was none. -/
inductive Effect (table : IdempoTable) : (query : IdempoQuery) → query.Answer → IdempoTable → Prop
  | failed {query : IdempoQuery} {answer : query.Answer} :
      query.fails answer = true → Effect table query answer table
  | read : Effect table .nowMs table.clock table
  | selected (id tenant : String) (found : Option IdempoDoc) :
      (∀ doc, found = some doc → table.rows.get id = some doc) →
        Effect table (.selectSingle id tenant) (.ok found) table
  | deleted (id : String) :
      Effect table (.deleteRecord id) (.ok ()) { table with rows := table.rows.remove id }
  | created (id : String) (data : IdempoDoc) : table.rows.get id = none →
      Effect table (.createRecord id data) (.ok ())
        { table with
          rows := table.rows.put id data
          created := data :: table.created }

theorem effect_perform (table : IdempoTable) (query : IdempoQuery) :
    Effect table query (table.perform query).1 (table.perform query).2 := by
  cases query with
  | nowMs => exact .read
  | selectSingle id tenant =>
      apply Effect.selected
      intro doc hdoc
      exact (Option.filter_eq_some_iff.mp hdoc).1
  | deleteRecord id => exact .deleted id
  | createRecord id data =>
      rw [perform]
      split
      · exact .failed rfl
      · exact .created id data (by assumption)

theorem fails_of_refuse {msg : String} {query : IdempoQuery} {answer : query.Answer}
    (h : refuse msg query = some answer) : query.fails answer = true := by
  cases query <;> cases h <;> rfl

/-- A query happens at a time not before the last one, and has one of these
effects. -/
theorem effect_of_answer {table next : IdempoTable} {choice : QueryChoice}
    {query : IdempoQuery} {answer : query.Answer}
    (h : IdempoTable.answer table choice query = some (answer, next)) :
    table.clock ≤ choice.clock ∧ Effect (table.atTime choice.clock) query answer next := by
  unfold IdempoTable.answer at h
  split at h
  case isFalse => cases h
  case isTrue hclock =>
    apply And.intro hclock
    cases houtage : choice.outage with
    | none =>
        rw [houtage] at h
        have heffect := effect_perform (table.atTime choice.clock) query
        rw [Option.some.inj h] at heffect
        exact heffect
    | some msg =>
        rw [houtage] at h
        obtain ⟨refused, hrefused, heq⟩ := Option.map_eq_some_iff.mp h
        cases heq
        exact .failed (fails_of_refuse hrefused)

end IdempoTable

end Soulbase.Tx
