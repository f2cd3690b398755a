/-
# The SurrealDB saga store

The calls of the store with one client, over the rows of `tx_saga`. An instance is inserted
with `CREATE` and saved with `UPDATE … CONTENT`, both by its id; it is loaded by its saga id,
whichever tenant it is of.
-/

import Soulbase.Foundation.Records
import Soulbase.Tx.Surreal.Mapper

namespace Soulbase.Tx

open Soulbase.Foundation Soulbase.Storage

/-- The rows of `tx_saga`. -/
abbrev SagaRows := Records SagaDoc

namespace SurrealSagaStore

/-- `SurrealSagaStore::insert`. -/
def insert (rows : SagaRows) (saga : SagaInstance) : TxResult Unit × SagaRows :=
  let doc := sagaDocFromInstance saga
  match rows.create doc.id doc with
  | none => (.error (mapStorageError (.conflict "record already exists")), rows)
  | some created => (.ok (), created)

/-- `SurrealSagaStore::load`. The table yields its rows in the given order. -/
def load (rows : SagaRows) (id : Id) (order : List String) :
    TxResult (Option SagaInstance) :=
  match (rows.selectWhere order fun doc => doc.sagaId = id.asStr).head? with
  | none => .ok none
  | some doc => (sagaInstanceFromDoc doc).map some

/-- `SurrealSagaStore::save`. What the statement returns is not looked at. -/
def save (rows : SagaRows) (saga : SagaInstance) : TxResult Unit × SagaRows :=
  let doc := sagaDocFromInstance saga
  (.ok (), (rows.replace doc.id doc).2)

end SurrealSagaStore

end Soulbase.Tx
