/-
# The SurrealDB dead-letter store

The calls of the store with one client, over the rows of `tx_dead_letter`. A letter is
written with `UPDATE … CONTENT`, which replaces the row of an id and never makes one, and
`push` does not look at what it returns. No other call makes a row either, so a table that
starts empty stays empty.
-/

import Mathlib.Data.List.Sort
import Soulbase.Foundation.Records
import Soulbase.Tx.Surreal.Mapper

namespace Soulbase.Tx

open Soulbase.Foundation

/-- The rows of `tx_dead_letter`. -/
abbrev DeadRows := Records DeadLetterDoc

namespace DeadLetterDoc

/-- The condition `tenant = $tenant`. -/
def isOf (tenant : TenantId) (doc : DeadLetterDoc) : Bool := doc.tenant = tenant.asStr

/-- The condition of the statements that go by reference, which says nothing about the
tenant. -/
def refersTo (reference : DeadLetterRef) (doc : DeadLetterDoc) : Bool :=
  doc.referenceKind = deadKindToStr reference.kind && doc.referenceId = reference.id.asStr

/-- The condition of `LIST_DEAD`. Where no kind is asked for, `$kind` is `NULL`: that is
not `NONE`, and no kind of a row is equal to it. -/
def isListed (tenant : TenantId) (kind : Option DeadKind) (doc : DeadLetterDoc) : Bool :=
  doc.isOf tenant && kind.any fun kind => doc.referenceKind = deadKindToStr kind

/-- The condition of `PURGE_DEAD`. -/
def isExpired (tenant : TenantId) (beforeEpochMs : Int64) (doc : DeadLetterDoc) : Bool :=
  doc.isOf tenant && doc.occurredAt < beforeEpochMs

/-- `ORDER BY occurred_at DESC`. -/
def ComesBefore (doc other : DeadLetterDoc) : Prop := other.occurredAt ≤ doc.occurredAt

instance : DecidableRel ComesBefore := by
  intro doc other
  unfold ComesBefore
  infer_instance

end DeadLetterDoc

namespace SurrealDeadStore

variable (codec : PayloadCodec)

/-- `SurrealDeadStore::push`. -/
def push (rows : DeadRows) (letter : DeadLetter) : TxResult Unit × DeadRows :=
  match deadDocFromLetter codec letter with
  | .error error => (.error error, rows)
  | .ok doc => (.ok (), (rows.replace doc.id doc).2)

/-- `SurrealDeadStore::list`. The table yields its rows in the given order. -/
def list (rows : DeadRows) (tenant : TenantId) (kind : Option DeadKind) (limit : Nat)
    (order : List String) : TxResult (List DeadLetter) :=
  let docs := ((rows.selectWhere order (·.isListed tenant kind)).insertionSort
    DeadLetterDoc.ComesBefore).take limit
  docs.mapM (deadLetterFromDoc codec)

/-- `SurrealDeadStore::get`. -/
def get (rows : DeadRows) (reference : DeadLetterRef) (order : List String) :
    TxResult (Option DeadLetter) :=
  match (rows.selectWhere order (·.refersTo reference)).head? with
  | none => .ok none
  | some doc => (deadLetterFromDoc codec doc).map some

/-- `SurrealDeadStore::remove`. -/
def remove (rows : DeadRows) (reference : DeadLetterRef) : TxResult Unit × DeadRows :=
  (.ok (), rows.deleteWhere (·.refersTo reference))

/-- `SurrealDeadStore::purge_older_than`. -/
def purgeOlderThan (rows : DeadRows) (tenant : TenantId) (beforeEpochMs : Int64) :
    TxResult Unit × DeadRows :=
  (.ok (), rows.deleteWhere (·.isExpired tenant beforeEpochMs))

variable {codec} {rows : DeadRows}

/-- Nothing is listed. -/
theorem list_of_vacant (h : rows.Vacant) (tenant : TenantId) (kind : Option DeadKind)
    (limit : Nat) (order : List String) : list codec rows tenant kind limit order = .ok [] := by
  unfold list
  rw [h.selectWhere]
  simp
  rfl

/-- Nothing is found. -/
theorem get_of_vacant (h : rows.Vacant) (reference : DeadLetterRef) (order : List String) :
    get codec rows reference order = .ok none := by
  unfold get
  rw [h.selectWhere]
  rfl

/-- Pushing a letter leaves the table empty. -/
theorem push_of_vacant (h : rows.Vacant) (letter : DeadLetter) :
    (push codec rows letter).2.Vacant := by
  unfold push
  cases deadDocFromLetter codec letter with
  | error error => exact h
  | ok doc => exact h.update

end SurrealDeadStore

end Soulbase.Tx
