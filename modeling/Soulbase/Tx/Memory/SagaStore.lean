/-
# The in-memory saga store

A map from saga ids to saga instances. Like the messages of the outbox, every
instance lies under its own id.
-/

import Soulbase.Foundation.FiniteMap
import Soulbase.Tx.Model

namespace Soulbase.Tx

open Soulbase.Foundation

/-- `InMemorySagaStore`. -/
structure InMemorySagaStore where
  /-- The instances. -/
  items : HashMap String SagaInstance
  /-- Every instance lies under its own id. -/
  keyed : ∀ key saga, items.get key = some saga → key = saga.id.asStr

namespace InMemorySagaStore

/-- The store of `Default`. -/
def empty : InMemorySagaStore where
  items := ∅
  keyed := by simp

/-- Write an instance under its id. -/
def put (store : InMemorySagaStore) (saga : SagaInstance) : InMemorySagaStore where
  items := store.items.put saga.id.asStr saga
  keyed := by
    intro key stored h
    rw [HashMap.get_put] at h
    split at h
    case isTrue hkey =>
      cases h
      exact hkey
    case isFalse => exact store.keyed key stored h

/-- `InMemorySagaStore::insert`. -/
def insert (store : InMemorySagaStore) (saga : SagaInstance) :
    TxResult Unit × InMemorySagaStore :=
  match store.items.get saga.id.asStr with
  | some _ => (.error (.conflict "saga already exists"), store)
  | none => (.ok (), store.put saga)

/-- `InMemorySagaStore::load`. -/
def load (store : InMemorySagaStore) (id : Id) : TxResult (Option SagaInstance) :=
  .ok (store.items.get id.asStr)

/-- `InMemorySagaStore::save`. -/
def save (store : InMemorySagaStore) (saga : SagaInstance) :
    TxResult Unit × InMemorySagaStore :=
  match store.items.get saga.id.asStr with
  | none => (.error (.unknown "saga instance missing"), store)
  | some _ => (.ok (), store.put saga)

/-- Saving fails and changes nothing, or replaces the instance. -/
theorem save_cases (store : InMemorySagaStore) (saga : SagaInstance) :
    (∃ error, store.save saga = (.error error, store)) ∨
      store.save saga = (.ok (), store.put saga) := by
  unfold save
  cases store.items.get saga.id.asStr with
  | none => exact .inl ⟨_, rfl⟩
  | some _ => exact .inr rfl

theorem get_put (store : InMemorySagaStore) (saga : SagaInstance) (key : String) :
    (store.put saga).items.get key =
      if key = saga.id.asStr then some saga else store.items.get key :=
  HashMap.get_put _ _ _ _

end InMemorySagaStore

end Soulbase.Tx
