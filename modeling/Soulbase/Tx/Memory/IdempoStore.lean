/-
# The in-memory idempotency store

A map from a tenant and a key to a record. Each operation runs under one lock
and is one step. `finish` and `fail` take the tenant and the key, and write to
whatever record lies there.
-/

import Soulbase.Foundation.FiniteMap
import Soulbase.Tx.Idempo

namespace Soulbase.Tx

open Soulbase.Foundation

/-- The key of the map. -/
abbrev IdempoKey := String × String

/-- `InMemoryIdempoStore::key`. -/
def idempoKey (tenant : TenantId) (key : String) : IdempoKey := (tenant.asStr, key)

theorem idempoKey_inj {tenant other : TenantId} {key key' : String}
    (h : idempoKey tenant key = idempoKey other key') : tenant = other ∧ key = key' := by
  obtain ⟨htenant, hkey⟩ := Prod.mk.inj h
  exact ⟨TenantId.ext htenant, hkey⟩

/-- `InMemoryIdempoStore`. -/
structure InMemoryIdempoStore where
  /-- The records. -/
  records : HashMap IdempoKey IdempoRecord

/-- The record is older than its time to live. A record of exactly that age is
still answered from. -/
def IdempoRecord.Outlived (record : IdempoRecord) (now : Int64) : Prop :=
  record.ttlMs < elapsedMs now record.updatedAt

instance (record : IdempoRecord) (now : Int64) : Decidable (record.Outlived now) :=
  inferInstanceAs (Decidable (_ < _))

namespace InMemoryIdempoStore

/-- The store of `Default`. -/
def empty : InMemoryIdempoStore where
  records := ∅

/-- The record at a key. -/
def find (store : InMemoryIdempoStore) (mapKey : IdempoKey) : Option IdempoRecord :=
  store.records.get mapKey

/-- Write a record at a key. -/
def put (store : InMemoryIdempoStore) (mapKey : IdempoKey) (record : IdempoRecord) :
    InMemoryIdempoStore where
  records := store.records.put mapKey record

/-- The first `if` of `check_and_put`: an outlived record is dropped. -/
def dropOutlived (store : InMemoryIdempoStore) (mapKey : IdempoKey) (now : Int64) :
    InMemoryIdempoStore :=
  match store.find mapKey with
  | some existing =>
      if existing.Outlived now then { records := store.records.remove mapKey } else store
  | none => store

/-- `InMemoryIdempoStore::check_and_put`, with its two readings of the clock. -/
def checkAndPut (store : InMemoryIdempoStore) (tenant : TenantId) (key hash : String)
    (ttlMs : UInt64) (now builtAt : Int64) : TxResult (Option String) × InMemoryIdempoStore :=
  let store := store.dropOutlived (idempoKey tenant key) now
  match store.find (idempoKey tenant key) with
  | some existing =>
      if existing.hash ≠ hash then
        (.error (.conflict "idempotency key hash mismatch"), store)
      else (existing.answer, store)
  | none =>
      (.ok none,
        store.put (idempoKey tenant key) (buildRecord tenant key hash ttlMs builtAt))

/-- The shape of `finish` and `fail`. -/
def settle (store : InMemoryIdempoStore) (tenant : TenantId) (key : String)
    (update : IdempoRecord → IdempoRecord) : TxResult Unit × InMemoryIdempoStore :=
  match store.find (idempoKey tenant key) with
  | none => (.error (.unknown "idempotency record missing"), store)
  | some existing => (.ok (), store.put (idempoKey tenant key) (update existing))

/-- What `finish` makes of a record. -/
def finished (resultDigest : String) (now : Int64) (record : IdempoRecord) : IdempoRecord :=
  { record with
    status := .succeeded
    resultDigest := some resultDigest
    lastError := none
    updatedAt := now }

/-- What `fail` makes of a record. -/
def failed (error : Option String) (now : Int64) (record : IdempoRecord) : IdempoRecord :=
  { record with
    status := .failed
    lastError := error
    updatedAt := now }

/-- `InMemoryIdempoStore::finish`. -/
def finish (store : InMemoryIdempoStore) (tenant : TenantId) (key resultDigest : String)
    (now : Int64) : TxResult Unit × InMemoryIdempoStore :=
  store.settle tenant key (finished resultDigest now)

/-- `InMemoryIdempoStore::fail`. -/
def fail (store : InMemoryIdempoStore) (tenant : TenantId) (key : String)
    (error : Option String) (now : Int64) : TxResult Unit × InMemoryIdempoStore :=
  store.settle tenant key (failed error now)

/-- `InMemoryIdempoStore::get`. -/
def get (store : InMemoryIdempoStore) (tenant : TenantId) (key : String) :
    TxResult (Option IdempoRecord) :=
  .ok (store.find (idempoKey tenant key))

variable {store : InMemoryIdempoStore} {mapKey other : IdempoKey}
variable {tenant : TenantId} {key hash : String} {ttlMs : UInt64} {now builtAt : Int64}

@[simp]
theorem find_empty : empty.find mapKey = none := HashMap.get_empty _

theorem find_put {record : IdempoRecord} :
    (store.put mapKey record).find other =
      if other = mapKey then some record else store.find other :=
  HashMap.get_put _ _ _ _

/-- Dropping changes only an outlived record. -/
theorem find_dropOutlived_of_ne (h : other ≠ mapKey) :
    (store.dropOutlived mapKey now).find other = store.find other := by
  unfold dropOutlived
  split
  · split
    · exact (HashMap.get_remove _ _ _).trans (if_neg h)
    · rfl
  · rfl

/-- A record that is not outlived is answered from, and nothing changes. -/
theorem checkAndPut_of_live {record : IdempoRecord}
    (hfind : store.find (idempoKey tenant key) = some record)
    (hlive : ¬record.Outlived now) :
    store.checkAndPut tenant key hash ttlMs now builtAt =
      (if record.hash ≠ hash then .error (.conflict "idempotency key hash mismatch")
        else record.answer, store) := by
  have hdrop : store.dropOutlived (idempoKey tenant key) now = store := by
    simp only [dropOutlived, hfind, if_neg hlive]
  unfold checkAndPut
  simp only [hdrop, hfind]
  split <;> rfl

/-- Where there is no record, or only an outlived one, the key is granted and a
new record lies there. -/
theorem checkAndPut_of_vacant (hash : String) (ttlMs : UInt64) (builtAt : Int64)
    (hvacant : ∀ record, store.find (idempoKey tenant key) = some record →
      record.Outlived now) :
    ∃ next, store.checkAndPut tenant key hash ttlMs now builtAt = (.ok none, next) ∧
      ∀ mapKey, next.find mapKey =
        if mapKey = idempoKey tenant key then
          some (buildRecord tenant key hash ttlMs builtAt)
        else store.find mapKey := by
  have hdrop : (store.dropOutlived (idempoKey tenant key) now).find
      (idempoKey tenant key) = none := by
    unfold dropOutlived
    cases hfind : store.find (idempoKey tenant key) with
    | none => exact hfind
    | some record =>
        simp only [if_pos (hvacant record hfind)]
        exact (HashMap.get_remove _ _ _).trans (if_pos rfl)
  refine ⟨_, by simp only [checkAndPut, hdrop]; rfl, ?_⟩
  intro mapKey
  rw [find_put]
  split
  case isTrue => rfl
  case isFalse hne => exact find_dropOutlived_of_ne hne

/-- Either of the two happens. -/
theorem live_or_vacant (store : InMemoryIdempoStore) (mapKey : IdempoKey) (now : Int64) :
    (∃ record, store.find mapKey = some record ∧ ¬record.Outlived now) ∨
      ∀ record, store.find mapKey = some record → record.Outlived now := by
  by_cases h : ∃ record, store.find mapKey = some record ∧ ¬record.Outlived now
  · exact .inl h
  · apply Or.inr
    intro record hfind
    by_contra hlive
    exact h ⟨record, hfind, hlive⟩

/-- `finish` and `fail` rewrite the record at the key. -/
theorem settle_of_find {record : IdempoRecord} {update : IdempoRecord → IdempoRecord}
    (hfind : store.find (idempoKey tenant key) = some record) :
    store.settle tenant key update =
      (.ok (), store.put (idempoKey tenant key) (update record)) := by
  simp only [settle, hfind]

/-- Without a record they fail and change nothing. -/
theorem settle_of_missing {update : IdempoRecord → IdempoRecord}
    (hfind : store.find (idempoKey tenant key) = none) :
    store.settle tenant key update =
      (.error (.unknown "idempotency record missing"), store) := by
  simp only [settle, hfind]

end InMemoryIdempoStore

/-- A record is not outlived before its time to live has passed. -/
theorem IdempoRecord.not_outlived {record : IdempoRecord} {now : Int64}
    (hle : record.updatedAt ≤ now)
    (h : now.toInt - record.updatedAt.toInt ≤ record.ttlMs.toNat) : ¬record.Outlived now := by
  intro houtlived
  have hage := toNat_saturatingSub_le hle
  have htest : record.ttlMs.toNat < (saturatingSub now record.updatedAt).toUInt64.toNat :=
    UInt64.lt_iff_toNat_lt.mp houtlived
  omega

end Soulbase.Tx
