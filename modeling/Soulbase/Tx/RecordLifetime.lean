/-
# The lifetime of a record

Both stores compare the time since a record was written with its time to live. The time is a
difference of `i64` readings that saturates and is then read as `u64`: a clock that has been set
back makes it huge, and it is never more than `i64::MAX`. The in-memory store replaces a record
that is older than its time to live, the other one also a record of exactly that age.
-/

import Mathlib.Algebra.Ring.Int.Defs
import Soulbase.Tx.Memory.IdempoStore
import Soulbase.Tx.Surreal.IdempoSolo

namespace Soulbase.Tx

open Soulbase.Foundation

/-- The same record is stored under a key in both stores. -/
structure StoredUnder (store : InMemoryIdempoStore) (rows : IdempoRows) (tenant : TenantId)
    (key : String) (record : IdempoRecord) : Prop where
  tenant_eq : record.tenant = tenant
  find_eq : store.find (idempoKey tenant key) = some record
  get_eq : rows.get (recordIdFor idempoTable tenant key) = some (idempoDocFromRecord record)

section Calls

variable (store : InMemoryIdempoStore) (rows : IdempoRows) (tenant : TenantId)
variable (key hash : String) (ttlMs : UInt64) (now builtAt : Int64)

/-- `check_and_put` grants the key, and a new record lies under it. -/
def InMemoryIdempoStore.Regrants : Prop :=
  (store.checkAndPut tenant key hash ttlMs now builtAt).1 = .ok none ∧
    (store.checkAndPut tenant key hash ttlMs now builtAt).2.find (idempoKey tenant key) =
      some (buildRecord tenant key hash ttlMs builtAt)

/-- The same of the other store. -/
def SurrealIdempoStore.Regrants : Prop :=
  (checkAndPutSolo rows tenant key hash ttlMs now builtAt).1 = .ok none ∧
    (checkAndPutSolo rows tenant key hash ttlMs now builtAt).2.get
      (recordIdFor idempoTable tenant key) =
        some (idempoDocFromRecord (buildRecord tenant key hash ttlMs builtAt))

end Calls

section Replacing

variable {store : InMemoryIdempoStore} {rows : IdempoRows} {tenant : TenantId}
variable {key hash : String} {ttlMs : UInt64} {now builtAt : Int64} {record : IdempoRecord}

/-- A record that has just been granted is answered as busy. -/
theorem answer_buildRecord :
    (buildRecord tenant key hash ttlMs builtAt).answer = .error .idempoBusy := rfl

/-- An answer from a record is no grant that leaves a new record. -/
theorem ne_buildRecord_of_answer {mismatch : TxError}
    (h : (if record.hash ≠ hash then .error mismatch else record.answer) = .ok none) :
    record ≠ buildRecord tenant key hash ttlMs builtAt := by
  rintro rfl
  rw [if_neg (by exact not_not.mpr rfl), answer_buildRecord] at h
  cases h

theorem InMemoryIdempoStore.regrants_iff
    (hfind : store.find (idempoKey tenant key) = some record) :
    store.Regrants tenant key hash ttlMs now builtAt ↔ record.Outlived now := by
  constructor
  · rintro ⟨hgranted, hnew⟩
    by_contra hlive
    rw [checkAndPut_of_live hfind hlive] at hgranted hnew
    rw [hfind] at hnew
    exact ne_buildRecord_of_answer hgranted (Option.some.inj hnew)
  · intro houtlived
    obtain ⟨next, hcall, hnext⟩ :=
      @checkAndPut_of_vacant store tenant key now hash ttlMs builtAt fun other hother => by
        rw [hfind] at hother
        cases hother
        exact houtlived
    rw [Regrants, hcall]
    exact ⟨rfl, (hnext _).trans (if_pos rfl)⟩

theorem SurrealIdempoStore.regrants_iff (htenant : record.tenant = tenant)
    (hget : rows.get (recordIdFor idempoTable tenant key) =
      some (idempoDocFromRecord record)) :
    SurrealIdempoStore.Regrants rows tenant key hash ttlMs now builtAt ↔
      record.ttlMs ≤ elapsedMs now record.updatedAt := by
  constructor
  · rintro ⟨hgranted, hnew⟩
    by_contra hlive
    rw [checkAndPutSolo_of_live hash ttlMs builtAt htenant hget hlive] at hgranted hnew
    rw [hget] at hnew
    have hdoc := congrArg idempoRecordFromDoc (Option.some.inj hnew)
    rw [idempoRecordFromDoc_docFromRecord, idempoRecordFromDoc_docFromRecord] at hdoc
    exact ne_buildRecord_of_answer hgranted (Except.ok.inj hdoc)
  · intro hexpired
    obtain ⟨next, hcall, hnext⟩ :=
      checkAndPutSolo_of_vacant hash ttlMs builtAt (.inr ⟨record, htenant, hget, hexpired⟩)
    rw [Regrants, hcall]
    exact ⟨rfl, (hnext _).trans (if_pos rfl)⟩

end Replacing

/-- The time since a record was written, as an integer. -/
def IdempoRecord.age (record : IdempoRecord) (now : Int64) : ℤ :=
  now.toInt - record.updatedAt.toInt

/-- A record is replaced only when it is as old as its time to live, and always when older. -/
structure IdempoRecord.LivesOut (record : IdempoRecord) (now : Int64) (replaced : Prop) :
    Prop where
  only : replaced → (record.ttlMs.toNat : ℤ) ≤ record.age now
  always : (record.ttlMs.toNat : ℤ) < record.age now → replaced

/-- The age is read right, or the time to live is on the same side of what is read: when the
clock is behind the record, the time to live is longer than the age read as unsigned, and when
the age is more than `i64::MAX`, it does not lie between the two. -/
structure IdempoRecord.ReadInTime (record : IdempoRecord) (now : Int64) : Prop where
  behind : record.age now < 0 →
    2 ^ 64 + max (record.age now) Int64.minValue.toInt < record.ttlMs.toNat
  ahead : Int64.maxValue.toInt ≤ record.ttlMs.toNat → record.age now ≤ record.ttlMs.toNat

section Age

variable {record : IdempoRecord} {now : Int64}

/-- What the stores take for the age. -/
theorem toNat_elapsedMs :
    ((elapsedMs now record.updatedAt).toNat : ℤ) =
      if record.age now < 0 then 2 ^ 64 + max (record.age now) Int64.minValue.toInt
      else min (record.age now) Int64.maxValue.toInt := by
  unfold elapsedMs IdempoRecord.age
  split
  case isTrue hbehind =>
    exact toNat_saturatingSub_of_lt (Int64.lt_iff_toInt_lt.mpr (Int.lt_of_sub_neg hbehind))
  case isFalse hahead =>
    exact toNat_saturatingSub_of_le (Int64.le_iff_toInt_le.mpr (by omega))

theorem IdempoRecord.outlived_iff :
    record.Outlived now ↔
      (record.ttlMs.toNat : ℤ) < (elapsedMs now record.updatedAt).toNat :=
  UInt64.lt_iff_toNat_lt.trans Int.ofNat_lt.symm

theorem ttlMs_le_iff :
    record.ttlMs ≤ elapsedMs now record.updatedAt ↔
      (record.ttlMs.toNat : ℤ) ≤ (elapsedMs now record.updatedAt).toNat :=
  UInt64.le_iff_toNat_le.trans Int.ofNat_le.symm

end Age

/-- Both stores keep to the lifetime of a record if and only if its age is read in time. -/
theorem livesOut_iff_readInTime (store : InMemoryIdempoStore) (rows : IdempoRows)
    (tenant : TenantId) (key hash : String) (ttlMs : UInt64) (now builtAt : Int64)
    (record : IdempoRecord) (hstored : StoredUnder store rows tenant key record) :
    record.LivesOut now (store.Regrants tenant key hash ttlMs now builtAt) ∧
        record.LivesOut now
          (SurrealIdempoStore.Regrants rows tenant key hash ttlMs now builtAt) ↔
      record.ReadInTime now := by
  rw [InMemoryIdempoStore.regrants_iff hstored.find_eq,
    SurrealIdempoStore.regrants_iff hstored.tenant_eq hstored.get_eq,
    IdempoRecord.outlived_iff, ttlMs_le_iff]
  have hread := @toNat_elapsedMs record now
  have hmin : Int64.minValue.toInt = -2 ^ 63 := rfl
  have hmax : Int64.maxValue.toInt = 2 ^ 63 - 1 := rfl
  generalize ((elapsedMs now record.updatedAt).toNat : ℤ) = read at hread
  have hnonneg : (0 : ℤ) ≤ record.ttlMs.toNat := Int.natCast_nonneg _
  constructor
  · rintro ⟨⟨honly, halways⟩, honly', halways'⟩
    constructor
    · intro hbehind
      rw [if_pos hbehind] at hread
      omega
    · intro hlong
      by_contra hlater
      rw [if_neg (by omega)] at hread
      omega
  · rintro ⟨hbehind, hahead⟩
    refine ⟨⟨?_, ?_⟩, ?_, ?_⟩ <;> intro h <;> split at hread <;> omega

namespace SetBack

/-- A key that was granted at 1000, for a minute. -/
private def granted : IdempoRecord := buildRecord ⟨"acme"⟩ "pay" "h" 60000 1000

private def store : InMemoryIdempoStore :=
  InMemoryIdempoStore.empty.put (idempoKey ⟨"acme"⟩ "pay") granted

private def rows : IdempoRows :=
  HashMap.put ∅ (recordIdFor idempoTable ⟨"acme"⟩ "pay") (idempoDocFromRecord granted)

theorem storedUnder_granted : StoredUnder store rows ⟨"acme"⟩ "pay" granted where
  tenant_eq := rfl
  find_eq := InMemoryIdempoStore.find_put.trans (if_pos rfl)
  get_eq := (HashMap.get_put _ _ _ _).trans (if_pos rfl)

/-- A minute after the grant, both stores keep to its lifetime. -/
theorem livesOut_minute :
    StoredUnder store rows ⟨"acme"⟩ "pay" granted ∧ granted.ReadInTime 61000 ∧
      granted.LivesOut 61000 (store.Regrants ⟨"acme"⟩ "pay" "h" 60000 61000 61000) ∧
        granted.LivesOut 61000
          (SurrealIdempoStore.Regrants rows ⟨"acme"⟩ "pay" "h" 60000 61000 61000) := by
  have hread : granted.ReadInTime 61000 := by constructor <;> decide
  exact ⟨storedUnder_granted, hread, (livesOut_iff_readInTime store rows ⟨"acme"⟩ "pay" "h" 60000
    61000 61000 granted storedUnder_granted).mpr hread⟩

/-- When the clock has been set back by a millisecond, both stores grant the key again. -/
theorem not_livesOut_millisecond :
    StoredUnder store rows ⟨"acme"⟩ "pay" granted ∧
      ¬ granted.LivesOut 999 (store.Regrants ⟨"acme"⟩ "pay" "h" 60000 999 999) ∧
        ¬ granted.LivesOut 999
          (SurrealIdempoStore.Regrants rows ⟨"acme"⟩ "pay" "h" 60000 999 999) := by
  have hearly : ¬ (granted.ttlMs.toNat : ℤ) ≤ granted.age 999 := by decide
  refine ⟨storedUnder_granted, fun h => hearly (h.only ?_), fun h => hearly (h.only ?_)⟩
  · exact (InMemoryIdempoStore.regrants_iff storedUnder_granted.find_eq).mpr (by decide)
  · exact (SurrealIdempoStore.regrants_iff storedUnder_granted.tenant_eq
      storedUnder_granted.get_eq).mpr (by decide)

end SetBack

end Soulbase.Tx
