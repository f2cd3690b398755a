/-
# The two idempotency stores

The in-memory store and the SurrealDB store are given the same calls of one tenant, and the
same readings of the clock. They answer alike as long as no `check_and_put` meets a record
whose age is exactly its time to live, which the one still answers from and the other
replaces, and no `finish` or `fail` comes without a record, which the one refuses and the
other ignores.
-/

import Soulbase.Foundation.Lockstep
import Soulbase.Tx.Memory.IdempoStore
import Soulbase.Tx.Surreal.IdempoSolo

namespace Soulbase.Tx

open Soulbase.Foundation

/-- A call of an idempotency store for one tenant, with what it reads of the clock. -/
inductive IdempoCall
  | checkAndPut (key hash : String) (ttlMs : UInt64) (now builtAt : Int64)
  | finish (key resultDigest : String) (now : Int64)
  | fail (key : String) (error : Option String) (now : Int64)
  | get (key : String)

/-- What a call returns. -/
abbrev IdempoCall.Answer : IdempoCall → Type
  | checkAndPut .. => TxResult (Option String)
  | finish .. => TxResult Unit
  | fail .. => TxResult Unit
  | get _ => TxResult (Option IdempoRecord)

/-- The calls of the in-memory store. -/
def InMemoryIdempoStore.serve (tenant : TenantId) :
    Machine InMemoryIdempoStore IdempoCall IdempoCall.Answer
  | store, .checkAndPut key hash ttlMs now builtAt =>
      store.checkAndPut tenant key hash ttlMs now builtAt
  | store, .finish key resultDigest now => store.finish tenant key resultDigest now
  | store, .fail key error now => store.fail tenant key error now
  | store, .get key => (store.get tenant key, store)

/-- The calls of the SurrealDB store. -/
def SurrealIdempoStore.serve (tenant : TenantId) :
    Machine IdempoRows IdempoCall IdempoCall.Answer
  | rows, .checkAndPut key hash ttlMs now builtAt =>
      checkAndPutSolo rows tenant key hash ttlMs now builtAt
  | rows, .finish key resultDigest now => finish rows tenant key resultDigest now
  | rows, .fail key error now => fail rows tenant key error now
  | rows, .get key => (get rows tenant key, rows)

/-- The same value, or the same public code. -/
def SameOutcome {α : Type} : TxResult α → TxResult α → Prop
  | .ok value, .ok other => value = other
  | .error error, .error other => error.asPublic.code = other.asPublic.code
  | .ok _, .error _ | .error _, .ok _ => False

theorem SameOutcome.refl {α : Type} (result : TxResult α) : SameOutcome result result := by
  cases result <;> rfl

/-- The same outcome of a call. -/
def IdempoCall.Same : (call : IdempoCall) → call.Answer → call.Answer → Prop
  | checkAndPut .. => SameOutcome
  | finish .. => SameOutcome
  | fail .. => SameOutcome
  | get _ => SameOutcome

/-- A call that the stores treat alike. -/
def InMemoryIdempoStore.TreatsAlike (store : InMemoryIdempoStore) (tenant : TenantId) :
    IdempoCall → Prop
  | .checkAndPut key _ _ now _ => ∀ record, store.find (idempoKey tenant key) = some record →
      elapsedMs now record.updatedAt ≠ record.ttlMs
  | .finish key _ _ | .fail key _ _ =>
      ∃ record, store.find (idempoKey tenant key) = some record
  | .get _ => True

/-- The record that lies at a key. -/
structure IdempoRecord.LiesAt (record : IdempoRecord) (tenant : TenantId) : Prop where
  tenant_eq : record.tenant = tenant
  /-- A success has a result. -/
  result : record.status = .succeeded → record.resultDigest ≠ none

/-- The rows are those of the records. -/
structure SameRecords (tenant : TenantId) (store : InMemoryIdempoStore) (rows : IdempoRows) :
    Prop where
  rows_eq : ∀ key, rows.get (recordIdFor idempoTable tenant key) =
    (store.find (idempoKey tenant key)).map idempoDocFromRecord
  own : ∀ key record, store.find (idempoKey tenant key) = some record → record.LiesAt tenant

section Steps

variable {tenant : TenantId} {store : InMemoryIdempoStore} {rows : IdempoRows}
variable {key hash : String} {ttlMs : UInt64} {now builtAt : Int64} {record : IdempoRecord}

theorem SameRecords.empty (tenant : TenantId) : SameRecords tenant .empty ∅ where
  rows_eq := by simp
  own := by simp

theorem SameRecords.get_of_find (h : SameRecords tenant store rows)
    (hfind : store.find (idempoKey tenant key) = some record) :
    rows.get (recordIdFor idempoTable tenant key) = some (idempoDocFromRecord record) := by
  rw [h.rows_eq, hfind]
  rfl

theorem SameRecords.get_of_missing (h : SameRecords tenant store rows)
    (hfind : store.find (idempoKey tenant key) = none) :
    rows.get (recordIdFor idempoTable tenant key) = none := by
  rw [h.rows_eq, hfind]
  rfl

/-- Both write one record at the same key. -/
theorem SameRecords.write {next : InMemoryIdempoStore} {nextRows : IdempoRows}
    (h : SameRecords tenant store rows) (hrecord : record.LiesAt tenant)
    (hfind : ∀ mapKey, next.find mapKey =
      if mapKey = idempoKey tenant key then some record else store.find mapKey)
    (hget : ∀ id, nextRows.get id =
      if id = recordIdFor idempoTable tenant key then some (idempoDocFromRecord record)
      else rows.get id) : SameRecords tenant next nextRows where
  rows_eq := by
    intro other
    rw [hget, hfind]
    by_cases hother : other = key
    · rw [hother, if_pos rfl, if_pos rfl]
      rfl
    · rw [if_neg (fun heq => hother (recordIdFor_inj.mp heq)),
        if_neg (fun heq => hother (idempoKey_inj heq).2)]
      exact h.rows_eq other
  own := by
    intro other found hfound
    rw [hfind] at hfound
    split at hfound
    · cases hfound
      exact hrecord
    · exact h.own other found hfound

theorem liesAt_buildRecord : (buildRecord tenant key hash ttlMs builtAt).LiesAt tenant where
  tenant_eq := rfl
  result := nofun

/-- A grant in both. -/
theorem SameRecords.grant (h : SameRecords tenant store rows)
    (hstore : ∀ record, store.find (idempoKey tenant key) = some record → record.Outlived now) :
    SameOutcome (store.checkAndPut tenant key hash ttlMs now builtAt).1
        (SurrealIdempoStore.checkAndPutSolo rows tenant key hash ttlMs now builtAt).1 ∧
      SameRecords tenant (store.checkAndPut tenant key hash ttlMs now builtAt).2
        (SurrealIdempoStore.checkAndPutSolo rows tenant key hash ttlMs now builtAt).2 := by
  have hrows : rows.get (recordIdFor idempoTable tenant key) = none ∨
      ∃ record, record.tenant = tenant ∧
        rows.get (recordIdFor idempoTable tenant key) = some (idempoDocFromRecord record) ∧
          record.ttlMs ≤ elapsedMs now record.updatedAt := by
    cases hfind : store.find (idempoKey tenant key) with
    | none => exact .inl (h.get_of_missing hfind)
    | some record =>
        exact .inr ⟨record, (h.own key record hfind).tenant_eq, h.get_of_find hfind,
          UInt64.le_of_lt (hstore record hfind)⟩
  obtain ⟨next, hcheck, hnext⟩ :=
    InMemoryIdempoStore.checkAndPut_of_vacant hash ttlMs builtAt hstore
  obtain ⟨nextRows, hsolo, hnextRows⟩ :=
    SurrealIdempoStore.checkAndPutSolo_of_vacant hash ttlMs builtAt hrows
  rw [hcheck, hsolo]
  exact ⟨rfl, h.write liesAt_buildRecord hnext hnextRows⟩

/-- Both answer from the record. -/
theorem SameRecords.answer (h : SameRecords tenant store rows)
    (hfind : store.find (idempoKey tenant key) = some record)
    (hlive : ¬record.ttlMs ≤ elapsedMs now record.updatedAt) :
    SameOutcome (store.checkAndPut tenant key hash ttlMs now builtAt).1
        (SurrealIdempoStore.checkAndPutSolo rows tenant key hash ttlMs now builtAt).1 ∧
      SameRecords tenant (store.checkAndPut tenant key hash ttlMs now builtAt).2
        (SurrealIdempoStore.checkAndPutSolo rows tenant key hash ttlMs now builtAt).2 := by
  have hkept : ¬record.Outlived now := fun houtlived => hlive (UInt64.le_of_lt houtlived)
  rw [InMemoryIdempoStore.checkAndPut_of_live hfind hkept,
    SurrealIdempoStore.checkAndPutSolo_of_live hash ttlMs builtAt
      (h.own key record hfind).tenant_eq (h.get_of_find hfind) hlive]
  refine ⟨?_, h⟩
  by_cases hhash : record.hash = hash
  · simp only [hhash, ne_eq, not_true_eq_false, if_false]
    exact .refl _
  · simp only [ne_eq, hhash, not_false_eq_true, if_true]
    rfl

/-- At the very end of its time to live, the record still answers in memory, and the key is
granted by the database. -/
theorem SameRecords.differ_of_expiring (h : SameRecords tenant store rows)
    (hfind : store.find (idempoKey tenant key) = some record)
    (hage : elapsedMs now record.updatedAt = record.ttlMs) :
    ¬SameOutcome (store.checkAndPut tenant key hash ttlMs now builtAt).1
      (SurrealIdempoStore.checkAndPutSolo rows tenant key hash ttlMs now builtAt).1 := by
  have hkept : ¬record.Outlived now := by
    rw [IdempoRecord.Outlived, hage]
    exact UInt64.lt_irrefl _
  obtain ⟨nextRows, hsolo, _⟩ :=
    SurrealIdempoStore.checkAndPutSolo_of_vacant hash ttlMs builtAt (.inr ⟨record,
      (h.own key record hfind).tenant_eq, h.get_of_find hfind, UInt64.le_of_eq hage.symm⟩)
  rw [InMemoryIdempoStore.checkAndPut_of_live hfind hkept, hsolo]
  by_cases hhash : record.hash = hash
  · simp only [hhash, ne_eq, not_true_eq_false, if_false]
    intro hsame
    cases hanswer : record.answer with
    | error error =>
        rw [hanswer] at hsame
        exact hsame
    | ok value =>
        rw [hanswer] at hsame
        cases hsame
        obtain ⟨hsucceeded, hdigest⟩ := IdempoRecord.answer_eq_ok_iff.mp hanswer
        exact (h.own key record hfind).result hsucceeded hdigest
  · simp only [ne_eq, hhash, not_false_eq_true, if_true]
    exact id

/-- Both settle the record. -/
theorem SameRecords.settle (h : SameRecords tenant store rows)
    {update : IdempoRecord → IdempoRecord} {change : IdempoDoc → IdempoDoc}
    (hchange : ∀ record, change (idempoDocFromRecord record) = idempoDocFromRecord (update record))
    (hupdate : ∀ record, record.LiesAt tenant → (update record).LiesAt tenant)
    (hfind : store.find (idempoKey tenant key) = some record) :
    SameOutcome (store.settle tenant key update).1
        (SurrealIdempoStore.settle rows tenant key change).1 ∧
      SameRecords tenant (store.settle tenant key update).2
        (SurrealIdempoStore.settle rows tenant key change).2 := by
  have hown := h.own key record hfind
  rw [InMemoryIdempoStore.settle_of_find hfind,
    SurrealIdempoStore.settle_of_get hown.tenant_eq (h.get_of_find hfind), hchange]
  refine ⟨rfl, h.write (hupdate record hown) ?_ fun id => HashMap.get_put _ _ _ _⟩
  exact fun mapKey => InMemoryIdempoStore.find_put

/-- Without a record, the one fails and the other does not. -/
theorem SameRecords.differ_of_missing (h : SameRecords tenant store rows)
    {update : IdempoRecord → IdempoRecord} {change : IdempoDoc → IdempoDoc}
    (hfind : store.find (idempoKey tenant key) = none) :
    ¬SameOutcome (store.settle tenant key update).1
      (SurrealIdempoStore.settle rows tenant key change).1 := by
  rw [InMemoryIdempoStore.settle_of_missing hfind,
    SurrealIdempoStore.settle_of_get_eq_none (h.get_of_missing hfind)]
  exact id

theorem SameRecords.get (h : SameRecords tenant store rows) :
    SameOutcome (store.get tenant key) (SurrealIdempoStore.get rows tenant key) := by
  unfold InMemoryIdempoStore.get SurrealIdempoStore.get
  cases hfind : store.find (idempoKey tenant key) with
  | none =>
      rw [SurrealIdempoStore.selectSingle_of_get_eq_none (h.get_of_missing hfind)]
      rfl
  | some record =>
      rw [SurrealIdempoStore.selectSingle_of_get (h.own key record hfind).tenant_eq
        (h.get_of_find hfind)]
      simp only [idempoRecordFromDoc_docFromRecord]
      rfl

/-- A call that is treated alike is answered alike, and leaves the same records. -/
theorem SameRecords.step (call : IdempoCall) (h : SameRecords tenant store rows)
    (halike : store.TreatsAlike tenant call) :
    call.Same (InMemoryIdempoStore.serve tenant store call).1
        (SurrealIdempoStore.serve tenant rows call).1 ∧
      SameRecords tenant (InMemoryIdempoStore.serve tenant store call).2
        (SurrealIdempoStore.serve tenant rows call).2 := by
  cases call with
  | checkAndPut key hash ttlMs now builtAt =>
      cases hfind : store.find (idempoKey tenant key) with
      | none => exact h.grant (by simp [hfind])
      | some record =>
          by_cases hexpired : record.ttlMs ≤ elapsedMs now record.updatedAt
          · have houtlived : record.Outlived now :=
              UInt64.lt_of_le_of_ne hexpired fun hage => halike record hfind hage.symm
            apply h.grant
            intro found hfound
            rw [hfind] at hfound
            cases hfound
            exact houtlived
          · exact h.answer hfind hexpired
  | finish key resultDigest now =>
      obtain ⟨record, hfind⟩ := halike
      exact h.settle (fun _ => rfl) (fun _ hown => ⟨hown.tenant_eq, nofun⟩) hfind
  | fail key error now =>
      obtain ⟨record, hfind⟩ := halike
      exact h.settle (fun _ => rfl) (fun _ hown => ⟨hown.tenant_eq, nofun⟩) hfind
  | get key => exact ⟨h.get, h⟩

/-- Any other call is answered differently. -/
theorem SameRecords.differ (call : IdempoCall) (h : SameRecords tenant store rows)
    (halike : ¬store.TreatsAlike tenant call) :
    ¬call.Same (InMemoryIdempoStore.serve tenant store call).1
      (SurrealIdempoStore.serve tenant rows call).1 := by
  cases call with
  | checkAndPut key hash ttlMs now builtAt =>
      simp only [InMemoryIdempoStore.TreatsAlike, not_forall, ne_eq, not_not] at halike
      obtain ⟨record, hfind, hage⟩ := halike
      exact h.differ_of_expiring hfind hage
  | finish key resultDigest now =>
      exact h.differ_of_missing (Option.eq_none_iff_forall_ne_some.mpr (not_exists.mp halike))
  | fail key error now =>
      exact h.differ_of_missing (Option.eq_none_iff_forall_ne_some.mpr (not_exists.mp halike))
  | get key => exact absurd trivial halike

end Steps

/-- New stores answer the calls of a history in the same way. -/
def IdempoStoresAgree (tenant : TenantId) (calls : List IdempoCall) : Prop :=
  Machine.Agree (InMemoryIdempoStore.serve tenant) (SurrealIdempoStore.serve tenant)
    IdempoCall.Same .empty ∅ calls

/-- The stores agree on a history exactly if every call of it is one that they treat
alike. -/
theorem idempoStoresAgree_iff_treatsAlike (tenant : TenantId) (calls : List IdempoCall) :
    IdempoStoresAgree tenant calls ↔
      Machine.Meets (InMemoryIdempoStore.serve tenant) (SurrealIdempoStore.serve tenant)
        (fun store _ call => store.TreatsAlike tenant call) .empty ∅ calls := by
  have hadmits : Machine.Meets (InMemoryIdempoStore.serve tenant) (SurrealIdempoStore.serve tenant)
      (fun _ _ _ => True) .empty ∅ calls := Machine.meets_of_forall (fun _ _ _ => trivial) _ _ _
  refine Machine.agrees_iff_meets (SameRecords tenant) ?hstep ?hdiffer ?hstates hadmits
  case hstep => exact fun _ _ call h _ halike => h.step call halike
  case hdiffer => exact fun _ _ call h _ halike => h.differ call halike
  case hstates => exact .empty tenant

/-- What a call reads of the clock. -/
def IdempoCall.readings : IdempoCall → List Int64
  | checkAndPut _ _ _ now builtAt => [now, builtAt]
  | finish _ _ now | fail _ _ now => [now]
  | get _ => []

/-- A second call for a key that was granted for five milliseconds comes after just five:
the in-memory store is busy, and the database grants the key again. -/
theorem not_idempoStoresAgree_lastMillisecond :
    ¬∀ (tenant : TenantId) (calls : List IdempoCall),
      (calls.flatMap IdempoCall.readings).Pairwise (· ≤ ·) → IdempoStoresAgree tenant calls := by
  intro h
  have hagree := h ⟨"t"⟩ [.checkAndPut "k" "h" 5 0 0, .checkAndPut "k" "h" 5 5 5] (by decide)
  exact hagree.2.1

end Soulbase.Tx
