/-
# Upserts with an expected version

Several calls of `upsert` on one record expect the same version. Neither repository counts
the version up: a call that succeeds leaves the version that its patch says, and the expected
one where the patch says nothing. So at most one of the calls succeeds only if each of them
leaves the record with another version, or with a tenant that the others are not.
-/

import Soulbase.Foundation.Lockstep
import Soulbase.Storage.TenantWrites

namespace Soulbase.Storage

open Soulbase.Foundation

/-- A call of `upsert` on the record, with an object for a patch. -/
structure GuardedUpsert where
  tenant : TenantId
  patch : Json.Map

namespace GuardedUpsert

/-- The calls of the in-memory repository. -/
def serveInMemory {T : Type} (entity : Entity T) (id : String) (expectedVersion : UInt64) :
    Machine Documents GuardedUpsert fun _ => StorageResult T :=
  fun documents call => InMemoryRepository.upsert entity documents call.tenant id
    (.object call.patch) (some expectedVersion)

/-- The calls of the SurrealDB repository. -/
def serveSurreal {T : Type} (entity : Entity T) (table : SurrealTable) (id : String)
    (expectedVersion : UInt64) : Machine Rows GuardedUpsert fun _ => StorageResult T :=
  fun rows call => SurrealRepository.upsert entity table rows call.tenant id
    (.object call.patch) (some expectedVersion)

/-- However the calls follow each other on whatever table, at most one is answered with a
record by the in-memory repository. -/
def AtMostOneInMemory (expectedVersion : UInt64) (calls : List GuardedUpsert) : Prop :=
  ∀ (T : Type) (entity : Entity T) (documents : Documents) (id : String)
    (order : List GuardedUpsert), order.Perm calls →
      (serveInMemory entity id expectedVersion).countWins (·.isOk) documents order ≤ 1

/-- At most one is by the SurrealDB repository. -/
def AtMostOneSurreal (db : SurrealDb) (expectedVersion : UInt64) (calls : List GuardedUpsert) :
    Prop :=
  ∀ (T : Type) (entity : Entity T) (rules : TableRules) (rows : Rows) (id : String)
    (order : List GuardedUpsert), order.Perm calls →
      (serveSurreal entity ⟨db, rules⟩ id expectedVersion).countWins (·.isOk) rows order ≤ 1

/-- After a call, another does not find a record of its tenant with the version. What a value
makes of a field, and which values are the version, is told. -/
def Shuts (mergeField : Option Json.Value → Json.Value → Json.Value) (isVersion : Json.Value → Bool)
    (call other : GuardedUpsert) : Prop :=
  (∃ value, call.patch.written "ver" = some value ∧
    ∀ old, isVersion old = true → isVersion (mergeField (some old) value) = false) ∨
  (match call.patch.written "tenant" with
    | some value => mergeField (some (.string call.tenant.asStr)) value
    | none => .string call.tenant.asStr) ≠ .string other.tenant.asStr

/-- Neither of two calls can follow the other. -/
def Exclude (mergeField : Option Json.Value → Json.Value → Json.Value)
    (isVersion : Json.Value → Bool)
    (call other : GuardedUpsert) : Prop :=
  Shuts mergeField isVersion call other ∧ Shuts mergeField isVersion other call

/-- In memory a value takes the place of what was there. -/
def ExcludeInMemory (expectedVersion : UInt64) : GuardedUpsert → GuardedUpsert → Prop :=
  Exclude (fun _ value => value) fun value => value.asU64 = some expectedVersion

/-- In SurrealDB it is merged into it. -/
def ExcludeSurreal (db : SurrealDb) (expectedVersion : UInt64) :
    GuardedUpsert → GuardedUpsert → Prop :=
  Exclude db.mergeField (db.isVersion · expectedVersion)

section Shuts

variable {mergeField : Option Json.Value → Json.Value → Json.Value} {isVersion : Json.Value → Bool}
variable {call other : GuardedUpsert}

/-- The fields of a record after a call. -/
def leaves (mergeField : Option Json.Value → Json.Value → Json.Value) (row : Json.Map)
    (call : GuardedUpsert) (field : String) : Option Json.Value :=
  match call.patch.written field with
  | some value => some (mergeField (row.get field) value)
  | none => row.get field

/-- A record of the tenant with the version. -/
structure Open (isVersion : Json.Value → Bool) (tenant : TenantId)
    (field : String → Option Json.Value) : Prop where
  tenant : field "tenant" = some (.string tenant.asStr)
  version : ∃ value, field "ver" = some value ∧ isVersion value = true

/-- A call that shuts another out leaves no record that is open to it. -/
theorem Shuts.not_open {row : Json.Map} (h : Shuts mergeField isVersion call other)
    (hopen : Open isVersion call.tenant row.get) :
    ¬Open isVersion other.tenant (leaves mergeField row call) := by
  rintro ⟨htenant, value, hvalue, hversion⟩
  obtain ⟨old, hold, hexpected⟩ := hopen.version
  rcases h with ⟨written, hwritten, hshut⟩ | hshut
  · simp only [leaves, hwritten, hold] at hvalue
    cases hvalue
    exact absurd (hversion.symm.trans (hshut old hexpected)) nofun
  · refine hshut ?_
    rw [leaves, hopen.tenant] at htenant
    cases hwritten : call.patch.written "tenant" with
    | none =>
        rw [hwritten] at htenant
        exact Option.some.inj htenant
    | some written =>
        rw [hwritten] at htenant
        exact Option.some.inj htenant

/-- A call that does not shut another out leaves some record open to it. -/
theorem exists_open_of_not_shuts {version : Json.Value} (hself : isVersion version = true)
    (h : ¬Shuts mergeField isVersion call other) :
    ∃ row : Json.Map, Open isVersion call.tenant row.get ∧
      Open isVersion other.tenant (leaves mergeField row call) := by
  obtain ⟨hversion, htenant⟩ := not_or.mp h
  rw [not_not] at htenant
  have hold : ∃ old, isVersion old = true ∧
      ∃ value, (call.patch.written "ver").elim (some old) (some <| mergeField (some old) ·) =
        some value ∧ isVersion value = true := by
    cases hwritten : call.patch.written "ver" with
    | none => exact ⟨version, hself, version, rfl, hself⟩
    | some written =>
        by_contra hnone
        refine hversion ⟨written, hwritten, fun old hexpected => ?_⟩
        by_contra hkept
        exact hnone ⟨old, hexpected, _, rfl, eq_true_of_ne_false hkept⟩
  obtain ⟨old, hexpected, value, hvalue, hkept⟩ := hold
  let row : Json.Map := [("tenant", .string call.tenant.asStr), ("ver", old)]
  have hrowTenant : row.get "tenant" = some (.string call.tenant.asStr) := by
    simp [row, Json.Map.get]
  have hrowVersion : row.get "ver" = some old := by simp [row, Json.Map.get]
  refine ⟨row, ⟨hrowTenant, old, hrowVersion, hexpected⟩, ?_, value, ?_, hkept⟩
  · rw [leaves, hrowTenant, ← htenant]
    cases call.patch.written "tenant" <;> rfl
  · rw [leaves, hrowVersion, ← hvalue]
    cases call.patch.written "ver" <;> rfl

end Shuts

section InMemory

variable {T : Type} {entity : Entity T} {id : String} {expectedVersion : UInt64}
variable {documents : Documents} {call other : GuardedUpsert}

/-- There is a document for a call to write. -/
def OpenDocument (id : String) (expectedVersion : UInt64) (documents : Documents)
    (call : GuardedUpsert) : Prop :=
  ∃ base : Json.Map, documents.get id = some (.object base) ∧
    Open (fun value => value.asU64 = some expectedVersion) call.tenant base.get

theorem open_document_iff {tenant : TenantId} {base : Json.Map} :
    Open (fun value => value.asU64 = some expectedVersion) tenant base.get ↔
      InMemoryRepository.ensureTenant (.object base) tenant = .ok () ∧
        InMemoryRepository.checkVersion (.object base) (some expectedVersion) = .ok () := by
  rw [InMemoryRepository.ensureTenant_eq_ok_iff, InMemoryRepository.checkVersion_some_eq_ok_iff,
    Option.bind_eq_some_iff]
  constructor
  · rintro ⟨htenant, value, hvalue, hversion⟩
    exact ⟨htenant, value, hvalue, of_decide_eq_true hversion⟩
  · rintro ⟨htenant, value, hvalue, hversion⟩
    exact ⟨htenant, value, hvalue, decide_eq_true hversion⟩

/-- A call that is refused changes nothing. -/
theorem serveInMemory_of_not_open (entity : Entity T)
    (h : ¬OpenDocument id expectedVersion documents call) :
    ∃ err, serveInMemory entity id expectedVersion documents call = (.error err, documents) := by
  have hupserts := InMemoryRepository.upserts entity documents call.tenant id (.object call.patch)
    (some expectedVersion)
  change ∃ err, InMemoryRepository.upsert _ _ _ _ _ _ = _
  generalize InMemoryRepository.upsert entity documents call.tenant id (.object call.patch)
    (some expectedVersion) = outcome at hupserts ⊢
  cases hupserts with
  | refused err => exact ⟨err, rfl⟩
  | @merged base fields hget htenant hversion hpatch =>
      exact absurd ⟨base, hget, open_document_iff.mpr ⟨htenant, hversion⟩⟩ h

/-- A call that is not writes its patch over the document. -/
theorem serveInMemory_of_open {base : Json.Map} (hget : documents.get id = some (.object base))
    (hopen : Open (fun value => value.asU64 = some expectedVersion) call.tenant base.get) :
    serveInMemory entity id expectedVersion documents call =
      (entity.deserialize (.object (base.insertAll call.patch)),
        documents.put id (.object (base.insertAll call.patch))) := by
  obtain ⟨htenant, hversion⟩ := open_document_iff.mp hopen
  have hpatched := InMemoryRepository.patched_eq_ok_iff.mpr
    ⟨base, call.patch, hget, htenant, hversion, rfl, rfl⟩
  change InMemoryRepository.upsert _ _ _ _ _ _ = _
  unfold InMemoryRepository.upsert
  rw [hpatched]

theorem get_insertAll_eq_leaves (base : Json.Map) (call : GuardedUpsert) :
    (base.insertAll call.patch).get = leaves (fun _ value => value) base call := by
  funext field
  rw [Json.Map.get_insertAll, leaves]
  cases call.patch.written field <;> rfl

theorem atMostOneInMemory_of_pairwise {calls : List GuardedUpsert}
    (h : calls.Pairwise (ExcludeInMemory expectedVersion)) :
    AtMostOneInMemory expectedVersion calls := by
  intro T entity documents id order horder
  have hpairwise : order.Pairwise (ExcludeInMemory expectedVersion) :=
    (horder.pairwise_iff fun hexclude => hexclude.symm).mpr h
  refine Machine.countWins_le_one (OpenDocument id expectedVersion) ?_ ?_ ?_ documents hpairwise
  · intro documents call hwin
    by_contra hshut
    obtain ⟨err, hserve⟩ := serveInMemory_of_not_open entity hshut
    rw [hserve] at hwin
    cases hwin
  · intro documents call hshut
    obtain ⟨err, hserve⟩ := serveInMemory_of_not_open entity hshut
    rw [hserve]
  · rintro documents call other ⟨base, hget, hopen⟩ hexclude ⟨after, hafter, hother⟩
    rw [serveInMemory_of_open hget hopen, HashMap.get_put_self] at hafter
    injection hafter with hafter
    injection hafter with hafter
    subst hafter
    rw [get_insertAll_eq_leaves] at hother
    exact hexclude.1.not_open hopen hother

/-- Documents that are any JSON. -/
def anyDocument : Entity Json.Value where
  id doc := ((doc.get "id").bind Json.Value.asStr).getD ""
  toValue := .ok
  fromValue := .ok

theorem pairwise_of_atMostOneInMemory {calls : List GuardedUpsert}
    (h : AtMostOneInMemory expectedVersion calls) :
    calls.Pairwise (ExcludeInMemory expectedVersion) := by
  refine Machine.pairwise_of_perm fun first second rest hperm => ?_
  by_contra hshut
  have hself : decide ((Json.Value.number (.posInt expectedVersion)).asU64 =
      some expectedVersion) = true := decide_eq_true rfl
  obtain ⟨row, hopen, hleft⟩ := exists_open_of_not_shuts hself hshut
  have hcount := h Json.Value anyDocument (HashMap.put ∅ "" (.object row)) "" _ hperm
  rw [← get_insertAll_eq_leaves] at hleft
  refine absurd (Machine.two_le_countWins ?_ ?_) (Nat.not_le_of_lt (Nat.lt_succ_of_le hcount))
  · rw [serveInMemory_of_open (HashMap.get_put_self _ _ _) hopen]
    rfl
  · rw [serveInMemory_of_open (HashMap.get_put_self _ _ _) hopen,
      serveInMemory_of_open (HashMap.get_put_self _ _ _) hleft]
    rfl

end InMemory

section Surreal

variable {T : Type} {entity : Entity T} {id : String} {expectedVersion : UInt64}
variable {table : SurrealTable} {rows : Rows} {call other : GuardedUpsert} {row : Json.Map}

/-- There is a record for a call to write, and the table takes what it writes. -/
def OpenRow (table : SurrealTable) (id : String) (expectedVersion : UInt64) (rows : Rows)
    (call : GuardedUpsert) : Prop :=
  ∃ row, rows.get id = some row ∧
    Open (table.db.isVersion · expectedVersion) call.tenant row.get ∧
      table.rules id row call.patch = none

theorem open_row_iff {tenant : TenantId} :
    Open (table.db.isVersion · expectedVersion) tenant row.get ↔
      (isOf tenant row && table.db.hasVersion expectedVersion row) = true := by
  rw [Bool.and_eq_true, isOf_iff, SurrealDb.hasVersion, Option.any_eq_true]
  exact ⟨fun h => ⟨h.tenant, h.version⟩, fun h => ⟨h.1, h.2⟩⟩

/-- A call that is not refused merges its patch into the record. -/
theorem serveSurreal_of_open (entity : Entity T) (hget : rows.get id = some row)
    (hopen : Open (table.db.isVersion · expectedVersion) call.tenant row.get)
    (hrules : table.rules id row call.patch = none) :
    serveSurreal entity table id expectedVersion rows call =
      (entity.deserialize (table.db.toJson id (table.db.merged row call.patch)),
        rows.put id (table.db.merged row call.patch)) := by
  have hmerge : table.merge id row (.object call.patch) =
      .ok (table.db.merged row call.patch) := merge_eq_ok_iff.mpr ⟨_, rfl, hrules, rfl⟩
  have hselect : rows.select id (fun row => isOf call.tenant row &&
      table.db.hasVersion expectedVersion row) = some row :=
    Records.select_of_get hget (open_row_iff.mp hopen)
  change SurrealRepository.upsert _ _ _ _ _ _ _ = _
  simp only [SurrealRepository.upsert, SurrealTable.updateMerge, hselect, hmerge]
  rfl

/-- A call that finds no record, or writes what the table does not take, changes nothing. -/
theorem serveSurreal_of_not_open (entity : Entity T)
    (h : ¬OpenRow table id expectedVersion rows call) :
    ∃ err, serveSurreal entity table id expectedVersion rows call = (.error err, rows) := by
  change ∃ err, SurrealRepository.upsert _ _ _ _ _ _ _ = _
  simp only [SurrealRepository.upsert, SurrealTable.updateMerge]
  split
  case h_1 => exact ⟨.notFound "record not found", rfl⟩
  case h_2 row hselect =>
    rw [Records.select, Option.filter_eq_some_iff] at hselect
    split
    case h_1 err _ => exact ⟨mapSurrealError err, rfl⟩
    case h_2 merged hmerge =>
      obtain ⟨fields, hpatch, hrules, _⟩ := merge_eq_ok_iff.mp hmerge
      cases hpatch
      exact absurd ⟨row, hselect.1, open_row_iff.mpr hselect.2, hrules⟩ h

/-- The fields that the calls look at after a merge. -/
theorem open_merged_iff {tenant : TenantId} :
    Open (table.db.isVersion · expectedVersion) tenant (table.db.merged row call.patch).get ↔
      Open (table.db.isVersion · expectedVersion) tenant
        (leaves table.db.mergeField row call) := by
  have hsame : ∀ field ≠ "id",
      (table.db.merged row call.patch).get field = leaves table.db.mergeField row call field := by
    intro field hfield
    rw [get_merged, if_neg hfield]
    rfl
  constructor
  · rintro ⟨htenant, hversion⟩
    rw [hsame "tenant" (by decide)] at htenant
    rw [hsame "ver" (by decide)] at hversion
    exact ⟨htenant, hversion⟩
  · rintro ⟨htenant, hversion⟩
    rw [← hsame "tenant" (by decide)] at htenant
    rw [← hsame "ver" (by decide)] at hversion
    exact ⟨htenant, hversion⟩

theorem atMostOneSurreal_of_pairwise {db : SurrealDb} {calls : List GuardedUpsert}
    (h : calls.Pairwise (ExcludeSurreal db expectedVersion)) :
    AtMostOneSurreal db expectedVersion calls := by
  intro T entity rules rows id order horder
  have hpairwise : order.Pairwise (ExcludeSurreal db expectedVersion) :=
    (horder.pairwise_iff fun hexclude => hexclude.symm).mpr h
  refine Machine.countWins_le_one (OpenRow ⟨db, rules⟩ id expectedVersion) ?_ ?_ ?_ rows hpairwise
  · intro rows call hwin
    by_contra hshut
    obtain ⟨err, hserve⟩ := serveSurreal_of_not_open entity hshut
    rw [hserve] at hwin
    cases hwin
  · intro rows call hshut
    obtain ⟨err, hserve⟩ := serveSurreal_of_not_open entity hshut
    rw [hserve]
  · rintro rows call other ⟨row, hget, hopen, hrules⟩ hexclude ⟨after, hafter, hother, _⟩
    rw [serveSurreal_of_open entity hget hopen hrules, HashMap.get_put_self] at hafter
    obtain rfl := Option.some.inj hafter
    exact hexclude.1.not_open hopen (open_merged_iff.mp hother)

theorem pairwise_of_atMostOneSurreal {db : SurrealDb} {calls : List GuardedUpsert}
    (h : AtMostOneSurreal db expectedVersion calls) :
    calls.Pairwise (ExcludeSurreal db expectedVersion) := by
  refine Machine.pairwise_of_perm fun first second rest hperm => ?_
  by_contra hshut
  obtain ⟨row, hopen, hleft⟩ := exists_open_of_not_shuts (db.isVersion_self expectedVersion) hshut
  have hcount := h Json.Value anyDocument (fun _ _ _ => none) (HashMap.put ∅ "" row) "" _ hperm
  let table : SurrealTable := ⟨db, fun _ _ _ => none⟩
  have hfirst :
      serveSurreal anyDocument table "" expectedVersion (HashMap.put ∅ "" row) first = _ :=
    serveSurreal_of_open anyDocument (HashMap.get_put_self ∅ "" row) hopen rfl
  refine absurd (Machine.two_le_countWins ?_ ?_) (Nat.not_le_of_lt (Nat.lt_succ_of_le hcount))
  · rw [hfirst]
    rfl
  · rw [hfirst, serveSurreal_of_open anyDocument (HashMap.get_put_self _ _ _)
      (open_merged_iff.mpr hleft) rfl]
    rfl

end Surreal

/-- At most one of the calls succeeds, in every order and on every table, if no two of them
leave each other a record of their tenant with the version. -/
theorem atMostOne_iff_pairwise (db : SurrealDb) (expectedVersion : UInt64)
    (calls : List GuardedUpsert) :
    (AtMostOneInMemory expectedVersion calls ↔
      calls.Pairwise (ExcludeInMemory expectedVersion)) ∧
    (AtMostOneSurreal db expectedVersion calls ↔
      calls.Pairwise (ExcludeSurreal db expectedVersion)) :=
  ⟨⟨pairwise_of_atMostOneInMemory, atMostOneInMemory_of_pairwise⟩,
    ⟨pairwise_of_atMostOneSurreal, atMostOneSurreal_of_pairwise⟩⟩

namespace Unversioned

/-- Two writers, who change the title of what they have read. -/
def calls : List GuardedUpsert :=
  [⟨⟨"t1"⟩, [("title", .string "A")]⟩, ⟨⟨"t1"⟩, [("title", .string "B")]⟩]

/-- The record that both have read. -/
def row : Json.Map :=
  [("tenant", .string "t1"), ("title", .string "T"), ("ver", .number (.posInt 1))]

end Unversioned

open Unversioned in
/-- Both succeed, in either repository. -/
theorem not_atMostOne_unversioned :
    ¬AtMostOneInMemory 1 calls ∧ ¬AtMostOneSurreal TakenOver.table.db 1 calls := by
  constructor
  · intro h
    have hcount := h Json.Map GivenAway.entity (HashMap.put ∅ "a" (.object row)) "a" calls (.refl _)
    exact absurd hcount (by decide)
  · intro h
    have hcount := h Json.Map GivenAway.entity TakenOver.table.rules (HashMap.put ∅ "a" row) "a"
      calls (.refl _)
    exact absurd hcount (by decide)

end GuardedUpsert

end Soulbase.Storage
