/-
# The SurrealDB repository

Every write of `SurrealRepository` is one statement on the record of an id. `UPDATE` and
`DELETE` have a condition on the tenant of the record; `UPSERT` has none. What the database
makes of the values it is given is a parameter: how it merges a value into a field, which
values it takes for a version, and what the definitions of a table refuse.
-/

import Soulbase.Storage.Repository

namespace Soulbase.Storage

open Soulbase.Foundation

/-- What SurrealDB does with values. -/
structure SurrealDb where
  /-- What a field holds after a value was merged into it. -/
  mergeField : Option Json.Value → Json.Value → Json.Value
  /-- The condition `field = $version`. -/
  isVersion : Json.Value → UInt64 → Bool
  /-- The text of the error for a patch that is no object. -/
  invalidMerge : Json.Value → String
  /-- The text of the error for content that is no object. -/
  invalidContent : Json.Value → String
  /-- The text of the error for an id that there is a record under. -/
  recordExists : String → String
  /-- The record of an id, as it is returned. -/
  toJson : String → Json.Map → Json.Value
  /-- What is not an object takes the place of what was there. -/
  mergeField_of_not_object : ∀ old value, value.asObject = none → mergeField old value = value
  /-- A number equals itself. -/
  isVersion_self : ∀ version, isVersion (.number (.posInt version)) version = true

/-- What the definitions of a table refuse to write to the record of an id, with the error. -/
abbrev TableRules := String → Json.Map → Json.Map → Option String

/-- A table of a database. A record is kept without its id. -/
structure SurrealTable where
  db : SurrealDb
  rules : TableRules

/-- The records of a table. -/
abbrev Rows := Records Json.Map

/-- The condition `tenant = $tenant`. -/
def isOf (tenant : TenantId) (row : Json.Map) : Bool :=
  (row.get "tenant").bind Json.Value.asStr = some tenant.asStr

namespace SurrealDb

variable (db : SurrealDb)

/-- The condition `ver = $expected_ver`. -/
def hasVersion (version : UInt64) (row : Json.Map) : Bool :=
  (row.get "ver").any (db.isVersion · version)

/-- The entries of a patch, merged into what the record has under their names. The id of a
record is not changed by a patch. -/
def merged (row fields : Json.Map) : Json.Map :=
  row.insertAll ((fields.filter (·.1 ≠ "id")).map fun entry =>
    (entry.1, db.mergeField (row.get entry.1) entry.2))

end SurrealDb

namespace SurrealTable

variable (table : SurrealTable)

/-- `MERGE $patch`. -/
def merge (id : String) (row : Json.Map) (patch : Json.Value) : Except String Json.Map :=
  match patch with
  | .object fields =>
      match table.rules id row fields with
      | some err => .error err
      | none => .ok (table.db.merged row fields)
  | _ => .error (table.db.invalidMerge patch)

/-- `CREATE id CONTENT $data RETURN AFTER`. -/
def create (rows : Rows) (id : String) (data : Json.Value) :
    Except String (Option Json.Value) × Rows :=
  match data with
  | .object fields =>
      let row : Json.Map := fields.filter (·.1 ≠ "id")
      match rows.create id row, table.rules id [] fields with
      | none, _ => (.error (table.db.recordExists id), rows)
      | some _, some err => (.error err, rows)
      | some created, none => (.ok (some (table.db.toJson id row)), created)
  | _ => (.error (table.db.invalidContent data), rows)

/-- `UPDATE id MERGE $patch WHERE condition RETURN AFTER`. -/
def updateMerge (rows : Rows) (id : String) (patch : Json.Value) (condition : Json.Map → Bool) :
    Except String (Option Json.Value) × Rows :=
  match rows.select id condition with
  | none => (.ok none, rows)
  | some row =>
      match table.merge id row patch with
      | .error err => (.error err, rows)
      | .ok merged => (.ok (some (table.db.toJson id merged)), rows.put id merged)

/-- `UPSERT id MERGE $patch`. -/
def upsertMerge (rows : Rows) (id : String) (patch : Json.Value) :
    Except String (Option Json.Value) × Rows :=
  match table.merge id ((rows.get id).getD []) patch with
  | .error err => (.error err, rows)
  | .ok merged => (.ok (some (table.db.toJson id merged)), rows.put id merged)

/-- `DELETE id WHERE condition`. -/
def deleteIf (rows : Rows) (id : String) (condition : Json.Map → Bool) : Rows :=
  match rows.select id condition with
  | none => rows
  | some _ => rows.delete id

end SurrealTable

/-- `map_surreal_error`, for the errors that a statement has. -/
def mapSurrealError (err : String) : StorageError := .schema err

namespace SurrealRepository

variable {T : Type} (entity : Entity T) (table : SurrealTable)

/-- What a call makes of the answer of its statement. -/
def takeRecord (missing : StorageError) (answer : Except String (Option Json.Value)) :
    StorageResult T := do
  let raw ← answer.mapError mapSurrealError
  let value ← okOr missing raw
  entity.deserialize value

/-- `SurrealRepository::upsert_returning_none`. It does not look at how the statement ended. -/
def upsertReturningNone (rows : Rows) (_tenant : TenantId) (id : String) (patch : Json.Value) :
    StorageResult Unit × Rows :=
  (.ok (), (table.upsertMerge rows id patch).2)

/-- `SurrealRepository::get`. -/
def get (rows : Rows) (tenant : TenantId) (id : String) : StorageResult (Option T) :=
  match rows.select id (isOf tenant) with
  | some row => (entity.deserialize (table.db.toJson id row)).map some
  | none => .ok none

/-- `SurrealRepository::create`. The statement does not name the tenant. -/
def create (rows : Rows) (_tenant : TenantId) (doc : T) : StorageResult T × Rows :=
  match entity.serialize doc with
  | .error err => (.error err, rows)
  | .ok data =>
      let outcome := table.create rows (entity.id doc) data
      (takeRecord entity (.unknown "failed to create record") outcome.1, outcome.2)

/-- `SurrealRepository::upsert`. -/
def upsert (rows : Rows) (tenant : TenantId) (id : String) (patch : Json.Value)
    (expectedVersion : Option UInt64) : StorageResult T × Rows :=
  match expectedVersion with
  | some ver =>
      let outcome := table.updateMerge rows id patch fun row =>
        isOf tenant row && table.db.hasVersion ver row
      (takeRecord entity (.notFound "record not found") outcome.1, outcome.2)
  | none =>
      let outcome := table.upsertMerge rows id patch
      (takeRecord entity (.unknown "upsert returned no record") outcome.1, outcome.2)

/-- `SurrealRepository::delete`. It does not look at how the statement ended. -/
def delete (rows : Rows) (tenant : TenantId) (id : String) : StorageResult Unit × Rows :=
  (.ok (), SurrealTable.deleteIf rows id (isOf tenant))

end SurrealRepository

section Statements

variable {db : SurrealDb} {table : SurrealTable} {rows : Rows} {id : String}
variable {row fields merged : Json.Map} {patch : Json.Value} {tenant : TenantId}

theorem isOf_iff : isOf tenant row = true ↔ row.get "tenant" = some (.string tenant.asStr) := by
  rw [isOf, decide_eq_true_iff, Option.bind_eq_some_iff]
  constructor
  · rintro ⟨value, hvalue, htext⟩
    cases value with
    | string text =>
        cases htext
        exact hvalue
    | _ => cases htext
  · intro h
    exact ⟨_, h, rfl⟩

/-- What the record has after a merge. -/
theorem get_merged (db : SurrealDb) (row fields : Json.Map) (field : String) :
    (db.merged row fields).get field =
      if field = "id" then row.get field
      else match fields.written field with
        | some value => some (db.mergeField (row.get field) value)
        | none => row.get field := by
  have hwritten : ∀ entries : Json.Map,
      Json.Map.written ((entries.filter (·.1 ≠ "id")).map fun entry =>
        (entry.1, db.mergeField (row.get entry.1) entry.2)) field =
        if field = "id" then none
        else (entries.written field).map (db.mergeField (row.get field)) := by
    intro entries
    induction entries with
    | nil => simp [Json.Map.written]
    | cons entry rest ih =>
        obtain ⟨name, value⟩ := entry
        by_cases hid : name = "id"
        · rw [List.filter_cons_of_neg (by simp [hid]), ih]
          by_cases hfield : field = "id"
          · rw [if_pos hfield, if_pos hfield]
          · rw [if_neg hfield, if_neg hfield, Json.Map.written,
              if_neg fun h => hfield (h.symm.trans hid), Option.or_none]
        · rw [List.filter_cons_of_pos (by simp [hid]), List.map_cons, Json.Map.written, ih]
          by_cases hfield : field = "id"
          · rw [if_pos hfield, if_pos hfield, if_neg fun h => hid (h.trans hfield), Option.or_none]
          · rw [if_neg hfield, if_neg hfield, Json.Map.written]
            by_cases hname : name = field
            · subst hname
              cases Json.Map.written rest name <;> simp
            · rw [if_neg hname, if_neg hname, Option.or_none, Option.or_none]
  rw [SurrealDb.merged, Json.Map.get_insertAll, hwritten]
  by_cases hfield : field = "id"
  · rw [if_pos hfield, if_pos hfield, Option.none_or]
  · rw [if_neg hfield, if_neg hfield]
    cases fields.written field <;> rfl

theorem merge_eq_ok_iff :
    table.merge id row patch = .ok merged ↔
      ∃ fields, patch = .object fields ∧ table.rules id row fields = none ∧
        merged = table.db.merged row fields := by
  unfold SurrealTable.merge
  split
  case h_1 fields =>
    cases hrules : table.rules id row fields with
    | none => simp [hrules, eq_comm]
    | some err => simp [hrules]
  case h_2 hother =>
    refine iff_of_false (by simp) ?_
    rintro ⟨fields, hpatch, _⟩
    exact hother fields hpatch

end Statements

end Soulbase.Storage
