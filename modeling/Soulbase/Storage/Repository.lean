/-
# The in-memory repository

`InMemoryRepository` keeps the documents of a table under their ids. Every call checks the
`tenant` field of the document that it finds, and `upsert` then writes the fields of a patch
over those of the document, whatever they are.
-/

import Soulbase.Foundation.Program
import Soulbase.Foundation.Records
import Soulbase.Json
import Soulbase.Storage

namespace Soulbase.Storage

open Soulbase.Foundation

/-- `Entity`, with its implementations of `Serialize` and `DeserializeOwned`. -/
structure Entity (T : Type) where
  id : T → String
  toValue : T → Except String Json.Value
  fromValue : Json.Value → Except String T

/-- `serde_json::to_value`, and `map_err` of its error. -/
def Entity.serialize {T : Type} (entity : Entity T) (doc : T) : StorageResult Json.Value :=
  match entity.toValue doc with
  | .ok value => .ok value
  | .error err => .error (.schema ("serialize entity failed: " ++ err))

/-- `serde_json::from_value`, and `map_err` of its error. -/
def Entity.deserialize {T : Type} (entity : Entity T) (value : Json.Value) : StorageResult T :=
  match entity.fromValue value with
  | .ok doc => .ok doc
  | .error err => .error (.schema ("deserialize entity failed: " ++ err))

theorem Entity.deserialize_eq_ok_iff {T : Type} {entity : Entity T} {value : Json.Value} {doc : T} :
    entity.deserialize value = .ok doc ↔ entity.fromValue value = .ok doc := by
  unfold deserialize
  cases entity.fromValue value <;> simp

theorem Entity.serialize_eq_ok_iff {T : Type} {entity : Entity T} {doc : T} {value : Json.Value} :
    entity.serialize doc = .ok value ↔ entity.toValue doc = .ok value := by
  unfold serialize
  cases entity.toValue doc <;> simp

/-- `Page`. -/
structure Page (T : Type) where
  items : List T
  next : Option String

/-- `Sort`, whose name Lean has for universes. -/
structure SortKey where
  field : String
  asc : Bool
  deriving DecidableEq

/-- How documents compare. What `sort_by` makes of documents that `json_cmp` does not order is
not specified, but it only reorders them. -/
structure Comparison where
  /-- `PartialEq` of `Value`. -/
  eq : Json.Value → Json.Value → Bool
  /-- The loop of `select` over the sorts. -/
  sortBy : List SortKey → List Json.Value → List Json.Value
  perm : ∀ sorts documents, (sortBy sorts documents).Perm documents

/-- The documents of a table, by id. -/
abbrev Documents := Records Json.Value

/-- The tables of a `MockDatastore`, by name. -/
abbrev Tables := HashMap String Documents

namespace InMemoryRepository

/-- `ensure_tenant`. -/
def ensureTenant (value : Json.Value) (tenant : TenantId) : StorageResult Unit :=
  match value.get "tenant" with
  | some (.string text) =>
      if text = tenant.asStr then .ok () else .error (.schema "tenant mismatch")
  | _ => .error (.schema "tenant mismatch")

/-- The part of `upsert` about the version. -/
def checkVersion (base : Json.Value) : Option UInt64 → StorageResult Unit
  | none => .ok ()
  | some ver => do
      let current ← okOr (.schema "record missing version field")
        ((base.get "ver").bind Json.Value.asU64)
      if current = ver then .ok () else .error (.conflict "version mismatch")

/-- The document that `upsert` writes. -/
def patched (documents : Documents) (tenant : TenantId) (id : String) (patch : Json.Value)
    (expectedVersion : Option UInt64) : StorageResult Json.Value := do
  let base ← okOr (.notFound "record not found") (documents.get id)
  ensureTenant base tenant
  checkVersion base expectedVersion
  let patchObj ← okOr (.schema "patch must be an object") patch.asObject
  let baseObj ← okOr (.schema "stored record corrupted") base.asObject
  return .object (baseObj.insertAll patchObj)

variable {T : Type} (entity : Entity T)

/-- `InMemoryRepository::get`. -/
def get (documents : Documents) (tenant : TenantId) (id : String) : StorageResult (Option T) :=
  match documents.get id with
  | some value => do
      ensureTenant value tenant
      let doc ← entity.deserialize value
      return some doc
  | none => .ok none

/-- `InMemoryRepository::create`. -/
def create (documents : Documents) (tenant : TenantId) (doc : T) : StorageResult T × Documents :=
  if (documents.get (entity.id doc)).isSome then
    (.error (.conflict "record already exists"), documents)
  else
    match entity.serialize doc with
    | .error err => (.error err, documents)
    | .ok value =>
        match ensureTenant value tenant with
        | .error err => (.error err, documents)
        | .ok () => (entity.deserialize value, documents.put (entity.id doc) value)

/-- `InMemoryRepository::upsert`. -/
def upsert (documents : Documents) (tenant : TenantId) (id : String) (patch : Json.Value)
    (expectedVersion : Option UInt64) : StorageResult T × Documents :=
  match patched documents tenant id patch expectedVersion with
  | .error err => (.error err, documents)
  | .ok value => (entity.deserialize value, documents.put id value)

/-- `InMemoryRepository::delete`. -/
def delete (documents : Documents) (tenant : TenantId) (id : String) :
    StorageResult Unit × Documents :=
  match documents.get id with
  | some existing =>
      match ensureTenant existing tenant with
      | .error err => (.error err, documents)
      | .ok () => (.ok (), documents.delete id)
  | none => (.ok (), documents)

/-- `InMemoryRepository::select`, for an order in which the table yields its documents. -/
def select (comparison : Comparison) (documents : Documents) (order : List String)
    (tenant : TenantId) (filter : Json.Value) (sorts : Option (List SortKey)) (limit : ℕ) :
    StorageResult (Page T) := do
  let filterMap := filter.asObject.getD []
  let items := documents.selectWhere order fun value =>
    (ensureTenant value tenant).isOk &&
      filterMap.all fun entry => comparison.eq ((value.get entry.1).getD .null) entry.2
  let items := match sorts with
    | some sorts => comparison.sortBy sorts items
    | none => items
  let mapped ← (items.take limit).mapM entity.deserialize
  return { items := mapped, next := none }

variable {entity} {documents : Documents} {tenant : TenantId} {id : String} {value : Json.Value}
variable {expectedVersion : Option UInt64} {doc : T}

theorem ensureTenant_eq_ok_iff :
    ensureTenant value tenant = .ok () ↔ value.get "tenant" = some (.string tenant.asStr) := by
  unfold ensureTenant
  split
  case h_1 text htext =>
    rw [htext]
    by_cases h : text = tenant.asStr <;> simp [h]
  case h_2 hother =>
    refine iff_of_false nofun fun h => ?_
    exact hother tenant.asStr h

theorem checkVersion_some_eq_ok_iff {ver : UInt64} :
    checkVersion value (some ver) = .ok () ↔
      (value.get "ver").bind Json.Value.asU64 = some ver := by
  rw [checkVersion, except_do_eq_ok_iff]
  constructor
  · rintro ⟨current, hcurrent, hsame⟩
    rw [okOr_eq_ok_iff] at hcurrent
    rw [hcurrent]
    split at hsame
    case isTrue h => rw [h]
    case isFalse => cases hsame
  · intro h
    exact ⟨ver, okOr_eq_ok_iff.mpr h, if_pos rfl⟩

/-- What `upsert` writes: the entries of an object over those of a document of the tenant that
has the version. -/
theorem patched_eq_ok_iff {patch : Json.Value} :
    patched documents tenant id patch expectedVersion = .ok value ↔
      ∃ (base fields : Json.Map), documents.get id = some (.object base) ∧
        ensureTenant (.object base) tenant = .ok () ∧
        checkVersion (.object base) expectedVersion = .ok () ∧
        patch = .object fields ∧ value = .object (base.insertAll fields) := by
  simp only [patched, except_do_eq_ok_iff, okOr_eq_ok_iff]
  constructor
  · rintro ⟨stored, hget, ⟨⟩, htenant, ⟨⟩, hversion, fields, hfields, base, hbase, hvalue⟩
    cases stored with
    | object entries =>
        cases hbase
        cases patch with
        | object patchEntries =>
            cases hfields
            exact ⟨base, fields, hget, htenant, hversion, rfl, (Except.ok.inj hvalue).symm⟩
        | _ => cases hfields
    | _ => cases hbase
  · rintro ⟨base, fields, hget, htenant, hversion, rfl, rfl⟩
    exact ⟨_, hget, (), htenant, (), hversion, fields, rfl, base, rfl, rfl⟩

/-- All that `create` may do. -/
inductive Creates (entity : Entity T) (documents : Documents) (tenant : TenantId) (doc : T) :
    StorageResult T × Documents → Prop
  | refused (err : StorageError) : Creates entity documents tenant doc (.error err, documents)
  | stored {value : Json.Value} (hfree : documents.get (entity.id doc) = none)
      (hvalue : entity.toValue doc = .ok value) (htenant : ensureTenant value tenant = .ok ()) :
      Creates entity documents tenant doc
        (entity.deserialize value, documents.put (entity.id doc) value)

theorem creates (entity : Entity T) (documents : Documents) (tenant : TenantId) (doc : T) :
    Creates entity documents tenant doc (create entity documents tenant doc) := by
  unfold create
  split
  case isTrue => exact .refused _
  case isFalse hfree =>
    split
    case h_1 => exact .refused _
    case h_2 value hvalue =>
      split
      case h_1 => exact .refused _
      case h_2 htenant =>
        exact .stored (Option.not_isSome_iff_eq_none.mp hfree)
          (Entity.serialize_eq_ok_iff.mp hvalue) htenant

/-- All that `upsert` may do. -/
inductive Upserts (entity : Entity T) (documents : Documents) (tenant : TenantId) (id : String)
    (patch : Json.Value) (expectedVersion : Option UInt64) : StorageResult T × Documents → Prop
  | refused (err : StorageError) :
      Upserts entity documents tenant id patch expectedVersion (.error err, documents)
  | merged {base fields : Json.Map} (hget : documents.get id = some (.object base))
      (htenant : ensureTenant (.object base) tenant = .ok ())
      (hversion : checkVersion (.object base) expectedVersion = .ok ())
      (hpatch : patch = .object fields) :
      Upserts entity documents tenant id patch expectedVersion
        (entity.deserialize (.object (base.insertAll fields)),
          documents.put id (.object (base.insertAll fields)))

theorem upserts (entity : Entity T) (documents : Documents) (tenant : TenantId) (id : String)
    (patch : Json.Value) (expectedVersion : Option UInt64) :
    Upserts entity documents tenant id patch expectedVersion
      (upsert entity documents tenant id patch expectedVersion) := by
  unfold upsert
  split
  case h_1 => exact .refused _
  case h_2 value hvalue =>
    obtain ⟨base, fields, hget, htenant, hversion, hpatch, rfl⟩ := patched_eq_ok_iff.mp hvalue
    exact .merged hget htenant hversion hpatch

/-- All that `delete` may do. -/
inductive Deletes (documents : Documents) (tenant : TenantId) (id : String) :
    StorageResult Unit × Documents → Prop
  | absent (hget : documents.get id = none) : Deletes documents tenant id (.ok (), documents)
  | refused (err : StorageError) : Deletes documents tenant id (.error err, documents)
  | removed {value : Json.Value} (hget : documents.get id = some value)
      (htenant : ensureTenant value tenant = .ok ()) :
      Deletes documents tenant id (.ok (), documents.delete id)

theorem deletes (documents : Documents) (tenant : TenantId) (id : String) :
    Deletes documents tenant id (delete documents tenant id) := by
  unfold delete
  split
  case h_1 existing hget =>
    split
    case h_1 => exact .refused _
    case h_2 htenant => exact .removed hget htenant
  case h_2 hget => exact .absent hget

/-- A document that `get` returns is of the tenant. -/
theorem get_eq_ok_some_iff :
    get entity documents tenant id = .ok (some doc) ↔
      ∃ value, documents.get id = some value ∧ ensureTenant value tenant = .ok () ∧
        entity.fromValue value = .ok doc := by
  unfold get
  cases documents.get id with
  | none => simp
  | some value =>
      simp only [except_do_eq_ok_iff, Entity.deserialize_eq_ok_iff]
      constructor
      · rintro ⟨⟨⟩, htenant, found, hfound, hdoc⟩
        cases hdoc
        exact ⟨value, rfl, htenant, hfound⟩
      · rintro ⟨_, ⟨⟩, htenant, hdoc⟩
        exact ⟨(), htenant, doc, hdoc, rfl⟩

/-- So are the documents that `select` returns. -/
theorem mem_select_items {comparison : Comparison} {order : List String} {filter : Json.Value}
    {sorts : Option (List SortKey)} {limit : ℕ} {page : Page T}
    (h : select entity comparison documents order tenant filter sorts limit = .ok page)
    (hdoc : doc ∈ page.items) :
    ∃ id value, documents.get id = some value ∧ ensureTenant value tenant = .ok () ∧
      entity.fromValue value = .ok doc := by
  obtain ⟨mapped, hmapped, hpage⟩ := except_bind_eq_ok_iff.mp h
  cases hpage
  obtain ⟨value, hvalue, hread⟩ := mem_of_mapM_eq_ok hmapped hdoc
  have hselected := List.mem_of_mem_take hvalue
  have hmem : value ∈ documents.selectWhere order fun value =>
      (ensureTenant value tenant).isOk && (filter.asObject.getD []).all fun entry =>
        comparison.eq ((value.get entry.1).getD .null) entry.2 := by
    cases sorts with
    | none => exact hselected
    | some sorts => exact (comparison.perm sorts _).mem_iff.mp hselected
  obtain ⟨⟨id, _, hget⟩, hmatches⟩ := Records.mem_selectWhere.mp hmem
  rw [Bool.and_eq_true] at hmatches
  refine ⟨id, value, hget, ?_, Entity.deserialize_eq_ok_iff.mp hread⟩
  cases htenant : ensureTenant value tenant with
  | ok _ => rfl
  | error err =>
      rw [htenant] at hmatches
      cases hmatches.1

end InMemoryRepository

end Soulbase.Storage
