/-
# Failed writes

A call of an in-memory repository on the tables of its datastore, which repositories of other
entities share. A check that fails leaves the tables as they are. But `create` and `upsert` store
the document before they read it back as an entity, so where this last step fails, the error comes
with the document written, and `get` and `select` then fail at it too.
-/

import Soulbase.Storage.RecordOwnership

namespace Soulbase.Storage

open Soulbase.Foundation InMemoryRepository

/-- An entity with its `TABLE`. -/
structure EntityTable (T : Type) where
  entity : Entity T
  table : String

/-- The documents of a table. -/
def Tables.documents (tables : Tables) (table : String) : Documents := (tables.get table).getD ∅

namespace RepoCall

variable {T : Type}

/-- Whether a call only reads. -/
def isRead : RepoCall T → Bool
  | get _ _ | select _ _ _ _ _ _ => true
  | create _ _ | upsert _ _ _ _ | delete _ _ => false

/-- A call of the repository of an entity. Where the table is not there, `create` and `upsert` make
it, and the others answer without it. -/
def serve (kept : EntityTable T) (call : RepoCall T) (tables : Tables) :
    StorageResult (List T) × Tables :=
  match tables.get kept.table with
  | some documents =>
      let outcome := call.apply kept.entity documents
      (outcome.1, tables.put kept.table outcome.2)
  | none =>
      match call with
      | create _ _ | upsert _ _ _ _ =>
          let outcome := call.apply kept.entity ∅
          (outcome.1, tables.put kept.table outcome.2)
      | get _ _ | delete _ _ | select _ _ _ _ _ _ => (.ok [], tables)

end RepoCall

/-- The same documents under the same ids. -/
def SameDocuments (documents others : Documents) : Prop := ∀ id, documents.get id = others.get id

/-- A call that fails leaves every document as it is, and every read that succeeded succeeds. -/
structure Unharmed {T : Type} (kept : EntityTable T) (call : RepoCall T) (tables : Tables) :
    Prop where
  same : ∀ err, (call.serve kept tables).1 = .error err →
    ∀ table, SameDocuments ((call.serve kept tables).2.documents table) (tables.documents table)
  reads : ∀ err, (call.serve kept tables).1 = .error err →
    ∀ (U : Type) (other : EntityTable U) (read : RepoCall U), read.isRead →
      ∀ found, (read.serve other tables).1 = .ok found →
        ∃ foundAfter, (read.serve other (call.serve kept tables).2).1 = .ok foundAfter

/-- What `create` or `upsert` would store, where its checks pass, can be read as an entity. The
document that is there already may also be stored again. -/
def Decodes {T : Type} (entity : Entity T) (documents : Documents) : RepoCall T → Prop
  | .create tenant doc => ∀ value, documents.get (entity.id doc) = none →
      entity.toValue doc = .ok value → ensureTenant value tenant = .ok () →
        ∃ doc, entity.fromValue value = .ok doc
  | .upsert tenant id patch expectedVersion => ∀ base fields : Json.Map,
      documents.get id = some (.object base) → ensureTenant (.object base) tenant = .ok () →
        checkVersion (.object base) expectedVersion = .ok () → patch = .object fields →
          (∃ doc, entity.fromValue (.object (base.insertAll fields)) = .ok doc) ∨
            base.insertAll fields = base
  | .get _ _ | .delete _ _ | .select _ _ _ _ _ _ => True

section Reads

variable {T : Type} {entity : Entity T} {documents others : Documents}

theorem select_congr (h : SameDocuments documents others) (comparison : Comparison)
    (order : List String) (tenant : TenantId) (filter : Json.Value)
    (sorts : Option (List SortKey)) (limit : ℕ) :
    select entity comparison documents order tenant filter sorts limit =
      select entity comparison others order tenant filter sorts limit := by
  have hvalues : documents.valuesIn order = others.valuesIn order := by
    unfold HashMap.valuesIn
    rw [funext h]
  unfold select Records.selectWhere
  rw [hvalues]

theorem get_congr (h : SameDocuments documents others) (tenant : TenantId) (id : String) :
    InMemoryRepository.get entity documents tenant id =
      InMemoryRepository.get entity others tenant id := by
  unfold InMemoryRepository.get
  rw [h id]

/-- A read returns the same of the same documents. -/
theorem apply_congr (h : SameDocuments documents others) {read : RepoCall T}
    (hread : read.isRead) : (read.apply entity documents).1 = (read.apply entity others).1 := by
  cases read with
  | get tenant id => exact congrArg (Except.map Option.toList) (get_congr h tenant id)
  | select tenant comparison order filter sorts limit =>
      exact congrArg (Except.map Page.items)
        (select_congr h comparison order tenant filter sorts limit)
  | _ => cases hread

/-- A page of an empty table. -/
theorem select_empty (comparison : Comparison) (order : List String) (tenant : TenantId)
    (filter : Json.Value) (sorts : Option (List SortKey)) (limit : ℕ) :
    select entity comparison ∅ order tenant filter sorts limit = .ok ⟨[], none⟩ := by
  simp only [select, Records.vacant_empty.selectWhere]
  cases sorts with
  | none =>
      rw [List.take_nil]
      rfl
  | some sorts =>
      have hnil : comparison.sortBy sorts [] = [] := (comparison.perm sorts []).eq_nil
      simp only [hnil, List.take_nil]
      rfl

end Reads

section Serve

variable {T : Type} {kept : EntityTable T} {call : RepoCall T} {tables : Tables}

/-- A call answers as it does on the documents of its table, if there are none too. -/
theorem serve_fst : (call.serve kept tables).1 =
    (call.apply kept.entity (tables.documents kept.table)).1 := by
  unfold RepoCall.serve Tables.documents
  cases tables.get kept.table with
  | some documents => rfl
  | none =>
      cases call with
      | select tenant comparison order filter sorts limit =>
          exact (congrArg (Except.map Page.items)
            (select_empty comparison order tenant filter sorts limit)).symm
      | _ => rfl

/-- It makes of them what it does, and leaves the other tables. -/
theorem documents_serve (table : String) : (call.serve kept tables).2.documents table =
    if table = kept.table then (call.apply kept.entity (tables.documents kept.table)).2
    else tables.documents table := by
  have hput : ∀ documents : Documents,
      Tables.documents (tables.put kept.table documents) table =
        if table = kept.table then documents else tables.documents table := by
    intro documents
    unfold Tables.documents
    rw [HashMap.get_put]
    split <;> rfl
  have hsame : tables.get kept.table = none → tables.documents table =
      if table = kept.table then ∅ else tables.documents table := by
    intro hget
    split
    case isTrue h =>
      rw [h, Tables.documents, hget]
      rfl
    case isFalse => rfl
  unfold RepoCall.serve
  cases hget : tables.get kept.table with
  | some documents =>
      have hfound : tables.documents kept.table = documents := by
        rw [Tables.documents, hget]
        rfl
      rw [hfound]
      exact hput _
  | none =>
      have hempty : tables.documents kept.table = ∅ := by
        rw [Tables.documents, hget]
        rfl
      rw [hempty]
      cases call with
      | create tenant doc => exact hput _
      | upsert tenant id patch expectedVersion => exact hput _
      | get tenant id => exact hsame hget
      | delete tenant id => exact hsame hget
      | select tenant comparison order filter sorts limit => exact hsame hget

end Serve

section Writes

variable {T : Type} {entity : Entity T} {documents : Documents} {tenant : TenantId} {id : String}
variable {value : Json.Value}

/-- An error comes with the documents as they were. -/
def FailsSafely (documents : Documents) (outcome : StorageResult (List T) × Documents) : Prop :=
  ∀ err, outcome.1 = .error err → SameDocuments outcome.2 documents

theorem failsSafely_of_same {outcome : StorageResult (List T) × Documents}
    (h : outcome.2 = documents) : FailsSafely documents outcome := by
  intro err _ id
  rw [h]

/-- A document that is stored and read back: it can be read, or it was there already. -/
theorem failsSafely_put_iff :
    FailsSafely documents ((entity.deserialize value).map ([·]), documents.put id value) ↔
      (∃ doc, entity.fromValue value = .ok doc) ∨ documents.get id = some value := by
  unfold FailsSafely Entity.deserialize
  cases hread : entity.fromValue value with
  | ok doc =>
      refine iff_of_true ?_ (.inl ⟨doc, rfl⟩)
      intro err herr
      cases herr
  | error err =>
      constructor
      · intro h
        have hsame := h _ rfl id
        rw [HashMap.get_put_self] at hsame
        exact .inr hsame.symm
      · rintro (⟨_, hok⟩ | hget) _ _ other
        · cases hok
        · rw [HashMap.get_put]
          split
          case isTrue hother => rw [hother, hget]
          case isFalse => rfl

theorem failsSafely_create_iff {doc : T} :
    FailsSafely documents ((RepoCall.create tenant doc).apply entity documents) ↔
      Decodes entity documents (.create tenant doc) := by
  change FailsSafely documents ((create entity documents tenant doc).1.map ([·]),
    (create entity documents tenant doc).2) ↔ _
  constructor
  · intro h value hfree hvalue htenant
    have hcreate : create entity documents tenant doc =
        (entity.deserialize value, documents.put (entity.id doc) value) := by
      simp [create, hfree, Entity.serialize_eq_ok_iff.mpr hvalue, htenant]
    rw [hcreate] at h
    rcases failsSafely_put_iff.mp h with hread | hget
    · exact hread
    · rw [hfree] at hget
      cases hget
  · intro h
    have hcreates := creates entity documents tenant doc
    generalize create entity documents tenant doc = outcome at hcreates ⊢
    cases hcreates with
    | refused => exact failsSafely_of_same rfl
    | stored hfree hvalue htenant =>
        exact failsSafely_put_iff.mpr (.inl (h _ hfree hvalue htenant))

theorem failsSafely_upsert_iff {patch : Json.Value} {expectedVersion : Option UInt64} :
    FailsSafely documents
        ((RepoCall.upsert tenant id patch expectedVersion).apply entity documents) ↔
      Decodes entity documents (.upsert tenant id patch expectedVersion) := by
  change FailsSafely documents
    ((upsert entity documents tenant id patch expectedVersion).1.map ([·]),
      (upsert entity documents tenant id patch expectedVersion).2) ↔ _
  constructor
  · intro h base fields hget htenant hversion hpatch
    have hupsert : upsert entity documents tenant id patch expectedVersion =
        (entity.deserialize (.object (base.insertAll fields)),
          documents.put id (.object (base.insertAll fields))) := by
      rw [upsert, patched_eq_ok_iff.mpr ⟨base, fields, hget, htenant, hversion, hpatch, rfl⟩]
    rw [hupsert] at h
    rcases failsSafely_put_iff.mp h with hread | hsame
    · exact .inl hread
    · rw [hget] at hsame
      injection hsame with hsame
      injection hsame with hsame
      exact .inr hsame.symm
  · intro h
    have hupserts := upserts entity documents tenant id patch expectedVersion
    generalize upsert entity documents tenant id patch expectedVersion = outcome at hupserts ⊢
    cases hupserts with
    | refused => exact failsSafely_of_same rfl
    | merged hget htenant hversion hpatch =>
        rcases h _ _ hget htenant hversion hpatch with hread | hbase
        · exact failsSafely_put_iff.mpr (.inl hread)
        · refine failsSafely_put_iff.mpr (.inr ?_)
          rw [hbase, hget]

/-- One case for each call. -/
theorem failsSafely_iff {call : RepoCall T} :
    FailsSafely documents (call.apply entity documents) ↔ Decodes entity documents call := by
  cases call with
  | create tenant doc => exact failsSafely_create_iff
  | upsert tenant id patch expectedVersion => exact failsSafely_upsert_iff
  | get tenant id => exact iff_of_true (failsSafely_of_same rfl) trivial
  | select tenant comparison order filter sorts limit =>
      exact iff_of_true (failsSafely_of_same rfl) trivial
  | delete tenant id =>
      refine iff_of_true ?_ trivial
      change FailsSafely documents ((delete documents tenant id).1.map fun _ => [],
        (delete documents tenant id).2)
      have hdeletes := deletes documents tenant id
      generalize delete documents tenant id = outcome at hdeletes ⊢
      cases hdeletes with
      | absent => exact failsSafely_of_same rfl
      | refused => exact failsSafely_of_same rfl
      | removed =>
          intro err herr
          cases herr

end Writes

/-- A call that fails leaves the store as it was, for every store and every call, exactly where
what it would store can be read. -/
theorem unharmed_iff_decodes {T : Type} (kept : EntityTable T) (call : RepoCall T)
    (tables : Tables) :
    Unharmed kept call tables ↔ Decodes kept.entity (tables.documents kept.table) call := by
  rw [← failsSafely_iff]
  constructor
  · rintro ⟨hsame, _⟩ err herr
    have htable := hsame err (serve_fst.trans herr) kept.table
    rw [documents_serve, if_pos rfl] at htable
    exact htable
  · intro h
    have hsame : ∀ err, (call.serve kept tables).1 = .error err → ∀ table,
        SameDocuments ((call.serve kept tables).2.documents table) (tables.documents table) := by
      intro err herr table
      rw [documents_serve]
      split
      case isTrue htable =>
        rw [htable]
        exact h err (serve_fst.symm.trans herr)
      case isFalse => exact fun _ => rfl
    refine ⟨hsame, ?_⟩
    intro err herr U other read hread found hfound
    refine ⟨found, ?_⟩
    rw [serve_fst] at hfound ⊢
    rw [apply_congr (hsame err herr other.table) hread, hfound]

namespace Notes

/-- An entity with a text. -/
structure Note where
  id : String
  tenant : String
  text : String

def entity : Entity Note where
  id := Note.id
  toValue note := .ok (.object
    [("id", .string note.id), ("tenant", .string note.tenant), ("text", .string note.text)])
  fromValue value :=
    match value.get "id", value.get "tenant", value.get "text" with
    | some (.string id), some (.string tenant), some (.string text) => .ok ⟨id, tenant, text⟩
    | _, _, _ => .error "invalid type"

def notes : EntityTable Note := ⟨entity, "note"⟩

def owner : TenantId := ⟨"t1"⟩

/-- The store after a note was created. -/
def tables : Tables := ((RepoCall.create owner ⟨"note:t1_a", "t1", "buy milk"⟩).serve notes ∅).2

/-- The text is patched with `null`. -/
def call : RepoCall Note := .upsert owner "note:t1_a" (.object [("text", .null)]) none

end Notes

open Notes in
/-- The patch is written, though the note cannot be read with it. -/
theorem not_unharmed_unreadable : ¬ Unharmed notes call tables := by
  intro h
  have hsame := h.same (.schema "deserialize entity failed: invalid type") rfl "note" "note:t1_a"
  have hafter : HashMap.get ((call.serve notes tables).2.documents "note") "note:t1_a" =
      some (.object [("id", .string "note:t1_a"), ("tenant", .string "t1"), ("text", .null)]) := rfl
  have hbefore : HashMap.get (tables.documents "note") "note:t1_a" =
      some (.object [("id", .string "note:t1_a"), ("tenant", .string "t1"),
        ("text", .string "buy milk")]) := rfl
  rw [hafter, hbefore] at hsame
  simp at hsame

end Soulbase.Storage
