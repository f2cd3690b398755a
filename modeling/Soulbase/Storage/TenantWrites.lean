/-
# Writes of a tenant

What a write of `SurrealRepository` for a tenant does to the records that are there already.
`CREATE` and `DELETE … WHERE tenant` touch no record of another tenant and change none of its
own. An `UPSERT` without a version merges its patch into whatever lies under the id, and each
of the merges may write the `tenant` field itself.
-/

import Soulbase.Storage.RecordOwnership
import Soulbase.Storage.SurrealRepository

namespace Soulbase.Storage

open Soulbase.Foundation

/-- A write of the repository. -/
inductive SurrealWrite (T : Type)
  | create (doc : T)
  | upsert (id : String) (patch : Json.Value) (expectedVersion : Option UInt64)
  | upsertReturningNone (id : String) (patch : Json.Value)
  | delete (id : String)

/-- The table after a write for a tenant. -/
def SurrealWrite.apply {T : Type} (entity : Entity T) (table : SurrealTable) (tenant : TenantId)
    (rows : Rows) : SurrealWrite T → Rows
  | create doc => (SurrealRepository.create entity table rows tenant doc).2
  | upsert id patch expectedVersion =>
      (SurrealRepository.upsert entity table rows tenant id patch expectedVersion).2
  | upsertReturningNone id patch =>
      (SurrealRepository.upsertReturningNone table rows tenant id patch).2
  | delete id => (SurrealRepository.delete rows tenant id).2

/-- The records of other tenants are as they were, and those of the tenant that are still there
are still its own. -/
structure Isolated (tenant : TenantId) (before after : Rows) : Prop where
  others : ∀ id row, before.get id = some row →
    row.get "tenant" ≠ some (.string tenant.asStr) →
      ∃ kept, after.get id = some kept ∧ ∀ field, kept.get field = row.get field
  own : ∀ id row, before.get id = some row → row.get "tenant" = some (.string tenant.asStr) →
    ∀ kept, after.get id = some kept → kept.get "tenant" = some (.string tenant.asStr)

/-- The patch has nothing for a field, or what the field holds already. -/
def SurrealDb.Leaves (db : SurrealDb) (row fields : Json.Map) (field : String) : Prop :=
  field = "id" ∨ ∀ value, fields.written field = some value →
    row.get field = some (db.mergeField (row.get field) value)

/-- A patch, where the table takes it, leaves a field of a record. -/
def SurrealTable.Leaves (table : SurrealTable) (id : String) (row : Json.Map) (patch : Json.Value)
    (field : String) : Prop :=
  ∀ fields, patch = .object fields → table.rules id row fields = none →
    table.db.Leaves row fields field

/-- An upsert without a version leaves the tenant of a record of the tenant, and all of a
record of another. -/
def UpsertStays (table : SurrealTable) (tenant : TenantId) (rows : Rows) (id : String)
    (patch : Json.Value) : Prop :=
  ∀ row, rows.get id = some row →
    if isOf tenant row then table.Leaves id row patch "tenant"
    else ∀ field, table.Leaves id row patch field

/-- What is asked of a write for a tenant. -/
def SurrealWrite.Stays {T : Type} (table : SurrealTable) (tenant : TenantId) (rows : Rows) :
    SurrealWrite T → Prop
  | create _ => True
  | upsert id patch (some ver) => ∀ row, rows.get id = some row → isOf tenant row = true →
      table.db.hasVersion ver row = true → table.Leaves id row patch "tenant"
  | upsert id patch none => UpsertStays table tenant rows id patch
  | upsertReturningNone id patch => UpsertStays table tenant rows id patch
  | delete _ => True

section Stays

variable {table : SurrealTable} {tenant : TenantId} {rows : Rows} {id field : String}
variable {row fields merged : Json.Map} {patch : Json.Value}

theorem get_merged_eq_iff (db : SurrealDb) (row fields : Json.Map) (field : String) :
    (db.merged row fields).get field = row.get field ↔ db.Leaves row fields field := by
  rw [get_merged, SurrealDb.Leaves]
  by_cases hid : field = "id"
  · simp [hid]
  · rw [if_neg hid]
    cases fields.written field with
    | none => simp
    | some value => simp [hid, eq_comm]

/-- Where what is in a field is a text, only that text and some objects leave it. -/
theorem leaves_text_iff {db : SurrealDb} {text : String} {value : Json.Value}
    (hfield : field ≠ "id") (htext : row.get field = some (.string text))
    (hvalue : fields.written field = some value) (hobject : value.asObject = none) :
    db.Leaves row fields field ↔ value = .string text := by
  rw [SurrealDb.Leaves, or_iff_right hfield]
  constructor
  · intro h
    have hkept := h value hvalue
    rw [htext, db.mergeField_of_not_object _ value hobject] at hkept
    exact (Option.some.inj hkept).symm
  · rintro rfl other hother
    obtain rfl := Option.some.inj (hvalue.symm.trans hother)
    rw [htext, db.mergeField_of_not_object _ _ rfl]

theorem isolated_refl (tenant : TenantId) (rows : Rows) : Isolated tenant rows rows where
  others := fun _ row hget _ => ⟨row, hget, fun _ => rfl⟩
  own := by
    intro id row hget htenant kept hkept
    obtain rfl := Option.some.inj (hget.symm.trans hkept)
    exact htenant

/-- A record under an id that was free is no other's. -/
theorem isolated_put_of_free (hfree : rows.get id = none) :
    Isolated tenant rows (rows.put id row) where
  others := by
    intro other found hget _
    refine ⟨found, ?_, fun _ => rfl⟩
    rw [HashMap.get_put, if_neg, hget]
    rintro rfl
    exact absurd (hfree.symm.trans hget) nofun
  own := by
    intro other found hget htenant kept hkept
    rw [HashMap.get_put, if_neg, hget] at hkept
    · obtain rfl := Option.some.inj hkept
      exact htenant
    · rintro rfl
      exact absurd (hfree.symm.trans hget) nofun

/-- What is put under an id is what becomes of the record there. -/
theorem isolated_put_iff (hget : rows.get id = some row) :
    Isolated tenant rows (rows.put id merged) ↔
      if isOf tenant row then merged.get "tenant" = row.get "tenant"
      else ∀ field, merged.get field = row.get field := by
  constructor
  · intro h
    split
    case isTrue htenant =>
      have htext := isOf_iff.mp htenant
      exact (h.own id row hget htext merged (HashMap.get_put_self _ _ _)).trans htext.symm
    case isFalse htenant =>
      obtain ⟨kept, hkept, hsame⟩ := h.others id row hget fun htext => htenant (isOf_iff.mpr htext)
      obtain rfl := Option.some.inj ((HashMap.get_put_self _ _ _).symm.trans hkept)
      exact hsame
  · intro h
    constructor
    case others =>
      intro other found hother htext
      by_cases hid : other = id
      · subst hid
        obtain rfl := Option.some.inj (hget.symm.trans hother)
        rw [if_neg fun htenant => htext (isOf_iff.mp htenant)] at h
        exact ⟨merged, HashMap.get_put_self _ _ _, h⟩
      · refine ⟨found, ?_, fun _ => rfl⟩
        rw [HashMap.get_put, if_neg hid, hother]
    case own =>
      intro other found hother htext kept hkept
      by_cases hid : other = id
      · subst hid
        obtain rfl := Option.some.inj (hget.symm.trans hother)
        obtain rfl := Option.some.inj ((HashMap.get_put_self _ _ _).symm.trans hkept)
        rw [if_pos (isOf_iff.mpr htext)] at h
        exact h.trans htext
      · rw [HashMap.get_put, if_neg hid, hother] at hkept
        obtain rfl := Option.some.inj hkept
        exact htext

/-- Merging a patch into the record of an id. -/
theorem isolated_merge_iff (hget : rows.get id = some row) :
    (∀ merged, table.merge id row patch = .ok merged →
      Isolated tenant rows (rows.put id merged)) ↔
        if isOf tenant row then table.Leaves id row patch "tenant"
        else ∀ field, table.Leaves id row patch field := by
  constructor
  · intro h
    split
    case isTrue htenant =>
      rintro fields rfl hrules
      have hmerge := merge_eq_ok_iff.mpr ⟨fields, rfl, hrules, rfl⟩
      have hmerged := (isolated_put_iff hget).mp (h _ hmerge)
      rw [if_pos htenant] at hmerged
      exact (get_merged_eq_iff _ _ _ _).mp hmerged
    case isFalse htenant =>
      rintro field fields rfl hrules
      have hmerge := merge_eq_ok_iff.mpr ⟨fields, rfl, hrules, rfl⟩
      have hmerged := (isolated_put_iff hget).mp (h _ hmerge)
      rw [if_neg htenant] at hmerged
      exact (get_merged_eq_iff _ _ _ _).mp (hmerged field)
  · intro h merged hmerge
    obtain ⟨fields, hpatch, hrules, rfl⟩ := merge_eq_ok_iff.mp hmerge
    rw [isolated_put_iff hget]
    split
    case isTrue htenant =>
      rw [if_pos htenant] at h
      exact (get_merged_eq_iff _ _ _ _).mpr (h fields hpatch hrules)
    case isFalse htenant =>
      rw [if_neg htenant] at h
      exact fun field => (get_merged_eq_iff _ _ _ _).mpr (h field fields hpatch hrules)

theorem isolated_upsertMerge_iff :
    Isolated tenant rows (table.upsertMerge rows id patch).2 ↔
      UpsertStays table tenant rows id patch := by
  have hmatch : Isolated tenant rows (table.upsertMerge rows id patch).2 ↔
      ∀ merged, table.merge id ((rows.get id).getD []) patch = .ok merged →
        Isolated tenant rows (rows.put id merged) := by
    unfold SurrealTable.upsertMerge
    split
    case h_1 err hmerge => simp [hmerge, isolated_refl]
    case h_2 merged hmerge => simp [hmerge]
  rw [hmatch, UpsertStays]
  cases hget : rows.get id with
  | none => simp [isolated_put_of_free hget]
  | some row =>
      rw [Option.getD_some, isolated_merge_iff hget]
      simp

theorem isolated_updateMerge_iff {condition : Json.Map → Bool}
    (hcondition : ∀ row, condition row = true → isOf tenant row = true) :
    Isolated tenant rows (table.updateMerge rows id patch condition).2 ↔
      ∀ row, rows.get id = some row → condition row = true →
        table.Leaves id row patch "tenant" := by
  unfold SurrealTable.updateMerge
  cases hget : rows.get id with
  | none =>
      rw [Records.select_of_get_eq_none hget]
      exact iff_of_true (isolated_refl _ _) nofun
  | some row =>
      cases hrow : condition row with
      | false =>
          rw [show rows.select id condition = none by
            rw [Records.select, hget, Option.filter, hrow, if_neg Bool.false_ne_true]]
          refine iff_of_true (isolated_refl _ _) fun found hfound htrue => ?_
          cases hfound
          exact absurd (hrow.symm.trans htrue) Bool.false_ne_true
      | true =>
          rw [Records.select_of_get hget hrow]
          have hmerge : (∀ merged, table.merge id row patch = .ok merged →
              Isolated tenant rows (rows.put id merged)) ↔ _ := isolated_merge_iff hget
          rw [if_pos (hcondition row hrow)] at hmerge
          simp only [Option.some.injEq, forall_eq', hrow, forall_const]
          rw [← hmerge]
          split
          case h_1 err herr => simp [herr, isolated_refl]
          case h_2 merged hmerged => simp [hmerged]

theorem isolated_create {data : Json.Value} :
    Isolated tenant rows (table.create rows id data).2 := by
  unfold SurrealTable.create
  split
  case h_2 => exact isolated_refl _ _
  case h_1 fields =>
    dsimp only
    split
    case h_1 => exact isolated_refl _ _
    case h_2 => exact isolated_refl _ _
    case h_3 created _ hcreated _ =>
      cases hget : rows.get id with
      | some row =>
          rw [Records.create_eq_none_iff.mpr ⟨row, hget⟩] at hcreated
          cases hcreated
      | none =>
          rw [Records.create_of_get_eq_none hget] at hcreated
          cases hcreated
          exact isolated_put_of_free hget

theorem isolated_deleteIf : Isolated tenant rows (SurrealTable.deleteIf rows id (isOf tenant)) := by
  unfold SurrealTable.deleteIf
  split
  case h_1 => exact isolated_refl _ _
  case h_2 row hselect =>
    rw [Records.select, Option.filter_eq_some_iff] at hselect
    obtain ⟨hget, htenant⟩ := hselect
    constructor
    case others =>
      intro other found hother htext
      refine ⟨found, (Records.get_delete_of_ne ?_).trans hother, fun _ => rfl⟩
      rintro rfl
      obtain rfl := Option.some.inj (hget.symm.trans hother)
      exact htext (isOf_iff.mp htenant)
    case own =>
      intro other found hother htext kept hkept
      rw [Records.delete, HashMap.get_remove] at hkept
      split at hkept
      case isTrue => cases hkept
      case isFalse =>
        obtain rfl := Option.some.inj (hother.symm.trans hkept)
        exact htext

end Stays

/-- A write for a tenant leaves the records of others, and its own to it, if its patch does. -/
theorem isolated_iff_stays {T : Type} (entity : Entity T) (table : SurrealTable)
    (tenant : TenantId) (rows : Rows) (write : SurrealWrite T) :
    Isolated tenant rows (write.apply entity table tenant rows) ↔
      write.Stays table tenant rows := by
  cases write with
  | create doc =>
      refine iff_of_true ?_ trivial
      change Isolated tenant rows (SurrealRepository.create entity table rows tenant doc).2
      unfold SurrealRepository.create
      split
      case h_1 => exact isolated_refl _ _
      case h_2 => exact isolated_create
  | upsert id patch expectedVersion =>
      cases expectedVersion with
      | none => exact isolated_upsertMerge_iff
      | some ver =>
          have hguard : ∀ row, (isOf tenant row && table.db.hasVersion ver row) = true →
              isOf tenant row = true := fun row h => (Bool.and_eq_true_iff.mp h).1
          refine (isolated_updateMerge_iff hguard).trans ?_
          simp only [Bool.and_eq_true, and_imp]
          exact Iff.rfl
  | upsertReturningNone id patch => exact isolated_upsertMerge_iff
  | delete id => exact iff_of_true isolated_deleteIf trivial

namespace TakenOver

/-- A database that writes every value of a patch as it is, and a table without rules. -/
def table : SurrealTable where
  db :=
    { mergeField := fun _ value => value
      isVersion := fun value version => value.asU64 = some version
      invalidMerge := fun _ => "Can not use the value in a MERGE clause"
      invalidContent := fun _ => "Can not use the value in a CONTENT clause"
      recordExists := fun id => "Database record " ++ id ++ " already exists"
      toJson := fun id row => .object (Json.Map.insert row "id" (.string id))
      mergeField_of_not_object := fun _ _ _ => rfl
      isVersion_self := fun _ => decide_eq_true rfl }
  rules _ _ _ := none

/-- A record of the first tenant. -/
def rows : Rows := HashMap.put ∅ "a" [("tenant", .string "t1"), ("title", .string "A")]

/-- The second tenant writes under its id. -/
def write : SurrealWrite Json.Map := .upsert "a" (.object [("tenant", .string "t2")]) none

/-- Documents that are their own JSON. -/
def entity : Entity Json.Map := GivenAway.entity

end TakenOver

open TakenOver in
/-- The record of the first tenant is then the second's. -/
theorem not_isolated_takenOver :
    ¬ Isolated ⟨"t2"⟩ rows (write.apply entity table ⟨"t2"⟩ rows) := by
  intro h
  obtain ⟨kept, hkept, hsame⟩ := h.others "a" _ rfl (by simp [Json.Map.get])
  have htaken : (write.apply entity table ⟨"t2"⟩ rows).get "a" =
      some [("tenant", .string "t2"), ("title", .string "A")] := rfl
  obtain rfl := Option.some.inj (htaken.symm.trans hkept)
  have htenant := hsame "tenant"
  simp [Json.Map.get] at htenant

end Soulbase.Storage
