/-
# Tables of records

A table of a document database: records under ids, and the statements that address one of
them by its id or several by a condition. A statement is atomic. It answers from the
record of its id alone and leaves the others as they are, and so statements for different
ids do not interfere; everything hangs on the ids being different.
-/

import Soulbase.Foundation.FiniteMap

namespace Soulbase.Foundation

/-- The records of a table, by id. -/
abbrev Records (Doc : Type*) := HashMap String Doc

namespace Records

variable {Doc : Type*}

/-- `CREATE id CONTENT content`, unless there is a record under the id. -/
def create (records : Records Doc) (id : String) (content : Doc) : Option (Records Doc) :=
  match records.get id with
  | some _ => none
  | none => some (records.put id content)

/-- `SELECT id WHERE condition`. -/
def select (records : Records Doc) (id : String) (condition : Doc → Bool) : Option Doc :=
  (records.get id).filter condition

/-- `UPDATE id SET change WHERE condition`, which returns the record that it has changed. -/
def update (records : Records Doc) (id : String) (condition : Doc → Bool)
    (change : Doc → Doc) : Option Doc × Records Doc :=
  match records.select id condition with
  | none => (none, records)
  | some doc => (some (change doc), records.put id (change doc))

/-- `UPDATE id CONTENT content`. -/
def replace (records : Records Doc) (id : String) (content : Doc) : Option Doc × Records Doc :=
  records.update id (fun _ => true) fun _ => content

/-- `DELETE id`. -/
def delete (records : Records Doc) (id : String) : Records Doc := records.remove id

/-- `SELECT … WHERE condition`, in an order in which the table may yield its records. -/
def selectWhere (records : Records Doc) (order : List String) (condition : Doc → Bool) :
    List Doc :=
  (records.valuesIn order).filter condition

/-- `DELETE … WHERE condition`. -/
def deleteWhere (records : Records Doc) (condition : Doc → Bool) : Records Doc :=
  (records.keys.filter fun id => (records.get id).any condition).foldl delete records

variable {records : Records Doc} {id other : String} {content doc : Doc}
variable {condition : Doc → Bool} {change : Doc → Doc}

theorem create_eq_none_iff :
    records.create id content = none ↔ ∃ doc, records.get id = some doc := by
  unfold create
  cases records.get id <;> simp

/-- Without a record under the id, one is created. -/
theorem create_of_get_eq_none (h : records.get id = none) :
    records.create id content = some (records.put id content) := by
  simp only [create, h]

theorem update_of_select_eq_none (h : records.select id condition = none) :
    records.update id condition change = (none, records) := by
  simp only [update, h]

theorem update_of_select (h : records.select id condition = some doc) :
    records.update id condition change = (some (change doc), records.put id (change doc)) := by
  simp only [update, h]

theorem select_of_get_eq_none (h : records.get id = none) :
    records.select id condition = none := by
  simp [select, h]

theorem select_of_get (h : records.get id = some doc) (hmatches : condition doc = true) :
    records.select id condition = some doc := by
  simp [select, h, hmatches]

theorem mem_selectWhere {order : List String} :
    doc ∈ records.selectWhere order condition ↔
      (∃ id ∈ order, records.get id = some doc) ∧ condition doc = true := by
  rw [selectWhere, List.mem_filter, HashMap.mem_valuesIn]

/-- What an update makes of a record. -/
def updated (condition : Doc → Bool) (change : Doc → Doc) (doc : Doc) : Doc :=
  if condition doc then change doc else doc

theorem get_update :
    (records.update id condition change).2.get other =
      if other = id then (records.get id).map (updated condition change)
      else records.get other := by
  unfold update select
  cases hget : records.get id with
  | none =>
      by_cases h : other = id
      · simp [h, hget]
      · simp [h]
  | some doc =>
      cases hcondition : condition doc with
      | true => simp [Option.filter, hcondition, HashMap.get_put, updated]
      | false =>
          by_cases h : other = id
          · simp [Option.filter, hcondition, updated, h, hget]
          · simp [Option.filter, hcondition, h]

theorem get_create_of_ne {created : Records Doc} (hne : other ≠ id)
    (h : records.create id content = some created) : created.get other = records.get other := by
  unfold create at h
  split at h
  · cases h
  · cases h
    rw [HashMap.get_put, if_neg hne]

theorem get_update_of_ne (hne : other ≠ id) :
    (records.update id condition change).2.get other = records.get other := by
  rw [get_update, if_neg hne]

theorem get_delete_of_ne (hne : other ≠ id) :
    (records.delete id).get other = records.get other :=
  (HashMap.get_remove _ _ _).trans (if_neg hne)

/-- Updates of different records one after the other. -/
theorem get_foldl_update (ids : List String) (hnodup : ids.Nodup) (records : Records Doc) :
    (ids.foldl (fun records id => (records.update id condition change).2) records).get id =
      if id ∈ ids then (records.get id).map (updated condition change) else records.get id := by
  induction ids generalizing records with
  | nil => simp
  | cons first rest ih =>
      obtain ⟨hfresh, hrest⟩ := List.nodup_cons.mp hnodup
      rw [List.foldl_cons, ih hrest]
      by_cases hfirst : id = first
      · subst hfirst
        simp [hfresh, get_update]
      · simp [hfirst, get_update]

/-- Deleting from a list of ids keeps the records under other ids. -/
theorem get_foldl_delete (ids : List String) (records : Records Doc) :
    (ids.foldl delete records).get id = if id ∈ ids then none else records.get id :=
  HashMap.get_foldl_remove ids records id

/-- A record is deleted if it meets the condition. -/
theorem get_deleteWhere (records : Records Doc) (condition : Doc → Bool) (id : String) :
    (records.deleteWhere condition).get id =
      (records.get id).filter fun doc => !condition doc := by
  rw [deleteWhere, get_foldl_delete]
  cases hget : records.get id with
  | none => simp
  | some doc =>
      have hmem : id ∈ records.keys := AList.lookup_isSome.mp (Option.isSome_of_eq_some hget)
      cases hcondition : condition doc with
      | true => simp [hmem, hget, hcondition, Option.filter]
      | false => simp [hget, hcondition, Option.filter]

/-- A call that reads and writes the record of one id only. -/
structure ActsAt {Answer : Type*} (id : String)
    (call : Records Doc → Answer × Records Doc) : Prop where
  /-- What it answers depends on that record. -/
  answer : ∀ records others : Records Doc, records.get id = others.get id →
    (call records).1 = (call others).1
  /-- It leaves the others alone. -/
  frame : ∀ records other, other ≠ id → (call records).2.get other = records.get other

/-- Calls on different records do not interfere: what one answers is not affected by the
other. -/
theorem ActsAt.answer_after {Answer OtherAnswer : Type*}
    {call : Records Doc → Answer × Records Doc}
    {otherCall : Records Doc → OtherAnswer × Records Doc} (h : ActsAt id call)
    (hother : ActsAt other otherCall) (hne : other ≠ id) (records : Records Doc) :
    (otherCall (call records).2).1 = (otherCall records).1 :=
  hother.answer _ _ (h.frame records other hne)

/-- Creating a record, which is answered in one way or the other. -/
theorem actsAt_of_create {Answer : Type*} {call : Records Doc → Answer × Records Doc}
    {refused made : Answer} (h : ∀ records, call records =
      (records.create id content).elim (refused, records) (Prod.mk made)) : ActsAt id call := by
  constructor
  case answer =>
    intro records others hsame
    rw [h, h]
    unfold create
    rw [hsame]
    cases others.get id <;> rfl
  case frame =>
    intro records other hne
    rw [h]
    cases hcreate : records.create id content with
    | none => rfl
    | some created => exact get_create_of_ne hne hcreate

/-- Replacing a record. -/
theorem actsAt_replace {Answer : Type*} (id : String) (content : Doc) (answer : Answer) :
    ActsAt id fun records => (answer, (records.replace id content).2) where
  answer := fun _ _ _ => rfl
  frame := fun _ _ hne => get_update_of_ne hne

/-- Deleting a record. -/
theorem actsAt_delete {Answer : Type*} (id : String) (answer : Answer) :
    ActsAt id fun records : Records Doc => (answer, records.delete id) where
  answer := fun _ _ _ => rfl
  frame := fun _ _ hne => get_delete_of_ne hne

/-- There is no record. -/
def Vacant (records : Records Doc) : Prop := ∀ id, records.get id = none

theorem vacant_empty : Vacant (∅ : Records Doc) := HashMap.get_empty

theorem Vacant.selectWhere (h : records.Vacant) (order : List String) :
    records.selectWhere order condition = [] := by
  rw [List.eq_nil_iff_forall_not_mem]
  intro doc hdoc
  obtain ⟨⟨id, _, hget⟩, _⟩ := mem_selectWhere.mp hdoc
  rw [h id] at hget
  cases hget

/-- An update makes no record. -/
theorem Vacant.update (h : records.Vacant) : (records.update id condition change).2.Vacant := by
  rw [update_of_select_eq_none (select_of_get_eq_none (h id))]
  exact h

theorem Vacant.deleteWhere (h : records.Vacant) : (records.deleteWhere condition).Vacant := by
  intro id
  rw [get_deleteWhere, h id]
  rfl

end Records

end Soulbase.Foundation
