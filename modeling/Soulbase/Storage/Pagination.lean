/-
# Pages of `select`

`SurrealRepository::select` returns a page, and the id of its last record as the cursor of the
next one. The condition on the cursor compares ids, while the records come in the order of the
sorts: the pages are all of the records only if the records that come first have the lesser
ids, at the end of every full page.
-/

import Mathlib.Data.List.Sort
import Mathlib.Data.String.Basic
import Soulbase.Foundation.Paging
import Soulbase.Storage.FilterMeaning
import Soulbase.Storage.SurrealRepository
import Soulbase.Storage.TenantCondition

namespace Soulbase.Storage

open Soulbase.Foundation

/-- What SurrealDB does with a `SELECT`: which comparisons are true of a record, and the order
of an `ORDER BY`, in which different records come one before the other. -/
structure SelectDb (T : Type) where
  /-- `Entity::id`. -/
  id : T → String
  compare : T → Document
  order : String → T → T → Bool
  parseError : String → String
  compare_id : ∀ record cursor,
    compare record "id" ">" (.string cursor) = decide (cursor < id record)
  order_trans : ∀ text first second third,
    order text first second = true → order text second third = true →
      order text first third = true
  order_total : ∀ text first second,
    order text first second = true ∨ order text second first = true
  order_antisymm : ∀ text first second,
    order text first second = true → order text second first = true → id first = id second
  /-- Without sorts, the order is that of the ids. -/
  order_empty : ∀ first second, order "" first second = decide (id first ≤ id second)

namespace SelectDb

variable {T : Type} (db : SelectDb T)

/-- Records in the order of an `ORDER BY`. -/
def ordered (text : String) (records : List T) : List T :=
  records.insertionSort fun first second => db.order text first second = true

/-- The answer of a statement. -/
def answer (records : List T) (query : SelectQuery) : Except String (List T) :=
  match Condition.read query.whereClause with
  | none => .error (db.parseError query.whereClause)
  | some condition =>
      let found := records.filter fun record =>
        condition.holds (Mapper.truthOf (db.compare record) query.args)
      let limit := (query.args.get "limit").bind Json.Value.asU64
      .ok ((db.ordered query.orderClause found).take (limit.elim 0 UInt64.toNat))

end SelectDb

namespace SurrealRepository

section Calls

variable {T : Type} (db : SelectDb T) (records : List T) (table : String) (tenant : TenantId)
variable (filter : Json.Value) (sorts : Option (List SortKey)) (limit : UInt64)

/-- `SurrealRepository::select`. -/
def select (cursor : Option String) : StorageResult (Page T) := do
  let query ← selectQuery table tenant filter sorts limit cursor
  let items ← (db.answer records query).mapError mapSurrealError
  let next :=
    if items.length = limit.toNat ∧ 0 < limit.toNat then items.getLast?.map db.id else none
  return { items := items, next := next }

/-- The records of the pages, called for one after the other until there is no cursor. -/
inductive Calls : Option String → List T → Prop
  | last {cursor : Option String} {items : List T}
      (h : select db records table tenant filter sorts limit cursor = .ok ⟨items, none⟩) :
      Calls cursor items
  | more {cursor : Option String} {items later : List T} {next : String}
      (h : select db records table tenant filter sorts limit cursor = .ok ⟨items, some next⟩)
      (hrest : Calls (some next) later) : Calls cursor (items ++ later)

/-- The clause of the sorts. -/
def orderClause : String := Mapper.orderText (Mapper.trimmed (sorts.getD []))

/-- The records of the tenant that match the filter, in the order of the sorts. -/
def matching : List T :=
  db.ordered (orderClause sorts) (records.filter fun record =>
    db.compare record "tenant" "=" (.string tenant.asStr) &&
      Mapper.holds (db.compare record) filter)

/-- Those that match what is left of the filter. -/
def selected : List T :=
  db.ordered (orderClause sorts) (records.filter fun record =>
    db.compare record "tenant" "=" (.string tenant.asStr) &&
      ((Mapper.remnant (db.compare record) filter).truth = some true))

/-- The filter and the sorts are accepted, and the clause of the filter can be read. -/
def Selectable : Prop :=
  (∃ clause args, Mapper.buildFilterClause filter (selectParams table tenant limit) "select" =
    .ok (clause, args)) ∧
  (∀ key ∈ Mapper.trimmed (sorts.getD []), Mapper.validateIdentifier key.field = .ok ()) ∧
  Mapper.remnant (fun _ _ _ => false) filter ≠ .broken

/-! ## What a page is -/

section Page

open Condition Mapper

variable {db : SelectDb T} {records : List T} {table : String} {tenant : TenantId}
variable {filter : Json.Value} {sorts : Option (List SortKey)} {limit : UInt64}
variable {cursor : Option String} {clause : String} {truth : Truth} {remnant : Remnant}

theorem factors_tenant :
    Factors ["tenant", "=", "$tenant"] fun truth => truth "tenant" "=" "tenant" :=
  factors_compare "tenant" ⟨by decide, by simp [delimiter]⟩ (by decide)

/-- The clause of the cursor. -/
theorem alternatives_cursor (cursor : Option String) :
    List.Forall₂ Alternatives ((cursor.toList.map fun _ => "id > $cursor").map lex)
      (cursor.toList.map fun _ => fun truth => truth "id" ">" "cursor") := by
  cases cursor with
  | none => exact .nil
  | some _ =>
      have hcompare : Factors ["id", ">", placeholder "cursor"]
          fun truth => truth "id" ">" "cursor" :=
        factors_compare "cursor" ⟨by decide, by simp [delimiter]⟩ (by decide)
      rw [← show lex "id > $cursor" = ["id", ">", placeholder "cursor"] from rfl] at hcompare
      exact .cons hcompare.alternatives .nil

/-- What is read of a statement whose clause says what is left of a filter. -/
theorem read_tenantWhere (h : Reads truth clause remnant) (cursor : Option String) :
    match remnant.truth with
    | none => read (tenantWhere (whereClauses clause cursor)) = none
    | some held => ∃ condition, read (tenantWhere (whereClauses clause cursor)) = some condition ∧
        condition.holds truth =
          (truth "tenant" "=" "tenant" && held &&
            cursor.all fun _ => truth "id" ">" "cursor") := by
  have hcursor : (cursor.toList.map fun _ => fun truth : Truth => truth "id" ">" "cursor").all
      (· truth) = cursor.all fun _ => truth "id" ">" "cursor" := by
    cases cursor <;> simp
  cases h with
  | nothing =>
      have hfactors := factors_tenant.conjoined (alternatives_cursor cursor)
      rw [← lex_tenantWhere] at hfactors
      obtain ⟨condition, hread, hholds⟩ := hfactors.alternatives.read
      refine ⟨condition, hread, ?_⟩
      rw [hholds, hcursor, Bool.and_true]
  | condition hne hclause _ =>
      have hfactors := factors_tenant.conjoined
        (.cons hclause.alternatives (alternatives_cursor cursor))
      rw [← List.map_cons, ← lex_tenantWhere] at hfactors
      obtain ⟨condition, hread, hholds⟩ := hfactors.alternatives.read
      refine ⟨condition, ?_, ?_⟩
      · rw [whereClauses, if_neg hne]
        exact hread
      · rw [hholds, List.all_cons, hcursor, Bool.and_assoc]
  | broken hne hunreadable _ =>
      have hwhole := factors_tenant.conjoined_unreadable hunreadable
        ((cursor.toList.map fun _ => "id > $cursor").map lex)
      rw [← List.map_cons, ← lex_tenantWhere] at hwhole
      rw [whereClauses, if_neg hne]
      exact hwhole.read

/-- Records in an order, some of which are left out. -/
theorem ordered_filter (hids : (records.map db.id).Nodup) (text : String) (kept : T → Bool) :
    db.ordered text (records.filter kept) = (db.ordered text records).filter kept := by
  have : Std.Total fun first second => db.order text first second = true :=
    ⟨db.order_total text⟩
  have : IsTrans T fun first second => db.order text first second = true :=
    ⟨db.order_trans text⟩
  have hperm : (db.ordered text (records.filter kept)).Perm
      ((db.ordered text records).filter kept) :=
    (List.perm_insertionSort _ _).trans ((List.perm_insertionSort _ records).symm.filter kept)
  refine hperm.eq_of_pairwise ?_ (List.pairwise_insertionSort _ _)
    ((List.pairwise_insertionSort _ _).filter kept)
  intro first second hfirst hsecond hle hge
  have hfirst : first ∈ records :=
    (List.mem_filter.mp ((List.mem_insertionSort _).mp hfirst)).1
  have hsecond : second ∈ records :=
    (List.mem_insertionSort _).mp (List.mem_filter.mp hsecond).1
  exact List.inj_on_of_nodup_map hids hfirst hsecond (db.order_antisymm text _ _ hle hge)

/-- The operands of the filter are bound in a statement. -/
theorem binds_queryArgs (table : String) (tenant : TenantId) (filter : Json.Value)
    (limit : UInt64) (cursor : Option String) :
    Binds (queryArgs table tenant filter limit cursor) (sanitizePrefix "select") 0
      (operands filter) := by
  intro number operand hoperand
  rw [get_queryArgs, Nat.zero_add]
  exact (get_queryParams _).1 number operand hoperand rfl

/-- The condition of a statement on a record. -/
theorem condition_holds {condition : Condition}
    (hbuild : ∃ args, buildFilterClause filter (selectParams table tenant limit) "select" =
      .ok (clause, args))
    (hread : read (tenantWhere (whereClauses clause cursor)) = some condition) (record : T) :
    condition.holds
        (truthOf (db.compare record) (queryArgs table tenant filter limit cursor)) =
      ((db.compare record "tenant" "=" (.string tenant.asStr) &&
        ((Mapper.remnant (db.compare record) filter).truth = some true)) &&
        cursor.all fun last => decide (last < db.id record)) := by
  obtain ⟨args, hbuild⟩ := hbuild
  have hreads := read_tenantWhere
    (reads_of_binds (db.compare record) hbuild
      (binds_queryArgs table tenant filter limit cursor)) cursor
  have htenant : truthOf (db.compare record) (queryArgs table tenant filter limit cursor)
      "tenant" "=" "tenant" = db.compare record "tenant" "=" (.string tenant.asStr) := by
    rw [truthOf, queryArgs, HashMap.get_put_self]
    rfl
  have hcursor : (cursor.all fun _ => truthOf (db.compare record)
      (queryArgs table tenant filter limit cursor) "id" ">" "cursor") =
        cursor.all fun last => decide (last < db.id record) := by
    rw [truthOf, get_queryArgs, (get_queryParams "cursor").2 (by decide), if_pos rfl]
    cases cursor with
    | none => rfl
    | some last => exact db.compare_id record last
  cases htruth : (Mapper.remnant (db.compare record) filter).truth with
  | none =>
      rw [htruth] at hreads
      cases hreads.symm.trans hread
  | some held =>
      rw [htruth] at hreads
      obtain ⟨found, hfound, hholds⟩ := hreads
      obtain rfl := Option.some.inj (hread.symm.trans hfound)
      rw [hholds, htenant, hcursor]
      cases held <;> simp

/-- What `select` returns: a page of the selected records. -/
theorem select_eq (h : Selectable table tenant filter sorts limit)
    (hids : (records.map db.id).Nodup) (cursor : Option String) :
    let items := Paging.page db.id (selected db records tenant filter sorts) limit.toNat cursor
    select db records table tenant filter sorts limit cursor =
      .ok ⟨items, Paging.next db.id limit.toNat items⟩ := by
  obtain ⟨⟨clause, args, hbuild⟩, hvalid, hremnant⟩ := h
  have hquery : selectQuery table tenant filter sorts limit cursor = .ok _ :=
    selectQuery_eq_ok_iff.mpr ⟨clause, args, hbuild, hvalid, rfl⟩
  obtain ⟨condition, hread⟩ : ∃ condition,
      read (tenantWhere (whereClauses clause cursor)) = some condition := by
    have hreads := read_tenantWhere
      (reads_of_binds (fun _ _ _ => false) hbuild
        (binds_queryArgs table tenant filter limit cursor)) cursor
    cases htruth : (Mapper.remnant (fun _ _ _ => false) filter).truth with
    | none => exact absurd (Remnant.truth_eq_none_iff.mp htruth) hremnant
    | some held =>
        rw [htruth] at hreads
        obtain ⟨condition, hread, _⟩ := hreads
        exact ⟨condition, hread⟩
  have hlimit : ((queryArgs table tenant filter limit cursor).get "limit").bind Json.Value.asU64 =
      some limit := by
    rw [get_queryArgs, (get_queryParams "limit").2 (by decide), if_neg (by decide),
      get_selectParams, if_pos rfl]
    rfl
  have hanswer : db.answer records ⟨tenantWhere (whereClauses clause cursor),
      orderText (trimmed (sorts.getD [])), queryArgs table tenant filter limit cursor⟩ =
      .ok (Paging.page db.id (selected db records tenant filter sorts) limit.toNat cursor) := by
    rw [SelectDb.answer, hread]
    dsimp only
    rw [hlimit, Option.elim_some, Paging.page, Paging.after, selected, ← ordered_filter ?_]
    · simp only [condition_holds ⟨args, hbuild⟩ hread, List.filter_filter]
      refine congrArg (fun found => Except.ok ((db.ordered (orderClause sorts) found).take _)) ?_
      exact List.filter_congr fun record _ => Bool.and_comm _ _
    · exact hids.sublist (List.filter_sublist.map _)
  intro items
  rw [select, hquery]
  change (do
    let items ← (db.answer records _).mapError mapSurrealError
    _) = _
  rw [hanswer]
  rfl

/-- The calls visit the selected records. -/
theorem calls_iff (h : Selectable table tenant filter sorts limit)
    (hids : (records.map db.id).Nodup) {visited : List T} :
    Calls db records table tenant filter sorts limit cursor visited ↔
      Paging.Visits db.id (selected db records tenant filter sorts) limit.toNat cursor visited := by
  constructor
  · intro hcalls
    induction hcalls with
    | last hselect =>
        rw [select_eq h hids] at hselect
        injection hselect with hpage
        injection hpage with hitems hnext
        subst hitems
        exact .last hnext
    | more hselect _ ih =>
        rw [select_eq h hids] at hselect
        injection hselect with hpage
        injection hpage with hitems hnext
        subst hitems
        exact .more hnext ih
  · intro hvisits
    induction hvisits with
    | last hnext => exact .last ((select_eq h hids _).trans (by rw [hnext]))
    | more hnext _ ih => exact .more ((select_eq h hids _).trans (by rw [hnext])) ih

/-- A statement that is answered is one that can be selected by. -/
theorem selectable_of_select {page : Page T}
    (h : select db records table tenant filter sorts limit cursor = .ok page) :
    Selectable table tenant filter sorts limit := by
  obtain ⟨query, hquery, h⟩ := except_do_eq_ok_iff.mp h
  obtain ⟨items, hitems, _⟩ := except_do_eq_ok_iff.mp h
  obtain ⟨clause, args, hbuild, hvalid, rfl⟩ := selectQuery_eq_ok_iff.mp hquery
  refine ⟨⟨clause, args, hbuild⟩, hvalid, fun hbroken => ?_⟩
  have hreads := read_tenantWhere
    (reads_of_binds (fun _ _ _ => false) hbuild
      (binds_queryArgs table tenant filter limit cursor)) cursor
  rw [Remnant.truth_eq_none_iff.mpr hbroken] at hreads
  rw [SelectDb.answer, hreads] at hitems
  cases hitems

theorem selectable_of_calls {visited : List T}
    (h : Calls db records table tenant filter sorts limit cursor visited) :
    Selectable table tenant filter sorts limit := by
  cases h with
  | last hselect => exact selectable_of_select hselect
  | more hselect _ => exact selectable_of_select hselect

/-- The calls always come to an end. -/
theorem exists_calls (h : Selectable table tenant filter sorts limit)
    (hids : (records.map db.id).Nodup) (cursor : Option String) :
    ∃ visited, Calls db records table tenant filter sorts limit cursor visited := by
  obtain ⟨visited, hvisits⟩ := Paging.exists_visits db.id
    (selected db records tenant filter sorts) limit.toNat cursor
  exact ⟨visited, (calls_iff h hids).mpr hvisits⟩

theorem nodup_selected (hids : (records.map db.id).Nodup) :
    ((selected db records tenant filter sorts).map db.id).Nodup :=
  (((List.perm_insertionSort _ _).map db.id).nodup_iff).mpr
    (hids.sublist (List.filter_sublist.map _))

/-- If the filter keeps its meaning, the selected records are those that match. -/
theorem selected_eq (h : ∀ record ∈ records,
    (Mapper.remnant (db.compare record) filter).truth =
      some (Mapper.holds (db.compare record) filter)) :
    selected db records tenant filter sorts = matching db records tenant filter sorts := by
  unfold selected matching
  refine congrArg _ (List.filter_congr fun record hrecord => ?_)
  rw [h record hrecord]
  cases Mapper.holds (db.compare record) filter <;> simp

/-- The calls return the records that match, each once and in the order of the sorts, if and only
if at the end of every full page of these the selected records with greater ids begin with the
next page of them. If the filter keeps its meaning, this is so if and only if the records so far
have the ids up to the last one, and the others greater ones. -/
theorem calls_matching_iff (db : SelectDb T) (records : List T) (table : String)
    (tenant : TenantId) (filter : Json.Value) (sorts : Option (List SortKey)) (limit : UInt64)
    (hids : (records.map db.id).Nodup) (hlimit : 0 < limit.toNat) :
    (Calls db records table tenant filter sorts limit none
        (matching db records tenant filter sorts) ↔
      Selectable table tenant filter sorts limit ∧
        Paging.Continues db.id (selected db records tenant filter sorts) limit.toNat none
          (matching db records tenant filter sorts)) ∧
    ((∀ record ∈ records, (Mapper.remnant (db.compare record) filter).truth =
        some (Mapper.holds (db.compare record) filter)) →
      (Paging.Continues db.id (selected db records tenant filter sorts) limit.toNat none
          (matching db records tenant filter sorts) ↔
        Paging.Splits db.id (matching db records tenant filter sorts) limit.toNat)) := by
  constructor
  · constructor
    · intro hcalls
      have hselectable := selectable_of_calls hcalls
      exact ⟨hselectable, ((calls_iff hselectable hids).mp hcalls).continues hlimit⟩
    · rintro ⟨hselectable, hcontinues⟩
      exact (calls_iff hselectable hids).mpr (Paging.visits_of_continues hlimit hcontinues)
  · intro hmeaning
    rw [← selected_eq hmeaning]
    exact ⟨fun h => h.splits hlimit (nodup_selected hids), fun h => h.continues hlimit⟩

/-- Without sorts, the calls return all records that match, each once. -/
theorem calls_matching_of_unsorted (hselectable : Selectable table tenant filter sorts limit)
    (hids : (records.map db.id).Nodup) (hlimit : 0 < limit.toNat)
    (hmeaning : ∀ record ∈ records, (Mapper.remnant (db.compare record) filter).truth =
      some (Mapper.holds (db.compare record) filter))
    (hsorts : orderClause sorts = "") :
    Calls db records table tenant filter sorts limit none
      (matching db records tenant filter sorts) := by
  rw [← selected_eq hmeaning]
  refine (calls_iff hselectable hids).mpr (Paging.visits_of_continues hlimit ?_)
  refine Paging.Splits.continues (Paging.splits_of_pairwise ?_ _) hlimit
  have hsorted : (selected db records tenant filter sorts).Pairwise
      fun first second => db.id first ≤ db.id second := by
    have : Std.Total fun first second => db.order (orderClause sorts) first second = true :=
      ⟨db.order_total _⟩
    have : IsTrans T fun first second => db.order (orderClause sorts) first second = true :=
      ⟨db.order_trans _⟩
    refine (List.pairwise_insertionSort _ _).imp fun hle => ?_
    rw [hsorts, db.order_empty] at hle
    exact of_decide_eq_true hle
  have hdistinct : (selected db records tenant filter sorts).Pairwise
      fun first second => db.id first ≠ db.id second :=
    List.pairwise_map.mp (nodup_selected hids)
  exact (hsorted.and hdistinct).imp fun hboth => lt_of_le_of_ne hboth.1 hboth.2

/-- The pages are determined by the records. -/
theorem Calls.unique {visited other : List T}
    (h : Calls db records table tenant filter sorts limit cursor visited)
    (hother : Calls db records table tenant filter sorts limit cursor other) :
    visited = other := by
  induction h generalizing other with
  | last hselect =>
      cases hother with
      | last hselect' =>
          cases hselect.symm.trans hselect'
          rfl
      | more hselect' _ => cases hselect.symm.trans hselect'
  | more hselect _ ih =>
      cases hother with
      | last hselect' => cases hselect.symm.trans hselect'
      | more hselect' hrest =>
          cases hselect.symm.trans hselect'
          rw [ih hrest]

end Page

end Calls

namespace ByName

/-- A record with a name. -/
structure Named where
  id : String
  name : String
  deriving DecidableEq

/-- Names come in their order, and equal ones in that of the ids. -/
def byName (first second : Named) : Bool :=
  first.name < second.name || first.name = second.name && first.id ≤ second.id

/-- The rows in the order of a text: by their ids where it is empty, by name otherwise. -/
def inOrder (text : String) (first second : Named) : Bool :=
  if text = "" then decide (first.id ≤ second.id) else byName first second

theorem inOrder_trans (text : String) (first second third : Named) :
    inOrder text first second = true → inOrder text second third = true →
      inOrder text first third = true := by
  unfold inOrder
  split
  · simpa using le_trans
  · simp only [byName, Bool.or_eq_true, Bool.and_eq_true, decide_eq_true_iff]
    grind

theorem inOrder_total (text : String) (first second : Named) :
    inOrder text first second = true ∨ inOrder text second first = true := by
  unfold inOrder
  split
  · simpa using le_total first.id second.id
  · simp only [byName, Bool.or_eq_true, Bool.and_eq_true, decide_eq_true_iff]
    grind

theorem inOrder_antisymm (text : String) (first second : Named) :
    inOrder text first second = true → inOrder text second first = true →
      first.id = second.id := by
  unfold inOrder
  split
  · simpa using le_antisymm
  · simp only [byName, Bool.or_eq_true, Bool.and_eq_true, decide_eq_true_iff]
    grind

theorem inOrder_empty (first second : Named) :
    inOrder "" first second = decide (first.id ≤ second.id) := if_pos rfl

def db : SelectDb Named where
  id := Named.id
  compare record field comparator operand :=
    match field, comparator, operand with
    | "tenant", "=", .string text => text = "acme"
    | "id", ">", .string cursor => decide (cursor < record.id)
    | _, _, _ => false
  order := inOrder
  parseError text := "Parse error: " ++ text
  compare_id _ _ := rfl
  order_trans := inOrder_trans
  order_total := inOrder_total
  order_antisymm := inOrder_antisymm
  order_empty := inOrder_empty

/-- The record that comes last by name has the least id. -/
def records : List Named := [⟨"a", "zoe"⟩, ⟨"b", "ann"⟩]

def sorts : Option (List SortKey) := some [⟨"name", true⟩]

theorem calls_records :
    Calls db records "people" ⟨"acme"⟩ .null sorts 1 none [⟨"b", "ann"⟩] := by
  have hlast : select db records "people" ⟨"acme"⟩ .null sorts 1 (some "b") = .ok ⟨[], none⟩ := by
    rfl
  have hfirst : select db records "people" ⟨"acme"⟩ .null sorts 1 none =
      .ok ⟨[⟨"b", "ann"⟩], some "b"⟩ := by
    rfl
  exact .more hfirst (.last hlast)

end ByName

open ByName in
theorem calls_matching_iff_byName :
    (Calls db records "people" ⟨"acme"⟩ .null sorts 1 none
        (matching db records ⟨"acme"⟩ .null sorts) ↔
      Selectable "people" ⟨"acme"⟩ .null sorts 1 ∧
        Paging.Continues db.id (selected db records ⟨"acme"⟩ .null sorts) 1 none
          (matching db records ⟨"acme"⟩ .null sorts)) ∧
    (Paging.Continues db.id (selected db records ⟨"acme"⟩ .null sorts) 1 none
        (matching db records ⟨"acme"⟩ .null sorts) ↔
      Paging.Splits db.id (matching db records ⟨"acme"⟩ .null sorts) 1) :=
  have h := calls_matching_iff db records "people" ⟨"acme"⟩ .null sorts 1 (by decide) (by decide)
  ⟨h.1, h.2 fun _ _ => rfl⟩

open ByName in
/-- The first page ends with the greatest id, and so the other record is not on any page. -/
theorem not_calls_matching_byName :
    ¬Calls db records "people" ⟨"acme"⟩ .null sorts 1 none
      (matching db records ⟨"acme"⟩ .null sorts) := by
  intro h
  have hvisited := h.unique calls_records
  revert hvisited
  decide

end SurrealRepository

end Soulbase.Storage
