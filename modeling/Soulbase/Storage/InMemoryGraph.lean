/-
# The in-memory graph

`InMemoryGraph` keeps edges in a list, next to the tables of the repositories. `relate` checks
both ends of an edge, but nothing looks at the edges when a record is deleted, and a query stops
with an error at the first edge that matches and has lost the record at its other end.
-/

import Soulbase.Foundation.Text
import Soulbase.Storage.Repository

namespace Soulbase.Storage

open Soulbase.Foundation

/-- `EdgeRecord`. -/
structure EdgeRecord where
  tenant : String
  source : String
  edge : String
  target : String
  properties : Json.Value

/-- The part of `MockState` that the graph works on. -/
structure MockState where
  tables : Tables
  edges : List EdgeRecord

namespace InMemoryGraph

section Graph

variable {T : Type}

/-- `InMemoryGraph::split_id`. -/
def splitId (id : String) : String × String := (Text.splitOnce ':' id).getD ("", id)

/-- The document of an id, in the table that the id names. -/
def record (tables : Tables) (id : String) : Option Json.Value :=
  (tables.get (splitId id).1).bind fun tableMap => tableMap.get id

/-- Whether a document is of a tenant. -/
def isOf (tenant : TenantId) (value : Json.Value) : Bool :=
  (value.get "tenant").bind Json.Value.asStr = some tenant.asStr

/-- `InMemoryGraph::fetch_entity`. -/
def fetchEntity (entity : Entity T) (tables : Tables) (tenant : TenantId) (id : String) :
    StorageResult T :=
  if (splitId id).1 = "" then .error (.schema "invalid id format")
  else do
    let tableMap ← okOr (.notFound "record table not found") (tables.get (splitId id).1)
    let value ← okOr (.notFound "record not found") (tableMap.get id)
    if isOf tenant value then entity.deserialize value
    else .error (.schema "tenant mismatch in graph")

/-- What `relate` checks of a node. -/
def checkNode (tables : Tables) (tenant : TenantId) (id missing mismatch : String) :
    StorageResult Unit := do
  let tableMap ← okOr (.notFound missing) (tables.get (splitId id).1)
  let value ← okOr (.notFound missing) (tableMap.get id)
  if isOf tenant value then .ok () else .error (.schema mismatch)

/-- `InMemoryGraph::relate`. -/
def relate (state : MockState) (tenant : TenantId) (source edge target : String)
    (properties : Json.Value) : StorageResult Unit × MockState :=
  let checked : StorageResult Unit := do
    checkNode state.tables tenant source "source node not found" "tenant mismatch for source"
    checkNode state.tables tenant target "target node not found" "tenant mismatch for target"
  match checked with
  | .error err => (.error err, state)
  | .ok () =>
      (.ok (), { state with
        edges := state.edges ++ [⟨tenant.asStr, source, edge, target, properties⟩] })

/-- The loop of `out` and `in`: it looks at the limit after every record. -/
def collect (fetch : String → StorageResult T) (limit : ℕ) :
    List T → List String → StorageResult (List T)
  | results, [] => .ok results
  | results, id :: rest => do
      let found ← fetch id
      if limit ≤ (results ++ [found]).length then .ok (results ++ [found])
      else collect fetch limit (results ++ [found]) rest

/-- The other ends of the edges that `out` looks at, in the order in which they were recorded. -/
def targets (edges : List EdgeRecord) (tenant : TenantId) (source edge : String) : List String :=
  (edges.filter fun record =>
    record.tenant = tenant.asStr && record.source = source && record.edge = edge).map (·.target)

/-- Those that `in` looks at. -/
def sources (edges : List EdgeRecord) (tenant : TenantId) (target edge : String) : List String :=
  (edges.filter fun record =>
    record.tenant = tenant.asStr && record.target = target && record.edge = edge).map (·.source)

/-- `InMemoryGraph::out`. -/
def out (entity : Entity T) (state : MockState) (tenant : TenantId) (source edge : String)
    (limit : ℕ) : StorageResult (List T) :=
  collect (fetchEntity entity state.tables tenant) limit []
    (targets state.edges tenant source edge)

/-- `InMemoryGraph::in`. -/
def «in» (entity : Entity T) (state : MockState) (tenant : TenantId) (target edge : String)
    (limit : ℕ) : StorageResult (List T) :=
  collect (fetchEntity entity state.tables tenant) limit []
    (sources state.edges tenant target edge)

end Graph

/-- A call on the table of a repository, which makes the table if there is none. -/
def onTable {α : Type} (state : MockState) (table : String) (call : Documents → α × Documents) :
    MockState :=
  { state with tables := state.tables.put table (call ((state.tables.get table).getD ∅)).2 }

/-- A call that changes the tables or the edges. -/
inductive Call : Type 1
  | create {T : Type} (entity : Entity T) (table : String) (tenant : TenantId) (doc : T)
  | upsert {T : Type} (entity : Entity T) (table : String) (tenant : TenantId) (id : String)
      (patch : Json.Value) (expectedVersion : Option UInt64)
  | delete (table : String) (tenant : TenantId) (id : String)
  | relate (tenant : TenantId) (source edge target : String) (properties : Json.Value)

/-- What a call makes of the datastore. -/
def Call.apply (state : MockState) : Call → MockState
  | create entity table tenant doc =>
      onTable state table fun documents => InMemoryRepository.create entity documents tenant doc
  | upsert entity table tenant id patch expectedVersion =>
      onTable state table fun documents =>
        InMemoryRepository.upsert entity documents tenant id patch expectedVersion
  | delete table tenant id =>
      match state.tables.get table with
      | none => state
      | some _ =>
          onTable state table fun documents => InMemoryRepository.delete documents tenant id
  | relate tenant source edge target properties =>
      (InMemoryGraph.relate state tenant source edge target properties).2

/-- The datastore after calls, empty at first. -/
def run (calls : List Call) : MockState := calls.foldl Call.apply ⟨∅, []⟩

section Queries

variable {T : Type} {entity : Entity T} {tables : Tables} {tenant : TenantId} {ids : List String}
variable {limit : ℕ} {id : String} {doc : T}

/-- The record of an id, if it is there, of the tenant and of the type of the query. -/
def existing (entity : Entity T) (tables : Tables) (tenant : TenantId) (id : String) : Option T :=
  ((record tables id).filter (isOf tenant)).bind fun value => (entity.fromValue value).toOption

/-- The ends of the first edges have their records, in tables that have a name; and no edge is
looked at where none is asked for. -/
def Present (entity : Entity T) (tables : Tables) (tenant : TenantId) (limit : ℕ)
    (ids : List String) : Prop :=
  (limit = 0 → ids = []) ∧ ∀ id ∈ ids.take limit,
    (splitId id).1 ≠ "" ∧ (existing entity tables tenant id).isSome = true

theorem fetchEntity_eq_ok_iff :
    fetchEntity entity tables tenant id = .ok doc ↔
      (splitId id).1 ≠ "" ∧ existing entity tables tenant id = some doc := by
  unfold fetchEntity
  by_cases hname : (splitId id).1 = ""
  · rw [if_pos hname]
    exact iff_of_false nofun fun h => h.1 hname
  rw [if_neg hname, and_iff_right hname]
  simp only [except_do_eq_ok_iff, okOr_eq_ok_iff, existing, record, Option.bind_eq_some_iff,
    Option.filter_eq_some_iff]
  constructor
  · rintro ⟨tableMap, htable, value, hvalue, h⟩
    split at h
    case isTrue htenant =>
      rw [Entity.deserialize_eq_ok_iff] at h
      exact ⟨value, ⟨⟨tableMap, htable, hvalue⟩, htenant⟩, by rw [h]; rfl⟩
    case isFalse => cases h
  · rintro ⟨value, ⟨⟨tableMap, htable, hvalue⟩, htenant⟩, hread⟩
    refine ⟨tableMap, htable, value, hvalue, ?_⟩
    rw [if_pos htenant, Entity.deserialize_eq_ok_iff]
    cases hdoc : entity.fromValue value with
    | error err =>
        rw [hdoc] at hread
        cases hread
    | ok found =>
        rw [hdoc] at hread
        cases hread
        rfl

/-- A record that is there is found, unless its table has no name. -/
theorem exists_fetchEntity_iff :
    (∃ doc, fetchEntity entity tables tenant id = .ok doc) ↔
      (splitId id).1 ≠ "" ∧ (existing entity tables tenant id).isSome = true := by
  simp only [fetchEntity_eq_ok_iff, Option.isSome_iff_exists, exists_and_left]

/-- The loop, as long as there are fewer records than asked for: it returns those of the next ids
if and only if all of these are found. -/
theorem collect_eq_ok_iff {fetch : String → StorageResult T} {found : String → Option T}
    (hfetch : ∀ id doc, fetch id = .ok doc → found id = some doc) (results : List T)
    (hlimit : results.length < limit) :
    collect fetch limit results ids =
        .ok (results ++ (ids.filterMap found).take (limit - results.length)) ↔
      ∀ id ∈ ids.take (limit - results.length), ∃ doc, fetch id = .ok doc := by
  induction ids generalizing results with
  | nil => simp [collect]
  | cons id rest ih =>
      obtain ⟨left, hleft⟩ := Nat.exists_eq_add_of_lt hlimit
      have hcount : limit - results.length = left + 1 := by omega
      rw [collect, hcount, List.take_succ_cons]
      cases hid : fetch id with
      | error err =>
          refine iff_of_false nofun fun hall => ?_
          obtain ⟨doc, hdoc⟩ := hall id List.mem_cons_self
          exact absurd (hid.symm.trans hdoc) nofun
      | ok doc =>
          change (if limit ≤ (results ++ [doc]).length then Except.ok (results ++ [doc])
            else collect fetch limit (results ++ [doc]) rest) = _ ↔ _
          rw [List.filterMap_cons_some (hfetch id doc hid), List.take_succ_cons,
            List.forall_mem_cons, and_iff_right ⟨doc, hid⟩]
          by_cases hfull : limit ≤ (results ++ [doc]).length
          · have hzero : left = 0 := by
              rw [List.length_append, List.length_singleton] at hfull
              omega
            rw [if_pos hfull, hzero]
            simp
          · rw [if_neg hfull]
            have hnext := ih (results ++ [doc]) (by omega)
            have hrest : limit - (results ++ [doc]).length = left := by
              rw [List.length_append, List.length_singleton]
              omega
            rw [hrest, List.append_assoc] at hnext
            exact hnext

/-- A query returns the records that are there, the first of them up to the limit, if and only if
the ends of the first edges have their records. -/
theorem collect_existing_iff :
    collect (fetchEntity entity tables tenant) limit [] ids =
        .ok ((ids.filterMap (existing entity tables tenant)).take limit) ↔
      Present entity tables tenant limit ids := by
  have hfetch : ∀ id doc, fetchEntity entity tables tenant id = .ok doc →
      existing entity tables tenant id = some doc :=
    fun id doc h => (fetchEntity_eq_ok_iff.mp h).2
  unfold Present
  simp only [← exists_fetchEntity_iff]
  by_cases hlimit : limit = 0
  · subst hlimit
    cases ids with
    | nil => simp [collect]
    | cons id rest =>
        refine iff_of_false ?_ fun h => absurd (h.1 rfl) (List.cons_ne_nil _ _)
        rw [collect, List.take_zero]
        cases fetchEntity entity tables tenant id with
        | error err => exact nofun
        | ok doc =>
            intro h
            cases h
  · rw [and_iff_right fun h => absurd h hlimit]
    have hloop := @collect_eq_ok_iff T ids limit _ _ hfetch [] (Nat.pos_of_ne_zero hlimit)
    rw [List.nil_append, List.length_nil, Nat.sub_zero] at hloop
    exact hloop

end Queries

/-- After any calls, the queries return the records that are still there, the first of them up to
the limit and in the order of the edges, if and only if the ends of the first edges that match have
their records, and no edge matches where none is asked for. -/
theorem queries_eq_iff (calls : List Call) {T : Type} (entity : Entity T) (tenant : TenantId)
    (node edge : String) (limit : ℕ) :
    let state := run calls
    let found := existing entity state.tables tenant
    (out entity state tenant node edge limit =
        .ok (((targets state.edges tenant node edge).filterMap found).take limit) ↔
      Present entity state.tables tenant limit (targets state.edges tenant node edge)) ∧
    («in» entity state tenant node edge limit =
        .ok (((sources state.edges tenant node edge).filterMap found).take limit) ↔
      Present entity state.tables tenant limit (sources state.edges tenant node edge)) :=
  ⟨collect_existing_iff, collect_existing_iff⟩

namespace LostEnd

/-- A record of a tenant. -/
structure Note where
  id : String
  tenant : String

def note : Entity Note where
  id := Note.id
  toValue doc := .ok (.object [("id", .string doc.id), ("tenant", .string doc.tenant)])
  fromValue value :=
    match (value.get "id").bind Json.Value.asStr, (value.get "tenant").bind Json.Value.asStr with
    | some id, some tenant => .ok ⟨id, tenant⟩
    | _, _ => .error "missing field"

/-- An edge between two records, of which the second is then deleted. -/
def calls : List Call :=
  [.create note "note" ⟨"acme"⟩ ⟨"note:a", "acme"⟩, .create note "note" ⟨"acme"⟩ ⟨"note:b", "acme"⟩,
    .relate ⟨"acme"⟩ "note:a" "likes" "note:b" .null, .delete "note" ⟨"acme"⟩ "note:b"]

end LostEnd

open LostEnd in
/-- The query should return no records, and fails. -/
theorem not_queries_eq_lostEnd :
    let state := run calls
    out note state ⟨"acme"⟩ "note:a" "likes" 10 ≠
      .ok (((targets state.edges ⟨"acme"⟩ "note:a" "likes").filterMap
        (existing note state.tables ⟨"acme"⟩)).take 10) := by
  intro state
  have hfails : out note state ⟨"acme"⟩ "note:a" "likes" 10 =
      .error (.notFound "record not found") := by
    rfl
  rw [hfails]
  exact nofun

/-! ## Ends that are not deleted -/

/-- What a call must not do: change the tenant of a record, or delete the end of an edge. -/
def Call.Keeps (state : MockState) : Call → Prop
  | create .. | relate .. => True
  | upsert _ _ _ _ patch _ =>
      ∀ fields : Json.Map, patch = .object fields → fields.written "tenant" = none
  | delete _ _ id => ∀ edge ∈ state.edges, edge.source ≠ id ∧ edge.target ≠ id

/-- All calls do not. -/
def AllKeep : MockState → List Call → Prop
  | _, [] => True
  | state, call :: rest => call.Keeps state ∧ AllKeep (call.apply state) rest

/-- There is a record of the tenant under an id. -/
def Holds (tables : Tables) (tenant : TenantId) (id : String) : Prop :=
  ∃ value, record tables id = some value ∧ isOf tenant value = true

/-- Both ends of every edge have their records. -/
def Anchored (state : MockState) : Prop :=
  ∀ edge ∈ state.edges,
    Holds state.tables ⟨edge.tenant⟩ edge.source ∧ Holds state.tables ⟨edge.tenant⟩ edge.target

section Anchored

variable {state : MockState} {tables : Tables} {tenant owner : TenantId} {id table : String}

theorem record_eq (tables : Tables) (id : String) :
    record tables id = ((tables.get (splitId id).1).getD ∅).get id := by
  unfold record
  cases tables.get (splitId id).1 with
  | none => exact (HashMap.get_empty id).symm
  | some tableMap => rfl

/-- A call on a table keeps a record if it keeps the document. -/
theorem Holds.onTable {α : Type} {call : Documents → α × Documents}
    (h : Holds state.tables tenant id)
    (hcall : ∀ documents : Documents, ∀ value, documents.get id = some value →
      isOf tenant value = true →
        ∃ kept, (call documents).2.get id = some kept ∧ isOf tenant kept = true) :
    Holds (onTable state table call).tables tenant id := by
  obtain ⟨value, hvalue, htenant⟩ := h
  unfold Holds InMemoryGraph.onTable
  rw [record_eq, HashMap.get_put]
  by_cases hname : (splitId id).1 = table
  · rw [if_pos hname, Option.getD_some]
    rw [record_eq, hname] at hvalue
    exact hcall _ value hvalue htenant
  · rw [if_neg hname, ← record_eq]
    exact ⟨value, hvalue, htenant⟩

theorem checkNode_eq_ok_iff {missing mismatch : String} :
    checkNode tables tenant id missing mismatch = .ok () ↔ Holds tables tenant id := by
  unfold checkNode
  simp only [except_do_eq_ok_iff, okOr_eq_ok_iff, Holds, record, Option.bind_eq_some_iff]
  constructor
  · rintro ⟨tableMap, htable, value, hvalue, h⟩
    split at h
    case isTrue htenant => exact ⟨value, ⟨tableMap, htable, hvalue⟩, htenant⟩
    case isFalse => cases h
  · rintro ⟨value, ⟨tableMap, htable, hvalue⟩, htenant⟩
    exact ⟨tableMap, htable, value, hvalue, if_pos htenant⟩

/-- A call that does not keeps the record of an id that is the end of an edge. -/
theorem Holds.apply {call : Call} (h : Holds state.tables tenant id)
    (hkeeps : call.Keeps state)
    (hend : ∃ edge ∈ state.edges, edge.source = id ∨ edge.target = id) :
    Holds (call.apply state).tables tenant id := by
  cases call with
  | create entity table owner doc =>
      refine h.onTable fun documents value hvalue htenant => ?_
      have hcreates := InMemoryRepository.creates entity documents owner doc
      generalize InMemoryRepository.create entity documents owner doc = outcome at hcreates ⊢
      cases hcreates with
      | refused => exact ⟨value, hvalue, htenant⟩
      | stored hfree _ _ =>
          refine ⟨value, ?_, htenant⟩
          rw [HashMap.get_put, if_neg]
          · exact hvalue
          · rintro rfl
            exact absurd (hfree.symm.trans hvalue) nofun
  | upsert entity table owner name patch expectedVersion =>
      refine h.onTable fun documents value hvalue htenant => ?_
      have hupserts :=
        InMemoryRepository.upserts entity documents owner name patch expectedVersion
      generalize InMemoryRepository.upsert entity documents owner name patch expectedVersion =
        outcome at hupserts ⊢
      cases hupserts with
      | refused => exact ⟨value, hvalue, htenant⟩
      | @merged base fields hget _ _ hpatch =>
          by_cases hname : id = name
          · subst hname
            obtain rfl := Option.some.inj (hvalue.symm.trans hget)
            refine ⟨_, HashMap.get_put_self _ _ _, ?_⟩
            have hsame : (Json.Value.object (base.insertAll fields)).get "tenant" =
                (Json.Value.object base).get "tenant" := by
              change (base.insertAll fields).get "tenant" = base.get "tenant"
              rw [Json.Map.get_insertAll, hkeeps fields hpatch, Option.none_or]
            rw [isOf, hsame]
            exact htenant
          · refine ⟨value, ?_, htenant⟩
            rw [HashMap.get_put, if_neg hname]
            exact hvalue
  | delete table owner name =>
      rw [Call.apply]
      cases state.tables.get table with
      | none => exact h
      | some _ =>
          refine h.onTable fun documents value hvalue htenant => ?_
          have hdeletes := InMemoryRepository.deletes documents owner name
          generalize InMemoryRepository.delete documents owner name = outcome at hdeletes ⊢
          cases hdeletes with
          | absent => exact ⟨value, hvalue, htenant⟩
          | refused => exact ⟨value, hvalue, htenant⟩
          | removed _ _ =>
              refine ⟨value, ?_, htenant⟩
              obtain ⟨edge, hedge, hnode⟩ := hend
              obtain ⟨hsource, htarget⟩ := hkeeps edge hedge
              rw [Records.get_delete_of_ne]
              · exact hvalue
              · rintro rfl
                exact hnode.elim hsource htarget
  | relate owner source edge target properties =>
      rw [Call.apply, relate]
      split <;> exact h

/-- The edges after a call are those before, unless it records one with both ends. -/
theorem edges_apply (call : Call) (state : MockState) {edge : EdgeRecord}
    (hedge : edge ∈ (call.apply state).edges) :
    edge ∈ state.edges ∨
      (Holds (call.apply state).tables ⟨edge.tenant⟩ edge.source ∧
        Holds (call.apply state).tables ⟨edge.tenant⟩ edge.target) := by
  cases call with
  | create => exact .inl hedge
  | upsert => exact .inl hedge
  | delete table owner name =>
      rw [Call.apply] at hedge
      cases htable : state.tables.get table with
      | none =>
          rw [htable] at hedge
          exact .inl hedge
      | some _ =>
          rw [htable] at hedge
          exact .inl hedge
  | relate owner source name target properties =>
      rw [Call.apply, relate] at hedge ⊢
      split
      case h_1 err herr =>
        rw [herr] at hedge
        exact .inl hedge
      case h_2 hchecked =>
        rw [hchecked] at hedge
        obtain ⟨⟨⟩, hsource, htarget⟩ := except_do_eq_ok_iff.mp hchecked
        rcases List.mem_append.mp hedge with hold | hnew
        · exact .inl hold
        · rw [List.mem_singleton] at hnew
          subst hnew
          exact .inr ⟨checkNode_eq_ok_iff.mp hsource, checkNode_eq_ok_iff.mp htarget⟩

theorem Anchored.apply {call : Call} (h : Anchored state) (hkeeps : call.Keeps state) :
    Anchored (call.apply state) := by
  intro edge hedge
  rcases edges_apply call state hedge with hold | hnew
  · obtain ⟨hsource, htarget⟩ := h edge hold
    exact ⟨hsource.apply hkeeps ⟨edge, hold, .inl rfl⟩,
      htarget.apply hkeeps ⟨edge, hold, .inr rfl⟩⟩
  · exact hnew

theorem Anchored.run {calls : List Call} (h : Anchored state) (hall : AllKeep state calls) :
    Anchored (calls.foldl Call.apply state) := by
  induction calls generalizing state with
  | nil => exact h
  | cons call rest ih => exact ih (h.apply hall.1) hall.2

/-- As long as no call deletes the end of an edge or changes the tenant of a record, the queries
return what they should, where at least one record is asked for and the records of the tenant can
be read and are in tables with a name. -/
theorem queries_of_allKeep {calls : List Call} {T : Type} {entity : Entity T} {limit : ℕ}
    (hall : AllKeep ⟨∅, []⟩ calls) (hlimit : 0 < limit)
    (hread : ∀ id, Holds (run calls).tables tenant id →
      (splitId id).1 ≠ "" ∧ (existing entity (run calls).tables tenant id).isSome = true)
    (node edge : String) :
    let state := InMemoryGraph.run calls
    let found := existing entity state.tables tenant
    out entity state tenant node edge limit =
        .ok (((targets state.edges tenant node edge).filterMap found).take limit) ∧
      «in» entity state tenant node edge limit =
        .ok (((sources state.edges tenant node edge).filterMap found).take limit) := by
  have hanchored : Anchored (InMemoryGraph.run calls) :=
    Anchored.run (fun edge hedge => absurd hedge List.not_mem_nil) hall
  have hpresent : ∀ {ids : List String},
      (∀ id ∈ ids, Holds (InMemoryGraph.run calls).tables tenant id) →
        Present entity (InMemoryGraph.run calls).tables tenant limit ids := by
    intro ids hids
    refine ⟨fun hzero => absurd hzero (Nat.ne_of_gt hlimit), fun id hid => ?_⟩
    exact hread id (hids id (List.mem_of_mem_take hid))
  obtain ⟨hout, hin⟩ := queries_eq_iff calls entity tenant node edge limit
  refine ⟨hout.mpr (hpresent ?_), hin.mpr (hpresent ?_)⟩
  · intro id hid
    obtain ⟨record, hrecord, rfl⟩ := List.mem_map.mp hid
    obtain ⟨hmem, hmatch⟩ := List.mem_filter.mp hrecord
    have htenant : record.tenant = tenant.asStr := by
      simp only [Bool.and_eq_true, decide_eq_true_iff] at hmatch
      exact hmatch.1.1
    have hends := hanchored record hmem
    rw [htenant] at hends
    exact hends.2
  · intro id hid
    obtain ⟨record, hrecord, rfl⟩ := List.mem_map.mp hid
    obtain ⟨hmem, hmatch⟩ := List.mem_filter.mp hrecord
    have htenant : record.tenant = tenant.asStr := by
      simp only [Bool.and_eq_true, decide_eq_true_iff] at hmatch
      exact hmatch.1.1
    have hends := hanchored record hmem
    rw [htenant] at hends
    exact hends.1

end Anchored

end InMemoryGraph

end Soulbase.Storage
