/-
# What a tenant sees of the others

The repositories of all entities, the graph and the search work on the tables and edges of one
`MockDatastore`. To a tenant a document under an id is its own, or that of another, which it is
told by an error, or there is none. Two states are alike to it if they have the same documents and
edges of its own, and under every id that it names both or neither have a document of another.

Of the others it can then learn in two ways only. They can take an id that it names, or give one
free, and they can hand it a document, by a patch that writes its name into the field `tenant`.
Where they do neither, it is answered as if it were alone.
-/

import Soulbase.Foundation.Noninterference
import Soulbase.Storage.FailedWrites
import Soulbase.Storage.InMemorySearch

namespace Soulbase.Storage

open Soulbase.Foundation InMemoryRepository InMemoryGraph

/-- A call of a repository, of the graph or of the search. -/
inductive StoreCall : Type 1
  | repo {T : Type} (kept : EntityTable T) (call : RepoCall T)
  | relate (tenant : TenantId) (source edge target : String) (properties : Json.Value)
  | out {T : Type} (entity : Entity T) (tenant : TenantId) (source edge : String) (limit : ℕ)
  | «in» {T : Type} (entity : Entity T) (tenant : TenantId) (target edge : String) (limit : ℕ)
  | search {T : Type} (kept : EntityTable T) (tenant : TenantId) (query : String)
      (order : List String) (limit : ℕ)

/-- The ids that a call of a repository names. -/
def RepoCall.ids {T : Type} (entity : Entity T) : RepoCall T → List String
  | .get _ id | .upsert _ id _ _ | .delete _ id => [id]
  | .create _ doc => [entity.id doc]
  | .select _ _ _ _ _ _ => []

/-- The ids under which it may leave a document where there was none, or none where there was
one. -/
def RepoCall.taken {T : Type} (entity : Entity T) : RepoCall T → List String
  | .create _ doc => [entity.id doc]
  | .delete _ id => [id]
  | .get _ _ | .upsert _ _ _ _ | .select _ _ _ _ _ _ => []

/-- The entities that a call returns. -/
abbrev StoreAnswer := (T : Type) × StorageResult (List T)

/-- A table and an id in it. -/
abbrev Place := String × String

/-- The place of a record that the graph looks up. -/
def placeOf (id : String) : Place := ((splitId id).1, id)

namespace StoreCall

/-- Who calls. -/
def tenant : StoreCall → TenantId
  | repo _ call => call.tenant
  | relate tenant _ _ _ _ | out _ tenant _ _ _ | «in» _ tenant _ _ _ | search _ tenant _ _ _ =>
      tenant

/-- What a call returns, and the datastore after it. -/
def serve (state : MockState) : StoreCall → StoreAnswer × MockState
  | repo kept call =>
      let outcome := call.serve kept state.tables
      (⟨_, outcome.1⟩, { state with tables := outcome.2 })
  | relate tenant source edge target properties =>
      let outcome := InMemoryGraph.relate state tenant source edge target properties
      (⟨Unit, outcome.1.map fun _ => []⟩, outcome.2)
  | out entity tenant source edge limit =>
      (⟨_, InMemoryGraph.out entity state tenant source edge limit⟩, state)
  | «in» entity tenant target edge limit =>
      (⟨_, InMemoryGraph.in entity state tenant target edge limit⟩, state)
  | search kept tenant query order limit =>
      (⟨_, (InMemorySearch.search kept.entity (state.tables.documents kept.table) order tenant
        query limit).map (·.items)⟩, state)

/-- The datastore as it answers calls. -/
def service : Service MockState StoreCall StoreAnswer := ⟨fun state call => call.serve state⟩

/-- The places that a call names. -/
def names : StoreCall → List Place
  | repo kept call => (call.ids kept.entity).map (kept.table, ·)
  | relate _ source _ target _ => [placeOf source, placeOf target]
  | out _ _ _ _ _ | «in» _ _ _ _ _ | search _ _ _ _ _ => []

/-- The places at which a call may leave a document where there was none, or none where there was
one. -/
def takes : StoreCall → List Place
  | repo kept call => (call.taken kept.entity).map (kept.table, ·)
  | _ => []

/-- A patch writes the name of a tenant into the field `tenant`. -/
def HandsOver (tenant : TenantId) : StoreCall → Prop
  | repo _ (.upsert _ _ patch _) =>
      Json.Map.written (patch.asObject.getD []) "tenant" = some (.string tenant.asStr)
  | _ => False

end StoreCall

/-- The calls of the others take no id that a tenant names, and hand it no document. -/
def Apart (tenant : TenantId) (calls : List StoreCall) : Prop :=
  ∀ other ∈ calls, other.tenant ≠ tenant → ¬other.HandsOver tenant ∧
    ∀ own ∈ calls, own.tenant = tenant → ∀ place ∈ own.names, place ∉ other.takes

/-- What a tenant sees under an id: nothing, a document of another, or its own. -/
def seen (tenant : TenantId) (held : Option Json.Value) : Option (Option Json.Value) :=
  held.map fun value => if InMemoryGraph.isOf tenant value then some value else none

section Seen

variable {tenant other : TenantId} {value : Json.Value} {first second : Option Json.Value}

theorem isOf_iff_ensureTenant :
    InMemoryGraph.isOf tenant value = true ↔ ensureTenant value tenant = .ok () := by
  rw [ensureTenant_eq_ok_iff, InMemoryGraph.isOf, decide_eq_true_iff]
  cases value.get "tenant" with
  | none => simp
  | some field => cases field <;> simp [Json.Value.asStr]

theorem ensureTenant_of_not_isOf (h : InMemoryGraph.isOf tenant value = false) :
    ensureTenant value tenant = .error (.schema "tenant mismatch") := by
  rw [ensureTenant]
  split
  case h_1 text htext =>
    rw [if_neg]
    rintro rfl
    simp [InMemoryGraph.isOf, htext, Json.Value.asStr] at h
  case h_2 => rfl

/-- A document is of one tenant only. -/
theorem not_isOf_of_ne (hne : other ≠ tenant) (h : InMemoryGraph.isOf other value = true) :
    InMemoryGraph.isOf tenant value = false := by
  rw [InMemoryGraph.isOf, decide_eq_true_iff] at h
  rw [InMemoryGraph.isOf, decide_eq_false_iff_not, h]
  intro heq
  obtain ⟨text⟩ := other
  obtain ⟨text'⟩ := tenant
  exact hne (congrArg TenantId.mk (Option.some.inj heq))

/-- What is seen alike is the same, or in both cases a document of another. -/
theorem seen_eq_iff : seen tenant first = seen tenant second ↔ first = second ∨
    ∃ left right, first = some left ∧ second = some right ∧ InMemoryGraph.isOf tenant left = false ∧
      InMemoryGraph.isOf tenant right = false := by
  cases first with
  | none => cases second <;> simp [seen]
  | some left =>
      cases second with
      | none => simp [seen]
      | some right =>
          cases hleft : InMemoryGraph.isOf tenant left with
          | true =>
              have hne : InMemoryGraph.isOf tenant right = false → left ≠ right := by
                rintro hright rfl
                exact absurd hleft (by simp [hright])
              cases hright : InMemoryGraph.isOf tenant right with
              | true => simp [seen, hleft, hright]
              | false => simp [seen, hleft, hright, hne hright]
          | false =>
              have hne : InMemoryGraph.isOf tenant right = true → left ≠ right := by
                rintro hright rfl
                exact absurd hright (by simp [hleft])
              cases hright : InMemoryGraph.isOf tenant right with
              | true => simp [seen, hleft, hright, hne hright]
              | false => simp [seen, hleft, hright]

end Seen

/-- The document under an id, if it is of the tenant. -/
def ownOf (tenant : TenantId) (documents : Documents) (id : String) : Option Json.Value :=
  (documents.get id).filter (InMemoryGraph.isOf tenant)

/-- Two states are alike to a tenant that names some places. -/
structure AlikeTo (tenant : TenantId) (places : List Place) (first second : MockState) :
    Prop where
  own : ∀ table id, ownOf tenant (first.tables.documents table) id =
    ownOf tenant (second.tables.documents table) id
  named : ∀ table id, (table, id) ∈ places →
    seen tenant ((first.tables.documents table).get id) =
      seen tenant ((second.tables.documents table).get id)
  edges : (first.edges.filter fun record => record.tenant = tenant.asStr) =
    second.edges.filter fun record => record.tenant = tenant.asStr
  ends : ∀ record ∈ first.edges, record.tenant = tenant.asStr →
    ∀ id ∈ [record.source, record.target], placeOf id ∈ places ∧
      (first.tables.get (splitId id).1).isSome ∧ (second.tables.get (splitId id).1).isSome

/-- What a call may do to the documents of a table. -/
inductive DocChange
  | keep
  | put (id : String) (value : Json.Value)
  | delete (id : String)

namespace DocChange

/-- The documents after a change. -/
def apply (documents : Documents) : DocChange → Documents
  | keep => documents
  | put id value => HashMap.put documents id value
  | delete id => Records.delete documents id

/-- A change does the same to what is the same under an id. -/
theorem get_apply (change : DocChange) (id : String) :
    (∀ documents : Documents, (change.apply documents).get id = documents.get id) ∨
      ∃ held : Option Json.Value, ∀ documents : Documents,
        (change.apply documents).get id = held := by
  cases change with
  | keep => exact .inl fun _ => rfl
  | put other value =>
      by_cases hid : id = other
      · exact .inr ⟨some value, fun documents => by
          rw [apply, HashMap.get_put, if_pos hid]⟩
      · exact .inl fun documents => by rw [apply, HashMap.get_put, if_neg hid]
  | delete other =>
      by_cases hid : id = other
      · exact .inr ⟨none, fun documents => by
          rw [apply, Records.delete, HashMap.get_remove, if_pos hid]⟩
      · exact .inl fun documents => by
          rw [apply, Records.delete, HashMap.get_remove, if_neg hid]

/-- So it keeps whatever depends on what is under an id alone. -/
theorem congr_apply {α : Sort*} (view : Option Json.Value → α) {documents others : Documents}
    {id : String} (h : view (documents.get id) = view (others.get id)) (change : DocChange) :
    view ((change.apply documents).get id) = view ((change.apply others).get id) := by
  rcases change.get_apply id with hsame | ⟨held, hheld⟩
  · rw [hsame, hsame, h]
  · rw [hheld, hheld]

end DocChange

section Own

variable {T : Type} {entity : Entity T} {tenant : TenantId} {documents others : Documents}

/-- The own documents that meet a condition are the same. -/
theorem selectWhere_of_own (hown : ∀ id, ownOf tenant documents id = ownOf tenant others id)
    {condition : Json.Value → Bool} (hcondition : ∀ value, condition value = true →
      InMemoryGraph.isOf tenant value = true) (order : List String) :
    documents.selectWhere order condition = others.selectWhere order condition := by
  have hfilter : ∀ table : Documents, table.selectWhere order condition =
      order.filterMap fun id => (ownOf tenant table id).filter condition := by
    intro table
    rw [Records.selectWhere, HashMap.valuesIn, List.filter_filterMap]
    congr 1
    funext id
    rw [ownOf]
    cases table.get id with
    | none => rfl
    | some value =>
        cases hmeets : condition value with
        | true => simp [Option.filter, hmeets, hcondition value hmeets]
        | false => cases hof : InMemoryGraph.isOf tenant value <;> simp [Option.filter, hmeets, hof]
  rw [hfilter, hfilter]
  congr 1
  funext id
  rw [hown id]

/-- A call of the tenant answers what is alike to it alike, and does the same. -/
theorem apply_of_alike {call : RepoCall T} (hmine : call.tenant = tenant)
    (hown : ∀ id, ownOf tenant documents id = ownOf tenant others id)
    (hseen : ∀ id ∈ call.ids entity, seen tenant (documents.get id) =
      seen tenant (others.get id)) :
    (call.apply entity documents).1 = (call.apply entity others).1 ∧
      ∃ change : DocChange, (call.apply entity documents).2 = change.apply documents ∧
        (call.apply entity others).2 = change.apply others := by
  cases call with
  | get caller id =>
      obtain rfl : caller = tenant := hmine
      refine ⟨?_, .keep, rfl, rfl⟩
      rcases seen_eq_iff.mp (hseen id List.mem_cons_self) with hsame | hforeign
      · simp only [RepoCall.apply, InMemoryRepository.get, hsame]
      · obtain ⟨left, right, hleft, hright, hnotLeft, hnotRight⟩ := hforeign
        simp only [RepoCall.apply, InMemoryRepository.get, hleft, hright]
        rw [ensureTenant_of_not_isOf hnotLeft, ensureTenant_of_not_isOf hnotRight]
        rfl
  | create caller doc =>
      obtain rfl : caller = tenant := hmine
      have hid := hseen (entity.id doc) List.mem_cons_self
      have hsome : (documents.get (entity.id doc)).isSome =
          (others.get (entity.id doc)).isSome := by
        have hmap := congrArg Option.isSome hid
        rwa [seen, seen, Option.isSome_map, Option.isSome_map] at hmap
      simp only [RepoCall.apply, create, hsome]
      split
      case isTrue => exact ⟨rfl, .keep, rfl, rfl⟩
      case isFalse =>
        split
        case h_1 => exact ⟨rfl, .keep, rfl, rfl⟩
        case h_2 value _ =>
          split
          case h_1 => exact ⟨rfl, .keep, rfl, rfl⟩
          case h_2 => exact ⟨rfl, .put (entity.id doc) value, rfl, rfl⟩
  | upsert caller id patch expectedVersion =>
      obtain rfl : caller = tenant := hmine
      have hpatched : patched documents caller id patch expectedVersion =
          patched others caller id patch expectedVersion := by
        rcases seen_eq_iff.mp (hseen id List.mem_cons_self) with hsame | hforeign
        · rw [patched, patched, hsame]
        · obtain ⟨left, right, hleft, hright, hnotLeft, hnotRight⟩ := hforeign
          rw [patched, patched, hleft, hright]
          show (ensureTenant left caller >>= _) = (ensureTenant right caller >>= _)
          rw [ensureTenant_of_not_isOf hnotLeft, ensureTenant_of_not_isOf hnotRight]
          rfl
      simp only [RepoCall.apply, upsert, hpatched]
      split
      case h_1 => exact ⟨rfl, .keep, rfl, rfl⟩
      case h_2 value _ => exact ⟨rfl, .put id value, rfl, rfl⟩
  | delete caller id =>
      obtain rfl : caller = tenant := hmine
      rcases seen_eq_iff.mp (hseen id List.mem_cons_self) with hsame | hforeign
      · simp only [RepoCall.apply, InMemoryRepository.delete, hsame]
        split
        case h_1 =>
          split
          case h_1 => exact ⟨rfl, .keep, rfl, rfl⟩
          case h_2 => exact ⟨rfl, .delete id, rfl, rfl⟩
        case h_2 => exact ⟨rfl, .keep, rfl, rfl⟩
      · obtain ⟨left, right, hleft, hright, hnotLeft, hnotRight⟩ := hforeign
        simp only [RepoCall.apply, InMemoryRepository.delete, hleft, hright]
        rw [ensureTenant_of_not_isOf hnotLeft, ensureTenant_of_not_isOf hnotRight]
        exact ⟨rfl, .keep, rfl, rfl⟩
  | select caller comparison order filter sorts limit =>
      obtain rfl : caller = tenant := hmine
      refine ⟨?_, .keep, rfl, rfl⟩
      let condition : Json.Value → Bool := fun value => (ensureTenant value caller).isOk &&
        (filter.asObject.getD []).all fun entry =>
          comparison.eq ((value.get entry.1).getD .null) entry.2
      have hitems : documents.selectWhere order condition =
          others.selectWhere order condition := by
        refine selectWhere_of_own hown (fun value hmeets => ?_) order
        have htenant := (Bool.and_eq_true_iff.mp hmeets).1
        rw [isOf_iff_ensureTenant]
        cases hchecked : ensureTenant value caller with
        | ok _ => rfl
        | error err =>
            rw [hchecked] at htenant
            cases htenant
      simp only [RepoCall.apply, InMemoryRepository.select, condition] at hitems ⊢
      rw [hitems]

end Own

section Others

variable {T : Type} {entity : Entity T} {tenant : TenantId} {documents : Documents}

/-- What is seen of what is under an id stays, if the id is not taken. -/
structure Unseen (tenant : TenantId) (taken : List String) (before after : Documents) : Prop where
  own : ∀ id, ownOf tenant after id = ownOf tenant before id
  seen : ∀ id, id ∉ taken → seen tenant (after.get id) = seen tenant (before.get id)

theorem Unseen.refl (tenant : TenantId) (taken : List String) (documents : Documents) :
    Unseen tenant taken documents documents := ⟨fun _ => rfl, fun _ _ => rfl⟩

/-- A document of another in the place of nothing or of one of another is not seen. -/
theorem Unseen.put {taken : List String} {id : String} {value : Json.Value}
    (hvalue : InMemoryGraph.isOf tenant value = false)
    (hbefore : documents.get id = none ∧ id ∈ taken ∨
      ∃ old, documents.get id = some old ∧ InMemoryGraph.isOf tenant old = false) :
    Unseen tenant taken documents (documents.put id value) where
  own other := by
    rw [ownOf, ownOf, HashMap.get_put]
    split
    case isTrue hother =>
      subst hother
      rcases hbefore with ⟨hnone, -⟩ | ⟨old, hold, hnot⟩
      · rw [hnone]
        simp [Option.filter, hvalue]
      · rw [hold]
        simp [Option.filter, hvalue, hnot]
    case isFalse => rfl
  seen other hother := by
    rw [HashMap.get_put]
    split
    case isTrue heq =>
      subst heq
      rcases hbefore with ⟨-, htaken⟩ | ⟨old, hold, hnot⟩
      · exact absurd htaken hother
      · rw [hold]
        simp [Storage.seen, hvalue, hnot]
    case isFalse => rfl

/-- A call of another tenant that hands nothing over is not seen, but for the ids that it takes. -/
theorem unseen_apply {call : RepoCall T} (hother : call.tenant ≠ tenant)
    (hkeeps : ∀ caller id patch expectedVersion,
      call = .upsert caller id patch expectedVersion →
        Json.Map.written (patch.asObject.getD []) "tenant" ≠ some (.string tenant.asStr)) :
    Unseen tenant (call.taken entity) documents (call.apply entity documents).2 := by
  have hforeign : ∀ value, ensureTenant value call.tenant = .ok () →
      InMemoryGraph.isOf tenant value = false := fun value hvalue =>
    not_isOf_of_ne hother (isOf_iff_ensureTenant.mpr hvalue)
  cases call with
  | get caller id => exact .refl _ _ _
  | select caller comparison order filter sorts limit => exact .refl _ _ _
  | create caller doc =>
      show Unseen tenant _ documents (create entity documents caller doc).2
      have hcreates := creates entity documents caller doc
      generalize create entity documents caller doc = outcome at hcreates ⊢
      cases hcreates with
      | refused err => exact .refl _ _ _
      | stored hfree hvalue htenant =>
          exact .put (hforeign _ htenant) (.inl ⟨hfree, List.mem_cons_self⟩)
  | upsert caller id patch expectedVersion =>
      show Unseen tenant _ documents
        (upsert entity documents caller id patch expectedVersion).2
      have hupserts := upserts entity documents caller id patch expectedVersion
      generalize upsert entity documents caller id patch expectedVersion = outcome at hupserts ⊢
      cases hupserts with
      | refused err => exact .refl _ _ _
      | @merged base fields hget htenant hversion hpatch =>
          refine .put ?_ (.inr ⟨_, hget, hforeign _ htenant⟩)
          have hwritten := hkeeps caller id patch expectedVersion rfl
          rw [hpatch] at hwritten
          have hbase := hforeign _ htenant
          rw [InMemoryGraph.isOf, decide_eq_false_iff_not] at hbase ⊢
          rw [Json.Value.get, Json.Map.get_insertAll]
          cases hfield : fields.written "tenant" with
          | none => exact hbase
          | some field =>
              intro heq
              apply hwritten
              show fields.written "tenant" = _
              rw [hfield]
              cases field with
              | string text =>
                  rw [show text = tenant.asStr from Option.some.inj heq]
              | _ => cases heq
  | delete caller id =>
      show Unseen tenant _ documents (InMemoryRepository.delete documents caller id).2
      have hdeletes := deletes documents caller id
      generalize InMemoryRepository.delete documents caller id = outcome at hdeletes ⊢
      cases hdeletes with
      | absent hget => exact .refl _ _ _
      | refused err => exact .refl _ _ _
      | removed hget htenant =>
          refine ⟨fun other => ?_, fun other hnot => ?_⟩
          · rw [ownOf, ownOf, Records.delete, HashMap.get_remove]
            split
            case isTrue heq =>
              rw [heq, hget]
              simp [Option.filter, hforeign _ htenant]
            case isFalse => rfl
          · rw [Records.delete, HashMap.get_remove, if_neg]
            rintro rfl
            exact hnot List.mem_cons_self

end Others

/-! ## The calls on states that are alike -/

section Steps

variable {tenant : TenantId} {places : List Place} {first second : MockState} {call : StoreCall}

/-- A table that is there stays. -/
theorem isSome_get_serve {T : Type} (kept : EntityTable T) (call : RepoCall T) {tables : Tables}
    {table : String} (h : (tables.get table).isSome) :
    ((call.serve kept tables).2.get table).isSome := by
  have hput : ∀ documents : Documents, ((tables.put kept.table documents).get table).isSome := by
    intro documents
    rw [HashMap.get_put]
    split
    case isTrue => rfl
    case isFalse => exact h
  unfold RepoCall.serve
  cases tables.get kept.table with
  | some documents => exact hput _
  | none => cases call <;> first | exact hput _ | exact h

/-- Of an end of an edge of the tenant the same is fetched. -/
theorem fetchEntity_of_alike {T : Type} (entity : Entity T) (h : AlikeTo tenant places first second)
    {id : String} (hid : placeOf id ∈ places)
    (hfirst : (first.tables.get (splitId id).1).isSome)
    (hsecond : (second.tables.get (splitId id).1).isSome) :
    fetchEntity entity first.tables tenant id = fetchEntity entity second.tables tenant id := by
  obtain ⟨left, hleft⟩ := Option.isSome_iff_exists.mp hfirst
  obtain ⟨right, hright⟩ := Option.isSome_iff_exists.mp hsecond
  have hseen := h.named _ _ hid
  rw [Tables.documents, Tables.documents, hleft, hright, Option.getD_some, Option.getD_some]
    at hseen
  unfold fetchEntity
  rw [hleft, hright]
  split
  case isTrue => rfl
  case isFalse =>
    show (okOr _ (left.get id) >>= _) = (okOr _ (right.get id) >>= _)
    rcases seen_eq_iff.mp hseen with hsame | ⟨value, other, hvalue, hother, hnot, hnotOther⟩
    · rw [hsame]
    · rw [hvalue, hother]
      show (if InMemoryGraph.isOf tenant value = true then _ else _) =
        if InMemoryGraph.isOf tenant other = true then _ else _
      rw [hnot, hnotOther]
      rfl

/-- A query of the tenant follows the same edges to the same entities. -/
theorem collect_of_alike {T : Type} (entity : Entity T) (limit : ℕ) {ids : List String}
    (h : ∀ id ∈ ids, fetchEntity entity first.tables tenant id =
      fetchEntity entity second.tables tenant id) (results : List T) :
    collect (fetchEntity entity first.tables tenant) limit results ids =
      collect (fetchEntity entity second.tables tenant) limit results ids := by
  induction ids generalizing results with
  | nil => rfl
  | cons id ids ih =>
      obtain ⟨hid, hids⟩ := List.forall_mem_cons.mp h
      rw [collect, collect, hid]
      congr 1
      funext found
      rw [ih hids]

/-- The check of a node that the tenant names ends the same. -/
theorem checkNode_of_alike (h : AlikeTo tenant places first second) {id : String}
    (hid : placeOf id ∈ places) (missing mismatch : String) :
    checkNode first.tables tenant id missing mismatch =
      checkNode second.tables tenant id missing mismatch := by
  -- A table that is not there and one without the record are the same to it.
  have hcheck : ∀ tables : Tables, checkNode tables tenant id missing mismatch =
      match seen tenant ((tables.documents (splitId id).1).get id) with
      | none => .error (.notFound missing)
      | some none => .error (.schema mismatch)
      | some (some _) => .ok () := by
    intro tables
    rw [checkNode, Tables.documents]
    cases tables.get (splitId id).1 with
    | none => rfl
    | some documents =>
        rw [Option.getD_some]
        show (okOr _ (documents.get id) >>= _) = _
        cases documents.get id with
        | none => rfl
        | some value =>
            show (if InMemoryGraph.isOf tenant value = true then _ else _) = _
            cases hof : InMemoryGraph.isOf tenant value <;> simp [seen, hof]
  have hseen := h.named _ _ hid
  rw [hcheck, hcheck]
  rw [show seen tenant ((first.tables.documents (splitId id).1).get id) = _ from hseen]

/-- A node that passes the check is in a table. -/
theorem isSome_of_checkNode {tables : Tables} {id missing mismatch : String}
    (h : checkNode tables tenant id missing mismatch = .ok ()) :
    (tables.get (splitId id).1).isSome := by
  rw [checkNode] at h
  obtain ⟨documents, hdocuments, _⟩ := except_do_eq_ok_iff.mp h
  rw [okOr_eq_ok_iff] at hdocuments
  exact Option.isSome_of_eq_some hdocuments

/-- A call of a repository on both states. -/
theorem AlikeTo.repo {T : Type} {kept : EntityTable T} {call : RepoCall T}
    (h : AlikeTo tenant places first second) (hmine : call.tenant = tenant)
    (hnames : ∀ id ∈ call.ids kept.entity, (kept.table, id) ∈ places) :
    (call.serve kept first.tables).1 = (call.serve kept second.tables).1 ∧
      AlikeTo tenant places { first with tables := (call.serve kept first.tables).2 }
        { second with tables := (call.serve kept second.tables).2 } := by
  obtain ⟨hanswer, change, hfirst, hsecond⟩ := apply_of_alike hmine (h.own kept.table)
    fun id hid => h.named kept.table id (hnames id hid)
  refine ⟨by rw [serve_fst, serve_fst, hanswer], ?_, ?_, h.edges, ?_⟩
  · intro table id
    rw [documents_serve, documents_serve]
    split
    case isTrue =>
      rw [hfirst, hsecond]
      exact change.congr_apply (Option.filter (InMemoryGraph.isOf tenant)) (h.own kept.table id)
    case isFalse => exact h.own table id
  · intro table id hplace
    rw [documents_serve, documents_serve]
    split
    case isTrue htable =>
      subst htable
      rw [hfirst, hsecond]
      exact change.congr_apply (seen tenant) (h.named kept.table id hplace)
    case isFalse => exact h.named table id hplace
  · intro record hrecord hof id hid
    obtain ⟨hplace, hin, hother⟩ := h.ends record hrecord hof id hid
    exact ⟨hplace, isSome_get_serve kept call hin, isSome_get_serve kept call hother⟩

/-- A call of a repository by another tenant on the first. -/
theorem AlikeTo.repo_other {T : Type} {kept : EntityTable T} {call : RepoCall T}
    (h : AlikeTo tenant places first second) (hother : call.tenant ≠ tenant)
    (hkeeps : ¬(StoreCall.repo kept call).HandsOver tenant)
    (htakes : ∀ place ∈ places, place ∉ (StoreCall.repo kept call).takes) :
    AlikeTo tenant places { first with tables := (call.serve kept first.tables).2 } second := by
  have hunseen : Unseen tenant (call.taken kept.entity) (first.tables.documents kept.table)
      (call.apply kept.entity (first.tables.documents kept.table)).2 := by
    refine unseen_apply hother ?_
    rintro caller id patch expectedVersion rfl
    exact hkeeps
  refine ⟨?_, ?_, h.edges, ?_⟩
  · intro table id
    rw [documents_serve]
    split
    case isTrue htable =>
      subst htable
      rw [hunseen.own, h.own]
    case isFalse => exact h.own table id
  · intro table id hplace
    rw [documents_serve]
    split
    case isTrue htable =>
      subst htable
      rw [hunseen.seen id, h.named kept.table id hplace]
      exact fun htaken => htakes _ hplace (List.mem_map_of_mem htaken)
    case isFalse => exact h.named table id hplace
  · intro record hrecord hof id hid
    obtain ⟨hplace, hin, hsecond⟩ := h.ends record hrecord hof id hid
    exact ⟨hplace, isSome_get_serve kept call hin, hsecond⟩

/-- An edge of the tenant that is recorded in both states. -/
theorem AlikeTo.relate (h : AlikeTo tenant places first second) {source edge target : String}
    {properties : Json.Value} (hsource : placeOf source ∈ places)
    (htarget : placeOf target ∈ places) :
    (InMemoryGraph.relate first tenant source edge target properties).1 =
        (InMemoryGraph.relate second tenant source edge target properties).1 ∧
      AlikeTo tenant places (InMemoryGraph.relate first tenant source edge target properties).2
        (InMemoryGraph.relate second tenant source edge target properties).2 := by
  have hsourceSame := checkNode_of_alike h hsource "source node not found"
    "tenant mismatch for source"
  have htargetSame := checkNode_of_alike h htarget "target node not found"
    "tenant mismatch for target"
  unfold InMemoryGraph.relate
  cases hone : checkNode first.tables tenant source "source node not found"
      "tenant mismatch for source" with
  | error err =>
      rw [hone] at hsourceSame
      rw [← hsourceSame]
      exact ⟨rfl, h⟩
  | ok _ =>
      rw [hone] at hsourceSame
      rw [← hsourceSame]
      cases htwo : checkNode first.tables tenant target "target node not found"
          "tenant mismatch for target" with
      | error err =>
          rw [htwo] at htargetSame
          rw [← htargetSame]
          exact ⟨rfl, h⟩
      | ok _ =>
          rw [htwo] at htargetSame
          rw [← htargetSame]
          refine ⟨rfl, h.own, h.named, ?_, ?_⟩
          · show (List.filter _ (first.edges ++ _)) = List.filter _ (second.edges ++ _)
            rw [List.filter_append, List.filter_append, h.edges]
          · intro record hrecord hof id hid
            rcases List.mem_append.mp hrecord with hold | hnew
            · exact h.ends record hold hof id hid
            · rw [List.mem_singleton.mp hnew] at hid
              rcases List.mem_pair.mp hid with rfl | rfl
              · exact ⟨hsource, isSome_of_checkNode hone,
                  isSome_of_checkNode hsourceSame.symm⟩
              · exact ⟨htarget, isSome_of_checkNode htwo,
                  isSome_of_checkNode htargetSame.symm⟩

/-- An edge that another tenant records in the first. -/
theorem AlikeTo.relate_other (h : AlikeTo tenant places first second) {other : TenantId}
    (hother : other ≠ tenant) (source edge target : String) (properties : Json.Value) :
    AlikeTo tenant places (InMemoryGraph.relate first other source edge target properties).2
      second := by
  have hname : other.asStr ≠ tenant.asStr := by
    intro heq
    obtain ⟨text⟩ := other
    obtain ⟨text'⟩ := tenant
    exact hother (congrArg TenantId.mk heq)
  unfold InMemoryGraph.relate
  dsimp only
  split
  case h_1 => exact h
  case h_2 =>
    refine ⟨h.own, h.named, ?_, ?_⟩
    · rw [List.filter_append, List.filter_cons_of_neg (by simpa using hname), List.filter_nil,
        List.append_nil]
      exact h.edges
    · intro record hrecord hof id hid
      rcases List.mem_append.mp hrecord with hold | hnew
      · exact h.ends record hold hof id hid
      · rw [List.mem_singleton.mp hnew] at hof
        exact absurd hof hname

/-- The edges of the tenant that a query looks at are the same, and their ends are fetched the
same. -/
theorem AlikeTo.query {T : Type} (h : AlikeTo tenant places first second) (entity : Entity T)
    (limit : ℕ) (matched : EdgeRecord → Bool) (far : EdgeRecord → String)
    (hfar : ∀ record, far record ∈ [record.source, record.target]) :
    collect (fetchEntity entity first.tables tenant) limit []
        ((first.edges.filter fun record => record.tenant = tenant.asStr && matched record).map
          far) =
      collect (fetchEntity entity second.tables tenant) limit []
        ((second.edges.filter fun record => record.tenant = tenant.asStr && matched record).map
          far) := by
  have hsame : (first.edges.filter fun record => record.tenant = tenant.asStr && matched record) =
      second.edges.filter fun record => record.tenant = tenant.asStr && matched record := by
    have hsplit : ∀ edges : List EdgeRecord,
        (edges.filter fun record => record.tenant = tenant.asStr && matched record) =
          (edges.filter fun record => record.tenant = tenant.asStr).filter matched := by
      intro edges
      rw [List.filter_filter]
      congr 1
      funext record
      exact Bool.and_comm _ _
    rw [hsplit, hsplit, h.edges]
  rw [← hsame]
  refine collect_of_alike entity limit (fun id hid => ?_) []
  obtain ⟨record, hrecord, rfl⟩ := List.mem_map.mp hid
  obtain ⟨hmem, hmatches⟩ := List.mem_filter.mp hrecord
  have hof := of_decide_eq_true (Bool.and_eq_true_iff.mp hmatches).1
  obtain ⟨hplace, hin, hsecond⟩ := h.ends record hmem hof _ (hfar record)
  exact fetchEntity_of_alike entity h hplace hin hsecond

/-- So is what a search looks at. -/
theorem AlikeTo.search {T : Type} (h : AlikeTo tenant places first second) (kept : EntityTable T)
    (query : String) (order : List String) (limit : ℕ) :
    InMemorySearch.search kept.entity (first.tables.documents kept.table) order tenant query limit =
      InMemorySearch.search kept.entity (second.tables.documents kept.table) order tenant query
        limit := by
  have hvalues : ∀ documents : Documents,
      (documents.valuesIn order).filter (InMemorySearch.matched tenant query) =
        documents.selectWhere order (InMemorySearch.matched tenant query) := fun _ => rfl
  have hmatched : ∀ value, InMemorySearch.matched tenant query value = true →
      InMemoryGraph.isOf tenant value = true := fun value h => (Bool.and_eq_true_iff.mp h).1
  unfold InMemorySearch.search
  rw [InMemorySearch.gather_eq, InMemorySearch.gather_eq, hvalues, hvalues,
    selectWhere_of_own (h.own kept.table) hmatched]

end Steps

/-- What the calls of a history must do for a tenant to be alone. -/
structure Lawful (tenant : TenantId) (places : List Place) (call : StoreCall) : Prop where
  own : call.tenant = tenant → ∀ place ∈ call.names, place ∈ places
  other : call.tenant ≠ tenant →
    ¬call.HandsOver tenant ∧ ∀ place ∈ places, place ∉ call.takes

/-- Whether a call is of a tenant. -/
def callsAs (tenant : TenantId) (call : StoreCall) : Bool := call.tenant = tenant

/-- The tenant calls on states that are alike to it. -/
theorem serve_of_alike {tenant : TenantId} {places : List Place} {first second : MockState}
    {call : StoreCall} (h : AlikeTo tenant places first second)
    (hlawful : Lawful tenant places call) (hmine : call.tenant = tenant) :
    (call.serve first).1 = (call.serve second).1 ∧
      AlikeTo tenant places (call.serve first).2 (call.serve second).2 := by
  have hnames := hlawful.own hmine
  cases call with
  | repo kept call =>
      obtain ⟨hanswer, halike⟩ := h.repo hmine fun id hid =>
        hnames _ (List.mem_map_of_mem hid)
      exact ⟨congrArg (Sigma.mk _) hanswer, halike⟩
  | relate caller source edge target properties =>
      obtain rfl : caller = tenant := hmine
      obtain ⟨hanswer, halike⟩ := h.relate (hnames _ List.mem_cons_self)
        (hnames _ (List.mem_cons_of_mem _ List.mem_cons_self))
      refine ⟨congrArg (Sigma.mk Unit) ?_, halike⟩
      rw [hanswer]
  | out entity caller source edge limit =>
      obtain rfl : caller = tenant := hmine
      refine ⟨congrArg (Sigma.mk _) ?_, h⟩
      simp only [InMemoryGraph.out, targets, Bool.and_assoc]
      exact h.query entity limit _ _ fun record => by simp
  | «in» entity caller target edge limit =>
      obtain rfl : caller = tenant := hmine
      refine ⟨congrArg (Sigma.mk _) ?_, h⟩
      simp only [InMemoryGraph.in, sources, Bool.and_assoc]
      exact h.query entity limit _ _ fun record => by simp
  | search kept caller query order limit =>
      obtain rfl : caller = tenant := hmine
      refine ⟨congrArg (Sigma.mk _) ?_, h⟩
      rw [h.search kept query order limit]

/-- Another tenant calls on the first. -/
theorem serve_other_of_alike {tenant : TenantId} {places : List Place} {first second : MockState}
    {call : StoreCall} (h : AlikeTo tenant places first second)
    (hlawful : Lawful tenant places call) (hother : call.tenant ≠ tenant) :
    AlikeTo tenant places (call.serve first).2 second := by
  obtain ⟨hkeeps, htakes⟩ := hlawful.other hother
  cases call with
  | repo kept call => exact h.repo_other hother hkeeps htakes
  | relate caller source edge target properties =>
      exact h.relate_other hother source edge target properties
  | out entity caller source edge limit => exact h
  | «in» entity caller target edge limit => exact h
  | search kept caller query order limit => exact h

/-- The datastore keeps tenants apart, call by call. -/
theorem unwinds_service (tenant : TenantId) (places : List Place) :
    StoreCall.service.Unwinds (callsAs tenant) (Lawful tenant places) (AlikeTo tenant places) where
  answer halike hlawful hmine := (serve_of_alike halike hlawful (of_decide_eq_true hmine)).1
  keep halike hlawful hmine := (serve_of_alike halike hlawful (of_decide_eq_true hmine)).2
  other halike hlawful hother :=
    serve_other_of_alike halike hlawful (of_decide_eq_false hother)

theorem alikeTo_refl_empty (tenant : TenantId) (places : List Place) :
    AlikeTo tenant places ⟨∅, []⟩ ⟨∅, []⟩ :=
  ⟨fun _ _ => rfl, fun _ _ _ => rfl, rfl, fun _ h => absurd h List.not_mem_nil⟩

/-- A tenant is answered as if it were alone, in every history of calls of any tenants on one
datastore in which the others take no id that it names and hand it no document. -/
theorem tenantsIsolated (tenant : TenantId) (calls : List StoreCall) (h : Apart tenant calls) :
    StoreCall.service.answers (callsAs tenant) ⟨∅, []⟩ calls =
      StoreCall.service.answers (callsAs tenant) ⟨∅, []⟩ (calls.filter (callsAs tenant)) := by
  let places := (calls.filter (callsAs tenant)).flatMap StoreCall.names
  refine (unwinds_service tenant places).answers_eq (alikeTo_refl_empty tenant places) ?_
  intro call hcall
  constructor
  · intro hmine place hplace
    exact List.mem_flatMap.mpr
      ⟨call, List.mem_filter.mpr ⟨hcall, decide_eq_true hmine⟩, hplace⟩
  · intro hother
    obtain ⟨hkeeps, htakes⟩ := h call hcall hother
    refine ⟨hkeeps, fun place hplace => ?_⟩
    obtain ⟨own, hown, hnamed⟩ := List.mem_flatMap.mp hplace
    obtain ⟨hmem, hmine⟩ := List.mem_filter.mp hown
    exact htakes own hmem (of_decide_eq_true hmine) place hnamed

namespace TwoTenants

def entity : Entity Json.Map where
  id doc := ((Json.Map.get doc "id").bind Json.Value.asStr).getD ""
  toValue doc := .ok (.object doc)
  fromValue value := match value with
    | .object doc => .ok doc
    | _ => .error "no object"

def notes : EntityTable Json.Map := ⟨entity, "note"⟩

def note (id tenant : String) : Json.Map := [("id", .string id), ("tenant", .string tenant)]

/-- One tenant writes and reads a note, another one writes its own in between. -/
def calls : List StoreCall :=
  [.repo notes (.create ⟨"t1"⟩ (note "note:t1_a" "t1")),
    .repo notes (.create ⟨"t2"⟩ (note "note:t2_a" "t2")),
    .relate ⟨"t2"⟩ "note:t2_a" "next" "note:t2_a" .null,
    .repo notes (.get ⟨"t1"⟩ "note:t1_a")]

theorem tenantsIsolated_calls :
    StoreCall.service.answers (callsAs ⟨"t1"⟩) ⟨∅, []⟩ calls =
      StoreCall.service.answers (callsAs ⟨"t1"⟩) ⟨∅, []⟩ (calls.filter (callsAs ⟨"t1"⟩)) :=
  tenantsIsolated ⟨"t1"⟩ calls <| by
    intro other hother hne
    simp only [calls, List.mem_cons, List.not_mem_nil, or_false] at hother
    rcases hother with rfl | rfl | rfl | rfl
    · exact absurd rfl hne
    · refine ⟨not_false, ?_⟩
      simp [calls, StoreCall.tenant, RepoCall.tenant, StoreCall.names, StoreCall.takes,
        RepoCall.ids, RepoCall.taken, notes, entity, note, Json.Map.get, Json.Value.asStr]
    · exact ⟨not_false, fun _ _ _ _ _ => List.not_mem_nil⟩
    · exact absurd rfl hne

end TwoTenants

end Soulbase.Storage
