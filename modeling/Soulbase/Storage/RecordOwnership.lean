/-
# Who owns a record

The calls of tenants on one table of an in-memory repository, with a ledger of who created
each record that is still there. The key of a record, its `id` and its `tenant` say the same
as long as no patch writes one of the two fields: `upsert` checks the tenant before it merges
the patch, and nothing checks what the patch then says.
-/

import Soulbase.Foundation.Transition
import Soulbase.Storage.Repository

namespace Soulbase.Storage

open Soulbase.Foundation InMemoryRepository

/-- A call of the repository. -/
inductive RepoCall (T : Type)
  | get (tenant : TenantId) (id : String)
  | create (tenant : TenantId) (doc : T)
  | upsert (tenant : TenantId) (id : String) (patch : Json.Value)
      (expectedVersion : Option UInt64)
  | delete (tenant : TenantId) (id : String)
  | select (tenant : TenantId) (comparison : Comparison) (order : List String)
      (filter : Json.Value) (sorts : Option (List SortKey)) (limit : ℕ)

namespace RepoCall

variable {T : Type}

/-- Who calls. -/
def tenant : RepoCall T → TenantId
  | get tenant _ | create tenant _ | upsert tenant _ _ _ | delete tenant _
  | select tenant _ _ _ _ _ => tenant

/-- The documents that a call returns, and the table after it. -/
def apply (entity : Entity T) (call : RepoCall T) (documents : Documents) :
    StorageResult (List T) × Documents :=
  match call with
  | get tenant id => ((InMemoryRepository.get entity documents tenant id).map (·.toList), documents)
  | create tenant doc =>
      let outcome := InMemoryRepository.create entity documents tenant doc
      (outcome.1.map ([·]), outcome.2)
  | upsert tenant id patch expectedVersion =>
      let outcome := InMemoryRepository.upsert entity documents tenant id patch expectedVersion
      (outcome.1.map ([·]), outcome.2)
  | delete tenant id =>
      let outcome := InMemoryRepository.delete documents tenant id
      (outcome.1.map fun _ => [], outcome.2)
  | select tenant comparison order filter sorts limit =>
      ((InMemoryRepository.select entity comparison documents order tenant filter sorts limit).map
        (·.items), documents)

end RepoCall

/-- A table, and who created each of its records and has not deleted it since. -/
structure Ownership where
  documents : Documents
  owners : HashMap String TenantId

namespace Ownership

variable {T : Type} (entity : Entity T)

/-- An empty table. -/
def start : Ownership := ⟨∅, ∅⟩

/-- The ledger after a call. -/
def ownersAfter (state : Ownership) (call : RepoCall T) (documents : Documents) :
    HashMap String TenantId :=
  match call with
  | .create tenant doc =>
      if (state.documents.get (entity.id doc)).isNone && (documents.get (entity.id doc)).isSome then
        state.owners.put (entity.id doc) tenant
      else state.owners
  | .delete tenant id =>
      if state.owners.get id = some tenant ∧ (documents.get id).isNone then state.owners.remove id
      else state.owners
  | _ => state.owners

/-- A call. -/
def after (state : Ownership) (call : RepoCall T) : Ownership :=
  let documents := (call.apply entity state.documents).2
  { documents, owners := state.ownersAfter entity call documents }

/-- The calls, in any order. -/
def system : TransitionSystem Ownership (RepoCall T) :=
  .ofNext start fun state call => some (state.after entity call)

/-- Every record says who created it, under which key, and only its owner changes, removes or
reads it. -/
structure Sound (state : Ownership) : Prop where
  /-- A stored record has its key as its id and who created it as its tenant. -/
  stored : ∀ key value, state.documents.get key = some value →
    ∃ owner, state.owners.get key = some owner ∧ value.get "id" = some (.string key) ∧
      value.get "tenant" = some (.string owner.asStr)
  /-- A call of another tenant leaves it as it is. -/
  untouched : ∀ (call : RepoCall T) key owner, state.owners.get key = some owner →
    owner ≠ call.tenant → (call.apply entity state.documents).2.get key = state.documents.get key
  /-- What a call returns is a record of the tenant. -/
  returned : ∀ (call : RepoCall T) docs, (call.apply entity state.documents).1 = .ok docs →
    ∀ doc ∈ docs, ∃ key value, (state.after entity call).documents.get key = some value ∧
      (state.after entity call).owners.get key = some call.tenant ∧
        entity.fromValue value = .ok doc
  /-- A record that was not deleted is there for its owner. -/
  readable : ∀ key owner, state.owners.get key = some owner →
    ∃ doc, InMemoryRepository.get entity state.documents owner key = .ok (some doc)

end Ownership

/-- The ownership of records in every reachable state. -/
def RecordsOwned {T : Type} (entity : Entity T)
    (system : TransitionSystem Ownership (RepoCall T)) : Prop :=
  ∀ state, system.Reachable state → state.Sound entity

/-- A document that is created says its id and can be read back. -/
def Faithful.Creates {T : Type} (entity : Entity T) (tenant : TenantId) (doc : T) : Prop :=
  ∀ value, entity.toValue doc = .ok value → ensureTenant value tenant = .ok () →
    value.get "id" = some (.string (entity.id doc)) ∧ ∃ read, entity.fromValue value = .ok read

/-- The entries of a patch for `id` and `tenant`, if any, say what they are, and what the patch
makes of the document can be read. -/
structure Faithful.Merges {T : Type} (entity : Entity T) (tenant : TenantId) (id : String)
    (base fields : Json.Map) : Prop where
  id : ∀ value, fields.written "id" = some value → value = .string id
  tenant : ∀ value, fields.written "tenant" = some value → value = .string tenant.asStr
  reads : ∃ read, entity.fromValue (.object (base.insertAll fields)) = .ok read

/-- What is asked of the calls that store a document. -/
def Faithful {T : Type} (entity : Entity T) (state : Ownership) : RepoCall T → Prop
  | .create tenant doc =>
      state.documents.get (entity.id doc) = none → Faithful.Creates entity tenant doc
  | .upsert tenant id patch expectedVersion =>
      ∀ base fields : Json.Map, state.documents.get id = some (.object base) →
        ensureTenant (.object base) tenant = .ok () →
          checkVersion (.object base) expectedVersion = .ok () →
            patch = .object fields → Faithful.Merges entity tenant id base fields
  | _ => True

section Invariant

variable {T : Type} {entity : Entity T} {state next : Ownership} {call : RepoCall T} {key : String}

/-- A document that says its id and its owner, and can be read. -/
structure Says (entity : Entity T) (key : String) (owner : TenantId) (value : Json.Value) :
    Prop where
  id : value.get "id" = some (.string key)
  tenant : value.get "tenant" = some (.string owner.asStr)
  reads : ∃ doc, entity.fromValue value = .ok doc

/-- There is no record under a key and no owner of it, or a record that says its owner. -/
inductive Kept (entity : Entity T) (state : Ownership) (key : String) : Prop
  | absent (hdocument : state.documents.get key = none) (howner : state.owners.get key = none) :
      Kept entity state key
  | owned {value : Json.Value} {owner : TenantId}
      (hdocument : state.documents.get key = some value)
      (howner : state.owners.get key = some owner) (hidentity : Says entity key owner value) :
      Kept entity state key

theorem Kept.of_same (h : Kept entity state key)
    (hdocument : next.documents.get key = state.documents.get key)
    (howner : next.owners.get key = state.owners.get key) : Kept entity next key := by
  cases h with
  | absent hnone hfree => exact .absent (hdocument.trans hnone) (howner.trans hfree)
  | owned hvalue howns hidentity =>
      exact .owned (hdocument.trans hvalue) (howner.trans howns) hidentity

/-- What a merge that is faithful leaves of a document says what it said before. -/
theorem Says.merged {base fields : Json.Map} {owner : TenantId}
    (h : Says entity key owner (.object base))
    (hmerges : Faithful.Merges entity owner key base fields) :
    Says entity key owner (.object (base.insertAll fields)) where
  id := by
    change (base.insertAll fields).get "id" = _
    rw [Json.Map.get_insertAll]
    cases hwritten : fields.written "id" with
    | none => exact h.id
    | some value => rw [hmerges.id value hwritten, Option.some_or]
  tenant := by
    change (base.insertAll fields).get "tenant" = _
    rw [Json.Map.get_insertAll]
    cases hwritten : fields.written "tenant" with
    | none => exact h.tenant
    | some value => rw [hmerges.tenant value hwritten, Option.some_or]
  reads := hmerges.reads

/-- The tenant that a record names owns it. -/
theorem Kept.identity {value : Json.Value} {tenant : TenantId} (h : Kept entity state key)
    (hget : state.documents.get key = some value) (htenant : ensureTenant value tenant = .ok ()) :
    state.owners.get key = some tenant ∧ Says entity key tenant value := by
  cases h with
  | absent hnone _ => exact absurd (hget.symm.trans hnone) nofun
  | @owned found owner hdocument howner hidentity =>
      obtain rfl := Option.some.inj (hget.symm.trans hdocument)
      have htexts := (ensureTenant_eq_ok_iff.mp htenant).symm.trans hidentity.tenant
      have howns : tenant = owner := by
        injection htexts with htexts
        injection htexts with htexts
        exact TenantId.ext htexts
      subst howns
      exact ⟨howner, hidentity⟩

/-- Who creates a record owns it. -/
theorem ownersAfter_create {tenant : TenantId} {doc : T} {value : Json.Value}
    (hfree : state.documents.get (entity.id doc) = none) :
    state.ownersAfter entity (.create tenant doc) (state.documents.put (entity.id doc) value) =
      state.owners.put (entity.id doc) tenant := by
  refine if_pos ?_
  rw [hfree, HashMap.get_put_self]
  rfl

theorem kept_after_create {tenant : TenantId} {doc : T} (h : Kept entity state key)
    (hfaithful : Faithful entity state (.create tenant doc)) :
    Kept entity (state.after entity (.create tenant doc)) key := by
  have hcreates := creates entity state.documents tenant doc
  change Kept entity ⟨_, state.ownersAfter entity _ (create entity state.documents tenant doc).2⟩ _
  change Kept entity ⟨(create entity state.documents tenant doc).2, _⟩ _
  generalize create entity state.documents tenant doc = outcome at hcreates ⊢
  cases hcreates with
  | refused err =>
      refine h.of_same rfl (congrArg (HashMap.get · key) (if_neg ?_))
      cases state.documents.get (entity.id doc) <;> simp
  | @stored value hfree hvalue htenant =>
      rw [ownersAfter_create hfree]
      by_cases hkey : key = entity.id doc
      · subst hkey
        obtain ⟨hid, hreads⟩ := hfaithful hfree value hvalue htenant
        exact .owned (HashMap.get_put_self _ _ _) (HashMap.get_put_self _ _ _)
          ⟨hid, ensureTenant_eq_ok_iff.mp htenant, hreads⟩
      · refine h.of_same ?_ ?_
        · exact (HashMap.get_put _ _ _ _).trans (if_neg hkey)
        · exact (HashMap.get_put _ _ _ _).trans (if_neg hkey)

theorem kept_after_upsert {tenant : TenantId} {id : String} {patch : Json.Value}
    {expectedVersion : Option UInt64} (h : Kept entity state key)
    (hfaithful : Faithful entity state (.upsert tenant id patch expectedVersion)) :
    Kept entity (state.after entity (.upsert tenant id patch expectedVersion)) key := by
  have hupserts := upserts entity state.documents tenant id patch expectedVersion
  change Kept entity
    ⟨(upsert entity state.documents tenant id patch expectedVersion).2, state.owners⟩ _
  generalize upsert entity state.documents tenant id patch expectedVersion = outcome
    at hupserts ⊢
  cases hupserts with
  | refused err => exact h.of_same rfl rfl
  | @merged base fields hget htenant hversion hpatch =>
      by_cases hkey : key = id
      · subst hkey
        obtain ⟨howner, hidentity⟩ := h.identity hget htenant
        exact .owned (HashMap.get_put_self _ _ _) howner
          (hidentity.merged (hfaithful base fields hget htenant hversion hpatch))
      · exact h.of_same ((HashMap.get_put _ _ _ _).trans (if_neg hkey)) rfl

theorem kept_after_delete {tenant : TenantId} {id : String}
    (h : ∀ key, Kept entity state key) (key : String) :
    Kept entity (state.after entity (.delete tenant id)) key := by
  have hsame : ¬(state.owners.get id = some tenant ∧ (state.documents.get id).isNone = true) := by
    rintro ⟨howns, hnone⟩
    cases h id with
    | absent _ howner => exact absurd (howns.symm.trans howner) nofun
    | owned hdocument _ _ =>
        rw [hdocument] at hnone
        cases hnone
  have hdeletes := deletes state.documents tenant id
  change Kept entity ⟨_, state.ownersAfter entity (.delete tenant id)
    (delete state.documents tenant id).2⟩ _
  change Kept entity ⟨(delete state.documents tenant id).2, _⟩ _
  generalize delete state.documents tenant id = outcome at hdeletes ⊢
  cases hdeletes with
  | absent hget => exact (h key).of_same rfl (congrArg (HashMap.get · key) (if_neg hsame))
  | refused err => exact (h key).of_same rfl (congrArg (HashMap.get · key) (if_neg hsame))
  | @removed value hget htenant =>
      obtain ⟨howner, _⟩ := (h id).identity hget htenant
      have hgone : (state.documents.delete id).get id = none :=
        (HashMap.get_remove _ _ _).trans (if_pos rfl)
      have hremoved : state.owners.get id = some tenant ∧
          ((state.documents.delete id).get id).isNone = true := ⟨howner, by rw [hgone]; rfl⟩
      rw [Ownership.ownersAfter, if_pos hremoved]
      by_cases hkey : key = id
      · subst hkey
        exact .absent hgone ((HashMap.get_remove _ _ _).trans (if_pos rfl))
      · refine (h key).of_same ?_ ?_
        · exact Records.get_delete_of_ne hkey
        · exact (HashMap.get_remove _ _ _).trans (if_neg hkey)

/-- A faithful call keeps what the records say. -/
theorem kept_after (h : ∀ key, Kept entity state key) (hfaithful : Faithful entity state call)
    (key : String) : Kept entity (state.after entity call) key := by
  cases call with
  | get tenant id => exact (h key).of_same rfl rfl
  | create tenant doc => exact kept_after_create (h key) hfaithful
  | upsert tenant id patch expectedVersion => exact kept_after_upsert (h key) hfaithful
  | delete tenant id => exact kept_after_delete h key
  | select tenant comparison order filter sorts limit => exact (h key).of_same rfl rfl

/-! ## What the invariant says of a call -/

/-- A call of another tenant leaves a record as it is. -/
theorem untouched_of_kept {owner : TenantId} (h : Kept entity state key)
    (howner : state.owners.get key = some owner) (hne : owner ≠ call.tenant) :
    (call.apply entity state.documents).2.get key = state.documents.get key := by
  cases call with
  | get tenant id => rfl
  | select tenant comparison order filter sorts limit => rfl
  | create tenant doc =>
      have hcreates := creates entity state.documents tenant doc
      change (create entity state.documents tenant doc).2.get key = _
      generalize create entity state.documents tenant doc = outcome at hcreates ⊢
      cases hcreates with
      | refused err => rfl
      | stored hfree _ _ =>
          refine (HashMap.get_put _ _ _ _).trans (if_neg fun hkey => ?_)
          subst hkey
          cases h with
          | absent _ hnone => exact absurd (howner.symm.trans hnone) nofun
          | owned hdocument _ _ => exact absurd (hfree.symm.trans hdocument) nofun
  | upsert tenant id patch expectedVersion =>
      have hupserts := upserts entity state.documents tenant id patch expectedVersion
      change (upsert entity state.documents tenant id patch expectedVersion).2.get key = _
      generalize upsert entity state.documents tenant id patch expectedVersion = outcome
        at hupserts ⊢
      cases hupserts with
      | refused err => rfl
      | merged hget htenant _ _ =>
          refine (HashMap.get_put _ _ _ _).trans (if_neg fun hkey => ?_)
          subst hkey
          exact hne (Option.some.inj (howner.symm.trans (h.identity hget htenant).1))
  | delete tenant id =>
      have hdeletes := deletes state.documents tenant id
      change (delete state.documents tenant id).2.get key = _
      generalize delete state.documents tenant id = outcome at hdeletes ⊢
      cases hdeletes with
      | absent _ => rfl
      | refused err => rfl
      | removed hget htenant =>
          refine Records.get_delete_of_ne fun hkey => ?_
          subst hkey
          exact hne (Option.some.inj (howner.symm.trans (h.identity hget htenant).1))

/-- What a call returns is a record of the tenant. -/
theorem returned_of_kept {docs : List T} (h : ∀ key, Kept entity state key)
    (hreturns : (call.apply entity state.documents).1 = .ok docs) {doc : T} (hdoc : doc ∈ docs) :
    ∃ key value, (state.after entity call).documents.get key = some value ∧
      (state.after entity call).owners.get key = some call.tenant ∧
        entity.fromValue value = .ok doc := by
  cases call with
  | get tenant id =>
      obtain ⟨found, hfound, rfl⟩ := except_map_eq_ok_iff.mp hreturns
      obtain rfl := Option.mem_toList.mp hdoc
      obtain ⟨value, hget, htenant, hread⟩ := get_eq_ok_some_iff.mp hfound
      exact ⟨id, value, hget, ((h id).identity hget htenant).1, hread⟩
  | create tenant created =>
      have hcreates := creates entity state.documents tenant created
      change ∃ key value, HashMap.get (create entity state.documents tenant created).2 key = _ ∧
        (state.ownersAfter entity (.create tenant created)
          (create entity state.documents tenant created).2).get key = _ ∧ _
      obtain ⟨returned, hreturned, rfl⟩ := except_map_eq_ok_iff.mp hreturns
      obtain rfl := List.mem_singleton.mp hdoc
      generalize create entity state.documents tenant created = outcome at hcreates hreturned ⊢
      cases hcreates with
      | refused err => cases hreturned
      | @stored value hfree _ _ =>
          refine ⟨entity.id created, value, HashMap.get_put_self _ _ _, ?_,
            Entity.deserialize_eq_ok_iff.mp hreturned⟩
          rw [ownersAfter_create hfree]
          exact HashMap.get_put_self _ _ _
  | upsert tenant id patch expectedVersion =>
      have hupserts := upserts entity state.documents tenant id patch expectedVersion
      change ∃ key value,
        HashMap.get (upsert entity state.documents tenant id patch expectedVersion).2 key = _ ∧
          state.owners.get key = _ ∧ _
      obtain ⟨returned, hreturned, rfl⟩ := except_map_eq_ok_iff.mp hreturns
      obtain rfl := List.mem_singleton.mp hdoc
      generalize upsert entity state.documents tenant id patch expectedVersion = outcome
        at hupserts hreturned ⊢
      cases hupserts with
      | refused err => cases hreturned
      | merged hget htenant _ _ =>
          exact ⟨id, _, HashMap.get_put_self _ _ _, ((h id).identity hget htenant).1,
            Entity.deserialize_eq_ok_iff.mp hreturned⟩
  | delete tenant id =>
      obtain ⟨_, _, rfl⟩ := except_map_eq_ok_iff.mp hreturns
      cases hdoc
  | select tenant comparison order filter sorts limit =>
      obtain ⟨page, hpage, rfl⟩ := except_map_eq_ok_iff.mp hreturns
      obtain ⟨id, value, hget, htenant, hread⟩ := mem_select_items hpage hdoc
      exact ⟨id, value, hget, ((h id).identity hget htenant).1, hread⟩

/-- The invariant says that records are owned. -/
theorem sound_of_kept (h : ∀ key, Kept entity state key) : state.Sound entity where
  stored := by
    intro key value hget
    cases h key with
    | absent hnone _ => exact absurd (hget.symm.trans hnone) nofun
    | owned hdocument howner hidentity =>
        obtain rfl := Option.some.inj (hget.symm.trans hdocument)
        exact ⟨_, howner, hidentity.id, hidentity.tenant⟩
  untouched := fun _ key _ howner hne => untouched_of_kept (h key) howner hne
  returned := fun _ _ hreturns _ hdoc => returned_of_kept h hreturns hdoc
  readable := by
    intro key owner howner
    cases h key with
    | absent _ hnone => exact absurd (howner.symm.trans hnone) nofun
    | @owned value _ hdocument howns hidentity =>
        obtain rfl := Option.some.inj (howner.symm.trans howns)
        obtain ⟨doc, hread⟩ := hidentity.reads
        exact ⟨doc, get_eq_ok_some_iff.mpr
          ⟨value, hdocument, ensureTenant_eq_ok_iff.mpr hidentity.tenant, hread⟩⟩

end Invariant

/-- Records are owned in every run of faithful calls. -/
theorem recordsOwned_faithful {T : Type} (entity : Entity T) :
    RecordsOwned entity ((Ownership.system entity).restrict (Faithful entity)) := by
  intro state hreach
  apply sound_of_kept
  refine TransitionSystem.invariant (fun state => ∀ key, Kept entity state key) ?_ ?_ hreach
  · rintro state rfl key
    exact .absent (HashMap.get_empty key) (HashMap.get_empty key)
  · rintro source call target _ hsource ⟨hfaithful, hstep⟩
    cases hstep
    exact kept_after hsource hfaithful

namespace GivenAway

/-- Documents that are their own JSON. -/
def entity : Entity Json.Map where
  id doc := ((doc.get "id").bind Json.Value.asStr).getD ""
  toValue doc := .ok (.object doc)
  fromValue
    | .object entries => .ok entries
    | _ => .error "invalid type"

def owner : TenantId := ⟨"t1"⟩

def other : TenantId := ⟨"t2"⟩

def doc : Json.Map := [("id", .string "doc:t1_a"), ("tenant", .string "t1")]

/-- The owner patches the tenant of the record. -/
def calls : List (RepoCall Json.Map) :=
  [.create owner doc, .upsert owner "doc:t1_a" (.object [("tenant", .string "t2")]) none]

/-- What has happened then. -/
def state : Ownership := calls.foldl (Ownership.after entity) .start

theorem reachable_state : (Ownership.system entity).Reachable state :=
  TransitionSystem.reachable_of_replay calls rfl

end GivenAway

open GivenAway in
/-- The patch gives the record to another tenant, and its owner cannot read it any more. -/
theorem not_recordsOwned_givenAway : ¬ RecordsOwned entity (Ownership.system entity) := by
  intro h
  obtain ⟨doc, hdoc⟩ := (h state reachable_state).readable "doc:t1_a" owner rfl
  have hrefused : InMemoryRepository.get entity state.documents owner "doc:t1_a" =
      .error (.schema "tenant mismatch") := rfl
  rw [hrefused] at hdoc
  cases hdoc

end Soulbase.Storage
