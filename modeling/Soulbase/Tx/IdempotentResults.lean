/-
# Integrity of idempotent results

Any number of clients work on one in-memory store. A client that is granted a
key may later call `finish` or `fail` once, and other clients that ask with the
same hash are answered with the result that was passed to `finish`.

The result that a caller gets should stem from the grant that created the
record it is answered from, and once finished it should stay until the record
has outlived its time. Both fail for one reason: `finish` and `fail` name only
the key. A client whose record has expired and has been replaced settles the
record of the new owner. In the runs without such calls the results are intact.
-/

import Soulbase.Foundation.Transition
import Soulbase.Tx.Memory.IdempoStore

namespace Soulbase.Tx

open Soulbase.Foundation

/-- A grant: the answer `Ok(None)` to one call of one client. -/
structure Grant (ι : Type*) where
  /-- Tells the grants of a run apart. -/
  serial : ℕ
  client : ι
  tenant : TenantId
  key : String
  hash : String
  ttlMs : UInt64

/-- Where the record of a grant lies. -/
def Grant.mapKey {ι : Type*} (grant : Grant ι) : IdempoKey := idempoKey grant.tenant grant.key

/-- The store with what its clients remember, and the history that the
properties speak of. -/
structure IdempoWorld (ι : Type*) where
  store : InMemoryIdempoStore
  clock : Int64
  /-- The grant that a client has and has not settled. -/
  held : ι → Option (Grant ι)
  /-- The grant that created the last record at a key. -/
  origin : IdempoKey → Option (Grant ι)
  /-- The results that were passed to a `finish` that succeeded. -/
  finishedWith : List (Grant ι × String)
  /-- The number of grants so far. -/
  issued : ℕ

/-- What clients do. -/
inductive IdempoAction (ι : Type*)
  | checkAndPut (client : ι) (tenant : TenantId) (key hash : String) (ttlMs : UInt64)
      (now builtAt : Int64)
  | finish (client : ι) (resultDigest : String) (now : Int64)
  | fail (client : ι) (error : Option String) (now : Int64)

section World

variable {ι : Type*} [DecidableEq ι]

namespace IdempoWorld

/-- The empty store, at some time. -/
def start (clock : Int64) : IdempoWorld ι where
  store := .empty
  clock := clock
  held := fun _ => none
  origin := fun _ => none
  finishedWith := []
  issued := 0

/-- The grant that a client gets now. -/
def grantTo (world : IdempoWorld ι) (client : ι) (tenant : TenantId) (key hash : String)
    (ttlMs : UInt64) : Grant ι where
  serial := world.issued
  client := client
  tenant := tenant
  key := key
  hash := hash
  ttlMs := ttlMs

/-- A client that holds no grant calls `check_and_put`. -/
def checkAndPut (world : IdempoWorld ι) (client : ι) (tenant : TenantId)
    (key hash : String) (ttlMs : UInt64) (now builtAt : Int64) : IdempoWorld ι :=
  match world.store.checkAndPut tenant key hash ttlMs now builtAt with
  | (.ok none, store) =>
      let grant := world.grantTo client tenant key hash ttlMs
      { world with
        store := store
        clock := builtAt
        held := Function.update world.held client (some grant)
        origin := Function.update world.origin grant.mapKey (some grant)
        issued := world.issued + 1 }
  | (_, store) => { world with store := store, clock := builtAt }

/-- A client calls `finish` for its grant, and holds it no longer. -/
def finish (world : IdempoWorld ι) (client : ι) (grant : Grant ι) (resultDigest : String)
    (now : Int64) : IdempoWorld ι :=
  match world.store.finish grant.tenant grant.key resultDigest now with
  | (.ok (), store) =>
      { world with
        store := store
        clock := now
        held := Function.update world.held client none
        finishedWith := (grant, resultDigest) :: world.finishedWith }
  | (.error _, store) =>
      { world with
        store := store
        clock := now
        held := Function.update world.held client none }

/-- A client calls `fail` for its grant, and holds it no longer. -/
def fail (world : IdempoWorld ι) (client : ι) (grant : Grant ι) (error : Option String)
    (now : Int64) : IdempoWorld ι :=
  { world with
    store := (world.store.fail grant.tenant grant.key error now).2
    clock := now
    held := Function.update world.held client none }

/-- One action of one client. Time does not run backwards. -/
def next (world : IdempoWorld ι) : IdempoAction ι → Option (IdempoWorld ι)
  | .checkAndPut client tenant key hash ttlMs now builtAt =>
      if (world.held client).isNone ∧ world.clock ≤ now ∧ now ≤ builtAt then
        some (world.checkAndPut client tenant key hash ttlMs now builtAt)
      else none
  | .finish client resultDigest now =>
      (world.held client).bind fun grant =>
        if world.clock ≤ now then some (world.finish client grant resultDigest now) else none
  | .fail client error now =>
      (world.held client).bind fun grant =>
        if world.clock ≤ now then some (world.fail client grant error now) else none

/-- The runs of the clients. -/
def system (clock : Int64) : TransitionSystem (IdempoWorld ι) (IdempoAction ι) :=
  .ofNext (start clock) next

/-- What a client would be told by `check_and_put`. -/
def told (world : IdempoWorld ι) (tenant : TenantId) (key hash : String) (ttlMs : UInt64)
    (now builtAt : Int64) : TxResult (Option String) :=
  (world.store.checkAndPut tenant key hash ttlMs now builtAt).1

end IdempoWorld

/-- The results that clients are told are intact. -/
structure ResultsIntact (T : TransitionSystem (IdempoWorld ι) (IdempoAction ι)) : Prop where
  /-- A result was passed to `finish` for the grant that created the record it is
  told from, and that grant was for the same tenant, key and hash. -/
  authentic : ∀ world tenant key hash ttlMs now builtAt resultDigest, T.Reachable world →
    world.told tenant key hash ttlMs now builtAt = .ok (some resultDigest) →
      ∃ grant, world.origin (idempoKey tenant key) = some grant ∧
        grant.tenant = tenant ∧ grant.key = key ∧ grant.hash = hash ∧
          (grant, resultDigest) ∈ world.finishedWith
  /-- Once the owner of a record has finished, the result stays for the time to
  live of the record. -/
  lasting : ∀ before client grant resultDigest finishedAt middle labels world now,
    T.Reachable before → before.held client = some grant →
      before.origin grant.mapKey = some grant →
        T.step before (.finish client resultDigest finishedAt) middle →
          T.Run middle labels world → world.clock ≤ now →
            now.toInt - finishedAt.toInt ≤ grant.ttlMs.toNat →
              ∀ ttlMs builtAt,
                world.told grant.tenant grant.key grant.hash ttlMs now builtAt =
                  .ok (some resultDigest)

/-- The client settles a record that its own grant created, or fails one that has
no result to lose. -/
def settlesOwn (world : IdempoWorld ι) : IdempoAction ι → Prop
  | .checkAndPut .. => True
  | .finish client _ _ =>
      ∀ grant, world.held client = some grant → world.origin grant.mapKey = some grant
  | .fail client _ _ =>
      ∀ grant, world.held client = some grant →
        world.origin grant.mapKey = some grant ∨
          ∀ record, world.store.find grant.mapKey = some record → record.status ≠ .succeeded

namespace IdempoWorld

/-- All that an action can be: a call of a client without a grant, or the one
settlement of a client with one, at a time that the clock has reached. -/
inductive Step (world : IdempoWorld ι) : IdempoAction ι → IdempoWorld ι → Prop
  | checkAndPut {client : ι} {tenant : TenantId} {key hash : String} {ttlMs : UInt64}
      {now builtAt : Int64} : world.clock ≤ now → now ≤ builtAt →
      Step world (.checkAndPut client tenant key hash ttlMs now builtAt)
        (world.checkAndPut client tenant key hash ttlMs now builtAt)
  | finish {client : ι} {grant : Grant ι} {resultDigest : String} {now : Int64} :
      world.held client = some grant → world.clock ≤ now →
      Step world (.finish client resultDigest now)
        (world.finish client grant resultDigest now)
  | fail {client : ι} {grant : Grant ι} {error : Option String} {now : Int64} :
      world.held client = some grant → world.clock ≤ now →
      Step world (.fail client error now) (world.fail client grant error now)

theorem step_of_next {world after : IdempoWorld ι} {action : IdempoAction ι}
    (h : world.next action = some after) : world.Step action after := by
  cases action with
  | checkAndPut client tenant key hash ttlMs now builtAt =>
      obtain ⟨⟨_, hclock, hbuilt⟩, hafter⟩ := Option.ite_none_right_eq_some.mp h
      cases hafter
      exact .checkAndPut hclock hbuilt
  | finish client resultDigest now =>
      obtain ⟨grant, hheld, hsettle⟩ := Option.bind_eq_some_iff.mp h
      obtain ⟨hclock, hafter⟩ := Option.ite_none_right_eq_some.mp hsettle
      cases hafter
      exact .finish hheld hclock
  | fail client error now =>
      obtain ⟨grant, hheld, hsettle⟩ := Option.bind_eq_some_iff.mp h
      obtain ⟨hclock, hafter⟩ := Option.ite_none_right_eq_some.mp hsettle
      cases hafter
      exact .fail hheld hclock

variable {world : IdempoWorld ι} {client : ι} {tenant : TenantId} {key hash : String}
variable {ttlMs : UInt64} {now builtAt : Int64}

theorem checkAndPut_of_live {record : IdempoRecord}
    (hfind : world.store.find (idempoKey tenant key) = some record)
    (hlive : ¬record.Outlived now) (hanswer : record.answer ≠ .ok none) :
    world.checkAndPut client tenant key hash ttlMs now builtAt =
      { world with clock := builtAt } := by
  unfold checkAndPut
  rw [InMemoryIdempoStore.checkAndPut_of_live hfind hlive]
  split
  case h_1 store h =>
    obtain ⟨hresult, _⟩ := Prod.mk.inj h
    split at hresult
    case isTrue => cases hresult
    case isFalse => exact absurd hresult hanswer
  case h_2 store h =>
    obtain ⟨_, rfl⟩ := Prod.mk.inj h
    rfl

theorem checkAndPut_of_vacant (client : ι) (hash : String) (ttlMs : UInt64)
    (builtAt : Int64)
    (hvacant : ∀ record, world.store.find (idempoKey tenant key) = some record →
      record.Outlived now) :
    ∃ store, world.checkAndPut client tenant key hash ttlMs now builtAt =
        { world with
          store := store
          clock := builtAt
          held := Function.update world.held client
            (some (world.grantTo client tenant key hash ttlMs))
          origin := Function.update world.origin (idempoKey tenant key)
            (some (world.grantTo client tenant key hash ttlMs))
          issued := world.issued + 1 } ∧
      ∀ mapKey, store.find mapKey =
        if mapKey = idempoKey tenant key then
          some (buildRecord tenant key hash ttlMs builtAt)
        else world.store.find mapKey := by
  obtain ⟨store, hstore, hfind⟩ :=
    InMemoryIdempoStore.checkAndPut_of_vacant hash ttlMs builtAt hvacant
  refine ⟨store, ?_, hfind⟩
  unfold checkAndPut
  rw [hstore]
  rfl

variable {grant : Grant ι} {record : IdempoRecord} {resultDigest : String}
variable {error : Option String}

theorem finish_of_find (hfind : world.store.find grant.mapKey = some record) :
    world.finish client grant resultDigest now =
      { world with
        store := world.store.put grant.mapKey
          (InMemoryIdempoStore.finished resultDigest now record)
        clock := now
        held := Function.update world.held client none
        finishedWith := (grant, resultDigest) :: world.finishedWith } := by
  rw [finish, InMemoryIdempoStore.finish, InMemoryIdempoStore.settle_of_find hfind]
  rfl

theorem fail_of_find (hfind : world.store.find grant.mapKey = some record) :
    world.fail client grant error now =
      { world with
        store := world.store.put grant.mapKey (InMemoryIdempoStore.failed error now record)
        clock := now
        held := Function.update world.held client none } := by
  rw [fail, InMemoryIdempoStore.fail, InMemoryIdempoStore.settle_of_find hfind]
  rfl

theorem fail_of_missing (hfind : world.store.find grant.mapKey = none) :
    world.fail client grant error now =
      { world with clock := now, held := Function.update world.held client none } := by
  rw [fail, InMemoryIdempoStore.fail, InMemoryIdempoStore.settle_of_missing hfind]

end IdempoWorld

/-! ## Accounting for records -/

/-- The record of a grant: it has the hash and the time to live of the grant, and
a result only from a `finish` of the grant. -/
structure Grant.Backs (grant : Grant ι) (finishedWith : List (Grant ι × String))
    (record : IdempoRecord) : Prop where
  hash : record.hash = grant.hash
  ttlMs : record.ttlMs = grant.ttlMs
  result : record.status = .succeeded →
    ∃ resultDigest, record.resultDigest = some resultDigest ∧
      (grant, resultDigest) ∈ finishedWith

/-- Every record is the record of the grant that created it, and grants that are
held are told apart by their clients and serial numbers. -/
structure IdempoWorld.Accounted (world : IdempoWorld ι) : Prop where
  backed : ∀ mapKey record, world.store.find mapKey = some record →
    ∃ grant, world.origin mapKey = some grant ∧ grant.Backs world.finishedWith record
  present : ∀ mapKey grant, world.origin mapKey = some grant →
    grant.mapKey = mapKey ∧ ∃ record, world.store.find mapKey = some record
  holders : ∀ client grant, world.held client = some grant →
    grant.client = client ∧ grant.serial < world.issued

namespace IdempoWorld.Accounted

variable {world : IdempoWorld ι} {client : ι} {tenant : TenantId} {key hash : String}
variable {ttlMs : UInt64} {now builtAt : Int64} {grant : Grant ι} {record : IdempoRecord}
variable {resultDigest : String} {error : Option String}

omit [DecidableEq ι] in
/-- A record never answers `Ok(None)`. -/
theorem answer_ne_none (h : world.Accounted) {mapKey : IdempoKey}
    (hfind : world.store.find mapKey = some record) : record.answer ≠ .ok none := by
  intro hnone
  obtain ⟨hstatus, hdigest⟩ := IdempoRecord.answer_eq_ok_iff.mp hnone
  obtain ⟨grant, _, hbacks⟩ := h.backed mapKey record hfind
  obtain ⟨resultDigest, hsome, _⟩ := hbacks.result hstatus
  rw [hdigest] at hsome
  cases hsome

omit [DecidableEq ι] in
/-- The record of the origin of a key. -/
theorem backs_of_origin (h : world.Accounted) (horigin : world.origin grant.mapKey = some grant) :
    ∃ record, world.store.find grant.mapKey = some record ∧
      grant.Backs world.finishedWith record := by
  obtain ⟨_, record, hfind⟩ := h.present _ _ horigin
  obtain ⟨other, hother, hbacks⟩ := h.backed _ _ hfind
  rw [horigin] at hother
  cases hother
  exact ⟨record, hfind, hbacks⟩

theorem checkAndPut (h : world.Accounted) :
    (world.checkAndPut client tenant key hash ttlMs now builtAt).Accounted := by
  rcases world.store.live_or_vacant (idempoKey tenant key) now with
    ⟨record, hfind, hlive⟩ | hvacant
  · rw [checkAndPut_of_live hfind hlive (h.answer_ne_none hfind)]
    exact ⟨h.backed, h.present, h.holders⟩
  · obtain ⟨store, hworld, hfind⟩ := checkAndPut_of_vacant client hash ttlMs builtAt hvacant
    rw [hworld]
    constructor
    case backed =>
      intro mapKey record hrecord
      dsimp only at hrecord ⊢
      rw [hfind] at hrecord
      split at hrecord
      case isTrue hkey =>
        cases hrecord
        subst hkey
        exact ⟨_, Function.update_self _ _ _, rfl, rfl, nofun⟩
      case isFalse hne =>
        rw [Function.update_of_ne hne]
        exact h.backed mapKey record hrecord
    case present =>
      intro mapKey grant horigin
      dsimp only at horigin ⊢
      by_cases hkey : mapKey = idempoKey tenant key
      · subst hkey
        rw [Function.update_self] at horigin
        cases horigin
        exact ⟨rfl, _, by rw [hfind, if_pos rfl]⟩
      · rw [Function.update_of_ne hkey] at horigin
        rw [hfind, if_neg hkey]
        exact h.present mapKey grant horigin
    case holders =>
      intro other grant hheld
      dsimp only at hheld ⊢
      by_cases hother : other = client
      · subst other
        rw [Function.update_self] at hheld
        cases hheld
        exact ⟨rfl, Nat.lt_succ_self _⟩
      · rw [Function.update_of_ne hother] at hheld
        obtain ⟨hclient, hserial⟩ := h.holders other grant hheld
        exact ⟨hclient, Nat.lt_succ_of_lt hserial⟩

/-- A client that has settled its grant holds none. -/
theorem holders_update (h : world.Accounted) (client other : ι) {grant : Grant ι}
    (hheld : Function.update world.held client none other = some grant) :
    grant.client = other ∧ grant.serial < world.issued := by
  by_cases hother : other = client
  · subst other
    rw [Function.update_self] at hheld
    cases hheld
  · rw [Function.update_of_ne hother] at hheld
    exact h.holders other grant hheld

omit [DecidableEq ι] in
/-- Writing to a record leaves every record of a grant in its place. -/
theorem present_put (h : world.Accounted) {written : IdempoKey} {mapKey : IdempoKey}
    (horigin : world.origin mapKey = some grant) :
    grant.mapKey = mapKey ∧ ∃ stored, (world.store.put written record).find mapKey =
      some stored := by
  obtain ⟨hkey, stored, hfind⟩ := h.present mapKey grant horigin
  rw [InMemoryIdempoStore.find_put]
  split
  · exact ⟨hkey, _, rfl⟩
  · exact ⟨hkey, stored, hfind⟩

theorem finish (h : world.Accounted) (horigin : world.origin grant.mapKey = some grant) :
    (world.finish client grant resultDigest now).Accounted := by
  obtain ⟨record, hfind, hbacks⟩ := h.backs_of_origin horigin
  rw [finish_of_find hfind]
  constructor
  case backed =>
    intro mapKey stored hstored
    dsimp only at hstored ⊢
    rw [InMemoryIdempoStore.find_put] at hstored
    split at hstored
    case isTrue hkey =>
      cases hstored
      subst hkey
      refine ⟨grant, horigin, hbacks.hash, hbacks.ttlMs, ?_⟩
      intro _
      exact ⟨resultDigest, rfl, List.mem_cons_self⟩
    case isFalse =>
      obtain ⟨other, hother, hbacked⟩ := h.backed mapKey stored hstored
      refine ⟨other, hother, hbacked.hash, hbacked.ttlMs, ?_⟩
      intro hstatus
      obtain ⟨digest, hdigest, hmem⟩ := hbacked.result hstatus
      exact ⟨digest, hdigest, List.mem_cons_of_mem _ hmem⟩
  case present =>
    intro mapKey other hother
    exact h.present_put hother
  case holders =>
    intro other held hheld
    exact h.holders_update client other hheld

theorem fail (h : world.Accounted) : (world.fail client grant error now).Accounted := by
  cases hfind : world.store.find grant.mapKey with
  | none =>
      rw [fail_of_missing hfind]
      exact ⟨h.backed, h.present, fun other held => h.holders_update client other⟩
  | some record =>
      rw [fail_of_find hfind]
      constructor
      case backed =>
        intro mapKey stored hstored
        dsimp only at hstored ⊢
        rw [InMemoryIdempoStore.find_put] at hstored
        split at hstored
        case isTrue hkey =>
          cases hstored
          obtain ⟨other, hother, hbacked⟩ := h.backed _ _ hfind
          exact ⟨other, hkey ▸ hother, hbacked.hash, hbacked.ttlMs, nofun⟩
        case isFalse => exact h.backed mapKey stored hstored
      case present =>
        intro mapKey other hother
        exact h.present_put hother
      case holders =>
        intro other held hheld
        exact h.holders_update client other hheld

end IdempoWorld.Accounted

/-- The runs in which no client settles the record of another grant. -/
def ownSystem (clock : Int64) : TransitionSystem (IdempoWorld ι) (IdempoAction ι) :=
  (IdempoWorld.system clock).restrict settlesOwn

theorem IdempoWorld.accounted_of_step {clock : Int64} {world after : IdempoWorld ι}
    {action : IdempoAction ι} (h : world.Accounted)
    (hstep : (ownSystem clock).step world action after) : after.Accounted := by
  obtain ⟨hown, hnext⟩ := hstep
  cases IdempoWorld.step_of_next hnext with
  | checkAndPut _ _ => exact h.checkAndPut
  | finish hheld _ => exact h.finish (hown _ hheld)
  | fail _ _ => exact h.fail

theorem IdempoWorld.accounted_of_reachable {clock : Int64} {world : IdempoWorld ι}
    (h : (ownSystem clock).Reachable world) : world.Accounted := by
  refine TransitionSystem.invariant IdempoWorld.Accounted ?_ ?_ h
  · intro state hinit
    rw [hinit]
    refine ⟨?_, nofun, nofun⟩
    intro mapKey record hfind
    rw [IdempoWorld.start, InMemoryIdempoStore.find_empty] at hfind
    cases hfind
  · intro source action target _ hsource hstep
    exact IdempoWorld.accounted_of_step hsource hstep

omit [DecidableEq ι] in
/-- A result that is told has been passed to `finish` for the record's grant. -/
theorem IdempoWorld.authentic_of_accounted {world : IdempoWorld ι} (h : world.Accounted)
    {tenant : TenantId} {key hash : String} {ttlMs : UInt64} {now builtAt : Int64}
    {resultDigest : String}
    (htold : world.told tenant key hash ttlMs now builtAt = .ok (some resultDigest)) :
    ∃ grant, world.origin (idempoKey tenant key) = some grant ∧
      grant.tenant = tenant ∧ grant.key = key ∧ grant.hash = hash ∧
        (grant, resultDigest) ∈ world.finishedWith := by
  rcases world.store.live_or_vacant (idempoKey tenant key) now with
    ⟨record, hfind, hlive⟩ | hvacant
  · rw [IdempoWorld.told, InMemoryIdempoStore.checkAndPut_of_live hfind hlive] at htold
    dsimp only at htold
    split at htold
    case isTrue => cases htold
    case isFalse hhash =>
      obtain ⟨hstatus, hdigest⟩ := IdempoRecord.answer_eq_ok_iff.mp htold
      obtain ⟨grant, horigin, hbacks⟩ := h.backed _ _ hfind
      obtain ⟨digest, hsome, hmem⟩ := hbacks.result hstatus
      rw [hdigest] at hsome
      cases hsome
      obtain ⟨htenant, hkey⟩ := idempoKey_inj (h.present _ _ horigin).1
      exact ⟨grant, horigin, htenant, hkey, hbacks.hash ▸ not_not.mp hhash, hmem⟩
  · obtain ⟨store, hstore, _⟩ :=
      InMemoryIdempoStore.checkAndPut_of_vacant hash ttlMs builtAt hvacant
    rw [IdempoWorld.told, hstore] at htold
    cases htold

/-- The grant has been finished with a result, and unless its time to live has
passed, its record lies in the store with that result. -/
structure IdempoWorld.Lasts (world : IdempoWorld ι) (grant : Grant ι)
    (resultDigest : String) (finishedAt : Int64) : Prop where
  stamped : finishedAt ≤ world.clock
  settled : ∀ client, world.held client ≠ some grant
  serial : grant.serial < world.issued
  kept : world.clock.toInt - finishedAt.toInt ≤ grant.ttlMs.toNat →
    world.origin grant.mapKey = some grant ∧
      ∃ record, world.store.find grant.mapKey = some record ∧
        record.hash = grant.hash ∧ record.ttlMs = grant.ttlMs ∧
          record.answer = .ok (some resultDigest) ∧ record.updatedAt = finishedAt

namespace IdempoWorld.Lasts

variable {world : IdempoWorld ι} {grant : Grant ι} {resultDigest : String}
variable {finishedAt : Int64} {client : ι} {now : Int64}

/-- The own `finish` of a record starts this. -/
theorem of_finish (hacc : world.Accounted) (hheld : world.held client = some grant)
    (horigin : world.origin grant.mapKey = some grant) :
    (world.finish client grant resultDigest finishedAt).Lasts grant resultDigest
      finishedAt := by
  obtain ⟨record, hfind, hbacks⟩ := hacc.backs_of_origin horigin
  obtain ⟨hclient, hserial⟩ := hacc.holders client grant hheld
  rw [finish_of_find hfind]
  refine ⟨Int64.le_refl _, ?_, hserial, ?_⟩
  · intro other hother
    dsimp only at hother
    have hsame := (hacc.holders_update client other hother).1
    rw [hclient] at hsame
    subst other
    rw [Function.update_self] at hother
    cases hother
  · intro _
    refine ⟨horigin, InMemoryIdempoStore.finished resultDigest finishedAt record, ?_,
      hbacks.hash, hbacks.ttlMs, rfl, rfl⟩
    exact InMemoryIdempoStore.find_put.trans (if_pos rfl)

omit [DecidableEq ι] in
/-- The time to live has not passed now, so it had not passed before. -/
theorem kept_of_le (h : world.Lasts grant resultDigest finishedAt) (hclock : world.clock ≤ now)
    (hage : now.toInt - finishedAt.toInt ≤ grant.ttlMs.toNat) :
    world.origin grant.mapKey = some grant ∧
      ∃ record, world.store.find grant.mapKey = some record ∧
        record.hash = grant.hash ∧ record.ttlMs = grant.ttlMs ∧
          record.answer = .ok (some resultDigest) ∧ record.updatedAt = finishedAt ∧
            ¬record.Outlived now := by
  have hle : world.clock.toInt ≤ now.toInt := Int64.le_iff_toInt_le.mp hclock
  obtain ⟨horigin, record, hfind, hhash, httl, hanswer, hupdated⟩ := h.kept (by omega)
  refine ⟨horigin, record, hfind, hhash, httl, hanswer, hupdated, ?_⟩
  apply IdempoRecord.not_outlived
  · rw [hupdated]
    exact Int64.le_trans h.stamped hclock
  · rw [hupdated, httl]
    exact hage

theorem checkAndPut (h : world.Lasts grant resultDigest finishedAt) (hacc : world.Accounted)
    {tenant : TenantId} {key hash : String} {ttlMs : UInt64} {builtAt : Int64}
    (hclock : world.clock ≤ now) (hbuilt : now ≤ builtAt) :
    (world.checkAndPut client tenant key hash ttlMs now builtAt).Lasts grant resultDigest
      finishedAt := by
  have hstamped : finishedAt ≤ builtAt :=
    Int64.le_trans h.stamped (Int64.le_trans hclock hbuilt)
  have hle : now.toInt ≤ builtAt.toInt := Int64.le_iff_toInt_le.mp hbuilt
  rcases world.store.live_or_vacant (idempoKey tenant key) now with
    ⟨record, hfind, hlive⟩ | hvacant
  · rw [checkAndPut_of_live hfind hlive (hacc.answer_ne_none hfind)]
    refine ⟨hstamped, h.settled, h.serial, ?_⟩
    intro hage
    obtain ⟨horigin, kept, hkept, hhash, httl, hanswer, hupdated, _⟩ :=
      h.kept_of_le (Int64.le_trans hclock hbuilt) hage
    exact ⟨horigin, kept, hkept, hhash, httl, hanswer, hupdated⟩
  · obtain ⟨store, hworld, hfind⟩ :=
      checkAndPut_of_vacant client hash ttlMs builtAt hvacant
    rw [hworld]
    refine ⟨hstamped, ?_, Nat.lt_succ_of_lt h.serial, ?_⟩
    · intro other hother
      dsimp only at hother
      by_cases hclient : other = client
      · subst other
        rw [Function.update_self] at hother
        have hserial := h.serial
        cases hother
        exact Nat.lt_irrefl _ hserial
      · rw [Function.update_of_ne hclient] at hother
        exact h.settled other hother
    · intro hage
      dsimp only at hage ⊢
      obtain ⟨horigin, kept, hkept, hhash, httl, hanswer, hupdated, hlive⟩ :=
        h.kept_of_le hclock (by omega)
      have hne : grant.mapKey ≠ idempoKey tenant key := by
        intro hkey
        rw [hkey] at hkept
        exact hlive (hvacant kept hkept)
      rw [Function.update_of_ne hne, hfind, if_neg hne]
      exact ⟨horigin, kept, hkept, hhash, httl, hanswer, hupdated⟩

/-- Settling another grant keeps the result, if it does not write to the record. -/
theorem settle (h : world.Lasts grant resultDigest finishedAt) (hclock : world.clock ≤ now)
    {store : InMemoryIdempoStore} {finishedWith : List (Grant ι × String)}
    (hstore : ∀ record, world.origin grant.mapKey = some grant →
      world.store.find grant.mapKey = some record → record.status = .succeeded →
        store.find grant.mapKey = some record) :
    IdempoWorld.Lasts
      { world with
        store := store
        clock := now
        held := Function.update world.held client none
        finishedWith := finishedWith } grant resultDigest finishedAt := by
  refine ⟨Int64.le_trans h.stamped hclock, ?_, h.serial, ?_⟩
  · intro other hother
    dsimp only at hother
    by_cases hclient : other = client
    · subst other
      rw [Function.update_self] at hother
      cases hother
    · rw [Function.update_of_ne hclient] at hother
      exact h.settled other hother
  · intro hage
    obtain ⟨horigin, kept, hkept, hhash, httl, hanswer, hupdated, _⟩ := h.kept_of_le hclock hage
    have hstatus := (IdempoRecord.answer_eq_ok_iff.mp hanswer).1
    exact ⟨horigin, kept, hstore kept horigin hkept hstatus, hhash, httl, hanswer, hupdated⟩

variable {other : Grant ι}

omit [DecidableEq ι] in
/-- Another client's own record is another record. -/
theorem mapKey_ne (h : world.Lasts grant resultDigest finishedAt)
    (hheld : world.held client = some other) (hother : world.origin other.mapKey = some other)
    (horigin : world.origin grant.mapKey = some grant) : grant.mapKey ≠ other.mapKey := by
  intro hkey
  rw [hkey, hother] at horigin
  cases horigin
  exact h.settled client hheld

theorem finish (h : world.Lasts grant resultDigest finishedAt) (hacc : world.Accounted)
    {digest : String} (hheld : world.held client = some other)
    (hother : world.origin other.mapKey = some other) (hclock : world.clock ≤ now) :
    (world.finish client other digest now).Lasts grant resultDigest finishedAt := by
  obtain ⟨record, hfind, _⟩ := hacc.backs_of_origin hother
  rw [finish_of_find hfind]
  apply h.settle hclock
  intro kept horigin hkept _
  rw [InMemoryIdempoStore.find_put, if_neg (h.mapKey_ne hheld hother horigin), hkept]

theorem fail (h : world.Lasts grant resultDigest finishedAt) {error : Option String}
    (hheld : world.held client = some other)
    (hown : world.origin other.mapKey = some other ∨
      ∀ record, world.store.find other.mapKey = some record → record.status ≠ .succeeded)
    (hclock : world.clock ≤ now) :
    (world.fail client other error now).Lasts grant resultDigest finishedAt := by
  cases hfind : world.store.find other.mapKey with
  | none =>
      rw [fail_of_missing hfind]
      apply h.settle hclock
      intro kept _ hkept _
      exact hkept
  | some record =>
      rw [fail_of_find hfind]
      apply h.settle hclock
      intro kept horigin hkept hstatus
      have hne : grant.mapKey ≠ other.mapKey := by
        rcases hown with hother | hunfinished
        · exact h.mapKey_ne hheld hother horigin
        · intro hkey
          rw [hkey] at hkept
          exact hunfinished kept hkept hstatus
      rw [InMemoryIdempoStore.find_put, if_neg hne, hkept]

omit [DecidableEq ι] in
/-- While its time to live has not passed, callers are told the result. -/
theorem told (h : world.Lasts grant resultDigest finishedAt) (hclock : world.clock ≤ now)
    (hage : now.toInt - finishedAt.toInt ≤ grant.ttlMs.toNat) (ttlMs : UInt64)
    (builtAt : Int64) :
    world.told grant.tenant grant.key grant.hash ttlMs now builtAt =
      .ok (some resultDigest) := by
  obtain ⟨_, record, hfind, hhash, _, hanswer, _, hlive⟩ := h.kept_of_le hclock hage
  rw [IdempoWorld.told, InMemoryIdempoStore.checkAndPut_of_live hfind hlive,
    if_neg (not_not.mpr hhash)]
  exact hanswer

end IdempoWorld.Lasts

theorem IdempoWorld.lasts_of_step {clock : Int64} {world after : IdempoWorld ι}
    {action : IdempoAction ι} {grant : Grant ι} {resultDigest : String} {finishedAt : Int64}
    (h : world.Lasts grant resultDigest finishedAt) (hacc : world.Accounted)
    (hstep : (ownSystem clock).step world action after) :
    after.Lasts grant resultDigest finishedAt := by
  obtain ⟨hown, hnext⟩ := hstep
  cases IdempoWorld.step_of_next hnext with
  | checkAndPut hclock hbuilt => exact h.checkAndPut hacc hclock hbuilt
  | finish hheld hclock => exact h.finish hacc hheld (hown _ hheld) hclock
  | fail hheld hclock => exact h.fail hheld (hown _ hheld) hclock

/-- Results are intact as long as clients settle only their own records. -/
theorem resultsIntact_of_settlesOwn (clock : Int64) :
    ResultsIntact (ownSystem (ι := ι) clock) where
  authentic := by
    intro world tenant key hash ttlMs now builtAt resultDigest hreach htold
    exact IdempoWorld.authentic_of_accounted (IdempoWorld.accounted_of_reachable hreach) htold
  lasting := by
    intro before client grant resultDigest finishedAt middle labels world now hreach hheld
      horigin hfinish hrun hclock hage
    have hmiddle : middle.Lasts grant resultDigest finishedAt := by
      cases IdempoWorld.step_of_next hfinish.2 with
      | finish hheld' _ =>
          rw [hheld] at hheld'
          cases hheld'
          exact .of_finish (IdempoWorld.accounted_of_reachable hreach) hheld horigin
    have hworld : world.Lasts grant resultDigest finishedAt := by
      refine TransitionSystem.Run.preserves
        (fun world => world.Lasts grant resultDigest finishedAt) hrun
        (hreach.step hfinish) ?_ hmiddle
      intro source action target _ hsource hlasts hstep
      exact IdempoWorld.lasts_of_step hlasts (IdempoWorld.accounted_of_reachable hsource) hstep
    exact hworld.told hclock hage

end World

namespace StaleFinish

/-- Client 0 is granted the key with hash `h0`. When its record has outlived its
time, client 1 is granted the key with hash `h1`. Then client 0 finishes. -/
def actions : List (IdempoAction ℕ) :=
  [.checkAndPut 0 ⟨"t"⟩ "k" "h0" 10 0 0,
    .checkAndPut 1 ⟨"t"⟩ "k" "h1" 10 11 11,
    .finish 0 "r0" 12]

/-- What the actions leave. -/
def world : IdempoWorld ℕ :=
  (TransitionSystem.replay IdempoWorld.next (.start 0) actions).getD (.start 0)

end StaleFinish

/-- A client that asks with hash `h1` is told the result of hash `h0`. -/
theorem not_resultsIntact_staleFinish :
    ¬ResultsIntact (IdempoWorld.system 0 : TransitionSystem (IdempoWorld ℕ) (IdempoAction ℕ)) := by
  intro h
  have hreach : (IdempoWorld.system 0).Reachable StaleFinish.world :=
    TransitionSystem.reachable_of_replay StaleFinish.actions rfl
  have htold : StaleFinish.world.told ⟨"t"⟩ "k" "h1" 10 13 13 = .ok (some "r0") := rfl
  obtain ⟨grant, horigin, _, _, hhash, hmem⟩ := h.authentic _ _ _ _ _ _ _ _ hreach htold
  obtain ⟨rfl, _⟩ := Prod.mk.inj (List.mem_singleton.mp hmem)
  exact absurd hhash (by decide)

end Soulbase.Tx
