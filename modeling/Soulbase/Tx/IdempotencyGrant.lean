/-
# Granting an idempotency key once

Any number of clients call `check_and_put` of the SurrealDB store for the same
key, interleaved at the granularity of its queries. A call that returns
`Ok(None)` grants the key. The key should be granted again only when the records
of all earlier grants have expired.

A client that finds an expired record deletes it by its id, whatever lies under
that id by then. If another client has replaced the record in the meantime, the
late `DELETE` removes a live grant and the next `CREATE` grants the key a second
time. The key is granted once in the runs in which no `DELETE` finds a live
grant.
-/

import Soulbase.Foundation.Transition
import Soulbase.Tx.Surreal.IdempoStore

namespace Soulbase.Tx

open Soulbase.Foundation

/-- Clients, each in the middle of a call or between two calls. -/
abbrev ClientPool (ι : Type*) :=
  Pool ι IdempoQuery IdempoQuery.Answer (TxResult (Option String)) IdempoTable

/-- A client calls `check_and_put`, or makes the next query of its call. -/
inductive ClientStep (ι : Type*)
  | begin (client : ι) (hash : String) (ttlMs : UInt64)
  | query (client : ι) (choice : QueryChoice)

/-- A row says with what result it has succeeded. -/
def IdempoDoc.Answerable (doc : IdempoDoc) : Prop :=
  doc.status = idempoStatusToStr .succeeded → doc.resultDigest ≠ none

/-- The record has reached its time to live. -/
def IdempoDoc.Expired (doc : IdempoDoc) (clock : Int64) : Prop :=
  Elapsed doc.ttlMs doc.updatedAt clock

instance (doc : IdempoDoc) (clock : Int64) : Decidable (doc.Expired clock) :=
  inferInstanceAs (Decidable (Elapsed _ _ _))

/-- The key that is asked for, and the table before the first call. -/
structure KeyContest where
  tenant : TenantId
  key : String
  rows : HashMap String IdempoDoc
  clock : Int64
  /-- `finish` always writes a result. -/
  answerable : ∀ id doc, rows.get id = some doc → doc.Answerable

section System

variable {ι : Type*} [DecidableEq ι]

/-- One step of one client, over an environment that answers queries. -/
def clientStep (H : Handler IdempoQuery IdempoQuery.Answer QueryChoice IdempoTable)
    (tenant : TenantId) (key : String) (pool : ClientPool ι) :
    ClientStep ι → Option (ClientPool ι)
  | .begin client hash ttlMs =>
      pool.spawn client (SurrealIdempoStore.checkAndPut tenant key hash ttlMs).run
  | .query client choice => pool.call H client choice

namespace KeyContest

/-- Nobody has called yet, which is as if everybody had been turned away. -/
def start (contest : KeyContest) : ClientPool ι where
  shared := { rows := contest.rows, clock := contest.clock, created := [] }
  threads := fun _ => .done (.error .idempoBusy)

/-- The runs of the clients. -/
def system (contest : KeyContest)
    (H : Handler IdempoQuery IdempoQuery.Answer QueryChoice IdempoTable) :
    TransitionSystem (ClientPool ι) (ClientStep ι) :=
  .ofNext contest.start (clientStep H contest.tenant contest.key)

end KeyContest

/-- Whenever a call returns `Ok(None)`, the records of all earlier grants have
expired, and so at any time only the newest grant can be live. -/
structure GrantsOnce (T : TransitionSystem (ClientPool ι) (ClientStep ι)) : Prop where
  grant : ∀ before client choice after, T.Reachable before →
    T.step before (.query client choice) after →
      after.threads client = .done (.ok none) →
        ∀ doc ∈ before.shared.created, doc.Expired after.shared.clock
  oneLive : ∀ pool, T.Reachable pool →
    ∀ doc ∈ pool.shared.created.tail, doc.Expired pool.shared.clock

end System

/-- A `DELETE` that finds a grant finds one that has expired. Other queries are
made at any time. -/
def deletesExpired (table : IdempoTable) (choice : QueryChoice) : IdempoQuery → Bool
  | .deleteRecord id =>
      decide (∀ doc ∈ table.created, table.rows.get id = some doc → doc.Expired choice.clock)
  | .nowMs | .selectSingle .. | .createRecord .. => true

/-- A call creates at most one row, under the id of its key, and ends there. The
standing of a caller is whether it has. -/
def granting (id : String) : Discipline IdempoQuery IdempoQuery.Answer Bool where
  permits created query := created = false ∧
    match query with
    | .createRecord id' doc => id' = id ∧ doc.Answerable
    | .nowMs | .selectSingle .. | .deleteRecord .. => True
  ensures
    | .selectSingle .., .ok found => ∀ doc, found = some doc → doc.Answerable
    | _, _ => True
  after created query answer := created || query.creates answer

/-- `Ok(None)` is the answer to a caller that has created a row. -/
def GrantedByCreating (result : TxResult (Option String)) (created : Bool) : Prop :=
  result = .ok none → created = true

namespace SurrealIdempoStore

variable {tenant : TenantId} {key hash : String} {ttlMs : UInt64}

/-- The row of a new grant has not succeeded. -/
theorem answerable_buildRecord {now : Int64} :
    (idempoDocFromRecord (buildRecord tenant key hash ttlMs now)).Answerable := by
  intro hstatus
  change idempoStatusToStr .inFlight = idempoStatusToStr .succeeded at hstatus
  exact absurd hstatus (by decide)

theorem follows_put :
    (put tenant key hash ttlMs).run.Follows (granting (recordIdFor idempoTable tenant key))
      GrantedByCreating false := by
  refine ⟨⟨rfl, trivial⟩, ?_⟩
  intro now _
  refine ⟨⟨rfl, rfl, answerable_buildRecord⟩, ?_⟩
  intro answer _
  cases answer with
  | error error => exact nofun
  | ok _ => exact fun _ => rfl

/-- The answer from an existing row is never `Ok(None)`. -/
theorem answer_ne_none {doc : IdempoDoc} {record : IdempoRecord} (hdoc : doc.Answerable)
    (hrecord : idempoRecordFromDoc doc = .ok record) : record.answer ≠ .ok none := by
  obtain ⟨hstatus, hdigest⟩ := of_idempoRecordFromDoc hrecord
  unfold IdempoRecord.answer
  cases h : record.status with
  | inFlight => exact nofun
  | failed => exact nofun
  | succeeded =>
      rw [h] at hstatus
      intro hnone
      exact hdoc hstatus (hdigest ▸ Except.ok.inj hnone)

theorem follows_checkAndPut :
    (checkAndPut tenant key hash ttlMs).run.Follows
      (granting (recordIdFor idempoTable tenant key)) GrantedByCreating false := by
  refine ⟨⟨rfl, trivial⟩, ?_⟩
  intro answer hanswer
  cases answer with
  | error error => exact nofun
  | ok found =>
      cases found with
      | none => exact follows_put
      | some doc =>
          have hdoc : doc.Answerable := hanswer doc rfl
          show Program.Follows _ _ _ (ExceptT.run (ExceptT.mk _ >>= _))
          cases hrecord : idempoRecordFromDoc doc with
          | error error => exact nofun
          | ok record =>
              refine ⟨⟨rfl, trivial⟩, ?_⟩
              intro now _
              show Program.Follows _ _ _ (ExceptT.run (ite _ _ _))
              split
              case isTrue =>
                refine ⟨⟨rfl, trivial⟩, ?_⟩
                intro deleted _
                cases deleted with
                | error error => exact nofun
                | ok _ => exact follows_put
              case isFalse =>
                split
                case isTrue => exact nofun
                case isFalse =>
                  intro hnone
                  exact absurd hnone (answer_ne_none hdoc hrecord)

end SurrealIdempoStore

/-! ## What a query keeps -/

/-- A grant lies in the table or has expired, and all grants but the newest
have. -/
structure IdempoTable.Guarded (table : IdempoTable) (id : String) : Prop where
  answerable : ∀ id doc, table.rows.get id = some doc → doc.Answerable
  held : ∀ doc ∈ table.created, table.rows.get id = some doc ∨ doc.Expired table.clock
  oneLive : ∀ doc ∈ table.created.tail, doc.Expired table.clock

namespace IdempoTable.Guarded

variable {table next : IdempoTable} {id : String} {clock : Int64}
variable {query : IdempoQuery} {answer : query.Answer}

theorem atTime (h : table.Guarded id) (hle : table.clock ≤ clock) :
    (table.atTime clock).Guarded id where
  answerable := h.answerable
  held := fun doc hdoc => (h.held doc hdoc).imp_right fun hexp => hexp.mono hle
  oneLive := fun doc hdoc => (h.oneLive doc hdoc).mono hle

/-- Where there is no row, all grants have expired. -/
theorem expired_of_vacant (h : table.Guarded id) (hvacant : table.rows.get id = none) :
    ∀ doc ∈ table.created, doc.Expired table.clock := by
  intro doc hdoc
  rcases h.held doc hdoc with hrow | hexp
  · rw [hvacant] at hrow
    cases hrow
  · exact hexp

/-- Each query keeps the table guarded, if it is one that a call makes and if a
`DELETE` finds no live grant. -/
theorem effect (h : table.Guarded id) {choice : QueryChoice}
    (hclock : choice.clock = table.clock)
    (hallowed : deletesExpired table choice query = true)
    (hpermits : (granting id).permits false query)
    (heffect : IdempoTable.Effect table query answer next) : next.Guarded id := by
  cases heffect with
  | failed _ => exact h
  | read => exact h
  | selected _ _ _ _ => exact h
  | deleted id' =>
      have hexpired := of_decide_eq_true hallowed
      constructor
      case answerable =>
        intro other doc hrow
        rw [HashMap.get_remove] at hrow
        split at hrow
        case isTrue => cases hrow
        case isFalse => exact h.answerable other doc hrow
      case held =>
        intro doc hdoc
        rw [HashMap.get_remove]
        split
        case isFalse => exact h.held doc hdoc
        case isTrue heq =>
          rcases h.held doc hdoc with hrow | hexp
          · apply Or.inr
            rw [← hclock]
            exact hexpired doc hdoc (heq ▸ hrow)
          · exact .inr hexp
      case oneLive => exact h.oneLive
  | created id' data hvacant =>
      obtain ⟨_, rfl, hdata⟩ := hpermits
      have hexpired := h.expired_of_vacant hvacant
      constructor
      case answerable =>
        intro other doc hrow
        rw [HashMap.get_put] at hrow
        split at hrow
        case isTrue =>
          cases hrow
          exact hdata
        case isFalse => exact h.answerable other doc hrow
      case held =>
        intro doc hdoc
        rcases List.mem_cons.mp hdoc with rfl | hdoc
        · exact .inl (HashMap.get_put_self _ _ _)
        · exact .inr (hexpired doc hdoc)
      case oneLive => exact hexpired

end IdempoTable.Guarded

/-- The environment keeps its promise: what is selected is a row. -/
theorem ensures_of_effect {table next : IdempoTable} {id : String} {query : IdempoQuery}
    {answer : query.Answer} (h : table.Guarded id)
    (heffect : IdempoTable.Effect table query answer next) :
    (granting id).ensures query answer := by
  cases heffect with
  | selected id' _ found hfound =>
      intro doc hdoc
      exact h.answerable id' doc (hfound doc hdoc)
  | read => trivial
  | deleted _ => trivial
  | created _ _ _ => trivial
  | failed hfails =>
      cases query with
      | selectSingle _ _ =>
          cases answer with
          | error _ => trivial
          | ok _ => cases hfails
      | nowMs => trivial
      | deleteRecord _ => trivial
      | createRecord _ _ => trivial

section Runs

variable {ι : Type*} [DecidableEq ι]

/-- Every client is in the middle of a call that follows the discipline, over a
guarded table. -/
structure ClientPool.Guarded (pool : ClientPool ι) (id : String) (created : ι → Bool) :
    Prop where
  table : pool.shared.Guarded id
  follows : ∀ client,
    (pool.threads client).Follows (granting id) GrantedByCreating (created client)

/-- The runs in which a `DELETE` never finds a live grant. -/
def KeyContest.punctualSystem (contest : KeyContest) :
    TransitionSystem (ClientPool ι) (ClientStep ι) :=
  contest.system (IdempoTable.answer.restrict deletesExpired)

/-- What one query of one client does: the pool stays guarded, and if the query
ends the call with `Ok(None)`, then there was no row. -/
theorem guarded_of_query {pool next : ClientPool ι} {id : String} {created : ι → Bool}
    {client : ι} {choice : QueryChoice} (hpool : pool.Guarded id created)
    (hstep : pool.call (IdempoTable.answer.restrict deletesExpired) client choice =
      some next) :
    (∃ created, next.Guarded id created) ∧
      (next.threads client = .done (.ok none) →
        ∀ doc ∈ pool.shared.created, doc.Expired next.shared.clock) := by
  obtain ⟨query, resume, answer, table, hthread, hquery, rfl⟩ :=
    Pool.call_eq_some_iff.mp hstep
  obtain ⟨hallowed, hanswer⟩ := Handler.restrict_eq_some_iff.mp hquery
  obtain ⟨hclock, heffect⟩ := IdempoTable.effect_of_answer hanswer
  have htable := hpool.table.atTime hclock
  have hfollows := hpool.follows client
  rw [hthread] at hfollows
  have hensures := ensures_of_effect htable heffect
  have hcreated : created client = false := hfollows.1.1
  constructor
  · refine ⟨_, ?_, Pool.follows_call hpool.follows hthread hensures⟩
    refine htable.effect rfl hallowed ?_ heffect
    rw [← hcreated]
    exact hfollows.1
  · intro hdone
    have hresume : resume answer = .done (.ok none) := by
      dsimp only at hdone
      rw [← hdone, Function.update_self]
    have hpost := hfollows.2 answer hensures
    rw [hresume] at hpost
    have hcreates : (created client || query.creates answer) = true := hpost rfl
    rw [hcreated, Bool.false_or] at hcreates
    cases heffect with
    | created _ _ hvacant =>
        obtain ⟨_, hid, _⟩ := hfollows.1
        exact htable.expired_of_vacant (hid ▸ hvacant)
    | failed hfails =>
        rw [IdempoQuery.creates_of_fails hfails] at hcreates
        cases hcreates
    | read => cases hcreates
    | selected _ _ _ _ => cases hcreates
    | deleted _ => cases hcreates

/-- A client that begins a call follows the discipline from its start. -/
theorem guarded_of_begin {contest : KeyContest} {pool next : ClientPool ι}
    {created : ι → Bool} {client : ι} {hash : String} {ttlMs : UInt64}
    (hpool : pool.Guarded (recordIdFor idempoTable contest.tenant contest.key) created)
    (hstep : pool.spawn client
      (SurrealIdempoStore.checkAndPut contest.tenant contest.key hash ttlMs).run =
        some next) :
    next.Guarded (recordIdFor idempoTable contest.tenant contest.key)
      (Function.update created client false) := by
  obtain ⟨_, rfl⟩ := Pool.spawn_eq_some_iff.mp hstep
  exact ⟨hpool.table, Pool.follows_begin hpool.follows SurrealIdempoStore.follows_checkAndPut⟩

theorem guarded_of_reachable {contest : KeyContest} {pool : ClientPool ι}
    (h : contest.punctualSystem.Reachable pool) :
    ∃ created, pool.Guarded (recordIdFor idempoTable contest.tenant contest.key)
      created := by
  refine TransitionSystem.invariant (fun pool => ∃ created, ClientPool.Guarded pool
    (recordIdFor idempoTable contest.tenant contest.key) created) ?_ ?_ h
  · intro pool hinit
    rw [hinit]
    refine ⟨fun _ => false, ⟨contest.answerable, nofun, nofun⟩, ?_⟩
    intro client
    exact nofun
  · intro source label target _ hsource hstep
    obtain ⟨created, hsource⟩ := hsource
    cases label with
    | begin client hash ttlMs => exact ⟨_, guarded_of_begin hsource hstep⟩
    | query client choice => exact (guarded_of_query hsource hstep).1

/-- The key is granted once, as long as no `DELETE` finds a live grant. -/
theorem grantsOnce_of_deletesExpired (contest : KeyContest) :
    GrantsOnce (contest.punctualSystem (ι := ι)) where
  grant := by
    intro before client choice after hreach hstep hdone
    obtain ⟨created, hbefore⟩ := guarded_of_reachable hreach
    exact (guarded_of_query hbefore hstep).2 hdone
  oneLive := by
    intro pool hreach
    obtain ⟨created, hpool⟩ := guarded_of_reachable hreach
    exact hpool.table.oneLive

end Runs

namespace LateDelete

/-- A key that nobody has asked for. -/
def contest : KeyContest where
  tenant := ⟨"t"⟩
  key := "k"
  rows := ∅
  clock := 0
  answerable := by simp

/-- A client makes its next query at a time, and the database is reached. -/
def queryAt (clock : Int64) (client : ℕ) : ClientStep ℕ :=
  .query client { clock := clock, outage := none }

/-- Client 0 is granted the key. When its record has expired, clients 1 and 2
both select it. Client 1 replaces it and is granted the key, and then client 2
deletes the new record. -/
def steps : List (ClientStep ℕ) :=
  [.begin 0 "h" 10, queryAt 0 0, queryAt 0 0, queryAt 0 0,
    .begin 1 "h" 10, .begin 2 "h" 10,
    queryAt 10 1, queryAt 10 2, queryAt 10 1, queryAt 10 2,
    queryAt 10 1, queryAt 10 1, queryAt 10 1,
    queryAt 10 2, queryAt 10 2]

/-- The pool before the last query of client 2. -/
def before : ClientPool ℕ :=
  (TransitionSystem.replay (clientStep IdempoTable.answer ⟨"t"⟩ "k") contest.start
    steps).getD contest.start

/-- The pool after it. -/
def after : ClientPool ℕ :=
  (clientStep IdempoTable.answer ⟨"t"⟩ "k" before (queryAt 10 2)).getD before

end LateDelete

/-- Clients 1 and 2 hold the key at the same time. -/
theorem not_grantsOnce_lateDelete :
    ¬GrantsOnce (LateDelete.contest.system (ι := ℕ) IdempoTable.answer) := by
  intro h
  have hreach : (LateDelete.contest.system IdempoTable.answer).Reachable LateDelete.before :=
    TransitionSystem.reachable_of_replay LateDelete.steps rfl
  have hstep : (LateDelete.contest.system IdempoTable.answer).step LateDelete.before
      (LateDelete.queryAt 10 2) LateDelete.after := rfl
  have hdone : LateDelete.after.threads 2 = .done (.ok none) := rfl
  have hexpired := h.grant LateDelete.before 2 _ LateDelete.after hreach hstep hdone
    (idempoDocFromRecord (buildRecord ⟨"t"⟩ "k" "h" 10 10)) List.mem_cons_self
  exact absurd hexpired (by decide)

end Soulbase.Tx
