/-
# Dispatchers over SurrealDB

Any number of processes dispatch from one outbox in SurrealDB. They are interleaved at the
granularity of single queries, a query may fail after it was carried out, a tick may be abandoned
at any call, and rows are enqueued, renewed and revived in between. `lease_batch` is not atomic
here.

What a dispatcher may ask is the discipline `asking`. It is the discipline `reporting` of the calls
of a tick, brought down to the queries.
-/

import Soulbase.Tx.FleetDelivery
import Soulbase.Tx.Surreal.OutboxQueries

namespace Soulbase.Tx

open Soulbase.Foundation Soulbase.Storage

section Processes

variable {ι : Type}

/-- The table, and what each dispatcher has left of its present tick. -/
abbrev SurrealFleet (ι : Type) :=
  Pool ι OutboxQuery OutboxQuery.Answer (TxResult Unit) (OutboxTable ι)

/-- What may happen next. -/
inductive SurrealAction (ι : Type)
  /-- An idle dispatcher begins a tick. -/
  | tick (i : ι) (tenant : TenantId) (nowMs : Int64)
  /-- A dispatcher makes the next call of its tick. -/
  | call (i : ι) (outcome : QueryOutcome)
  /-- The process of a dispatcher ends in the middle of a tick. -/
  | abandon (i : ι)
  | enqueue (message : NewOutboxMessage) (createdAt notBefore : Int64)
  | heartbeat (worker : String) (tenant : TenantId) (id : Id) (leaseUntil : Int64)
  | revive (tenant : TenantId) (id : Id) (time : Int64)

namespace SurrealFleet

variable [DecidableEq ι]

/-- No rows, and idle dispatchers. -/
def start : SurrealFleet ι where
  shared := { rows := ∅, log := [] }
  threads _ := .done (.ok ())

/-- The step function. -/
def next (dispatcher : ι → Dispatcher) (fleet : SurrealFleet ι) :
    SurrealAction ι → Option (SurrealFleet ι)
  | .tick i tenant nowMs => Pool.spawn fleet i ((dispatcher i).tickWith tenant nowMs)
  | .call i outcome => Pool.call (OutboxTable.answer i) fleet i outcome
  | .abandon i => some { fleet with threads := Function.update fleet.threads i (.done (.ok ())) }
  | .enqueue message createdAt notBefore =>
      some { fleet with shared := fleet.shared.enqueue message createdAt notBefore }
  | .heartbeat worker tenant id leaseUntil =>
      some { fleet with
        shared := (fleet.shared.carryOut tenant (recordIdFor outboxTable tenant id.asStr)
          (.heartbeat leaseUntil worker)).2 }
  | .revive tenant id time =>
      some { fleet with
        shared := (fleet.shared.carryOut tenant (recordIdFor outboxTable tenant id.asStr)
          (.revive time)).2 }

/-- Dispatchers over one SurrealDB. -/
def system (dispatcher : ι → Dispatcher) :
    TransitionSystem (SurrealFleet ι) (SurrealAction ι) :=
  .ofNext start (next dispatcher)

end SurrealFleet

end Processes

/-- What a producer has fixed. -/
structure OutboxRequest where
  id : String
  tenant : String
  envelopeId : String
  topic : String
  payload : Json.Value
  createdAt : Int64
  dispatchKey : Option String

/-- The id of the record of a request. -/
def OutboxRequest.recordId (request : OutboxRequest) : String :=
  recordIdFor outboxTable ⟨request.tenant⟩ request.id

/-- What is requested by a row. -/
def OutboxFields.request (row : OutboxRow) : OutboxRequest where
  id := row.messageId
  tenant := row.tenant
  envelopeId := row.envelopeId
  topic := row.topic
  payload := row.payload
  createdAt := row.createdAt
  dispatchKey := row.dispatchKey

/-- What is requested by a message. -/
def OutboxMessage.request (message : OutboxMessage) : OutboxRequest where
  id := message.id.asStr
  tenant := message.tenant.asStr
  envelopeId := message.envelopeId.asStr
  topic := message.topic
  payload := message.payload
  createdAt := message.createdAt
  dispatchKey := message.dispatchKey

/-- What an update makes of the errand of a dispatcher. -/
def Errand.updated (errand : Errand) : OutboxUpdate → StorageResult (Option OutboxRow) → Errand
  | .lease .., .ok (some row) =>
      match SurrealOutboxStore.messageFromRow "outbox lease" row with
      | .ok message => { errand with batch := errand.batch ++ [message] }
      | .error _ => errand
  | .lease .., _ => errand
  | _, _ => { errand with sent := none }

/-- What a dispatcher may write into a row. -/
def Errand.MayUpdate (dispatcher : Dispatcher) (errand : Errand) (id : String) :
    OutboxUpdate → Prop
  | .lease _ _ worker => worker = dispatcher.workerId
  | .ack => ∃ message, errand.sent = some (message, true) ∧ message.recordId = id
  | .nack .. => ∃ message, errand.sent = some (message, false) ∧ message.recordId = id
  | .dead _ => ∃ message, errand.sent = some (message, false) ∧ message.recordId = id ∧
      dispatcher.maxAttempts ≤ message.attempts + 1
  | .heartbeat .. | .revive _ => False

/-- The discipline `reporting`, of the queries. -/
def asking (dispatcher : Dispatcher) : Discipline OutboxQuery OutboxQuery.Answer Errand where
  permits errand
    | .update _ id update => errand.MayUpdate dispatcher id update
    | .aside (.send message) => message ∈ errand.batch
    | .aside op => op.isBystander = true
    | .selectCandidates .. | .nowMs => True
  ensures
    | .update tenant _ (.lease ..), .ok (some row) => row.tenant = tenant.asStr
    | _, _ => True
  after errand
    | .selectCandidates .., _ => .idle
    | .update _ _ update, answer => errand.updated update answer
    | .aside (.send message), result => { errand with sent := some (message, result.isOk) }
    | _, _ => errand

/-- What a dispatcher knows of its errand, and what its queries make of it. A batch is leased one by
one, and may be left in the middle. -/
structure Errand.Related (errand asked : Errand) : Prop where
  sent : errand.sent = asked.sent
  batch : errand.batch ⊆ asked.batch

/-- What is read from a row. -/
theorem of_messageFromRow {context : String} {row : OutboxRow} {message : OutboxMessage}
    (h : SurrealOutboxStore.messageFromRow context row = .ok message) :
    message.request = row.request ∧ message.attempts.toNat = row.attempts := by
  obtain ⟨doc, hdecode, hdoc⟩ := except_do_eq_ok_iff.mp h
  unfold decodeOutboxRow at hdecode
  split at hdecode
  case isFalse => cases hdecode
  case isTrue hsize =>
    cases hdecode
    unfold outboxMessageFromDoc at hdoc
    split at hdoc
    case h_1 => cases hdoc
    case h_2 =>
      cases hdoc
      exact ⟨rfl, UInt32.toNat_ofNat_of_lt' hsize⟩

section Queries

variable {dispatcher : Dispatcher} {errand : Errand} {tenant : TenantId} {α β : Type}
variable {post : TxResult β → Errand → Prop}

theorem follows_ofResult_bind {result : TxResult α} {next : α → OutboxQuerying β}
    (herror : ∀ error, result = .error error → post (.error error) errand)
    (hnext : ∀ value, result = .ok value →
      (next value).run.Follows (asking dispatcher) post errand) :
    (SurrealOutboxStore.ofResult result >>= next).run.Follows (asking dispatcher) post errand := by
  cases result with
  | error error => exact herror error rfl
  | ok value => exact hnext value rfl

theorem follows_update_bind {id : String} {update : OutboxUpdate}
    {next : Option OutboxRow → OutboxQuerying β}
    (hpermits : errand.MayUpdate dispatcher id update)
    (herror : ∀ failure error, post (.error error) (errand.updated update (.error failure)))
    (hnext : ∀ found, (asking dispatcher).ensures (.update tenant id update) (.ok found) →
      (next found).run.Follows (asking dispatcher) post (errand.updated update (.ok found))) :
    (SurrealOutboxStore.ask (perform (OutboxQuery.update tenant id update)) >>= next).run.Follows
      (asking dispatcher) post errand := by
  refine ⟨hpermits, ?_⟩
  intro answer hanswer
  cases answer with
  | error error => exact herror error _
  | ok found => exact hnext found hanswer

end Queries

namespace Dispatcher

variable {dispatcher : Dispatcher} {errand asked : Errand} {tenant : TenantId}
variable {now leaseUntil : Int64} {groupByKey : Bool} {batch : ℕ}

/-- One row of a batch. -/
theorem asks_tryLease (doc : OutboxDoc) :
    (SurrealOutboxStore.tryLeaseWith tenant doc now leaseUntil
      dispatcher.workerId).run.Follows (asking dispatcher)
      (fun result after => after.sent = errand.sent ∧ errand.batch ⊆ after.batch ∧
        ∀ message, result = .ok (some message) → message ∈ after.batch ∧ message.tenant = tenant)
      errand := by
  refine follows_update_bind rfl (fun _ _ => ⟨rfl, List.Subset.refl _, nofun⟩) ?_
  intro found htenant
  cases found with
  | none => exact ⟨rfl, List.Subset.refl _, nofun⟩
  | some row =>
      apply follows_ofResult_bind
      · intro error herror
        simp only [Errand.updated, herror]
        exact ⟨trivial, List.Subset.refl _, nofun⟩
      · intro message hmessage
        simp only [Errand.updated, hmessage]
        refine ⟨rfl, List.subset_append_left _ _, ?_⟩
        rintro _ ⟨⟩
        have hrequest := congrArg OutboxRequest.tenant (of_messageFromRow hmessage).1
        exact ⟨List.mem_append_right _ List.mem_cons_self,
          congrArg TenantId.mk (hrequest.trans htenant)⟩

/-- The loop, by induction on the candidates that are left. -/
theorem asks_leaseLoop (docs : List OutboxDoc) (selected : List OutboxMessage)
    (seenKeys : List String) (hselected : selected ⊆ errand.batch)
    (htenant : ∀ message ∈ selected, message.tenant = tenant) :
    (SurrealOutboxStore.leaseLoopWith tenant now leaseUntil batch dispatcher.workerId groupByKey
      docs selected seenKeys).run.Follows (asking dispatcher)
      (fun result after => after.sent = errand.sent ∧ ∀ messages, result = .ok messages →
        messages ⊆ after.batch ∧ ∀ message ∈ messages, message.tenant = tenant) errand := by
  induction docs generalizing selected seenKeys errand with
  | nil =>
      refine ⟨rfl, ?_⟩
      rintro _ ⟨⟩
      exact ⟨hselected, htenant⟩
  | cons doc rest ih =>
      unfold SurrealOutboxStore.leaseLoopWith
      split
      case isTrue => exact ih selected seenKeys hselected htenant
      case isFalse =>
        refine follows_fallible_bind (asks_tryLease doc) ?_ ?_
        · rintro error after ⟨hsent, _, _⟩
          exact ⟨hsent, nofun⟩
        · rintro found after ⟨hsent, hbatch, hfound⟩
          have hgrown : selected ++ found.toList ⊆ after.batch := by
            refine List.append_subset.mpr ⟨List.Subset.trans hselected hbatch, ?_⟩
            intro message hmessage
            rw [Option.mem_toList] at hmessage
            exact (hfound message (congrArg Except.ok hmessage)).1
          have hgrownTenant : ∀ message ∈ selected ++ found.toList, message.tenant = tenant := by
            intro message hmessage
            rcases List.mem_append.mp hmessage with hold | hnew
            · exact htenant message hold
            · rw [Option.mem_toList] at hnew
              exact (hfound message (congrArg Except.ok hnew)).2
          dsimp only
          split
          case isTrue =>
            refine ⟨hsent, ?_⟩
            rintro _ ⟨⟩
            exact ⟨hgrown, hgrownTenant⟩
          case isFalse =>
            refine (ih (selected ++ found.toList) _ hgrown hgrownTenant).mono ?_
            rintro result last ⟨hlast, hmessages⟩
            exact ⟨hlast.trans hsent, hmessages⟩

theorem asks_leaseBatch {nowMs leaseMs : Int64} :
    (SurrealOutboxStore.leaseBatchWith tenant nowMs leaseMs batch dispatcher.workerId
      groupByKey).run.Follows (asking dispatcher)
      (fun result after => after.sent = none ∧ ∀ messages, result = .ok messages →
        messages ⊆ after.batch ∧ ∀ message ∈ messages, message.tenant = tenant) asked := by
  refine ⟨trivial, ?_⟩
  rintro (error | found) -
  · exact ⟨rfl, nofun⟩
  · apply follows_ofResult_bind
    · intro error _
      exact ⟨rfl, nofun⟩
    · intro docs _
      have hidle : [] ⊆ Errand.idle.batch := List.nil_subset _
      exact asks_leaseLoop docs [] [] hidle (by simp)

/-- Who may settle a message may write into its row. -/
theorem recordId_of_key {message : OutboxMessage} {id : Id}
    (h : message.key = messageKey tenant id) :
    message.recordId = recordIdFor outboxTable tenant id.asStr := by
  obtain ⟨htenant, hid⟩ := Prod.mk.injEq .. ▸ h
  rw [OutboxMessage.recordId, recordIdFor, recordIdFor, makeRecordId, makeRecordId, htenant, hid]

/-- The queries of a call are as the call is. -/
theorem asks_carriesOut (op : DispatchOp) (hrelated : errand.Related asked)
    (hpermits : (reporting dispatcher).permits errand op) :
    (SurrealOutboxStore.carriesOut op).Follows (asking dispatcher)
      (fun answer after => (reporting dispatcher).ensures op answer ∧
        ((reporting dispatcher).after errand op answer).Related after) asked := by
  cases op with
  | leaseBatch tenant nowMs leaseMs batch workerId groupByKey =>
      cases hpermits
      refine asks_leaseBatch.mono ?_
      rintro (error | messages) after ⟨hsent, hmessages⟩
      · exact ⟨trivial, hsent.symm, List.nil_subset _⟩
      · obtain ⟨hbatch, htenant⟩ := hmessages messages rfl
        exact ⟨htenant, hsent.symm, hbatch⟩
  | send message =>
      exact ⟨hrelated.batch hpermits, fun result _ => ⟨trivial, rfl, hrelated.batch⟩⟩
  | ackDone tenant id =>
      obtain ⟨message, hsent, hkey⟩ := hpermits
      rw [hrelated.sent] at hsent
      refine follows_update_bind ⟨message, hsent, recordId_of_key hkey⟩
        (fun _ _ => ⟨trivial, rfl, hrelated.batch⟩) ?_
      intro found _
      exact ⟨trivial, rfl, hrelated.batch⟩
  | nackBackoff tenant id notBefore error =>
      obtain ⟨message, hsent, hkey⟩ := hpermits
      rw [hrelated.sent] at hsent
      refine follows_update_bind ⟨message, hsent, recordId_of_key hkey⟩
        (fun _ _ => ⟨trivial, rfl, hrelated.batch⟩) ?_
      intro found _
      exact ⟨trivial, rfl, hrelated.batch⟩
  | deadLetter tenant id error =>
      obtain ⟨message, hsent, hkey, hlimit⟩ := hpermits
      rw [hrelated.sent] at hsent
      refine follows_update_bind ⟨message, hsent, recordId_of_key hkey, hlimit⟩
        (fun _ _ => ⟨trivial, rfl, hrelated.batch⟩) ?_
      intro found _
      cases found with
      | none => exact ⟨trivial, rfl, hrelated.batch⟩
      | some row =>
          apply follows_ofResult_bind
          · intro error _
            exact ⟨trivial, rfl, hrelated.batch⟩
          · intro message _
            exact ⟨trivial, fun _ _ => ⟨trivial, rfl, hrelated.batch⟩⟩
  | onDispatchAttempt | onDispatchResult | push | nextAfter =>
      exact ⟨rfl, fun _ _ => ⟨trivial, hrelated⟩⟩

/-- A tick asks as it should, whatever the dispatcher was about before. -/
theorem asks_tick (dispatcher : Dispatcher) (tenant : TenantId) (nowMs : Int64) :
    (dispatcher.tickWith tenant nowMs).Follows (asking dispatcher) (fun _ _ => True) .idle := by
  have hrelated : Errand.idle.Related .idle := ⟨rfl, List.Subset.refl _⟩
  refine ((reports_tick dispatcher tenant nowMs .idle).carryOut hrelated ?_).mono
    fun _ _ _ => trivial
  intro op errand asked hrelated hpermits
  exact asks_carriesOut op hrelated hpermits

end Dispatcher

end Soulbase.Tx
