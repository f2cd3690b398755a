/-
# Delivery over SurrealDB

Every call of a dispatcher over SurrealDB is one transition of a `Ledger`: a send is a try, and
what is then written into the row is the report on it. So a row is done only after its message was
taken by the transport, it is given up only after as many failed sends as the dispatcher that gives
it up allows, and no row is lost.

A row is leased only if nobody else has a lease of it that has not run out by the clock of who
asks: `Exclusive`.
-/

import Soulbase.Foundation.Ledger
import Soulbase.Tx.SurrealFleet

namespace Soulbase.Tx

open Soulbase.Foundation Soulbase.Storage

/-- Who has a lease by a row, and until when. -/
def OutboxFields.lease (row : OutboxRow) : Option (String × Int64) :=
  match row.worker, row.leaseUntil with
  | some worker, some leaseUntil => some (worker, leaseUntil)
  | _, _ => none

/-- How a row has ended. -/
def OutboxFields.ending (row : OutboxRow) : Option Bool :=
  if row.status = "Done" then some true else if row.status = "Dead" then some false else none

theorem OutboxFields.ending_eq_some_false_iff {row : OutboxRow} :
    row.ending = some false ↔ row.status = "Dead" := by
  unfold ending
  split
  case isTrue hdone => simp [hdone]
  case isFalse => split <;> simp_all

namespace RowEvent

variable {ι : Type}

/-- The sends of a record. -/
def tries (log : List (RowEvent ι)) : List (LedgerTry ι String) :=
  log.filterMap fun
    | .sent i id delivered => some ⟨i, id, delivered⟩
    | .leased .. | .renewed .. | .freed _ => none

/-- Who has a lease by the record, and until when. -/
def holder : List (RowEvent ι) → String → Option (String × Int64)
  | [], _ => none
  | .leased worker id' _ leaseUntil :: rest, id | .renewed worker id' leaseUntil :: rest, id =>
      if id = id' then some (worker, leaseUntil) else holder rest id
  | .freed id' :: rest, id => if id = id' then none else holder rest id
  | .sent .. :: rest, id => holder rest id

/-- Nobody was given a row that somebody else had a running lease of. -/
def Exclusive : List (RowEvent ι) → Prop
  | [] => True
  | .leased worker id now _ :: rest =>
      (∀ other leaseUntil, holder rest id = some (other, leaseUntil) →
        other = worker ∨ leaseUntil ≤ now) ∧ Exclusive rest
  | .renewed .. :: rest | .freed _ :: rest | .sent .. :: rest => Exclusive rest

end RowEvent

open RowEvent

/-- Whatever row there was is still there, with the same request. -/
def KeepsRows {ι : Type} (before after : OutboxTable ι) : Prop :=
  ∀ id row, before.rows.get id = some row →
    ∃ kept, after.rows.get id = some kept ∧ kept.request = row.request

/-- What processes deliver from SurrealDB, in every reachable state and along every run. -/
structure SurrealDelivers {ι : Type} [DecidableEq ι] (dispatcher : ι → Dispatcher) : Prop where
  /-- A row is done only after the transport has taken its message. -/
  done : ∀ fleet id row, (SurrealFleet.system dispatcher).Reachable fleet →
    fleet.shared.rows.get id = some row → row.status = "Done" →
      ∃ i, .sent i id true ∈ fleet.shared.log
  /-- Only a call of a dispatcher gives a row up, after as many failed sends as that dispatcher
  allows. -/
  givenUp : ∀ fleet action after id row, (SurrealFleet.system dispatcher).Reachable fleet →
    (SurrealFleet.system dispatcher).step fleet action after →
      after.shared.rows.get id = some row → row.status = "Dead" →
        (∃ old, fleet.shared.rows.get id = some old ∧ old.status = "Dead") ∨
          ∃ i outcome, action = .call i outcome ∧
            (dispatcher i).maxAttempts.toNat ≤ Ledger.failures (tries fleet.shared.log) id
  /-- What is given up was sent in vain, by a dispatcher whose limit is reached. -/
  dead : ∀ fleet id row, (SurrealFleet.system dispatcher).Reachable fleet →
    fleet.shared.rows.get id = some row → row.status = "Dead" →
      ∃ i, .sent i id false ∈ fleet.shared.log ∧
        (dispatcher i).maxAttempts.toNat ≤ Ledger.failures (tries fleet.shared.log) id
  attempts : ∀ fleet id row, (SurrealFleet.system dispatcher).Reachable fleet →
    fleet.shared.rows.get id = some row →
      row.attempts ≤ Ledger.failures (tries fleet.shared.log) id
  /-- What is about to be sent is the request of a row that the dispatcher was given. -/
  sending : ∀ fleet i message resume, (SurrealFleet.system dispatcher).Reachable fleet →
    fleet.threads i = .call (.aside (.send message)) resume →
      (∃ row, fleet.shared.rows.get message.recordId = some row ∧
        row.request = message.request) ∧
      ∃ now leaseUntil,
        .leased (dispatcher i).workerId message.recordId now leaseUntil ∈ fleet.shared.log
  exclusive : ∀ fleet, (SurrealFleet.system dispatcher).Reachable fleet → Exclusive fleet.shared.log
  keepsRows : ∀ fleet actions after, (SurrealFleet.system dispatcher).Reachable fleet →
    (SurrealFleet.system dispatcher).Run fleet actions after →
      KeepsRows fleet.shared after.shared

section Ledgers

variable {ι : Type}

/-- A row as an entry. -/
def OutboxFields.entry (row : OutboxRow) : LedgerEntry where
  attempts := row.attempts
  ending := row.ending

/-- What a dispatcher has to report, as far as it knows. -/
def Errand.unreported (errand : Errand) : Option (String × Bool) :=
  errand.sent.map fun sent => (sent.1.recordId, sent.2)

/-- The rows and the sends as a ledger. -/
def OutboxTable.ledger (table : OutboxTable ι) (errands : ι → Errand) : Ledger ι String where
  entries id := (table.rows.get id).map (·.entry)
  tries := tries table.log
  unreported i := (errands i).unreported

/-- A message of a batch comes from a row that its dispatcher was given. -/
structure FromRow (worker : String) (table : OutboxTable ι) (message : OutboxMessage) : Prop where
  row : ∃ row, table.rows.get message.recordId = some row ∧ row.request = message.request
  granted : ∃ now leaseUntil, .leased worker message.recordId now leaseUntil ∈ table.log
  attempts : message.attempts.toNat ≤ Ledger.failures (tries table.log) message.recordId

/-- What is known of the processes at any time. -/
structure RowsReported [DecidableEq ι] (dispatcher : ι → Dispatcher) (errands : ι → Errand)
    (table : OutboxTable ι) : Prop where
  keyed : ∀ id row, table.rows.get id = some row → row.request.recordId = id
  batch : ∀ i message, message ∈ (errands i).batch →
    FromRow (dispatcher i).workerId table message
  sent : ∀ i message, (errands i).sent = some (message, false) →
    message.attempts.toNat < Ledger.failures (tries table.log) message.recordId
  sound : (table.ledger errands).Sound fun i => (dispatcher i).maxAttempts.toNat

/-- Nothing is lost of the rows and the record. -/
structure Extends (table after : OutboxTable ι) : Prop where
  rows : KeepsRows table after
  log : table.log <:+ after.log

variable {table after : OutboxTable ι} {errands : ι → Errand} {id : String}

theorem KeepsRows.refl (table : OutboxTable ι) : KeepsRows table table :=
  fun _ row hrow => ⟨row, hrow, rfl⟩

theorem KeepsRows.trans {first second third : OutboxTable ι} (h : KeepsRows first second)
    (h' : KeepsRows second third) : KeepsRows first third := by
  intro id row hrow
  obtain ⟨middle, hmiddle, hsame⟩ := h id row hrow
  obtain ⟨kept, hkept, hsame'⟩ := h' id middle hmiddle
  exact ⟨kept, hkept, hsame'.trans hsame⟩

theorem Extends.refl (table : OutboxTable ι) : Extends table table where
  rows := .refl table
  log := List.suffix_refl _

theorem Extends.failures_le (h : Extends table after) (id : String) :
    Ledger.failures (tries table.log) id ≤ Ledger.failures (tries after.log) id :=
  (h.log.sublist.filterMap _).countP_le

theorem FromRow.mono {worker : String} {message : OutboxMessage}
    (h : FromRow worker table message) (hextends : Extends table after) :
    FromRow worker after message where
  row := by
    obtain ⟨row, hrow, hrequest⟩ := h.row
    obtain ⟨kept, hkept, hsame⟩ := hextends.rows _ _ hrow
    exact ⟨kept, hkept, hsame.trans hrequest⟩
  granted := by
    obtain ⟨now, leaseUntil, hmem⟩ := h.granted
    exact ⟨now, leaseUntil, hextends.log.subset hmem⟩
  attempts := h.attempts.trans (hextends.failures_le _)

theorem request_rewrite (update : OutboxUpdate) (row : OutboxRow) :
    (update.rewrite row).request = row.request := by
  cases update <;> rfl

/-- A row is rewritten. -/
theorem extends_put {row new : OutboxRow} {event : RowEvent ι} (hget : table.rows.get id = some row)
    (hrequest : new.request = row.request) :
    Extends table { rows := table.rows.put id new, log := event :: table.log } where
  rows := by
    intro other old hold
    dsimp only
    rw [HashMap.get_put]
    by_cases hother : other = id
    · subst hother
      cases hget.symm.trans hold
      exact ⟨new, if_pos rfl, hrequest⟩
    · exact ⟨old, (if_neg hother).trans hold, rfl⟩
  log := List.suffix_cons _ _

theorem extends_of_effect {i : ι} {query : OutboxQuery} {answer : query.Answer}
    (h : OutboxTable.Effect i table query answer after) : Extends table after := by
  cases h with
  | selected | unchanged _ | read | bystander _ => exact .refl table
  | updated hget _ _ => exact extends_put hget (request_rewrite _ _)
  | sent => exact ⟨.refl table, List.suffix_cons _ _⟩

theorem extends_carryOut (table : OutboxTable ι) (tenant : TenantId) (id : String)
    (update : OutboxUpdate) : Extends table (table.carryOut tenant id update).2 := by
  rcases OutboxTable.carryOut_cases table tenant id update with heq | ⟨row, hget, _, heq⟩
  · rw [heq]
    exact .refl table
  · rw [heq]
    exact extends_put hget (request_rewrite _ _)

/-- What enqueueing does: nothing, or there is one more row. -/
theorem enqueue_cases (table : OutboxTable ι) (message : NewOutboxMessage)
    (createdAt notBefore : Int64) :
    table.enqueue message createdAt notBefore = table ∨
      ∃ row : OutboxRow, table.rows.get row.request.recordId = none ∧ row.attempts = 0 ∧
        row.ending = none ∧ row.worker = none ∧
        table.enqueue message createdAt notBefore =
          { table with rows := table.rows.put row.request.recordId row } := by
  unfold OutboxTable.enqueue
  cases hget : table.rows.get (recordIdFor outboxTable message.tenant message.id.asStr) with
  | some row =>
      rw [SurrealOutboxStore.enqueue_of_get createdAt notBefore hget]
      exact .inl rfl
  | none =>
      rw [SurrealOutboxStore.enqueue_of_get_eq_none createdAt notBefore hget]
      exact .inr ⟨(outboxDocFromMessage (buildOutboxMessage message createdAt notBefore)).toRow,
        hget, rfl, rfl, rfl, rfl⟩

theorem extends_enqueue (table : OutboxTable ι) (message : NewOutboxMessage)
    (createdAt notBefore : Int64) :
    Extends table (table.enqueue message createdAt notBefore) := by
  rcases enqueue_cases table message createdAt notBefore with heq | ⟨row, hfree, _, _, _, heq⟩
  · rw [heq]
    exact .refl table
  · rw [heq]
    refine ⟨?_, List.suffix_refl _⟩
    intro other old hold
    refine ⟨old, ?_, rfl⟩
    dsimp only
    rw [HashMap.get_put, if_neg, hold]
    rintro rfl
    cases hfree.symm.trans hold

theorem entries_put (row : OutboxRow) (log : List (RowEvent ι)) :
    (OutboxTable.ledger { rows := table.rows.put id row, log := log } errands).entries =
      Function.update (table.ledger errands).entries id (some row.entry) := by
  funext other
  simp only [OutboxTable.ledger, HashMap.get_put, Function.update_apply]
  split <;> rfl

variable [DecidableEq ι] {dispatcher : ι → Dispatcher} {i : ι}

theorem unreported_update (errand : Errand) :
    (table.ledger (Function.update errands i errand)).unreported =
      Function.update (table.ledger errands).unreported i errand.unreported := by
  funext j
  by_cases hj : j = i
  · subst hj
    simp [OutboxTable.ledger]
  · simp [OutboxTable.ledger, hj]

/-- What one step keeps: the ledger makes a step of its own, and what is new in the errands is as
it should be. -/
theorem RowsReported.next {errands' : ι → Errand} (h : RowsReported dispatcher errands table)
    (hextends : Extends table after)
    (hkeyed : ∀ id row, after.rows.get id = some row → row.request.recordId = id)
    (hstep : Ledger.Step (fun i => (dispatcher i).maxAttempts.toNat) (table.ledger errands)
      (after.ledger errands'))
    (hbatch : ∀ i message, message ∈ (errands' i).batch →
      message ∈ (errands i).batch ∨ FromRow (dispatcher i).workerId after message)
    (hsent : ∀ i message, (errands' i).sent = some (message, false) →
      (errands i).sent = some (message, false) ∨
        message.attempts.toNat < Ledger.failures (tries after.log) message.recordId) :
    RowsReported dispatcher errands' after where
  keyed := hkeyed
  batch i message hmem := by
    rcases hbatch i message hmem with hold | hnew
    · exact (h.batch i message hold).mono hextends
    · exact hnew
  sent i message hmem := by
    rcases hsent i message hmem with hold | hnew
    · exact (h.sent i message hold).trans_le (hextends.failures_le _)
    · exact hnew
  sound := h.sound.step hstep

omit [DecidableEq ι] in
/-- A row is put where nothing new ends and nothing more is counted. -/
theorem amends_put {errands' : ι → Errand} {new : OutboxRow} {log : List (RowEvent ι)}
    (hcount : new.attempts ≤ (table.ledger errands).attempts id)
    (hending : new.ending ≠ none →
      ∃ old, table.rows.get id = some old ∧ old.ending = new.ending) :
    (∀ key,
      (OutboxTable.ledger { rows := table.rows.put id new, log := log } errands').attempts key ≤
        (table.ledger errands).attempts key) ∧
    ∀ key entry, (OutboxTable.ledger { rows := table.rows.put id new, log := log }
      errands').entries key = some entry → entry.ending ≠ none →
        ∃ old, (table.ledger errands).entries key = some old ∧ old.ending = entry.ending := by
  have hsame : ∀ {key}, key ≠ id →
      (OutboxTable.ledger { rows := table.rows.put id new, log := log } errands').entries key =
        (table.ledger errands).entries key := by
    intro key hkey
    rw [entries_put, Function.update_of_ne hkey]
    rfl
  constructor
  · intro key
    by_cases hkey : key = id
    · subst hkey
      rw [Ledger.attempts, entries_put, Function.update_self]
      exact hcount
    · rw [Ledger.attempts, hsame hkey]
      exact Nat.le_refl _
  · intro key entry hentry hended
    by_cases hkey : key = id
    · subst hkey
      rw [entries_put, Function.update_self] at hentry
      cases hentry
      obtain ⟨old, hold, hsame⟩ := hending hended
      exact ⟨old.entry, congrArg (Option.map OutboxFields.entry) hold, hsame⟩
    · rw [hsame hkey] at hentry
      exact ⟨entry, hentry, rfl⟩

omit [DecidableEq ι] in
theorem attempts_of_get {row : OutboxRow} (hget : table.rows.get id = some row) :
    (table.ledger errands).attempts id = row.attempts := by
  simp [Ledger.attempts, OutboxTable.ledger, hget, OutboxFields.entry]

omit [DecidableEq ι] in
theorem keyed_put {row : OutboxRow} {log : List (RowEvent ι)}
    (h : ∀ id row, table.rows.get id = some row → row.request.recordId = id)
    (hrow : row.request.recordId = id) (other : String) (found : OutboxRow)
    (hfound : ({ rows := table.rows.put id row, log := log } : OutboxTable ι).rows.get other =
      some found) : found.request.recordId = other := by
  dsimp only at hfound
  rw [HashMap.get_put] at hfound
  split at hfound
  case isTrue heq =>
    cases hfound
    rw [hrow, heq]
  case isFalse => exact h other found hfound

theorem step_forgotten {errand : Errand} (hsent : errand.sent = none) :
    Ledger.Step (fun i => (dispatcher i).maxAttempts.toNat) (table.ledger errands)
      (table.ledger (Function.update errands i errand)) := by
  refine .forgotten i rfl rfl ?_
  rw [unreported_update, Errand.unreported, hsent]
  rfl

/-- Who may give a row up has seen enough failed sends of it. -/
theorem limit_of_mayGiveUp (h : RowsReported dispatcher errands table) {error : Option String}
    (hpermits : (errands i).MayUpdate (dispatcher i) id (.dead error)) :
    (dispatcher i).maxAttempts.toNat ≤ Ledger.failures (tries table.log) id := by
  obtain ⟨message, hmessage, hid, hlimit⟩ := hpermits
  have hfailed := h.sent i message hmessage
  have hlimit' := UInt32.le_iff_toNat_le.mp hlimit
  have hsucc : (message.attempts + 1).toNat ≤ message.attempts.toNat + 1 := by
    rw [UInt32.toNat_add]
    exact Nat.mod_le _ _
  rw [hid] at hfailed
  omega

/-- An update of a row that is not a lease is the report on the last send. -/
theorem step_reported (h : RowsReported dispatcher errands table) {update : OutboxUpdate}
    {row : OutboxRow} {errand : Errand} (hget : table.rows.get id = some row)
    (hpermits : (errands i).MayUpdate (dispatcher i) id update)
    (hlease : ∀ now leaseUntil worker, update ≠ .lease now leaseUntil worker)
    (hsent : errand.sent = none) :
    Ledger.Step (fun i => (dispatcher i).maxAttempts.toNat) (table.ledger errands)
      (OutboxTable.ledger { rows := table.rows.put id (update.rewrite row)
                            log := OutboxTable.eventOf id update :: table.log }
        (Function.update errands i errand)) := by
  have hold : (table.ledger errands).entries id = some row.entry :=
    congrArg (Option.map OutboxFields.entry) hget
  have hunreported : (Function.update (table.ledger errands).unreported i errand.unreported) =
      Function.update (table.ledger errands).unreported i none := by
    rw [Errand.unreported, hsent]
    rfl
  have howed : ∀ {message : OutboxMessage} {ok : Bool}, (errands i).sent = some (message, ok) →
      message.recordId = id → (table.ledger errands).unreported i = some (id, ok) := by
    intro message ok hsent hid
    simp [OutboxTable.ledger, Errand.unreported, hsent, hid]
  cases update with
  | lease now leaseUntil worker => exact absurd rfl (hlease now leaseUntil worker)
  | heartbeat | revive => exact hpermits.elim
  | ack =>
      obtain ⟨message, hmessage, hid⟩ := hpermits
      refine .reported i id true row.entry row.acked.entry (howed hmessage hid) hold
        (Nat.le_refl _) ?_ (entries_put _ _) rfl ((unreported_update _).trans hunreported)
      rintro _ ⟨⟩
      exact ⟨rfl, nofun⟩
  | nack notBefore error =>
      obtain ⟨message, hmessage, hid⟩ := hpermits
      refine .reported i id false row.entry (row.nacked notBefore error).entry
        (howed hmessage hid) hold (Nat.le_refl _) ?_ (entries_put _ _) rfl
        ((unreported_update _).trans hunreported)
      rintro _ ⟨⟩
  | dead error =>
      have hlimit := limit_of_mayGiveUp h hpermits
      obtain ⟨message, hmessage, hid, _⟩ := hpermits
      refine .reported i id false row.entry (row.deadened error).entry (howed hmessage hid) hold
        (Nat.le_refl _) ?_ (entries_put _ _) rfl ((unreported_update _).trans hunreported)
      rintro _ ⟨⟩
      exact ⟨rfl, fun _ => hlimit⟩

/-- What is new in the errand of one dispatcher. -/
theorem RowsReported.move {errand : Errand} (h : RowsReported dispatcher errands table)
    (hextends : Extends table after)
    (hkeyed : ∀ id row, after.rows.get id = some row → row.request.recordId = id)
    (hstep : Ledger.Step (fun i => (dispatcher i).maxAttempts.toNat) (table.ledger errands)
      (after.ledger (Function.update errands i errand)))
    (hbatch : ∀ message, message ∈ errand.batch →
      message ∈ (errands i).batch ∨ FromRow (dispatcher i).workerId after message)
    (hsent : ∀ message, errand.sent = some (message, false) →
      (errands i).sent = some (message, false) ∨
        message.attempts.toNat < Ledger.failures (tries after.log) message.recordId) :
    RowsReported dispatcher (Function.update errands i errand) after := by
  refine h.next hextends hkeyed hstep ?_ ?_
  · intro j message hmem
    by_cases hj : j = i
    · subst hj
      rw [Function.update_self] at hmem
      exact hbatch message hmem
    · rw [Function.update_of_ne hj] at hmem
      exact .inl hmem
  · intro j message hmem
    by_cases hj : j = i
    · subst hj
      rw [Function.update_self] at hmem
      exact hsent message hmem
    · rw [Function.update_of_ne hj] at hmem
      exact .inl hmem

omit [DecidableEq ι] in
/-- Who was given a row has one more message at most. -/
theorem updated_lease (errand : Errand) (now leaseUntil : Int64) (worker : String)
    {row : OutboxRow} {answer : StorageResult (Option OutboxRow)}
    (hanswer : ∀ found, answer = .ok found → found = some row) :
    (errand.updated (.lease now leaseUntil worker) answer).sent = errand.sent ∧
      ∀ message ∈ (errand.updated (.lease now leaseUntil worker) answer).batch,
        message ∈ errand.batch ∨
          SurrealOutboxStore.messageFromRow "outbox lease" row = .ok message := by
  rcases answer with error | (_ | found)
  · exact ⟨rfl, fun _ hmem => .inl hmem⟩
  · exact ⟨rfl, fun _ hmem => .inl hmem⟩
  · cases hanswer _ rfl
    simp only [Errand.updated]
    cases hread : SurrealOutboxStore.messageFromRow "outbox lease" row with
    | error error => exact ⟨rfl, fun _ hmem => .inl hmem⟩
    | ok message =>
        refine ⟨rfl, fun other hother => ?_⟩
        rcases List.mem_append.mp hother with hold | hnew
        · exact .inl hold
        · rw [List.mem_singleton.mp hnew]
          exact .inr rfl

/-- A dispatcher is given a row, and may hear of it. -/
theorem RowsReported.lease (h : RowsReported dispatcher errands table) {now leaseUntil : Int64}
    {row : OutboxRow} {answer : StorageResult (Option OutboxRow)}
    (hget : table.rows.get id = some row)
    (hanswer : ∀ found, answer = .ok found →
      found = some (row.leased (dispatcher i).workerId leaseUntil)) :
    RowsReported dispatcher
      (Function.update errands i
        ((errands i).updated (.lease now leaseUntil (dispatcher i).workerId) answer))
      { rows := table.rows.put id (row.leased (dispatcher i).workerId leaseUntil)
        log := .leased (dispatcher i).workerId id now leaseUntil :: table.log } := by
  have hid := h.keyed id row hget
  have hextends : Extends table
      { rows := table.rows.put id (row.leased (dispatcher i).workerId leaseUntil)
        log := .leased (dispatcher i).workerId id now leaseUntil :: table.log } :=
    extends_put hget rfl
  obtain ⟨hsent, hbatch⟩ := updated_lease (errands i) now leaseUntil (dispatcher i).workerId hanswer
  refine h.move hextends (keyed_put h.keyed hid) ?_ ?_ ?_
  · have hnone : (row.leased (dispatcher i).workerId leaseUntil).ending = none := rfl
    have hcount : (row.leased (dispatcher i).workerId leaseUntil).attempts ≤
        (table.ledger errands).attempts id := (attempts_of_get hget).ge
    obtain ⟨hattempts, hended⟩ := amends_put hcount fun hended => absurd hnone hended
    refine .amended rfl ?_ hattempts hended
    rw [unreported_update, Errand.unreported, hsent]
    exact Function.update_eq_self _ _
  · intro message hmem
    refine (hbatch message hmem).imp_right fun hmessage => ?_
    obtain ⟨hrequest, hcount⟩ := of_messageFromRow hmessage
    have hrecord : message.recordId = id := (congrArg OutboxRequest.recordId hrequest).trans hid
    refine ⟨?_, ?_, ?_⟩
    · rw [hrecord]
      exact ⟨_, HashMap.get_put_self _ _ _, hrequest.symm⟩
    · rw [hrecord]
      exact ⟨now, leaseUntil, List.mem_cons_self⟩
    · have hbound := h.sound.attempts_le id
      rw [attempts_of_get hget] at hbound
      rw [hcount, hrecord]
      exact hbound
  · intro message hmessage
    exact .inl (hsent.symm.trans hmessage)

/-- One call of a dispatcher. -/
theorem RowsReported.call (h : RowsReported dispatcher errands table) {query : OutboxQuery}
    {answer : query.Answer} (hpermits : (asking (dispatcher i)).permits (errands i) query)
    (heffect : OutboxTable.Effect i table query answer after) :
    RowsReported dispatcher (Function.update errands i
      ((asking (dispatcher i)).after (errands i) query answer)) after := by
  have hextends := extends_of_effect heffect
  have hsame : RowsReported dispatcher (Function.update errands i (errands i)) table := by
    rw [Function.update_eq_self]
    exact h
  cases heffect with
  | selected =>
      refine h.move hextends h.keyed (step_forgotten rfl) ?_ ?_
      · intro message hmem
        cases hmem
      · intro message hmem
        cases hmem
  | @unchanged tenant id update answer hnone =>
      have hforgotten : RowsReported dispatcher
          (Function.update errands i { errands i with sent := none }) table := by
        refine h.move hextends h.keyed (step_forgotten rfl) (fun _ hmem => .inl hmem) ?_
        intro message hmem
        cases hmem
      cases update with
      | lease now leaseUntil worker =>
          rcases answer with error | (_ | row)
          · exact hsame
          · exact hsame
          · exact absurd rfl (hnone row)
      | ack | nack | dead | heartbeat | revive => exact hforgotten
  | @updated tenant id update row answer hget happlies hanswer =>
      have hid := h.keyed id row hget
      have hsettled : (∀ now leaseUntil worker, update ≠ .lease now leaseUntil worker) →
          RowsReported dispatcher (Function.update errands i { errands i with sent := none })
            { rows := table.rows.put id (update.rewrite row)
              log := OutboxTable.eventOf id update :: table.log } := by
        intro hlease
        have hrequest := congrArg OutboxRequest.recordId (request_rewrite update row)
        refine h.move hextends (keyed_put h.keyed (hrequest.trans hid))
          (step_reported h hget hpermits hlease rfl) (fun _ hmem => .inl hmem) ?_
        intro message hmem
        cases hmem
      cases update with
      | lease now leaseUntil worker =>
          cases hpermits
          exact h.lease hget hanswer
      | ack | nack | dead | heartbeat | revive => exact hsettled nofun
  | read => exact hsame
  | @sent message result =>
      refine h.move hextends h.keyed ?_ (fun _ hmem => .inl hmem) ?_
      · refine .tried i message.recordId result.isOk rfl rfl ?_
        rw [unreported_update]
        rfl
      · intro other hother
        obtain ⟨rfl, hfailed⟩ := Prod.mk.inj (Option.some.inj hother)
        have hcount := (h.batch i message hpermits).attempts
        have htries : tries (.sent i message.recordId result.isOk :: table.log) =
            ⟨i, message.recordId, result.isOk⟩ :: tries table.log := rfl
        rw [htries, hfailed, Ledger.failures_failed, if_pos rfl]
        exact .inr (Nat.lt_succ_of_le hcount)
  | @bystander op answer hop =>
      have hafter : (asking (dispatcher i)).after (errands i) (.aside op) answer = errands i := by
        cases op <;> first | rfl | cases hop
      rw [hafter]
      exact hsame

/-- A row that one call gives up has reached the limit of the dispatcher. -/
theorem rowGivenUp_of_effect (h : RowsReported dispatcher errands table) {query : OutboxQuery}
    {answer : query.Answer} (hpermits : (asking (dispatcher i)).permits (errands i) query)
    (heffect : OutboxTable.Effect i table query answer after) {row : OutboxRow}
    (hrow : after.rows.get id = some row) (hdead : row.status = "Dead") :
    (∃ old, table.rows.get id = some old ∧ old.status = "Dead") ∨
      (dispatcher i).maxAttempts.toNat ≤ Ledger.failures (tries table.log) id := by
  cases heffect with
  | selected | unchanged _ | read | sent | bystander _ => exact .inl ⟨row, hrow, hdead⟩
  | @updated tenant other update old answer hget happlies hanswer =>
      dsimp only at hrow
      rw [HashMap.get_put] at hrow
      split at hrow
      case isFalse => exact .inl ⟨row, hrow, hdead⟩
      case isTrue hid =>
        cases hrow
        cases update with
        | dead error =>
            have hmay : (errands i).MayUpdate (dispatcher i) other (.dead error) := hpermits
            exact .inr (hid ▸ limit_of_mayGiveUp h hmay)
        | lease | ack | nack | revive => exact absurd hdead (by simp [OutboxUpdate.rewrite,
            OutboxFields.leased, OutboxFields.acked, OutboxFields.nacked, OutboxFields.revived])
        | heartbeat leaseUntil worker => exact hpermits.elim

/-! ## What others do -/

omit [DecidableEq ι] in
/-- Neither heartbeats nor revivals give a row up. -/
theorem rowGivenUp_of_carryOut (tenant : TenantId) (other : String) {update : OutboxUpdate}
    (hending : ∀ row : OutboxRow, (update.rewrite row).ending ≠ none →
      row.ending = (update.rewrite row).ending) {row : OutboxRow}
    (hrow : (table.carryOut tenant other update).2.rows.get id = some row)
    (hdead : row.status = "Dead") :
    ∃ old, table.rows.get id = some old ∧ old.status = "Dead" := by
  rcases OutboxTable.carryOut_cases table tenant other update with heq | ⟨old, hget, _, heq⟩
  · rw [heq] at hrow
    exact ⟨row, hrow, hdead⟩
  · rw [heq] at hrow
    dsimp only at hrow
    rw [HashMap.get_put] at hrow
    split at hrow
    case isFalse => exact ⟨row, hrow, hdead⟩
    case isTrue hid =>
      cases hrow
      have hended : (update.rewrite old).ending = some false := by
        simp [OutboxFields.ending, hdead]
      have hold := (hending old (by simp [hended])).trans hended
      exact ⟨old, hid ▸ hget, OutboxFields.ending_eq_some_false_iff.mp hold⟩

omit [DecidableEq ι] in
/-- A new row is not given up. -/
theorem rowGivenUp_of_enqueue (message : NewOutboxMessage) (createdAt notBefore : Int64)
    {row : OutboxRow} (hrow : (table.enqueue message createdAt notBefore).rows.get id = some row)
    (hdead : row.status = "Dead") :
    ∃ old, table.rows.get id = some old ∧ old.status = "Dead" := by
  rcases enqueue_cases table message createdAt notBefore with
    heq | ⟨new, _, _, hending, _, heq⟩
  · rw [heq] at hrow
    exact ⟨row, hrow, hdead⟩
  · rw [heq] at hrow
    dsimp only at hrow
    rw [HashMap.get_put] at hrow
    split at hrow
    case isFalse => exact ⟨row, hrow, hdead⟩
    case isTrue =>
      cases hrow
      exact absurd hending (by simp [OutboxFields.ending, hdead])

/-- A row is put in by somebody who has nothing to report. -/
theorem RowsReported.put (h : RowsReported dispatcher errands table) {new : OutboxRow}
    {log : List (RowEvent ι)}
    (hextends : Extends table { rows := table.rows.put id new, log := log })
    (htries : tries log = tries table.log) (hid : new.request.recordId = id)
    (hcount : new.attempts ≤ (table.ledger errands).attempts id)
    (hending : new.ending ≠ none →
      ∃ old, table.rows.get id = some old ∧ old.ending = new.ending) :
    RowsReported dispatcher errands { rows := table.rows.put id new, log := log } := by
  obtain ⟨hattempts, hended⟩ := amends_put hcount hending
  exact h.next hextends (keyed_put h.keyed hid) (.amended htries rfl hattempts hended)
    (fun _ _ hmem => .inl hmem) fun _ _ hmem => .inl hmem

/-- An update that neither counts nor ends anything. -/
theorem RowsReported.carryOut (h : RowsReported dispatcher errands table) (tenant : TenantId)
    (id : String) {update : OutboxUpdate}
    (hcount : ∀ row : OutboxRow, (update.rewrite row).attempts ≤ row.attempts)
    (hending : ∀ row : OutboxRow, (update.rewrite row).ending ≠ none →
      row.ending = (update.rewrite row).ending) :
    RowsReported dispatcher errands (table.carryOut tenant id update).2 := by
  rcases OutboxTable.carryOut_cases table tenant id update with heq | ⟨row, hget, _, heq⟩
  · rw [heq]
    exact h
  · rw [heq]
    have hrequest := request_rewrite update row
    refine h.put (extends_put hget hrequest) ?_
      ((congrArg OutboxRequest.recordId hrequest).trans (h.keyed id row hget)) ?_ ?_
    · cases update <;> rfl
    · rw [attempts_of_get hget]
      exact hcount row
    · intro hended
      exact ⟨row, hget, hending row hended⟩

theorem RowsReported.enqueue (h : RowsReported dispatcher errands table)
    (message : NewOutboxMessage) (createdAt notBefore : Int64) :
    RowsReported dispatcher errands (table.enqueue message createdAt notBefore) := by
  have hextends := extends_enqueue table message createdAt notBefore
  rcases enqueue_cases table message createdAt notBefore with
    heq | ⟨row, hfree, hattempts, hending, _, heq⟩
  · rw [heq]
    exact h
  · rw [heq] at hextends ⊢
    refine h.put hextends rfl rfl ?_ fun hended => absurd hending hended
    rw [hattempts]
    exact Nat.zero_le _

end Ledgers

section Leases

variable {ι : Type} {table after : OutboxTable ι} {id : String}

/-- The rows have the leases that the record says, and none was given away. -/
structure Leased (table : OutboxTable ι) : Prop where
  held : ∀ id row, table.rows.get id = some row → holder table.log id = row.lease
  vacant : ∀ id, table.rows.get id = none → holder table.log id = none
  pending : ∀ id row, table.rows.get id = some row → row.status = "Pending" → row.worker = none
  exclusive : Exclusive table.log

/-- A row may be leased by a worker: whoever has a lease of it is the worker itself, or the lease
has run out. -/
theorem free_of_isCandidate {tenant : TenantId} {now : Int64} {worker other : String}
    {leaseUntil : Int64} {row : OutboxRow} (happlies : row.isCandidate tenant now worker = true)
    (hpending : row.status = "Pending" → row.worker = none)
    (hlease : row.lease = some (other, leaseUntil)) : other = worker ∨ leaseUntil ≤ now := by
  unfold OutboxFields.lease at hlease
  split at hlease
  case h_2 => cases hlease
  case h_1 holder until_ hworker huntil =>
    cases hlease
    simp only [OutboxFields.isCandidate, Bool.and_eq_true, Bool.or_eq_true,
      decide_eq_true_eq] at happlies
    rcases happlies.2 with (hstatus | hexpired) | hown
    · rw [hpending hstatus] at hworker
      cases hworker
    · exact .inr (OutboxFields.leaseExpired_eq_true_iff.mp hexpired _ huntil)
    · exact .inl (Option.some.inj (hworker.symm.trans hown))

/-- An update of a row, by whomever. -/
theorem Leased.updated (h : Leased table) {tenant : TenantId} {update : OutboxUpdate}
    {row : OutboxRow} (hget : table.rows.get id = some row)
    (happlies : update.applies tenant row = true) :
    Leased { rows := table.rows.put id (update.rewrite row)
             log := OutboxTable.eventOf id update :: table.log } := by
  have hholder : ∀ other, holder (OutboxTable.eventOf id update :: table.log) other =
      if other = id then (update.rewrite row).lease else holder table.log other := by
    intro other
    cases update with
    | heartbeat leaseUntil worker =>
        have hworker : row.worker = some worker := by
          simp only [OutboxUpdate.applies, Bool.and_eq_true, decide_eq_true_eq] at happlies
          exact happlies.2
        have hlease : (row.renewed leaseUntil).lease = some (worker, leaseUntil) := by
          simp only [OutboxFields.lease, OutboxFields.renewed, hworker]
        rw [OutboxUpdate.rewrite, hlease]
        rfl
    | lease | ack | nack | dead | revive => rfl
  constructor
  case held =>
    intro other found hfound
    dsimp only at hfound ⊢
    rw [HashMap.get_put] at hfound
    rw [hholder]
    split at hfound
    case isTrue hother =>
      cases hfound
      rw [if_pos hother]
    case isFalse hother =>
      rw [if_neg hother]
      exact h.held other found hfound
  case vacant =>
    intro other hnone
    dsimp only at hnone ⊢
    rw [HashMap.get_put] at hnone
    rw [hholder]
    split at hnone
    case isTrue => cases hnone
    case isFalse hother =>
      rw [if_neg hother]
      exact h.vacant other hnone
  case pending =>
    intro other found hfound hstatus
    dsimp only at hfound
    rw [HashMap.get_put] at hfound
    split at hfound
    case isFalse => exact h.pending other found hfound hstatus
    case isTrue =>
      cases hfound
      cases update with
      | lease | ack | dead => exact absurd hstatus (by simp [OutboxUpdate.rewrite,
          OutboxFields.leased, OutboxFields.acked, OutboxFields.deadened])
      | nack | revive => rfl
      | heartbeat leaseUntil worker => exact h.pending id row hget hstatus
  case exclusive =>
    cases update with
    | lease now leaseUntil worker =>
        refine ⟨?_, h.exclusive⟩
        intro other until_ hheld
        rw [h.held id row hget] at hheld
        exact free_of_isCandidate happlies (h.pending id row hget) hheld
    | ack | nack | dead | heartbeat | revive => exact h.exclusive

theorem Leased.carryOut (h : Leased table) (tenant : TenantId) (id : String)
    (update : OutboxUpdate) : Leased (table.carryOut tenant id update).2 := by
  rcases OutboxTable.carryOut_cases table tenant id update with heq | ⟨row, hget, happlies, heq⟩
  · rw [heq]
    exact h
  · rw [heq]
    exact h.updated hget happlies

theorem Leased.enqueue (h : Leased table) (message : NewOutboxMessage)
    (createdAt notBefore : Int64) : Leased (table.enqueue message createdAt notBefore) := by
  rcases enqueue_cases table message createdAt notBefore with
    heq | ⟨row, hfree, _, _, hworker, heq⟩
  · rw [heq]
    exact h
  rw [heq]
  constructor
  case held =>
    intro other found hfound
    dsimp only at hfound ⊢
    rw [HashMap.get_put] at hfound
    split at hfound
    case isFalse => exact h.held other found hfound
    case isTrue hother =>
      cases hfound
      rw [hother, h.vacant _ hfree, OutboxFields.lease, hworker]
  case vacant =>
    intro other hnone
    dsimp only at hnone
    rw [HashMap.get_put] at hnone
    split at hnone
    case isTrue => cases hnone
    case isFalse => exact h.vacant other hnone
  case pending =>
    intro other found hfound hstatus
    dsimp only at hfound
    rw [HashMap.get_put] at hfound
    split at hfound
    case isTrue =>
      cases hfound
      exact hworker
    case isFalse => exact h.pending other found hfound hstatus
  case exclusive => exact h.exclusive

theorem Leased.call (h : Leased table) {i : ι} {query : OutboxQuery} {answer : query.Answer}
    (heffect : OutboxTable.Effect i table query answer after) : Leased after := by
  cases heffect with
  | selected | unchanged _ | read | bystander _ => exact h
  | updated hget happlies _ => exact h.updated hget happlies
  | sent => exact ⟨h.held, h.vacant, h.pending, h.exclusive⟩

end Leases

section Runs

variable {ι : Type} [DecidableEq ι] {dispatcher : ι → Dispatcher} {fleet after : SurrealFleet ι}
variable {errands : ι → Errand} {action : SurrealAction ι}

/-- Every dispatcher is on an errand and asks as it should. -/
def Asks (dispatcher : ι → Dispatcher) (errands : ι → Errand) (fleet : SurrealFleet ι) : Prop :=
  ∀ i, (fleet.threads i).Follows (asking (dispatcher i)) (fun _ _ => True) (errands i)

omit [DecidableEq ι] in
/-- The answers are as the discipline expects them. -/
theorem asking_ensures_of_effect {dispatcher : Dispatcher} {i : ι} {table next : OutboxTable ι}
    {query : OutboxQuery} {answer : query.Answer}
    (h : OutboxTable.Effect i table query answer next) :
    (asking dispatcher).ensures query answer := by
  cases h with
  | selected | read | sent | bystander _ => trivial
  | @unchanged tenant id update answer hnone =>
      cases update with
      | lease =>
          rcases answer with error | (_ | row)
          · trivial
          · trivial
          · exact absurd rfl (hnone row)
      | ack | nack | dead | heartbeat | revive => trivial
  | @updated tenant id update row answer hget happlies hanswer =>
      cases update with
      | lease now leaseUntil worker =>
          rcases answer with error | (_ | found)
          · trivial
          · trivial
          · cases hanswer _ rfl
            simp only [OutboxUpdate.applies, OutboxFields.isCandidate, Bool.and_eq_true,
              OutboxFields.isOf, decide_eq_true_eq] at happlies
            exact happlies.1.1.1
      | ack | nack | dead | heartbeat | revive => trivial

/-- A dispatcher has nothing to do any more, or begins something new. -/
theorem RowsReported.idle {table : OutboxTable ι} (h : RowsReported dispatcher errands table)
    (i : ι) : RowsReported dispatcher (Function.update errands i .idle) table := by
  refine h.move (.refl table) h.keyed (step_forgotten rfl) ?_ ?_
  · intro message hmem
    cases hmem
  · intro message hmem
    cases hmem

theorem rowsReported_of_next (hasks : Asks dispatcher errands fleet)
    (h : RowsReported dispatcher errands fleet.shared)
    (hnext : SurrealFleet.next dispatcher fleet action = some after) :
    ∃ errands', Asks dispatcher errands' after ∧ RowsReported dispatcher errands' after.shared := by
  cases action with
  | tick i tenant nowMs =>
      obtain ⟨_, rfl⟩ := Pool.spawn_eq_some_iff.mp hnext
      exact ⟨_, Pool.follows_begin hasks (Dispatcher.asks_tick _ tenant nowMs), h.idle i⟩
  | call i outcome =>
      obtain ⟨query, resume, answer, table, hthread, hanswer, rfl⟩ := Pool.call_eq_some_iff.mp hnext
      have heffect := OutboxTable.effect_of_answer hanswer
      have hpermits := hasks i
      rw [hthread] at hpermits
      exact ⟨_, Pool.follows_call hasks hthread (asking_ensures_of_effect heffect),
        h.call hpermits.1 heffect⟩
  | abandon i =>
      cases hnext
      exact ⟨_, Pool.follows_begin hasks trivial, h.idle i⟩
  | enqueue message createdAt notBefore =>
      cases hnext
      exact ⟨errands, hasks, h.enqueue message createdAt notBefore⟩
  | heartbeat worker tenant id leaseUntil =>
      cases hnext
      exact ⟨errands, hasks, h.carryOut tenant _ (fun _ => Nat.le_refl _) fun _ _ => rfl⟩
  | revive tenant id time =>
      cases hnext
      exact ⟨errands, hasks, h.carryOut tenant _ (fun _ => Nat.zero_le _)
        fun row hended => absurd rfl hended⟩

/-- One step: whoever gives a row up may do so. -/
theorem rowGivenUp_of_next (hasks : Asks dispatcher errands fleet)
    (h : RowsReported dispatcher errands fleet.shared)
    (hnext : SurrealFleet.next dispatcher fleet action = some after) {id : String}
    {row : OutboxRow} (hrow : after.shared.rows.get id = some row) (hdead : row.status = "Dead") :
    (∃ old, fleet.shared.rows.get id = some old ∧ old.status = "Dead") ∨
      ∃ i outcome, action = .call i outcome ∧
        (dispatcher i).maxAttempts.toNat ≤ Ledger.failures (tries fleet.shared.log) id := by
  cases action with
  | tick i tenant nowMs =>
      obtain ⟨_, rfl⟩ := Pool.spawn_eq_some_iff.mp hnext
      exact .inl ⟨row, hrow, hdead⟩
  | call i outcome =>
      obtain ⟨query, resume, answer, table, hthread, hanswer, rfl⟩ := Pool.call_eq_some_iff.mp hnext
      have hpermits := hasks i
      rw [hthread] at hpermits
      have heffect := OutboxTable.effect_of_answer hanswer
      refine (rowGivenUp_of_effect h hpermits.1 heffect hrow hdead).imp_right fun hlimit => ?_
      exact ⟨i, outcome, rfl, hlimit⟩
  | abandon i =>
      cases hnext
      exact .inl ⟨row, hrow, hdead⟩
  | enqueue message createdAt notBefore =>
      cases hnext
      exact .inl (rowGivenUp_of_enqueue message createdAt notBefore hrow hdead)
  | heartbeat worker tenant id leaseUntil =>
      cases hnext
      exact .inl (rowGivenUp_of_carryOut tenant _ (fun _ _ => rfl) hrow hdead)
  | revive tenant id time =>
      cases hnext
      exact .inl (rowGivenUp_of_carryOut tenant _ (fun _ hended => absurd rfl hended) hrow hdead)

theorem leased_of_next (h : Leased fleet.shared)
    (hnext : SurrealFleet.next dispatcher fleet action = some after) : Leased after.shared := by
  cases action with
  | tick i tenant nowMs =>
      obtain ⟨_, rfl⟩ := Pool.spawn_eq_some_iff.mp hnext
      exact h
  | call i outcome =>
      obtain ⟨query, resume, answer, table, _, hanswer, rfl⟩ := Pool.call_eq_some_iff.mp hnext
      exact h.call (OutboxTable.effect_of_answer hanswer)
  | abandon i =>
      cases hnext
      exact h
  | enqueue message createdAt notBefore =>
      cases hnext
      exact h.enqueue message createdAt notBefore
  | heartbeat worker tenant id leaseUntil =>
      cases hnext
      exact h.carryOut tenant _ _
  | revive tenant id time =>
      cases hnext
      exact h.carryOut tenant _ _

theorem keepsRows_of_next (hnext : SurrealFleet.next dispatcher fleet action = some after) :
    KeepsRows fleet.shared after.shared := by
  cases action with
  | tick i tenant nowMs =>
      obtain ⟨_, rfl⟩ := Pool.spawn_eq_some_iff.mp hnext
      exact .refl _
  | call i outcome =>
      obtain ⟨query, resume, answer, table, _, hanswer, rfl⟩ := Pool.call_eq_some_iff.mp hnext
      exact (extends_of_effect (OutboxTable.effect_of_answer hanswer)).rows
  | abandon i =>
      cases hnext
      exact .refl _
  | enqueue message createdAt notBefore =>
      cases hnext
      exact (extends_enqueue _ message createdAt notBefore).rows
  | heartbeat worker tenant id leaseUntil =>
      cases hnext
      exact (extends_carryOut _ tenant _ _).rows
  | revive tenant id time =>
      cases hnext
      exact (extends_carryOut _ tenant _ _).rows

/-- Before anything has happened. -/
theorem rowsReported_start (dispatcher : ι → Dispatcher) :
    RowsReported dispatcher (fun _ => .idle) SurrealFleet.start.shared where
  keyed id row hrow := by simp [SurrealFleet.start, HashMap.get_empty] at hrow
  batch i message hmem := by cases hmem
  sent i message hmem := by cases hmem
  sound := by
    constructor
    case recorded =>
      intro i key succeeded hsent
      cases hsent
    case counted =>
      intro key
      refine ⟨∅, ?_, ?_⟩
      · intro i hsent
        cases hsent
      · simp [Ledger.attempts, OutboxTable.ledger, SurrealFleet.start, HashMap.get_empty]
    case carriedOut =>
      intro key entry hentry
      simp [OutboxTable.ledger, SurrealFleet.start, HashMap.get_empty] at hentry
    case givenUp =>
      intro key entry hentry
      simp [OutboxTable.ledger, SurrealFleet.start, HashMap.get_empty] at hentry

theorem rowsReported_of_reachable (h : (SurrealFleet.system dispatcher).Reachable fleet) :
    (∃ errands, Asks dispatcher errands fleet ∧ RowsReported dispatcher errands fleet.shared) ∧
      Leased fleet.shared := by
  refine TransitionSystem.invariant (fun fleet =>
    (∃ errands, Asks dispatcher errands fleet ∧ RowsReported dispatcher errands fleet.shared) ∧
      Leased fleet.shared) ?_ ?_ h
  · rintro _ rfl
    refine ⟨⟨fun _ => .idle, fun _ => trivial, rowsReported_start dispatcher⟩, ?_, ?_, ?_, trivial⟩
    · intro id row hrow
      simp [SurrealFleet.start, HashMap.get_empty] at hrow
    · intro id _
      rfl
    · intro id row hrow
      simp [SurrealFleet.start, HashMap.get_empty] at hrow
  · rintro source action target _ ⟨⟨errands, hasks, hreported⟩, hleased⟩ hnext
    exact ⟨rowsReported_of_next hasks hreported hnext, leased_of_next hleased hnext⟩

omit [DecidableEq ι] in
/-- A try of the ledger is a send of the record. -/
theorem sent_of_mem_tries {log : List (RowEvent ι)} {attempt : LedgerTry ι String}
    (h : attempt ∈ tries log) : .sent attempt.agent attempt.key attempt.succeeded ∈ log := by
  obtain ⟨event, hevent, hattempt⟩ := List.mem_filterMap.mp h
  cases event with
  | sent i id delivered =>
      cases hattempt
      exact hevent
  | leased | renewed | freed => cases hattempt

theorem surrealDelivers (dispatcher : ι → Dispatcher) : SurrealDelivers dispatcher := by
  constructor
  case done =>
    intro fleet id row hreach hget hstatus
    obtain ⟨⟨errands, _, h⟩, _⟩ := rowsReported_of_reachable hreach
    have hentry : (fleet.shared.ledger errands).entries id = some row.entry :=
      congrArg (Option.map OutboxFields.entry) hget
    have hending : row.entry.ending = some true := if_pos hstatus
    obtain ⟨i, hmem⟩ := h.sound.carriedOut id _ hentry hending
    exact ⟨i, sent_of_mem_tries hmem⟩
  case givenUp =>
    intro fleet action after id row hreach hstep hget hstatus
    obtain ⟨⟨errands, hasks, h⟩, _⟩ := rowsReported_of_reachable hreach
    exact rowGivenUp_of_next hasks h hstep hget hstatus
  case dead =>
    intro fleet id row hreach hget hstatus
    obtain ⟨⟨errands, _, h⟩, _⟩ := rowsReported_of_reachable hreach
    have hentry : (fleet.shared.ledger errands).entries id = some row.entry :=
      congrArg (Option.map OutboxFields.entry) hget
    have hending : row.entry.ending = some false :=
      OutboxFields.ending_eq_some_false_iff.mpr hstatus
    obtain ⟨i, hmem, hlimit⟩ := h.sound.givenUp id _ hentry hending
    exact ⟨i, sent_of_mem_tries hmem, hlimit⟩
  case attempts =>
    intro fleet id row hreach hget
    obtain ⟨⟨errands, _, h⟩, _⟩ := rowsReported_of_reachable hreach
    have hbound := h.sound.attempts_le id
    rwa [attempts_of_get hget] at hbound
  case sending =>
    intro fleet i message resume hreach hthread
    obtain ⟨⟨errands, hasks, h⟩, _⟩ := rowsReported_of_reachable hreach
    have hfollows := hasks i
    rw [hthread] at hfollows
    have hfrom := h.batch i message hfollows.1
    exact ⟨hfrom.row, hfrom.granted⟩
  case exclusive =>
    intro fleet hreach
    exact (rowsReported_of_reachable hreach).2.exclusive
  case keepsRows =>
    intro fleet actions after hreach hrun
    refine hrun.preserves (fun next => KeepsRows fleet.shared next.shared) hreach ?_
      (.refl fleet.shared)
    intro before action next _ _ hkeeps hnext
    exact hkeeps.trans (keepsRows_of_next hnext)

end Runs

end Soulbase.Tx
