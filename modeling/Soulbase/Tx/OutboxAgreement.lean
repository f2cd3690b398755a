/-
# The two outbox stores

The in-memory store and the SurrealDB store are given the same calls for one tenant. They
hold the same messages throughout, but a missing message is an error to the one and no row
to the other, and the counter of attempts saturates in the one and runs on in the other,
until it cannot be read any more. `outboxStoresAgree_iff_treatedAlike` says that nothing else
sets them apart.

Batches are leased without grouping and with room for all messages. The answers of the two
stores are compared as far as the messages are: which of them are leased, and the fields
that settling changes.
-/

import Soulbase.Foundation.Lockstep
import Soulbase.Tx.Memory.OutboxStore
import Soulbase.Tx.Surreal.OutboxStore

namespace Soulbase.Tx

open Soulbase.Foundation

/-- A call of an outbox store for one tenant, with what it reads of the clock and the
orders in which the stores yield what they hold. -/
inductive OutboxCall
  | enqueue (message : NewOutboxMessage) (createdAt notBefore : Int64)
  | leaseBatch (nowMs leaseMs : Int64) (batch : Nat) (workerId : String)
      (storeOrder : List MessageKey) (rowOrder : List String)
  | ackDone (id : Id)
  | nackBackoff (id : Id) (notBefore : Int64) (error : Option String)
  | deadLetter (id : Id) (error : Option String) (now : Int64)
  | heartbeat (id : Id) (leaseUntil : Int64) (workerId : String)
  | revive (id : Id) (time : Int64)
  | get (id : Id)

/-- What a call returns. -/
abbrev OutboxCall.Answer : OutboxCall → Type
  | enqueue .. => TxResult OutboxMessage
  | leaseBatch .. => TxResult (List OutboxMessage)
  | ackDone _ => TxResult Unit
  | nackBackoff .. => TxResult Unit
  | deadLetter .. => TxResult DeadLetter
  | heartbeat .. => TxResult Unit
  | revive .. => TxResult Unit
  | get _ => TxResult (Option OutboxMessage)

/-- The calls of the in-memory store. -/
def InMemoryOutboxStore.serve (tenant : TenantId) :
    Machine InMemoryOutboxStore OutboxCall OutboxCall.Answer
  | store, .enqueue message createdAt notBefore =>
      store.enqueue { message with tenant := tenant } createdAt notBefore
  | store, .leaseBatch nowMs leaseMs batch workerId storeOrder _ =>
      let leased := store.leaseBatch tenant nowMs leaseMs batch workerId false storeOrder
      (.ok leased.1, leased.2)
  | store, .ackDone id => store.ackDone tenant id
  | store, .nackBackoff id notBefore error => store.nackBackoff tenant id notBefore error
  | store, .deadLetter id error now => store.deadLetter tenant id error now
  | store, .heartbeat id leaseUntil workerId => store.heartbeat tenant id leaseUntil workerId
  | store, .revive id time => store.revive tenant id time
  | store, .get id => (store.get tenant id, store)

/-- The calls of the SurrealDB store. -/
def SurrealOutboxStore.serve (tenant : TenantId) :
    Machine OutboxRows OutboxCall OutboxCall.Answer
  | rows, .enqueue message createdAt notBefore =>
      enqueue rows { message with tenant := tenant } createdAt notBefore
  | rows, .leaseBatch nowMs leaseMs batch workerId _ rowOrder =>
      leaseBatch rows tenant nowMs leaseMs batch workerId false rowOrder
  | rows, .ackDone id => ackDone rows tenant id
  | rows, .nackBackoff id notBefore error => nackBackoff rows tenant id notBefore error
  | rows, .deadLetter id error now => deadLetter rows tenant id error now
  | rows, .heartbeat id leaseUntil workerId => heartbeat rows tenant id leaseUntil workerId
  | rows, .revive id time => revive rows tenant id time
  | rows, .get id => (get rows tenant id, rows)

/-- The fields of a message that settling changes are the same. -/
structure OutboxMessage.SameProgress (message other : OutboxMessage) : Prop where
  status : message.status = other.status
  attempts : message.attempts = other.attempts
  notBefore : message.notBefore = other.notBefore
  worker : message.worker = other.worker
  leaseUntil : message.leaseUntil = other.leaseUntil
  lastError : message.lastError = other.lastError

/-- The same set of messages. -/
def SameBatch (messages others : List OutboxMessage) : Prop :=
  ∀ id, id ∈ messages.map (·.id) ↔ id ∈ others.map (·.id)

/-- Answers of a call that count as the same. -/
def OutboxCall.Same : (call : OutboxCall) → call.Answer → call.Answer → Prop
  | enqueue .. => EndAlike fun _ _ => True
  | leaseBatch .. => EndAlike SameBatch
  | ackDone _ => EndAlike fun _ _ => True
  | nackBackoff .. => EndAlike fun _ _ => True
  | deadLetter .. => EndAlike fun _ _ => True
  | heartbeat .. => EndAlike fun _ _ => True
  | revive .. => EndAlike fun _ _ => True
  | get _ => EndAlike (Option.Rel OutboxMessage.SameProgress)

/-- A batch has room for all messages, and each store goes through all that it holds. -/
def OutboxCall.Admitted (store : InMemoryOutboxStore) (rows : OutboxRows) : OutboxCall → Prop
  | leaseBatch _ _ batch _ storeOrder rowOrder =>
      store.messages.Enumerates storeOrder ∧ store.messages.keys.length ≤ batch ∧
        rows.Enumerates rowOrder ∧ rows.keys.length ≤ batch
  | _ => True

/-- A call that the stores treat alike: what it settles is there, what it renews is leased
to the worker, and what the database has to read has been tried less than `2 ^ 32` times. -/
def OutboxCall.TreatedAlike (tenant : TenantId) (store : InMemoryOutboxStore)
    (rows : OutboxRows) : OutboxCall → Prop
  | enqueue .. => True
  | leaseBatch nowMs _ _ workerId _ _ => ∀ id row, rows.get id = some row →
      row.isCandidate tenant nowMs workerId = true → row.attempts < UInt32.size
  | ackDone id | nackBackoff id _ _ | revive id _ =>
      ∃ message, store.find (messageKey tenant id) = some message
  | deadLetter id _ _ => ∀ row, rows.get (recordIdFor outboxTable tenant id.asStr) = some row →
      row.attempts + 1 < UInt32.size
  | heartbeat id _ workerId => ∃ message,
      store.find (messageKey tenant id) = some message ∧ message.worker = some workerId
  | get id => ∀ row, rows.get (recordIdFor outboxTable tenant id.asStr) = some row →
      row.attempts < UInt32.size

/-! ## The same contents -/

/-- The row is that of the message, up to the count of attempts, which saturates in the
message. A message that is pending is leased to nobody. -/
structure OutboxMessage.HasRow (message : OutboxMessage) (row : OutboxRow) : Prop where
  fields : row = { (outboxDocFromMessage message).toRow with attempts := row.attempts }
  attempts : message.attempts.toNat = min row.attempts (UInt32.size - 1)
  unleased : message.status = .pending → message.leaseUntil = none ∧ message.worker = none

namespace OutboxMessage.HasRow

variable {message : OutboxMessage} {row : OutboxRow} {tenant : TenantId} {now : Int64}
variable {workerId : String}

/-- Where the count can be read, the row is that of the message. -/
theorem eq_toRow (h : message.HasRow row) (hcount : row.attempts < UInt32.size) :
    row = (outboxDocFromMessage message).toRow := by
  have hattempts : row.attempts = message.attempts.toNat := by
    rw [h.attempts]
    omega
  rw [h.fields, hattempts]
  rfl

/-- Such a row is read as the message. -/
theorem read (h : message.HasRow row) (hcount : row.attempts < UInt32.size)
    (context : String) : SurrealOutboxStore.messageFromRow context row = .ok message := by
  rw [h.eq_toRow hcount, SurrealOutboxStore.messageFromRow_toRow]

/-- The tenant of the row is the tenant of the message. -/
theorem isOf (h : message.HasRow row) (htenant : message.tenant = tenant) :
    row.isOf tenant = true := by
  rw [OutboxFields.isOf, h.fields, decide_eq_true_iff, ← htenant]
  rfl

/-- The row names the worker that holds the message. -/
theorem worker_eq (h : message.HasRow row) : row.worker = message.worker := by
  rw [h.fields]
  rfl

/-- Both stores look at the same messages when they lease. -/
theorem selectable_iff (h : message.HasRow row) (htenant : message.tenant = tenant) :
    message.Selectable tenant now workerId ↔ row.isCandidate tenant now workerId = true := by
  have hstatus : row.status = outboxStatusToStr message.status := by rw [h.fields]; rfl
  have hnotBefore : row.notBefore = message.notBefore := by rw [h.fields]; rfl
  have hlease : row.leaseUntil = message.leaseUntil := by rw [h.fields]; rfl
  have hdue : ¬now < message.notBefore ↔ message.notBefore ≤ now := Int64.not_lt
  have hselectable : message.Selectable tenant now workerId ↔
      ¬(message.status = .done ∨ message.status = .dead) ∧
        ¬message.LeasedElsewhere now workerId ∧ message.notBefore ≤ now := by
    rw [← hdue]
    exact ⟨fun h => ⟨h.active, h.free, h.due⟩, fun ⟨h₁, h₂, h₃⟩ => ⟨htenant, h₁, h₂, h₃⟩⟩
  rw [hselectable, OutboxFields.isCandidate, h.isOf htenant, hstatus, hnotBefore, h.worker_eq,
    OutboxFields.leaseExpired, hlease, OutboxMessage.LeasedElsewhere]
  cases hmessage : message.status with
  | pending => simp [outboxStatusToStr, (h.unleased hmessage).1]
  | leased =>
      cases message.leaseUntil with
      | none => simp [outboxStatusToStr]
      | some leaseUntil =>
          by_cases hrunning : now < leaseUntil
          · simp [outboxStatusToStr, hrunning, Int64.not_le.mpr hrunning, and_comm]
          · simp [outboxStatusToStr, hrunning, Int64.not_lt.mp hrunning]
  | done => simp [outboxStatusToStr]
  | dead => simp [outboxStatusToStr]

theorem leased (h : message.HasRow row) (workerId : String) (leaseUntil : Int64) :
    (InMemoryOutboxStore.leasedTo workerId leaseUntil message).HasRow
      (row.leased workerId leaseUntil) where
  fields := by rw [h.fields]; rfl
  attempts := h.attempts
  unleased := nofun

theorem acked (h : message.HasRow row) : (InMemoryOutboxStore.acked message).HasRow row.acked where
  fields := by rw [h.fields]; rfl
  attempts := h.attempts
  unleased := nofun

/-- The counter that saturates follows the one that does not. -/
theorem attempts_succ (h : message.HasRow row) :
    (saturatingSucc message.attempts).toNat = min (row.attempts + 1) (UInt32.size - 1) := by
  rw [toNat_saturatingSucc, h.attempts]
  omega

theorem nacked (h : message.HasRow row) (notBefore : Int64) (error : Option String) :
    (InMemoryOutboxStore.nacked notBefore error message).HasRow (row.nacked notBefore error) where
  fields := by rw [h.fields]; rfl
  attempts := h.attempts_succ
  unleased := fun _ => ⟨rfl, rfl⟩

theorem deadened (h : message.HasRow row) (error : Option String) :
    (InMemoryOutboxStore.deadened error message).HasRow (row.deadened error) where
  fields := by rw [h.fields]; rfl
  attempts := h.attempts_succ
  unleased := nofun

/-- Only a message that is leased can be renewed. -/
theorem renewed (h : message.HasRow row) (hworker : message.worker = some workerId)
    (leaseUntil : Int64) :
    (InMemoryOutboxStore.renewed leaseUntil message).HasRow (row.renewed leaseUntil) where
  fields := by rw [h.fields]; rfl
  attempts := h.attempts
  unleased := by
    intro hpending
    have hnone := (h.unleased hpending).2
    rw [hworker] at hnone
    cases hnone

theorem revived (h : message.HasRow row) (time : Int64) :
    (InMemoryOutboxStore.revived time message).HasRow (row.revived time) where
  fields := by rw [h.fields]; rfl
  attempts := rfl
  unleased := fun _ => ⟨rfl, rfl⟩

end OutboxMessage.HasRow

/-- The rows are those of the messages, and all are of the tenant. -/
structure SameMessages (tenant : TenantId) (store : InMemoryOutboxStore) (rows : OutboxRows) :
    Prop where
  alike : ∀ id, Option.Rel OutboxMessage.HasRow (store.find (messageKey tenant id))
    (rows.get (recordIdFor outboxTable tenant id.asStr))
  own : ∀ key message, store.find key = some message → message.tenant = tenant
  named : ∀ id row, rows.get id = some row →
    ∃ messageId : Id, id = recordIdFor outboxTable tenant messageId.asStr

section Steps

variable {tenant : TenantId} {store next : InMemoryOutboxStore} {rows nextRows : OutboxRows}
variable {id : Id} {message : OutboxMessage}

theorem SameMessages.empty (tenant : TenantId) : SameMessages tenant .empty ∅ where
  alike := fun _ => .none
  own := by simp
  named := by simp

/-- What is stored has a row. -/
theorem SameMessages.row_of_find (h : SameMessages tenant store rows)
    (hfind : store.find (messageKey tenant id) = some message) :
    ∃ row, rows.get (recordIdFor outboxTable tenant id.asStr) = some row ∧
      message.HasRow row := by
  have halike := h.alike id
  rw [hfind] at halike
  cases hget : rows.get (recordIdFor outboxTable tenant id.asStr) with
  | none =>
      rw [hget] at halike
      cases halike
  | some row =>
      rw [hget] at halike
      cases halike with
      | some hrow => exact ⟨row, rfl, hrow⟩

/-- What is not stored has none. -/
theorem SameMessages.row_of_missing (h : SameMessages tenant store rows)
    (hfind : store.find (messageKey tenant id) = none) :
    rows.get (recordIdFor outboxTable tenant id.asStr) = none := by
  have halike := h.alike id
  rw [hfind] at halike
  cases hget : rows.get (recordIdFor outboxTable tenant id.asStr) with
  | none => rfl
  | some row =>
      rw [hget] at halike
      cases halike

/-- A row belongs to the message that is stored. -/
theorem SameMessages.find_of_row (h : SameMessages tenant store rows) {row : OutboxRow}
    (hget : rows.get (recordIdFor outboxTable tenant id.asStr) = some row) :
    ∃ message, store.find (messageKey tenant id) = some message ∧ message.HasRow row := by
  cases hfind : store.find (messageKey tenant id) with
  | none =>
      rw [h.row_of_missing hfind] at hget
      cases hget
  | some message =>
      obtain ⟨found, hfound, hrow⟩ := h.row_of_find hfind
      rw [hget] at hfound
      cases hfound
      exact ⟨message, rfl, hrow⟩

/-- Every row belongs to a message. -/
theorem SameMessages.find_of_get (h : SameMessages tenant store rows) {recordId : String}
    {row : OutboxRow} (hget : rows.get recordId = some row) :
    ∃ message, store.find message.key = some message ∧ message.tenant = tenant ∧
      recordId = recordIdFor outboxTable tenant message.id.asStr ∧ message.HasRow row := by
  obtain ⟨messageId, rfl⟩ := h.named recordId row hget
  obtain ⟨message, hfind, hrow⟩ := h.find_of_row hget
  have hkey := InMemoryOutboxStore.key_of_find hfind
  obtain ⟨htenant, hid⟩ := OutboxMessage.key_eq_iff.mp hkey
  exact ⟨message, by rw [hkey, hfind], htenant, by rw [hid], hrow⟩

/-- Both write one message and its row. -/
theorem SameMessages.write (h : SameMessages tenant store rows) {row : OutboxRow}
    (htenant : message.tenant = tenant) (hrow : message.HasRow row)
    (hfind : ∀ key, next.find key = if key = message.key then some message else store.find key)
    (hget : ∀ recordId, nextRows.get recordId =
      if recordId = recordIdFor outboxTable tenant message.id.asStr then some row
      else rows.get recordId) : SameMessages tenant next nextRows := by
  constructor
  case alike =>
    intro other
    rw [hfind, hget, OutboxMessage.key_eq_iff.mpr ⟨htenant, rfl⟩]
    simp only [messageKey_inj, recordIdFor_inj, Id.asStr_inj]
    by_cases hother : other = message.id
    · rw [if_pos hother, if_pos hother]
      exact .some hrow
    · rw [if_neg hother, if_neg hother]
      exact h.alike other
  case own =>
    intro key found hfound
    rw [hfind] at hfound
    split at hfound
    · cases hfound
      exact htenant
    · exact h.own key found hfound
  case named =>
    intro recordId found hfound
    rw [hget] at hfound
    split at hfound
    case isTrue hsame => exact ⟨message.id, hsame⟩
    case isFalse => exact h.named recordId found hfound

/-- A message that is stored is settled in both. -/
theorem SameMessages.settle (h : SameMessages tenant store rows)
    (hfind : store.find (messageKey tenant id) = some message) {updated : OutboxMessage}
    {change : OutboxRow → OutboxRow} (hkey : updated.key = message.key)
    (hchange : ∀ row, message.HasRow row → updated.HasRow (change row)) :
    ∃ row, rows.get (recordIdFor outboxTable tenant id.asStr) = some row ∧
      row.isOf tenant = true ∧ message.HasRow row ∧
        SameMessages tenant (store.insertRaw updated)
          (rows.put (recordIdFor outboxTable tenant id.asStr) (change row)) := by
  obtain ⟨row, hget, hrow⟩ := h.row_of_find hfind
  have hfound := InMemoryOutboxStore.key_of_find hfind
  obtain ⟨htenant, _⟩ := OutboxMessage.key_eq_iff.mp hfound
  obtain ⟨hupdated, hid⟩ := OutboxMessage.key_eq_iff.mp (hkey.trans hfound)
  refine ⟨row, hget, hrow.isOf htenant, hrow, h.write hupdated (hchange row hrow) ?_ ?_⟩
  · exact store.find_insertRaw updated
  · intro recordId
    rw [hid, HashMap.get_put]

/-- A new message and its row. -/
theorem hasRow_buildOutboxMessage (message : NewOutboxMessage) (createdAt notBefore : Int64) :
    (buildOutboxMessage message createdAt notBefore).HasRow
      (outboxDocFromMessage (buildOutboxMessage message createdAt notBefore)).toRow where
  fields := rfl
  attempts := rfl
  unleased := fun _ => ⟨rfl, rfl⟩

/-- A message is enqueued in both, or refused in both. -/
theorem SameMessages.enqueue (h : SameMessages tenant store rows) (message : NewOutboxMessage)
    (htenant : message.tenant = tenant) (createdAt notBefore : Int64) :
    EndAlike (fun _ _ => True) (store.enqueue message createdAt notBefore).1
        (SurrealOutboxStore.enqueue rows message createdAt notBefore).1 ∧
      SameMessages tenant (store.enqueue message createdAt notBefore).2
        (SurrealOutboxStore.enqueue rows message createdAt notBefore).2 := by
  subst htenant
  have hkey : (buildOutboxMessage message createdAt notBefore).key =
      messageKey message.tenant message.id := rfl
  cases hfind : store.find (messageKey message.tenant message.id) with
  | some stored =>
      obtain ⟨row, hget, _⟩ := h.row_of_find hfind
      rw [SurrealOutboxStore.enqueue_of_get createdAt notBefore hget]
      simp only [InMemoryOutboxStore.enqueue, hkey, hfind]
      exact ⟨trivial, h⟩
  | none =>
      have hget := h.row_of_missing hfind
      rw [SurrealOutboxStore.enqueue_of_get_eq_none createdAt notBefore hget]
      simp only [InMemoryOutboxStore.enqueue, hkey, hfind]
      refine ⟨trivial, h.write rfl (hasRow_buildOutboxMessage message createdAt notBefore) ?_ ?_⟩
      · exact store.find_insertRaw _
      · exact fun recordId => HashMap.get_put _ _ _ _

/-- Settling what is stored succeeds in both. -/
theorem SameMessages.settle_of_find (h : SameMessages tenant store rows)
    (hfind : store.find (messageKey tenant id) = some message)
    {update : OutboxMessage → OutboxMessage} {change : OutboxRow → OutboxRow}
    (hkey : (update message).key = message.key)
    (hchange : ∀ row, message.HasRow row → (update message).HasRow (change row)) :
    EndAlike (fun _ _ => True)
        (store.withMessage tenant id fun message => .ok ((), update message)).1 (.ok ()) ∧
      SameMessages tenant (store.withMessage tenant id fun message => .ok ((), update message)).2
        (SurrealOutboxStore.settle rows tenant id change).2 := by
  obtain ⟨row, hget, hown, _, hsame⟩ := h.settle hfind hkey hchange
  rw [InMemoryOutboxStore.withMessage_of_find hfind rfl, SurrealOutboxStore.settle_of_get hget hown]
  exact ⟨trivial, hsame⟩

/-- Giving up a message. -/
theorem SameMessages.deadLetter (h : SameMessages tenant store rows) (id : Id)
    (error : Option String) (now : Int64)
    (hcount : ∀ row, rows.get (recordIdFor outboxTable tenant id.asStr) = some row →
      row.attempts + 1 < UInt32.size) :
    EndAlike (fun _ _ => True) (store.deadLetter tenant id error now).1
        (SurrealOutboxStore.deadLetter rows tenant id error now).1 ∧
      SameMessages tenant (store.deadLetter tenant id error now).2
        (SurrealOutboxStore.deadLetter rows tenant id error now).2 := by
  cases hfind : store.find (messageKey tenant id) with
  | none =>
      rw [InMemoryOutboxStore.deadLetter_of_missing hfind, SurrealOutboxStore.deadLetter,
        SurrealOutboxStore.settle_of_get_eq_none (h.row_of_missing hfind)]
      exact ⟨trivial, h⟩
  | some message =>
      obtain ⟨row, hget, hown, hrow, hsame⟩ := h.settle hfind
        (InMemoryOutboxStore.key_deadened error message) fun row hrow => hrow.deadened error
      rw [InMemoryOutboxStore.deadLetter_of_find hfind, SurrealOutboxStore.deadLetter,
        SurrealOutboxStore.settle_of_get hget hown]
      simp only [(hrow.deadened error).read (hcount row hget) "outbox dead-letter"]
      exact ⟨trivial, hsame⟩

/-- Renewing a lease of the worker. -/
theorem SameMessages.heartbeat (h : SameMessages tenant store rows) {workerId : String}
    (hfind : store.find (messageKey tenant id) = some message)
    (hworker : message.worker = some workerId) (leaseUntil : Int64) :
    EndAlike (fun _ _ => True) (store.heartbeat tenant id leaseUntil workerId).1 (.ok ()) ∧
      SameMessages tenant (store.heartbeat tenant id leaseUntil workerId).2
        (SurrealOutboxStore.heartbeat rows tenant id leaseUntil workerId).2 := by
  obtain ⟨row, hget, hown, hrow, hsame⟩ := h.settle hfind
    (InMemoryOutboxStore.key_renewed leaseUntil message) fun row hrow =>
      hrow.renewed hworker leaseUntil
  have hholds : (row.isOf tenant && row.worker = some workerId) = true := by
    rw [hown, hrow.worker_eq, hworker]
    simp
  have hselect : rows.select (recordIdFor outboxTable tenant id.asStr)
      (fun row => row.isOf tenant && row.worker = some workerId) = some row :=
    Records.select_of_get hget hholds
  have hrenew : store.heartbeat tenant id leaseUntil workerId =
      (.ok (), store.insertRaw (InMemoryOutboxStore.renewed leaseUntil message)) :=
    InMemoryOutboxStore.withMessage_of_find hfind (if_neg (not_not.mpr hworker))
  rw [hrenew, SurrealOutboxStore.heartbeat, Records.update_of_select hselect]
  exact ⟨trivial, hsame⟩

/-- Reading a message. -/
theorem SameMessages.get (h : SameMessages tenant store rows) (id : Id)
    (hcount : ∀ row, rows.get (recordIdFor outboxTable tenant id.asStr) = some row →
      row.attempts < UInt32.size) :
    EndAlike (Option.Rel OutboxMessage.SameProgress) (store.get tenant id)
      (SurrealOutboxStore.get rows tenant id) := by
  unfold InMemoryOutboxStore.get SurrealOutboxStore.get SurrealOutboxStore.selectSingle
  cases hfind : store.find (messageKey tenant id) with
  | none =>
      rw [Records.select_of_get_eq_none (h.row_of_missing hfind)]
      exact .none
  | some message =>
      obtain ⟨row, hget, hrow⟩ := h.row_of_find hfind
      have hown := hrow.isOf (h.own _ message hfind)
      rw [Records.select_of_get hget hown]
      simp only [hrow.read (hcount row hget) "outbox fetch"]
      exact .some ⟨rfl, rfl, rfl, rfl, rfl, rfl⟩

/-- Both change all messages alike. -/
theorem SameMessages.map (h : SameMessages tenant store rows)
    {update : OutboxMessage → OutboxMessage} {change : OutboxRow → OutboxRow}
    (hfind : ∀ key, next.find key = (store.find key).map update)
    (hget : ∀ recordId, nextRows.get recordId = (rows.get recordId).map change)
    (hkeep : ∀ message row, message.HasRow row → message.tenant = tenant →
      (update message).HasRow (change row) ∧ (update message).tenant = tenant) :
    SameMessages tenant next nextRows := by
  constructor
  case alike =>
    intro id
    rw [hfind, hget]
    cases hstored : store.find (messageKey tenant id) with
    | none =>
        rw [h.row_of_missing hstored]
        exact .none
    | some message =>
        obtain ⟨row, hrow, hhas⟩ := h.row_of_find hstored
        rw [hrow]
        exact .some (hkeep message row hhas (h.own _ message hstored)).1
  case own =>
    intro key found hfound
    rw [hfind] at hfound
    obtain ⟨message, hstored, rfl⟩ := Option.map_eq_some_iff.mp hfound
    have htenant := h.own key message hstored
    obtain ⟨id, hid⟩ : ∃ id, key = messageKey tenant id :=
      ⟨message.id, by rw [← InMemoryOutboxStore.key_of_find hstored,
        OutboxMessage.key_eq_iff.mpr ⟨htenant, rfl⟩]⟩
    obtain ⟨row, _, hhas⟩ := h.row_of_find (hid ▸ hstored)
    exact (hkeep message row hhas htenant).2
  case named =>
    intro recordId found hfound
    rw [hget] at hfound
    obtain ⟨row, hstored, _⟩ := Option.map_eq_some_iff.mp hfound
    exact h.named recordId row hstored

/-- Each row lies under the id that it carries. -/
theorem SameMessages.keyed (h : SameMessages tenant store rows) :
    SurrealOutboxStore.Keyed rows := by
  intro recordId row hget
  obtain ⟨message, _, rfl, rfl, hrow⟩ := h.find_of_get hget
  rw [hrow.fields]
  rfl

/-- The messages that may be leased are those of the candidates. -/
theorem SameMessages.selectable_iff (h : SameMessages tenant store rows) {now : Int64}
    {workerId : String} :
    (∃ message, store.find message.key = some message ∧
        message.Selectable tenant now workerId ∧ message.id = id) ↔
      ∃ recordId row, rows.get recordId = some row ∧
        row.isCandidate tenant now workerId = true ∧ ⟨row.messageId⟩ = id := by
  constructor
  · rintro ⟨message, hfind, hselectable, rfl⟩
    have htenant := h.own _ message hfind
    rw [OutboxMessage.key_eq_iff.mpr ⟨htenant, rfl⟩] at hfind
    obtain ⟨row, hget, hrow⟩ := h.row_of_find hfind
    refine ⟨_, row, hget, (hrow.selectable_iff htenant).mp hselectable, ?_⟩
    rw [hrow.fields]
    rfl
  · rintro ⟨recordId, row, hget, hcandidate, rfl⟩
    obtain ⟨message, hfind, htenant, _, hrow⟩ := h.find_of_get hget
    refine ⟨message, hfind, (hrow.selectable_iff htenant).mpr hcandidate, ?_⟩
    rw [hrow.fields]
    rfl

/-- Leasing a batch. -/
theorem SameMessages.leaseBatch (h : SameMessages tenant store rows)
    {nowMs leaseMs : Int64} {batch : Nat} {workerId : String} {storeOrder : List MessageKey}
    {rowOrder : List String} (hstore : store.messages.Enumerates storeOrder)
    (hbatch : store.messages.keys.length ≤ batch) (hrows : rows.Enumerates rowOrder)
    (hroom : rows.keys.length ≤ batch)
    (hcount : ∀ id row, rows.get id = some row → row.isCandidate tenant nowMs workerId = true →
      row.attempts < UInt32.size) :
    EndAlike SameBatch
        (.ok (store.leaseBatch tenant nowMs leaseMs batch workerId false storeOrder).1)
        (SurrealOutboxStore.leaseBatch rows tenant nowMs leaseMs batch workerId false rowOrder).1 ∧
      SameMessages tenant
        (store.leaseBatch tenant nowMs leaseMs batch workerId false storeOrder).2
        (SurrealOutboxStore.leaseBatch rows tenant nowMs leaseMs batch workerId false
          rowOrder).2 := by
  obtain ⟨hleased, hfind⟩ := store.leaseBatch_all tenant nowMs leaseMs workerId hstore hbatch
  obtain ⟨messages, hanswer, hmessages, hget⟩ :=
    SurrealOutboxStore.leaseBatch_all h.keyed hrows hroom leaseMs hcount
  constructor
  · rw [hanswer]
    intro id
    rw [List.mem_map, List.mem_map]
    constructor
    · rintro ⟨_, hmem, rfl⟩
      obtain ⟨old, hold, hselectable, rfl⟩ := (hleased _).mp hmem
      obtain ⟨recordId, row, hrow, hcandidate, hid⟩ :=
        h.selectable_iff.mp ⟨old, hold, hselectable, rfl⟩
      exact ⟨_, (hmessages _).mpr ⟨recordId, row, hrow, hcandidate, rfl⟩, hid⟩
    · rintro ⟨_, hmem, rfl⟩
      obtain ⟨recordId, row, hrow, hcandidate, rfl⟩ := (hmessages _).mp hmem
      obtain ⟨old, hold, hselectable, hid⟩ :=
        h.selectable_iff.mpr ⟨recordId, row, hrow, hcandidate, rfl⟩
      exact ⟨_, (hleased _).mpr ⟨old, hold, hselectable, rfl⟩, hid⟩
  · apply h.map hfind hget
    intro message row hrow htenant
    by_cases hselectable : message.Selectable tenant nowMs workerId
    · have hcandidate := (hrow.selectable_iff htenant).mp hselectable
      rw [if_pos hselectable, Records.updated, if_pos hcandidate]
      exact ⟨hrow.leased workerId _, htenant⟩
    · have hcandidate := fun h => hselectable ((hrow.selectable_iff htenant).mpr h)
      rw [if_neg hselectable, Records.updated, if_neg hcandidate]
      exact ⟨hrow, htenant⟩

/-- A call that is treated alike ends alike, and leaves the same messages. -/
theorem SameMessages.step (call : OutboxCall) (h : SameMessages tenant store rows)
    (hadmitted : call.Admitted store rows) (halike : call.TreatedAlike tenant store rows) :
    call.Same (InMemoryOutboxStore.serve tenant store call).1
        (SurrealOutboxStore.serve tenant rows call).1 ∧
      SameMessages tenant (InMemoryOutboxStore.serve tenant store call).2
        (SurrealOutboxStore.serve tenant rows call).2 := by
  cases call with
  | enqueue message createdAt notBefore =>
      exact h.enqueue { message with tenant := tenant } rfl createdAt notBefore
  | leaseBatch nowMs leaseMs batch workerId storeOrder rowOrder =>
      obtain ⟨hstore, hbatch, hrows, hroom⟩ := hadmitted
      exact h.leaseBatch hstore hbatch hrows hroom halike
  | ackDone id =>
      obtain ⟨message, hfind⟩ := halike
      exact h.settle_of_find hfind (InMemoryOutboxStore.key_acked message) fun _ hrow =>
        hrow.acked
  | nackBackoff id notBefore error =>
      obtain ⟨message, hfind⟩ := halike
      exact h.settle_of_find hfind (InMemoryOutboxStore.key_nacked notBefore error message)
        fun _ hrow => hrow.nacked notBefore error
  | deadLetter id error now => exact h.deadLetter id error now halike
  | heartbeat id leaseUntil workerId =>
      obtain ⟨message, hfind, hworker⟩ := halike
      exact h.heartbeat hfind hworker leaseUntil
  | revive id time =>
      obtain ⟨message, hfind⟩ := halike
      exact h.settle_of_find hfind (InMemoryOutboxStore.key_revived time message)
        fun _ hrow => hrow.revived time
  | get id => exact ⟨h.get id halike, h⟩

/-- Where a message is missing, the one fails and the other does not. -/
theorem not_endAlike_of_missing
    (hmissing : ¬∃ message, store.find (messageKey tenant id) = some message)
    {update : OutboxMessage → TxResult (Unit × OutboxMessage)} :
    ¬EndAlike (fun _ _ => True) (store.withMessage tenant id update).1 (.ok ()) := by
  have hfind := Option.eq_none_iff_forall_ne_some.mpr (not_exists.mp hmissing)
  rw [InMemoryOutboxStore.withMessage_of_missing hfind]
  exact not_false

/-- A row that cannot be read. -/
theorem messageFromRow_of_unread {row : OutboxRow} (hunread : ¬row.attempts < UInt32.size)
    (context : String) :
    ∃ error, SurrealOutboxStore.messageFromRow context row = .error error := by
  have hdecode : decodeOutboxRow context row = .error _ := if_neg hunread
  rw [SurrealOutboxStore.messageFromRow, hdecode]
  exact ⟨_, rfl⟩

/-- Any other call ends differently. -/
theorem SameMessages.differ (call : OutboxCall) (h : SameMessages tenant store rows)
    (hadmitted : call.Admitted store rows) (halike : ¬call.TreatedAlike tenant store rows) :
    ¬call.Same (InMemoryOutboxStore.serve tenant store call).1
      (SurrealOutboxStore.serve tenant rows call).1 := by
  cases call with
  | enqueue message createdAt notBefore => exact absurd trivial halike
  | leaseBatch nowMs leaseMs batch workerId storeOrder rowOrder =>
      obtain ⟨_, _, hrows, hroom⟩ := hadmitted
      simp only [OutboxCall.TreatedAlike, not_forall] at halike
      obtain ⟨recordId, row, hget, hcandidate, hunread⟩ := halike
      obtain ⟨error, hanswer⟩ :=
        SurrealOutboxStore.leaseBatch_of_unread hrows hroom hget hcandidate hunread leaseMs
      intro hsame
      simp only [SurrealOutboxStore.serve, hanswer] at hsame
      exact hsame
  | ackDone id => exact not_endAlike_of_missing halike
  | nackBackoff id notBefore error => exact not_endAlike_of_missing halike
  | deadLetter id error now =>
      simp only [OutboxCall.TreatedAlike, not_forall] at halike
      obtain ⟨row, hget, hunread⟩ := halike
      obtain ⟨message, hfind, hrow⟩ := h.find_of_row hget
      obtain ⟨htenant, _⟩ :=
        OutboxMessage.key_eq_iff.mp (InMemoryOutboxStore.key_of_find hfind)
      have hunread : ¬(row.deadened error).attempts < UInt32.size := hunread
      obtain ⟨failure, hfailure⟩ := messageFromRow_of_unread hunread "outbox dead-letter"
      intro hsame
      simp only [InMemoryOutboxStore.serve, SurrealOutboxStore.serve,
        InMemoryOutboxStore.deadLetter_of_find hfind, SurrealOutboxStore.deadLetter,
        SurrealOutboxStore.settle_of_get hget (hrow.isOf htenant), hfailure] at hsame
      exact hsame
  | heartbeat id leaseUntil workerId =>
      cases hfind : store.find (messageKey tenant id) with
      | none => exact not_endAlike_of_missing (by simp [hfind])
      | some message =>
          have hworker : message.worker ≠ some workerId :=
            fun hworker => halike ⟨message, hfind, hworker⟩
          intro hsame
          simp only [InMemoryOutboxStore.serve, InMemoryOutboxStore.heartbeat,
            InMemoryOutboxStore.withMessage, hfind, if_pos hworker] at hsame
          exact hsame
  | revive id time => exact not_endAlike_of_missing halike
  | get id =>
      simp only [OutboxCall.TreatedAlike, not_forall] at halike
      obtain ⟨row, hget, hunread⟩ := halike
      obtain ⟨message, hfind, hrow⟩ := h.find_of_row hget
      have hselect : SurrealOutboxStore.selectSingle rows tenant id = some row :=
        Records.select_of_get hget (hrow.isOf (h.own _ message hfind))
      obtain ⟨failure, hfailure⟩ := messageFromRow_of_unread hunread "outbox fetch"
      intro hsame
      simp only [InMemoryOutboxStore.serve, SurrealOutboxStore.serve, InMemoryOutboxStore.get,
        SurrealOutboxStore.get, hselect, hfailure] at hsame
      exact hsame

end Steps

/-- New stores treat the calls of a history alike. -/
def OutboxStoresAgree (tenant : TenantId) (calls : List OutboxCall) : Prop :=
  Machine.Agree (InMemoryOutboxStore.serve tenant) (SurrealOutboxStore.serve tenant)
    OutboxCall.Same .empty ∅ calls

/-- A condition on every call of a history of new stores. -/
def AlongOutboxCalls (tenant : TenantId)
    (condition : InMemoryOutboxStore → OutboxRows → OutboxCall → Prop)
    (calls : List OutboxCall) : Prop :=
  Machine.Meets (InMemoryOutboxStore.serve tenant) (SurrealOutboxStore.serve tenant) condition
    .empty ∅ calls

/-- The stores agree on a history exactly if every call of it is one that they treat
alike. -/
theorem outboxStoresAgree_iff_treatedAlike (tenant : TenantId) (calls : List OutboxCall)
    (hadmitted : AlongOutboxCalls tenant (fun store rows call => call.Admitted store rows)
      calls) :
    OutboxStoresAgree tenant calls ↔
      AlongOutboxCalls tenant (fun store rows call => call.TreatedAlike tenant store rows)
        calls := by
  apply Machine.agrees_iff_meets (SameMessages tenant)
  case hstep => exact fun _ _ call h hadmitted halike => h.step call hadmitted halike
  case hdiffer => exact fun _ _ call h hadmitted halike => h.differ call hadmitted halike
  case hstates => exact .empty tenant
  case hadmits => exact hadmitted

/-- A message that is enqueued, leased, renewed and acknowledged, and then read. -/
theorem outboxStoresAgree_deliverOnce :
    OutboxStoresAgree ⟨"t"⟩
      [.enqueue ⟨⟨"m"⟩, ⟨"t"⟩, ⟨"e"⟩, "topic", .null, none, none⟩ 0 0,
        .leaseBatch 5 10 1 "w" [("t", "m")] ["tx_outbox:t_m"], .heartbeat ⟨"m"⟩ 20 "w",
        .ackDone ⟨"m"⟩, .get ⟨"m"⟩] := by
  apply (outboxStoresAgree_iff_treatedAlike _ _ _).mpr
  · refine ⟨trivial, ?_, ⟨_, rfl, rfl⟩, ⟨_, rfl⟩, ?_, trivial⟩
    · intro id row hget _
      have hone : (HashMap.put ∅ "tx_outbox:t_m" _).get id = some row := hget
      rw [HashMap.get_put, HashMap.get_empty] at hone
      split at hone
      · cases hone
        decide
      · cases hone
    · intro row hget
      cases hget
      decide
  · refine ⟨trivial, ⟨?_, ?_, ?_, ?_⟩, trivial, trivial, trivial, trivial⟩
    all_goals decide

/-- Acknowledging a message that was never enqueued: the one store fails, and the other
finds nothing to update. -/
theorem not_outboxStoresAgree_missing :
    ¬∀ (tenant : TenantId) (calls : List OutboxCall),
      AlongOutboxCalls tenant (fun store rows call => call.Admitted store rows) calls →
        OutboxStoresAgree tenant calls := by
  intro h
  have hagree := h ⟨"t"⟩ [.ackDone ⟨"m"⟩] ⟨trivial, trivial⟩
  exact hagree.1

end Soulbase.Tx
