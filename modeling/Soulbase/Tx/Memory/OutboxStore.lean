/-
# The in-memory outbox store

A map from tenant and message id to messages behind one lock, so every
operation is one atomic step: a function from the store to a result and a
store. That each message lies under its own key is part of the type.

Five operations find a message or fail with the same error and then rewrite it
in place. They are `withMessage` applied to what each of them writes, and
`withMessage_of_find` and `withMessage_of_missing` say what any of them does.
Leasing a batch has a specification of its own, `Leases`, whose clauses are all
that later modules use.
-/

import Soulbase.Foundation.FiniteMap
import Soulbase.Foundation.MachineInt
import Soulbase.Tx.Outbox

namespace Soulbase.Tx

open Soulbase.Foundation

/-- What a message is stored under: tenant and id. -/
abbrev MessageKey := String × String

/-- `InMemoryOutboxStore::key`. -/
def messageKey (tenant : TenantId) (id : Id) : MessageKey := (tenant.asStr, id.asStr)

/-- The key of a message. -/
def OutboxMessage.key (message : OutboxMessage) : MessageKey :=
  messageKey message.tenant message.id

/-- Of one tenant, each id has a key of its own. -/
theorem messageKey_inj {tenant : TenantId} {id other : Id} :
    messageKey tenant id = messageKey tenant other ↔ id = other := by
  simp only [messageKey, Prod.mk.injEq, true_and, Id.asStr_inj]

/-- The key of a message determines its tenant and its id. -/
theorem OutboxMessage.key_eq_iff {message : OutboxMessage} {tenant : TenantId} {id : Id} :
    message.key = messageKey tenant id ↔ message.tenant = tenant ∧ message.id = id := by
  simp only [key, messageKey, Prod.mk.injEq, Id.asStr_inj, TenantId.ext_iff]

/-- `InMemoryOutboxStore`. -/
structure InMemoryOutboxStore where
  /-- The messages. -/
  messages : HashMap MessageKey OutboxMessage
  /-- Every message lies under its own key. -/
  keyed : ∀ key message, messages.get key = some message → key = message.key

namespace InMemoryOutboxStore

/-- The store of `Default`. -/
def empty : InMemoryOutboxStore where
  messages := ∅
  keyed := by simp

/-- `InMemoryOutboxStore::insert_raw`. -/
def insertRaw (store : InMemoryOutboxStore) (message : OutboxMessage) :
    InMemoryOutboxStore where
  messages := store.messages.put message.key message
  keyed := by
    intro key stored h
    rw [HashMap.get_put] at h
    split at h
    case isTrue hkey =>
      cases h
      exact hkey
    case isFalse => exact store.keyed key stored h

/-- The message under a key. -/
def find (store : InMemoryOutboxStore) (key : MessageKey) : Option OutboxMessage :=
  store.messages.get key

theorem find_insertRaw (store : InMemoryOutboxStore) (message : OutboxMessage)
    (key : MessageKey) :
    (store.insertRaw message).find key =
      if key = message.key then some message else store.find key :=
  HashMap.get_put _ _ _ _

@[simp]
theorem find_insertRaw_self (store : InMemoryOutboxStore) (message : OutboxMessage) :
    (store.insertRaw message).find message.key = some message := by
  simp [find_insertRaw]

theorem find_insertRaw_of_ne {store : InMemoryOutboxStore} {message : OutboxMessage}
    {key : MessageKey} (h : key ≠ message.key) :
    (store.insertRaw message).find key = store.find key := by
  simp [find_insertRaw, h]

@[simp]
theorem find_empty (key : MessageKey) : empty.find key = none := HashMap.get_empty key

theorem key_of_find {store : InMemoryOutboxStore} {key : MessageKey}
    {message : OutboxMessage} (h : store.find key = some message) : message.key = key :=
  (store.keyed key message h).symm

/-- `InMemoryOutboxStore::enqueue`. -/
def enqueue (store : InMemoryOutboxStore) (message : NewOutboxMessage)
    (createdAt notBefore : Int64) : TxResult OutboxMessage × InMemoryOutboxStore :=
  let stored := buildOutboxMessage message createdAt notBefore
  match store.find stored.key with
  | some _ => (.error (.conflict "outbox id already exists"), store)
  | none => (.ok stored, store.insertRaw stored)

/-- Enqueueing either fails and changes nothing, or adds a fresh message under a
key that was free. -/
theorem enqueue_cases (store : InMemoryOutboxStore) (message : NewOutboxMessage)
    (createdAt notBefore : Int64) :
    (∃ error, store.enqueue message createdAt notBefore = (.error error, store)) ∨
      store.find (buildOutboxMessage message createdAt notBefore).key = none ∧
        store.enqueue message createdAt notBefore =
          (.ok (buildOutboxMessage message createdAt notBefore),
            store.insertRaw (buildOutboxMessage message createdAt notBefore)) := by
  cases h : store.find (buildOutboxMessage message createdAt notBefore).key with
  | none => exact .inr ⟨rfl, by simp only [enqueue, h]⟩
  | some _ => exact .inl ⟨_, by simp only [enqueue, h]; rfl⟩

/-- Find a message and rewrite it, or fail. An update that fails leaves the
message as it was. -/
def withMessage {α : Type} (store : InMemoryOutboxStore) (tenant : TenantId) (id : Id)
    (update : OutboxMessage → TxResult (α × OutboxMessage)) :
    TxResult α × InMemoryOutboxStore :=
  match store.find (messageKey tenant id) with
  | none => (.error (.unknown "outbox message missing"), store)
  | some message =>
      match update message with
      | .error error => (.error error, store)
      | .ok (value, updated) => (.ok value, store.insertRaw updated)

/-- The message after `ack_done`. -/
def acked (message : OutboxMessage) : OutboxMessage :=
  { message with
    status := .done
    worker := none
    leaseUntil := none
    lastError := none }

/-- The message after `nack_backoff`. -/
def nacked (notBefore : Int64) (error : Option String) (message : OutboxMessage) :
    OutboxMessage :=
  { message with
    status := .pending
    notBefore := notBefore
    worker := none
    leaseUntil := none
    lastError := error
    attempts := saturatingSucc message.attempts }

/-- The message after `dead_letter`. -/
def deadened (error : Option String) (message : OutboxMessage) : OutboxMessage :=
  { message with
    status := .dead
    worker := none
    leaseUntil := none
    lastError := error
    attempts := saturatingSucc message.attempts }

/-- The message after `heartbeat`. -/
def renewed (leaseUntil : Int64) (message : OutboxMessage) : OutboxMessage :=
  { message with leaseUntil := some leaseUntil }

/-- The message after `revive`. -/
def revived (time : Int64) (message : OutboxMessage) : OutboxMessage :=
  { message with
    status := .pending
    worker := none
    leaseUntil := none
    lastError := none
    notBefore := time
    attempts := 0 }

/-- `InMemoryOutboxStore::ack_done`. It does not look at the lease. -/
def ackDone (store : InMemoryOutboxStore) (tenant : TenantId) (id : Id) :
    TxResult Unit × InMemoryOutboxStore :=
  store.withMessage tenant id fun message => .ok ((), acked message)

/-- `InMemoryOutboxStore::nack_backoff`. It does not look at the lease. -/
def nackBackoff (store : InMemoryOutboxStore) (tenant : TenantId) (id : Id)
    (notBefore : Int64) (error : Option String) :
    TxResult Unit × InMemoryOutboxStore :=
  store.withMessage tenant id fun message => .ok ((), nacked notBefore error message)

/-- `InMemoryOutboxStore::dead_letter`. It does not look at the lease. -/
def deadLetter (store : InMemoryOutboxStore) (tenant : TenantId) (id : Id)
    (error : Option String) (now : Int64) : TxResult DeadLetter × InMemoryOutboxStore :=
  store.withMessage tenant id fun message =>
    .ok (buildDeadLetter (deadened error message) error now, deadened error message)

/-- `InMemoryOutboxStore::heartbeat`, the one operation that asks who holds the
lease. -/
def heartbeat (store : InMemoryOutboxStore) (tenant : TenantId) (id : Id)
    (leaseUntil : Int64) (workerId : String) : TxResult Unit × InMemoryOutboxStore :=
  store.withMessage tenant id fun message =>
    if message.worker ≠ some workerId then
      .error (.conflict "lease owned by another worker")
    else .ok ((), renewed leaseUntil message)

/-- `InMemoryOutboxStore::revive`. -/
def revive (store : InMemoryOutboxStore) (tenant : TenantId) (id : Id) (time : Int64) :
    TxResult Unit × InMemoryOutboxStore :=
  store.withMessage tenant id fun message => .ok ((), revived time message)

@[simp]
theorem key_acked (message : OutboxMessage) : (acked message).key = message.key := rfl

@[simp]
theorem key_nacked (notBefore : Int64) (error : Option String)
    (message : OutboxMessage) : (nacked notBefore error message).key = message.key := rfl

@[simp]
theorem key_deadened (error : Option String) (message : OutboxMessage) :
    (deadened error message).key = message.key := rfl

@[simp]
theorem key_renewed (leaseUntil : Int64) (message : OutboxMessage) :
    (renewed leaseUntil message).key = message.key := rfl

@[simp]
theorem key_revived (time : Int64) (message : OutboxMessage) :
    (revived time message).key = message.key := rfl

section WithMessage

variable {α : Type} {store : InMemoryOutboxStore} {tenant : TenantId} {id : Id}
variable {update : OutboxMessage → TxResult (α × OutboxMessage)}

theorem withMessage_of_missing (h : store.find (messageKey tenant id) = none) :
    store.withMessage tenant id update =
      (.error (.unknown "outbox message missing"), store) := by
  simp [withMessage, h]

theorem withMessage_of_find {message updated : OutboxMessage} {value : α}
    (h : store.find (messageKey tenant id) = some message)
    (hupdate : update message = .ok (value, updated)) :
    store.withMessage tenant id update = (.ok value, store.insertRaw updated) := by
  simp [withMessage, h, hupdate]

end WithMessage

theorem deadLetter_of_missing {store : InMemoryOutboxStore} {tenant : TenantId} {id : Id}
    {error : Option String} {now : Int64} (h : store.find (messageKey tenant id) = none) :
    store.deadLetter tenant id error now =
      (.error (.unknown "outbox message missing"), store) :=
  withMessage_of_missing h

theorem deadLetter_of_find {store : InMemoryOutboxStore} {tenant : TenantId} {id : Id}
    {error : Option String} {now : Int64} {message : OutboxMessage}
    (h : store.find (messageKey tenant id) = some message) :
    store.deadLetter tenant id error now =
      (.ok (buildDeadLetter (deadened error message) error now),
        store.insertRaw (deadened error message)) :=
  withMessage_of_find h rfl

/-! ## Leasing a batch -/

/-- The message once it is leased to a worker. -/
def leasedTo (workerId : String) (leaseUntil : Int64) (message : OutboxMessage) :
    OutboxMessage :=
  { message with
    status := .leased
    worker := some workerId
    leaseUntil := some leaseUntil }

@[simp]
theorem key_leasedTo (workerId : String) (leaseUntil : Int64) (message : OutboxMessage) :
    (leasedTo workerId leaseUntil message).key = message.key := rfl

/-- The loop of `lease_batch` over the selected ids. -/
def leaseAll (store : InMemoryOutboxStore) (tenant : TenantId) (workerId : String)
    (leaseUntil : Int64) : List Id → List OutboxMessage × InMemoryOutboxStore
  | [] => ([], store)
  | id :: rest =>
      match store.find (messageKey tenant id) with
      | none => leaseAll store tenant workerId leaseUntil rest
      | some message =>
          let leased := leasedTo workerId leaseUntil message
          let others := leaseAll (store.insertRaw leased) tenant workerId leaseUntil rest
          (leased :: others.1, others.2)

/-- `InMemoryOutboxStore::lease_batch`. `order` is the order in which the map
yields its values. -/
def leaseBatch (store : InMemoryOutboxStore) (tenant : TenantId) (nowMs leaseMs : Int64)
    (batch : Nat) (workerId : String) (groupByKey : Bool) (order : List MessageKey) :
    List OutboxMessage × InMemoryOutboxStore :=
  let snapshot := store.messages.valuesIn order
  let ids := selectMessages snapshot tenant nowMs batch workerId groupByKey
  leaseAll store tenant workerId (nowMs + leaseMs) ids

/-- What leasing a batch to a worker until some time may do: the leased messages
were selectable, are returned as they are now stored, and nothing else
changed. -/
structure Leases (store : InMemoryOutboxStore) (tenant : TenantId) (nowMs : Int64)
    (workerId : String) (leaseUntil : Int64) (leased : List OutboxMessage)
    (after : InMemoryOutboxStore) : Prop where
  granted : ∀ message ∈ leased, ∃ old, store.find message.key = some old ∧
    old.Selectable tenant nowMs workerId ∧ message = leasedTo workerId leaseUntil old
  stored : ∀ message ∈ leased, after.find message.key = some message
  nodup : (leased.map (·.key)).Nodup
  frame : ∀ key, key ∉ leased.map (·.key) → after.find key = store.find key

/-- A leased key held a selectable message, and now holds it leased. -/
theorem Leases.of_mem_keys {store after : InMemoryOutboxStore} {tenant : TenantId}
    {nowMs leaseUntil : Int64} {workerId : String} {leased : List OutboxMessage}
    (h : Leases store tenant nowMs workerId leaseUntil leased after) {key : MessageKey}
    (hkey : key ∈ leased.map (·.key)) :
    ∃ old, store.find key = some old ∧ old.Selectable tenant nowMs workerId ∧
      after.find key = some (leasedTo workerId leaseUntil old) := by
  obtain ⟨message, hmem, rfl⟩ := List.mem_map.mp hkey
  obtain ⟨old, hold, hselectable, heq⟩ := h.granted message hmem
  refine ⟨old, hold, hselectable, ?_⟩
  rw [h.stored message hmem, heq]

/-- Leased messages belong to the tenant they were leased for. -/
theorem Leases.tenant_eq {store after : InMemoryOutboxStore} {tenant : TenantId}
    {nowMs leaseUntil : Int64} {workerId : String} {leased : List OutboxMessage}
    (h : Leases store tenant nowMs workerId leaseUntil leased after)
    {message : OutboxMessage} (hmem : message ∈ leased) : message.tenant = tenant := by
  obtain ⟨old, _, hold, rfl⟩ := h.granted message hmem
  exact hold.tenant

/-- The messages in iteration order have the iterated keys. -/
theorem keys_valuesIn_sublist (store : InMemoryOutboxStore) (order : List MessageKey) :
    ((store.messages.valuesIn order).map (·.key)).Sublist order :=
  HashMap.map_valuesIn_sublist (fun key message hget => (store.keyed key message hget).symm) order

/-- The loop over the ids of stored messages with distinct keys leases exactly
these messages. -/
theorem leaseAll_of_stored (store : InMemoryOutboxStore) (tenant : TenantId)
    (workerId : String) (leaseUntil : Int64) (chosen : List OutboxMessage)
    (hstored : ∀ message ∈ chosen,
      store.find message.key = some message ∧ message.tenant = tenant)
    (hnodup : (chosen.map (·.key)).Nodup) :
    leaseAll store tenant workerId leaseUntil (chosen.map (·.id)) =
      (chosen.map (leasedTo workerId leaseUntil),
        chosen.foldl (fun store message =>
          store.insertRaw (leasedTo workerId leaseUntil message)) store) := by
  induction chosen generalizing store with
  | nil => rfl
  | cons message rest ih =>
      obtain ⟨hfind, htenant⟩ := hstored message List.mem_cons_self
      obtain ⟨hfresh, hrest⟩ := List.nodup_cons.mp hnodup
      have hkey : messageKey tenant message.id = message.key := by
        rw [← htenant]
        rfl
      have hothers : ∀ other ∈ rest,
          (store.insertRaw (leasedTo workerId leaseUntil message)).find other.key =
            some other ∧ other.tenant = tenant := by
        intro other hother
        have hne : other.key ≠ (leasedTo workerId leaseUntil message).key := by
          rw [key_leasedTo]
          exact fun h => hfresh (List.mem_map.mpr ⟨other, hother, h⟩)
        rw [find_insertRaw_of_ne hne]
        exact hstored other (List.mem_cons_of_mem _ hother)
      simp only [List.map_cons, leaseAll, hkey, hfind, ih _ hothers hrest,
        List.foldl_cons]

/-- Inserting messages one after the other changes no other key. -/
theorem find_foldl_insertRaw_of_notMem (store : InMemoryOutboxStore)
    (messages : List OutboxMessage) {key : MessageKey}
    (h : key ∉ messages.map (·.key)) :
    (messages.foldl insertRaw store).find key = store.find key := by
  induction messages generalizing store with
  | nil => rfl
  | cons message rest ih =>
      rw [List.map_cons, List.mem_cons, not_or] at h
      rw [List.foldl_cons, ih _ h.2, find_insertRaw_of_ne h.1]

/-- Inserting messages with distinct keys stores each of them. -/
theorem find_foldl_insertRaw_of_mem (store : InMemoryOutboxStore)
    {messages : List OutboxMessage} (hnodup : (messages.map (·.key)).Nodup)
    {message : OutboxMessage} (hmem : message ∈ messages) :
    (messages.foldl insertRaw store).find message.key = some message := by
  induction messages generalizing store with
  | nil => cases hmem
  | cons first rest ih =>
      obtain ⟨hfresh, hrest⟩ := List.nodup_cons.mp hnodup
      rw [List.foldl_cons]
      rcases List.mem_cons.mp hmem with rfl | hmem
      · rw [find_foldl_insertRaw_of_notMem _ _ hfresh, find_insertRaw_self]
      · exact ih _ hrest hmem

/-- Selected messages are stored under different keys, and leasing a batch leases them. -/
theorem leaseBatch_of_selects (store : InMemoryOutboxStore) {tenant : TenantId}
    {nowMs leaseMs : Int64} {batch : Nat} {workerId : String} {groupByKey : Bool}
    {order : List MessageKey} (horder : store.messages.Enumerates order)
    {chosen : List OutboxMessage}
    (hselects : Selects (store.messages.valuesIn order) tenant nowMs workerId groupByKey chosen)
    (hids : selectMessages (store.messages.valuesIn order) tenant nowMs batch workerId groupByKey =
      chosen.map (·.id)) :
    (∀ message ∈ chosen, store.find message.key = some message) ∧
      (chosen.map (·.key)).Nodup ∧
      store.leaseBatch tenant nowMs leaseMs batch workerId groupByKey order =
        (chosen.map (leasedTo workerId (nowMs + leaseMs)),
          (chosen.map (leasedTo workerId (nowMs + leaseMs))).foldl insertRaw store) := by
  have hnodup : (chosen.map (·.key)).Nodup :=
    horder.nodup.sublist ((hselects.sublist.map _).trans (keys_valuesIn_sublist store order))
  have hstored : ∀ message ∈ chosen, store.find message.key = some message := by
    intro message hmem
    obtain ⟨key, _, hget⟩ := HashMap.mem_valuesIn.mp (hselects.sublist.subset hmem)
    rw [← store.keyed key message hget]
    exact hget
  refine ⟨hstored, hnodup, ?_⟩
  rw [leaseBatch, hids, leaseAll_of_stored store tenant workerId _ chosen _ hnodup,
    List.foldl_map]
  exact fun message hmem => ⟨hstored message hmem, (hselects.selectable message hmem).tenant⟩

/-- Leasing a batch, in any iteration order of the map, leases a selection from
the stored messages. -/
theorem leaseBatch_eq (store : InMemoryOutboxStore) (tenant : TenantId)
    (nowMs leaseMs : Int64) (batch : Nat) (workerId : String) (groupByKey : Bool)
    {order : List MessageKey} (horder : store.messages.Enumerates order) :
    ∃ chosen, Selects (store.messages.valuesIn order) tenant nowMs workerId groupByKey chosen ∧
      (∀ message ∈ chosen, store.find message.key = some message) ∧
      (chosen.map (·.key)).Nodup ∧
      store.leaseBatch tenant nowMs leaseMs batch workerId groupByKey order =
        (chosen.map (leasedTo workerId (nowMs + leaseMs)),
          (chosen.map (leasedTo workerId (nowMs + leaseMs))).foldl insertRaw store) := by
  obtain ⟨chosen, hselects, hids⟩ :=
    selectMessages_eq (store.messages.valuesIn order) tenant nowMs batch workerId
      groupByKey
  exact ⟨chosen, hselects, store.leaseBatch_of_selects horder hselects hids⟩

/-- Without grouping and with room for every stored message, exactly the selectable
messages are leased. -/
theorem leaseBatch_all (store : InMemoryOutboxStore) (tenant : TenantId) (nowMs leaseMs : Int64)
    {batch : Nat} (workerId : String) {order : List MessageKey}
    (horder : store.messages.Enumerates order) (hbatch : store.messages.keys.length ≤ batch) :
    (∀ message, message ∈ (store.leaseBatch tenant nowMs leaseMs batch workerId false order).1 ↔
        ∃ old, store.find old.key = some old ∧ old.Selectable tenant nowMs workerId ∧
          message = leasedTo workerId (nowMs + leaseMs) old) ∧
      ∀ key, (store.leaseBatch tenant nowMs leaseMs batch workerId false order).2.find key =
        (store.find key).map fun message =>
          if message.Selectable tenant nowMs workerId then
            leasedTo workerId (nowMs + leaseMs) message
          else message := by
  have hstored : ∀ message, message ∈ store.messages.valuesIn order ↔
      store.find message.key = some message := by
    intro message
    rw [HashMap.mem_valuesIn]
    constructor
    · rintro ⟨key, _, hget⟩
      rw [← store.keyed key message hget]
      exact hget
    · intro hfind
      have hkey : message.key ∈ store.messages.keys :=
        AList.lookup_isSome.mp (Option.isSome_of_eq_some hfind)
      exact ⟨message.key, horder.mem_iff.mpr hkey, hfind⟩
  have hroom : ((store.messages.valuesIn order).filter
      (·.Selectable tenant nowMs workerId)).length ≤ batch := by
    refine (List.length_filter_le _ _).trans ((List.length_filterMap_le _ _).trans ?_)
    rw [horder.length_eq]
    exact hbatch
  have hselects : Selects (store.messages.valuesIn order) tenant nowMs workerId false
      ((store.messages.valuesIn order).filter (·.Selectable tenant nowMs workerId)) := by
    constructor
    case sublist => exact List.filter_sublist
    case selectable =>
      intro message hmem
      simpa using (List.mem_filter.mp hmem).2
    case first => exact nofun
  have hids : selectMessages (store.messages.valuesIn order) tenant nowMs batch workerId false =
      ((store.messages.valuesIn order).filter (·.Selectable tenant nowMs workerId)).map (·.id) :=
    selectLoop_all _ [] [] (by simpa using hroom)
  obtain ⟨_, hnodup, hlease⟩ :=
    @leaseBatch_of_selects store tenant nowMs leaseMs _ _ _ _ horder _ hselects hids
  have hmem : ∀ message, message ∈ (store.messages.valuesIn order).filter
      (·.Selectable tenant nowMs workerId) ↔
        store.find message.key = some message ∧ message.Selectable tenant nowMs workerId := by
    intro message
    rw [List.mem_filter, hstored, decide_eq_true_iff]
  rw [hlease]
  constructor
  · intro message
    simp only [List.mem_map, hmem, and_assoc, eq_comm (a := message)]
  · intro key
    have hkeys : (((store.messages.valuesIn order).filter
        (·.Selectable tenant nowMs workerId)).map (leasedTo workerId (nowMs + leaseMs))).map
          (·.key) = ((store.messages.valuesIn order).filter
            (·.Selectable tenant nowMs workerId)).map (·.key) := by
      simp [Function.comp_def]
    cases hfind : store.find key with
    | none =>
        rw [find_foldl_insertRaw_of_notMem, hfind]
        · rfl
        rw [hkeys]
        intro hkey
        obtain ⟨message, hchosen, rfl⟩ := List.mem_map.mp hkey
        rw [((hmem message).mp hchosen).1] at hfind
        cases hfind
    | some message =>
        obtain rfl := key_of_find hfind
        by_cases hselectable : message.Selectable tenant nowMs workerId
        · have hchosen := List.mem_map_of_mem (f := leasedTo workerId (nowMs + leaseMs))
            ((hmem message).mpr ⟨hfind, hselectable⟩)
          have hfound := find_foldl_insertRaw_of_mem store (hkeys ▸ hnodup) hchosen
          rw [key_leasedTo] at hfound
          rw [hfound, Option.map_some, if_pos hselectable]
        · rw [find_foldl_insertRaw_of_notMem, hfind, Option.map_some, if_neg hselectable]
          rw [hkeys]
          intro hkey
          obtain ⟨other, hchosen, hsame⟩ := List.mem_map.mp hkey
          obtain ⟨hother, hselectable'⟩ := (hmem other).mp hchosen
          rw [hsame, hfind] at hother
          cases hother
          exact hselectable hselectable'

/-- Leasing a batch is a lease of some selectable messages. -/
theorem leases_leaseBatch (store : InMemoryOutboxStore) (tenant : TenantId)
    (nowMs leaseMs : Int64) (batch : Nat) (workerId : String) (groupByKey : Bool)
    {order : List MessageKey} (horder : store.messages.Enumerates order) :
    Leases store tenant nowMs workerId (nowMs + leaseMs)
      (store.leaseBatch tenant nowMs leaseMs batch workerId groupByKey order).1
      (store.leaseBatch tenant nowMs leaseMs batch workerId groupByKey order).2 := by
  obtain ⟨chosen, hselects, hstored, hnodup, hresult⟩ :=
    store.leaseBatch_eq tenant nowMs leaseMs batch workerId groupByKey horder
  have hkeys : (chosen.map (leasedTo workerId (nowMs + leaseMs))).map (·.key) =
      chosen.map (·.key) := by
    simp [Function.comp_def]
  rw [hresult]
  constructor
  case granted =>
    intro message hmem
    obtain ⟨old, hold, rfl⟩ := List.mem_map.mp hmem
    exact ⟨old, hstored old hold, hselects.selectable old hold, rfl⟩
  case stored =>
    intro message hmem
    exact find_foldl_insertRaw_of_mem store (hkeys ▸ hnodup) hmem
  case nodup => rwa [hkeys]
  case frame =>
    intro key hkey
    exact find_foldl_insertRaw_of_notMem store _ hkey

/-- What leasing a batch with grouping may do: besides, each leased message was the
first selectable one of its dispatch key in the order of iteration. -/
structure GroupedLeases (store : InMemoryOutboxStore) (order : List MessageKey)
    (tenant : TenantId) (nowMs : Int64) (workerId : String) (leaseUntil : Int64)
    (leased : List OutboxMessage) (after : InMemoryOutboxStore) : Prop extends
    Leases store tenant nowMs workerId leaseUntil leased after where
  first : ∀ message ∈ leased, ∀ key, message.dispatchKey = some key →
    ∃ old, firstSelectable (store.messages.valuesIn order) tenant nowMs workerId key =
      some old ∧ message = leasedTo workerId leaseUntil old

theorem groupedLeases_leaseBatch (store : InMemoryOutboxStore) (tenant : TenantId)
    (nowMs leaseMs : Int64) (batch : Nat) (workerId : String) {order : List MessageKey}
    (horder : store.messages.Enumerates order) :
    GroupedLeases store order tenant nowMs workerId (nowMs + leaseMs)
      (store.leaseBatch tenant nowMs leaseMs batch workerId true order).1
      (store.leaseBatch tenant nowMs leaseMs batch workerId true order).2 := by
  constructor
  case toLeases => exact store.leases_leaseBatch tenant nowMs leaseMs batch workerId true horder
  case first =>
    intro message hmem key hkey
    obtain ⟨chosen, hselects, _, _, hresult⟩ :=
      store.leaseBatch_eq tenant nowMs leaseMs batch workerId true horder
    rw [hresult] at hmem
    obtain ⟨old, hold, rfl⟩ := List.mem_map.mp hmem
    exact ⟨old, hselects.first rfl old hold key hkey, rfl⟩

/-- A leased message with a dispatch key is the one that was first of its key. -/
theorem GroupedLeases.key_eq {store after : InMemoryOutboxStore} {order : List MessageKey}
    {tenant : TenantId} {nowMs leaseUntil : Int64} {workerId : String}
    {leased : List OutboxMessage}
    (h : GroupedLeases store order tenant nowMs workerId leaseUntil leased after)
    {message first : OutboxMessage} (hmem : message ∈ leased) {key : String}
    (hkey : message.dispatchKey = some key)
    (hfirst : firstSelectable (store.messages.valuesIn order) tenant nowMs workerId key =
      some first) : first.key = message.key := by
  obtain ⟨old, hold, rfl⟩ := h.first message hmem key hkey
  rw [hfirst] at hold
  cases hold
  rfl

/-- `InMemoryOutboxStore::get`. -/
def get (store : InMemoryOutboxStore) (tenant : TenantId) (id : Id) :
    TxResult (Option OutboxMessage) :=
  .ok (store.find (messageKey tenant id))

/-- `InMemoryOutboxStore::status`. -/
def status (store : InMemoryOutboxStore) (tenant : String) (id : String) :
    Option OutboxStatus :=
  (store.find (tenant, id)).map (·.status)

end InMemoryOutboxStore

end Soulbase.Tx
