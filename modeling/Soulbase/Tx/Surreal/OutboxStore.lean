/-
# The SurrealDB outbox store

The calls of the store with one client, over the rows of `tx_outbox`. Every settlement is
one `UPDATE`, which changes the row of an id if it meets the condition and otherwise
returns none; only `dead_letter` looks at what it returns. `lease_batch` selects candidates
and then leases each of them in a statement of its own, with the same condition.
-/

import Mathlib.Data.List.Sort
import Soulbase.Foundation.Records
import Soulbase.Tx.Outbox
import Soulbase.Tx.Surreal.Mapper

namespace Soulbase.Tx

open Soulbase.Foundation Soulbase.Storage

/-- The rows of `tx_outbox`. -/
abbrev OutboxRows := Records OutboxRow

namespace OutboxFields

/-- The condition `tenant = $tenant`. -/
def isOf (tenant : TenantId) (row : OutboxRow) : Bool := row.tenant = tenant.asStr

/-- `lease_until <= $now`. A `NULL` comes before every number. -/
def leaseExpired (row : OutboxRow) (now : Int64) : Bool :=
  match row.leaseUntil with
  | none => true
  | some leaseUntil => leaseUntil ≤ now

theorem leaseExpired_eq_true_iff {row : OutboxRow} {now : Int64} :
    row.leaseExpired now = true ↔
      ∀ leaseUntil, row.leaseUntil = some leaseUntil → leaseUntil ≤ now := by
  unfold leaseExpired
  cases row.leaseUntil <;> simp

/-- The condition of `SELECT_CANDIDATES` and of `LEASE_UPDATE`. A `NULL` is not `NONE`. -/
def isCandidate (tenant : TenantId) (now : Int64) (worker : String) (row : OutboxRow) : Bool :=
  row.isOf tenant && (row.status = "Pending" || row.status = "Leased") && row.notBefore ≤ now &&
    (row.status = "Pending" || row.leaseExpired now || row.worker = some worker)

/-- `ORDER BY not_before, created_at`. -/
def ComesBefore (row other : OutboxRow) : Prop :=
  row.notBefore < other.notBefore ∨
    row.notBefore = other.notBefore ∧ row.createdAt ≤ other.createdAt

instance : DecidableRel ComesBefore := by
  intro row other
  unfold ComesBefore
  infer_instance

/-- The row after `LEASE_UPDATE`. -/
def leased (worker : String) (leaseUntil : Int64) (row : OutboxRow) : OutboxRow :=
  { row with
    status := "Leased"
    worker := some worker
    leaseUntil := some leaseUntil }

/-- The row after `ACK_UPDATE`. -/
def acked (row : OutboxRow) : OutboxRow :=
  { row with
    status := "Done"
    worker := none
    leaseUntil := none
    lastError := none }

/-- The row after `NACK_UPDATE`. -/
def nacked (notBefore : Int64) (error : Option String) (row : OutboxRow) : OutboxRow :=
  { row with
    status := "Pending"
    worker := none
    leaseUntil := none
    lastError := error
    notBefore := notBefore
    attempts := row.attempts + 1 }

/-- The row after `DEAD_UPDATE`. -/
def deadened (error : Option String) (row : OutboxRow) : OutboxRow :=
  { row with
    status := "Dead"
    worker := none
    leaseUntil := none
    lastError := error
    attempts := row.attempts + 1 }

/-- The row after `HEARTBEAT_UPDATE`. -/
def renewed (leaseUntil : Int64) (row : OutboxRow) : OutboxRow :=
  { row with leaseUntil := some leaseUntil }

/-- The row after `REVIVE_UPDATE`. -/
def revived (time : Int64) (row : OutboxRow) : OutboxRow :=
  { row with
    status := "Pending"
    worker := none
    leaseUntil := none
    lastError := none
    attempts := 0
    notBefore := time }

end OutboxFields

namespace SurrealOutboxStore

/-- `SELECT_SINGLE`. -/
def selectSingle (rows : OutboxRows) (tenant : TenantId) (id : Id) : Option OutboxRow :=
  rows.select (recordIdFor outboxTable tenant id.asStr) (·.isOf tenant)

/-- A row as a message. -/
def messageFromRow (context : String) (row : OutboxRow) : TxResult OutboxMessage := do
  let doc ← decodeOutboxRow context row
  outboxMessageFromDoc doc

/-- `SurrealOutboxStore::enqueue`, with its two readings of the clock. -/
def enqueue (rows : OutboxRows) (message : NewOutboxMessage) (createdAt notBefore : Int64) :
    TxResult OutboxMessage × OutboxRows :=
  let doc := outboxDocFromMessage (buildOutboxMessage message createdAt notBefore)
  match rows.create doc.id doc.toRow with
  | none => (.error (mapStorageError (.conflict "record already exists")), rows)
  | some created => (messageFromRow "outbox enqueue" doc.toRow, created)

/-- The candidates that `SELECT_CANDIDATES` returns, for an order in which the table yields
its rows. -/
def candidates (rows : OutboxRows) (order : List String) (tenant : TenantId) (now : Int64)
    (worker : String) (limit : Nat) : List OutboxRow :=
  ((rows.selectWhere order (·.isCandidate tenant now worker)).insertionSort
    OutboxFields.ComesBefore).take limit

/-- `SurrealOutboxStore::try_lease`, and the message that it returns. -/
def tryLease (rows : OutboxRows) (tenant : TenantId) (doc : OutboxDoc) (now leaseUntil : Int64)
    (worker : String) : TxResult (Option OutboxMessage) × OutboxRows :=
  match rows.update doc.id (·.isCandidate tenant now worker) (·.leased worker leaseUntil) with
  | (none, rows) => (.ok none, rows)
  | (some row, rows) => ((messageFromRow "outbox lease" row).map some, rows)

/-- The loop of `lease_batch` over the candidates, with the messages leased and the dispatch
keys seen so far. -/
def leaseLoop (tenant : TenantId) (now leaseUntil : Int64) (batch : Nat) (worker : String)
    (groupByKey : Bool) :
    List OutboxDoc → List OutboxMessage → List String → OutboxRows →
      TxResult (List OutboxMessage) × OutboxRows
  | [], selected, _, rows => (.ok selected, rows)
  | doc :: rest, selected, seenKeys, rows =>
      if groupByKey && doc.dispatchKey.any (seenKeys.contains ·) then
        leaseLoop tenant now leaseUntil batch worker groupByKey rest selected seenKeys rows
      else
        match tryLease rows tenant doc now leaseUntil worker with
        | (.error error, rows) => (.error error, rows)
        | (.ok found, rows) =>
            let selected := selected ++ found.toList
            if selected.length ≥ batch then (.ok selected, rows)
            else
              leaseLoop tenant now leaseUntil batch worker groupByKey rest selected
                (if groupByKey then doc.dispatchKey.toList ++ seenKeys else seenKeys) rows

/-- How many candidates `lease_batch` asks for. -/
def prefetch (batch : Nat) : Nat := max (batch * 4 % UInt64.size) batch

/-- `SurrealOutboxStore::lease_batch`. -/
def leaseBatch (rows : OutboxRows) (tenant : TenantId) (nowMs leaseMs : Int64) (batch : Nat)
    (workerId : String) (groupByKey : Bool) (order : List String) :
    TxResult (List OutboxMessage) × OutboxRows :=
  let found := candidates rows order tenant nowMs workerId (prefetch batch)
  match decodeVec (decodeOutboxRow "outbox select") found with
  | .error error => (.error error, rows)
  | .ok docs =>
      leaseLoop tenant nowMs (nowMs + leaseMs) batch workerId groupByKey docs [] [] rows

/-- The `UPDATE` of one row of the tenant. -/
def settle (rows : OutboxRows) (tenant : TenantId) (id : Id)
    (change : OutboxRow → OutboxRow) : Option OutboxRow × OutboxRows :=
  rows.update (recordIdFor outboxTable tenant id.asStr) (·.isOf tenant) change

/-- `SurrealOutboxStore::ack_done`. -/
def ackDone (rows : OutboxRows) (tenant : TenantId) (id : Id) : TxResult Unit × OutboxRows :=
  (.ok (), (settle rows tenant id (·.acked)).2)

/-- `SurrealOutboxStore::nack_backoff`. -/
def nackBackoff (rows : OutboxRows) (tenant : TenantId) (id : Id) (notBefore : Int64)
    (error : Option String) : TxResult Unit × OutboxRows :=
  (.ok (), (settle rows tenant id (·.nacked notBefore error)).2)

/-- `SurrealOutboxStore::dead_letter`. -/
def deadLetter (rows : OutboxRows) (tenant : TenantId) (id : Id) (error : Option String)
    (now : Int64) : TxResult DeadLetter × OutboxRows :=
  match settle rows tenant id (·.deadened error) with
  | (none, rows) => (.error (.unknown "dead-letter update returned empty payload"), rows)
  | (some row, rows) =>
      ((messageFromRow "outbox dead-letter" row).map
        fun message => buildDeadLetter message row.lastError now, rows)

/-- `SurrealOutboxStore::heartbeat`. -/
def heartbeat (rows : OutboxRows) (tenant : TenantId) (id : Id) (leaseUntil : Int64)
    (workerId : String) : TxResult Unit × OutboxRows :=
  (.ok (), (rows.update (recordIdFor outboxTable tenant id.asStr)
    (fun row => row.isOf tenant && row.worker = some workerId) (·.renewed leaseUntil)).2)

/-- `SurrealOutboxStore::revive`. -/
def revive (rows : OutboxRows) (tenant : TenantId) (id : Id) (time : Int64) :
    TxResult Unit × OutboxRows :=
  (.ok (), (settle rows tenant id (·.revived time)).2)

/-- `SurrealOutboxStore::get`. -/
def get (rows : OutboxRows) (tenant : TenantId) (id : Id) : TxResult (Option OutboxMessage) :=
  match selectSingle rows tenant id with
  | none => .ok none
  | some row => (messageFromRow "outbox fetch" row).map some

/-- The row of a message is read as the message. -/
theorem messageFromRow_toRow (context : String) (message : OutboxMessage) :
    messageFromRow context (outboxDocFromMessage message).toRow = .ok message := by
  rw [messageFromRow, decodeOutboxRow_toRow]
  exact outboxMessageFromDoc_docFromMessage message

section Enqueue

variable {rows : OutboxRows} {message : NewOutboxMessage} {row : OutboxRow}

/-- An id that is taken is refused. -/
theorem enqueue_of_get (createdAt notBefore : Int64)
    (hget : rows.get (recordIdFor outboxTable message.tenant message.id.asStr) = some row) :
    enqueue rows message createdAt notBefore =
      (.error (mapStorageError (.conflict "record already exists")), rows) := by
  have hid : (outboxDocFromMessage (buildOutboxMessage message createdAt notBefore)).id =
      recordIdFor outboxTable message.tenant message.id.asStr := rfl
  simp only [enqueue, hid, Records.create, hget]

/-- An id that is free gets a row. -/
theorem enqueue_of_get_eq_none (createdAt notBefore : Int64)
    (hget : rows.get (recordIdFor outboxTable message.tenant message.id.asStr) = none) :
    enqueue rows message createdAt notBefore =
      (.ok (buildOutboxMessage message createdAt notBefore),
        rows.put (recordIdFor outboxTable message.tenant message.id.asStr)
          (outboxDocFromMessage (buildOutboxMessage message createdAt notBefore)).toRow) := by
  have hid : (outboxDocFromMessage (buildOutboxMessage message createdAt notBefore)).id =
      recordIdFor outboxTable message.tenant message.id.asStr := rfl
  simp only [enqueue, hid, Records.create_of_get_eq_none hget, messageFromRow_toRow]

end Enqueue

/-! ## What settling does -/

section Settle

variable {rows : OutboxRows} {tenant : TenantId} {id : Id} {row : OutboxRow}
variable {change : OutboxRow → OutboxRow}

theorem settle_of_get (hget : rows.get (recordIdFor outboxTable tenant id.asStr) = some row)
    (htenant : row.isOf tenant = true) :
    settle rows tenant id change =
      (some (change row), rows.put (recordIdFor outboxTable tenant id.asStr) (change row)) :=
  Records.update_of_select (Records.select_of_get hget htenant)

theorem settle_of_get_eq_none
    (hget : rows.get (recordIdFor outboxTable tenant id.asStr) = none) :
    settle rows tenant id change = (none, rows) :=
  Records.update_of_select_eq_none (Records.select_of_get_eq_none hget)

end Settle

section Lease

variable {rows : OutboxRows} {tenant : TenantId} {now : Int64} {batch : Nat}
variable {worker : String} {order : List String}

/-- The message in a leased row. -/
def leasedMessage (worker : String) (leaseUntil : Int64) (row : OutboxRow) : OutboxMessage where
  id := ⟨row.messageId⟩
  tenant := ⟨row.tenant⟩
  envelopeId := ⟨row.envelopeId⟩
  topic := row.topic
  payload := row.payload
  createdAt := row.createdAt
  notBefore := row.notBefore
  attempts := .ofNat row.attempts
  status := .leased
  lastError := row.lastError
  dispatchKey := row.dispatchKey
  leaseUntil := some leaseUntil
  worker := some worker

theorem messageFromRow_leased {row : OutboxRow} (h : row.attempts < UInt32.size)
    (context worker : String) (leaseUntil : Int64) :
    messageFromRow context (row.leased worker leaseUntil) =
      .ok (leasedMessage worker leaseUntil row) := by
  have hdecode : decodeOutboxRow context (row.leased worker leaseUntil) = .ok _ := if_pos h
  rw [messageFromRow, hdecode]
  rfl

/-- Without grouping and with room for all of them, every candidate is leased. -/
theorem leaseLoop_all (leaseUntil : Int64) (found : List OutboxRow)
    (selected : List OutboxMessage) (seenKeys : List String) (rows : OutboxRows)
    (hfound : ∀ row ∈ found, rows.get row.id = some row ∧
      row.isCandidate tenant now worker = true ∧ row.attempts < UInt32.size)
    (hnodup : (found.map (·.id)).Nodup) (hroom : selected.length + found.length ≤ batch) :
    leaseLoop tenant now leaseUntil batch worker false (found.map (·.toDoc)) selected seenKeys
        rows =
      (.ok (selected ++ found.map (leasedMessage worker leaseUntil)),
        (found.map (·.id)).foldl (fun rows id => (rows.update id
          (·.isCandidate tenant now worker) (·.leased worker leaseUntil)).2) rows) := by
  induction found generalizing selected seenKeys rows with
  | nil => simp [leaseLoop]
  | cons row rest ih =>
      obtain ⟨hget, hcandidate, hcount⟩ := hfound row List.mem_cons_self
      obtain ⟨hfresh, hrest⟩ := List.nodup_cons.mp hnodup
      have hupdate : rows.update row.id (·.isCandidate tenant now worker)
          (·.leased worker leaseUntil) = (some _, _) :=
        Records.update_of_select (Records.select_of_get hget hcandidate)
      have hlease : tryLease rows tenant row.toDoc now leaseUntil worker =
          (.ok (some (leasedMessage worker leaseUntil row)), (rows.update row.id
            (·.isCandidate tenant now worker) (·.leased worker leaseUntil)).2) := by
        have hid : row.toDoc.id = row.id := rfl
        simp only [tryLease, hid, hupdate, messageFromRow_leased hcount, Except.map]
      have hothers : ∀ other ∈ rest, (rows.update row.id (·.isCandidate tenant now worker)
          (·.leased worker leaseUntil)).2.get other.id = some other ∧
            other.isCandidate tenant now worker = true ∧ other.attempts < UInt32.size := by
        intro other hother
        have hne : other.id ≠ row.id :=
          fun hsame => hfresh (List.mem_map.mpr ⟨other, hother, hsame⟩)
        rw [Records.get_update_of_ne hne]
        exact hfound other (List.mem_cons_of_mem _ hother)
      rw [List.length_cons] at hroom
      have hmore : (selected ++ [leasedMessage worker leaseUntil row]).length + rest.length ≤
          batch := by
        rw [List.length_append, List.length_singleton]
        omega
      rw [List.map_cons, leaseLoop, if_neg (by simp), hlease]
      by_cases hfull : (selected ++ [leasedMessage worker leaseUntil row]).length ≥ batch
      · obtain rfl : rest = [] := List.length_eq_zero_iff.mp (by omega)
        exact if_pos hfull
      · refine (if_neg hfull).trans ?_
        rw [Option.toList_some, ih _ _ _ hothers hrest hmore, List.append_assoc,
          List.singleton_append]
        rfl

/-- There are at most as many rows that meet a condition as there are rows. -/
theorem length_selected_le (horder : rows.Enumerates order) (hbatch : rows.keys.length ≤ batch)
    (condition : OutboxRow → Bool) :
    ((rows.selectWhere order condition).insertionSort OutboxFields.ComesBefore).length ≤
      batch := by
  rw [List.length_insertionSort]
  calc (rows.selectWhere order condition).length
      ≤ (rows.valuesIn order).length := List.length_filter_le _ _
    _ ≤ order.length := List.length_filterMap_le _ _
    _ = rows.keys.length := horder.length_eq
    _ ≤ batch := hbatch

/-- With room for all of them, the candidates are the rows that meet the condition. -/
theorem mem_candidates (horder : rows.Enumerates order) (hbatch : rows.keys.length ≤ batch)
    (tenant : TenantId) (now : Int64) (worker : String) (row : OutboxRow) :
    row ∈ candidates rows order tenant now worker (prefetch batch) ↔
      (∃ id, rows.get id = some row) ∧ row.isCandidate tenant now worker = true := by
  have hroom : rows.keys.length ≤ prefetch batch := hbatch.trans (Nat.le_max_right _ _)
  rw [candidates, List.take_of_length_le (length_selected_le horder hroom _),
    List.mem_insertionSort, Records.mem_selectWhere]
  apply and_congr_left
  intro _
  constructor
  · rintro ⟨id, _, hget⟩
    exact ⟨id, hget⟩
  · rintro ⟨id, hget⟩
    have hmem : id ∈ rows.keys := AList.lookup_isSome.mp (Option.isSome_of_eq_some hget)
    exact ⟨id, horder.mem_iff.mpr hmem, hget⟩

/-- Every row lies under its id. -/
def Keyed (rows : OutboxRows) : Prop := ∀ id row, rows.get id = some row → row.id = id

/-- No candidate is returned twice. -/
theorem nodup_candidates (hkeyed : Keyed rows) (horder : rows.Enumerates order)
    (tenant : TenantId) (now : Int64) (worker : String) (limit : Nat) :
    ((candidates rows order tenant now worker limit).map (·.id)).Nodup := by
  have hall : ((rows.valuesIn order).map (·.id)).Nodup :=
    horder.nodup.sublist (HashMap.map_valuesIn_sublist hkeyed order)
  have hsublist : (rows.selectWhere order (·.isCandidate tenant now worker)).Sublist
      (rows.valuesIn order) := List.filter_sublist
  have hsome := hall.sublist (hsublist.map (·.id))
  have hsorted := ((List.perm_insertionSort OutboxFields.ComesBefore
    (rows.selectWhere order (·.isCandidate tenant now worker))).map (·.id)).nodup_iff.mpr hsome
  exact hsorted.sublist ((List.take_sublist _ _).map _)

/-- Without grouping and with room for all rows, exactly the candidates are leased, as long
as all of them can be read. -/
theorem leaseBatch_all (hkeyed : Keyed rows) (horder : rows.Enumerates order)
    (hbatch : rows.keys.length ≤ batch) (leaseMs : Int64)
    (hcount : ∀ id row, rows.get id = some row → row.isCandidate tenant now worker = true →
      row.attempts < UInt32.size) :
    ∃ messages, (leaseBatch rows tenant now leaseMs batch worker false order).1 = .ok messages ∧
      (∀ message, message ∈ messages ↔ ∃ id row, rows.get id = some row ∧
        row.isCandidate tenant now worker = true ∧
          leasedMessage worker (now + leaseMs) row = message) ∧
      ∀ id, (leaseBatch rows tenant now leaseMs batch worker false order).2.get id =
        (rows.get id).map (Records.updated (·.isCandidate tenant now worker)
          (·.leased worker (now + leaseMs))) := by
  have hmem := mem_candidates horder hbatch tenant now worker
  have hdecoded : decodeVec (decodeOutboxRow "outbox select")
      (candidates rows order tenant now worker (prefetch batch)) =
        .ok ((candidates rows order tenant now worker (prefetch batch)).map (·.toDoc)) := by
    apply decodeVec_of_ok
    intro row hrow
    obtain ⟨⟨id, hget⟩, hcandidate⟩ := (hmem row).mp hrow
    exact if_pos (hcount id row hget hcandidate)
  have hfound : ∀ row ∈ candidates rows order tenant now worker (prefetch batch),
      rows.get row.id = some row ∧ row.isCandidate tenant now worker = true ∧
        row.attempts < UInt32.size := by
    intro row hrow
    obtain ⟨⟨id, hget⟩, hcandidate⟩ := (hmem row).mp hrow
    obtain rfl := hkeyed id row hget
    exact ⟨hget, hcandidate, hcount _ row hget hcandidate⟩
  have hnodup := nodup_candidates hkeyed horder tenant now worker (prefetch batch)
  have hroom : ([] : List OutboxMessage).length +
      (candidates rows order tenant now worker (prefetch batch)).length ≤ batch := by
    rw [List.length_nil, Nat.zero_add]
    exact (List.length_take_le' _ _).trans (length_selected_le horder hbatch _)
  have hloop := leaseLoop_all (now + leaseMs) _ [] [] rows hfound hnodup hroom
  unfold leaseBatch
  simp only [hdecoded, hloop]
  refine ⟨_, rfl, ?_, ?_⟩
  · intro message
    simp only [List.nil_append, List.mem_map, hmem]
    constructor
    · rintro ⟨row, ⟨⟨id, hget⟩, hcandidate⟩, rfl⟩
      exact ⟨id, row, hget, hcandidate, rfl⟩
    · rintro ⟨id, row, hget, hcandidate, rfl⟩
      exact ⟨row, ⟨⟨id, hget⟩, hcandidate⟩, rfl⟩
  · intro id
    rw [Records.get_foldl_update _ hnodup]
    split
    · rfl
    · rename_i hnot
      cases hget : rows.get id with
      | none => rfl
      | some row =>
          have hother : row.isCandidate tenant now worker = false := by
            rw [Bool.eq_false_iff]
            intro hcandidate
            apply hnot
            rw [← hkeyed id row hget]
            exact List.mem_map_of_mem ((hmem row).mpr ⟨⟨id, hget⟩, hcandidate⟩)
          simp [Records.updated, hother]

/-- A candidate that cannot be read makes the call fail. -/
theorem leaseBatch_of_unread (horder : rows.Enumerates order) (hbatch : rows.keys.length ≤ batch)
    {id : String} {row : OutboxRow} (hget : rows.get id = some row)
    (hcandidate : row.isCandidate tenant now worker = true)
    (hunread : ¬row.attempts < UInt32.size) (leaseMs : Int64) :
    ∃ error, (leaseBatch rows tenant now leaseMs batch worker false order).1 = .error error := by
  have hmem := (mem_candidates horder hbatch tenant now worker row).mpr ⟨⟨id, hget⟩, hcandidate⟩
  have hdecode : decodeOutboxRow "outbox select" row = .error _ := if_neg hunread
  obtain ⟨error, herror⟩ := decodeVec_of_error hmem hdecode
  unfold leaseBatch
  exact ⟨error, by simp only [herror]⟩

end Lease

end SurrealOutboxStore

end Soulbase.Tx
