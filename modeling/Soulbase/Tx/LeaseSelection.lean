/-
# Leasing what would be selected

`lease_batch` of the SurrealDB store lets the database sort the messages of a tenant and cut them
off after four times the batch, and drops those whose dispatch key has come up before only then.
It leases what `select_messages` returns on all messages in that order if the cut leaves enough
keys, if no pending message has a lease, and if neither the product with four, nor the capacity
for the batch, nor the end of the lease is out of range.
-/

import Mathlib.Algebra.Group.Nat.Defs
import Soulbase.Tx.SelectMessages
import Soulbase.Tx.Surreal.OutboxStore

namespace Soulbase.Tx

open Soulbase.Foundation

section Sorting

variable {α : Type*} {r : α → α → Prop} [DecidableRel r] {p : α → Bool}

theorem filter_orderedInsert [IsTrans α r] (element : α) {list : List α}
    (hsorted : list.Pairwise r) :
    (list.orderedInsert r element).filter p =
      if p element then (list.filter p).orderedInsert r element else list.filter p := by
  induction list with
  | nil => cases hp : p element <;> simp [hp]
  | cons head rest ih =>
      obtain ⟨hhead, hrest⟩ := List.pairwise_cons.mp hsorted
      by_cases hle : r element head
      case neg =>
        rw [List.orderedInsert, if_neg hle, List.filter_cons, ih hrest, List.filter_cons]
        cases p element <;> cases p head <;> simp [hle]
      case pos =>
        have hfirst : ∀ later ∈ (head :: rest).filter p, r element later := by
          intro later hlater
          rcases List.mem_cons.mp (List.mem_of_mem_filter hlater) with rfl | hmem
          · exact hle
          · exact IsTrans.trans _ _ _ hle (hhead later hmem)
        rw [List.orderedInsert_cons_of_le _ _ hle, List.filter_cons]
        cases hsome : (head :: rest).filter p with
        | nil => rfl
        | cons first others =>
            rw [hsome] at hfirst
            rw [List.orderedInsert_cons_of_le _ _ (hfirst first List.mem_cons_self)]

/-- What is left of a sorted list is sorted as it was. -/
theorem filter_insertionSort [IsTrans α r] [Std.Total r] (list : List α) :
    (list.insertionSort r).filter p = (list.filter p).insertionSort r := by
  induction list with
  | nil => rfl
  | cons head rest ih =>
      rw [List.insertionSort_cons, filter_orderedInsert _ (List.pairwise_insertionSort _ _), ih,
        List.filter_cons]
      split <;> rfl

end Sorting

/-- The row of a message. -/
def messageRow (message : OutboxMessage) : OutboxRow := (outboxDocFromMessage message).toRow

/-- The messages that a table holds, in an order in which it yields them. -/
structure Yields (rows : OutboxRows) (order : List String) (messages : List OutboxMessage) :
    Prop where
  enumerates : rows.Enumerates order
  keyed : SurrealOutboxStore.Keyed rows
  values : rows.valuesIn order = messages.map messageRow

/-- The order by `not_before` and `created_at`. -/
def OutboxMessage.ComesBefore (message other : OutboxMessage) : Prop :=
  message.notBefore < other.notBefore ∨
    message.notBefore = other.notBefore ∧ message.createdAt ≤ other.createdAt

instance : DecidableRel OutboxMessage.ComesBefore := by
  intro message other
  unfold OutboxMessage.ComesBefore
  infer_instance

instance : IsTrans OutboxMessage OutboxMessage.ComesBefore where
  trans first second third := by
    unfold OutboxMessage.ComesBefore
    simp only [Int64.lt_iff_toInt_lt, Int64.le_iff_toInt_le, ← Int64.toInt_inj]
    omega

instance : Std.Total OutboxMessage.ComesBefore where
  total first second := by
    unfold OutboxMessage.ComesBefore
    simp only [Int64.lt_iff_toInt_lt, Int64.le_iff_toInt_le, ← Int64.toInt_inj]
    omega

/-- The messages of a tenant, listed by `not_before` and `created_at`. -/
def listed (tenant : TenantId) (messages : List OutboxMessage) : List OutboxMessage :=
  (messages.filter (·.tenant = tenant)).insertionSort OutboxMessage.ComesBefore

/-- A message whose row meets the condition of `SELECT_CANDIDATES`. The lease of a pending one
is not looked at. -/
structure OutboxMessage.Offered (message : OutboxMessage) (tenant : TenantId) (nowMs : Int64)
    (workerId : String) : Prop where
  tenant_eq : message.tenant = tenant
  waiting : message.status = .pending ∨ message.status = .leased
  due : message.notBefore ≤ nowMs
  unleased : message.status = .leased → ∀ leaseUntil, message.leaseUntil = some leaseUntil →
    nowMs < leaseUntil → message.worker = some workerId

section Rows

variable {rows : OutboxRows} {order : List String} {messages : List OutboxMessage}
variable {tenant : TenantId} {nowMs : Int64} {workerId : String} {message : OutboxMessage}

theorem OutboxMessage.Eligible.offered (h : message.Eligible tenant nowMs workerId) :
    message.Offered tenant nowMs workerId :=
  ⟨h.tenant_eq, h.waiting, h.due, fun _ => h.unleased⟩

theorem isCandidate_messageRow :
    (messageRow message).isCandidate tenant nowMs workerId = true ↔
      message.Offered tenant nowMs workerId := by
  have hstatus : (messageRow message).status = outboxStatusToStr message.status := rfl
  have hrow : (messageRow message).isOf tenant = true ↔ message.tenant = tenant := by
    rw [OutboxFields.isOf, decide_eq_true_iff, TenantId.ext_iff]
    rfl
  have hlease : ((messageRow message).leaseExpired nowMs = true ∨
      (messageRow message).worker = some workerId) ↔
        ∀ leaseUntil, message.leaseUntil = some leaseUntil → nowMs < leaseUntil →
          message.worker = some workerId := by
    rw [OutboxFields.leaseExpired_eq_true_iff]
    change (∀ leaseUntil, message.leaseUntil = some leaseUntil → leaseUntil ≤ nowMs) ∨
      message.worker = some workerId ↔ _
    cases message.leaseUntil with
    | none => simp
    | some leaseUntil =>
        simp only [Option.some.injEq, forall_eq', ← Int64.not_lt]
        tauto
  unfold OutboxFields.isCandidate
  rw [Bool.and_eq_true, Bool.and_eq_true, Bool.and_eq_true, Bool.or_eq_true, Bool.or_eq_true,
    Bool.or_eq_true, hrow, hstatus]
  simp only [decide_eq_true_eq, or_assoc, hlease]
  constructor
  · rintro ⟨⟨⟨htenant, hwaiting⟩, hdue⟩, hfree⟩
    refine ⟨htenant, ?_, hdue, ?_⟩
    · cases hcase : message.status <;> simp [hcase, outboxStatusToStr] at hwaiting ⊢
    · intro hleased
      rw [hleased] at hfree
      exact hfree.resolve_left (by decide)
  · rintro ⟨htenant, hwaiting, hdue, hfree⟩
    refine ⟨⟨⟨htenant, ?_⟩, hdue⟩, ?_⟩
    · rcases hwaiting with h | h <;> simp [h, outboxStatusToStr]
    · rcases hwaiting with h | h
      · exact .inl (by rw [h]; rfl)
      · exact .inr (hfree h)

instance : Decidable (message.Offered tenant nowMs workerId) :=
  decidable_of_iff _ isCandidate_messageRow

/-- The candidates, all of them, in their order. -/
def offered (tenant : TenantId) (nowMs : Int64) (workerId : String)
    (messages : List OutboxMessage) : List OutboxMessage :=
  (listed tenant messages).filter (·.Offered tenant nowMs workerId)

theorem Yields.get (h : Yields rows order messages) (hmem : message ∈ messages) :
    rows.get (messageRow message).id = some (messageRow message) := by
  have hvalue : messageRow message ∈ rows.valuesIn order := by
    rw [h.values]
    exact List.mem_map_of_mem hmem
  obtain ⟨id, hget⟩ := h.enumerates.mem_valuesIn.mp hvalue
  rw [h.keyed id _ hget]
  exact hget

theorem Yields.candidates_eq (h : Yields rows order messages) (limit : ℕ) :
    SurrealOutboxStore.candidates rows order tenant nowMs workerId limit =
      ((offered tenant nowMs workerId messages).take limit).map messageRow := by
  have hcondition : (fun message => (messageRow message).isCandidate tenant nowMs workerId) =
      fun message => decide (message.Offered tenant nowMs workerId) := by
    funext message
    rw [Bool.eq_iff_iff, isCandidate_messageRow, decide_eq_true_iff]
  have hoffered : offered tenant nowMs workerId messages =
      (messages.filter (·.Offered tenant nowMs workerId)).insertionSort
        OutboxMessage.ComesBefore := by
    rw [offered, listed, filter_insertionSort, List.filter_filter]
    congr 1
    apply List.filter_congr
    intro message _
    by_cases hoffered : message.Offered tenant nowMs workerId
    · simp [hoffered, hoffered.tenant_eq]
    · simp [hoffered]
  have hsorted : ∀ kept : List OutboxMessage,
      (kept.map messageRow).insertionSort OutboxFields.ComesBefore =
        (kept.insertionSort OutboxMessage.ComesBefore).map messageRow :=
    fun kept => (List.map_insertionSort _ _ messageRow kept fun _ _ _ _ => Iff.rfl).symm
  rw [SurrealOutboxStore.candidates, Records.selectWhere, h.values, List.filter_map, hoffered,
    List.map_take, hsorted]
  exact congrArg (fun kept => (((List.filter kept messages).insertionSort
    OutboxMessage.ComesBefore).map messageRow).take limit) hcondition

theorem Yields.nodup_offered (h : Yields rows order messages) :
    ((offered tenant nowMs workerId messages).map fun message =>
      (messageRow message).id).Nodup := by
  have hvalues := h.enumerates.nodup.sublist (HashMap.map_valuesIn_sublist h.keyed order)
  rw [h.values, List.map_map] at hvalues
  have hperm : (listed tenant messages).Perm (messages.filter (·.tenant = tenant)) :=
    List.perm_insertionSort _ _
  have hsublist : ((messages.filter (·.tenant = tenant)).map
      fun message => (messageRow message).id).Nodup := hvalues.sublist (List.filter_sublist.map _)
  exact ((hperm.map _).nodup_iff.mpr hsublist).sublist (List.filter_sublist.map _)

theorem mem_of_mem_offered (h : message ∈ offered tenant nowMs workerId messages) :
    message ∈ messages ∧ message.Offered tenant nowMs workerId := by
  obtain ⟨hlisted, hoffered⟩ := List.mem_filter.mp h
  have hmem := (List.perm_insertionSort _ _).mem_iff.mp hlisted
  exact ⟨List.mem_of_mem_filter hmem, of_decide_eq_true hoffered⟩

/-- The eligible messages of the tenant are among the candidates. -/
theorem filter_eligible_offered :
    (offered tenant nowMs workerId messages).filter (·.Eligible tenant nowMs workerId) =
      (listed tenant messages).filter (·.Eligible tenant nowMs workerId) := by
  rw [offered, List.filter_filter]
  apply List.filter_congr
  intro message _
  by_cases heligible : message.Eligible tenant nowMs workerId
  · simp [heligible, heligible.offered]
  · simp [heligible]

end Rows

namespace SurrealOutboxStore

section Leasing

variable {rows : OutboxRows} {tenant : TenantId} {nowMs : Int64} {batch : ℕ}
variable {workerId : String} {groupByKey : Bool}

/-- The loop leases the first candidates of the keys that are new, one at least. -/
theorem leaseLoop_eq_take (leaseUntil : Int64) (found : List OutboxMessage)
    (selected : List OutboxMessage) (before : List OutboxMessage)
    (hfound : ∀ message ∈ found, rows.get (messageRow message).id = some (messageRow message) ∧
      message.Offered tenant nowMs workerId)
    (hnodup : (found.map fun message => (messageRow message).id).Nodup) :
    let taken := ((firstOfEach (groupKey groupByKey) found).filter
      (Unseen (groupKey groupByKey) before)).take (max 1 (batch - selected.length))
    leaseLoop tenant nowMs leaseUntil batch workerId groupByKey
        (found.map outboxDocFromMessage) selected (keysOf groupByKey before) rows =
      (.ok (selected ++ taken.map fun message =>
          leasedMessage workerId leaseUntil (messageRow message)),
        (taken.map fun message => (messageRow message).id).foldl (fun rows id =>
          (rows.update id (·.isCandidate tenant nowMs workerId)
            (·.leased workerId leaseUntil)).2) rows) := by
  induction found generalizing selected before rows with
  | nil => simp [leaseLoop, firstOfEach]
  | cons message rest ih =>
      obtain ⟨hget, hoffered⟩ := hfound message List.mem_cons_self
      obtain ⟨hfresh, hrest⟩ := List.nodup_cons.mp hnodup
      have hothers := fun other hother => hfound other (List.mem_cons_of_mem message hother)
      intro taken
      rw [List.map_cons, leaseLoop]
      by_cases hunseen : Unseen (groupKey groupByKey) before message
      case neg =>
        have htaken : taken = _ := congrArg (List.take _)
          ((filter_unseen_cons before message rest).trans (if_neg hunseen))
        rw [htaken]
        exact (if_pos ((repeatsKey_keysOf before).mpr hunseen)).trans
          (ih selected before hothers hrest)
      case pos =>
        have htaken : taken = _ := congrArg (List.take _)
          ((filter_unseen_cons before message rest).trans (if_pos hunseen))
        have hnew : ¬repeatsKey groupByKey message (keysOf groupByKey before) = true :=
          fun h => (repeatsKey_keysOf before).mp h hunseen
        have hcandidate := isCandidate_messageRow.mpr hoffered
        have hcount : (messageRow message).attempts < UInt32.size :=
          UInt32.toNat_lt_size message.attempts
        have hupdate : rows.update (messageRow message).id
            (·.isCandidate tenant nowMs workerId) (·.leased workerId leaseUntil) = (some _, _) :=
          Records.update_of_select (Records.select_of_get hget hcandidate)
        have hlease : tryLease rows tenant (outboxDocFromMessage message) nowMs leaseUntil
            workerId = (.ok (some (leasedMessage workerId leaseUntil (messageRow message))),
              (rows.update (messageRow message).id (·.isCandidate tenant nowMs workerId)
                (·.leased workerId leaseUntil)).2) := by
          have hid : (outboxDocFromMessage message).id = (messageRow message).id := rfl
          simp only [tryLease, hid, hupdate, messageFromRow_leased hcount, Except.map]
        have hlength : (selected ++ [leasedMessage workerId leaseUntil
            (messageRow message)]).length = selected.length + 1 := by
          rw [List.length_append, List.length_singleton]
        refine (if_neg hnew).trans ?_
        rw [hlease, htaken]
        by_cases hfull : (selected ++ [leasedMessage workerId leaseUntil
            (messageRow message)]).length ≥ batch
        · have hone : max 1 (batch - selected.length) = 1 := by omega
          rw [hone]
          exact if_pos hfull
        · have hmore : max 1 (batch - selected.length) =
              max 1 (batch - (selected.length + 1)) + 1 := by omega
          have hkept : ∀ other ∈ rest, (rows.update (messageRow message).id
              (·.isCandidate tenant nowMs workerId) (·.leased workerId leaseUntil)).2.get
                (messageRow other).id = some (messageRow other) ∧
                  other.Offered tenant nowMs workerId := by
            intro other hother
            have hne : (messageRow other).id ≠ (messageRow message).id :=
              fun hsame => hfresh (List.mem_map.mpr ⟨other, hother, hsame⟩)
            rw [Records.get_update_of_ne hne]
            exact hothers other hother
          have hlater := ih (selected ++ [leasedMessage workerId leaseUntil (messageRow message)])
            (message :: before) hkept hrest
          rw [hlength, ← seenAfter_keysOf] at hlater
          rw [hmore, List.take_succ_cons, List.map_cons, List.map_cons, List.foldl_cons,
            List.append_cons]
          exact (if_neg hfull).trans hlater

variable {order : List String} {messages : List OutboxMessage} {leaseMs : Int64}

/-- What `lease_batch` does to the messages of a table. -/
theorem leaseBatch_of_yields (h : Yields rows order messages) :
    let found := (offered tenant nowMs workerId messages).take (prefetch batch)
    let taken := (firstOfEach (groupKey groupByKey) found).take (max 1 batch)
    decodeVec (decodeOutboxRow "outbox select")
        (candidates rows order tenant nowMs workerId (prefetch batch)) =
      .ok (found.map outboxDocFromMessage) ∧
    ∃ after, leaseBatch rows tenant nowMs leaseMs batch workerId groupByKey order =
        (.ok (taken.map fun message =>
          leasedMessage workerId (nowMs + leaseMs) (messageRow message)), after) ∧
      ∀ id, after.get id =
        if id ∈ taken.map fun message => (messageRow message).id then
          (rows.get id).map (·.leased workerId (nowMs + leaseMs))
        else rows.get id := by
  intro found taken
  have hdoc : ∀ message : OutboxMessage,
      (messageRow message).toDoc = outboxDocFromMessage message := by
    intro message
    simp [messageRow, OutboxFields.toRow, OutboxFields.toDoc]
  have hdecoded : decodeVec (decodeOutboxRow "outbox select")
      (candidates rows order tenant nowMs workerId (prefetch batch)) =
        .ok (found.map outboxDocFromMessage) := by
    have hdocs : found.map outboxDocFromMessage = (found.map messageRow).map (·.toDoc) := by
      rw [List.map_map]
      exact List.map_congr_left fun message _ => (hdoc message).symm
    rw [h.candidates_eq, hdocs]
    apply decodeVec_of_ok
    intro row hrow
    obtain ⟨message, _, rfl⟩ := List.mem_map.mp hrow
    exact (decodeOutboxRow_toRow _ _).trans (congrArg _ (hdoc message).symm)
  have hfound : ∀ message ∈ found, rows.get (messageRow message).id = some (messageRow message) ∧
      message.Offered tenant nowMs workerId := by
    intro message hmessage
    obtain ⟨hmem, hoffered⟩ := mem_of_mem_offered (List.mem_of_mem_take hmessage)
    exact ⟨h.get hmem, hoffered⟩
  have hnodup : (found.map fun message => (messageRow message).id).Nodup :=
    h.nodup_offered.sublist ((List.take_sublist _ _).map _)
  have hloop := @leaseLoop_eq_take rows tenant nowMs batch workerId groupByKey
    (nowMs + leaseMs) found [] [] hfound hnodup
  have htaken : ((firstOfEach (groupKey groupByKey) found).filter
      (Unseen (groupKey groupByKey) [])).take (max 1 (batch - ([] : List OutboxMessage).length)) =
        taken := by
    rw [List.filter_eq_self.mpr fun _ _ => by simp [Unseen]]
    rfl
  simp only [htaken, List.nil_append] at hloop
  have hleased : leaseBatch rows tenant nowMs leaseMs batch workerId groupByKey order =
      leaseLoop tenant nowMs (nowMs + leaseMs) batch workerId groupByKey
        (found.map outboxDocFromMessage) [] [] rows := by
    unfold leaseBatch
    simp only [hdecoded]
  refine ⟨hdecoded, _, hleased.trans hloop, fun id => ?_⟩
  have hsublist : taken.Sublist found :=
    (List.take_sublist _ _).trans (firstOfEach_sublist found)
  rw [Records.get_foldl_update _ (hnodup.sublist (hsublist.map _))]
  split
  case isFalse => rfl
  case isTrue hmem =>
    obtain ⟨message, hmessage, rfl⟩ := List.mem_map.mp hmem
    obtain ⟨hget, hoffered⟩ := hfound message (hsublist.subset hmessage)
    rw [hget, Option.map_some, Option.map_some, Records.updated,
      if_pos (isCandidate_messageRow.mpr hoffered)]

end Leasing

/-! ## Panics -/

/-- What the compiler makes of the code: whether an overflow panics, and
`size_of::<OutboxMessage>()`. -/
structure Build where
  overflowChecks : Bool
  messageSize : ℕ

/-- A sum of `i64` overflows. -/
def Overflows (left right : Int64) : Prop := (left + right).toInt ≠ left.toInt + right.toInt

instance (left right : Int64) : Decidable (Overflows left right) :=
  inferInstanceAs (Decidable (_ ≠ _))

section Calls

variable (build : Build) (tenant : TenantId) (nowMs leaseMs : Int64) (batch : ℕ)
variable (workerId : String) (groupByKey : Bool)

/-- `lease_batch`, or `none` where it panics: at `batch * 4`, at `Vec::with_capacity(batch)`, or at
the end of the first lease. -/
def leaseBatchOrPanic (rows : OutboxRows) (order : List String) :
    Option (TxResult (List OutboxMessage) × OutboxRows) :=
  if build.overflowChecks ∧ UInt64.size ≤ batch * 4 then none
  else
    match decodeVec (decodeOutboxRow "outbox select")
      (candidates rows order tenant nowMs workerId (prefetch batch)) with
    | .error error => some (.error error, rows)
    | .ok docs =>
        if 2 ^ 63 ≤ batch * build.messageSize then none
        else if build.overflowChecks ∧ docs ≠ [] ∧ Overflows nowMs leaseMs then none
        else some (leaseBatch rows tenant nowMs leaseMs batch workerId groupByKey order)

/-- `lease_batch` leases what `select_messages` returns on the listed messages: it returns them,
their rows are leased to the worker, and nothing else is changed. -/
structure LeasesSelected (rows : OutboxRows) (order : List String) (messages : List OutboxMessage)
    (leased : List OutboxMessage) (after : OutboxRows) : Prop where
  returned : leaseBatchOrPanic build tenant nowMs leaseMs batch workerId groupByKey rows order =
    some (.ok leased, after)
  selected : leased.map (·.id) =
    selectMessages (listed tenant messages) tenant nowMs batch workerId groupByKey
  rows_eq : ∀ id, after.get id =
    if id ∈ leased.map fun message => (messageRow message).id then
      (rows.get id).map (·.leased workerId (nowMs + leaseMs))
    else rows.get id

/-- Nothing is out of range, and of the candidates before the cut, none that has a lease of
another worker comes to be leased, and enough are eligible, or all eligible ones that come after
the cut only repeat their keys. -/
structure Suffices (messages : List OutboxMessage) : Prop where
  product : build.overflowChecks = true → batch * 4 < UInt64.size
  capacity : batch * build.messageSize < 2 ^ 63
  leaseEnd : build.overflowChecks = true → offered tenant nowMs workerId messages ≠ [] →
    ¬Overflows nowMs leaseMs
  unheld : ∀ before held after,
    (offered tenant nowMs workerId messages).take (prefetch batch) = before ++ held :: after →
      ¬held.Eligible tenant nowMs workerId → Unseen (groupKey groupByKey) before held →
        batch ≤ (firstOfEach (groupKey groupByKey) before).length
  enough :
    let eligible := ((offered tenant nowMs workerId messages).take (prefetch batch)).filter
      (·.Eligible tenant nowMs workerId)
    batch ≤ (firstOfEach (groupKey groupByKey) eligible).length ∨
      ∀ later ∈ (offered tenant nowMs workerId messages).drop (prefetch batch),
        later.Eligible tenant nowMs workerId → ¬Unseen (groupKey groupByKey) eligible later

end Calls

section Agreement

variable {build : Build} {rows : OutboxRows} {order : List String}
variable {messages : List OutboxMessage} {tenant : TenantId} {nowMs leaseMs : Int64} {batch : ℕ}
variable {workerId : String} {groupByKey : Bool}

/-- No two candidates have the same id. -/
theorem Yields.inj_offered (h : Yields rows order messages) {message other : OutboxMessage}
    (hmessage : message ∈ offered tenant nowMs workerId messages)
    (hother : other ∈ offered tenant nowMs workerId messages) (hid : message.id = other.id) :
    message = other := by
  refine List.inj_on_of_nodup_map h.nodup_offered hmessage hother ?_
  have htenant : message.tenant = other.tenant :=
    (mem_of_mem_offered hmessage).2.tenant_eq.trans (mem_of_mem_offered hother).2.tenant_eq.symm
  change recordIdFor outboxTable message.tenant message.id.asStr =
    recordIdFor outboxTable other.tenant other.id.asStr
  rw [htenant, hid]

theorem map_eq_map_iff_of_inj {α β : Type*} {f : α → β} {list other : List α}
    (hinj : ∀ a ∈ list, ∀ b ∈ other, f a = f b → a = b) :
    list.map f = other.map f ↔ list = other := by
  constructor
  · intro h
    induction list generalizing other with
    | nil => exact (List.map_eq_nil_iff.mp h.symm).symm
    | cons first rest ih =>
        cases other with
        | nil => cases h
        | cons first' rest' =>
            obtain ⟨hfirst, hrest⟩ := List.cons.inj h
            rw [hinj first List.mem_cons_self first' List.mem_cons_self hfirst,
              ih (fun a ha b hb => hinj a (List.mem_cons_of_mem _ ha) b
                (List.mem_cons_of_mem _ hb)) hrest]
  · exact congrArg _

/-- What is leased of the candidates before the cut is what is selected of all. -/
theorem selected_iff (h : Yields rows order messages) (hbatch : 1 ≤ batch) :
    ((firstOfEach (groupKey groupByKey)
        ((offered tenant nowMs workerId messages).take (prefetch batch))).take batch).map (·.id) =
      selectMessages (listed tenant messages) tenant nowMs batch workerId groupByKey ↔
    (∀ before held after,
      (offered tenant nowMs workerId messages).take (prefetch batch) = before ++ held :: after →
        ¬held.Eligible tenant nowMs workerId → Unseen (groupKey groupByKey) before held →
          batch ≤ (firstOfEach (groupKey groupByKey) before).length) ∧
    (batch ≤ (firstOfEach (groupKey groupByKey)
        (((offered tenant nowMs workerId messages).take (prefetch batch)).filter
          (·.Eligible tenant nowMs workerId))).length ∨
      ∀ later ∈ (offered tenant nowMs workerId messages).drop (prefetch batch),
        later.Eligible tenant nowMs workerId → ¬Unseen (groupKey groupByKey)
          (((offered tenant nowMs workerId messages).take (prefetch batch)).filter
            (·.Eligible tenant nowMs workerId)) later) := by
  rw [selectMessages_eq_take, Nat.max_eq_right hbatch, ← filter_eligible_offered]
  have hsplit := List.take_append_drop (prefetch batch) (offered tenant nowMs workerId messages)
  have hinj := @Yields.inj_offered rows order messages tenant nowMs workerId h
  generalize hall : offered tenant nowMs workerId messages = all at hsplit hinj
  generalize all.take (prefetch batch) = found at hsplit
  generalize all.drop (prefetch batch) = beyond at hsplit
  subst hsplit
  rw [map_eq_map_iff_of_inj, ← forall_mem_take_firstOfEach_iff]
  · have hlater : (∀ later ∈ beyond, later.Eligible tenant nowMs workerId →
        ¬Unseen (groupKey groupByKey) (found.filter (·.Eligible tenant nowMs workerId)) later) ↔
          ∀ later ∈ beyond.filter (·.Eligible tenant nowMs workerId),
            ¬Unseen (groupKey groupByKey) (found.filter (·.Eligible tenant nowMs workerId))
              later := by
      simp only [List.mem_filter, decide_eq_true_eq, and_imp]
    rw [hlater, ← take_firstOfEach_append, List.filter_append]
    constructor
    · intro hsame
      have heligible : ∀ message ∈ (firstOfEach (groupKey groupByKey) found).take batch,
          message.Eligible tenant nowMs workerId := by
        intro message hmessage
        rw [hsame, ← List.filter_append] at hmessage
        exact of_decide_eq_true (List.mem_filter.mp
          ((firstOfEach_sublist _).subset (List.mem_of_mem_take hmessage))).2
      exact ⟨heligible, (take_firstOfEach_filter heligible).trans hsame⟩
    · rintro ⟨heligible, hsame⟩
      exact (take_firstOfEach_filter heligible).symm.trans hsame
  · intro message hmessage other hother
    refine hinj (List.mem_append_left _ ?_) ?_
    · exact (firstOfEach_sublist _).subset (List.mem_of_mem_take hmessage)
    · exact List.mem_of_mem_filter ((firstOfEach_sublist _).subset (List.mem_of_mem_take hother))

/-- With at least one message to a batch, `lease_batch` leases what `select_messages` returns on the
messages listed by `not_before` and `created_at` if and only if the numbers are in range and the
candidates before the cut suffice. -/
theorem leasesSelected_iff_suffices (build : Build) (rows : OutboxRows) (order : List String)
    (messages : List OutboxMessage) (h : Yields rows order messages) (tenant : TenantId)
    (nowMs leaseMs : Int64) (batch : ℕ) (hbatch : 1 ≤ batch) (workerId : String)
    (groupByKey : Bool) :
    (∃ leased after, LeasesSelected build tenant nowMs leaseMs batch workerId groupByKey rows order
      messages leased after) ↔
        Suffices build tenant nowMs leaseMs batch workerId groupByKey messages := by
  obtain ⟨hdecoded, after, hleased, hafter⟩ :=
    @leaseBatch_of_yields rows tenant nowMs batch workerId groupByKey order messages leaseMs h
  have hselected :=
    @selected_iff rows order messages tenant nowMs batch workerId groupByKey h hbatch
  rw [Nat.max_eq_right hbatch] at hleased hafter
  have hnonempty : ((offered tenant nowMs workerId messages).take (prefetch batch)).map
      outboxDocFromMessage ≠ [] ↔ offered tenant nowMs workerId messages ≠ [] := by
    rw [Ne, List.map_eq_nil_iff, List.take_eq_nil_iff, prefetch]
    have : max (batch * 4 % UInt64.size) batch ≠ 0 := by omega
    tauto
  constructor
  · rintro ⟨leased, after', hreturned, hids, -⟩
    unfold leaseBatchOrPanic at hreturned
    split at hreturned
    case isTrue => cases hreturned
    case isFalse hproduct =>
      simp only [hdecoded] at hreturned
      split at hreturned
      case isTrue => cases hreturned
      case isFalse hcapacity =>
        split at hreturned
        case isTrue => cases hreturned
        case isFalse hsum =>
          rw [hleased] at hreturned
          obtain ⟨hok, rfl⟩ := Prod.mk.inj (Option.some.inj hreturned)
          cases hok
          rw [List.map_map] at hids
          obtain ⟨hunheld, henough⟩ := hselected.mp hids
          refine ⟨fun hchecks => ?_, Nat.lt_of_not_le hcapacity, fun hchecks hsome hover => ?_,
            hunheld, henough⟩
          · exact Nat.lt_of_not_le fun hle => hproduct ⟨hchecks, hle⟩
          · exact hsum ⟨hchecks, hnonempty.mpr hsome, hover⟩
  · rintro ⟨hproduct, hcapacity, hsum, hunheld, henough⟩
    have hids := hselected.mpr ⟨hunheld, henough⟩
    have hreturned : leaseBatchOrPanic build tenant nowMs leaseMs batch workerId groupByKey rows
        order = some (leaseBatch rows tenant nowMs leaseMs batch workerId groupByKey order) := by
      unfold leaseBatchOrPanic
      rw [if_neg fun h => Nat.not_le_of_lt (hproduct h.1) h.2]
      simp only [hdecoded]
      rw [if_neg (Nat.not_le_of_lt hcapacity), if_neg fun h => hsum h.1 (hnonempty.mp h.2.1) h.2.2]
    rw [hleased] at hreturned
    refine ⟨_, after, hreturned, ?_, fun id => ?_⟩
    · rw [List.map_map]
      exact hids
    · rw [hafter, List.map_map]
      rfl

end Agreement

/-- The table of some messages. -/
def tableOf : List OutboxMessage → OutboxRows
  | [] => ∅
  | message :: rest => (tableOf rest).put (messageRow message).id (messageRow message)

theorem keys_tableOf {messages : List OutboxMessage}
    (h : (messages.map fun message => (messageRow message).id).Nodup) :
    (tableOf messages).keys = messages.map fun message => (messageRow message).id := by
  induction messages with
  | nil => rfl
  | cons message rest ih =>
      obtain ⟨hfresh, hrest⟩ := List.nodup_cons.mp h
      rw [tableOf, HashMap.put, AList.keys_insert, ih hrest, List.erase_of_not_mem hfresh]
      rfl

theorem get_tableOf {messages : List OutboxMessage} {message : OutboxMessage}
    (h : (messages.map fun message => (messageRow message).id).Nodup) (hmem : message ∈ messages) :
    (tableOf messages).get (messageRow message).id = some (messageRow message) := by
  induction messages with
  | nil => cases hmem
  | cons first rest ih =>
      obtain ⟨hfresh, hrest⟩ := List.nodup_cons.mp h
      rw [tableOf, HashMap.get_put]
      rcases List.mem_cons.mp hmem with rfl | hlater
      · exact if_pos rfl
      · rw [if_neg fun hsame => hfresh (List.mem_map.mpr ⟨message, hlater, hsame⟩)]
        exact ih hrest hlater

theorem yields_tableOf {messages : List OutboxMessage}
    (h : (messages.map fun message => (messageRow message).id).Nodup) :
    Yields (tableOf messages) (messages.map fun message => (messageRow message).id) messages where
  enumerates := by rw [HashMap.Enumerates, keys_tableOf h]
  keyed := by
    intro id row hget
    have hkey : id ∈ (tableOf messages).keys :=
      AList.lookup_isSome.mp (Option.isSome_of_eq_some hget)
    rw [keys_tableOf h] at hkey
    obtain ⟨message, hmessage, rfl⟩ := List.mem_map.mp hkey
    rw [get_tableOf h hmessage] at hget
    rw [← Option.some.inj hget]
  values := by
    rw [HashMap.valuesIn, List.filterMap_map, ← List.filterMap_eq_map]
    exact List.filterMap_congr fun message hmessage => get_tableOf h hmessage

private def keyedMessage (id dispatchKey : String) : OutboxMessage :=
  buildOutboxMessage ⟨⟨id⟩, ⟨"acme"⟩, ⟨"e"⟩, "mail", .null, none, some dispatchKey⟩ 0 0

/-- Eight messages of a key, and one of another. -/
private def crowded : List OutboxMessage :=
  (["1", "2", "3", "4", "5", "6", "7", "8"].map (keyedMessage · "a")) ++ [keyedMessage "9" "b"]

private theorem nodup_crowded : (crowded.map fun message => (messageRow message).id).Nodup := by
  decide

private def release : Build := ⟨false, 280⟩

/-- Of the eight messages alone, a batch of 2 leases what would be selected. -/
theorem leasesSelected_oneKey :
    let messages := crowded.take 8
    1 ≤ 2 ∧ Yields (tableOf messages) (messages.map fun message => (messageRow message).id)
        messages ∧
      ∃ leased after, LeasesSelected release ⟨"acme"⟩ 0 1000 2 "w" true (tableOf messages)
        (messages.map fun message => (messageRow message).id) messages leased after := by
  intro messages
  have hyields : Yields (tableOf messages) (messages.map fun message => (messageRow message).id)
      messages :=
    yields_tableOf (nodup_crowded.sublist ((List.take_sublist _ _).map _))
  refine ⟨by decide, hyields, (leasesSelected_iff_suffices release _ _ messages hyields ⟨"acme"⟩ 0
    1000 2 (by decide) "w" true).mpr ⟨nofun, by decide, nofun, ?_, .inr (by decide)⟩⟩
  exact forall_mem_take_firstOfEach_iff.mp (by decide)

/-- Of all nine, a batch of 2 leases one message where two would be selected: the database cuts
the candidates off after eight. -/
theorem not_leasesSelected_crowded :
    Yields (tableOf crowded) (crowded.map fun message => (messageRow message).id) crowded ∧
      ¬ ∃ leased after, LeasesSelected release ⟨"acme"⟩ 0 1000 2 "w" true (tableOf crowded)
        (crowded.map fun message => (messageRow message).id) crowded leased after := by
  have hyields := yields_tableOf nodup_crowded
  refine ⟨hyields, ?_⟩
  rintro ⟨leased, after, hreturned, hids, -⟩
  obtain ⟨hdecoded, after', hleased, -⟩ :=
    @leaseBatch_of_yields _ ⟨"acme"⟩ 0 2 "w" true _ _ 1000 hyields
  unfold leaseBatchOrPanic at hreturned
  rw [if_neg (by decide)] at hreturned
  simp only [hdecoded] at hreturned
  rw [if_neg (by decide), if_neg (by decide), hleased] at hreturned
  obtain ⟨hok, -⟩ := Prod.mk.inj (Option.some.inj hreturned)
  cases hok
  rw [List.map_map] at hids
  exact absurd hids (by decide)

end SurrealOutboxStore

end Soulbase.Tx
