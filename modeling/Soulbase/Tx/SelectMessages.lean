/-
# What a selection is

`select_messages` selects the first messages that are eligible, as many as the batch allows, and
with grouping only the first of each dispatch key. Its loop looks at the size of the batch after
it has selected a message, and so a batch of 0 is served like a batch of 1.
-/

import Soulbase.Foundation.FirstOfEach
import Soulbase.Tx.Outbox

namespace Soulbase.Tx

open Soulbase.Foundation

/-- A message that may be selected: of the tenant, pending or leased, due, and without a lease
that goes on and is not the worker's own. -/
structure OutboxMessage.Eligible (message : OutboxMessage) (tenant : TenantId) (nowMs : Int64)
    (workerId : String) : Prop where
  tenant_eq : message.tenant = tenant
  waiting : message.status = .pending ∨ message.status = .leased
  due : message.notBefore ≤ nowMs
  unleased : ∀ leaseUntil, message.leaseUntil = some leaseUntil → nowMs < leaseUntil →
    message.worker = some workerId

/-- The key under which messages are grouped. -/
def groupKey (groupByKey : Bool) (message : OutboxMessage) : Option String :=
  if groupByKey then message.dispatchKey else none

section Selection

variable {tenant : TenantId} {nowMs : Int64} {batch : ℕ} {workerId : String}
variable {groupByKey : Bool} {message : OutboxMessage}

/-- The loop does not pass over the eligible messages. -/
theorem eligible_iff :
    message.Eligible tenant nowMs workerId ↔ message.Selectable tenant nowMs workerId := by
  have hfree : (∀ leaseUntil, message.leaseUntil = some leaseUntil → nowMs < leaseUntil →
      message.worker = some workerId) ↔ ¬message.LeasedElsewhere nowMs workerId := by
    unfold OutboxMessage.LeasedElsewhere
    cases message.leaseUntil <;> simp
  have hactive : (message.status = .pending ∨ message.status = .leased) ↔
      ¬(message.status = .done ∨ message.status = .dead) := by
    cases message.status <;> simp
  constructor
  · rintro ⟨htenant, hwaiting, hdue, hunleased⟩
    exact ⟨htenant, hactive.mp hwaiting, hfree.mp hunleased, Int64.not_lt.mpr hdue⟩
  · rintro ⟨htenant, hwaiting, hunleased, hdue⟩
    exact ⟨htenant, hactive.mpr hwaiting, Int64.not_lt.mp hdue, hfree.mpr hunleased⟩

instance : Decidable (message.Eligible tenant nowMs workerId) :=
  decidable_of_iff _ eligible_iff.symm

/-- The keys of the messages before, with grouping. -/
def keysOf (groupByKey : Bool) (before : List OutboxMessage) : List String :=
  before.filterMap (groupKey groupByKey)

theorem seenAfter_keysOf (before : List OutboxMessage) :
    seenAfter groupByKey message (keysOf groupByKey before) =
      keysOf groupByKey (message :: before) := by
  cases groupByKey with
  | false => simp [seenAfter, keysOf, groupKey]
  | true => cases hkey : message.dispatchKey <;> simp [seenAfter, keysOf, groupKey, hkey]

theorem repeatsKey_keysOf (before : List OutboxMessage) :
    repeatsKey groupByKey message (keysOf groupByKey before) = true ↔
      ¬Unseen (groupKey groupByKey) before message := by
  cases groupByKey with
  | false => simp [repeatsKey, keysOf, groupKey, Unseen, SameKey]
  | true =>
      cases hkey : message.dispatchKey <;>
        simp [repeatsKey, keysOf, groupKey, Unseen, SameKey, hkey]

/-- The loop adds the first eligible messages of the keys that are new, one at least. -/
theorem selectLoop_eq_take (all : List OutboxMessage) (selected : List Id)
    (before : List OutboxMessage) :
    selectLoop tenant nowMs batch workerId groupByKey all selected (keysOf groupByKey before) =
      selected ++
        (((firstOfEach (groupKey groupByKey)
          (all.filter (·.Eligible tenant nowMs workerId))).filter
            (Unseen (groupKey groupByKey) before)).take
              (max 1 (batch - selected.length))).map (·.id) := by
  induction all generalizing selected before with
  | nil => simp [selectLoop, firstOfEach]
  | cons message rest ih =>
      rw [selectLoop]
      by_cases heligible : message.Eligible tenant nowMs workerId
      case neg =>
        rw [if_pos (fun h => heligible (eligible_iff.mpr h)), ih,
          List.filter_cons_of_neg (by simpa using heligible)]
      case pos =>
        rw [if_neg (not_not.mpr (eligible_iff.mp heligible)),
          List.filter_cons_of_pos (by simpa using heligible), filter_unseen_cons]
        by_cases hunseen : Unseen (groupKey groupByKey) before message
        case neg => rw [if_pos ((repeatsKey_keysOf before).mpr hunseen), if_neg hunseen, ih]
        case pos =>
          have hnew : ¬repeatsKey groupByKey message (keysOf groupByKey before) = true :=
            fun h => (repeatsKey_keysOf before).mp h hunseen
          rw [if_neg hnew, if_pos hunseen, seenAfter_keysOf, List.length_append,
            List.length_singleton]
          split
          case isTrue hfull =>
            have hone : max 1 (batch - selected.length) = 1 := by omega
            rw [hone]
            rfl
          case isFalse hroom =>
            have hmore : max 1 (batch - selected.length) =
                max 1 (batch - (selected.length + 1)) + 1 := by omega
            rw [ih, hmore, List.take_succ_cons, List.map_cons, List.append_assoc,
              List.singleton_append, List.length_append, List.length_singleton]

/-- What `select_messages` computes. -/
theorem selectMessages_eq_take (all : List OutboxMessage) :
    selectMessages all tenant nowMs batch workerId groupByKey =
      ((firstOfEach (groupKey groupByKey)
        (all.filter (·.Eligible tenant nowMs workerId))).take (max 1 batch)).map (·.id) := by
  have hloop := @selectLoop_eq_take tenant nowMs batch workerId groupByKey all [] []
  rw [List.nil_append, List.length_nil, Nat.sub_zero] at hloop
  refine hloop.trans ?_
  rw [List.filter_eq_self.mpr]
  intro message _
  simp [Unseen]

theorem firstOfEach_eq_nil_iff {β : Type} [DecidableEq β] {key : OutboxMessage → Option β}
    {all : List OutboxMessage} : firstOfEach key all = [] ↔ all = [] := by
  cases all <;> simp [firstOfEach]

end Selection

/-- `select_messages` returns the first eligible messages, as many as the batch, if and only if the
batch is not 0 or there are none. -/
theorem selectMessages_exact_iff (all : List OutboxMessage) (tenant : TenantId) (nowMs : Int64)
    (batch : ℕ) (workerId : String) (groupByKey : Bool) :
    selectMessages all tenant nowMs batch workerId groupByKey =
        ((firstOfEach (groupKey groupByKey)
          (all.filter (·.Eligible tenant nowMs workerId))).take batch).map (·.id) ↔
      batch ≠ 0 ∨ ∀ message ∈ all, ¬message.Eligible tenant nowMs workerId := by
  rw [selectMessages_eq_take]
  by_cases hbatch : batch = 0
  · subst hbatch
    rw [Nat.max_eq_left (Nat.zero_le 1), List.take_zero, List.map_nil, List.map_eq_nil_iff,
      List.take_eq_nil_iff, firstOfEach_eq_nil_iff, List.filter_eq_nil_iff]
    simp
  · rw [Nat.max_eq_right (Nat.one_le_iff_ne_zero.mpr hbatch)]
    exact iff_of_true rfl (.inl hbatch)

/-- A message that has just been enqueued. -/
private def waitingMessage : OutboxMessage :=
  buildOutboxMessage ⟨⟨"m"⟩, ⟨"acme"⟩, ⟨"e"⟩, "mail", .null, none, none⟩ 0 0

/-- A batch of 0 gets a message. -/
theorem not_selectMessages_exact_empty :
    selectMessages [waitingMessage] ⟨"acme"⟩ 0 0 "w" false ≠
      ((firstOfEach (groupKey false)
        ([waitingMessage].filter (·.Eligible ⟨"acme"⟩ 0 "w"))).take 0).map (·.id) := by
  decide

end Soulbase.Tx
