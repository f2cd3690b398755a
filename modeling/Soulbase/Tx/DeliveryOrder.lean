/-
# The order of deliveries of one dispatch key

One dispatcher that groups by dispatch key. A batch then holds one message of a
key, but nothing says which: the store iterates a hash map, and a message that is
waiting for its next attempt is passed over while its successors are not.

`not_deliversInOrder_earlyRetry` has a message delivered while an earlier one of its
key waits after a failure. `deliversInOrder_of_oldestFirst` says when deliveries
are in order: as long as a message is never first of its key while an earlier one
is still to be delivered. The invariant is `Settled`: the predecessors of a message
that has been leased, or delivered, are done with.
-/

import Soulbase.Tx.Delivery

namespace Soulbase.Tx

open Soulbase.Foundation

/-- The outbox, with the keys of the messages in the order in which they were
enqueued. -/
structure OrderedOutbox where
  world : OutboxWorld
  enqueued : List MessageKey

namespace OrderedOutbox

/-- Nothing has happened. -/
def empty : OrderedOutbox where
  world := .empty
  enqueued := []

/-- A producer enqueues a message. -/
def enqueue (state : OrderedOutbox) (message : NewOutboxMessage)
    (createdAt notBefore : Int64) : OrderedOutbox where
  world := state.world.enqueue message createdAt notBefore
  enqueued :=
    if (state.world.store.enqueue message createdAt notBefore).1.isOk then
      state.enqueued ++ [messageKey message.tenant message.id]
    else state.enqueued

end OrderedOutbox

/-- One was enqueued before the other. -/
def EnqueuedBefore (enqueued : List MessageKey) (first second : MessageKey) : Prop :=
  [first, second].Sublist enqueued

instance (enqueued : List MessageKey) (first second : MessageKey) :
    Decidable (EnqueuedBefore enqueued first second) :=
  inferInstanceAs (Decidable ([first, second].Sublist enqueued))

/-- Both have the same tenant and dispatch key. -/
structure OutboxMessage.SameQueue (message other : OutboxMessage) : Prop where
  tenant : message.tenant = other.tenant
  dispatchKey : ∃ key, message.dispatchKey = some key ∧ other.dispatchKey = some key

/-- A backoff policy that returns no time before the one it was given. -/
def forwardBackoff : OutboxWorld → DispatchChoice → DispatchOp → Bool
  | _, .time next, .nextAfter nowMs _ => nowMs ≤ next
  | _, _, _ => true

/-- No tick has a time before that of an earlier one. -/
def forwardTicks : OutboxWorld → DispatchChoice → DispatchOp → Bool
  | world, _, op => op.leasesAt.all fun nowMs => world.clock ≤ nowMs

/-- A batch is leased only where the first selectable message of each dispatch key
has no predecessor that is still to be delivered. -/
def oldestFirst (enqueued : List MessageKey) :
    OutboxWorld → DispatchChoice → DispatchOp → Bool
  | world, .order order, .leaseBatch tenant nowMs _ _ workerId _ =>
      let stored := world.store.messages.valuesIn order
      stored.all fun message =>
        message.dispatchKey.all fun key =>
          (firstSelectable stored tenant nowMs workerId key).all fun first =>
            message.tenant ≠ tenant ∨ ¬EnqueuedBefore enqueued message.key first.key ∨
              message.status.isTerminal
  | _, _, _ => true

/-- One dispatcher with whole ticks, between which messages are enqueued. What the
environment may do in a tick depends on the messages enqueued before. -/
def Dispatcher.orderedDelivery (dispatcher : Dispatcher)
    (H : List MessageKey → Handler DispatchOp DispatchOp.Answer DispatchChoice OutboxWorld) :
    TransitionSystem OrderedOutbox DeliveryAction where
  init state := state = .empty
  step state action after :=
    match action with
    | .enqueue message createdAt notBefore => after = state.enqueue message createdAt notBefore
    | .tick tenant nowMs => after.enqueued = state.enqueued ∧ ∃ result,
        Exec (H state.enqueued) (dispatcher.tick tenant nowMs).run
          state.world result after.world

/-- What the environment of a dispatcher may do, given any forward backoff policy. -/
def Dispatcher.anyOrder (dispatcher : Dispatcher) (_ : List MessageKey) :
    Handler DispatchOp DispatchOp.Answer DispatchChoice OutboxWorld :=
  (OutboxWorld.answer dispatcher.workerId).restrict forwardBackoff

/-- The same, as long as the oldest messages come first. -/
def Dispatcher.inOrder (dispatcher : Dispatcher) (enqueued : List MessageKey) :
    Handler DispatchOp DispatchOp.Answer DispatchChoice OutboxWorld :=
  (dispatcher.anyOrder enqueued).restrict (oldestFirst enqueued)

/-- Once a message is delivered while an earlier one of its tenant and dispatch key
is not, the earlier one will never be. A tick delivers no two messages of one key,
so deliveries in one tick need no order. -/
def DeliversInOrder (T : TransitionSystem OrderedOutbox DeliveryAction) : Prop :=
  ∀ state actions after first second earlier later last, T.Reachable state →
    T.Run state actions after → EnqueuedBefore state.enqueued first second →
    state.world.store.find first = some earlier →
    state.world.store.find second = some later → earlier.SameQueue later →
    later.status = .done → earlier.status ≠ .done →
    after.world.store.find first = some last → last.status ≠ .done

/-- The predecessors of a message that is or was leased are done with. -/
def Settled (enqueued : List MessageKey) (world : OutboxWorld) : Prop :=
  ∀ first second earlier later, EnqueuedBefore enqueued first second →
    world.store.find first = some earlier → world.store.find second = some later →
    earlier.SameQueue later → later.status = .leased ∨ later.status = .done →
    earlier.status.isTerminal = true

/-- Messages in a terminal status are stored still. -/
def KeepsTerminal (before after : OutboxWorld) : Prop :=
  ∀ key message, before.store.find key = some message → message.status.isTerminal = true →
    after.store.find key = some message

theorem KeepsTerminal.refl (world : OutboxWorld) : KeepsTerminal world world :=
  fun _ _ hfind _ => hfind

theorem KeepsTerminal.trans {first second third : OutboxWorld}
    (hleft : KeepsTerminal first second) (hright : KeepsTerminal second third) :
    KeepsTerminal first third :=
  fun key message hfind hterminal =>
    hright key message (hleft key message hfind hterminal) hterminal

/-- What holds of every state reached. -/
structure InOrder (dispatcher : Dispatcher) (state : OrderedOutbox) : Prop where
  accounted : Accounted dispatcher.maxSends state.world
  listed : ∀ key, key ∈ state.enqueued ↔ (state.world.store.find key).isSome
  settled : Settled state.enqueued state.world

/-- The messages stored are those stored before, in their queues. -/
def SameQueues (before after : OutboxWorld) : Prop :=
  ∀ key stored, after.store.find key = some stored → ∃ old, before.store.find key = some old ∧
    old.tenant = stored.tenant ∧ old.dispatchKey = stored.dispatchKey

theorem SameQueues.trans {first second third : OutboxWorld}
    (hleft : SameQueues first second) (hright : SameQueues second third) :
    SameQueues first third := by
  intro key stored hstored
  obtain ⟨middle, hmiddle, htenant, hkey⟩ := hright key stored hstored
  obtain ⟨old, hold, htenant', hkey'⟩ := hleft key middle hmiddle
  exact ⟨old, hold, htenant'.trans htenant, hkey'.trans hkey⟩

/-- A step keeps the invariant if the predecessors of every message it leaves leased
or delivered were done with before. -/
theorem Settled.of_predecessors {enqueued : List MessageKey} {world after : OutboxWorld}
    (hqueues : SameQueues world after) (hkeeps : KeepsTerminal world after)
    (hactive : ∀ first second earlier later, EnqueuedBefore enqueued first second →
      world.store.find first = some earlier → after.store.find second = some later →
      earlier.SameQueue later → later.status = .leased ∨ later.status = .done →
      earlier.status.isTerminal = true) : Settled enqueued after := by
  intro first second earlier later hbefore hfirst hsecond hsame hlater
  obtain ⟨old, hold, htenant, hkey⟩ := hqueues first earlier hfirst
  have hsameOld : old.SameQueue later := by
    obtain ⟨dispatchKey, hleft, hright⟩ := hsame.dispatchKey
    exact ⟨htenant.trans hsame.tenant, dispatchKey, hkey.trans hleft, hright⟩
  have hterminal := hactive first second old later hbefore hold hsecond hsameOld hlater
  have hkept := hkeeps first old hold hterminal
  rw [hfirst] at hkept
  cases hkept
  exact hterminal

section Round

variable {dispatcher : Dispatcher} {world after : OutboxWorld} {message : OutboxMessage}

theorem Dispatched.keepsTerminal (h : Dispatched dispatcher world message after)
    (hfind : world.store.find message.key = some message)
    (hleased : message.status = .leased) : KeepsTerminal world after := by
  intro key stored hstored hterminal
  rw [h.find_of_ne]
  · exact hstored
  · rintro rfl
    rw [hfind] at hstored
    cases hstored
    rw [hleased] at hterminal
    cases hterminal

theorem Dispatched.sameQueues (h : Dispatched dispatcher world message after)
    (hfind : world.store.find message.key = some message) : SameQueues world after := by
  intro key stored hstored
  by_cases hkey : key = message.key
  · subst hkey
    obtain ⟨kept, hkept, hsame⟩ := h.keepsRequests hfind message.key message hfind
    rw [hkept] at hstored
    cases hstored
    exact ⟨message, hfind, hsame.tenant.symm, hsame.dispatchKey.symm⟩
  · rw [h.find_of_ne hkey] at hstored
    exact ⟨stored, hstored, rfl, rfl⟩

/-- A message is worked on after its predecessors. -/
theorem Settled.round {enqueued : List MessageKey} (hsettled : Settled enqueued world)
    (h : Dispatched dispatcher world message after)
    (hfind : world.store.find message.key = some message)
    (hleased : message.status = .leased) : Settled enqueued after := by
  apply Settled.of_predecessors (h.sameQueues hfind) (h.keepsTerminal hfind hleased)
  intro first second earlier later hbefore hfirst hsecond hsame hlater
  by_cases hkey : second = message.key
  · subst hkey
    obtain ⟨old, hold, htenant, hdispatchKey⟩ := h.sameQueues hfind message.key later hsecond
    rw [hfind] at hold
    cases hold
    obtain ⟨dispatchKey, hleft, hright⟩ := hsame.dispatchKey
    exact hsettled first message.key earlier message hbefore hfirst hfind
      ⟨hsame.tenant.trans htenant.symm, dispatchKey, hleft, hdispatchKey.trans hright⟩
      (.inl hleased)
  · rw [h.find_of_ne hkey] at hsecond
    exact hsettled first second earlier later hbefore hfirst hsecond hsame hlater

end Round

section Lease

variable {world : OutboxWorld} {enqueued order : List MessageKey} {tenant : TenantId}
variable {nowMs leaseMs leaseUntil : Int64} {batch : Nat} {workerId : String}
variable {groupByKey : Bool} {leased : List OutboxMessage} {store : InMemoryOutboxStore}
variable {log : List OutboxEvent}

theorem keepsTerminal_lease
    (hleases : world.store.Leases tenant nowMs workerId leaseUntil leased store) :
    KeepsTerminal world { store := store, clock := nowMs, log := log } := by
  intro key stored hstored hterminal
  have hkey : key ∉ leased.map (·.key) := by
    intro hmem
    obtain ⟨old, hold, hselectable, _⟩ := hleases.of_mem_keys hmem
    rw [hstored] at hold
    cases hold
    rw [hselectable.not_terminal] at hterminal
    cases hterminal
  exact (hleases.frame key hkey).trans hstored

theorem sameQueues_lease
    (hleases : world.store.Leases tenant nowMs workerId leaseUntil leased store) :
    SameQueues world { store := store, clock := nowMs, log := log } := by
  intro key stored hstored
  by_cases hkey : key ∈ leased.map (·.key)
  · obtain ⟨old, hold, _, hleased⟩ := hleases.of_mem_keys hkey
    rw [hleased] at hstored
    cases hstored
    exact ⟨old, hold, rfl, rfl⟩
  · exact ⟨stored, (hleases.frame key hkey).symm.trans hstored, rfl, rfl⟩

/-- The condition on a lease, read for two stored messages. -/
theorem terminal_of_oldestFirst (horder : world.store.messages.Enumerates order)
    (holdest : oldestFirst enqueued world (.order order)
      (.leaseBatch tenant nowMs leaseMs batch workerId groupByKey) = true)
    {first : MessageKey} {earlier later : OutboxMessage} {dispatchKey : String}
    (hfind : world.store.find first = some earlier) (htenant : earlier.tenant = tenant)
    (hkey : earlier.dispatchKey = some dispatchKey)
    (hfirst : firstSelectable (world.store.messages.valuesIn order) tenant nowMs workerId
      dispatchKey = some later) (hbefore : EnqueuedBefore enqueued first later.key) :
    earlier.status.isTerminal = true := by
  have hmem : earlier ∈ world.store.messages.valuesIn order := by
    rw [HashMap.mem_valuesIn]
    refine ⟨first, ?_, hfind⟩
    rw [horder.mem_iff]
    exact AList.lookup_isSome.mp (Option.isSome_of_eq_some hfind)
  have hall := List.all_eq_true.mp holdest earlier hmem
  rw [hkey, Option.all_some, hfirst, Option.all_some, decide_eq_true_eq] at hall
  rcases hall with hother | hafter | hterminal
  · exact absurd htenant hother
  · rw [InMemoryOutboxStore.key_of_find hfind] at hafter
    exact absurd hbefore hafter
  · exact hterminal

/-- A message is leased after its predecessors. -/
theorem Settled.lease (hsettled : Settled enqueued world)
    (horder : world.store.messages.Enumerates order)
    (holdest : oldestFirst enqueued world (.order order)
      (.leaseBatch tenant nowMs leaseMs batch workerId groupByKey) = true)
    (hleases : world.store.GroupedLeases order tenant nowMs workerId leaseUntil leased store) :
    Settled enqueued { store := store, clock := nowMs, log := log } := by
  apply Settled.of_predecessors (sameQueues_lease hleases.toLeases)
    (keepsTerminal_lease hleases.toLeases)
  intro first second earlier later hbefore hfirst hsecond hsame hlater
  by_cases hkey : second ∈ leased.map (·.key)
  · obtain ⟨message, hmem, rfl⟩ := List.mem_map.mp hkey
    have hstored := hleases.stored message hmem
    rw [hstored] at hsecond
    cases hsecond
    obtain ⟨dispatchKey, hearlier, hlaterKey⟩ := hsame.dispatchKey
    obtain ⟨old, hold, rfl⟩ := hleases.first later hmem dispatchKey hlaterKey
    exact terminal_of_oldestFirst horder holdest hfirst
      (hsame.tenant.trans (hleases.tenant_eq hmem)) hearlier hold hbefore
  · exact hsettled first second earlier later hbefore hfirst
      ((hleases.frame second hkey).symm.trans hsecond) hsame hlater

end Lease

/-! ## Steps -/

/-- A list with a new last element orders the others as before. -/
theorem EnqueuedBefore.of_concat {enqueued : List MessageKey} {first second key : MessageKey}
    (h : EnqueuedBefore (enqueued ++ [key]) first second) (hne : second ≠ key) :
    EnqueuedBefore enqueued first second := by
  obtain ⟨front, back, hsplit, hfront, hback⟩ := List.sublist_append_iff.mp h
  cases back with
  | nil =>
      rw [List.append_nil] at hsplit
      rwa [← hsplit] at hfront
  | cons head tail =>
      -- The new element would be the last one of the two.
      have hlast := congrArg List.getLast? hsplit
      have htail : tail = [] := by
        cases hback with
        | cons _ h => cases h
        | cons_cons _ h => exact List.sublist_nil.mp h
      have hhead : head ∈ [key] := hback.subset List.mem_cons_self
      subst htail
      rw [List.getLast?_concat] at hlast
      cases hlast
      exact absurd (List.mem_singleton.mp hhead) hne

section Steps

variable {dispatcher : Dispatcher} {state : OrderedOutbox}

/-- Enqueueing fails and changes nothing, or it adds a message to the end. -/
theorem OrderedOutbox.enqueue_cases (state : OrderedOutbox) (message : NewOutboxMessage)
    (createdAt notBefore : Int64) :
    state.enqueue message createdAt notBefore = state ∨
      ∃ added : OutboxMessage, state.world.store.find added.key = none ∧
        added.status = .pending ∧
        state.enqueue message createdAt notBefore =
          { world := { state.world with store := state.world.store.insertRaw added }
            enqueued := state.enqueued ++ [added.key] } := by
  rcases state.world.store.enqueue_cases message createdAt notBefore with
    ⟨error, heq⟩ | ⟨hfree, heq⟩
  · apply Or.inl
    simp only [OrderedOutbox.enqueue, OutboxWorld.enqueue, heq]
    rfl
  · refine .inr ⟨_, hfree, rfl, ?_⟩
    simp only [OrderedOutbox.enqueue, OutboxWorld.enqueue, heq]
    rfl

/-- A new message is behind all others. -/
theorem InOrder.enqueue (h : InOrder dispatcher state) (message : NewOutboxMessage)
    (createdAt notBefore : Int64) :
    InOrder dispatcher (state.enqueue message createdAt notBefore) := by
  have haccounted :=
    (accounted_of_enqueue h.accounted (maxSends_pos dispatcher) message createdAt notBefore).1
  have hworld : (state.enqueue message createdAt notBefore).world =
    state.world.enqueue message createdAt notBefore := rfl
  rw [← hworld] at haccounted
  rcases state.enqueue_cases message createdAt notBefore with heq | ⟨added, hfree, hnew, heq⟩
  · rwa [heq]
  rw [heq] at haccounted ⊢
  constructor
  case accounted => exact haccounted
  case listed =>
    intro key
    rw [List.mem_append, List.mem_singleton, InMemoryOutboxStore.find_insertRaw, h.listed key]
    split
    case isTrue hkey => simp [hkey]
    case isFalse hkey => simp [hkey]
  case settled =>
    intro first second earlier later hbefore hfirst hsecond hsame hlater
    rw [InMemoryOutboxStore.find_insertRaw] at hfirst hsecond
    by_cases hkey : second = added.key
    · rw [if_pos hkey] at hsecond
      cases hsecond
      rw [hnew] at hlater
      rcases hlater with hlater | hlater <;> cases hlater
    · have hbefore := hbefore.of_concat hkey
      have hlisted := (h.listed first).mp (hbefore.subset List.mem_cons_self)
      have hne : first ≠ added.key := by
        rintro rfl
        rw [hfree] at hlisted
        cases hlisted
      rw [if_neg hne] at hfirst
      rw [if_neg hkey] at hsecond
      exact h.settled first second earlier later hbefore hfirst hsecond hsame hlater

/-- What a tick may lease, given the order of the messages. -/
theorem exec_leaseBatch_inOrder {world after : OutboxWorld} {enqueued : List MessageKey}
    {tenant : TenantId} {nowMs : Int64} {reply : TxResult (List OutboxMessage)}
    (hgroup : dispatcher.groupByDispatchKey = true)
    (h : Exec (dispatcher.inOrder enqueued)
      (call (.leaseBatch tenant nowMs dispatcher.leaseMs dispatcher.batch
        dispatcher.workerId dispatcher.groupByDispatchKey)) world reply after) :
    ∃ order leased store, reply = .ok leased ∧ world.store.messages.Enumerates order ∧
      oldestFirst enqueued world (.order order)
        (.leaseBatch tenant nowMs dispatcher.leaseMs dispatcher.batch
          dispatcher.workerId dispatcher.groupByDispatchKey) = true ∧
      world.store.GroupedLeases order tenant nowMs dispatcher.workerId
        (nowMs + dispatcher.leaseMs) leased store ∧
      after =
        { store := store
          clock := nowMs
          log := OutboxWorld.leaseEvents dispatcher.workerId (nowMs + dispatcher.leaseMs)
            leased ++ world.log } := by
  obtain ⟨choice, hanswer⟩ := exec_perform_iff.mp h
  obtain ⟨holdest, hanswer⟩ := Handler.restrict_eq_some_iff.mp hanswer
  obtain ⟨_, hanswer⟩ := Handler.restrict_eq_some_iff.mp hanswer
  rw [hgroup] at hanswer
  cases choice with
  | order order =>
      simp only [OutboxWorld.answer] at hanswer
      split at hanswer
      case isTrue hallowed =>
        cases hanswer
        exact ⟨order, _, _, rfl, hallowed, holdest,
          world.store.groupedLeases_leaseBatch _ _ _ _ _ hallowed, rfl⟩
      case isFalse => cases hanswer
  | outcome _ | time _ | hooked _ _ _ | none => cases hanswer

/-- A whole tick, wherever it ends. -/
theorem InOrder.tick (h : InOrder dispatcher state) {after : OutboxWorld}
    {tenant : TenantId} {nowMs : Int64} {result : TxResult Unit}
    (hgroup : dispatcher.groupByDispatchKey = true)
    (hexec : Exec (dispatcher.inOrder state.enqueued) (dispatcher.tick tenant nowMs).run
      state.world result after) :
    InOrder dispatcher { state with world := after } ∧ KeepsTerminal state.world after := by
  have hplain := hexec.of_restrict.of_restrict
  obtain ⟨haccounted, hrequests⟩ := accounted_of_tick h.accounted hplain
  rcases exec_fallible_bind_iff.mp hexec with ⟨_, hlease, _⟩ | ⟨leased, middle, hlease, hrest⟩
  · obtain ⟨_, _, _, hok, _⟩ := exec_leaseBatch_inOrder hgroup hlease
    cases hok
  obtain ⟨order, _, store, hok, horder, holdest, hleases, hmiddle⟩ :=
    exec_leaseBatch_inOrder hgroup hlease
  cases hok
  subst hmiddle
  obtain ⟨hsettled, hkeeps, hqueues⟩ :=
    (Midway.of_leases h.accounted hleases.toLeases).loop
      (fun last => Settled state.enqueued last ∧ KeepsTerminal state.world last ∧
        SameQueues state.world last)
      (fun before message last _ hbefore hfind hleased hround =>
        ⟨hbefore.1.round hround hfind hleased,
          hbefore.2.1.trans (hround.keepsTerminal hfind hleased),
          hbefore.2.2.trans (hround.sameQueues hfind)⟩)
      ⟨h.settled.lease horder holdest hleases, keepsTerminal_lease hleases.toLeases,
        sameQueues_lease hleases.toLeases⟩
      hrest.of_restrict.of_restrict
  refine ⟨⟨haccounted, ?_, hsettled⟩, hkeeps⟩
  intro key
  rw [h.listed key]
  constructor
  · intro hstored
    obtain ⟨message, hfind⟩ := Option.isSome_iff_exists.mp hstored
    obtain ⟨kept, hkept, _⟩ := hrequests key message hfind
    exact Option.isSome_of_eq_some hkept
  · intro hstored
    obtain ⟨message, hfind⟩ := Option.isSome_iff_exists.mp hstored
    obtain ⟨old, hold, _⟩ := hqueues key message hfind
    exact Option.isSome_of_eq_some hold

/-- One step. -/
theorem InOrder.step (h : InOrder dispatcher state) {action : DeliveryAction}
    {after : OrderedOutbox} (hgroup : dispatcher.groupByDispatchKey = true)
    (hstep : (dispatcher.orderedDelivery dispatcher.inOrder).step state action after) :
    InOrder dispatcher after ∧ KeepsTerminal state.world after.world := by
  cases action with
  | enqueue message createdAt notBefore =>
      subst hstep
      refine ⟨h.enqueue message createdAt notBefore, ?_⟩
      rcases state.enqueue_cases message createdAt notBefore with heq | ⟨added, hfree, _, heq⟩
      · rw [heq]
        exact .refl state.world
      · rw [heq]
        intro key stored hstored _
        rw [← hstored]
        apply InMemoryOutboxStore.find_insertRaw_of_ne
        rintro rfl
        rw [hfree] at hstored
        cases hstored
  | tick tenant nowMs =>
      obtain ⟨henqueued, result, hexec⟩ := hstep
      have hafter : after = { state with world := after.world } := by
        rw [← henqueued]
      rw [hafter]
      exact h.tick hgroup hexec

theorem inOrder_of_reachable (hgroup : dispatcher.groupByDispatchKey = true)
    (hreach : (dispatcher.orderedDelivery dispatcher.inOrder).Reachable state) :
    InOrder dispatcher state := by
  refine TransitionSystem.invariant (InOrder dispatcher) ?_ ?_ hreach
  · rintro _ rfl
    constructor
    case accounted => exact fun key => ⟨rfl, rfl⟩
    case listed => simp [OrderedOutbox.empty, OutboxWorld.empty]
    case settled =>
      intro first second earlier later _ hfirst
      simp [OrderedOutbox.empty, OutboxWorld.empty] at hfirst
  · intro source action target _ hsource hstep
    exact (hsource.step hgroup hstep).1

end Steps

/-- The messages of a dispatch key are delivered in order, as long as each batch is
leased with the oldest ones first. -/
theorem deliversInOrder_of_oldestFirst (dispatcher : Dispatcher)
    (hgroup : dispatcher.groupByDispatchKey = true) :
    DeliversInOrder (dispatcher.orderedDelivery dispatcher.inOrder) := by
  intro state actions after first second earlier later last hreach hrun hbefore hfirst hsecond
    hsame hdone hnot hlast
  have hinvariant := inOrder_of_reachable hgroup hreach
  have hterminal := hinvariant.settled first second earlier later hbefore hfirst hsecond hsame
    (.inr hdone)
  have hkeeps : KeepsTerminal state.world after.world := by
    refine hrun.preserves (fun next => KeepsTerminal state.world next.world) hreach ?_
      (.refl state.world)
    intro middle action next _ hmiddle hkept hstep
    exact hkept.trans ((inOrder_of_reachable hgroup hmiddle).step hgroup hstep).2
  rw [hkeeps first earlier hfirst hterminal] at hlast
  cases hlast
  exact hnot

namespace EarlyRetry

/-- A dispatcher that groups by dispatch key. -/
def dispatcher : Dispatcher where
  workerId := "A"
  maxAttempts := 3
  leaseMs := 10
  batch := 1
  groupByDispatchKey := true
  deadStore := false

/-- A message of the key `k`. -/
def request (id : String) : NewOutboxMessage where
  id := ⟨id⟩
  tenant := ⟨"t"⟩
  envelopeId := ⟨"e"⟩
  topic := "x"
  payload := .null
  notBefore := none
  dispatchKey := some "k"

/-- Two messages, in this order. -/
def enqueued : OrderedOutbox :=
  (OrderedOutbox.empty.enqueue (request "m") 0 0).enqueue (request "n") 0 0

/-- Any order of the hash map, with times that never go back. -/
def handler (enqueued : List MessageKey) :
    Handler DispatchOp DispatchOp.Answer DispatchChoice OutboxWorld :=
  (dispatcher.anyOrder enqueued).restrict forwardTicks

/-- The system of this dispatcher. -/
def system : TransitionSystem OrderedOutbox DeliveryAction :=
  dispatcher.orderedDelivery handler

/-- A tick for some choices of its environment. -/
def tickWith (state : OrderedOutbox) (nowMs : Int64) (choices : List DispatchChoice) :
    Option OrderedOutbox :=
  (runWith (handler state.enqueued) choices
    (dispatcher.tick ⟨"t"⟩ nowMs).run state.world).map fun outcome =>
      { state with world := outcome.2 }

theorem step_of_tickWith {state after : OrderedOutbox} {nowMs : Int64}
    {choices : List DispatchChoice} (h : tickWith state nowMs choices = some after) :
    system.step state (.tick ⟨"t"⟩ nowMs) after := by
  obtain ⟨⟨result, world⟩, hrun, rfl⟩ := Option.map_eq_some_iff.mp h
  exact ⟨rfl, result, exec_of_runWith choices hrun⟩

/-- The batch of one message that is sent and acknowledged. -/
def succeeds : List DispatchChoice :=
  [.order [("t", "m"), ("t", "n")], .outcome (.ok ()), .outcome (.ok ()), .none,
    .outcome (.ok ())]

/-- The batch of one message whose send fails and is to be repeated at time 5. -/
def failsUntilFive : List DispatchChoice :=
  [.order [("t", "m"), ("t", "n")], .outcome (.ok ()),
    .outcome (.error (.timeout "no answer")), .time 5, .none, .outcome (.ok ())]

/-- The first message waits for time 5. -/
def waiting : OrderedOutbox := (tickWith enqueued 0 failsUntilFive).getD .empty

/-- The second one has been delivered at time 1. -/
def overtaken : OrderedOutbox := (tickWith waiting 1 succeeds).getD .empty

/-- The first one has been delivered too, at time 5. -/
def caughtUp : OrderedOutbox := (tickWith overtaken 5 succeeds).getD .empty

theorem reachable_overtaken : system.Reachable overtaken := by
  have henqueued : system.Reachable enqueued := by
    apply TransitionSystem.Reachable.step _ (show system.step _ (.enqueue _ 0 0) _ from rfl)
    apply TransitionSystem.Reachable.step _ (show system.step _ (.enqueue _ 0 0) _ from rfl)
    exact .init rfl
  have hwaiting := henqueued.step
    (step_of_tickWith (show tickWith enqueued 0 failsUntilFive = some waiting from rfl))
  exact hwaiting.step
    (step_of_tickWith (show tickWith waiting 1 succeeds = some overtaken from rfl))

end EarlyRetry

/-- The second message is delivered while the first one waits for its next attempt. -/
theorem not_deliversInOrder_earlyRetry : ¬DeliversInOrder EarlyRetry.system := by
  intro h
  have hrun : EarlyRetry.system.Run EarlyRetry.overtaken [.tick ⟨"t"⟩ 5]
      EarlyRetry.caughtUp := by
    apply TransitionSystem.Run.cons (EarlyRetry.step_of_tickWith _) (.nil _)
    · exact EarlyRetry.succeeds
    · rfl
  have hnot := h EarlyRetry.overtaken _ EarlyRetry.caughtUp ("t", "m") ("t", "n") _ _ _
    EarlyRetry.reachable_overtaken hrun (by decide) rfl rfl ⟨rfl, "k", rfl, rfl⟩ rfl
    (by decide) rfl
  exact hnot rfl

/-- The same dispatcher delivers in order in the runs that lease the oldest messages
first. -/
theorem deliversInOrder_earlyRetry :
    DeliversInOrder (EarlyRetry.dispatcher.orderedDelivery EarlyRetry.dispatcher.inOrder) :=
  deliversInOrder_of_oldestFirst EarlyRetry.dispatcher rfl

end Soulbase.Tx
