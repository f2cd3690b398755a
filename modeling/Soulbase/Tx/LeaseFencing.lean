/-
# Lease fencing

A message that is leased to one dispatcher should not be settled by another
whose own lease has run out. `heartbeat` compares the worker of the message with
its caller; `ack_done`, `nack_backoff` and `dead_letter` do not. A send that
outlasts the lease is therefore followed by a settlement that overwrites the
lease of whoever took the message over.

`not_leaseFencing_slowSend` is such a run. `leaseFencing_of_settlesInTime` is what
the code does guarantee: dispatchers do not interfere as long as each of them
settles a message while its lease is running, or before anybody else has leased
the message.
-/

import Soulbase.Tx.Fleet

namespace Soulbase.Tx

open Soulbase.Foundation OutboxEvent

/-- The fields that a settlement writes are the same. -/
structure OutboxMessage.SameLease (left right : OutboxMessage) : Prop where
  status : left.status = right.status
  worker : left.worker = right.worker
  leaseUntil : left.leaseUntil = right.leaseUntil
  attempts : left.attempts = right.attempts

/-- The message is leased to the worker and the lease has not run out. -/
structure OutboxWorld.LeasedTo (world : OutboxWorld) (worker : String)
    (message : OutboxMessage) : Prop where
  status : message.status = .leased
  worker : message.worker = some worker
  running : ∃ leaseUntil, message.leaseUntil = some leaseUntil ∧ world.clock < leaseUntil

variable {ι : Type} [DecidableEq ι]

/-- In every reachable state, a dispatcher that settles a message leased to
another dispatcher leaves the lease of the message alone. -/
def LeaseFencing (fleet : Fleet ι) (T : TransitionSystem (FleetState ι) (FleetAction ι)) :
    Prop :=
  ∀ state i j choice after op key message, T.Reachable state →
    T.step state (.call i choice) after → (state.threads i).head? = some op →
    op.settles = some key → state.shared.store.find key = some message → j ≠ i →
    state.shared.LeasedTo (fleet.workerId j) message →
    ∃ settled, after.shared.store.find key = some settled ∧ settled.SameLease message

/-- No message is revived. -/
def WithoutRevive (_ : FleetState ι) (action : FleetAction ι) : Prop :=
  action.revives = none

instance (state : FleetState ι) (action : FleetAction ι) :
    Decidable (WithoutRevive state action) :=
  inferInstanceAs (Decidable (action.revives = none))

/-- When a dispatcher settles a message, its own lease of the message is still
running, or nobody has leased the message since. -/
def SettlesInTime (fleet : Fleet ι) (state : FleetState ι) : FleetAction ι → Prop
  | .call i _ => ∀ op key, (state.threads i).head? = some op → op.settles = some key →
      state.shared.OwnLeaseRunning (fleet.workerId i) key ∨
        state.shared.LastLeasedBy (fleet.workerId i) key
  | _ => True

/-- The worker of a stored message is the last to have leased it, and a
dispatcher whose lease of a message it holds is running is the worker of the
message, with the end of the lease it knows. -/
structure Fenced (fleet : Fleet ι) (held : ι → List MessageKey) (world : OutboxWorld) :
    Prop where
  holder : ∀ key message worker, world.store.find key = some message →
    message.worker = some worker → world.LastLeasedBy worker key
  running : ∀ i key, key ∈ held i → world.OwnLeaseRunning (fleet.workerId i) key →
    ∃ message, world.store.find key = some message ∧
      message.worker = some (fleet.workerId i) ∧
      message.leaseUntil = deadline world.log (fleet.workerId i) key

section Steps

variable {fleet : Fleet ι} {held : ι → List MessageKey} {world : OutboxWorld}

omit [DecidableEq ι] in
/-- A dispatcher whose lease is running was the last to lease the message. -/
theorem Fenced.lastLeasedBy (h : Fenced fleet held world) {i : ι} {key : MessageKey}
    (hheld : key ∈ held i) (hrunning : world.OwnLeaseRunning (fleet.workerId i) key) :
    world.LastLeasedBy (fleet.workerId i) key := by
  obtain ⟨message, hfind, hworker, _⟩ := h.running i key hheld hrunning
  exact h.holder key message _ hfind hworker

/-- A lease takes only messages whose lease, if any, has run out. -/
theorem Fenced.lease (h : Fenced fleet held world) (hdistinct : fleet.Distinct) {i : ι}
    {tenant : TenantId} {nowMs leaseUntil : Int64} {leased : List OutboxMessage}
    {after : InMemoryOutboxStore} (hclock : world.clock ≤ nowMs)
    (hleases : world.store.Leases tenant nowMs (fleet.workerId i) leaseUntil leased after) :
    Fenced fleet (Function.update held i (leased.map (·.key)))
      { store := after
        clock := nowMs
        log := OutboxWorld.leaseEvents (fleet.workerId i) leaseUntil leased ++ world.log } := by
  constructor
  case holder =>
    intro key message worker hfind hworker
    rw [OutboxWorld.LastLeasedBy, OutboxWorld.lastHolder_leaseEvents]
    by_cases hkey : key ∈ leased.map (·.key)
    · obtain ⟨old, _, _, hstored⟩ := hleases.of_mem_keys hkey
      rw [hstored] at hfind
      cases hfind
      rw [if_pos hkey]
      exact hworker
    · rw [if_neg hkey]
      exact h.holder key message worker (hleases.frame key hkey ▸ hfind) hworker
  case running =>
    rintro j key hheld ⟨bound, hdeadline, hbefore⟩
    rw [OutboxWorld.deadline_leaseEvents] at hdeadline ⊢
    by_cases hj : j = i
    · subst j
      rw [Function.update_self] at hheld
      obtain ⟨old, _, _, hstored⟩ := hleases.of_mem_keys hheld
      exact ⟨_, hstored, rfl, by rw [if_pos ⟨rfl, hheld⟩]; rfl⟩
    · have hother : ¬(fleet.workerId j = fleet.workerId i ∧ key ∈ leased.map (·.key)) :=
        fun hsame => hj (hdistinct j i hsame.1)
      rw [Function.update_of_ne hj] at hheld
      rw [if_neg hother] at hdeadline ⊢
      have hrunning : world.OwnLeaseRunning (fleet.workerId j) key :=
        ⟨bound, hdeadline, by grind⟩
      obtain ⟨message, hfind, hworker, huntil⟩ := h.running j key hheld hrunning
      have hkey : key ∉ leased.map (·.key) := by
        intro hmem
        obtain ⟨old, hold, hselectable, _⟩ := hleases.of_mem_keys hmem
        rw [hfind] at hold
        cases hold
        apply hselectable.free
        rw [OutboxMessage.LeasedElsewhere, huntil, hdeadline]
        refine ⟨hbefore, ?_⟩
        rw [hworker]
        exact fun hsame => hj (hdistinct j i (Option.some.inj hsame))
      exact ⟨message, (hleases.frame key hkey).trans hfind, hworker, huntil⟩

/-- The messages another dispatcher holds under a running lease are not settled:
the settlement would have to be out of time. -/
theorem Fenced.settle (h : Fenced fleet held world) (hdistinct : fleet.Distinct) {i : ι}
    {op : DispatchOp} {key : MessageKey} {message : OutboxMessage} (hop : op.settles = some key)
    (hfind : world.store.find key = some message) (hheld : key ∈ held i)
    (htime : world.OwnLeaseRunning (fleet.workerId i) key ∨
      world.LastLeasedBy (fleet.workerId i) key) :
    Fenced fleet (Function.update held i ((held i).filter (· ≠ key)))
      { world with store := world.store.insertRaw (op.rewrite message) } := by
  have hkey := InMemoryOutboxStore.key_of_find hfind
  have hlast : world.LastLeasedBy (fleet.workerId i) key :=
    htime.elim (h.lastLeasedBy hheld) id
  constructor
  case holder =>
    intro other stored worker hstored hworker
    rw [InMemoryOutboxStore.find_insertRaw, DispatchOp.key_rewrite, hkey] at hstored
    split at hstored
    case isTrue =>
      cases hstored
      rw [DispatchOp.worker_rewrite hop] at hworker
      cases hworker
    case isFalse => exact h.holder other stored worker hstored hworker
  case running =>
    intro j other hother hrunning
    rw [InMemoryOutboxStore.find_insertRaw, DispatchOp.key_rewrite, hkey]
    have hheldBefore := Fleet.mem_of_mem_update_filter hother
    have hne : other ≠ key := by
      rintro rfl
      have hlast' := h.lastLeasedBy hheldBefore.1 hrunning
      have hji := hdistinct j i (Option.some.inj (hlast'.symm.trans hlast))
      exact hheldBefore.2 hji rfl
    rw [if_neg hne]
    exact h.running j other hheldBefore.1 hrunning

omit [DecidableEq ι] in
/-- A new message is nobody's. -/
theorem Fenced.enqueue (h : Fenced fleet held world) (new : NewOutboxMessage)
    (createdAt notBefore : Int64) :
    Fenced fleet held (world.enqueue new createdAt notBefore) := by
  rcases world.enqueue_cases new createdAt notBefore with heq | ⟨hfree, heq⟩
  · rwa [heq]
  rw [heq]
  constructor
  case holder =>
    intro key message worker hfind hworker
    rw [InMemoryOutboxStore.find_insertRaw] at hfind
    split at hfind
    case isTrue =>
      cases hfind
      cases hworker
    case isFalse => exact h.holder key message worker hfind hworker
  case running =>
    intro i key hheld hrunning
    obtain ⟨message, hfind, hworker, huntil⟩ := h.running i key hheld hrunning
    refine ⟨message, ?_, hworker, huntil⟩
    rw [InMemoryOutboxStore.find_insertRaw_of_ne]
    · exact hfind
    · rintro rfl
      rw [hfree] at hfind
      cases hfind

omit [DecidableEq ι] in
/-- A heartbeat moves the end of a lease in the store and in the record. -/
theorem Fenced.heartbeat (h : Fenced fleet held world) (i : ι) (tenant : TenantId)
    (id : Id) (leaseUntil : Int64) :
    Fenced fleet held (world.heartbeat (fleet.workerId i) tenant id leaseUntil) := by
  rcases world.heartbeat_cases (fleet.workerId i) tenant id leaseUntil with
    heq | ⟨renewed, hrenewed, hrenewedBy, heq⟩
  · rwa [heq]
  have hrenewedKey := InMemoryOutboxStore.key_of_find hrenewed
  rw [← hrenewedKey] at hrenewed
  rw [heq]
  constructor
  case holder =>
    intro key message worker hfind hworker
    rw [InMemoryOutboxStore.find_insertRaw] at hfind
    split at hfind
    case isTrue hkey =>
      cases hfind
      subst hkey
      exact h.holder _ renewed worker hrenewed hworker
    case isFalse => exact h.holder key message worker hfind hworker
  case running =>
    rintro j key hheld ⟨bound, hdeadline, hbefore⟩
    rw [InMemoryOutboxStore.find_insertRaw, InMemoryOutboxStore.key_renewed]
    rw [deadline] at hdeadline ⊢
    by_cases hrenewal : fleet.workerId j = fleet.workerId i ∧ key = renewed.key
    · rw [if_pos hrenewal] at hdeadline ⊢
      rw [if_pos hrenewal.2, hrenewal.1]
      exact ⟨_, rfl, hrenewedBy, rfl⟩
    · rw [if_neg hrenewal] at hdeadline ⊢
      obtain ⟨message, hfind, hworker, huntil⟩ :=
        h.running j key hheld ⟨bound, hdeadline, hbefore⟩
      have hkey : key ≠ renewed.key := by
        rintro rfl
        rw [hrenewed] at hfind
        cases hfind
        exact hrenewal ⟨Option.some.inj (hworker.symm.trans hrenewedBy), rfl⟩
      exact ⟨message, by rw [if_neg hkey, hfind], hworker, huntil⟩

/-- Letting go of messages asks for less. -/
theorem Fenced.drop (h : Fenced fleet held world) (i : ι) {kept : List MessageKey}
    (hkept : kept ⊆ held i) : Fenced fleet (Function.update held i kept) world :=
  ⟨h.holder, fun j key hheld => h.running j key (Fleet.mem_of_mem_update hkept hheld)⟩

/-- One step, as long as no message is revived, leases are taken in the order of
their times and settlements are in time. -/
theorem Fenced.step {state after : FleetState ι} {action : FleetAction ι}
    {held' : ι → List MessageKey} (h : Fenced fleet held state.shared)
    (hdistinct : fleet.Distinct) (hkeeps : Fleet.KeepsTime state action)
    (hrevive : WithoutRevive state action) (htime : SettlesInTime fleet state action)
    (hstep : fleet.Step held state action held' after) :
    Fenced fleet held' after.shared := by
  cases hstep with
  | tick => exact h.drop _ (List.nil_subset _)
  | enqueue => exact h.enqueue _ _ _
  | heartbeat => exact h.heartbeat _ _ _ _
  | revive => cases hrevive
  | call hthread hpermits heffect =>
      cases heffect with
      | lease hleases =>
          subst hpermits
          exact h.lease hdistinct (hkeeps _ (by rw [hthread]; rfl)) hleases
      | send =>
          rw [show (holding _).after _ (.send _) _ = held _ from rfl,
            Function.update_eq_self]
          exact ⟨h.holder, h.running⟩
      | settle hop hfind =>
          rw [after_of_settles hop]
          exact h.settle hdistinct hop hfind (mem_of_permits hop hpermits)
            (htime _ _ (by rw [hthread]; rfl) hop)
      | missing hop _ =>
          rw [after_of_settles hop]
          exact h.drop _ (List.filter_subset_self _)
      | bystander hop =>
          rw [after_of_isBystander hop, Function.update_eq_self]
          exact h

end Steps

/-- The runs of the fleet in which the times given to `lease_batch` do not go back
and nothing is revived. -/
def Fleet.unrevived (fleet : Fleet ι) : TransitionSystem (FleetState ι) (FleetAction ι) :=
  fleet.system.restrict fun state action => KeepsTime state action ∧ WithoutRevive state action

/-- Those of them in which every settlement is in time. -/
def Fleet.inTime (fleet : Fleet ι) : TransitionSystem (FleetState ι) (FleetAction ι) :=
  fleet.unrevived.restrict (SettlesInTime fleet)

/-- Along these runs the dispatchers obey their discipline and are fenced. -/
theorem fenced_of_reachable {fleet : Fleet ι} (hdistinct : fleet.Distinct)
    {state : FleetState ι} (h : fleet.inTime.Reachable state) :
    ∃ held, fleet.Holds held state ∧ Fenced fleet held state.shared := by
  refine TransitionSystem.invariant
    (fun state => ∃ held, fleet.Holds held state ∧ Fenced fleet held state.shared) ?_ ?_ h
  · rintro _ rfl
    refine ⟨fun _ => [], fleet.holds_start, ?_, ?_⟩
    · intro key message worker hfind
      simp [Fleet.start, OutboxWorld.empty] at hfind
    · intro i key hheld
      cases hheld
  · rintro source action target _ ⟨held, hholds, hfenced⟩ ⟨htime, ⟨hkeeps, hrevive⟩, hnext⟩
    obtain ⟨held', hstep, hholds'⟩ := Fleet.step_of_next hholds hnext
    exact ⟨held', hholds', hfenced.step hdistinct hkeeps hrevive htime hstep⟩

/-- Dispatchers that settle in time leave each other's leases alone. -/
theorem leaseFencing_of_settlesInTime (fleet : Fleet ι) (hdistinct : fleet.Distinct) :
    LeaseFencing fleet fleet.inTime := by
  intro state i j choice after op key message hreach hstep hop hsettles hfind hne hleased
  obtain ⟨held, hholds, hfenced⟩ := fenced_of_reachable hdistinct hreach
  obtain ⟨htime, _, hnext⟩ := hstep
  have hother : state.shared.LastLeasedBy (fleet.workerId j) key :=
    hfenced.holder key message _ hfind hleased.worker
  have hheld : key ∈ held i := by
    obtain ⟨op', resume, _, _, hthread, _, _⟩ := Pool.call_eq_some_iff.mp hnext
    have hfollows := hholds i
    rw [hthread] at hfollows hop
    cases hop
    exact mem_of_permits hsettles hfollows.1
  have hown : state.shared.LastLeasedBy (fleet.workerId i) key :=
    (htime op key hop hsettles).elim (hfenced.lastLeasedBy hheld) id
  exact absurd (hdistinct j i (Option.some.inj (hother.symm.trans hown))) hne

theorem leaseFencing_twoWorkers :
    TwoWorkers.fleet.Distinct ∧ LeaseFencing TwoWorkers.fleet TwoWorkers.fleet.inTime :=
  ⟨TwoWorkers.distinct_fleet, leaseFencing_of_settlesInTime _ TwoWorkers.distinct_fleet⟩

namespace SlowSend

open TwoWorkers

/-- `A` leases the message at time 0 and calls the transport, which takes until
time 10. By then the lease of `A` has run out and `B` leases the message. -/
def untilLateAck : List (FleetAction Bool) :=
  [.enqueue request 0 0,
    .tick false ⟨"t"⟩ 0, .call false (.order [("t", "m")]),
    .call false (.outcome (.ok ())), .call false (.outcome (.ok ())),
    .tick true ⟨"t"⟩ 10, .call true (.order [("t", "m")])]

/-- The state in which `A` acknowledges. -/
def beforeLateAck : FleetState Bool :=
  (TransitionSystem.replayWithin fleet.next
    (fun state action => Fleet.KeepsTime state action ∧ WithoutRevive state action)
    Fleet.start untilLateAck).getD Fleet.start

/-- The state after `A` has acknowledged. -/
def afterLateAck : FleetState Bool :=
  (fleet.next beforeLateAck (.call false .none)).getD beforeLateAck

theorem reachable_beforeLateAck : fleet.unrevived.Reachable beforeLateAck :=
  TransitionSystem.reachable_of_replayWithin untilLateAck (.init rfl) rfl

end SlowSend

/-- `A` overwrites the lease of `B`. -/
theorem not_leaseFencing_slowSend :
    ¬LeaseFencing TwoWorkers.fleet TwoWorkers.fleet.unrevived := by
  intro h
  have hleased : SlowSend.beforeLateAck.shared.LeasedTo (TwoWorkers.fleet.workerId true)
      (InMemoryOutboxStore.leasedTo "B" 20 (buildOutboxMessage TwoWorkers.request 0 0)) :=
    ⟨rfl, rfl, 20, rfl, by decide⟩
  obtain ⟨settled, hfind, hsame⟩ := h SlowSend.beforeLateAck false true .none
    SlowSend.afterLateAck (.ackDone ⟨"t"⟩ ⟨"m"⟩) ("t", "m") _
    SlowSend.reachable_beforeLateAck ⟨⟨nofun, rfl⟩, rfl⟩ rfl rfl rfl (by decide) hleased
  have hdone : (SlowSend.afterLateAck.shared.store.find ("t", "m")).map (·.status) =
      some .done := by decide
  rw [hfind, Option.map_some, hsame.status] at hdone
  cases hdone

end Soulbase.Tx
