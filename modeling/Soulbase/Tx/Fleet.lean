/-
# Dispatchers over one store

Any number of dispatchers tick over one in-memory outbox store, interleaved at
the granularity of single calls, while producers enqueue, workers send heartbeats
and operators revive messages. Whether their worker ids are `Distinct` and whether
the times of their ticks never go back, `KeepsTime`, is left to the results that
need it.

A dispatcher may only send and settle messages of the batch it has leased in
its present tick. That is a property of the program `Dispatcher.tick`, and is
stated and proved as one, `follows_tick`: the standing of a caller is the list
of the messages it has leased and not yet settled.
-/

import Soulbase.Foundation.Transition
import Soulbase.Tx.Dispatcher

namespace Soulbase.Tx

open Soulbase.Foundation

namespace OutboxEvent

/-- The worker that last leased a message. -/
def lastHolder : List OutboxEvent → MessageKey → Option String
  | [], _ => none
  | .leased worker key' _ :: rest, key =>
      if key = key' then some worker else lastHolder rest key
  | .renewed _ _ _ :: rest, key => lastHolder rest key
  | .sent _ _ _ :: rest, key => lastHolder rest key

/-- The end of a worker's lease of a message, as last set by its leasing the
message or by a heartbeat. -/
def deadline : List OutboxEvent → String → MessageKey → Option Int64
  | [], _, _ => none
  | .leased worker' key' leaseUntil :: rest, worker, key
  | .renewed worker' key' leaseUntil :: rest, worker, key =>
      if worker = worker' ∧ key = key' then some leaseUntil else deadline rest worker key
  | .sent _ _ _ :: rest, worker, key => deadline rest worker key

/-- The message of an event, if it was leased or sent. -/
def handled : OutboxEvent → Option MessageKey
  | .leased _ key _ | .sent _ key _ => some key
  | .renewed .. => none

end OutboxEvent

namespace OutboxWorld

open OutboxEvent

/-- The lease that the worker took of the message has not run out. -/
def OwnLeaseRunning (world : OutboxWorld) (worker : String) (key : MessageKey) : Prop :=
  ∃ leaseUntil, deadline world.log worker key = some leaseUntil ∧ world.clock < leaseUntil

/-- Nobody has leased the message since the worker did. -/
def LastLeasedBy (world : OutboxWorld) (worker : String) (key : MessageKey) : Prop :=
  lastHolder world.log key = some worker

section LeaseEvents

variable {worker : String} {leaseUntil : Int64} {log : List OutboxEvent}
variable {leased : List OutboxMessage} {key : MessageKey}

theorem lastHolder_leaseEvents :
    lastHolder (leaseEvents worker leaseUntil leased ++ log) key =
      if key ∈ leased.map (·.key) then some worker else lastHolder log key := by
  induction leased with
  | nil => rfl
  | cons message rest ih =>
      simp only [leaseEvents, List.map_cons, List.cons_append, lastHolder] at ih ⊢
      rw [ih]
      by_cases hkey : key = message.key <;> simp [hkey]

theorem deadline_leaseEvents {other : String} :
    deadline (leaseEvents worker leaseUntil leased ++ log) other key =
      if other = worker ∧ key ∈ leased.map (·.key) then some leaseUntil
      else deadline log other key := by
  induction leased with
  | nil => simp [leaseEvents]
  | cons message rest ih =>
      simp only [leaseEvents, List.map_cons, List.cons_append, deadline] at ih ⊢
      rw [ih]
      by_cases hworker : other = worker <;> by_cases hkey : key = message.key <;>
        simp [hworker, hkey]

theorem handled_of_mem_leaseEvents {event : OutboxEvent}
    (h : event ∈ leaseEvents worker leaseUntil leased) :
    ∃ message ∈ leased, event.handled = some message.key := by
  obtain ⟨message, hmem, rfl⟩ := List.mem_map.mp h
  exact ⟨message, hmem, rfl⟩

end LeaseEvents

/-- A producer enqueues a message. -/
def enqueue (world : OutboxWorld) (message : NewOutboxMessage)
    (createdAt notBefore : Int64) : OutboxWorld :=
  { world with store := (world.store.enqueue message createdAt notBefore).2 }

/-- A worker asks for its lease to be moved. -/
def heartbeat (world : OutboxWorld) (worker : String) (tenant : TenantId) (id : Id)
    (leaseUntil : Int64) : OutboxWorld :=
  match world.store.heartbeat tenant id leaseUntil worker with
  | (.ok (), store) =>
      { world with
        store := store
        log := .renewed worker (messageKey tenant id) leaseUntil :: world.log }
  | (.error _, _) => world

/-- An operator revives a message. -/
def revive (world : OutboxWorld) (tenant : TenantId) (id : Id) (time : Int64) :
    OutboxWorld :=
  { world with store := (world.store.revive tenant id time).2 }

theorem enqueue_cases (world : OutboxWorld) (message : NewOutboxMessage)
    (createdAt notBefore : Int64) :
    world.enqueue message createdAt notBefore = world ∨
      world.store.find (buildOutboxMessage message createdAt notBefore).key = none ∧
        world.enqueue message createdAt notBefore =
          { world with
            store := world.store.insertRaw
              (buildOutboxMessage message createdAt notBefore) } := by
  rcases world.store.enqueue_cases message createdAt notBefore with
    ⟨error, h⟩ | ⟨hfree, h⟩
  · exact .inl (by rw [enqueue, h])
  · exact .inr ⟨hfree, by rw [enqueue, h]⟩

/-- A heartbeat changes something only for the worker that the store names as
the holder. -/
theorem heartbeat_cases (world : OutboxWorld) (worker : String) (tenant : TenantId)
    (id : Id) (leaseUntil : Int64) :
    world.heartbeat worker tenant id leaseUntil = world ∨
      ∃ message, world.store.find (messageKey tenant id) = some message ∧
        message.worker = some worker ∧
        world.heartbeat worker tenant id leaseUntil =
          { world with
            store := world.store.insertRaw
              (InMemoryOutboxStore.renewed leaseUntil message)
            log := .renewed worker message.key leaseUntil :: world.log } := by
  cases hfind : world.store.find (messageKey tenant id) with
  | none =>
      apply Or.inl
      simp only [heartbeat, InMemoryOutboxStore.heartbeat,
        InMemoryOutboxStore.withMessage_of_missing hfind]
  | some message =>
      by_cases hworker : message.worker = some worker
      · refine .inr ⟨message, rfl, hworker, ?_⟩
        rw [InMemoryOutboxStore.key_of_find hfind]
        simp only [heartbeat, InMemoryOutboxStore.heartbeat,
          InMemoryOutboxStore.withMessage, hfind, hworker, ne_eq, not_true_eq_false,
          if_false]
      · apply Or.inl
        simp only [heartbeat, InMemoryOutboxStore.heartbeat,
          InMemoryOutboxStore.withMessage, hfind, hworker, ne_eq, not_false_eq_true,
          if_true]

theorem revive_cases (world : OutboxWorld) (tenant : TenantId) (id : Id) (time : Int64) :
    world.revive tenant id time = world ∨
      ∃ message, world.store.find (messageKey tenant id) = some message ∧
        world.revive tenant id time =
          { world with
            store := world.store.insertRaw (InMemoryOutboxStore.revived time message) } := by
  cases hfind : world.store.find (messageKey tenant id) with
  | none =>
      apply Or.inl
      rw [revive, InMemoryOutboxStore.revive,
        InMemoryOutboxStore.withMessage_of_missing hfind]
  | some message =>
      refine .inr ⟨message, rfl, ?_⟩
      rw [revive, InMemoryOutboxStore.revive,
        InMemoryOutboxStore.withMessage_of_find hfind rfl]

end OutboxWorld

/-- A dispatcher leases under its own name and then sends and settles only
messages it holds: those of the batch, each until it is settled. -/
def holding (worker : String) :
    Discipline DispatchOp DispatchOp.Answer (List MessageKey) where
  permits held
    | .leaseBatch _ _ _ _ workerId _ => workerId = worker
    | .send message => message.key ∈ held
    | op => ∀ key, op.settles = some key → key ∈ held
  ensures
    | .leaseBatch tenant .., .ok leased =>
        (leased.map (·.key)).Nodup ∧ ∀ message ∈ leased, message.tenant = tenant
    | _, _ => True
  after held
    | .leaseBatch .., .ok leased => leased.map (·.key)
    | .leaseBatch .., .error _ => []
    | op, _ =>
        match op.settles with
        | none => held
        | some key => held.filter (· ≠ key)

section Holding

variable {worker : String} {held : List MessageKey} {op : DispatchOp} {answer : op.Answer}

theorem mem_of_permits {key : MessageKey} (hop : op.settles = some key)
    (h : (holding worker).permits held op) : key ∈ held := by
  cases op <;> first | exact h key hop | cases hop

theorem after_of_settles {key : MessageKey} (hop : op.settles = some key) :
    (holding worker).after held op answer = held.filter (· ≠ key) := by
  cases op <;> cases hop <;> rfl

theorem after_of_isBystander (hop : op.isBystander = true) :
    (holding worker).after held op answer = held := by
  cases op <;> first | rfl | cases hop

end Holding

/-- What working through one message leaves held: the rest of the batch. After
an error the tick ends, and nothing more is promised. -/
def LeavesHeld (rest : List MessageKey) : TxResult Unit → List MessageKey → Prop
  | .ok (), held => held = rest
  | .error _, _ => True

namespace Dispatcher

variable {dispatcher : Dispatcher} {worker : String} {nowMs : Int64}
variable {message : OutboxMessage} {rest held : List MessageKey}

theorem filter_ne_cons_self {key : MessageKey} (hfresh : key ∉ rest) :
    (key :: rest).filter (· ≠ key) = rest := by
  have hrest : rest.filter (· ≠ key) = rest := by
    rw [List.filter_eq_self]
    intro other hother
    exact decide_eq_true fun h => hfresh (h ▸ hother)
  rw [List.filter_cons_of_neg (by simp), hrest]

/-- The last call for a message tells the budget guard. -/
theorem follows_onDispatchResult {tenant : TenantId} {success : Bool} (h : held = rest) :
    (attempt (call (.onDispatchResult tenant message success))).run.Follows
      (holding worker) (LeavesHeld rest) held := by
  refine ⟨nofun, ?_⟩
  rintro (error | _) -
  · trivial
  · exact h

theorem follows_giveUpOrRetry {error : TxError} (hfresh : message.key ∉ rest) :
    (dispatcher.giveUpOrRetry message.tenant nowMs message error).run.Follows
      (holding worker) (LeavesHeld rest) (message.key :: rest) := by
  have hafter := filter_ne_cons_self hfresh
  have hheld : ∀ key, some message.key = some key → key ∈ message.key :: rest := by
    rintro key ⟨⟩
    exact List.mem_cons_self
  unfold giveUpOrRetry
  dsimp only
  split
  case isTrue _ =>
    refine ⟨hheld, ?_⟩
    rintro (_ | letter) -
    · trivial
    · cases dispatcher.deadStore with
      | false => exact follows_onDispatchResult hafter
      | true =>
          refine ⟨nofun, ?_⟩
          rintro (_ | _) -
          · trivial
          · exact follows_onDispatchResult hafter
  case isFalse _ =>
    refine ⟨nofun, ?_⟩
    rintro next -
    refine ⟨hheld, ?_⟩
    rintro (_ | _) -
    · trivial
    · exact follows_onDispatchResult hafter

theorem follows_dispatch (hfresh : message.key ∉ rest) :
    (dispatcher.dispatch message.tenant nowMs message).run.Follows (holding worker)
      (LeavesHeld rest) (message.key :: rest) := by
  refine ⟨nofun, ?_⟩
  rintro (_ | _) -
  · trivial
  refine ⟨List.mem_cons_self, ?_⟩
  rintro (error | _) -
  · exact follows_giveUpOrRetry hfresh
  refine ⟨?_, ?_⟩
  · rintro key ⟨⟩
    exact List.mem_cons_self
  rintro (_ | _) -
  · trivial
  · exact follows_onDispatchResult (filter_ne_cons_self hfresh)

/-- Working through a batch, by induction on what is left of it. -/
theorem follows_forM_dispatch {tenant : TenantId} {messages : List OutboxMessage}
    (hnodup : (messages.map (·.key)).Nodup)
    (htenant : ∀ message ∈ messages, message.tenant = tenant) :
    (messages.forM (dispatcher.dispatch tenant nowMs)).run.Follows (holding worker)
      (LeavesHeld []) (messages.map (·.key)) := by
  induction messages with
  | nil => rfl
  | cons message rest ih =>
      obtain ⟨hfresh, hrest⟩ := List.nodup_cons.mp hnodup
      have hmessage := htenant message List.mem_cons_self
      subst hmessage
      refine follows_fallible_bind (follows_dispatch hfresh) (fun _ _ _ => trivial) ?_
      rintro ⟨⟩ held rfl
      exact ih hrest fun other hother => htenant other (List.mem_cons_of_mem _ hother)

/-- A tick obeys the discipline, whatever it held before. -/
theorem follows_tick (dispatcher : Dispatcher) (tenant : TenantId) (nowMs : Int64)
    (held : List MessageKey) :
    (dispatcher.tick tenant nowMs).run.Follows (holding dispatcher.workerId)
      (LeavesHeld []) held := by
  refine ⟨rfl, ?_⟩
  rintro (_ | leased) hleased
  · trivial
  · exact follows_forM_dispatch hleased.1 hleased.2

end Dispatcher

/-- Dispatchers over one store. -/
structure Fleet (ι : Type) where
  dispatcher : ι → Dispatcher

/-- The shared store with its record, and what each dispatcher has left of its
present tick. -/
abbrev FleetState (ι : Type) :=
  Pool ι DispatchOp DispatchOp.Answer (TxResult Unit) OutboxWorld

/-- What may happen next. -/
inductive FleetAction (ι : Type)
  /-- An idle dispatcher begins a tick. -/
  | tick (i : ι) (tenant : TenantId) (nowMs : Int64)
  /-- A dispatcher makes the next call of its tick. -/
  | call (i : ι) (choice : DispatchChoice)
  | enqueue (message : NewOutboxMessage) (createdAt notBefore : Int64)
  | heartbeat (i : ι) (tenant : TenantId) (id : Id) (leaseUntil : Int64)
  | revive (tenant : TenantId) (id : Id) (time : Int64)

/-- The message an action revives. -/
def FleetAction.revives {ι : Type} : FleetAction ι → Option MessageKey
  | .revive tenant id _ => some (messageKey tenant id)
  | .tick .. | .call .. | .enqueue .. | .heartbeat .. => none

namespace Fleet

variable {ι : Type} [DecidableEq ι]

/-- The worker id of a dispatcher. -/
def workerId (fleet : Fleet ι) (i : ι) : String := (fleet.dispatcher i).workerId

/-- No two dispatchers have the same worker id. -/
def Distinct (fleet : Fleet ι) : Prop :=
  ∀ i j, fleet.workerId i = fleet.workerId j → i = j

/-- An empty store and idle dispatchers. -/
def start : FleetState ι where
  shared := .empty
  threads := fun _ => .done (.ok ())

/-- The step function. -/
def next (fleet : Fleet ι) (state : FleetState ι) : FleetAction ι → Option (FleetState ι)
  | .tick i tenant nowMs => state.spawn i ((fleet.dispatcher i).tick tenant nowMs).run
  | .call i choice => state.call (OutboxWorld.answer (fleet.workerId i)) i choice
  | .enqueue message createdAt notBefore =>
      some { state with shared := state.shared.enqueue message createdAt notBefore }
  | .heartbeat i tenant id leaseUntil =>
      some { state with
        shared := state.shared.heartbeat (fleet.workerId i) tenant id leaseUntil }
  | .revive tenant id time =>
      some { state with shared := state.shared.revive tenant id time }

/-- The fleet as a transition system. -/
def system (fleet : Fleet ι) : TransitionSystem (FleetState ι) (FleetAction ι) :=
  .ofNext start fleet.next

/-- A batch is leased no earlier than the last one. -/
def KeepsTime (state : FleetState ι) : FleetAction ι → Prop
  | .call i _ => ∀ nowMs ∈ (state.threads i).head?.bind DispatchOp.leasesAt,
      state.shared.clock ≤ nowMs
  | .tick .. | .enqueue .. | .heartbeat .. | .revive .. => True

instance (state : FleetState ι) (action : FleetAction ι) : Decidable (KeepsTime state action) :=
  match action with
  | .call i _ => Option.decidableForallMem ((state.threads i).head?.bind DispatchOp.leasesAt)
  | .tick .. | .enqueue .. | .heartbeat .. | .revive .. => .isTrue trivial

/-- The runs in which the times given to `lease_batch` never go back. -/
def inOrder (fleet : Fleet ι) : TransitionSystem (FleetState ι) (FleetAction ι) :=
  fleet.system.restrict KeepsTime

/-- The answers of the store are as the discipline expects them. -/
theorem ensures_of_effect {worker : String} {world after : OutboxWorld}
    {op : DispatchOp} {answer : op.Answer}
    (h : OutboxWorld.Effect worker world op answer after) :
    (holding worker).ensures op answer := by
  cases h with
  | lease hleases => exact ⟨hleases.nodup, fun _ hmem => hleases.tenant_eq hmem⟩
  | send => trivial
  | settle hop _ | missing hop _ | bystander hop => cases op <;> trivial

/-- Who lets go of messages holds no more than before. -/
theorem mem_of_mem_update {held : ι → List MessageKey} {i j : ι} {kept : List MessageKey}
    {key : MessageKey} (hkept : kept ⊆ held i) (h : key ∈ Function.update held i kept j) :
    key ∈ held j := by
  by_cases hj : j = i
  · subst j
    exact hkept (by simpa using h)
  · simpa [hj] using h

/-- What is held once a message has been settled was held before, and by its
settler only if it is another message. -/
theorem mem_of_mem_update_filter {held : ι → List MessageKey} {i j : ι}
    {settled key : MessageKey}
    (h : key ∈ Function.update held i ((held i).filter (· ≠ settled)) j) :
    key ∈ held j ∧ (j = i → key ≠ settled) := by
  by_cases hj : j = i
  · subst j
    simpa using h
  · rw [Function.update_of_ne hj] at h
    exact ⟨h, fun hji => absurd hji hj⟩

/-- Every dispatcher is obeying the discipline with the messages it holds. -/
def Holds (fleet : Fleet ι) (held : ι → List MessageKey) (state : FleetState ι) : Prop :=
  ∀ i, (state.threads i).Follows (holding (fleet.workerId i)) (LeavesHeld []) (held i)

omit [DecidableEq ι] in
theorem holds_start (fleet : Fleet ι) : fleet.Holds (fun _ => []) start :=
  fun _ => rfl

/-- Every step of the fleet: a tick begins, a call has one of its effects, or
the store is changed from outside. In each case the dispatchers go on obeying
the discipline, with the messages that they then hold. -/
inductive Step (fleet : Fleet ι) (held : ι → List MessageKey) (state : FleetState ι) :
    FleetAction ι → (ι → List MessageKey) → FleetState ι → Prop
  | tick {i : ι} {tenant : TenantId} {nowMs : Int64} {threads} :
      Step fleet held state (.tick i tenant nowMs) (Function.update held i [])
        { state with threads := threads }
  | call {i : ι} {choice : DispatchChoice} {op : DispatchOp} {resume} {answer : op.Answer}
      {world : OutboxWorld} {threads} :
      state.threads i = .call op resume →
        (holding (fleet.workerId i)).permits (held i) op →
          OutboxWorld.Effect (fleet.workerId i) state.shared op answer world →
            Step fleet held state (.call i choice)
              (Function.update held i
                ((holding (fleet.workerId i)).after (held i) op answer))
              { shared := world, threads := threads }
  | enqueue {message : NewOutboxMessage} {createdAt notBefore : Int64} :
      Step fleet held state (.enqueue message createdAt notBefore) held
        { state with shared := state.shared.enqueue message createdAt notBefore }
  | heartbeat {i : ι} {tenant : TenantId} {id : Id} {leaseUntil : Int64} :
      Step fleet held state (.heartbeat i tenant id leaseUntil) held
        { state with
          shared := state.shared.heartbeat (fleet.workerId i) tenant id leaseUntil }
  | revive {tenant : TenantId} {id : Id} {time : Int64} :
      Step fleet held state (.revive tenant id time) held
        { state with shared := state.shared.revive tenant id time }

theorem step_of_next {fleet : Fleet ι} {held : ι → List MessageKey}
    {state after : FleetState ι} {action : FleetAction ι} (hholds : fleet.Holds held state)
    (h : fleet.next state action = some after) :
    ∃ held', fleet.Step held state action held' after ∧ fleet.Holds held' after := by
  cases action with
  | tick i tenant nowMs =>
      obtain ⟨_, rfl⟩ := Pool.spawn_eq_some_iff.mp h
      exact ⟨_, .tick,
        Pool.follows_begin hholds (Dispatcher.follows_tick _ tenant nowMs [])⟩
  | call i choice =>
      obtain ⟨op, resume, answer, world, hthread, hanswer, rfl⟩ :=
        Pool.call_eq_some_iff.mp h
      have heffect := OutboxWorld.effect_of_answer hanswer
      have hpermits := hholds i
      rw [hthread] at hpermits
      exact ⟨_, .call hthread hpermits.1 heffect,
        Pool.follows_call hholds hthread (ensures_of_effect heffect)⟩
  | enqueue message createdAt notBefore =>
      cases h
      exact ⟨held, .enqueue, hholds⟩
  | heartbeat i tenant id leaseUntil =>
      cases h
      exact ⟨held, .heartbeat, hholds⟩
  | revive tenant id time =>
      cases h
      exact ⟨held, .revive, hholds⟩

end Fleet

/-! ## Two workers

The smallest fleet in which one dispatcher can be overtaken by another, for the
runs that show what the store does then. -/

namespace TwoWorkers

/-- Two dispatchers, `A` and `B`, with leases of ten milliseconds. -/
def fleet : Fleet Bool where
  dispatcher i :=
    { workerId := if i then "B" else "A"
      maxAttempts := 3
      leaseMs := 10
      batch := 1
      groupByDispatchKey := false
      deadStore := false }

theorem distinct_fleet : fleet.Distinct :=
  show ∀ i j : Bool, (fleet.dispatcher i).workerId = (fleet.dispatcher j).workerId → i = j by
    decide

/-- A message for them. -/
def request : NewOutboxMessage where
  id := ⟨"m"⟩
  tenant := ⟨"t"⟩
  envelopeId := ⟨"e"⟩
  topic := "topic"
  payload := .null
  notBefore := none
  dispatchKey := none

end TwoWorkers

end Soulbase.Tx
