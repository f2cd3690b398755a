/-
# Progress of a dispatcher

The work of one dispatcher is bounded by what it is given. A tick that completes
while a message is due sends something, every message is sent a bounded number of
times, and so the number of such ticks is at most that number for every message that
was enqueued. Once nothing is enqueued any more, a dispatcher comes to the point from
which on every tick that completes finds nothing due: what is left of its messages is
done, dead, or delayed.

A batch size of zero is no exception, as it selects one message like a batch of one.
Ticks that end with an error are not counted: the budget guard may refuse the first
message of the batch every time.
-/

import Soulbase.Foundation.Potential
import Soulbase.Tx.Delivery
import Soulbase.Tx.SelectMessages

namespace Soulbase.Tx

open Soulbase.Foundation OutboxEvent

/-- What happens to the store of one dispatcher, with what can be seen of a tick: whether
a message was due at its beginning, and whether it completed. -/
inductive WorkAction
  | enqueue (message : NewOutboxMessage) (createdAt notBefore : Int64)
  | tick (tenant : TenantId) (nowMs : Int64) (due completed : Bool)

namespace WorkAction

/-- A message is given to the dispatcher. -/
def gives : WorkAction → Bool
  | enqueue .. => true
  | tick .. => false

/-- A tick with something due completes. -/
def productive : WorkAction → Bool
  | enqueue .. => false
  | tick _ _ due completed => due && completed

end WorkAction

/-- A message of the tenant is due for the worker. -/
def OutboxWorld.Due (world : OutboxWorld) (tenant : TenantId) (nowMs : Int64)
    (workerId : String) : Prop :=
  ∃ key message, world.store.find key = some message ∧
    message.Selectable tenant nowMs workerId

/-- The dispatcher alone, as in `Dispatcher.delivery`, with ticks that can be told apart. -/
def Dispatcher.work (dispatcher : Dispatcher) : TransitionSystem OutboxWorld WorkAction where
  init world := world = .empty
  step world action after :=
    match action with
    | .enqueue message createdAt notBefore =>
        after = world.enqueue message createdAt notBefore
    | .tick tenant nowMs due completed =>
        (due = true ↔ world.Due tenant nowMs dispatcher.workerId) ∧ ∃ result,
          result.isOk = completed ∧ Exec (OutboxWorld.answer dispatcher.workerId)
            (dispatcher.tick tenant nowMs).run world result after

/-- The message of a send. -/
def OutboxEvent.sentKey : OutboxEvent → Option MessageKey
  | .sent _ key _ => some key
  | .leased .. | .renewed .. => none

/-- The messages sent, as often as they were. -/
def OutboxWorld.allSends (world : OutboxWorld) : List MessageKey :=
  world.log.filterMap sentKey

theorem countP_filterMap_sentKey (log : List OutboxEvent) (key : MessageKey) :
    (log.filterMap sentKey).countP (· = key) = sends log key true + sends log key false := by
  induction log with
  | nil => rfl
  | cons event log ih =>
      cases event with
      | leased | renewed => exact ih
      | sent worker other delivered =>
          have hkey : sentKey (.sent worker other delivered) = some other := rfl
          rw [sends_sent, sends_sent, List.filterMap_cons_some hkey, List.countP_cons, ih]
          cases delivered <;> by_cases hother : other = key <;> simp [hother] <;> omega

/-- There are no more sends than the stored messages account for. -/
theorem length_allSends_le {maxSends : ℕ} {world : OutboxWorld}
    (h : Accounted maxSends world) :
    world.allSends.length ≤ maxSends * world.store.messages.keys.length := by
  have hcount : ∀ key, world.allSends.countP (· = key) ≤ maxSends ∧
      (world.store.find key = none → world.allSends.countP (· = key) = 0) := by
    intro key
    rw [OutboxWorld.allSends, countP_filterMap_sentKey]
    have hbalanced := h key
    cases hfind : world.store.find key with
    | none =>
        rw [hfind] at hbalanced
        obtain ⟨hdelivered, hfailed⟩ := hbalanced
        omega
    | some message =>
        rw [hfind] at hbalanced
        unfold Balanced at hbalanced
        refine ⟨?_, nofun⟩
        cases hstatus : message.status <;> simp only [hstatus] at hbalanced <;> omega
  refine length_le_mul_of_count_le ?_ fun key => (hcount key).1
  intro key hkey
  have hpositive : 0 < world.allSends.countP (· = key) :=
    List.countP_pos_iff.mpr ⟨key, hkey, decide_eq_true rfl⟩
  cases hfind : world.store.find key with
  | none => exact absurd ((hcount key).2 hfind) (Nat.ne_of_gt hpositive)
  | some message => exact AList.lookup_isSome.mp (Option.isSome_of_eq_some hfind)

section Tick

variable {dispatcher : Dispatcher} {tenant : TenantId} {nowMs : Int64}
variable {world after : OutboxWorld} {worker : String}

/-- Where a message is due, the batch is not empty. -/
theorem leaseBatch_ne_nil {leaseMs : Int64} {batch : ℕ} {groupByKey : Bool}
    {order : List MessageKey} (hdue : world.Due tenant nowMs worker)
    (horder : world.store.messages.Enumerates order) :
    (world.store.leaseBatch tenant nowMs leaseMs batch worker groupByKey order).1 ≠ [] := by
  obtain ⟨chosen, hselects, hids⟩ := selectMessages_eq (world.store.messages.valuesIn order)
    tenant nowMs batch worker groupByKey
  have hbatch : (world.store.leaseBatch tenant nowMs leaseMs batch worker groupByKey order).1 =
      chosen.map (InMemoryOutboxStore.leasedTo worker (nowMs + leaseMs)) := by
    obtain ⟨_, _, hresult⟩ := world.store.leaseBatch_of_selects horder hselects hids
    rw [hresult]
  rw [hbatch]
  intro hempty
  obtain rfl := List.map_eq_nil_iff.mp hempty
  obtain ⟨key, message, hfind, hselectable⟩ := hdue
  rw [selectMessages_eq_take, List.map_nil, List.map_eq_nil_iff, List.take_eq_nil_iff,
    firstOfEach_eq_nil_iff, List.filter_eq_nil_iff] at hids
  have hstored : message ∈ world.store.messages.valuesIn order :=
    HashMap.mem_valuesIn.mpr ⟨key, horder.mem_iff.mpr
      (AList.lookup_isSome.mp (Option.isSome_of_eq_some hfind)), hfind⟩
  have hnot := (hids.resolve_left (by omega)) message hstored
  exact hnot (by simpa using eligible_iff.mpr hselectable)

/-- The record of sends only grows. -/
theorem allSends_le_of_exec {α : Type} {program : Program DispatchOp DispatchOp.Answer α}
    {value : α} (h : Exec (OutboxWorld.answer worker) program world value after) :
    world.allSends.length ≤ after.allSends.length := by
  refine h.preserves (fun next => world.allSends.length ≤ next.allSends.length) ?_
    (Nat.le_refl _)
  intro env choice op answer next hanswer hle
  refine hle.trans ?_
  cases OutboxWorld.effect_of_answer hanswer with
  | lease | send =>
      simp only [OutboxWorld.allSends, List.filterMap_append, List.filterMap_cons,
        List.length_append]
      first
        | exact Nat.le_add_left _ _
        | exact Nat.le_succ _
  | settle | missing | bystander => exact Nat.le_refl _

/-- Working through a message without an error sends it. -/
theorem allSends_lt_of_dispatch {message : OutboxMessage}
    (h : Exec (OutboxWorld.answer worker) (dispatcher.dispatch tenant nowMs message).run
      world (.ok ()) after) :
    world.allSends.length < after.allSends.length := by
  rcases exec_fallible_bind_iff.mp h with ⟨_, _, herror⟩ | ⟨_, middle, hattempt, hrest⟩
  · cases herror
  have hmiddle := exec_isBystander rfl hattempt
  subst hmiddle
  obtain ⟨outcome, sent, hsend, hrest⟩ := exec_lift_bind_iff.mp hrest
  have hsent := exec_send hsend
  have hgrown := allSends_le_of_exec hrest
  rw [hsent] at hgrown
  exact hgrown

/-- A tick that completes with something due sends something. -/
theorem allSends_lt_of_tick (hdue : world.Due tenant nowMs dispatcher.workerId)
    (h : Exec (OutboxWorld.answer dispatcher.workerId) (dispatcher.tick tenant nowMs).run
      world (.ok ()) after) :
    world.allSends.length < after.allSends.length := by
  rcases exec_fallible_bind_iff.mp h with ⟨_, _, herror⟩ | ⟨leased, middle, hlease, hrest⟩
  · cases herror
  have hgrown := allSends_le_of_exec hlease
  obtain ⟨choice, hanswer⟩ := exec_perform_iff.mp hlease
  cases choice with
  | order order =>
      simp only [OutboxWorld.answer] at hanswer
      split at hanswer
      case isFalse => cases hanswer
      case isTrue hallowed =>
        cases hanswer
        generalize hleased : (world.store.leaseBatch tenant nowMs dispatcher.leaseMs
          dispatcher.batch dispatcher.workerId dispatcher.groupByDispatchKey order).1 = leased
            at hrest hgrown
        cases leased with
        | nil => exact absurd hleased (leaseBatch_ne_nil hdue hallowed)
        | cons first others =>
            rcases exec_fallible_bind_iff.mp hrest with
              ⟨_, _, herror⟩ | ⟨_, last, hfirst, hothers⟩
            · cases herror
            · exact hgrown.trans_lt
                ((allSends_lt_of_dispatch hfirst).trans_le (allSends_le_of_exec hothers))
  | outcome | time | hooked | none => cases hanswer

end Tick

section Runs

variable {dispatcher : Dispatcher} {world after : OutboxWorld}

/-- What the dispatcher does here it does in `Dispatcher.delivery`. -/
theorem accounted_of_work (h : dispatcher.work.Reachable world) :
    Accounted dispatcher.maxSends world := by
  apply accounted_of_reachable
  induction h with
  | init hinit => exact .init hinit
  | @step source target action _ hstep ih =>
      cases action with
      | enqueue message createdAt notBefore =>
          have hdelivery : dispatcher.delivery.step source
              (.enqueue message createdAt notBefore) target := hstep
          exact ih.step hdelivery
      | tick tenant nowMs due completed =>
          obtain ⟨_, result, _, hexec⟩ := hstep
          have hdelivery : dispatcher.delivery.step source (.tick tenant nowMs) target :=
            ⟨result, hexec⟩
          exact ih.step hdelivery

/-- The number of stored messages. -/
def OutboxWorld.size (world : OutboxWorld) : ℕ := world.store.messages.keys.length

/-- A store without new keys is not larger. -/
theorem size_le_of_find
    (h : ∀ key message, after.store.find key = some message →
      ∃ old, world.store.find key = some old) : after.size ≤ world.size := by
  refine (after.store.messages.keys_nodup.subperm fun key hkey => ?_).length_le
  have hget := AList.lookup_isSome.mpr (AList.mem_keys.mp hkey)
  obtain ⟨message, hmessage⟩ := Option.isSome_iff_exists.mp hget
  obtain ⟨old, hold⟩ := h key message hmessage
  exact AList.mem_keys.mpr (AList.lookup_isSome.mp (Option.isSome_of_eq_some hold))

/-- A tick stores no new messages. -/
theorem size_le_of_exec {α : Type} {worker : String}
    {program : Program DispatchOp DispatchOp.Answer α} {value : α}
    (h : Exec (OutboxWorld.answer worker) program world value after) :
    after.size ≤ world.size := by
  refine h.preserves (fun next => next.size ≤ world.size) ?_ (Nat.le_refl _)
  intro env choice op answer next hanswer hle
  refine (size_le_of_find ?_).trans hle
  intro key message hfind
  cases OutboxWorld.effect_of_answer hanswer with
  | @lease tenant nowMs leaseMs batch workerId groupByKey leased store hleases =>
      by_cases hkey : key ∈ leased.map (·.key)
      · obtain ⟨old, hold, _⟩ := hleases.of_mem_keys hkey
        exact ⟨old, hold⟩
      · exact ⟨message, (hleases.frame key hkey).symm.trans hfind⟩
  | send => exact ⟨message, hfind⟩
  | settle _ hfound =>
      rw [InMemoryOutboxStore.find_insertRaw, DispatchOp.key_rewrite,
        InMemoryOutboxStore.key_of_find hfound] at hfind
      split at hfind
      case isTrue hkey => exact ⟨_, hkey ▸ hfound⟩
      case isFalse => exact ⟨message, hfind⟩
  | missing | bystander => exact ⟨message, hfind⟩

theorem size_enqueue_le (world : OutboxWorld) (message : NewOutboxMessage)
    (createdAt notBefore : Int64) :
    (world.enqueue message createdAt notBefore).size ≤ world.size + 1 := by
  rcases world.enqueue_cases message createdAt notBefore with heq | ⟨_, heq⟩
  · rw [heq]
    exact Nat.le_succ _
  · rw [heq]
    have hkeys : (world.store.insertRaw
        (buildOutboxMessage message createdAt notBefore)).messages.keys ⊆
          (buildOutboxMessage message createdAt notBefore).key :: world.store.messages.keys := by
      intro key hkey
      rcases (AList.mem_insert _).mp (AList.mem_keys.mp hkey) with rfl | hold
      · exact List.mem_cons_self
      · exact List.mem_cons_of_mem _ (AList.mem_keys.mp hold)
    exact ((AList.keys_nodup _).subperm hkeys).length_le

/-- One step: what it gives and what it does. -/
theorem size_le_of_step {action : WorkAction} (h : dispatcher.work.step world action after) :
    after.size ≤ world.size + action.gives.toNat := by
  cases action with
  | enqueue message createdAt notBefore =>
      subst h
      exact size_enqueue_le world message createdAt notBefore
  | tick tenant nowMs due completed =>
      obtain ⟨_, _, _, hexec⟩ := h
      exact size_le_of_exec hexec

theorem allSends_le_of_step {action : WorkAction} (h : dispatcher.work.step world action after) :
    world.allSends.length + action.productive.toNat ≤ after.allSends.length := by
  cases action with
  | enqueue message createdAt notBefore =>
      subst h
      exact Nat.le_refl _
  | tick tenant nowMs due completed =>
      obtain ⟨hdue, result, hresult, hexec⟩ := h
      by_cases hproductive : due = true ∧ completed = true
      · obtain ⟨rfl, rfl⟩ := hproductive
        cases result with
        | ok _ => exact allSends_lt_of_tick (hdue.mp rfl) hexec
        | error _ => cases hresult
      · have hnot : (due && completed) = false := by simpa using hproductive
        rw [WorkAction.productive, hnot]
        exact allSends_le_of_exec hexec

theorem sum_map_toNat {Label : Type} (labels : List Label) (counts : Label → Bool) :
    (labels.map fun label => (counts label).toNat).sum = labels.countP counts := by
  induction labels with
  | nil => rfl
  | cons label labels ih =>
      rw [List.map_cons, List.sum_cons, ih, List.countP_cons, Nat.add_comm]
      cases counts label <;> rfl

/-- In a run from the start, ticks that complete with something due are bounded by
what was enqueued. -/
theorem productive_le_of_run {actions : List WorkAction}
    (hinit : dispatcher.work.init world) (h : dispatcher.work.Run world actions after) :
    actions.countP (·.productive) ≤ dispatcher.maxSends * actions.countP (·.gives) := by
  have hreach : dispatcher.work.Reachable world := .init hinit
  obtain rfl : world = .empty := hinit
  have hsent := h.add_sum_le (fun world => world.allSends.length)
    (fun action => action.productive.toNat) hreach
    fun _ _ _ _ hstep => allSends_le_of_step hstep
  have hsize := h.le_add_sum OutboxWorld.size (fun action => action.gives.toNat) hreach
    fun _ _ _ _ hstep => size_le_of_step hstep
  rw [sum_map_toNat] at hsent hsize
  have hbound := length_allSends_le (accounted_of_work (hreach.run h))
  calc actions.countP (·.productive) ≤ after.allSends.length := by
        exact (Nat.le_add_left _ _).trans hsent
    _ ≤ dispatcher.maxSends * after.size := hbound
    _ ≤ dispatcher.maxSends * actions.countP (·.gives) := by
        apply Nat.mul_le_mul_left
        exact hsize.trans (Nat.zero_add _).le

/-- The work of a dispatcher is bounded, and comes to an end when nothing is given to it. -/
structure WorkEnds (dispatcher : Dispatcher) : Prop where
  bounded : ∀ actions after, dispatcher.work.Run .empty actions after →
    actions.countP (·.productive) ≤ dispatcher.maxSends * actions.countP (·.gives)
  ends : ∀ worlds actions, dispatcher.work.Trace worlds actions →
    (∃ n, ∀ k ≥ n, (actions k).gives = false) →
      ∃ n, ∀ k ≥ n, ∀ tenant nowMs due, actions k = .tick tenant nowMs due true →
        ¬(worlds k).Due tenant nowMs dispatcher.workerId

theorem workEnds (dispatcher : Dispatcher) : WorkEnds dispatcher := by
  constructor
  case bounded => exact fun actions after => productive_le_of_run rfl
  case ends =>
    intro worlds actions htrace hgiven
    obtain ⟨n, hidle⟩ := htrace.eventually
      (fun start names target hinit hrun => productive_le_of_run hinit hrun) hgiven
    refine ⟨n, ?_⟩
    intro k hk tenant nowMs due haction hdue
    have hstep := htrace.step k
    have hnot := hidle k hk
    rw [haction] at hstep hnot
    rw [WorkAction.productive, hstep.1.mpr hdue] at hnot
    cases hnot

end Runs

end Soulbase.Tx
