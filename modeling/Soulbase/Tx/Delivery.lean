/-
# Delivery accounting

One dispatcher over the in-memory outbox store, ticking between enqueues. A tick
may end in the middle of its batch, at the first error of the budget guard or of
the dead store, and then leaves the rest of the batch leased.

At the end of every tick the counter in the store agrees with the sends that
were made: `accounted_of_reachable`. The argument is one step lemma for the body
of the loop, `Accounted.dispatch`, whose four outcomes are listed by `Dispatched`,
and an induction over the batch. The batch is a snapshot, and what makes its
counters usable is that the messages still to come are stored exactly as leased.
-/

import Soulbase.Foundation.Transition
import Soulbase.Tx.Fleet

namespace Soulbase.Tx

open Soulbase.Foundation

/-- How many sends of a message returned `Ok`, or how many failed. -/
def OutboxEvent.sends (log : List OutboxEvent) (key : MessageKey) (delivered : Bool) : Nat :=
  log.countP fun
    | .sent _ key' delivered' => key' = key ∧ delivered' = delivered
    | .leased .. | .renewed .. => false

namespace OutboxEvent

variable {log : List OutboxEvent} {key key' : MessageKey} {delivered delivered' : Bool}

theorem sends_sent {worker : String} :
    sends (.sent worker key' delivered' :: log) key delivered =
      sends log key delivered + if key' = key ∧ delivered' = delivered then 1 else 0 := by
  simp only [sends, List.countP_cons, decide_eq_true_eq]

@[simp]
theorem sends_leaseEvents {worker : String} {leaseUntil : Int64}
    {leased : List OutboxMessage} :
    sends (OutboxWorld.leaseEvents worker leaseUntil leased ++ log) key delivered =
      sends log key delivered := by
  have hnone : (OutboxWorld.leaseEvents worker leaseUntil leased).countP
      (fun
        | .sent _ key' delivered' => decide (key' = key ∧ delivered' = delivered)
        | .leased .. | .renewed .. => false) = 0 := by
    rw [List.countP_eq_zero]
    intro event hevent
    obtain ⟨message, _, rfl⟩ := List.mem_map.mp hevent
    exact Bool.false_ne_true
  simp only [sends, List.countP_append]
  omega

end OutboxEvent

open OutboxEvent

/-- What happens to the store of one dispatcher. -/
inductive DeliveryAction
  | enqueue (message : NewOutboxMessage) (createdAt notBefore : Int64)
  | tick (tenant : TenantId) (nowMs : Int64)

namespace Dispatcher

/-- One dispatcher, alone, with a whole tick as one step. The outcomes of sends,
hooks and pushes are those of the handler and are arbitrary. -/
def delivery (dispatcher : Dispatcher) : TransitionSystem OutboxWorld DeliveryAction where
  init world := world = .empty
  step world action after :=
    match action with
    | .enqueue message createdAt notBefore =>
        after = world.enqueue message createdAt notBefore
    | .tick tenant nowMs => ∃ result,
        Exec (OutboxWorld.answer dispatcher.workerId) (dispatcher.tick tenant nowMs).run
          world result after

/-- The greatest number of times a message is sent. -/
def maxSends (dispatcher : Dispatcher) : Nat := max 1 dispatcher.maxAttempts.toNat

end Dispatcher

/-- What the record of the sends of a message says about the message. -/
structure DeliveryAccount (maxSends : Nat) (log : List OutboxEvent)
    (message : OutboxMessage) : Prop where
  done : message.status = .done → 0 < sends log message.key true
  retrying : message.status = .pending ∨ message.status = .leased →
    message.attempts.toNat = sends log message.key false ∧
      message.attempts.toNat < maxSends
  dead : message.status = .dead ↔
    sends log message.key false = maxSends ∧ sends log message.key true = 0

/-- The store agrees with the record of the sends. -/
structure DeliveryAccounts (maxSends : Nat) (world : OutboxWorld) : Prop where
  message : ∀ key message, world.store.find key = some message →
    DeliveryAccount maxSends world.log message
  bounded : ∀ key, sends world.log key true + sends world.log key false ≤ maxSends

/-- Whatever was stored is stored still, as its producer requested it. -/
def KeepsRequests (before after : OutboxWorld) : Prop :=
  ∀ key message, before.store.find key = some message →
    ∃ kept, after.store.find key = some kept ∧ kept.SameRequest message

theorem KeepsRequests.refl (world : OutboxWorld) : KeepsRequests world world :=
  fun _ message hfind => ⟨message, hfind, .refl message⟩

theorem KeepsRequests.trans {first second third : OutboxWorld}
    (hleft : KeepsRequests first second) (hright : KeepsRequests second third) :
    KeepsRequests first third := by
  intro key message hfind
  obtain ⟨middle, hmiddle, hsame⟩ := hleft key message hfind
  obtain ⟨kept, hkept, hsame'⟩ := hright key middle hmiddle
  exact ⟨kept, hkept, hsame'.trans hsame⟩

/-- The number of sends of a key that holds this message, or nothing. It is the
counter of a message to be sent again; a message is acknowledged at its first
success and given up at its last failure. -/
def Balanced (maxSends : Nat) (log : List OutboxEvent) (key : MessageKey) :
    Option OutboxMessage → Prop
  | none => sends log key true = 0 ∧ sends log key false = 0
  | some message =>
      match message.status with
      | .pending | .leased => sends log key true = 0 ∧
          sends log key false = message.attempts.toNat ∧ message.attempts.toNat < maxSends
      | .done => sends log key true = 1 ∧ sends log key false < maxSends
      | .dead => sends log key true = 0 ∧ sends log key false = maxSends

/-- Only the sends of the key count. -/
theorem Balanced.of_sends_eq {maxSends : Nat} {log log' : List OutboxEvent} {key : MessageKey}
    {stored : Option OutboxMessage} (h : Balanced maxSends log key stored)
    (hsame : ∀ delivered, sends log' key delivered = sends log key delivered) :
    Balanced maxSends log' key stored := by
  cases stored with
  | none => simpa only [Balanced, hsame] using h
  | some message => simpa only [Balanced, hsame] using h

/-- Every key is balanced. -/
def Accounted (maxSends : Nat) (world : OutboxWorld) : Prop :=
  ∀ key, Balanced maxSends world.log key (world.store.find key)

variable {maxSends : Nat} {world : OutboxWorld}

/-- The invariant gives the property. -/
theorem Accounted.accounts (h : Accounted maxSends world) (hmax : 0 < maxSends) :
    DeliveryAccounts maxSends world := by
  constructor
  case message =>
    intro key message hfind
    have hkey := InMemoryOutboxStore.key_of_find hfind
    have hbalanced := h key
    subst hkey
    rw [hfind] at hbalanced
    unfold Balanced at hbalanced
    constructor <;> cases hstatus : message.status <;> simp only [hstatus] at hbalanced <;>
      simp <;> omega
  case bounded =>
    intro key
    have hbalanced := h key
    cases hfind : world.store.find key with
    | none =>
        rw [hfind] at hbalanced
        obtain ⟨hdelivered, hfailed⟩ := hbalanced
        omega
    | some message =>
        rw [hfind] at hbalanced
        unfold Balanced at hbalanced
        cases hstatus : message.status <;> simp only [hstatus] at hbalanced <;> omega

section Calls

variable {worker : String} {after : OutboxWorld} {op : DispatchOp} {reply : op.Answer}

theorem exec_isBystander (hop : op.isBystander = true)
    (h : Exec (OutboxWorld.answer worker) (call op) world reply after) : after = world := by
  obtain ⟨choice, hanswer⟩ := exec_perform_iff.mp h
  cases OutboxWorld.effect_of_answer hanswer with
  | bystander _ => rfl
  | lease | send => cases hop
  | settle hsettles _ | missing hsettles _ => cases op <;> cases hop <;> cases hsettles

theorem exec_settles {key : MessageKey} {message : OutboxMessage}
    (hop : op.settles = some key) (hfind : world.store.find key = some message)
    (h : Exec (OutboxWorld.answer worker) (call op) world reply after) :
    after = { world with store := world.store.insertRaw (op.rewrite message) } := by
  obtain ⟨choice, hanswer⟩ := exec_perform_iff.mp h
  cases OutboxWorld.effect_of_answer hanswer with
  | settle hsettles hfound =>
      cases hop.symm.trans hsettles
      cases hfind.symm.trans hfound
      rfl
  | missing hsettles hmissing =>
      cases hop.symm.trans hsettles
      cases hfind.symm.trans hmissing
  | lease | send => cases hop
  | bystander hbystander => cases op <;> cases hop <;> cases hbystander

theorem exec_send {message : OutboxMessage} {result : TxResult Unit}
    (h : Exec (OutboxWorld.answer worker) (call (.send message)) world result after) :
    after = { world with log := .sent worker message.key result.isOk :: world.log } := by
  obtain ⟨choice, hanswer⟩ := exec_perform_iff.mp h
  cases OutboxWorld.effect_of_answer hanswer with
  | send => rfl
  | settle hsettles _ | missing hsettles _ => cases hsettles
  | bystander hbystander => cases hbystander

theorem exec_leaseBatch {tenant : TenantId} {nowMs leaseMs : Int64} {batch : Nat}
    {workerId : String} {groupByKey : Bool} {result : TxResult (List OutboxMessage)}
    (h : Exec (OutboxWorld.answer worker)
      (call (.leaseBatch tenant nowMs leaseMs batch workerId groupByKey)) world result after) :
    ∃ leased store, result = .ok leased ∧
      world.store.Leases tenant nowMs workerId (nowMs + leaseMs) leased store ∧
      after =
        { store := store
          clock := nowMs
          log := OutboxWorld.leaseEvents workerId (nowMs + leaseMs) leased ++ world.log } := by
  obtain ⟨choice, hanswer⟩ := exec_perform_iff.mp h
  cases OutboxWorld.effect_of_answer hanswer with
  | lease hleases => exact ⟨_, _, rfl, hleases, rfl⟩
  | settle hsettles _ | missing hsettles _ => cases hsettles
  | bystander hbystander => cases hbystander

end Calls

/-- What one round of the loop of a tick does to the store and the record: the
message is refused by the budget guard, delivered, put back or given up. -/
inductive Dispatched (dispatcher : Dispatcher) (world : OutboxWorld)
    (message : OutboxMessage) : OutboxWorld → Prop
  | refused : Dispatched dispatcher world message world
  | delivered : Dispatched dispatcher world message
      { world with
        store := world.store.insertRaw (InMemoryOutboxStore.acked message)
        log := .sent dispatcher.workerId message.key true :: world.log }
  | putBack {notBefore : Int64} {error : Option String} :
      message.attempts + 1 < dispatcher.maxAttempts →
        Dispatched dispatcher world message
          { world with
            store := world.store.insertRaw
              (InMemoryOutboxStore.nacked notBefore error message)
            log := .sent dispatcher.workerId message.key false :: world.log }
  | givenUp {error : Option String} :
      dispatcher.maxAttempts ≤ message.attempts + 1 →
        Dispatched dispatcher world message
          { world with
            store := world.store.insertRaw (InMemoryOutboxStore.deadened error message)
            log := .sent dispatcher.workerId message.key false :: world.log }

section Dispatch

variable {dispatcher : Dispatcher} {message : OutboxMessage} {nowMs : Int64}
variable {after : OutboxWorld} {result : TxResult Unit}

/-- After a failed send the message is put back or given up, whatever the dead
store and the budget guard then answer. -/
theorem exec_giveUpOrRetry {error : TxError}
    (hfind : world.store.find message.key = some message)
    (h : Exec (OutboxWorld.answer dispatcher.workerId)
      (dispatcher.giveUpOrRetry message.tenant nowMs message error).run world result after) :
    (∃ notBefore error, message.attempts + 1 < dispatcher.maxAttempts ∧ after =
        { world with
          store := world.store.insertRaw
            (InMemoryOutboxStore.nacked notBefore error message) }) ∨
      ∃ error, dispatcher.maxAttempts ≤ message.attempts + 1 ∧ after =
        { world with
          store := world.store.insertRaw (InMemoryOutboxStore.deadened error message) } := by
  unfold Dispatcher.giveUpOrRetry at h
  dsimp only at h
  split at h
  case isTrue hlimit =>
    refine .inr ⟨some error.toString, hlimit, ?_⟩
    rcases exec_fallible_bind_iff.mp h with ⟨_, hdead, _⟩ | ⟨letter, middle, hdead, hrest⟩
    · exact exec_settles rfl hfind hdead
    have hmiddle := exec_settles rfl hfind hdead
    suffices hafter : after = middle by rwa [hafter]
    -- Neither the push of the letter nor the report changes this world.
    split at hrest
    case isTrue =>
      rcases exec_fallible_bind_iff.mp hrest with ⟨_, hpush, _⟩ | ⟨_, last, hpush, hreport⟩
      · exact exec_isBystander rfl hpush
      · exact (exec_isBystander rfl hreport).trans (exec_isBystander rfl hpush)
    case isFalse => exact exec_isBystander rfl hrest
  case isFalse hlimit =>
    have hbelow : message.attempts + 1 < dispatcher.maxAttempts := by grind
    obtain ⟨next, middle, hnext, hrest⟩ := exec_lift_bind_iff.mp h
    have hmiddle := exec_isBystander rfl hnext
    subst hmiddle
    refine .inl ⟨next, some error.toString, hbelow, ?_⟩
    rcases exec_fallible_bind_iff.mp hrest with ⟨_, hnack, _⟩ | ⟨_, last, hnack, hreport⟩
    · exact exec_settles rfl hfind hnack
    · have hlast := exec_isBystander rfl hreport
      rw [hlast]
      exact exec_settles rfl hfind hnack

/-- One round of the loop has one of four outcomes. -/
theorem dispatched_of_exec (hfind : world.store.find message.key = some message)
    (h : Exec (OutboxWorld.answer dispatcher.workerId)
      (dispatcher.dispatch message.tenant nowMs message).run world result after) :
    Dispatched dispatcher world message after := by
  rcases exec_fallible_bind_iff.mp h with ⟨_, hattempt, _⟩ | ⟨_, middle, hattempt, hrest⟩
  · rw [exec_isBystander rfl hattempt]
    exact .refused
  have hmiddle := exec_isBystander rfl hattempt
  subst hmiddle
  obtain ⟨outcome, sent, hsend, hrest⟩ := exec_lift_bind_iff.mp hrest
  have hsent := exec_send hsend
  have hfindSent : sent.store.find message.key = some message := by
    rw [hsent]
    exact hfind
  cases outcome with
  | ok _ =>
      rcases exec_fallible_bind_iff.mp hrest with ⟨_, hack, _⟩ | ⟨_, last, hack, hreport⟩
      · rw [exec_settles rfl hfindSent hack, hsent]
        exact .delivered
      · rw [exec_isBystander rfl hreport, exec_settles rfl hfindSent hack, hsent]
        exact .delivered
  | error error =>
      rcases exec_giveUpOrRetry hfindSent hrest with
        ⟨notBefore, lastError, hbelow, hafter⟩ | ⟨lastError, hlimit, hafter⟩
      · rw [hafter, hsent]
        exact .putBack hbelow
      · rw [hafter, hsent]
        exact .givenUp hlimit

/-- A round concerns its own message only. -/
theorem Dispatched.find_of_ne (h : Dispatched dispatcher world message after)
    {key : MessageKey} (hne : key ≠ message.key) :
    after.store.find key = world.store.find key := by
  cases h with
  | refused => rfl
  | delivered | putBack _ | givenUp _ => exact InMemoryOutboxStore.find_insertRaw_of_ne hne

theorem Dispatched.sends_of_ne (h : Dispatched dispatcher world message after)
    {key : MessageKey} (hne : key ≠ message.key) (delivered : Bool) :
    sends after.log key delivered = sends world.log key delivered := by
  cases h with
  | refused => rfl
  | delivered | putBack _ | givenUp _ => simp [sends_sent, hne.symm]

/-- A round keeps the request of its message. -/
theorem Dispatched.keepsRequests (h : Dispatched dispatcher world message after)
    (hfind : world.store.find message.key = some message) : KeepsRequests world after := by
  intro key other hother
  by_cases hkey : key = message.key
  · subst hkey
    cases hfind.symm.trans hother
    cases h with
    | refused => exact ⟨message, hfind, .refl message⟩
    | delivered | putBack _ | givenUp _ =>
        exact ⟨_, InMemoryOutboxStore.find_insertRaw_self _ _, rfl, rfl, rfl, rfl, rfl, rfl, rfl⟩
  · exact ⟨other, (h.find_of_ne hkey).trans hother, .refl other⟩

/-- A round keeps the balance of its message, which is about to be sent with the
attempts that the store counts. -/
theorem Dispatched.balanced (h : Dispatched dispatcher world message after)
    (hfind : world.store.find message.key = some message)
    (hleased : message.status = .leased)
    (hbalanced : Balanced dispatcher.maxSends world.log message.key (some message)) :
    Balanced dispatcher.maxSends after.log message.key (after.store.find message.key) := by
  have hbefore := hbalanced
  simp only [Balanced, hleased] at hbefore
  obtain ⟨hdelivered, hfailed, hbelow⟩ := hbefore
  have hmax : dispatcher.maxSends = max 1 dispatcher.maxAttempts.toNat := rfl
  have hroom : message.attempts.toNat + 1 < 2 ^ 32 := by
    have hbound := dispatcher.maxAttempts.toNat_lt
    omega
  have hsucc := toNat_succ hroom
  cases h with
  | refused => rwa [hfind]
  | delivered =>
      have hstored := world.store.find_insertRaw_self (InMemoryOutboxStore.acked message)
      rw [InMemoryOutboxStore.key_acked] at hstored
      dsimp only
      rw [hstored]
      constructor <;> rw [sends_sent] <;> simp <;> omega
  | @putBack notBefore error hretry =>
      have hretry' := UInt32.lt_iff_toNat_lt.mp hretry
      have hstored := world.store.find_insertRaw_self
        (InMemoryOutboxStore.nacked notBefore error message)
      rw [InMemoryOutboxStore.key_nacked] at hstored
      dsimp only
      rw [hstored]
      refine ⟨?_, ?_, ?_⟩ <;>
        simp only [sends_sent, InMemoryOutboxStore.nacked, saturatingSucc_eq hroom] <;>
        simp <;> omega
  | @givenUp error hlimit =>
      have hlimit' := UInt32.le_iff_toNat_le.mp hlimit
      have hstored := world.store.find_insertRaw_self
        (InMemoryOutboxStore.deadened error message)
      rw [InMemoryOutboxStore.key_deadened] at hstored
      dsimp only
      rw [hstored]
      constructor <;> rw [sends_sent] <;> simp <;> omega

/-- A round keeps every key balanced. -/
theorem Dispatched.accounted (h : Dispatched dispatcher world message after)
    (hfind : world.store.find message.key = some message)
    (hleased : message.status = .leased) (hworld : Accounted dispatcher.maxSends world) :
    Accounted dispatcher.maxSends after := by
  intro key
  by_cases hkey : key = message.key
  · subst hkey
    have hbalanced := hworld message.key
    rw [hfind] at hbalanced
    exact h.balanced hfind hleased hbalanced
  · rw [h.find_of_ne hkey]
    exact (hworld key).of_sends_eq (h.sends_of_ne hkey)

end Dispatch

/-! ## Whole ticks -/

section Tick

variable {dispatcher : Dispatcher} {tenant : TenantId} {nowMs : Int64}
variable {after : OutboxWorld} {result : TxResult Unit}

/-- Leasing a message changes neither its sends nor its counter. -/
theorem Accounted.lease (hworld : Accounted maxSends world) {leaseUntil : Int64}
    {worker : String} {leased : List OutboxMessage} {store : InMemoryOutboxStore}
    (hleases : world.store.Leases tenant nowMs worker leaseUntil leased store) :
    Accounted maxSends
      { store := store
        clock := nowMs
        log := OutboxWorld.leaseEvents worker leaseUntil leased ++ world.log } := by
  intro key
  suffices hbalanced : Balanced maxSends world.log key (store.find key) from
    hbalanced.of_sends_eq fun _ => sends_leaseEvents
  by_cases hkey : key ∈ leased.map (·.key)
  · obtain ⟨old, hold, hselectable, hstored⟩ := hleases.of_mem_keys hkey
    have hactive := hselectable.not_terminal
    have hbalanced := hworld key
    rw [hold] at hbalanced
    rw [hstored]
    simp only [Balanced, InMemoryOutboxStore.leasedTo]
    unfold Balanced at hbalanced
    cases hstatus : old.status with
    | pending | leased => simpa only [hstatus] using hbalanced
    | done | dead =>
        rw [hstatus] at hactive
        cases hactive
  · rw [hleases.frame key hkey]
    exact hworld key

theorem keepsRequests_lease {leaseUntil : Int64} {worker : String} {log : List OutboxEvent}
    {leased : List OutboxMessage} {store : InMemoryOutboxStore}
    (hleases : world.store.Leases tenant nowMs worker leaseUntil leased store) :
    KeepsRequests world { store := store, clock := nowMs, log := log } := by
  intro key message hfind
  by_cases hkey : key ∈ leased.map (·.key)
  · obtain ⟨old, hold, _, hstored⟩ := hleases.of_mem_keys hkey
    cases hfind.symm.trans hold
    exact ⟨_, hstored, rfl, rfl, rfl, rfl, rfl, rfl, rfl⟩
  · exact ⟨message, (hleases.frame key hkey).trans hfind, .refl message⟩

/-- What the loop of a tick keeps: every key is balanced, requests are kept, and
the messages still to come are stored as they were leased. -/
structure Midway (maxSends : Nat) (tenant : TenantId) (start : OutboxWorld)
    (rest : List OutboxMessage) (world : OutboxWorld) : Prop where
  accounted : Accounted maxSends world
  keeps : KeepsRequests start world
  nodup : (rest.map (·.key)).Nodup
  stored : ∀ message ∈ rest, world.store.find message.key = some message
  leased : ∀ message ∈ rest, message.status = .leased ∧ message.tenant = tenant

/-- One round of the loop. -/
theorem Midway.round {start : OutboxWorld} {message : OutboxMessage}
    {rest : List OutboxMessage}
    (h : Midway dispatcher.maxSends tenant start (message :: rest) world)
    (hexec : Exec (OutboxWorld.answer dispatcher.workerId)
      (dispatcher.dispatch tenant nowMs message).run world result after) :
    Midway dispatcher.maxSends tenant start rest after := by
  have hfind := h.stored message List.mem_cons_self
  obtain ⟨hstatus, htenant⟩ := h.leased message List.mem_cons_self
  obtain ⟨hfresh, hnodup⟩ := List.nodup_cons.mp h.nodup
  rw [← htenant] at hexec
  have hround := dispatched_of_exec hfind hexec
  constructor
  case accounted => exact hround.accounted hfind hstatus h.accounted
  case keeps => exact h.keeps.trans (hround.keepsRequests hfind)
  case nodup => exact hnodup
  case stored =>
    intro other hother
    rw [hround.find_of_ne]
    · exact h.stored other (List.mem_cons_of_mem _ hother)
    · exact fun hsame => hfresh (List.mem_map.mpr ⟨other, hother, hsame⟩)
  case leased => exact fun other hother => h.leased other (List.mem_cons_of_mem _ hother)

/-- A batch that has just been leased. -/
theorem Midway.of_leases (hworld : Accounted dispatcher.maxSends world) {leaseUntil : Int64}
    {worker : String} {leased : List OutboxMessage} {store : InMemoryOutboxStore}
    (hleases : world.store.Leases tenant nowMs worker leaseUntil leased store) :
    Midway dispatcher.maxSends tenant world leased
      { store := store
        clock := nowMs
        log := OutboxWorld.leaseEvents worker leaseUntil leased ++ world.log } := by
  refine ⟨hworld.lease hleases, keepsRequests_lease hleases, hleases.nodup,
    hleases.stored, fun message hmem => ⟨?_, hleases.tenant_eq hmem⟩⟩
  obtain ⟨old, _, _, rfl⟩ := hleases.granted message hmem
  rfl

/-- What every round keeps, the loop keeps, wherever it ends. A round may use that
its message is stored as it was leased. -/
theorem Midway.loop {start : OutboxWorld} {leased : List OutboxMessage}
    (h : Midway dispatcher.maxSends tenant start leased world) (holds : OutboxWorld → Prop)
    (hround : ∀ before message after, Accounted dispatcher.maxSends before → holds before →
      before.store.find message.key = some message → message.status = .leased →
      Dispatched dispatcher before message after → holds after)
    (hworld : holds world)
    (hexec : Exec (OutboxWorld.answer dispatcher.workerId)
      (leased.forM (dispatcher.dispatch tenant nowMs)).run world result after) :
    holds after := by
  refine exec_forM
    (fun rest env => Midway dispatcher.maxSends tenant start rest env ∧ holds env) holds
    ?_ (fun env hend => hend.2) ⟨h, hworld⟩ hexec
  intro message rest env outcome last ⟨hmidway, hholds⟩ hbody
  have hfind := hmidway.stored message List.mem_cons_self
  obtain ⟨hstatus, htenant⟩ := hmidway.leased message List.mem_cons_self
  have hbody' := htenant.symm ▸ hbody
  have hdispatched := dispatched_of_exec hfind hbody'
  have hlast := hround env message last hmidway.accounted hholds hfind hstatus hdispatched
  exact ⟨hlast, fun _ => ⟨hmidway.round hbody, hlast⟩⟩

/-- A whole tick, wherever it ends. -/
theorem accounted_of_tick (hworld : Accounted dispatcher.maxSends world)
    (h : Exec (OutboxWorld.answer dispatcher.workerId) (dispatcher.tick tenant nowMs).run
      world result after) :
    Accounted dispatcher.maxSends after ∧ KeepsRequests world after := by
  rcases exec_fallible_bind_iff.mp h with ⟨_, hlease, _⟩ | ⟨leased, middle, hlease, hrest⟩
  · obtain ⟨_, _, hok, _⟩ := exec_leaseBatch hlease
    cases hok
  obtain ⟨_, _, hok, hleases, hmiddle⟩ := exec_leaseBatch hlease
  cases hok
  subst hmiddle
  have hmidway := Midway.of_leases hworld hleases
  refine hmidway.loop
    (fun last => Accounted dispatcher.maxSends last ∧ KeepsRequests world last) ?_
    ⟨hmidway.accounted, hmidway.keeps⟩ hrest
  intro before message last haccounted hholds hfind hstatus hround
  exact ⟨hround.accounted hfind hstatus haccounted,
    hholds.2.trans (hround.keepsRequests hfind)⟩

end Tick

/-- Enqueueing adds a message that has not been sent. -/
theorem accounted_of_enqueue (hworld : Accounted maxSends world) (hmax : 0 < maxSends)
    (new : NewOutboxMessage) (createdAt notBefore : Int64) :
    Accounted maxSends (world.enqueue new createdAt notBefore) ∧
      KeepsRequests world (world.enqueue new createdAt notBefore) := by
  rcases world.enqueue_cases new createdAt notBefore with heq | ⟨hfree, heq⟩
  · rw [heq]
    exact ⟨hworld, .refl world⟩
  rw [heq]
  constructor
  · intro key
    have hbalanced := hworld key
    by_cases hkey : key = (buildOutboxMessage new createdAt notBefore).key
    · subst hkey
      rw [hfree] at hbalanced
      dsimp only
      rw [InMemoryOutboxStore.find_insertRaw_self]
      exact ⟨hbalanced.1, hbalanced.2, hmax⟩
    · dsimp only
      rwa [InMemoryOutboxStore.find_insertRaw_of_ne hkey]
  · intro key message hfind
    refine ⟨message, ?_, .refl message⟩
    rw [InMemoryOutboxStore.find_insertRaw_of_ne]
    · exact hfind
    · rintro rfl
      cases hfree.symm.trans hfind

theorem maxSends_pos (dispatcher : Dispatcher) : 0 < dispatcher.maxSends :=
  Nat.lt_of_lt_of_le Nat.zero_lt_one (Nat.le_max_left _ _)

/-- One step of the system. -/
theorem accounted_of_step {dispatcher : Dispatcher} {action : DeliveryAction}
    {after : OutboxWorld} (hworld : Accounted dispatcher.maxSends world)
    (hstep : dispatcher.delivery.step world action after) :
    Accounted dispatcher.maxSends after ∧ KeepsRequests world after := by
  cases action with
  | enqueue new createdAt notBefore =>
      subst hstep
      exact accounted_of_enqueue hworld (maxSends_pos dispatcher) new createdAt notBefore
  | tick tenant nowMs =>
      obtain ⟨result, hexec⟩ := hstep
      exact accounted_of_tick hworld hexec

theorem accounted_of_reachable {dispatcher : Dispatcher}
    (h : dispatcher.delivery.Reachable world) : Accounted dispatcher.maxSends world := by
  refine TransitionSystem.invariant (Accounted dispatcher.maxSends) ?_ ?_ h
  · rintro _ rfl key
    exact ⟨rfl, rfl⟩
  · intro source action target _ hsource hstep
    exact (accounted_of_step hsource hstep).1

/-- The sends of one dispatcher are accounted for in every reachable state, and
along every run the requests of the producers are kept. -/
structure DeliveryAccounting (dispatcher : Dispatcher) : Prop where
  accounts : ∀ world, dispatcher.delivery.Reachable world →
    DeliveryAccounts dispatcher.maxSends world
  keepsRequests : ∀ world actions after, dispatcher.delivery.Reachable world →
    dispatcher.delivery.Run world actions after → KeepsRequests world after

theorem deliveryAccounting (dispatcher : Dispatcher) : DeliveryAccounting dispatcher := by
  constructor
  case accounts =>
    intro world hreach
    exact (accounted_of_reachable hreach).accounts (maxSends_pos dispatcher)
  case keepsRequests =>
    intro world actions after hreach hrun
    refine hrun.preserves (KeepsRequests world) hreach ?_ (.refl world)
    intro before action next _ hbefore hkeeps hstep
    exact hkeeps.trans (accounted_of_step (accounted_of_reachable hbefore) hstep).2

end Soulbase.Tx
