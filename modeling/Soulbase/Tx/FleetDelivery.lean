/-
# Delivery by a fleet

What the dispatchers of a fleet have done is never better than what the transport
said. In any interleaving of their calls, with leases that run out in the middle of a
send, dispatchers that stop for good, heartbeats and revivals: a message is stored as
done only after a send of it returned `Ok`, it is given up only after as many failed
sends as the dispatcher that gives it up allows, and whatever is sent is the request of
a stored message. No message is lost.

A dispatcher may settle only what it has just sent, and as the send came out. That is
a discipline of its tick, `reporting`, whose standing is the errand the dispatcher is
on. `Reported` is what errands, store and record have to do with each other. Two
dispatchers may each have a failed send of one message that neither has reported yet,
so the attempts of a message are bounded with room for all those who still owe a report.
-/

import Mathlib.Data.Finset.Card
import Soulbase.Tx.Delivery

namespace Soulbase.Tx

open Soulbase.Foundation OutboxEvent

/-- What a dispatcher is about in its present tick. -/
structure Errand where
  /-- The batch, as it was leased. -/
  batch : List OutboxMessage
  /-- The message that was sent last and is not settled yet, and whether the send
  returned `Ok`. -/
  sent : Option (OutboxMessage × Bool)

/-- Before the first tick. -/
def Errand.idle : Errand where
  batch := []
  sent := none

/-- A dispatcher leases under its own name, sends messages of its batch, acknowledges
what it has just sent with success, and puts back or gives up what it has just failed
to send. -/
def reporting (dispatcher : Dispatcher) : Discipline DispatchOp DispatchOp.Answer Errand where
  permits errand
    | .leaseBatch _ _ _ _ workerId _ => workerId = dispatcher.workerId
    | .send message => message ∈ errand.batch
    | .ackDone tenant id => ∃ message, errand.sent = some (message, true) ∧
        message.key = messageKey tenant id
    | .nackBackoff tenant id _ _ => ∃ message, errand.sent = some (message, false) ∧
        message.key = messageKey tenant id
    | .deadLetter tenant id _ => ∃ message, errand.sent = some (message, false) ∧
        message.key = messageKey tenant id ∧ dispatcher.maxAttempts ≤ message.attempts + 1
    | .onDispatchAttempt .. | .onDispatchResult .. | .push .. | .nextAfter .. => True
  ensures
    | .leaseBatch tenant .., .ok messages => ∀ message ∈ messages, message.tenant = tenant
    | _, _ => True
  after errand
    | .leaseBatch .., .ok messages => { batch := messages, sent := none }
    | .leaseBatch .., .error _ => .idle
    | .send message, result => { errand with sent := some (message, result.isOk) }
    | op, _ => if op.settles.isSome then { errand with sent := none } else errand

section Reporting

variable {dispatcher : Dispatcher} {errand : Errand} {op : DispatchOp} {answer : op.Answer}

theorem reporting_after_of_settles {key : MessageKey} (hop : op.settles = some key) :
    (reporting dispatcher).after errand op answer = { errand with sent := none } := by
  cases op <;> first | rfl | cases hop

theorem reporting_after_of_isBystander (hop : op.isBystander = true) :
    (reporting dispatcher).after errand op answer = errand := by
  cases op <;> first | rfl | cases hop

/-- What a permitted settlement makes of a stored message: the errand's last send decides. -/
inductive Report (dispatcher : Dispatcher) (errand : Errand) (key : MessageKey)
    (message updated : OutboxMessage) : Prop
  | delivered {sent : OutboxMessage} :
      errand.sent = some (sent, true) → sent.key = key → updated.status = .done →
        updated.attempts = message.attempts → Report dispatcher errand key message updated
  | failed {sent : OutboxMessage} :
      errand.sent = some (sent, false) → sent.key = key →
        updated.status = .pending ∨
          updated.status = .dead ∧ dispatcher.maxAttempts ≤ sent.attempts + 1 →
        updated.attempts = saturatingSucc message.attempts →
          Report dispatcher errand key message updated

theorem report_of_permits {key : MessageKey} (hop : op.settles = some key)
    (h : (reporting dispatcher).permits errand op) (message : OutboxMessage) :
    Report dispatcher errand key message (op.rewrite message) := by
  cases op with
  | ackDone tenant id =>
      cases hop
      obtain ⟨sent, hsent, hkey⟩ := h
      exact .delivered hsent hkey rfl rfl
  | nackBackoff tenant id notBefore error =>
      cases hop
      obtain ⟨sent, hsent, hkey⟩ := h
      exact .failed hsent hkey (.inl rfl) rfl
  | deadLetter tenant id error =>
      cases hop
      obtain ⟨sent, hsent, hkey, hlimit⟩ := h
      exact .failed hsent hkey (.inr ⟨rfl, hlimit⟩) rfl
  | leaseBatch | onDispatchAttempt | send | onDispatchResult | push | nextAfter => cases hop

theorem sameRequest_rewrite (op : DispatchOp) (message : OutboxMessage) :
    (op.rewrite message).SameRequest message := by
  cases op <;> exact ⟨rfl, rfl, rfl, rfl, rfl, rfl, rfl⟩

end Reporting

namespace Dispatcher

variable {dispatcher : Dispatcher} {nowMs : Int64} {message : OutboxMessage} {errand : Errand}

/-- The work on one message leaves the batch alone. -/
theorem reports_giveUpOrRetry {error : TxError} (hsent : errand.sent = some (message, false)) :
    (dispatcher.giveUpOrRetry message.tenant nowMs message error).run.Follows
      (reporting dispatcher) (fun _ left => left.batch = errand.batch) errand := by
  unfold giveUpOrRetry
  dsimp only
  split
  case isTrue hlimit =>
    refine ⟨⟨message, hsent, rfl, hlimit⟩, ?_⟩
    rintro (_ | letter) -
    · rfl
    · cases dispatcher.deadStore with
      | false => exact ⟨trivial, fun _ _ => rfl⟩
      | true =>
          refine ⟨trivial, ?_⟩
          rintro (_ | _) -
          · rfl
          · exact ⟨trivial, fun _ _ => rfl⟩
  case isFalse _ =>
    refine ⟨trivial, ?_⟩
    rintro next -
    refine ⟨⟨message, hsent, rfl⟩, ?_⟩
    rintro (_ | _) -
    · rfl
    · exact ⟨trivial, fun _ _ => rfl⟩

theorem reports_dispatch (hmem : message ∈ errand.batch) :
    (dispatcher.dispatch message.tenant nowMs message).run.Follows (reporting dispatcher)
      (fun _ left => left.batch = errand.batch) errand := by
  refine ⟨trivial, ?_⟩
  rintro (_ | _) -
  · rfl
  refine ⟨hmem, ?_⟩
  rintro (error | _) -
  · have hsent : ({ errand with sent := some (message, false) } : Errand).sent =
        some (message, false) := rfl
    exact reports_giveUpOrRetry hsent
  refine ⟨⟨message, rfl, rfl⟩, ?_⟩
  rintro (_ | _) -
  · rfl
  · exact ⟨trivial, fun _ _ => rfl⟩

/-- Working through a batch, by induction on what is left of it. -/
theorem reports_forM_dispatch {tenant : TenantId} {messages : List OutboxMessage}
    (hmem : messages ⊆ errand.batch) (htenant : ∀ message ∈ messages, message.tenant = tenant) :
    (messages.forM (dispatcher.dispatch tenant nowMs)).run.Follows (reporting dispatcher)
      (fun _ _ => True) errand := by
  induction messages generalizing errand with
  | nil => trivial
  | cons message rest ih =>
      have hmessage := htenant message List.mem_cons_self
      subst hmessage
      refine follows_fallible_bind (reports_dispatch (hmem List.mem_cons_self))
        (fun _ _ _ => trivial) ?_
      rintro ⟨⟩ left hleft
      apply ih
      · rw [hleft]
        exact fun other hother => hmem (List.mem_cons_of_mem _ hother)
      · exact fun other hother => htenant other (List.mem_cons_of_mem _ hother)

/-- A tick reports as it should, whatever the dispatcher was about before. -/
theorem reports_tick (dispatcher : Dispatcher) (tenant : TenantId) (nowMs : Int64)
    (errand : Errand) :
    (dispatcher.tick tenant nowMs).run.Follows (reporting dispatcher) (fun _ _ => True)
      errand := by
  refine ⟨rfl, ?_⟩
  rintro (_ | leased) hleased
  · trivial
  · exact reports_forM_dispatch (List.Subset.refl _) hleased

end Dispatcher

/-- The attempts counted under a key. -/
def OutboxWorld.attempts (world : OutboxWorld) (key : MessageKey) : Nat :=
  ((world.store.find key).map (·.attempts.toNat)).getD 0

/-- The dispatcher has failed to send the message and has not reported it. -/
def Errand.Owes (errand : Errand) (key : MessageKey) : Prop :=
  ∃ message, errand.sent = some (message, false) ∧ message.key = key

variable {ι : Type}

/-- What is known of the fleet at any time. -/
structure Reported (fleet : Fleet ι) (errands : ι → Errand) (world : OutboxWorld) : Prop where
  /-- What is in a batch is the request of a stored message, and was counted. -/
  batch : ∀ i message, message ∈ (errands i).batch →
    (∃ stored, world.store.find message.key = some stored ∧ stored.SameRequest message) ∧
      message.attempts.toNat ≤ sends world.log message.key false
  /-- What has been sent is in the record. -/
  sent : ∀ i message ok, (errands i).sent = some (message, ok) →
    .sent (fleet.workerId i) message.key ok ∈ world.log ∧
      (ok = false → message.attempts.toNat < sends world.log message.key false)
  /-- Every attempt counted and every report owed is a failed send of its own. -/
  counted : ∀ key, ∃ owing : Finset ι, (∀ i, (errands i).Owes key → i ∈ owing) ∧
    world.attempts key + owing.card ≤ sends world.log key false
  done : ∀ key message, world.store.find key = some message → message.status = .done →
    ∃ i, .sent (fleet.workerId i) key true ∈ world.log
  dead : ∀ key message, world.store.find key = some message → message.status = .dead →
    ∃ i, .sent (fleet.workerId i) key false ∈ world.log ∧
      (fleet.dispatcher i).maxAttempts.toNat ≤ sends world.log key false

theorem sends_le_of_suffix {log log' : List OutboxEvent} (hlog : log <:+ log')
    (key : MessageKey) (delivered : Bool) :
    sends log key delivered ≤ sends log' key delivered :=
  hlog.sublist.countP_le

/-- Rewriting a message with the same request keeps every request. -/
theorem keepsRequests_insertRaw {world : OutboxWorld} {message updated : OutboxMessage}
    {key : MessageKey} {log : List OutboxEvent} (hfind : world.store.find key = some message)
    (hkey : updated.key = message.key) (hsame : updated.SameRequest message) :
    KeepsRequests world
      { world with store := world.store.insertRaw updated, log := log } := by
  intro other stored hstored
  obtain rfl := InMemoryOutboxStore.key_of_find hfind
  rw [← hkey] at hfind
  by_cases hother : other = updated.key
  · subst hother
    cases hfind.symm.trans hstored
    exact ⟨updated, InMemoryOutboxStore.find_insertRaw_self _ _, hsame⟩
  · exact ⟨stored, (InMemoryOutboxStore.find_insertRaw_of_ne hother).trans hstored, .refl stored⟩

/-- Enqueueing loses nothing. -/
theorem keepsRequests_enqueue (world : OutboxWorld) (new : NewOutboxMessage)
    (createdAt notBefore : Int64) :
    KeepsRequests world (world.enqueue new createdAt notBefore) := by
  rcases world.enqueue_cases new createdAt notBefore with heq | ⟨hfree, heq⟩
  · rw [heq]
    exact .refl world
  rw [heq]
  intro key message hfind
  refine ⟨message, ?_, .refl message⟩
  rw [InMemoryOutboxStore.find_insertRaw_of_ne]
  · exact hfind
  · rintro rfl
    cases hfree.symm.trans hfind

theorem attempts_insertRaw (world : OutboxWorld) (updated : OutboxMessage)
    (log : List OutboxEvent) (key : MessageKey) :
    ({ world with store := world.store.insertRaw updated, log := log } : OutboxWorld).attempts
        key =
      if key = updated.key then updated.attempts.toNat else world.attempts key := by
  unfold OutboxWorld.attempts
  dsimp only
  rw [InMemoryOutboxStore.find_insertRaw]
  split <;> rfl

theorem attempts_of_find {world : OutboxWorld} {key : MessageKey} {message : OutboxMessage}
    (hfind : world.store.find key = some message) :
    world.attempts key = message.attempts.toNat := by
  rw [OutboxWorld.attempts, hfind]
  rfl

theorem toNat_saturatingSucc_le (count : UInt32) :
    (saturatingSucc count).toNat ≤ count.toNat + 1 := by
  rw [toNat_saturatingSucc]
  exact Nat.min_le_left _ _

section Steps

variable {fleet : Fleet ι} {errands : ι → Errand} {world : OutboxWorld}

/-- A change of the store that loses nothing, counts nothing and ends nothing, with
whatever is recorded of it. -/
theorem Reported.moves (h : Reported fleet errands world) {after : OutboxWorld}
    (hlog : world.log <:+ after.log)
    (hkeeps : KeepsRequests world after)
    (hattempts : ∀ key, after.attempts key ≤ world.attempts key)
    (hterminal : ∀ key message, after.store.find key = some message →
      message.status.isTerminal = true →
        ∃ old, world.store.find key = some old ∧ old.status = message.status) :
    Reported fleet errands after := by
  have hsends : ∀ key delivered, sends world.log key delivered ≤ sends after.log key delivered :=
    sends_le_of_suffix hlog
  have hrecorded : ∀ event, event ∈ world.log → event ∈ after.log :=
    fun _ hevent => hlog.subset hevent
  constructor
  case batch =>
    intro i message hmem
    obtain ⟨⟨stored, hfind, hsame⟩, hcount⟩ := h.batch i message hmem
    obtain ⟨kept, hkept, hrequest⟩ := hkeeps _ _ hfind
    exact ⟨⟨kept, hkept, hrequest.trans hsame⟩, hcount.trans (hsends _ _)⟩
  case sent =>
    intro i message ok hsent
    obtain ⟨hmem, hfailed⟩ := h.sent i message ok hsent
    exact ⟨hrecorded _ hmem, fun hok => (hfailed hok).trans_le (hsends _ _)⟩
  case counted =>
    intro key
    obtain ⟨owing, howing, hcount⟩ := h.counted key
    have hbelow := hattempts key
    have hgrown := hsends key false
    exact ⟨owing, howing, by omega⟩
  case done =>
    intro key message hfind hstatus
    obtain ⟨old, hold, hsame⟩ := hterminal key message hfind (by rw [hstatus]; rfl)
    obtain ⟨i, hmem⟩ := h.done key old hold (hsame.trans hstatus)
    exact ⟨i, hrecorded _ hmem⟩
  case dead =>
    intro key message hfind hstatus
    obtain ⟨old, hold, hsame⟩ := hterminal key message hfind (by rw [hstatus]; rfl)
    obtain ⟨i, hmem, hlimit⟩ := h.dead key old hold (hsame.trans hstatus)
    exact ⟨i, hrecorded _ hmem, hlimit.trans (hsends _ _)⟩

variable [DecidableEq ι]

/-- A dispatcher turns to another batch, owing nothing. -/
theorem Reported.assign (h : Reported fleet errands world) (i : ι) {errand : Errand}
    (hsent : errand.sent = none)
    (hbatch : ∀ message ∈ errand.batch,
      (∃ stored, world.store.find message.key = some stored ∧ stored.SameRequest message) ∧
        message.attempts.toNat ≤ sends world.log message.key false) :
    Reported fleet (Function.update errands i errand) world := by
  constructor
  case batch =>
    intro j message hmem
    by_cases hj : j = i
    · subst j
      rw [Function.update_self] at hmem
      exact hbatch message hmem
    · rw [Function.update_of_ne hj] at hmem
      exact h.batch j message hmem
  case sent =>
    intro j message ok hother
    by_cases hj : j = i
    · subst j
      rw [Function.update_self, hsent] at hother
      cases hother
    · rw [Function.update_of_ne hj] at hother
      exact h.sent j message ok hother
  case counted =>
    intro key
    obtain ⟨owing, howing, hcount⟩ := h.counted key
    refine ⟨owing, ?_, hcount⟩
    rintro j ⟨message, hother, hkey⟩
    by_cases hj : j = i
    · subst j
      rw [Function.update_self, hsent] at hother
      cases hother
    · rw [Function.update_of_ne hj] at hother
      exact howing j ⟨message, hother, hkey⟩
  case done => exact h.done
  case dead => exact h.dead

/-- Letting go of what was sent. -/
theorem Reported.settled (h : Reported fleet errands world) (i : ι) :
    Reported fleet (Function.update errands i { errands i with sent := none }) world :=
  h.assign i rfl (h.batch i)

theorem Reported.idle (h : Reported fleet errands world) (i : ι) :
    Reported fleet (Function.update errands i .idle) world :=
  h.assign i rfl (by simp [Errand.idle])

/-- A batch is leased as it is stored. -/
theorem Reported.lease (h : Reported fleet errands world) (i : ι) {tenant : TenantId}
    {nowMs leaseUntil : Int64} {worker : String} {leased : List OutboxMessage}
    {store : InMemoryOutboxStore}
    (hleases : world.store.Leases tenant nowMs worker leaseUntil leased store) :
    Reported fleet (Function.update errands i { batch := leased, sent := none })
      { store := store
        clock := nowMs
        log := OutboxWorld.leaseEvents worker leaseUntil leased ++ world.log } := by
  have hmoved : Reported fleet errands
      { store := store
        clock := nowMs
        log := OutboxWorld.leaseEvents worker leaseUntil leased ++ world.log } :=
    h.moves (List.suffix_append _ _) (keepsRequests_lease hleases) ?_ ?_
  · apply hmoved.assign i rfl
    intro message hmem
    obtain ⟨old, hold, _, hleased⟩ := hleases.granted message hmem
    refine ⟨⟨message, hleases.stored message hmem, .refl message⟩, ?_⟩
    obtain ⟨owing, _, hcount⟩ := h.counted message.key
    rw [attempts_of_find hold] at hcount
    have hattempts : message.attempts = old.attempts := by rw [hleased]; rfl
    rw [sends_leaseEvents, hattempts]
    omega
  · intro key
    by_cases hkey : key ∈ leased.map (·.key)
    · obtain ⟨old, hold, _, hstored⟩ := hleases.of_mem_keys hkey
      rw [attempts_of_find hold, attempts_of_find hstored]
      exact Nat.le_refl _
    · rw [OutboxWorld.attempts, OutboxWorld.attempts, hleases.frame key hkey]
  · intro key message hfind hterminal
    by_cases hkey : key ∈ leased.map (·.key)
    · obtain ⟨old, _, _, hstored⟩ := hleases.of_mem_keys hkey
      cases hstored.symm.trans hfind
      cases hterminal
    · exact ⟨message, (hleases.frame key hkey).symm.trans hfind, rfl⟩

/-- A send is recorded. One that failed is owed a report. -/
theorem Reported.send (h : Reported fleet errands world) (i : ι) {message : OutboxMessage}
    (hmem : message ∈ (errands i).batch) (ok : Bool) :
    Reported fleet (Function.update errands i { errands i with sent := some (message, ok) })
      { world with log := .sent (fleet.workerId i) message.key ok :: world.log } := by
  have hsends : ∀ key delivered, sends world.log key delivered ≤
      sends (.sent (fleet.workerId i) message.key ok :: world.log) key delivered :=
    sends_le_of_suffix (List.suffix_cons _ _)
  constructor
  case batch =>
    intro j other hother
    have hbatch : other ∈ (errands j).batch := by
      by_cases hj : j = i
      · subst j
        simpa using hother
      · simpa [hj] using hother
    obtain ⟨hstored, hcount⟩ := h.batch j other hbatch
    exact ⟨hstored, hcount.trans (hsends _ _)⟩
  case sent =>
    intro j other ok' hsent
    by_cases hj : j = i
    · subst j
      rw [Function.update_self] at hsent
      cases hsent
      refine ⟨List.mem_cons_self, ?_⟩
      rintro rfl
      have hcount := (h.batch i message hmem).2
      simp only [sends_sent, and_self, if_true]
      omega
    · rw [Function.update_of_ne hj] at hsent
      obtain ⟨hrecorded, hfailed⟩ := h.sent j other ok' hsent
      exact ⟨List.mem_cons_of_mem _ hrecorded, fun hok => (hfailed hok).trans_le (hsends _ _)⟩
  case counted =>
    intro key
    obtain ⟨owing, howing, hcount⟩ := h.counted key
    have hothers : ∀ j, j ≠ i →
        (Function.update errands i { errands i with sent := some (message, ok) } j).Owes key →
          j ∈ owing := by
      intro j hj howes
      rw [Function.update_of_ne hj] at howes
      exact howing j howes
    by_cases howed : ok = false ∧ message.key = key
    · refine ⟨insert i owing, ?_, ?_⟩
      · intro j howes
        by_cases hj : j = i
        · exact hj ▸ Finset.mem_insert_self _ _
        · exact Finset.mem_insert_of_mem (hothers j hj howes)
      · have hcard := Finset.card_insert_le i owing
        have hattempts : ({ world with
            log := .sent (fleet.workerId i) message.key ok :: world.log } : OutboxWorld).attempts
              key = world.attempts key := rfl
        rw [hattempts, sends_sent, if_pos ⟨howed.2, howed.1⟩]
        omega
    · refine ⟨owing, ?_, hcount.trans (hsends key false)⟩
      intro j howes
      by_cases hj : j = i
      · subst j
        obtain ⟨other, hsent, hkey⟩ := howes
        rw [Function.update_self] at hsent
        cases hsent
        exact absurd ⟨rfl, hkey⟩ howed
      · exact hothers j hj howes
  case done =>
    intro key stored hfind hstatus
    obtain ⟨j, hrecorded⟩ := h.done key stored hfind hstatus
    exact ⟨j, List.mem_cons_of_mem _ hrecorded⟩
  case dead =>
    intro key stored hfind hstatus
    obtain ⟨j, hrecorded, hlimit⟩ := h.dead key stored hfind hstatus
    exact ⟨j, List.mem_cons_of_mem _ hrecorded, hlimit.trans (hsends _ _)⟩

/-- What is owed for a settlement is paid by it. -/
theorem Reported.pay {owing : Finset ι} {key : MessageKey} {i : ι} {errand : Errand}
    (howing : ∀ j, (errands j).Owes key → j ∈ owing) (hsent : errand.sent = none)
    {j : ι} (howes : (Function.update errands i errand j).Owes key) : j ∈ owing.erase i := by
  by_cases hj : j = i
  · subst j
    obtain ⟨message, hother, _⟩ := howes
    rw [Function.update_self, hsent] at hother
    cases hother
  · rw [Function.update_of_ne hj] at howes
    exact Finset.mem_erase.mpr ⟨hj, howing j howes⟩

omit [DecidableEq ι] in
/-- Who gives a message up has seen enough failed sends of it. -/
theorem Reported.limit_le (h : Reported fleet errands world) {i : ι} {key : MessageKey}
    {message updated : OutboxMessage}
    (hreport : Report (fleet.dispatcher i) (errands i) key message updated)
    (hdead : updated.status = .dead) :
    (fleet.dispatcher i).maxAttempts.toNat ≤ sends world.log key false := by
  cases hreport with
  | delivered _ _ hstatus _ => simp [hdead] at hstatus
  | @failed sent hsent hsentKey hstatus _ =>
      obtain ⟨_, hfailed⟩ := h.sent i sent false hsent
      obtain ⟨_, hlimit⟩ := hstatus.resolve_left (by simp [hdead])
      have hcount := hfailed rfl
      have hlimit' := UInt32.le_iff_toNat_le.mp hlimit
      have hsucc : (sent.attempts + 1).toNat ≤ sent.attempts.toNat + 1 := by
        rw [UInt32.toNat_add]
        exact Nat.mod_le _ _
      rw [hsentKey] at hcount
      omega

/-- A dispatcher settles what it has sent, as the send came out. -/
theorem Reported.settle (h : Reported fleet errands world) (i : ι) {key : MessageKey}
    {message updated : OutboxMessage} (hfind : world.store.find key = some message)
    (hkey : updated.key = message.key) (hrequest : updated.SameRequest message)
    (hreport : Report (fleet.dispatcher i) (errands i) key message updated) :
    Reported fleet (Function.update errands i { errands i with sent := none })
      { world with store := world.store.insertRaw updated } := by
  have hkeeps : KeepsRequests world
      { world with store := world.store.insertRaw updated } :=
    keepsRequests_insertRaw hfind hkey hrequest
  rw [InMemoryOutboxStore.key_of_find hfind] at hkey
  have hsettled := h.settled i
  have hstored : ∀ other stored, (world.store.insertRaw updated).find other = some stored →
      other = key ∧ stored = updated ∨ world.store.find other = some stored := by
    intro other stored hstored
    rw [InMemoryOutboxStore.find_insertRaw, hkey] at hstored
    split at hstored
    case isTrue hother => exact .inl ⟨hother, (Option.some.inj hstored).symm⟩
    case isFalse => exact .inr hstored
  constructor
  case batch =>
    intro j other hother
    obtain ⟨⟨stored, hold, hsame⟩, hcount⟩ := hsettled.batch j other hother
    obtain ⟨kept, hkept, hkeptSame⟩ := hkeeps _ _ hold
    exact ⟨⟨kept, hkept, hkeptSame.trans hsame⟩, hcount⟩
  case sent => exact hsettled.sent
  case counted =>
    intro other
    obtain ⟨owing, howing, hcount⟩ := h.counted other
    have hpaid : ∀ j,
        (Function.update errands i { errands i with sent := none } j).Owes other →
          j ∈ owing.erase i := fun j howes => Reported.pay howing rfl howes
    have hattempts := attempts_insertRaw world updated world.log other
    rw [hkey] at hattempts
    rw [hattempts]
    have herase : (owing.erase i).card ≤ owing.card := Finset.card_erase_le
    by_cases hother : other = key
    · subst hother
      rw [attempts_of_find hfind] at hcount
      rw [if_pos rfl]
      refine ⟨owing.erase i, hpaid, ?_⟩
      dsimp only
      cases hreport with
      | delivered _ _ _ hsame =>
          rw [hsame]
          omega
      | @failed sent hsent hsentKey _ hsucc =>
          -- The one more attempt is the report that was owed.
          have howed := Finset.card_erase_add_one (howing i ⟨sent, hsent, hsentKey⟩)
          have hbound := toNat_saturatingSucc_le message.attempts
          rw [hsucc]
          omega
    · rw [if_neg hother]
      exact ⟨owing.erase i, hpaid, by dsimp only; omega⟩
  case done =>
    intro other stored hfound hdone
    rcases hstored other stored hfound with ⟨rfl, rfl⟩ | hold
    · cases hreport with
      | delivered hsent hsentKey _ _ => exact ⟨i, hsentKey ▸ (h.sent i _ _ hsent).1⟩
      | failed _ _ hstatus _ => simp [hdone] at hstatus
    · exact h.done other stored hold hdone
  case dead =>
    intro other stored hfound hdead
    rcases hstored other stored hfound with ⟨rfl, rfl⟩ | hold
    · have hlimit := h.limit_le hreport hdead
      cases hreport with
      | delivered _ _ hstatus _ => simp [hdead] at hstatus
      | failed hsent hsentKey _ _ => exact ⟨i, hsentKey ▸ (h.sent i _ _ hsent).1, hlimit⟩
    · exact h.dead other stored hold hdead

omit [DecidableEq ι] in
/-- A new message counts no attempts. -/
theorem Reported.enqueue (h : Reported fleet errands world) (new : NewOutboxMessage)
    (createdAt notBefore : Int64) :
    Reported fleet errands (world.enqueue new createdAt notBefore) := by
  rcases world.enqueue_cases new createdAt notBefore with heq | ⟨hfree, heq⟩
  · rwa [heq]
  rw [heq]
  refine h.moves (List.suffix_refl _) (heq ▸ keepsRequests_enqueue world new createdAt notBefore)
    ?_ ?_
  · intro key
    rw [attempts_insertRaw]
    split
    · exact Nat.zero_le _
    · exact Nat.le_refl _
  · intro key message hfind hterminal
    rw [InMemoryOutboxStore.find_insertRaw] at hfind
    split at hfind
    case isTrue =>
      cases hfind
      cases hterminal
    case isFalse => exact ⟨message, hfind, rfl⟩

omit [DecidableEq ι] in
/-- A message is rewritten from outside the dispatchers. -/
theorem Reported.rewritten (h : Reported fleet errands world) {key : MessageKey}
    {message updated : OutboxMessage} {log : List OutboxEvent}
    (hfind : world.store.find key = some message) (hlog : world.log <:+ log)
    (hkey : updated.key = message.key) (hrequest : updated.SameRequest message)
    (hattempts : updated.attempts ≤ message.attempts)
    (hstatus : updated.status.isTerminal = true → updated.status = message.status) :
    Reported fleet errands
      { world with store := world.store.insertRaw updated, log := log } := by
  refine h.moves hlog (keepsRequests_insertRaw hfind hkey hrequest) ?_ ?_
  · intro other
    rw [attempts_insertRaw]
    split
    case isTrue hother =>
      rw [hother, hkey, InMemoryOutboxStore.key_of_find hfind, attempts_of_find hfind]
      exact UInt32.le_iff_toNat_le.mp hattempts
    case isFalse => exact Nat.le_refl _
  · intro other stored hstored hterminal
    rw [InMemoryOutboxStore.find_insertRaw] at hstored
    split at hstored
    case isTrue hother =>
      cases hstored
      rw [hother, hkey, InMemoryOutboxStore.key_of_find hfind]
      exact ⟨message, hfind, (hstatus hterminal).symm⟩
    case isFalse => exact ⟨stored, hstored, rfl⟩

omit [DecidableEq ι] in
theorem Reported.heartbeat (h : Reported fleet errands world) (worker : String)
    (tenant : TenantId) (id : Id) (leaseUntil : Int64) :
    Reported fleet errands (world.heartbeat worker tenant id leaseUntil) := by
  rcases world.heartbeat_cases worker tenant id leaseUntil with heq | ⟨message, hfind, _, heq⟩
  · rwa [heq]
  · rw [heq]
    exact h.rewritten hfind (List.suffix_cons _ _) rfl ⟨rfl, rfl, rfl, rfl, rfl, rfl, rfl⟩
      (UInt32.le_refl _) fun _ => rfl

omit [DecidableEq ι] in
theorem Reported.revive (h : Reported fleet errands world) (tenant : TenantId) (id : Id)
    (time : Int64) : Reported fleet errands (world.revive tenant id time) := by
  rcases world.revive_cases tenant id time with heq | ⟨message, hfind, heq⟩
  · rwa [heq]
  · rw [heq]
    exact h.rewritten hfind (List.suffix_refl _) rfl ⟨rfl, rfl, rfl, rfl, rfl, rfl, rfl⟩
      (UInt32.zero_le) nofun

end Steps

/-! ## Runs -/

section Runs

variable [DecidableEq ι] {fleet : Fleet ι} {errands : ι → Errand} {state after : FleetState ι}

/-- A message that is dead once another is stored was dead before, if the other one was when it
is dead. -/
theorem dead_of_insertRaw {store : InMemoryOutboxStore} {key : MessageKey}
    {message updated : OutboxMessage}
    (hfind : (store.insertRaw updated).find key = some message) (hdead : message.status = .dead)
    (hupdated : updated.status = .dead →
      ∃ old, store.find updated.key = some old ∧ old.status = .dead) :
    ∃ old, store.find key = some old ∧ old.status = .dead := by
  rw [InMemoryOutboxStore.find_insertRaw] at hfind
  split at hfind
  case isTrue hkey =>
    cases hfind
    exact hkey ▸ hupdated hdead
  case isFalse => exact ⟨message, hfind, hdead⟩

/-- Every dispatcher is on an errand and reports as it should. -/
def Reports (fleet : Fleet ι) (errands : ι → Errand) (state : FleetState ι) : Prop :=
  ∀ i, (state.threads i).Follows (reporting (fleet.dispatcher i)) (fun _ _ => True) (errands i)

/-- One call of a dispatcher, with the answer it gets. -/
theorem Reported.call {world : OutboxWorld} (h : Reported fleet errands state.shared) {i : ι}
    {op : DispatchOp} {answer : op.Answer}
    (hpermits : (reporting (fleet.dispatcher i)).permits (errands i) op)
    (heffect : OutboxWorld.Effect (fleet.workerId i) state.shared op answer world) :
    Reported fleet (Function.update errands i
      ((reporting (fleet.dispatcher i)).after (errands i) op answer)) world := by
  cases heffect with
  | lease hleases => exact h.lease i hleases
  | send => exact h.send i hpermits _
  | settle hop hfind =>
      rw [reporting_after_of_settles hop]
      exact h.settle i hfind (DispatchOp.key_rewrite _ _) (sameRequest_rewrite _ _)
        (report_of_permits hop hpermits _)
  | missing hop _ =>
      rw [reporting_after_of_settles hop]
      exact h.settled i
  | bystander hop =>
      rw [reporting_after_of_isBystander hop, Function.update_eq_self]
      exact h

/-- The answers of the store are as the discipline expects them. -/
theorem reporting_ensures_of_effect {dispatcher : Dispatcher} {worker : String}
    {world next : OutboxWorld} {op : DispatchOp} {answer : op.Answer}
    (h : OutboxWorld.Effect worker world op answer next) :
    (reporting dispatcher).ensures op answer := by
  cases h with
  | lease hleases => exact fun _ hmem => hleases.tenant_eq hmem
  | send => trivial
  | settle hop _ | missing hop _ | bystander hop => cases op <;> trivial

/-- One step of the fleet. -/
theorem reported_of_next {action : FleetAction ι} (hreports : Reports fleet errands state)
    (h : Reported fleet errands state.shared) (hnext : fleet.next state action = some after) :
    ∃ errands', Reports fleet errands' after ∧ Reported fleet errands' after.shared := by
  cases action with
  | tick i tenant nowMs =>
      obtain ⟨_, rfl⟩ := Pool.spawn_eq_some_iff.mp hnext
      exact ⟨_, Pool.follows_begin hreports (Dispatcher.reports_tick _ tenant nowMs .idle),
        h.idle i⟩
  | call i choice =>
      obtain ⟨op, resume, answer, world, hthread, hanswer, rfl⟩ :=
        Pool.call_eq_some_iff.mp hnext
      have heffect := OutboxWorld.effect_of_answer hanswer
      have hpermits := hreports i
      rw [hthread] at hpermits
      exact ⟨_, Pool.follows_call hreports hthread (reporting_ensures_of_effect heffect),
        h.call hpermits.1 heffect⟩
  | enqueue message createdAt notBefore =>
      cases hnext
      exact ⟨errands, hreports, h.enqueue message createdAt notBefore⟩
  | heartbeat i tenant id leaseUntil =>
      cases hnext
      exact ⟨errands, hreports, h.heartbeat _ tenant id leaseUntil⟩
  | revive tenant id time =>
      cases hnext
      exact ⟨errands, hreports, h.revive tenant id time⟩

theorem reported_of_reachable (h : fleet.system.Reachable state) :
    ∃ errands, Reports fleet errands state ∧ Reported fleet errands state.shared := by
  refine TransitionSystem.invariant
    (fun state => ∃ errands, Reports fleet errands state ∧ Reported fleet errands state.shared)
    ?_ ?_ h
  · rintro _ rfl
    refine ⟨fun _ => .idle, fun _ => trivial, ?_⟩
    constructor
    case batch => simp [Errand.idle]
    case sent => simp [Errand.idle]
    case counted =>
      intro key
      refine ⟨∅, ?_, Nat.le_refl 0⟩
      rintro i ⟨message, hsent, _⟩
      cases hsent
    case done => simp [Fleet.start, OutboxWorld.empty]
    case dead => simp [Fleet.start, OutboxWorld.empty]
  · rintro source action target _ ⟨errands, hreports, hreported⟩ hnext
    exact reported_of_next hreports hreported hnext

omit [DecidableEq ι] in
/-- A message that one call gives up has reached the limit of the dispatcher. -/
theorem givenUp_of_effect {world : OutboxWorld} (h : Reported fleet errands state.shared) {i : ι}
    {op : DispatchOp} {answer : op.Answer}
    (hpermits : (reporting (fleet.dispatcher i)).permits (errands i) op)
    (heffect : OutboxWorld.Effect (fleet.workerId i) state.shared op answer world)
    {key : MessageKey} {message : OutboxMessage} (hfind : world.store.find key = some message)
    (hdead : message.status = .dead) :
    (∃ old, state.shared.store.find key = some old ∧ old.status = .dead) ∨
      (fleet.dispatcher i).maxAttempts.toNat ≤ sends state.shared.log key false := by
  cases heffect with
  | @lease tenant nowMs leaseMs batch workerId groupByKey leased store hleases =>
      by_cases hkey : key ∈ leased.map (·.key)
      · obtain ⟨old, _, _, hstored⟩ := hleases.of_mem_keys hkey
        cases hstored.symm.trans hfind
        cases hdead
      · exact .inl ⟨message, (hleases.frame key hkey).symm.trans hfind, hdead⟩
  | @settle op answer settled old hop hfound =>
      rw [InMemoryOutboxStore.find_insertRaw, DispatchOp.key_rewrite,
        InMemoryOutboxStore.key_of_find hfound] at hfind
      split at hfind
      case isTrue hkey =>
        cases hfind
        exact .inr (hkey ▸ h.limit_le (report_of_permits hop hpermits old) hdead)
      case isFalse => exact .inl ⟨message, hfind, hdead⟩
  | send | missing | bystander => exact .inl ⟨message, hfind, hdead⟩

/-- One step: whoever gives a message up may do so. -/
theorem givenUp_of_next {action : FleetAction ι} (hreports : Reports fleet errands state)
    (h : Reported fleet errands state.shared) (hnext : fleet.next state action = some after)
    {key : MessageKey} {message : OutboxMessage}
    (hfind : after.shared.store.find key = some message) (hdead : message.status = .dead) :
    (∃ old, state.shared.store.find key = some old ∧ old.status = .dead) ∨
      ∃ i choice, action = .call i choice ∧
        (fleet.dispatcher i).maxAttempts.toNat ≤ sends state.shared.log key false := by
  cases action with
  | tick i tenant nowMs =>
      obtain ⟨_, rfl⟩ := Pool.spawn_eq_some_iff.mp hnext
      exact .inl ⟨message, hfind, hdead⟩
  | call i choice =>
      obtain ⟨op, resume, answer, world, hthread, hanswer, rfl⟩ :=
        Pool.call_eq_some_iff.mp hnext
      have heffect := OutboxWorld.effect_of_answer hanswer
      have hpermits := hreports i
      rw [hthread] at hpermits
      refine (givenUp_of_effect h hpermits.1 heffect hfind hdead).imp_right fun hlimit => ?_
      exact ⟨i, choice, rfl, hlimit⟩
  | enqueue new createdAt notBefore =>
      cases hnext
      left
      rcases state.shared.enqueue_cases new createdAt notBefore with heq | ⟨_, heq⟩
      · exact ⟨message, heq ▸ hfind, hdead⟩
      · rw [heq] at hfind
        exact dead_of_insertRaw hfind hdead nofun
  | heartbeat i tenant id leaseUntil =>
      cases hnext
      left
      rcases state.shared.heartbeat_cases (fleet.workerId i) tenant id leaseUntil with
        heq | ⟨old, hold, _, heq⟩
      · exact ⟨message, heq ▸ hfind, hdead⟩
      · rw [heq] at hfind
        exact dead_of_insertRaw hfind hdead fun hstatus =>
          ⟨old, InMemoryOutboxStore.key_of_find hold ▸ hold, hstatus⟩
  | revive tenant id time =>
      cases hnext
      left
      rcases state.shared.revive_cases tenant id time with heq | ⟨old, hold, heq⟩
      · exact ⟨message, heq ▸ hfind, hdead⟩
      · rw [heq] at hfind
        exact dead_of_insertRaw hfind hdead nofun

/-- No call of a dispatcher loses a request. -/
theorem keepsRequests_of_effect {worker : String} {world next : OutboxWorld} {op : DispatchOp}
    {answer : op.Answer} (h : OutboxWorld.Effect worker world op answer next) :
    KeepsRequests world next := by
  cases h with
  | lease hleases => exact keepsRequests_lease hleases
  | send => exact .refl world
  | settle _ hfind =>
      exact keepsRequests_insertRaw hfind (DispatchOp.key_rewrite _ _) (sameRequest_rewrite _ _)
  | missing _ _ | bystander _ => exact .refl world

theorem keepsRequests_of_next {action : FleetAction ι}
    (hnext : fleet.next state action = some after) :
    KeepsRequests state.shared after.shared := by
  cases action with
  | tick i tenant nowMs =>
      obtain ⟨_, rfl⟩ := Pool.spawn_eq_some_iff.mp hnext
      exact .refl _
  | call i choice =>
      obtain ⟨op, resume, answer, world, _, hanswer, rfl⟩ := Pool.call_eq_some_iff.mp hnext
      exact keepsRequests_of_effect (OutboxWorld.effect_of_answer hanswer)
  | enqueue message createdAt notBefore =>
      cases hnext
      exact keepsRequests_enqueue _ message createdAt notBefore
  | heartbeat i tenant id leaseUntil =>
      cases hnext
      dsimp only
      rcases state.shared.heartbeat_cases (fleet.workerId i) tenant id leaseUntil with
        heq | ⟨message, hfind, _, heq⟩
      · rw [heq]
        exact .refl _
      · rw [heq]
        exact keepsRequests_insertRaw hfind rfl ⟨rfl, rfl, rfl, rfl, rfl, rfl, rfl⟩
  | revive tenant id time =>
      cases hnext
      dsimp only
      rcases state.shared.revive_cases tenant id time with heq | ⟨message, hfind, heq⟩
      · rw [heq]
        exact .refl _
      · rw [heq]
        exact keepsRequests_insertRaw hfind rfl ⟨rfl, rfl, rfl, rfl, rfl, rfl, rfl⟩

/-- What a fleet delivers, in every reachable state and along every run. -/
structure FleetDelivers (fleet : Fleet ι) : Prop where
  /-- A message is done only after the transport has taken it. -/
  done : ∀ state key message, fleet.system.Reachable state →
    state.shared.store.find key = some message → message.status = .done →
      ∃ i, .sent (fleet.workerId i) key true ∈ state.shared.log
  /-- Only a call of a dispatcher gives a message up, after as many failed sends as that dispatcher
  allows. -/
  givenUp : ∀ state action after key message, fleet.system.Reachable state →
    fleet.system.step state action after → after.shared.store.find key = some message →
      message.status = .dead →
        (∃ old, state.shared.store.find key = some old ∧ old.status = .dead) ∨
          ∃ i choice, action = .call i choice ∧
            (fleet.dispatcher i).maxAttempts.toNat ≤ sends state.shared.log key false
  /-- What is given up was sent in vain, by a worker whose limit is reached. -/
  dead : ∀ state key message, fleet.system.Reachable state →
    state.shared.store.find key = some message → message.status = .dead →
      ∃ i, .sent (fleet.workerId i) key false ∈ state.shared.log ∧
        (fleet.dispatcher i).maxAttempts.toNat ≤ sends state.shared.log key false
  attempts : ∀ state key message, fleet.system.Reachable state →
    state.shared.store.find key = some message →
      message.attempts.toNat ≤ sends state.shared.log key false
  /-- What is about to be sent is the request of a stored message. -/
  sending : ∀ state i message resume, fleet.system.Reachable state →
    state.threads i = .call (.send message) resume →
      ∃ stored, state.shared.store.find message.key = some stored ∧ stored.SameRequest message
  keepsRequests : ∀ state actions after, fleet.system.Reachable state →
    fleet.system.Run state actions after → KeepsRequests state.shared after.shared

theorem fleetDelivers (fleet : Fleet ι) : FleetDelivers fleet := by
  constructor
  case done =>
    intro state key message hreach
    obtain ⟨_, _, hreported⟩ := reported_of_reachable hreach
    exact hreported.done key message
  case givenUp =>
    intro state action after key message hreach hstep
    obtain ⟨errands, hreports, hreported⟩ := reported_of_reachable hreach
    exact givenUp_of_next hreports hreported hstep
  case dead =>
    intro state key message hreach
    obtain ⟨_, _, hreported⟩ := reported_of_reachable hreach
    exact hreported.dead key message
  case attempts =>
    intro state key message hreach hfind
    obtain ⟨_, _, hreported⟩ := reported_of_reachable hreach
    obtain ⟨owing, _, hcount⟩ := hreported.counted key
    rw [attempts_of_find hfind] at hcount
    omega
  case sending =>
    intro state i message resume hreach hthread
    obtain ⟨errands, hreports, hreported⟩ := reported_of_reachable hreach
    have hfollows := hreports i
    rw [hthread] at hfollows
    exact (hreported.batch i message hfollows.1).1
  case keepsRequests =>
    intro state actions after hreach hrun
    refine hrun.preserves (fun next => KeepsRequests state.shared next.shared) hreach ?_
      (.refl state.shared)
    intro before action next _ _ hkeeps hnext
    exact hkeeps.trans (keepsRequests_of_next hnext)

end Runs

end Soulbase.Tx
