/-
# No dead letter is lost

A message that has been sent in vain too often is marked `Dead` in the outbox,
then the budget guard and the ledger are told, and only then is its letter pushed
to the dead store. Each of the last three may refuse, and the error ends the tick.
A message that is `Dead` is not selected again, so its letter is never pushed.

`not_noLetterLost_refusedHook` is the shortest such run. `noLetterLost_of_retained` is
what holds: no letter is lost as long as each message that is given up gets as
far as the dead store and its letter replaces no letter of another tenant.
-/

import Soulbase.Foundation.Transition
import Soulbase.Tx.Dispatcher
import Soulbase.Tx.Memory.TxStore

namespace Soulbase.Tx

open Soulbase.Foundation

/-- What a letter is about: its kind, tenant and id. -/
def DeadLetter.subject (letter : DeadLetter) : DeadKind × MessageKey :=
  (letter.reference.kind, messageKey letter.tenant letter.reference.id)

/-- The store, and the subjects of the letters that were removed or purged on
request. -/
structure TxWorld where
  store : InMemoryTxStore
  dropped : List (DeadKind × MessageKey)

namespace TxWorld

/-- Nothing has happened. -/
def start (groupByDispatchKey : Bool) : TxWorld where
  store := .withConfig groupByDispatchKey
  dropped := []

/-- The world with another dead store. -/
def withDead (world : TxWorld) (dead : InMemoryDeadStore) : TxWorld :=
  { world with store := { world.store with dead := dead } }

/-- The operations of a tick over the in-memory transaction store. A push may
fail, and then stores nothing. -/
def answer : Handler DispatchOp DispatchOp.Answer DispatchChoice TxWorld
  | world, .order order, .leaseBatch tenant nowMs leaseMs batch workerId groupByKey =>
      if world.store.outbox.messages.Enumerates order then
        let leased :=
          world.store.leaseBatch tenant nowMs leaseMs batch workerId groupByKey order
        some (.ok leased.1, { world with store := leased.2 })
      else none
  | world, .outcome result, .onDispatchAttempt _ _ => some (result, world)
  | world, .outcome result, .send _ => some (result, world)
  | world, .none, .ackDone tenant id =>
      let acked := world.store.ackDone tenant id
      some (acked.1, { world with store := acked.2 })
  | world, .outcome result, .onDispatchResult _ _ _ => some (result, world)
  | world, .hooked nowMs onDeadLetter onOutboxDeadLetter, .deadLetter tenant id error =>
      let deadened := world.store.deadLetter tenant id error nowMs onDeadLetter
        onOutboxDeadLetter
      some (deadened.1, { world with store := deadened.2 })
  | world, .outcome (.ok ()), .push letter =>
      some (.ok (), world.withDead (world.store.dead.push letter))
  | world, .outcome (.error error), .push _ => some (.error error, world)
  | world, .time nowMs, .nextAfter _ _ => some (nowMs, world)
  | world, .none, .nackBackoff tenant id notBefore error =>
      let nacked := world.store.nackBackoff tenant id notBefore error
      some (nacked.1, { world with store := nacked.2 })
  | _, _, _ => none

/-- A producer enqueues a message. -/
def enqueue (world : TxWorld) (message : NewOutboxMessage) (createdAt notBefore : Int64)
    (onEnqueue : TxResult Unit) : TxWorld :=
  { world with store := (world.store.enqueue message createdAt notBefore onEnqueue).2 }

/-- An operator replays a letter. -/
def replay (world : TxWorld) (reference : DeadLetterRef) (nowMs : Int64) : TxWorld :=
  world.withDead (world.store.dead.replay reference nowMs).2

/-- Letters are dropped on request, with a note of what they were about. -/
def dropping (world : TxWorld) (keys : List LetterKey) (dead : InMemoryDeadStore) :
    TxWorld :=
  { world.withDead dead with
    dropped :=
      (keys.filterMap world.store.dead.find).map DeadLetter.subject ++ world.dropped }

/-- An operator removes a letter. -/
def remove (world : TxWorld) (reference : DeadLetterRef) : TxWorld :=
  world.dropping [reference.key] (world.store.dead.remove reference)

/-- Maintenance purges old letters. -/
def purge (world : TxWorld) (tenant : TenantId) (beforeEpochMs : Int64) : TxWorld :=
  world.dropping (world.store.dead.expired tenant beforeEpochMs)
    (world.store.dead.purgeOlderThan tenant beforeEpochMs)

end TxWorld

/-- What happens to the store between ticks and in them. -/
inductive TxAction
  | enqueue (message : NewOutboxMessage) (createdAt notBefore : Int64)
      (onEnqueue : TxResult Unit)
  | tick (dispatcher : Dispatcher) (tenant : TenantId) (nowMs : Int64)
  | replay (reference : DeadLetterRef) (nowMs : Int64)
  | remove (reference : DeadLetterRef)
  | purge (tenant : TenantId) (beforeEpochMs : Int64)

/-- The environment may choose as it likes. -/
def anyChoice (_ : TxWorld) (_ : DispatchChoice) (_ : DispatchOp) : Bool := true

/-- The store under ticks of dispatchers with a dead store, with the choices of
the environment limited to the allowed ones. -/
def deadLetterSystem (groupByDispatchKey : Bool)
    (allowed : TxWorld → DispatchChoice → DispatchOp → Bool) :
    TransitionSystem TxWorld TxAction where
  init world := world = .start groupByDispatchKey
  step world action after :=
    match action with
    | .enqueue message createdAt notBefore onEnqueue =>
        after = world.enqueue message createdAt notBefore onEnqueue
    | .tick dispatcher tenant nowMs => dispatcher.deadStore = true ∧ ∃ result,
        Exec (TxWorld.answer.restrict allowed) (dispatcher.tick tenant nowMs).run
          world result after
    | .replay reference nowMs => after = world.replay reference nowMs
    | .remove reference => after = world.remove reference
    | .purge tenant beforeEpochMs => after = world.purge tenant beforeEpochMs

/-- The letter holds the message under this key. -/
structure DeadLetter.IsFor (letter : DeadLetter) (key : MessageKey) : Prop where
  subject : letter.subject = (.outbox, key)
  payload : ∃ message, letter.payload = .outbox message ∧ message.key = key

/-- The dead store has a letter for the message under this key, where a reference
to that letter finds it. -/
def InMemoryDeadStore.HasLetter (store : InMemoryDeadStore) (key : MessageKey) : Prop :=
  ∃ letter, store.find (.outbox, key.2) = some letter ∧ letter.IsFor key

/-- Every dead message has a letter, unless that was dropped on request. -/
def TxWorld.Lettered (world : TxWorld) : Prop :=
  ∀ key message, world.store.outbox.find key = some message → message.status = .dead →
    (.outbox, key) ∈ world.dropped ∨ world.store.dead.HasLetter key

/-- After every tick, every dead message has a letter. -/
def NoLetterLost (T : TransitionSystem TxWorld TxAction) : Prop :=
  ∀ world dispatcher tenant nowMs after, T.Reachable world →
    T.step world (.tick dispatcher tenant nowMs) after → after.Lettered

/-- The letter of a message that is given up is retained: neither hook and no push
fails, and the letter replaces no letter of another tenant. -/
def retained (world : TxWorld) : DispatchChoice → DispatchOp → Bool
  | .hooked _ onDeadLetter onOutboxDeadLetter, .deadLetter _ _ _ =>
      onDeadLetter.isOk && onOutboxDeadLetter.isOk
  | .outcome result, .push letter =>
      result.isOk && (world.store.dead.find letter.reference.key).all fun old =>
        old.tenant = letter.tenant
  | _, _ => true

/-- No letter is touched and no message becomes dead. -/
structure Harmless (before after : TxWorld) : Prop where
  find : after.store.dead.find = before.store.dead.find
  dropped : after.dropped = before.dropped
  dead : ∀ key message, after.store.outbox.find key = some message →
    message.status = .dead →
    ∃ message', before.store.outbox.find key = some message' ∧ message'.status = .dead

theorem Harmless.refl (world : TxWorld) : Harmless world world :=
  ⟨rfl, rfl, fun _ message hfind hdead => ⟨message, hfind, hdead⟩⟩

theorem Harmless.lettered {before after : TxWorld} (h : Harmless before after)
    (hbefore : before.Lettered) : after.Lettered := by
  intro key message hfind hdead
  obtain ⟨message', hfind', hdead'⟩ := h.dead key message hfind hdead
  rw [h.dropped, InMemoryDeadStore.HasLetter, h.find]
  exact hbefore key message' hfind' hdead'

section Outbox

variable {world : TxWorld}

/-- Writing a message that is not dead is harmless. -/
theorem harmless_insertRaw {message : OutboxMessage} (h : message.status ≠ .dead) :
    Harmless world
      { world with
        store := world.store.withOutbox (world.store.outbox.insertRaw message) } := by
  refine ⟨rfl, rfl, ?_⟩
  intro key stored hfind hdead
  change (world.store.outbox.insertRaw message).find key = some stored at hfind
  rw [InMemoryOutboxStore.find_insertRaw] at hfind
  split at hfind
  case isTrue =>
    cases hfind
    exact absurd hdead h
  case isFalse => exact ⟨stored, hfind, hdead⟩

/-- Rewriting a message so that it is not dead is harmless. -/
theorem harmless_withMessage {α : Type} {tenant : TenantId} {id : Id}
    {update : OutboxMessage → α × OutboxMessage}
    (h : ∀ message, (update message).2.status ≠ .dead) :
    Harmless world
      { world with
        store := world.store.withOutbox
          (world.store.outbox.withMessage tenant id fun message => .ok (update message)).2 } := by
  cases hfind : world.store.outbox.find (messageKey tenant id) with
  | none =>
      rw [InMemoryOutboxStore.withMessage_of_missing hfind]
      exact .refl world
  | some message =>
      rw [InMemoryOutboxStore.withMessage_of_find hfind rfl]
      exact harmless_insertRaw (h message)

/-- Leasing is harmless: a dead message is not selected. -/
theorem harmless_lease {tenant : TenantId} {nowMs leaseUntil : Int64} {workerId : String}
    {leased : List OutboxMessage} {outbox : InMemoryOutboxStore}
    (h : world.store.outbox.Leases tenant nowMs workerId leaseUntil leased outbox) :
    Harmless world { world with store := world.store.withOutbox outbox } := by
  refine ⟨rfl, rfl, ?_⟩
  intro key message hfind hdead
  change outbox.find key = some message at hfind
  by_cases hkey : key ∈ leased.map (·.key)
  · obtain ⟨old, _, _, hstored⟩ := h.of_mem_keys hkey
    cases hstored.symm.trans hfind
    cases hdead
  · rw [h.frame key hkey] at hfind
    exact ⟨message, hfind, hdead⟩

end Outbox

/-- A call that gives no message up and stores no letter. -/
def DispatchOp.isHarmless : DispatchOp → Bool
  | .deadLetter .. | .push .. => false
  | .leaseBatch .. | .onDispatchAttempt .. | .send .. | .ackDone .. | .onDispatchResult ..
  | .nextAfter .. | .nackBackoff .. => true

/-- Such a call is harmless, whatever it answers. -/
theorem harmless_of_answer {world after : TxWorld} {choice : DispatchChoice}
    {op : DispatchOp} {reply : op.Answer} (hop : op.isHarmless = true)
    (h : TxWorld.answer world choice op = some (reply, after)) : Harmless world after := by
  cases op with
  | deadLetter | push => cases hop
  | leaseBatch tenant nowMs leaseMs batch workerId groupByKey =>
      cases choice with
      | order order =>
          simp only [TxWorld.answer] at h
          split at h
          case isTrue hallowed =>
            cases h
            exact harmless_lease
              (InMemoryOutboxStore.leases_leaseBatch _ _ _ _ _ _ _ hallowed)
          case isFalse => cases h
      | outcome _ | time _ | hooked _ _ _ | none => cases h
  | ackDone tenant id =>
      cases choice <;> cases h
      exact harmless_withMessage fun _ => by simp [InMemoryOutboxStore.acked]
  | nackBackoff tenant id notBefore error =>
      cases choice <;> cases h
      exact harmless_withMessage fun _ => by simp [InMemoryOutboxStore.nacked]
  | onDispatchAttempt | send | onDispatchResult | nextAfter =>
      cases choice <;> cases h
      exact .refl world

section Retained

variable {world after : TxWorld} {choice : DispatchChoice}

/-- Giving a message up when no hook refuses: the message is missing, or it is
dead and its letter is returned. -/
theorem deadLetter_of_answer {tenant : TenantId} {id : Id} {error : Option String}
    {reply : TxResult DeadLetter}
    (h : TxWorld.answer.restrict retained world choice (.deadLetter tenant id error) =
      some (reply, after)) :
    (∃ failure, reply = .error failure) ∧ after = world ∨
      ∃ message nowMs, world.store.outbox.find (messageKey tenant id) = some message ∧
        reply = .ok (buildDeadLetter (InMemoryOutboxStore.deadened error message) error nowMs) ∧
        after =
          { world with
            store := world.store.withOutbox (world.store.outbox.insertRaw
              (InMemoryOutboxStore.deadened error message)) } := by
  obtain ⟨hretained, hanswer⟩ := Handler.restrict_eq_some_iff.mp h
  cases choice with
  | order _ | outcome _ | time _ | none => cases hanswer
  | hooked nowMs onDeadLetter onOutboxDeadLetter =>
      cases onDeadLetter with
      | error _ => cases hretained
      | ok _ =>
          cases onOutboxDeadLetter with
          | error _ => cases hretained
          | ok _ =>
              cases hfind : world.store.outbox.find (messageKey tenant id) with
              | none =>
                  simp only [TxWorld.answer,
                    InMemoryTxStore.deadLetter_of_missing hfind] at hanswer
                  cases hanswer
                  exact .inl ⟨⟨_, rfl⟩, rfl⟩
              | some message =>
                  simp only [TxWorld.answer,
                    InMemoryTxStore.deadLetter_of_find hfind] at hanswer
                  cases hanswer
                  exact .inr ⟨message, nowMs, rfl, rfl, rfl⟩

/-- Pushing a letter when that does not fail. -/
theorem push_of_answer {letter : DeadLetter} {reply : TxResult Unit}
    (h : TxWorld.answer.restrict retained world choice (.push letter) =
      some (reply, after)) :
    reply = .ok () ∧ after = world.withDead (world.store.dead.push letter) ∧
      ∀ old, world.store.dead.find letter.reference.key = some old →
        old.tenant = letter.tenant := by
  obtain ⟨hretained, hanswer⟩ := Handler.restrict_eq_some_iff.mp h
  cases choice with
  | order _ | hooked _ _ _ | time _ | none => cases hanswer
  | outcome result =>
      cases result with
      | error _ => cases hretained
      | ok _ =>
          cases hanswer
          refine ⟨rfl, rfl, ?_⟩
          intro old hold
          simpa [retained, Except.isOk, Except.toBool, hold] using hretained

end Retained

/-- A message that is given up, and whose letter is then pushed, has a letter. No
other message loses its own: a letter that is replaced is of the same tenant. -/
theorem lettered_of_push {world : TxWorld} {message : OutboxMessage}
    {error : Option String} {nowMs : Int64} (hworld : world.Lettered)
    (htenant : ∀ old, world.store.dead.find (.outbox, message.id.asStr) = some old →
      old.tenant = message.tenant) :
    TxWorld.Lettered (TxWorld.withDead
      { world with store := world.store.withOutbox (world.store.outbox.insertRaw message) }
      ((world.store.withOutbox (world.store.outbox.insertRaw message)).dead.push
        (buildDeadLetter message error nowMs))) := by
  intro key stored hfind hdead
  change (world.store.outbox.insertRaw message).find key = some stored at hfind
  rw [InMemoryDeadStore.HasLetter]
  change _ ∈ world.dropped ∨ ∃ letter,
    (InMemoryDeadStore.push _ (buildDeadLetter message error nowMs)).find _ = _ ∧ _
  simp only [InMemoryDeadStore.find_push]
  by_cases hkey : key = message.key
  · subst hkey
    refine .inr ⟨buildDeadLetter message error nowMs, if_pos rfl, rfl, message, rfl, rfl⟩
  · rw [InMemoryOutboxStore.find_insertRaw_of_ne hkey] at hfind
    apply (hworld key stored hfind hdead).imp id
    rintro ⟨letter, hletter, hfor⟩
    refine ⟨letter, ?_, hfor⟩
    rw [if_neg]
    · exact hletter
    intro hsame
    have hid : key.2 = message.id.asStr := congrArg Prod.snd hsame
    rw [hid] at hletter
    have hsubject : messageKey letter.tenant letter.reference.id = key :=
      congrArg Prod.snd hfor.subject
    apply hkey
    refine Prod.ext ?_ hid
    rw [← hsubject, messageKey, htenant letter hletter]
    rfl

/-! ## Ticks -/

section Tick

variable {dispatcher : Dispatcher} {tenant : TenantId} {nowMs : Int64}
variable {world after : TxWorld}

theorem harmless_of_exec {op : DispatchOp} {reply : op.Answer} (hop : op.isHarmless = true)
    (h : Exec (TxWorld.answer.restrict retained) (call op) world reply after) :
    Harmless world after := by
  obtain ⟨choice, hanswer⟩ := exec_perform_iff.mp h
  exact harmless_of_answer hop (Handler.restrict_eq_some_iff.mp hanswer).2

/-- After a failed send: the message is put back, or it is given up and its letter
reaches the dead store. -/
theorem lettered_of_giveUpOrRetry (hdead : dispatcher.deadStore = true)
    {message : OutboxMessage} {error : TxError} {result : TxResult Unit}
    (hworld : world.Lettered)
    (h : Exec (TxWorld.answer.restrict retained)
      (dispatcher.giveUpOrRetry tenant nowMs message error).run world result after) :
    after.Lettered := by
  unfold Dispatcher.giveUpOrRetry at h
  dsimp only at h
  split at h
  case isTrue _ =>
    rcases exec_fallible_bind_iff.mp h with ⟨_, hgive, _⟩ | ⟨letter, middle, hgive, hrest⟩
    · obtain ⟨choice, hanswer⟩ := exec_perform_iff.mp hgive
      rcases deadLetter_of_answer hanswer with ⟨_, rfl⟩ | ⟨_, _, _, hok, _⟩
      · exact hworld
      · cases hok
    obtain ⟨choice, hanswer⟩ := exec_perform_iff.mp hgive
    rcases deadLetter_of_answer hanswer with ⟨⟨_, hok⟩, _⟩ | ⟨found, now, _, hok, hmiddle⟩
    · cases hok
    cases hok
    rcases exec_fallible_bind_iff.mp hrest with ⟨_, hpush, _⟩ | ⟨_, pushed, hpush, hreport⟩
    · obtain ⟨choice, hanswer⟩ := exec_perform_iff.mp hpush
      cases (push_of_answer hanswer).1
    obtain ⟨choice, hanswer⟩ := exec_perform_iff.mp hpush
    obtain ⟨_, hpushed, htenant⟩ := push_of_answer hanswer
    apply (harmless_of_exec rfl hreport).lettered
    rw [hpushed]
    subst hmiddle
    exact lettered_of_push hworld htenant
  case isFalse _ =>
    obtain ⟨next, middle, hnext, hrest⟩ := exec_lift_bind_iff.mp h
    have hmiddle := (harmless_of_exec rfl hnext).lettered hworld
    rcases exec_fallible_bind_iff.mp hrest with ⟨_, hnack, _⟩ | ⟨_, last, hnack, hreport⟩
    · exact (harmless_of_exec rfl hnack).lettered hmiddle
    · exact (harmless_of_exec rfl hreport).lettered
        ((harmless_of_exec rfl hnack).lettered hmiddle)

theorem lettered_of_dispatch (hdead : dispatcher.deadStore = true)
    {message : OutboxMessage} {result : TxResult Unit} (hworld : world.Lettered)
    (h : Exec (TxWorld.answer.restrict retained)
      (dispatcher.dispatch tenant nowMs message).run world result after) :
    after.Lettered := by
  rcases exec_fallible_bind_iff.mp h with ⟨_, hattempt, _⟩ | ⟨_, middle, hattempt, hrest⟩
  · exact (harmless_of_exec rfl hattempt).lettered hworld
  have hmiddle := (harmless_of_exec rfl hattempt).lettered hworld
  obtain ⟨outcome, sent, hsend, hrest⟩ := exec_lift_bind_iff.mp hrest
  have hsent := (harmless_of_exec rfl hsend).lettered hmiddle
  cases outcome with
  | ok _ =>
      rcases exec_fallible_bind_iff.mp hrest with ⟨_, hack, _⟩ | ⟨_, last, hack, hreport⟩
      · exact (harmless_of_exec rfl hack).lettered hsent
      · exact (harmless_of_exec rfl hreport).lettered
          ((harmless_of_exec rfl hack).lettered hsent)
  | error error => exact lettered_of_giveUpOrRetry hdead hsent hrest

/-- A whole tick, wherever it ends. -/
theorem lettered_of_tick (hdead : dispatcher.deadStore = true) {result : TxResult Unit}
    (hworld : world.Lettered)
    (h : Exec (TxWorld.answer.restrict retained) (dispatcher.tick tenant nowMs).run
      world result after) :
    after.Lettered := by
  rcases exec_fallible_bind_iff.mp h with ⟨_, hlease, _⟩ | ⟨leased, middle, hlease, hrest⟩
  · exact (harmless_of_exec rfl hlease).lettered hworld
  have hmiddle := (harmless_of_exec rfl hlease).lettered hworld
  refine exec_forM (fun _ => TxWorld.Lettered) TxWorld.Lettered ?_ (fun _ => id)
    hmiddle hrest
  intro message rest env result last henv hexec
  have hlast := lettered_of_dispatch hdead henv hexec
  exact ⟨hlast, fun _ => hlast⟩

end Tick

section Between

variable {world : TxWorld}

theorem lettered_of_enqueue (hworld : world.Lettered) (message : NewOutboxMessage)
    (createdAt notBefore : Int64) (onEnqueue : TxResult Unit) :
    (world.enqueue message createdAt notBefore onEnqueue).Lettered := by
  rcases world.store.outbox.enqueue_cases message createdAt notBefore with
    ⟨error, h⟩ | ⟨_, h⟩
  · rw [TxWorld.enqueue, InMemoryTxStore.enqueue, h]
    exact hworld
  · rw [TxWorld.enqueue, InMemoryTxStore.enqueue, h]
    exact (harmless_insertRaw (by simp [buildOutboxMessage])).lettered hworld

/-- Dropping a letter takes it from its own message only. -/
theorem InMemoryDeadStore.HasLetter.erase {store : InMemoryDeadStore} {key : MessageKey}
    {letter : DeadLetter} (h : store.HasLetter key)
    (hletter : store.find letter.reference.key = some letter) (hother : ¬letter.IsFor key) :
    (store.erase letter.reference.key).HasLetter key := by
  obtain ⟨own, hown, hfor⟩ := h
  refine ⟨own, ?_, hfor⟩
  rw [InMemoryDeadStore.find_erase, if_neg, hown]
  intro hsame
  rw [← hsame, hown] at hletter
  cases hletter
  exact hother hfor

/-- A replay drops the letter of the message that it revives, and no other. -/
theorem lettered_of_replay (hworld : world.Lettered) (reference : DeadLetterRef)
    (nowMs : Int64) : (world.replay reference nowMs).Lettered := by
  rcases world.store.dead.replay_cases reference nowMs with
    ⟨error, h⟩ | ⟨letter, message, found, hletter, hkey, hpayload, hfound, h⟩ |
      ⟨letter, saga, hletter, hkey, hpayload, h⟩
  · rw [TxWorld.replay, h]
    exact hworld
  · rw [TxWorld.replay, h]
    intro key stored hfind hdead
    have hfoundKey := InMemoryOutboxStore.key_of_find hfound
    change (world.store.outbox.insertRaw (InMemoryOutboxStore.revived nowMs found)).find key =
      some stored at hfind
    rw [InMemoryOutboxStore.find_insertRaw] at hfind
    split at hfind
    case isTrue =>
      cases hfind
      cases hdead
    case isFalse hother =>
      refine (hworld key stored hfind hdead).imp id fun hhas => ?_
      refine InMemoryDeadStore.HasLetter.erase hhas (hkey.symm ▸ hletter) fun hfor => hother ?_
      rw [InMemoryOutboxStore.key_revived, hfoundKey]
      exact (congrArg Prod.snd hfor.subject).symm
  · rw [TxWorld.replay, h]
    intro key stored hfind hdead
    refine (hworld key stored hfind hdead).imp id fun hhas => ?_
    refine InMemoryDeadStore.HasLetter.erase hhas (hkey.symm ▸ hletter) fun hfor => ?_
    obtain ⟨message, hmessage, _⟩ := hfor.payload
    cases hpayload.symm.trans hmessage

/-- Dropping letters leaves a note of what they were about. -/
theorem lettered_of_dropping (hworld : world.Lettered) (keys : List LetterKey) :
    (world.dropping keys (keys.foldl InMemoryDeadStore.erase world.store.dead)).Lettered := by
  intro key message hfind hdead
  change (keys.foldl InMemoryDeadStore.erase world.store.dead).outbox.find key =
    some message at hfind
  rw [InMemoryDeadStore.outbox_foldl_erase] at hfind
  change _ ∈ (keys.filterMap world.store.dead.find).map DeadLetter.subject ++ world.dropped ∨
    (keys.foldl InMemoryDeadStore.erase world.store.dead).HasLetter key
  rcases hworld key message hfind hdead with hdropped | ⟨letter, hletter, hfor⟩
  · exact .inl (List.mem_append_right _ hdropped)
  · by_cases hmem : (DeadKind.outbox, key.2) ∈ keys
    · apply Or.inl
      apply List.mem_append_left
      rw [← hfor.subject]
      exact List.mem_map_of_mem (List.mem_filterMap.mpr ⟨_, hmem, hletter⟩)
    · refine .inr ⟨letter, ?_, hfor⟩
      rw [InMemoryDeadStore.find_foldl_erase, if_neg hmem, hletter]

end Between

/-- The runs in which the letter of every message that is given up is retained. -/
def retainedSystem (groupByDispatchKey : Bool) : TransitionSystem TxWorld TxAction :=
  deadLetterSystem groupByDispatchKey retained

/-- Every step of these runs leaves every dead message with a letter. -/
theorem lettered_of_step {groupByDispatchKey : Bool} {world after : TxWorld}
    {action : TxAction} (hworld : world.Lettered)
    (hstep : (retainedSystem groupByDispatchKey).step world action after) :
    after.Lettered := by
  cases action with
  | enqueue message createdAt notBefore onEnqueue =>
      subst hstep
      exact lettered_of_enqueue hworld message createdAt notBefore onEnqueue
  | tick dispatcher tenant nowMs =>
      obtain ⟨hdead, result, hexec⟩ := hstep
      exact lettered_of_tick hdead hworld hexec
  | replay reference nowMs =>
      subst hstep
      exact lettered_of_replay hworld reference nowMs
  | remove reference =>
      subst hstep
      exact lettered_of_dropping hworld [reference.key]
  | purge tenant beforeEpochMs =>
      subst hstep
      exact lettered_of_dropping hworld _

theorem lettered_of_reachable {groupByDispatchKey : Bool} {world : TxWorld}
    (h : (retainedSystem groupByDispatchKey).Reachable world) : world.Lettered := by
  refine TransitionSystem.invariant TxWorld.Lettered ?_ ?_ h
  · rintro _ rfl key message hfind
    simp [TxWorld.start, InMemoryTxStore.withConfig, InMemoryTxStore.outbox,
      InMemoryDeadStore.empty] at hfind
  · intro source action target _ hsource hstep
    exact lettered_of_step hsource hstep

/-- No letter is lost while the letters of messages that are given up are
retained. -/
theorem noLetterLost_of_retained (groupByDispatchKey : Bool) :
    NoLetterLost (retainedSystem groupByDispatchKey) := by
  intro world dispatcher tenant nowMs after hreach hstep
  exact lettered_of_step (lettered_of_reachable hreach) hstep

namespace RefusedHook

/-- A dispatcher that gives a message up at its first failure. -/
def dispatcher : Dispatcher where
  workerId := "A"
  maxAttempts := 1
  leaseMs := 10
  batch := 1
  groupByDispatchKey := false
  deadStore := true

/-- The message. -/
def request : NewOutboxMessage where
  id := ⟨"m"⟩
  tenant := ⟨"t"⟩
  envelopeId := ⟨"e"⟩
  topic := "topic"
  payload := .null
  notBefore := none
  dispatchKey := none

/-- The store with the message in it. -/
def enqueued : TxWorld := (TxWorld.start false).enqueue request 0 0 (.ok ())

/-- The send fails, and the budget guard refuses to hear of the dead letter. -/
def choices : List DispatchChoice :=
  [.order [("t", "m")], .outcome (.ok ()),
    .outcome (.error (.providerUnavailable "connection refused")),
    .hooked 5 (.error (.budgetExhausted "dead letters")) (.ok ())]

/-- What the tick leaves. -/
def afterTick : TxResult Unit × TxWorld :=
  (runWith (TxWorld.answer.restrict anyChoice) choices
    (dispatcher.tick ⟨"t"⟩ 0).run enqueued).getD (.ok (), enqueued)

end RefusedHook

/-- The message is dead and the dead store is empty. -/
theorem not_noLetterLost_refusedHook : ¬NoLetterLost (deadLetterSystem false anyChoice) := by
  intro h
  have henqueue : (deadLetterSystem false anyChoice).step (.start false)
      (.enqueue RefusedHook.request 0 0 (.ok ())) RefusedHook.enqueued := rfl
  have hreach : (deadLetterSystem false anyChoice).Reachable RefusedHook.enqueued :=
    .step (.init rfl) henqueue
  have hexec : Exec (TxWorld.answer.restrict anyChoice)
      (RefusedHook.dispatcher.tick ⟨"t"⟩ 0).run RefusedHook.enqueued
      RefusedHook.afterTick.1 RefusedHook.afterTick.2 := exec_of_runWith RefusedHook.choices rfl
  have hlettered := h _ RefusedHook.dispatcher ⟨"t"⟩ 0 _ hreach ⟨rfl, _, hexec⟩
  rcases hlettered ("t", "m") _ rfl rfl with hdropped | ⟨letter, hletter, _⟩
  · cases hdropped
  · cases hletter

end Soulbase.Tx
