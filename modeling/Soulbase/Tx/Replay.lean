/-
# Replays and dispatchers over one outbox

A replay of a dead letter takes three steps, each under a lock of its own: it reads
the letter, revives the message and removes the letter. Here it is a program over
these steps, and any number of replays run next to any number of dispatchers, whose
letters go to the same dead store. `replay_of_exec` says that a replay that runs
alone is `InMemoryDeadStore::replay` as one step.

The record of a run tells letters apart by their number under their key. What each
kind of program does, whatever the others do, is its discipline: a dispatcher pushes
only the letter of the message it has just given up, and a replay revives and
removes only what it has read.
-/

import Soulbase.Foundation.Transition
import Soulbase.Tx.Dispatcher
import Soulbase.Tx.Memory.DeadStore

namespace Soulbase.Tx

open Soulbase.Foundation

/-- A step of a replay: under the lock of the letters, of the outbox or of the sagas,
or a reading of the clock. -/
inductive ReplayOp
  | read (reference : DeadLetterRef)
  | nowMs
  | revive (tenant : TenantId) (id : Id) (time : Int64)
  | save (saga : SagaInstance)
  | remove (reference : DeadLetterRef)

/-- What a step returns. -/
@[reducible]
def ReplayOp.Answer : ReplayOp → Type
  | read _ => Option DeadLetter
  | nowMs => Int64
  | revive .. | save _ | remove _ => TxResult Unit

/-- A step after the one that reads the letter. -/
def ReplayOp.followsRead : ReplayOp → Bool
  | read _ => false
  | nowMs | revive .. | save _ | remove _ => true

/-- A computation of these steps that stops at the first error. -/
abbrev Replay := ExceptT TxError (Program ReplayOp ReplayOp.Answer)

namespace Replay

/-- Take one step. -/
def step (op : ReplayOp) : Program ReplayOp ReplayOp.Answer op.Answer := perform op

/-- A step whose answer is not an error. -/
def ask (op : ReplayOp) : ExceptT TxError (Program ReplayOp ReplayOp.Answer) op.Answer :=
  ExceptT.lift (step op)

/-- A step that may fail. -/
def attempt (program : Program ReplayOp ReplayOp.Answer (TxResult Unit)) : Replay Unit :=
  ExceptT.mk program

/-- The letter to be replayed. -/
def readLetter (reference : DeadLetterRef) : Replay DeadLetter := do
  match ← ask (.read reference) with
  | none => throw (.unknown "dead letter not found")
  | some letter => return letter

/-- Put back what the letter is about. -/
def restore (letter : DeadLetter) : Replay Unit := do
  let now ← ask .nowMs
  match letter.payload with
  | .outbox _ => attempt (step (.revive letter.tenant letter.reference.id now))
  | .saga saga => attempt (step (.save (InMemoryDeadStore.restarted now saga)))

/-- `InMemoryDeadStore::replay`. -/
def replay (reference : DeadLetterRef) : Replay Unit := do
  let letter ← readLetter reference
  restore letter
  attempt (step (.remove letter.reference))

end Replay

/-- A letter, as the number of its push under its key. -/
abbrev LetterSerial := LetterKey × Nat

/-- What is recorded of a run. -/
inductive RevivalEvent
  /-- A letter was pushed under the key. -/
  | pushed (key : LetterKey)
  /-- A dispatcher acknowledged the message. -/
  | acked (message : MessageKey)
  /-- A replay that had read the letter revived the message. -/
  | revived (letter : LetterSerial) (message : MessageKey)
  /-- A replay that had read the one letter removed the other. -/
  | removed (read stored : LetterSerial)
  deriving DecidableEq

namespace RevivalEvent

/-- How many letters have been pushed under a key. -/
def pushes (log : List RevivalEvent) (key : LetterKey) : Nat := log.count (.pushed key)

/-- How many times a letter has had a message revived. -/
def revives (log : List RevivalEvent) (letter : LetterSerial) : Nat :=
  log.countP fun
    | .revived other _ => other = letter
    | .pushed _ | .acked _ | .removed .. => false

/-- The message has been acknowledged since the letter was pushed. -/
def AckedSince (log : List RevivalEvent) (letter : LetterSerial) (message : MessageKey) :
    Prop :=
  ∃ recent older, log = recent ++ .pushed letter.1 :: older ∧
    pushes older letter.1 + 1 = letter.2 ∧ .acked message ∈ recent

end RevivalEvent

open RevivalEvent

/-- The dead store with the outbox that it shares with the dispatchers, the letter
that each replay read last, and the record of the run, newest event first. -/
structure RevivalWorld (κ : Type) where
  dead : InMemoryDeadStore
  reading : κ → LetterSerial
  log : List RevivalEvent

namespace RevivalWorld

variable {κ : Type} [DecidableEq κ]

/-- The number of the letter that lies under a key, or lay there last. -/
def current (world : RevivalWorld κ) (key : LetterKey) : LetterSerial :=
  (key, pushes world.log key)

/-- The outbox as a dispatcher sees it. The times given to `lease_batch` are
arbitrary here, so the world keeps none of them. -/
def outboxWorld (world : RevivalWorld κ) : OutboxWorld where
  store := world.dead.outbox
  clock := Int64.minValue
  log := []

/-- The world with another outbox. -/
def withOutbox (world : RevivalWorld κ) (outbox : InMemoryOutboxStore) : RevivalWorld κ :=
  { world with dead := { world.dead with outbox := outbox } }

/-- The world once an event has been recorded. -/
def recording (world : RevivalWorld κ) (event : RevivalEvent) : RevivalWorld κ :=
  { world with log := event :: world.log }

/-- The world once a letter has been pushed. -/
def push (world : RevivalWorld κ) (letter : DeadLetter) : RevivalWorld κ :=
  { world with
    dead := world.dead.push letter
    log := .pushed letter.reference.key :: world.log }

/-- The calls of a tick over this world: those to the outbox change the shared
outbox, and a push reaches the dead store and does not fail. -/
def dispatch (worker : String) (world : RevivalWorld κ) (choice : DispatchChoice)
    (op : DispatchOp) : Option (op.Answer × RevivalWorld κ) :=
  match op with
  | .push letter => some (.ok (), world.push letter)
  | .ackDone tenant id =>
      (OutboxWorld.answer worker world.outboxWorld choice (.ackDone tenant id)).map
        fun (reply, outbox) =>
          (reply, (world.recording (.acked (messageKey tenant id))).withOutbox outbox.store)
  | op =>
      (OutboxWorld.answer worker world.outboxWorld choice op).map
        fun (reply, outbox) => (reply, world.withOutbox outbox.store)

/-- The steps of one replay over this world. `time` is what the clock reads. -/
def answer (j : κ) : Handler ReplayOp ReplayOp.Answer Int64 (RevivalWorld κ)
  | world, _, .read reference =>
      some (world.dead.find reference.key,
        { world with
          reading := Function.update world.reading j (world.current reference.key) })
  | world, time, .nowMs => some (time, world)
  | world, _, .revive tenant id time =>
      match world.dead.outbox.revive tenant id time with
      | (.ok (), outbox) =>
          some (.ok (), (world.recording
            (.revived (world.reading j) (messageKey tenant id))).withOutbox outbox)
      | (.error error, outbox) => some (.error error, world.withOutbox outbox)
  | world, _, .save saga =>
      let saved := world.dead.saga.save saga
      some (saved.1, { world with dead := { world.dead with saga := saved.2 } })
  | world, _, .remove reference =>
      let removed := { world with dead := world.dead.remove reference }
      some (.ok (),
        if (world.dead.find reference.key).isSome then
          removed.recording (.removed (world.reading j) (world.current reference.key))
        else removed)

end RevivalWorld

section Alone

variable {κ : Type} [DecidableEq κ] {j : κ} {world after : RevivalWorld κ}

open RevivalWorld

theorem exec_readLetter {reference : DeadLetterRef} {result : TxResult DeadLetter}
    (h : Exec (answer j) (Replay.readLetter reference).run world result after) :
    after.dead = world.dead ∧
      (world.dead.find reference.key = none ∧
          result = .error (.unknown "dead letter not found") ∨
        ∃ letter, world.dead.find reference.key = some letter ∧ result = .ok letter) := by
  obtain ⟨found, middle, hread, hrest⟩ := exec_lift_bind_iff.mp h
  obtain ⟨time, hanswer⟩ := exec_perform_iff.mp hread
  cases hanswer
  cases hfind : world.dead.find reference.key with
  | none =>
      rw [hfind] at hrest
      obtain ⟨rfl, rfl⟩ := exec_done_iff.mp hrest
      exact ⟨rfl, .inl ⟨rfl, rfl⟩⟩
  | some letter =>
      rw [hfind] at hrest
      obtain ⟨rfl, rfl⟩ := exec_done_iff.mp hrest
      exact ⟨rfl, .inr ⟨letter, rfl, rfl⟩⟩

/-- Putting back what a letter is about, with the clock as it is then. -/
theorem exec_restore {letter : DeadLetter} {result : TxResult Unit}
    (h : Exec (answer j) (Replay.restore letter).run world result after) :
    ∃ now,
      (∃ message, letter.payload = .outbox message ∧ ∃ outbox,
        world.dead.outbox.revive letter.tenant letter.reference.id now = (result, outbox) ∧
          after.dead = { world.dead with outbox := outbox }) ∨
      ∃ saga, letter.payload = .saga saga ∧ ∃ sagas,
        world.dead.saga.save (InMemoryDeadStore.restarted now saga) = (result, sagas) ∧
          after.dead = { world.dead with saga := sagas } := by
  obtain ⟨now, middle, hclock, hrest⟩ := exec_lift_bind_iff.mp h
  obtain ⟨time, hanswer⟩ := exec_perform_iff.mp hclock
  cases hanswer
  refine ⟨now, ?_⟩
  cases hpayload : letter.payload with
  | outbox message =>
      rw [hpayload] at hrest
      obtain ⟨_, hanswer⟩ := exec_perform_iff.mp hrest
      rw [answer] at hanswer
      apply Or.inl
      rcases hrevive : world.dead.outbox.revive letter.tenant letter.reference.id now with
        ⟨_ | ⟨⟩, outbox⟩
      · rw [hrevive] at hanswer
        cases hanswer
        exact ⟨message, rfl, outbox, rfl, rfl⟩
      · rw [hrevive] at hanswer
        cases hanswer
        exact ⟨message, rfl, outbox, rfl, rfl⟩
  | saga saga =>
      rw [hpayload] at hrest
      obtain ⟨_, hanswer⟩ := exec_perform_iff.mp hrest
      cases hanswer
      exact .inr ⟨saga, rfl, _, rfl, rfl⟩

/-- Run alone, the program does what the replay does as one step. -/
theorem replay_of_exec {reference : DeadLetterRef} {result : TxResult Unit}
    (h : Exec (answer j) (Replay.replay reference).run world result after) :
    ∃ now, world.dead.replay reference now = (result, after.dead) := by
  rcases exec_fallible_bind_iff.mp h with ⟨error, hread, rfl⟩ | ⟨letter, middle, hread, hrest⟩
  · obtain ⟨hdead, ⟨hfind, herror⟩ | ⟨_, _, hok⟩⟩ := exec_readLetter hread
    · cases herror
      exact ⟨0, by rw [InMemoryDeadStore.replay, hfind, hdead]⟩
    · cases hok
  obtain ⟨hdead, ⟨_, herror⟩ | ⟨_, hfind, hok⟩⟩ := exec_readLetter hread
  · cases herror
  cases hok
  rcases exec_fallible_bind_iff.mp hrest with
    ⟨error, hrestore, rfl⟩ | ⟨_, last, hrestore, hremove⟩
  · obtain ⟨now, ⟨_, hpayload, outbox, hrevive, hafter⟩ | ⟨_, hpayload, sagas, hsave, hafter⟩⟩ :=
      exec_restore hrestore
    · rw [hdead] at hrevive hafter
      exact ⟨now, by simp only [InMemoryDeadStore.replay, hfind, hpayload, hrevive, hafter]⟩
    · rw [hdead] at hsave hafter
      exact ⟨now, by simp only [InMemoryDeadStore.replay, hfind, hpayload, hsave, hafter]⟩
  · obtain ⟨_, hanswer⟩ := exec_perform_iff.mp hremove
    have hafter : after.dead = last.dead.remove letter.reference ∧ result = .ok () := by
      rw [answer] at hanswer
      cases hanswer
      exact ⟨by split <;> rfl, rfl⟩
    obtain ⟨hafter, rfl⟩ := hafter
    obtain ⟨now, ⟨_, hpayload, outbox, hrevive, hlast⟩ | ⟨_, hpayload, sagas, hsave, hlast⟩⟩ :=
      exec_restore hrestore
    · rw [hdead] at hrevive hlast
      exact ⟨now, by
        simp only [InMemoryDeadStore.replay, hfind, hpayload, hrevive, hafter, hlast]⟩
    · rw [hdead] at hsave hlast
      exact ⟨now, by
        simp only [InMemoryDeadStore.replay, hfind, hpayload, hsave, hafter, hlast]⟩

end Alone

/-! ## The disciplines -/

/-- How far a replay has come. -/
inductive ReplayStanding
  /-- It has read no letter, or is done with it. -/
  | idle
  /-- It has read the letter. -/
  | holding (letter : DeadLetter)
  /-- It has put back what the letter is about. -/
  | revived (letter : DeadLetter)

/-- The letter that a replay is at. -/
def ReplayStanding.letter? : ReplayStanding → Option DeadLetter
  | idle => none
  | holding letter | revived letter => some letter

/-- A replay reads a letter, revives its message or saves its saga, and removes it,
in this order. -/
def replaying : Discipline ReplayOp ReplayOp.Answer ReplayStanding where
  permits
    | .idle, .read _ => True
    | .holding _, .nowMs => True
    | .holding letter, .revive tenant id _ =>
        tenant = letter.tenant ∧ id = letter.reference.id
    | .holding letter, .save _ => ∃ saga, letter.payload = .saga saga
    | .revived letter, .remove reference => reference = letter.reference
    | _, _ => False
  ensures _ _ := True
  after
    | _, .read _, some letter => .holding letter
    | standing, .nowMs, _ => standing
    | .holding letter, .revive .., .ok () => .revived letter
    | .holding letter, .save _, .ok () => .revived letter
    | _, _, _ => .idle

/-- A replay that has ended is not at any letter. -/
def EndsIdle (_ : TxResult Unit) (standing : ReplayStanding) : Prop := standing = .idle

/-- Putting back ends with the letter still to be removed, or with an error. -/
def EndsRevived (letter : DeadLetter) : TxResult Unit → ReplayStanding → Prop
  | .ok (), standing => standing = .revived letter
  | .error _, standing => standing = .idle

theorem Replay.follows_restore (letter : DeadLetter) :
    (Replay.restore letter).run.Follows replaying (EndsRevived letter) (.holding letter) := by
  refine ⟨trivial, ?_⟩
  intro now _
  cases hpayload : letter.payload with
  | outbox message =>
      simp only
      refine ⟨⟨rfl, rfl⟩, ?_⟩
      rintro (error | ⟨⟩) _
      · rfl
      · rfl
  | saga saga =>
      simp only
      refine ⟨⟨saga, hpayload⟩, ?_⟩
      rintro (error | ⟨⟩) _
      · rfl
      · rfl

theorem Replay.follows_replay (reference : DeadLetterRef) :
    (Replay.replay reference).run.Follows replaying EndsIdle .idle := by
  refine ⟨trivial, ?_⟩
  rintro (_ | letter) _
  · rfl
  apply follows_fallible_bind (Replay.follows_restore letter)
  · intro error standing hended
    exact hended
  · intro _ standing hrevived
    cases hrevived
    refine ⟨rfl, ?_⟩
    intro _ _
    rfl

/-- A dispatcher pushes only the letter of the message it has given up in the call
before. -/
def pushing : Discipline DispatchOp DispatchOp.Answer (Option DeadLetter) where
  permits pending
    | .push letter => pending = some letter
    | _ => True
  ensures _ _ := True
  after _
    | .deadLetter .., .ok letter => some letter
    | _, _ => none

/-- Nothing is promised of how a tick ends. -/
def EndsAnyhow (_ : TxResult Unit) (_ : Option DeadLetter) : Prop := True

namespace Dispatcher

variable {pending : Option DeadLetter}

theorem follows_pushing_onDispatchResult {tenant : TenantId} {message : OutboxMessage}
    {success : Bool} :
    (attempt (call (.onDispatchResult tenant message success))).run.Follows pushing EndsAnyhow
      pending :=
  ⟨trivial, fun _ _ => trivial⟩

theorem follows_pushing_giveUpOrRetry {dispatcher : Dispatcher} {tenant : TenantId}
    {nowMs : Int64} {message : OutboxMessage} {error : TxError} :
    (dispatcher.giveUpOrRetry tenant nowMs message error).run.Follows pushing EndsAnyhow
      pending := by
  unfold giveUpOrRetry
  dsimp only
  split
  case isTrue =>
    refine ⟨trivial, ?_⟩
    rintro (_ | letter) _
    · trivial
    cases dispatcher.deadStore with
    | false => exact follows_pushing_onDispatchResult
    | true =>
        refine ⟨rfl, ?_⟩
        rintro (_ | _) _
        · trivial
        · exact follows_pushing_onDispatchResult
  case isFalse =>
    refine ⟨trivial, ?_⟩
    intro next _
    refine ⟨trivial, ?_⟩
    rintro (_ | _) _
    · trivial
    · exact follows_pushing_onDispatchResult

theorem follows_pushing_dispatch {dispatcher : Dispatcher} {tenant : TenantId}
    {nowMs : Int64} {message : OutboxMessage} :
    (dispatcher.dispatch tenant nowMs message).run.Follows pushing EndsAnyhow pending := by
  refine ⟨trivial, ?_⟩
  rintro (_ | _) _
  · trivial
  refine ⟨trivial, ?_⟩
  rintro (error | _) _
  · exact follows_pushing_giveUpOrRetry
  refine ⟨trivial, ?_⟩
  rintro (_ | _) _
  · trivial
  · exact follows_pushing_onDispatchResult

theorem follows_pushing_forM_dispatch {dispatcher : Dispatcher} {tenant : TenantId}
    {nowMs : Int64} {messages : List OutboxMessage} :
    (messages.forM (dispatcher.dispatch tenant nowMs)).run.Follows pushing EndsAnyhow
      pending := by
  induction messages generalizing pending with
  | nil => trivial
  | cons message rest ih =>
      exact follows_fallible_bind follows_pushing_dispatch (fun _ _ _ => trivial)
        fun _ _ _ => ih

theorem follows_pushing_tick (dispatcher : Dispatcher) (tenant : TenantId) (nowMs : Int64) :
    (dispatcher.tick tenant nowMs).run.Follows pushing EndsAnyhow pending := by
  refine ⟨trivial, ?_⟩
  rintro (_ | leased) _
  · trivial
  · exact follows_pushing_forM_dispatch

end Dispatcher

/-- The shared stores, what each dispatcher has left of its tick, and what each
replay has left to do. -/
structure RevivalState (ι κ : Type) where
  world : RevivalWorld κ
  dispatchers : ι → Program DispatchOp DispatchOp.Answer (TxResult Unit)
  replays : κ → Program ReplayOp ReplayOp.Answer (TxResult Unit)

/-- What may happen next. -/
inductive RevivalAction (ι κ : Type)
  | enqueue (message : NewOutboxMessage) (createdAt notBefore : Int64)
  /-- An idle dispatcher begins a tick. -/
  | tick (i : ι) (tenant : TenantId) (nowMs : Int64)
  /-- A dispatcher makes the next call of its tick. -/
  | dispatch (i : ι) (choice : DispatchChoice)
  /-- A replay begins. -/
  | replay (j : κ) (reference : DeadLetterRef)
  /-- A replay takes its next step. -/
  | proceed (j : κ) (time : Int64)

namespace RevivalState

variable {ι κ : Type} [DecidableEq ι] [DecidableEq κ]

/-- Empty stores, and nobody is doing anything or has read a letter. -/
def start : RevivalState ι κ where
  world := { dead := .empty, reading := fun _ => ((.outbox, ""), 0), log := [] }
  dispatchers _ := .done (.ok ())
  replays _ := .done (.ok ())

/-- The dispatchers as a pool. -/
def dispatching (state : RevivalState ι κ) :
    Pool ι DispatchOp DispatchOp.Answer (TxResult Unit) (RevivalWorld κ) where
  shared := state.world
  threads := state.dispatchers

/-- The replays as a pool. -/
def replaying (state : RevivalState ι κ) :
    Pool κ ReplayOp ReplayOp.Answer (TxResult Unit) (RevivalWorld κ) where
  shared := state.world
  threads := state.replays

/-- The step function. -/
def next (dispatcher : ι → Dispatcher) (state : RevivalState ι κ) :
    RevivalAction ι κ → Option (RevivalState ι κ)
  | .enqueue message createdAt notBefore =>
      some { state with
        world := state.world.withOutbox
          (state.world.dead.outbox.enqueue message createdAt notBefore).2 }
  | .tick i tenant nowMs =>
      (state.dispatching.spawn i ((dispatcher i).tick tenant nowMs).run).map fun pool =>
        { state with dispatchers := pool.threads }
  | .dispatch i choice =>
      (state.dispatching.call (RevivalWorld.dispatch (dispatcher i).workerId) i choice).map
        fun pool => { state with world := pool.shared, dispatchers := pool.threads }
  | .replay j reference =>
      (state.replaying.spawn j (Replay.replay reference).run).map fun pool =>
        { state with replays := pool.threads }
  | .proceed j time =>
      (state.replaying.call (RevivalWorld.answer j) j time).map fun pool =>
        { state with world := pool.shared, replays := pool.threads }

/-- Any dispatchers and replays, from empty stores. -/
def system (dispatcher : ι → Dispatcher) :
    TransitionSystem (RevivalState ι κ) (RevivalAction ι κ) :=
  .ofNext start (next dispatcher)

end RevivalState

end Soulbase.Tx
