/-
# Completion after a replay

A saga that has ended failed or cancelled may be kept as a dead letter and set
running again from it. A completed saga should have only steps that have
succeeded, also then.

A replay takes the saga up where undoing stopped. If the compensation of the
failed step itself has failed, then that step lies below the cursor and is not
executed again, and the saga completes with a failed step. The expectation holds
in the runs in which the steps below the cursor of every replayed saga have
succeeded.
-/

import Soulbase.Tx.Memory.DeadStore
import Soulbase.Tx.SagaRun

namespace Soulbase.Tx

open Soulbase.Foundation SagaOrchestrator

/-- The dead store with the saga store that it shares with the orchestrator, the
calls of the participant, and the failed and cancelled sagas that were saved. -/
structure ReplayWorld where
  dead : InMemoryDeadStore
  calls : List SagaCall
  snapshots : List SagaInstance

/-- What happens to a saga: a tick, the writing of a letter about it, and the replay
of a letter. -/
inductive ReplayAction
  | tick
  | push (letter : DeadLetter)
  | replay (reference : DeadLetterRef) (nowMs : Int64)

namespace ReplayWorld

/-- What the orchestrator sees. -/
def sagaWorld (world : ReplayWorld) : SagaWorld where
  sagas := world.dead.saga
  calls := world.calls

/-- The saga that is stored under an id. -/
def stored (world : ReplayWorld) (id : Id) : Option SagaInstance := world.sagaWorld.stored id

/-- The saga under an id, if it has ended without completing. -/
def snapshot (world : SagaWorld) (id : Id) : List SagaInstance :=
  (world.stored id).toList.filter fun saga => saga.state = .failed ∨ saga.state = .cancelled

/-- The world after a tick has left this to the orchestrator. -/
def ticked (world : ReplayWorld) (id : Id) (after : SagaWorld) : ReplayWorld where
  dead := { world.dead with saga := after.sagas }
  calls := after.calls
  snapshots := snapshot after id ++ world.snapshots

/-- The world after a letter has been pushed. -/
def push (world : ReplayWorld) (letter : DeadLetter) : ReplayWorld :=
  { world with dead := world.dead.push letter }

/-- The world after a replay. -/
def replay (world : ReplayWorld) (reference : DeadLetterRef) (nowMs : Int64) : ReplayWorld :=
  { world with dead := (world.dead.replay reference nowMs).2 }

end ReplayWorld

/-- A saga of a definition, with no letters at first. Letters carry failed or
cancelled sagas as they were saved. -/
def replaySystem (definition : SagaDefinition) (id : Id) :
    TransitionSystem ReplayWorld ReplayAction where
  init world := world.dead.entries = ∅ ∧ world.snapshots = [] ∧
    ∃ sagas tenant timeoutAt,
      Exec SagaWorld.answer (start tenant definition timeoutAt).run
        { sagas := sagas, calls := [] } (.ok id) world.sagaWorld
  step world action after :=
    match action with
    | .tick => ∃ result last,
        Exec SagaWorld.answer (tick id).run world.sagaWorld result last ∧
          after = world.ticked id last
    | .push letter => (∃ saga ∈ world.snapshots, letter.payload = .saga saga) ∧
        after = world.push letter
    | .replay reference nowMs => after = world.replay reference nowMs

/-- Every step of a completed saga has succeeded. -/
def CompletedMeansSucceeded (T : TransitionSystem ReplayWorld ReplayAction) (id : Id) : Prop :=
  ∀ world saga, T.Reachable world → world.stored id = some saga → saga.state = .completed →
    ∀ step ∈ saga.steps, step.state = .succeeded

/-- The steps below the cursor have succeeded. -/
def SagaInstance.SucceededBelow (saga : SagaInstance) : Prop :=
  ∀ (i : ℕ) (step : SagaStepState), i < saga.cursor → saga.steps[i]? = some step →
    step.state = .succeeded

/-- The replayed saga has only steps that have succeeded below its cursor. -/
def resumesBehindSucceeded (world : ReplayWorld) : ReplayAction → Prop
  | .tick | .push _ => True
  | .replay reference _ => ∀ letter saga, world.dead.find reference.key = some letter →
      letter.payload = .saga saga → saga.SucceededBelow

/-- While the saga is running, the steps below the cursor have succeeded, and when
it is completed, all have. -/
structure SagaInstance.Sound (saga : SagaInstance) : Prop where
  running : saga.state = .running → saga.SucceededBelow
  completed : saga.state = .completed → ∀ step ∈ saga.steps, step.state = .succeeded

section Ticks

variable {saga after : SagaInstance} {calls : List SagaCall}

/-- With the cursor behind the last step, all steps are below it. -/
theorem SagaInstance.SucceededBelow.all (h : saga.SucceededBelow)
    (hcursor : saga.steps.length ≤ saga.cursor) : ∀ step ∈ saga.steps, step.state = .succeeded := by
  intro step hmem
  obtain ⟨i, hstep⟩ := List.mem_iff_getElem?.mp hmem
  have hlt := (List.getElem?_eq_some_iff.mp hstep).1
  exact h i step (Nat.lt_of_lt_of_le hlt hcursor) hstep

/-- Going on to the next step when the present one has succeeded too. -/
theorem sound_advance (hstate : saga.state = .running)
    (h : saga.advance.SucceededBelow) : saga.advance.Sound := by
  refine ⟨fun _ => h, ?_⟩
  intro hcompleted
  apply h.all
  show saga.steps.length ≤ saga.cursor + 1
  by_contra hmore
  change (if saga.cursor + 1 ≥ saga.steps.length then _ else saga.state) = _ at hcompleted
  rw [if_neg hmore, hstate] at hcompleted
  cases hcompleted

theorem sound_of_executed (hstate : saga.state = .running) (h : saga.SucceededBelow)
    (hexecuted : Executed saga calls after) : after.Sound := by
  cases hexecuted with
  | completed hcursor => exact ⟨nofun, fun _ => h.all hcursor⟩
  | passed hstep hsucceeded =>
      apply sound_advance hstate
      intro i step hi hfound
      change i < saga.cursor + 1 at hi
      by_cases hcursor : i = saga.cursor
      · subst hcursor
        change saga.steps[saga.cursor]? = some step at hfound
        rw [hstep] at hfound
        cases hfound
        exact hsucceeded
      · exact h i step (by omega) hfound
  | succeeded hstep _ _ hsucceeded =>
      apply sound_advance
      · exact hstate
      · intro i step hi hfound
        change i < saga.cursor + 1 at hi
        rcases step_setStep hfound with ⟨_, rfl⟩ | ⟨hne, hold⟩
        · exact hsucceeded
        · exact h i step (by omega) hold
  | failed _ _ _ _ _ => exact ⟨nofun, nofun⟩

/-- Undoing ends a saga failed or cancelled. -/
theorem sound_of_rewinds (h : Rewinds saga calls after) : after.Sound := by
  induction h with
  | stop hround =>
      cases hround with
      | cancelled _ => exact ⟨nofun, nofun⟩
      | stuck _ _ _ _ _ _ _ => exact ⟨nofun, nofun⟩
  | again _ _ ih => exact ih

theorem sound_of_progressed (h : saga.Sound) (hprogressed : Progressed saga calls after) :
    after.Sound := by
  cases hprogressed with
  | running hstate hexecuted => exact sound_of_executed hstate (h.running hstate) hexecuted
  | compensating _ hrewinds => exact sound_of_rewinds hrewinds
  | resting _ _ => exact h

end Ticks

section Runs

variable {definition : SagaDefinition} {id : Id} {world : ReplayWorld}

/-- The saga is stored and sound. -/
def ReplayWorld.Sound (world : ReplayWorld) (id : Id) : Prop :=
  ∃ saga, world.stored id = some saga ∧ saga.Sound

theorem sound_of_tick (h : world.Sound id) {result : Except SagaStop Unit} {last : SagaWorld}
    (htick : Exec SagaWorld.answer (tick id).run world.sagaWorld result last) :
    (world.ticked id last).Sound id := by
  obtain ⟨saga, hstored, hsound⟩ := h
  rcases saved_of_tick hstored htick with
    ⟨calls, after, now, _, hprogressed, rfl⟩ | ⟨_, rfl, _⟩
  · have hafter := sound_of_progressed hsound hprogressed
    refine ⟨{ after with updatedAt := now }, ?_, hafter.running, hafter.completed⟩
    have hid : id.asStr = after.id.asStr := by
      rw [hprogressed.id_eq]
      exact world.dead.saga.keyed _ _ hstored
    exact (InMemorySagaStore.get_put _ _ _).trans (if_pos hid)
  · exact ⟨saga, hstored, hsound⟩

/-- A replayed saga is running again, with the steps below its cursor as they were
saved. -/
theorem sound_of_replay (h : world.Sound id) {reference : DeadLetterRef} {nowMs : Int64}
    (hsucceeded : ∀ letter saga, world.dead.find reference.key = some letter →
      letter.payload = .saga saga → saga.SucceededBelow) :
    (world.replay reference nowMs).Sound id := by
  obtain ⟨saga, hstored, hsound⟩ := h
  rcases world.dead.replay_cases reference nowMs with
    ⟨error, hreplay⟩ | ⟨letter, message, found, _, _, _, _, hreplay⟩ |
      ⟨letter, payload, hletter, _, hpayload, hreplay⟩
  · rw [ReplayWorld.replay, hreplay]
    exact ⟨saga, hstored, hsound⟩
  · rw [ReplayWorld.replay, hreplay]
    exact ⟨saga, hstored, hsound⟩
  · rw [ReplayWorld.replay, hreplay]
    have hget := world.dead.saga.get_put (InMemoryDeadStore.restarted nowMs payload) id.asStr
    by_cases hid : id.asStr = payload.id.asStr
    · refine ⟨_, hget.trans (if_pos hid), ?_, nofun⟩
      intro _
      exact hsucceeded letter payload hletter hpayload
    · exact ⟨saga, (hget.trans (if_neg hid)).trans hstored, hsound⟩

/-- A saga that is started is sound. -/
theorem sound_of_start {tenant : TenantId} {timeoutAt : Option Int64}
    {sagas : InMemorySagaStore}
    (h : Exec SagaWorld.answer (start tenant definition timeoutAt).run
      { sagas := sagas, calls := [] } (.ok id) world.sagaWorld) : world.Sound id := by
  obtain ⟨_, now, hstored⟩ := stored_of_start h
  refine ⟨_, hstored, ?_, nofun⟩
  intro _ i step hi
  exact absurd hi (Nat.not_lt_zero _)

/-- The runs in which sagas are taken up behind steps that have succeeded. -/
def resumedSystem (definition : SagaDefinition) (id : Id) :
    TransitionSystem ReplayWorld ReplayAction :=
  (replaySystem definition id).restrict resumesBehindSucceeded

theorem sound_of_reachable (h : (resumedSystem definition id).Reachable world) :
    world.Sound id := by
  refine TransitionSystem.invariant (fun world => world.Sound id) ?_ ?_ h
  · intro world hinit
    obtain ⟨_, _, sagas, tenant, timeoutAt, hstart⟩ := hinit
    exact sound_of_start hstart
  · intro source action target _ hsource hstep
    obtain ⟨hallowed, hstep⟩ := hstep
    cases action with
    | tick =>
        obtain ⟨result, last, htick, rfl⟩ := hstep
        exact sound_of_tick hsource htick
    | push letter =>
        obtain ⟨_, rfl⟩ := hstep
        exact hsource
    | replay reference nowMs =>
        subst hstep
        exact sound_of_replay hsource hallowed

/-- A saga completes with all its steps succeeded, if it is only taken up behind
steps that have succeeded. -/
theorem completedMeansSucceeded_of_resumed (definition : SagaDefinition) (id : Id) :
    CompletedMeansSucceeded (resumedSystem definition id) id := by
  intro world saga hreach hstored hcompleted
  obtain ⟨found, hfound, hsound⟩ := sound_of_reachable hreach
  rw [hstored] at hfound
  cases hfound
  exact hsound.completed hcompleted

end Runs

namespace FailedTwice

/-- A single step, with a compensation. -/
def definition : SagaDefinition where
  name := "fail"
  steps := [{ name := "A", actionUri := "doA", compensateUri := some "undoA" }]

/-- The saga has been started. -/
def started : SagaWorld := .startWith definition [.newId ⟨"sg"⟩, .clock 0, .quiet]

/-- The step fails. -/
def first : List SagaChoice :=
  [.quiet, .clock 1, .result (.ok false), .clock 2, .quiet]

/-- Its compensation fails too. -/
def second : List SagaChoice := [.quiet, .result (.ok false), .clock 3, .quiet]

/-- After the replay there is nothing left to execute. -/
def third : List SagaChoice := [.quiet, .clock 5, .quiet]

/-- The start, with empty stores. -/
def initial : ReplayWorld where
  dead := { InMemoryDeadStore.empty with saga := started.sagas }
  calls := started.calls
  snapshots := []

/-- After the first tick. -/
def executed : ReplayWorld :=
  initial.ticked ⟨"sg"⟩ (initial.sagaWorld.tickWith ⟨"sg"⟩ first).2

/-- After the second tick, where the saga is failed. -/
def failed : ReplayWorld :=
  executed.ticked ⟨"sg"⟩ (executed.sagaWorld.tickWith ⟨"sg"⟩ second).2

/-- The saga as it is stored in a world. -/
def sagaOf (world : ReplayWorld) : SagaInstance :=
  (world.stored ⟨"sg"⟩).getD (newInstance ⟨"t"⟩ definition none ⟨"sg"⟩ 0)

/-- The letter about the failed saga. -/
def letter : DeadLetter where
  reference := { kind := .saga, id := ⟨"sg"⟩ }
  tenant := ⟨"t"⟩
  error := none
  occurredAt := 4
  payload := .saga (sagaOf failed)

/-- After the letter has been replayed. -/
def replayed : ReplayWorld := (failed.push letter).replay letter.reference 4

/-- After the last tick. -/
def world : ReplayWorld :=
  replayed.ticked ⟨"sg"⟩ (replayed.sagaWorld.tickWith ⟨"sg"⟩ third).2

theorem reachable_world : (replaySystem definition ⟨"sg"⟩).Reachable world := by
  have hstart : (replaySystem definition ⟨"sg"⟩).init initial :=
    ⟨rfl, rfl, .empty, ⟨"t"⟩, none, exec_of_runWith [.newId ⟨"sg"⟩, .clock 0, .quiet] rfl⟩
  have hfirst : (replaySystem definition ⟨"sg"⟩).step initial .tick executed :=
    ⟨_, _, exec_of_runWith first rfl, rfl⟩
  have hsecond : (replaySystem definition ⟨"sg"⟩).step executed .tick failed :=
    ⟨_, _, exec_of_runWith second rfl, rfl⟩
  have hpush : (replaySystem definition ⟨"sg"⟩).step failed (.push letter)
      (failed.push letter) :=
    ⟨⟨sagaOf failed, List.mem_cons_self, rfl⟩, rfl⟩
  have hreplay : (replaySystem definition ⟨"sg"⟩).step (failed.push letter)
      (.replay letter.reference 4) replayed := rfl
  have hthird : (replaySystem definition ⟨"sg"⟩).step replayed .tick world :=
    ⟨_, _, exec_of_runWith third rfl, rfl⟩
  exact .step (.step (.step (.step (.step (.init hstart) hfirst) hsecond) hpush) hreplay) hthird

end FailedTwice

/-- The saga is completed, and its step has failed. -/
theorem not_completedMeansSucceeded_failedTwice :
    ¬CompletedMeansSucceeded (replaySystem FailedTwice.definition ⟨"sg"⟩) ⟨"sg"⟩ := by
  intro h
  have hsucceeded := h _ (FailedTwice.sagaOf FailedTwice.world) FailedTwice.reachable_world
    rfl rfl _ List.mem_cons_self
  exact absurd hsucceeded (by decide)

end Soulbase.Tx
