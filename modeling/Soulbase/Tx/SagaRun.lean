/-
# Ticks over the in-memory saga store

The orchestrator over an in-memory store, participants that answer anything and
clocks that show anything. The world records the calls that participants get.

Everything that a tick can do is said once here: `Executed` for a tick of a
running saga, `Rewound` for one round of the loop of a compensating one, and a
rule for the whole loop. The properties of saga runs use only these.
-/

import Soulbase.Foundation.Transition
import Soulbase.Tx.Saga

namespace Soulbase.Tx

open Soulbase.Foundation Orchestration SagaOrchestrator

/-- A call of the participant for the step at an index, with its result. -/
inductive SagaCall
  | execute (index : ℕ) (uri : String) (result : TxResult Bool)
  | compensate (index : ℕ) (uri : String) (result : TxResult Bool)

/-- The saga store, and the calls of the participant so far, the first one
first. -/
structure SagaWorld where
  sagas : InMemorySagaStore
  calls : List SagaCall

/-- What the environment decides about a call: nothing, a new id, a reading of
the clock, or the answer of the participant. -/
inductive SagaChoice
  | quiet
  | newId (id : Id)
  | clock (time : Int64)
  | result (result : TxResult Bool)

namespace SagaWorld

/-- More calls of the participant. -/
def append (world : SagaWorld) (calls : List SagaCall) : SagaWorld :=
  { world with calls := world.calls ++ calls }

/-- The saga that is stored under an id. -/
def stored (world : SagaWorld) (id : Id) : Option SagaInstance :=
  world.sagas.items.get id.asStr

/-- What the environment does on a call. -/
def answer : Handler SagaOp SagaOp.Answer SagaChoice SagaWorld
  | world, .newId id, .newSagaId => some (id, world)
  | world, .clock time, .nowMs => some (time, world)
  | world, .quiet, .insert saga =>
      some ((world.sagas.insert saga).1, { world with sagas := (world.sagas.insert saga).2 })
  | world, .quiet, .load id => some (world.sagas.load id, world)
  | world, .quiet, .save saga =>
      some ((world.sagas.save saga).1, { world with sagas := (world.sagas.save saga).2 })
  | world, .result result, .execute index uri _ =>
      some (result, world.append [.execute index uri result])
  | world, .result result, .compensate index uri _ =>
      some (result, world.append [.compensate index uri result])
  | _, _, _ => none

/-- No call is left without an answer. -/
theorem answers (world : SagaWorld) (op : SagaOp) :
    ∃ choice reply next, answer world choice op = some (reply, next) := by
  cases op with
  | newSagaId => exact ⟨.newId ⟨""⟩, _, _, rfl⟩
  | nowMs => exact ⟨.clock 0, _, _, rfl⟩
  | insert saga => exact ⟨.quiet, _, _, rfl⟩
  | load id => exact ⟨.quiet, _, _, rfl⟩
  | save saga => exact ⟨.quiet, _, _, rfl⟩
  | execute index uri saga => exact ⟨.result (.ok true), _, _, rfl⟩
  | compensate index uri saga => exact ⟨.result (.ok true), _, _, rfl⟩

@[simp]
theorem append_nil (world : SagaWorld) : world.append [] = world := by
  rw [append, List.append_nil]

theorem append_append (world : SagaWorld) (first second : List SagaCall) :
    (world.append first).append second = world.append (first ++ second) := by
  simp only [append, List.append_assoc]

end SagaWorld

section Calls

variable {world last : SagaWorld} {α : Type} {result : Except SagaStop α}

theorem exec_ask_bind_iff {op : SagaOp} {next : op.Answer → Orchestration α} :
    Exec SagaWorld.answer (ask op >>= next).run world result last ↔
      ∃ choice value middle, SagaWorld.answer world choice op = some (value, middle) ∧
        Exec SagaWorld.answer (next value).run middle result last :=
  exec_call_iff

theorem exec_newSagaId {next : Id → Orchestration α}
    (h : Exec SagaWorld.answer (ask .newSagaId >>= next).run world result last) :
    ∃ id, Exec SagaWorld.answer (next id).run world result last := by
  obtain ⟨choice, value, middle, hanswer, hnext⟩ := exec_ask_bind_iff.mp h
  cases choice <;> cases hanswer
  exact ⟨_, hnext⟩

theorem exec_nowMs {next : Int64 → Orchestration α}
    (h : Exec SagaWorld.answer (ask .nowMs >>= next).run world result last) :
    ∃ now, Exec SagaWorld.answer (next now).run world result last := by
  obtain ⟨choice, value, middle, hanswer, hnext⟩ := exec_ask_bind_iff.mp h
  cases choice <;> cases hanswer
  exact ⟨_, hnext⟩

theorem exec_insert {saga : SagaInstance} {next : TxResult Unit → Orchestration α}
    (h : Exec SagaWorld.answer (ask (.insert saga) >>= next).run world result last) :
    Exec SagaWorld.answer (next (world.sagas.insert saga).1).run
      { world with sagas := (world.sagas.insert saga).2 } result last := by
  obtain ⟨choice, value, middle, hanswer, hnext⟩ := exec_ask_bind_iff.mp h
  cases choice <;> cases hanswer
  exact hnext

theorem exec_load {id : Id} {next : TxResult (Option SagaInstance) → Orchestration α}
    (h : Exec SagaWorld.answer (ask (.load id) >>= next).run world result last) :
    Exec SagaWorld.answer (next (.ok (world.stored id))).run world result last := by
  obtain ⟨choice, value, middle, hanswer, hnext⟩ := exec_ask_bind_iff.mp h
  cases choice <;> cases hanswer
  exact hnext

theorem exec_save {saga : SagaInstance} {next : TxResult Unit → Orchestration α}
    (h : Exec SagaWorld.answer (ask (.save saga) >>= next).run world result last) :
    Exec SagaWorld.answer (next (world.sagas.save saga).1).run
      { world with sagas := (world.sagas.save saga).2 } result last := by
  obtain ⟨choice, value, middle, hanswer, hnext⟩ := exec_ask_bind_iff.mp h
  cases choice <;> cases hanswer
  exact hnext

theorem exec_execute {index : ℕ} {uri : String} {saga : SagaInstance}
    {next : TxResult Bool → Orchestration α}
    (h : Exec SagaWorld.answer (ask (.execute index uri saga) >>= next).run world result last) :
    ∃ outcome, Exec SagaWorld.answer (next outcome).run
      (world.append [.execute index uri outcome]) result last := by
  obtain ⟨choice, value, middle, hanswer, hnext⟩ := exec_ask_bind_iff.mp h
  cases choice <;> cases hanswer
  exact ⟨_, hnext⟩

theorem exec_compensate {index : ℕ} {uri : String} {saga : SagaInstance}
    {next : TxResult Bool → Orchestration α}
    (h : Exec SagaWorld.answer (ask (.compensate index uri saga) >>= next).run
      world result last) :
    ∃ outcome, Exec SagaWorld.answer (next outcome).run
      (world.append [.compensate index uri outcome]) result last := by
  obtain ⟨choice, value, middle, hanswer, hnext⟩ := exec_ask_bind_iff.mp h
  cases choice <;> cases hanswer
  exact ⟨_, hnext⟩

theorem exec_stepAt {idx : ℕ} {saga : SagaInstance} {step : SagaStepState}
    {next : SagaStepState → Orchestration α} (hstep : saga.steps[idx]? = some step)
    (h : Exec SagaWorld.answer (stepAt saga idx >>= next).run world result last) :
    Exec SagaWorld.answer (next step).run world result last := by
  unfold stepAt at h
  rw [hstep] at h
  exact h

end Calls

/-- All that a tick of a running saga can do, with the calls it makes: complete a
saga without a next step, pass over a step that has succeeded, or execute the next
step, which succeeds or fails. -/
inductive Executed (saga : SagaInstance) : List SagaCall → SagaInstance → Prop
  | completed : saga.steps.length ≤ saga.cursor →
      Executed saga [] { saga with state := .completed }
  | passed {step : SagaStepState} : saga.steps[saga.cursor]? = some step →
      step.state = .succeeded → Executed saga [] saga.advance
  | succeeded {step after : SagaStepState} : saga.steps[saga.cursor]? = some step →
      step.state ≠ .succeeded → after.spec = step.spec → after.state = .succeeded →
        Executed saga [.execute saga.cursor step.spec.actionUri (.ok true)]
          (saga.setStep saga.cursor after).advance
  | failed {step after : SagaStepState} {result : TxResult Bool} :
      saga.steps[saga.cursor]? = some step → step.state ≠ .succeeded →
        after.spec = step.spec → after.state = .failed → result ≠ .ok true →
          Executed saga [.execute saga.cursor step.spec.actionUri result]
            { saga.setStep saga.cursor after with
              state := .compensating
              cursor := saga.cursor + 1 }

theorem executed_of_exec {saga : SagaInstance} {world last : SagaWorld}
    {result : Except SagaStop SagaInstance}
    (h : Exec SagaWorld.answer (tickRunning saga).run world result last) :
    ∃ calls after, result = .ok after ∧ Executed saga calls after ∧
      last = world.append calls := by
  unfold tickRunning at h
  split at h
  case isTrue hcursor =>
    obtain ⟨rfl, rfl⟩ := exec_done_iff.mp h
    exact ⟨[], _, rfl, .completed hcursor, (SagaWorld.append_nil _).symm⟩
  case isFalse hcursor =>
    obtain ⟨step, hstep⟩ : ∃ step, saga.steps[saga.cursor]? = some step :=
      ⟨_, List.getElem?_eq_getElem (Nat.lt_of_not_le hcursor)⟩
    simp only [hstep, Option.any_some, decide_eq_true_eq] at h
    split at h
    case isTrue hsucceeded =>
      obtain ⟨rfl, rfl⟩ := exec_done_iff.mp h
      exact ⟨[], _, rfl, .passed hstep hsucceeded, (SagaWorld.append_nil _).symm⟩
    case isFalse hsucceeded =>
      replace h := exec_stepAt hstep h
      obtain ⟨now, h⟩ := exec_nowMs h
      obtain ⟨outcome, h⟩ := exec_execute h
      refine ⟨[.execute saga.cursor step.spec.actionUri outcome], ?_⟩
      split at h
      case h_1 =>
        obtain ⟨completedAt, h⟩ := exec_nowMs h
        obtain ⟨rfl, rfl⟩ := exec_done_iff.mp h
        rw [SagaInstance.setStep_setStep]
        exact ⟨_, rfl, .succeeded hstep hsucceeded rfl rfl, rfl⟩
      case h_2 hfailed =>
        obtain ⟨rfl, rfl⟩ := exec_done_iff.mp h
        rw [SagaInstance.setStep_setStep]
        exact ⟨_, rfl, .failed hstep hsucceeded rfl rfl hfailed, rfl⟩

/-! ## A round of compensation -/

/-- All that a round can do, with the calls it makes: end at the first step, pass
over a step that is undone, skip a step that cannot be undone, undo a step, or give
up. -/
inductive Rewound (saga : SagaInstance) : List SagaCall → Flow → Prop
  | cancelled : saga.cursor = 0 → Rewound saga [] (.stop { saga with state := .cancelled })
  | passed {idx : ℕ} {step : SagaStepState} : saga.cursor = idx + 1 →
      saga.steps[idx]? = some step → isUndone step = true →
        Rewound saga [] (.again { saga with cursor := idx })
  | skipped {idx : ℕ} {step after : SagaStepState} : saga.cursor = idx + 1 →
      saga.steps[idx]? = some step → isUndone step = false →
        step.spec.compensateUri = none → after.spec = step.spec → after.state = .skipped →
          Rewound saga []
            (.again
              { saga.setStep idx after with
                cursor := idx
                state := if idx = 0 then .failed else saga.state })
  | compensated {idx : ℕ} {step after : SagaStepState} {uri : String} :
      saga.cursor = idx + 1 → saga.steps[idx]? = some step → isUndone step = false →
        step.spec.compensateUri = some uri → after.spec = step.spec →
          after.state = .compensated →
            Rewound saga [.compensate idx uri (.ok true)]
              (.again { saga.setStep idx after with cursor := idx })
  | stuck {idx : ℕ} {step after : SagaStepState} {uri : String} {result : TxResult Bool} :
      saga.cursor = idx + 1 → saga.steps[idx]? = some step → isUndone step = false →
        step.spec.compensateUri = some uri → after.spec = step.spec →
          after.state = step.state → result ≠ .ok true →
            Rewound saga [.compensate idx uri result]
              (.stop { saga.setStep idx after with state := .failed })

/-- A round has one of these effects, or it panics because the cursor is out of
range. -/
theorem rewound_of_exec {saga : SagaInstance} {world last : SagaWorld}
    {result : Except SagaStop Flow}
    (h : Exec SagaWorld.answer (compensateRound saga).run world result last) :
    (∃ calls flow, result = .ok flow ∧ Rewound saga calls flow ∧
        last = world.append calls) ∨
      result = .error .panic ∧ last = world ∧ saga.steps.length < saga.cursor := by
  unfold compensateRound at h
  split at h
  case isTrue hcursor =>
    obtain ⟨rfl, rfl⟩ := exec_done_iff.mp h
    exact .inl ⟨[], _, rfl, .cancelled hcursor, (SagaWorld.append_nil _).symm⟩
  case isFalse hcursor =>
    obtain ⟨idx, hidx⟩ := Nat.exists_eq_succ_of_ne_zero hcursor
    have hpred : saga.cursor - 1 = idx := by omega
    simp only [hpred] at h
    cases hstep : saga.steps[idx]? with
    | none =>
        have hlength := List.getElem?_eq_none_iff.mp hstep
        simp only [stepAt, hstep] at h
        obtain ⟨rfl, rfl⟩ := exec_done_iff.mp h
        exact .inr ⟨rfl, rfl, by omega⟩
    | some step =>
        apply Or.inl
        simp only [hstep, Option.any_some] at h
        split at h
        case isTrue hundone =>
          obtain ⟨rfl, rfl⟩ := exec_done_iff.mp h
          exact ⟨[], _, rfl, .passed hidx hstep hundone, (SagaWorld.append_nil _).symm⟩
        case isFalse hundone =>
          have hdone : isUndone step = false := Bool.eq_false_iff.mpr hundone
          replace h := exec_stepAt hstep h
          cases huri : step.spec.compensateUri with
          | none =>
              simp only [huri] at h
              obtain ⟨rfl, rfl⟩ := exec_done_iff.mp h
              exact ⟨[], _, rfl, .skipped hidx hstep hdone huri rfl rfl,
                (SagaWorld.append_nil _).symm⟩
          | some uri =>
              simp only [huri] at h
              obtain ⟨outcome, h⟩ := exec_compensate h
              rw [hpred] at h
              refine ⟨[.compensate idx uri outcome], ?_⟩
              split at h
              case h_1 =>
                obtain ⟨completedAt, h⟩ := exec_nowMs h
                obtain ⟨rfl, rfl⟩ := exec_done_iff.mp h
                exact ⟨_, rfl, .compensated hidx hstep hdone huri rfl rfl, rfl⟩
              case h_2 hfailed =>
                obtain ⟨rfl, rfl⟩ := exec_done_iff.mp h
                exact ⟨_, rfl, .stuck hidx hstep hdone huri rfl rfl hfailed, rfl⟩

/-- A round that goes on moves the cursor down by one, to a step. -/
theorem Rewound.cursor_of_again {saga next : SagaInstance} {calls : List SagaCall}
    (h : Rewound saga calls (.again next)) :
    saga.cursor = next.cursor + 1 ∧ next.cursor < next.steps.length := by
  cases h with
  | passed hcursor hstep _ => exact ⟨hcursor, (List.getElem?_eq_some_iff.mp hstep).1⟩
  | skipped hcursor hstep _ _ _ _ =>
      refine ⟨hcursor, ?_⟩
      show _ < (saga.steps.set _ _).length
      rw [List.length_set]
      exact (List.getElem?_eq_some_iff.mp hstep).1
  | compensated hcursor hstep _ _ _ _ =>
      refine ⟨hcursor, ?_⟩
      show _ < (saga.steps.set _ _).length
      rw [List.length_set]
      exact (List.getElem?_eq_some_iff.mp hstep).1

/-- The rounds of a tick of a compensating saga, up to the one that stops. -/
inductive Rewinds : SagaInstance → List SagaCall → SagaInstance → Prop
  | stop {saga after : SagaInstance} {calls : List SagaCall} :
      Rewound saga calls (.stop after) → Rewinds saga calls after
  | again {saga next after : SagaInstance} {calls rest : List SagaCall} :
      Rewound saga calls (.again next) → Rewinds next rest after →
        Rewinds saga (calls ++ rest) after

/-- The loop ends within one round for each step below the cursor and one more. It
panics only if the cursor is out of range from the start. -/
theorem rewinds_of_exec {rounds : ℕ} {saga : SagaInstance} {world last : SagaWorld}
    {result : Except SagaStop SagaInstance} (hrounds : saga.cursor < rounds)
    (h : Exec SagaWorld.answer (tickCompensating rounds saga).run world result last) :
    (∃ calls after, result = .ok after ∧ Rewinds saga calls after ∧
        last = world.append calls) ∨
      result = .error .panic ∧ last = world ∧ saga.steps.length < saga.cursor := by
  induction rounds generalizing saga world with
  | zero => exact absurd hrounds (Nat.not_lt_zero _)
  | succ rounds ih =>
      rcases exec_fallible_bind_iff.mp h with ⟨stop, hround, rfl⟩ | ⟨flow, middle, hround, hrest⟩
      · rcases rewound_of_exec hround with ⟨_, _, hok, _⟩ | ⟨hpanic, rfl, hcursor⟩
        · cases hok
        · cases hpanic
          exact .inr ⟨rfl, rfl, hcursor⟩
      · rcases rewound_of_exec hround with ⟨calls, _, hok, hrewound, rfl⟩ | ⟨hpanic, _⟩
        · cases hok
          cases flow with
          | stop after =>
              obtain ⟨rfl, rfl⟩ := exec_done_iff.mp hrest
              exact .inl ⟨calls, after, rfl, .stop hrewound, rfl⟩
          | again next =>
              obtain ⟨hcursor, hrange⟩ := hrewound.cursor_of_again
              rcases ih (by omega) hrest with ⟨rest, after, rfl, hrewinds, rfl⟩ | ⟨_, _, hout⟩
              · refine .inl ⟨calls ++ rest, after, rfl, .again hrewound hrewinds, ?_⟩
                exact SagaWorld.append_append world calls rest
              · omega
        · cases hpanic

/-- All that a tick can make of a saga before it is saved, with the calls it makes. -/
inductive Progressed (saga : SagaInstance) : List SagaCall → SagaInstance → Prop
  | running {calls : List SagaCall} {after : SagaInstance} : saga.state = .running →
      Executed saga calls after → Progressed saga calls after
  | compensating {calls : List SagaCall} {after : SagaInstance} :
      saga.state = .compensating → Rewinds saga calls after → Progressed saga calls after
  | resting : saga.state ≠ .running → saga.state ≠ .compensating → Progressed saga [] saga

theorem progressed_of_exec {saga : SagaInstance} {world last : SagaWorld}
    {result : Except SagaStop SagaInstance}
    (h : Exec SagaWorld.answer (progress saga).run world result last) :
    (∃ calls after, result = .ok after ∧ Progressed saga calls after ∧
        last = world.append calls) ∨
      result = .error .panic ∧ last = world ∧ saga.steps.length < saga.cursor := by
  unfold progress at h
  split at h
  case h_1 hstate =>
    obtain ⟨calls, after, rfl, hexecuted, rfl⟩ := executed_of_exec h
    exact .inl ⟨calls, after, rfl, .running hstate hexecuted, rfl⟩
  case h_2 hstate =>
    rcases rewinds_of_exec (Nat.lt_succ_self _) h with
      ⟨calls, after, rfl, hrewinds, rfl⟩ | hpanic
    · exact .inl ⟨calls, after, rfl, .compensating hstate hrewinds, rfl⟩
    · exact .inr hpanic
  all_goals
    obtain ⟨rfl, rfl⟩ := exec_done_iff.mp h
    refine .inl ⟨[], saga, rfl, .resting ?_ ?_, (SagaWorld.append_nil _).symm⟩ <;> simp_all

theorem Executed.id_eq {saga after : SagaInstance} {calls : List SagaCall}
    (h : Executed saga calls after) : after.id = saga.id := by
  cases h <;> rfl

theorem Rewinds.id_eq {saga after : SagaInstance} {calls : List SagaCall}
    (h : Rewinds saga calls after) : after.id = saga.id := by
  induction h with
  | stop hround => cases hround <;> rfl
  | again hround _ ih =>
      rw [ih]
      cases hround <;> rfl

theorem Progressed.id_eq {saga after : SagaInstance} {calls : List SagaCall}
    (h : Progressed saga calls after) : after.id = saga.id := by
  cases h with
  | running _ h => exact h.id_eq
  | compensating _ h => exact h.id_eq
  | resting _ _ => rfl

/-- A tick of a stored saga saves what it has made of it, unless its cursor is out
of range. -/
theorem saved_of_tick {id : Id} {saga : SagaInstance} {world last : SagaWorld}
    {result : Except SagaStop Unit} (hstored : world.stored id = some saga)
    (h : Exec SagaWorld.answer (tick id).run world result last) :
    (∃ calls after now, result = .ok () ∧ Progressed saga calls after ∧
        last =
          { sagas := world.sagas.put { after with updatedAt := now }
            calls := world.calls ++ calls }) ∨
      result = .error .panic ∧ last = world ∧ saga.steps.length < saga.cursor := by
  have hload := exec_load h
  rw [hstored] at hload
  change Exec SagaWorld.answer (progress saga >>= saveNow).run world result last at hload
  rcases exec_fallible_bind_iff.mp hload with
    ⟨stop, hprogress, rfl⟩ | ⟨after, middle, hprogress, hsave⟩
  · rcases progressed_of_exec hprogress with ⟨_, _, hok, _⟩ | ⟨hpanic, rfl, hcursor⟩
    · cases hok
    · cases hpanic
      exact .inr ⟨rfl, rfl, hcursor⟩
  · rcases progressed_of_exec hprogress with ⟨calls, _, hok, hprogressed, rfl⟩ | ⟨hpanic, _⟩
    · cases hok
      apply Or.inl
      obtain ⟨now, hnow⟩ := exec_nowMs hsave
      have hsaved := exec_save hnow
      have hfound : world.sagas.items.get after.id.asStr = some saga := by
        rw [hprogressed.id_eq, ← world.sagas.keyed _ _ hstored]
        exact hstored
      have hput : (world.append calls).sagas.save { after with updatedAt := now } =
          (.ok (), world.sagas.put { after with updatedAt := now }) := by
        simp only [SagaWorld.append, InMemorySagaStore.save, hfound]
      rw [hput] at hsaved
      obtain ⟨rfl, rfl⟩ := exec_done_iff.mp hsaved
      exact ⟨calls, after, now, rfl, hprogressed, rfl⟩
    · cases hpanic

/-- A saga that has been started is stored as it was inserted. -/
theorem stored_of_start {tenant : TenantId} {definition : SagaDefinition}
    {timeoutAt : Option Int64} {id : Id} {world last : SagaWorld}
    (h : Exec SagaWorld.answer (start tenant definition timeoutAt).run world (.ok id) last) :
    last.calls = world.calls ∧
      ∃ now, last.stored id = some (newInstance tenant definition timeoutAt id now) := by
  obtain ⟨newId, h⟩ := exec_newSagaId h
  obtain ⟨now, h⟩ := exec_nowMs h
  have hinsert := exec_insert h
  cases hfree : world.sagas.items.get newId.asStr with
  | some _ =>
      simp only [InMemorySagaStore.insert, newInstance, hfree] at hinsert
      cases hinsert
  | none =>
      simp only [InMemorySagaStore.insert, newInstance, hfree] at hinsert
      obtain ⟨hid, rfl⟩ := exec_done_iff.mp hinsert
      cases hid
      refine ⟨rfl, now, ?_⟩
      exact (InMemorySagaStore.get_put _ _ _).trans (if_pos rfl)

/-- A saga of a definition, started in any store, and ticks of it one after the
other. -/
def sagaSystem (definition : SagaDefinition) (id : Id) : TransitionSystem SagaWorld Unit where
  init world := ∃ sagas tenant timeoutAt,
    Exec SagaWorld.answer (start tenant definition timeoutAt).run
      { sagas := sagas, calls := [] } (.ok id) world
  step world _ after := ∃ result, Exec SagaWorld.answer (tick id).run world result after

/-- The start of a saga on given choices. -/
def SagaWorld.startWith (definition : SagaDefinition) (choices : List SagaChoice) : SagaWorld :=
  ((runWith SagaWorld.answer choices (start ⟨"t"⟩ definition none).run
    { sagas := .empty, calls := [] }).map (·.2)).getD { sagas := .empty, calls := [] }

/-- A tick on given choices. -/
def SagaWorld.tickWith (world : SagaWorld) (id : Id) (choices : List SagaChoice) :
    Except SagaStop Unit × SagaWorld :=
  (runWith SagaWorld.answer choices (tick id).run world).getD (.error .panic, world)

end Soulbase.Tx
