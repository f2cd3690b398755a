/-
# The saga orchestrator

`start` and `tick` are programs over the saga store, the participant and the
clock. A tick of a running saga executes at most one step. A tick of a
compensating saga loops backwards over the steps until it may stop.

Two things stop a tick besides an error: an index out of range, which panics,
and a loop that does not end. Both are outcomes here, to be excluded. Calls of
the participant carry the index of the step that the code is working on, which
the participant does not see.
-/

import Soulbase.Foundation.Program
import Soulbase.Tx.Memory.SagaStore

namespace Soulbase.Tx

open Soulbase.Foundation

/-- What the orchestrator calls. -/
inductive SagaOp
  /-- `new_saga_id`. -/
  | newSagaId
  /-- `now_ms`. -/
  | nowMs
  /-- `SagaStore::insert`. -/
  | insert (saga : SagaInstance)
  /-- `SagaStore::load`. -/
  | load (id : Id)
  /-- `SagaStore::save`. -/
  | save (saga : SagaInstance)
  /-- `SagaParticipant::execute`. -/
  | execute (index : ℕ) (uri : String) (saga : SagaInstance)
  /-- `SagaParticipant::compensate`. -/
  | compensate (index : ℕ) (uri : String) (saga : SagaInstance)

/-- What a call returns. -/
abbrev SagaOp.Answer : SagaOp → Type
  | newSagaId => Id
  | nowMs => Int64
  | insert _ => TxResult Unit
  | load _ => TxResult (Option SagaInstance)
  | save _ => TxResult Unit
  | execute .. => TxResult Bool
  | compensate .. => TxResult Bool

/-- Why a computation of the orchestrator stops before its end. -/
inductive SagaStop
  /-- `return Err(error)`. -/
  | error (error : TxError)
  /-- An index is out of range. -/
  | panic
  /-- The loop of `tick_compensating` has not ended in the rounds it was given. -/
  | spinning

/-- A computation of the orchestrator. -/
abbrev Orchestration := ExceptT SagaStop (Program SagaOp SagaOp.Answer)

namespace Orchestration

/-- Call an operation and return its answer, which may be an error. -/
def ask (op : SagaOp) : Orchestration op.Answer := ExceptT.lift (perform op)

/-- Stop with the error of a result. -/
def ofResult {α : Type} : TxResult α → Orchestration α
  | .ok value => pure value
  | .error error => throw (.error error)

end Orchestration

open Orchestration

namespace SagaInstance

/-- Write back the step at an index. -/
def setStep (saga : SagaInstance) (idx : ℕ) (step : SagaStepState) : SagaInstance :=
  { saga with steps := saga.steps.set idx step }

/-- Go on to the next step, or complete the saga behind the last one. -/
def advance (saga : SagaInstance) : SagaInstance :=
  { saga with
    cursor := saga.cursor + 1
    state := if saga.cursor + 1 ≥ saga.steps.length then .completed else saga.state }

@[simp]
theorem setStep_setStep (saga : SagaInstance) (idx : ℕ) (first second : SagaStepState) :
    (saga.setStep idx first).setStep idx second = saga.setStep idx second := by
  simp only [setStep, List.set_set]

end SagaInstance

section Steps

variable {specs : List SagaStepDef} {saga : SagaInstance} {idx : ℕ}
variable {step after : SagaStepState}

theorem length_of_specs (h : saga.steps.map (·.spec) = specs) :
    saga.steps.length = specs.length := by
  rw [← h, List.length_map]

theorem spec_of_step (h : saga.steps.map (·.spec) = specs)
    (hstep : saga.steps[idx]? = some step) : specs[idx]? = some step.spec := by
  rw [← h, List.getElem?_map, hstep]
  rfl

/-- Writing a step back keeps its definition. -/
theorem specs_setStep (h : saga.steps.map (·.spec) = specs)
    (hstep : saga.steps[idx]? = some step) (hspec : after.spec = step.spec) :
    (saga.setStep idx after).steps.map (·.spec) = specs := by
  show (saga.steps.set idx after).map (·.spec) = specs
  rw [List.map_set, h, hspec]
  obtain ⟨hlength, hget⟩ := List.getElem?_eq_some_iff.mp (spec_of_step h hstep)
  rw [← hget, List.set_getElem_self]

/-- A step after another was written back is that one or an old one. -/
theorem step_setStep {i : ℕ} {found : SagaStepState}
    (h : (saga.setStep idx after).steps[i]? = some found) :
    i = idx ∧ found = after ∨ i ≠ idx ∧ saga.steps[i]? = some found := by
  change (saga.steps.set idx after)[i]? = some found at h
  rw [List.getElem?_set] at h
  split at h
  case isTrue hidx =>
    split at h
    case isTrue =>
      cases h
      exact .inl ⟨hidx.symm, rfl⟩
    case isFalse => cases h
  case isFalse hidx => exact .inr ⟨fun heq => hidx heq.symm, h⟩

end Steps

namespace SagaOrchestrator

/-- The instance that `SagaOrchestrator::start` inserts. -/
def newInstance (tenant : TenantId) (definition : SagaDefinition) (timeoutAt : Option Int64)
    (id : Id) (now : Int64) : SagaInstance where
  id := id
  tenant := tenant
  state := .running
  defName := definition.name
  steps := definition.steps.map SagaStepState.new
  cursor := 0
  createdAt := now
  updatedAt := now
  timeoutAt := timeoutAt

/-- `SagaOrchestrator::start`. -/
def start (tenant : TenantId) (definition : SagaDefinition) (timeoutAt : Option Int64) :
    Orchestration Id := do
  let id ← ask .newSagaId
  let now ← ask .nowMs
  let inserted ← ask (.insert (newInstance tenant definition timeoutAt id now))
  ofResult inserted
  return id

/-- `&mut saga.steps[idx]`. -/
def stepAt (saga : SagaInstance) (idx : ℕ) : Orchestration SagaStepState :=
  match saga.steps[idx]? with
  | some step => pure step
  | none => throw .panic

/-- A step that is being executed. -/
def inFlight (step : SagaStepState) (now : Int64) : SagaStepState :=
  { step with
    state := .inFlight
    startedAt := some (step.startedAt.getD now) }

/-- The text of the error that `execute` has left. -/
def executeError : TxResult Bool → String
  | .ok _ => "step returned failure"
  | .error error => error.toString

/-- The text of the error that `compensate` has left. -/
def compensateError : TxResult Bool → String
  | .ok _ => "compensate returned failure"
  | .error error => error.toString

/-- `SagaOrchestrator::tick_running`. -/
def tickRunning (saga : SagaInstance) : Orchestration SagaInstance := do
  if saga.cursor ≥ saga.steps.length then
    return { saga with state := .completed }
  else if saga.steps[saga.cursor]?.any (·.state = .succeeded) then
    return saga.advance
  else
    let idx := saga.cursor
    let step ← stepAt saga idx
    let now ← ask .nowMs
    let step := inFlight step now
    let saga := saga.setStep idx step
    let result ← ask (.execute idx step.spec.actionUri saga)
    match result with
    | .ok true =>
        let now ← ask .nowMs
        let step := { step with state := .succeeded, completedAt := some now }
        return (saga.setStep idx step).advance
    | result =>
        let step := { step with state := .failed, lastError := some (executeError result) }
        return { saga.setStep idx step with state := .compensating, cursor := idx + 1 }

/-- How a round of a loop ends. -/
inductive Flow
  /-- `continue`. -/
  | again (saga : SagaInstance)
  /-- `return`. -/
  | stop (saga : SagaInstance)

/-- Whether the loop passes over the step. -/
def isUndone (step : SagaStepState) : Bool :=
  step.state = .compensated ∨ step.state = .skipped

/-- A round of the loop of `SagaOrchestrator::tick_compensating`. -/
def compensateRound (saga : SagaInstance) : Orchestration Flow := do
  if saga.cursor = 0 then
    return .stop { saga with state := .cancelled }
  else
    let idx := saga.cursor - 1
    if saga.steps[idx]?.any isUndone then
      return .again { saga with cursor := idx }
    else
      let step ← stepAt saga idx
      match step.spec.compensateUri with
      | none =>
          -- skipping the first step sets a state that the next round overwrites
          let state := if idx = 0 then .failed else saga.state
          let step := { step with state := .skipped }
          return .again { saga.setStep idx step with cursor := idx, state := state }
      | some uri =>
          let result ← ask (.compensate idx uri saga)
          match result with
          | .ok true =>
              let now ← ask .nowMs
              let step := { step with state := .compensated, completedAt := some now }
              return .again { saga.setStep idx step with cursor := idx }
          | result =>
              let step := { step with lastError := some (compensateError result) }
              return .stop { saga.setStep idx step with state := .failed }

/-- `SagaOrchestrator::tick_compensating`, for a number of rounds. -/
def tickCompensating : ℕ → SagaInstance → Orchestration SagaInstance
  | 0, _ => throw .spinning
  | rounds + 1, saga => do
      match ← compensateRound saga with
      | .stop saga => return saga
      | .again saga => tickCompensating rounds saga

/-- The `match` of `SagaOrchestrator::tick`. The loop is given one round for each
step below the cursor and one to stop. -/
def progress (saga : SagaInstance) : Orchestration SagaInstance :=
  match saga.state with
  | .running => tickRunning saga
  | .compensating => tickCompensating (saga.cursor + 1) saga
  | .paused | .completed | .failed | .cancelled => pure saga

/-- The end of `SagaOrchestrator::tick`. -/
def saveNow (saga : SagaInstance) : Orchestration Unit := do
  let now ← ask .nowMs
  let saved ← ask (.save { saga with updatedAt := now })
  ofResult saved

/-- `SagaOrchestrator::tick`. -/
def tick (id : Id) : Orchestration Unit := do
  let found ← ask (.load id)
  match ← ofResult found with
  | none => return ()
  | some saga =>
      let saga ← progress saga
      saveNow saga

end SagaOrchestrator

end Soulbase.Tx
