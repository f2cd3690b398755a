/-
# Phases of a saga

An abstract saga: how many steps have succeeded, at which step it failed, and
at which step undoing got stuck. A phase determines the state, the cursor, the
states of all steps and the calls that the participant has got.

Every tick of the orchestrator is a step from phase to phase, `phase_of_tick`.
So the stored saga and the calls are described by a phase throughout a run, and
properties of runs are properties of phases.
-/

import Soulbase.Tx.SagaRun

namespace Soulbase.Tx

open Soulbase.Foundation SagaOrchestrator

section Directions

variable (specs : List SagaStepDef)

/-- The first steps have been executed. -/
def executedCalls (count : ℕ) : List SagaCall :=
  (specs.zipIdx.take count).map fun step => .execute step.2 step.1.actionUri (.ok true)

/-- A step has been executed with a result. -/
def failedCall (index : ℕ) (result : TxResult Bool) : List SagaCall :=
  specs[index]?.toList.map fun spec => .execute index spec.actionUri result

/-- The steps below the top have been undone downwards, where they can be. -/
def undoneCalls (top bottom : ℕ) : List SagaCall :=
  ((specs.zipIdx.take top).drop bottom).reverse.filterMap fun step =>
    step.1.compensateUri.map fun uri => .compensate step.2 uri (.ok true)

/-- Undoing a step has been tried with a result. -/
def stuckCall (index : ℕ) (answer : TxResult Bool) : List SagaCall :=
  (specs[index]?.bind (·.compensateUri)).toList.map fun uri => .compensate index uri answer

/-- The state of a step when the steps from a bottom on up to a failed one have
been undone. -/
def undoneState (failed bottom index : ℕ) (spec : SagaStepDef) : StepState :=
  if index < bottom then
    if index = failed then .failed else .succeeded
  else if index ≤ failed then
    if spec.compensateUri.isSome then .compensated else .skipped
  else .ready

variable {specs} {spec : SagaStepDef}

theorem executedCalls_succ {count : ℕ} (h : specs[count]? = some spec) :
    executedCalls specs (count + 1) =
      executedCalls specs count ++ [.execute count spec.actionUri (.ok true)] := by
  have hzip : specs.zipIdx[count]? = some (spec, count) := by
    rw [List.getElem?_zipIdx, h]
    simp
  unfold executedCalls
  rw [List.take_add_one, hzip, List.map_append]
  rfl

theorem undoneCalls_succ {top bottom : ℕ} (htop : bottom < top)
    (h : specs[bottom]? = some spec) :
    undoneCalls specs top bottom =
      undoneCalls specs top (bottom + 1) ++
        (spec.compensateUri.map fun uri =>
          SagaCall.compensate bottom uri (.ok true)).toList := by
  have hzip : (specs.zipIdx.take top)[bottom]? = some (spec, bottom) := by
    rw [List.getElem?_take, if_pos htop, List.getElem?_zipIdx, h]
    simp
  obtain ⟨hlength, hget⟩ := List.getElem?_eq_some_iff.mp hzip
  unfold undoneCalls
  rw [List.drop_eq_getElem_cons hlength, hget, List.reverse_cons, List.filterMap_append]
  simp only [List.filterMap_cons, List.filterMap_nil]
  cases spec.compensateUri <;> rfl

theorem failedCall_eq {index : ℕ} {result : TxResult Bool} (h : specs[index]? = some spec) :
    failedCall specs index result = [.execute index spec.actionUri result] := by
  rw [failedCall, h]
  rfl

theorem stuckCall_eq {index : ℕ} {answer : TxResult Bool} {uri : String}
    (h : specs[index]? = some spec) (huri : spec.compensateUri = some uri) :
    stuckCall specs index answer = [.compensate index uri answer] := by
  rw [stuckCall, h, Option.bind_some, huri]
  rfl

theorem getElem?_executedCalls {count k : ℕ} {call : SagaCall} :
    (executedCalls specs count)[k]? = some call ↔
      k < count ∧ ∃ spec, specs[k]? = some spec ∧
        call = .execute k spec.actionUri (.ok true) := by
  unfold executedCalls
  rw [List.getElem?_map, List.getElem?_take]
  by_cases hk : k < count
  · rw [if_pos hk, List.getElem?_zipIdx]
    cases hspec : specs[k]? with
    | none => simp
    | some spec => simp [hk, eq_comm]
  · rw [if_neg hk]
    simp [hk]

theorem length_executedCalls {count : ℕ} (h : count ≤ specs.length) :
    (executedCalls specs count).length = count := by
  simp only [executedCalls, List.length_map, List.length_take, List.length_zipIdx]
  exact Nat.min_eq_left h

theorem mem_undoneCalls {top bottom : ℕ} {call : SagaCall} :
    call ∈ undoneCalls specs top bottom ↔
      ∃ index spec uri, specs[index]? = some spec ∧ spec.compensateUri = some uri ∧
        call = .compensate index uri (.ok true) ∧ bottom ≤ index ∧ index < top := by
  constructor
  · intro h
    obtain ⟨⟨spec, index⟩, hmem, hcall⟩ := List.mem_filterMap.mp h
    obtain ⟨uri, huri, rfl⟩ := Option.map_eq_some_iff.mp hcall
    obtain ⟨offset, hget⟩ := List.mem_iff_getElem?.mp (List.mem_reverse.mp hmem)
    rw [List.getElem?_drop, List.getElem?_take] at hget
    split at hget
    case isFalse => cases hget
    case isTrue htop =>
      rw [List.getElem?_zipIdx] at hget
      obtain ⟨found, hfound, heq⟩ := Option.map_eq_some_iff.mp hget
      obtain ⟨rfl, hindex⟩ := Prod.mk.inj heq
      refine ⟨bottom + offset, found, uri, hfound, huri, ?_, Nat.le_add_right _ _, htop⟩
      rw [← hindex, Nat.zero_add]
  · intro h
    obtain ⟨index, spec, uri, hspec, huri, rfl, hbottom, htop⟩ := h
    apply List.mem_filterMap.mpr
    refine ⟨(spec, index), List.mem_reverse.mpr ?_, by rw [huri]; rfl⟩
    apply List.mem_iff_getElem?.mpr
    refine ⟨index - bottom, ?_⟩
    rw [List.getElem?_drop, Nat.add_sub_cancel' hbottom, List.getElem?_take, if_pos htop,
      List.getElem?_zipIdx, hspec]
    simp

theorem mem_executedCalls {count : ℕ} {call : SagaCall} :
    call ∈ executedCalls specs count ↔
      ∃ k < count, ∃ spec, specs[k]? = some spec ∧
        call = .execute k spec.actionUri (.ok true) := by
  rw [List.mem_iff_getElem?]
  apply exists_congr
  intro k
  exact getElem?_executedCalls

end Directions

/-- How far a saga has come. -/
inductive SagaPhase
  /-- So many steps have succeeded. -/
  | running (done : ℕ)
  /-- All steps have succeeded. -/
  | completed
  /-- A step has failed. -/
  | compensating (failed : ℕ) (result : TxResult Bool)
  /-- A step has failed, and all steps have been undone that can be. -/
  | cancelled (failed : ℕ) (result : TxResult Bool)
  /-- A step has failed, and undoing has failed at some step. -/
  | stuck (failed : ℕ) (result : TxResult Bool) (index : ℕ) (answer : TxResult Bool)

namespace SagaPhase

/-- The phases that there are of a saga with these steps. -/
def Valid (specs : List SagaStepDef) : SagaPhase → Prop
  | running done => done ≤ specs.length
  | completed => True
  | compensating failed result | cancelled failed result =>
      failed < specs.length ∧ result ≠ .ok true
  | stuck failed result index answer =>
      failed < specs.length ∧ result ≠ .ok true ∧ index ≤ failed ∧ answer ≠ .ok true ∧
        ∃ spec uri, specs[index]? = some spec ∧ spec.compensateUri = some uri

/-- The state of the saga. -/
def state : SagaPhase → SagaState
  | running _ => .running
  | completed => .completed
  | compensating .. => .compensating
  | cancelled .. => .cancelled
  | stuck .. => .failed

/-- The cursor. -/
def cursor (specs : List SagaStepDef) : SagaPhase → ℕ
  | running done => done
  | completed => specs.length
  | compensating failed _ => failed + 1
  | cancelled .. => 0
  | stuck _ _ index _ => index + 1

/-- The state of a step. -/
def stepState (i : ℕ) (spec : SagaStepDef) : SagaPhase → StepState
  | running done => if i < done then .succeeded else .ready
  | completed => .succeeded
  | compensating failed _ => undoneState failed (failed + 1) i spec
  | cancelled failed _ => undoneState failed 0 i spec
  | stuck failed _ index _ => undoneState failed (index + 1) i spec

/-- The calls of the participant. -/
def calls (specs : List SagaStepDef) : SagaPhase → List SagaCall
  | running done => executedCalls specs done
  | completed => executedCalls specs specs.length
  | compensating failed result => executedCalls specs failed ++ failedCall specs failed result
  | cancelled failed result =>
      executedCalls specs failed ++ failedCall specs failed result ++
        undoneCalls specs (failed + 1) 0
  | stuck failed result index answer =>
      executedCalls specs failed ++ failedCall specs failed result ++
        undoneCalls specs (failed + 1) (index + 1) ++ stuckCall specs index answer

/-- The phase is the one of the saga and the calls. -/
structure Describes (phase : SagaPhase) (specs : List SagaStepDef) (saga : SagaInstance)
    (calls : List SagaCall) : Prop where
  valid : phase.Valid specs
  state : saga.state = phase.state
  cursor : saga.cursor = phase.cursor specs
  kept : saga.steps.map (·.spec) = specs
  steps : ∀ i step, saga.steps[i]? = some step → step.state = phase.stepState i step.spec
  calls : calls = phase.calls specs

/-- The steps of the abstract saga, one for each tick. -/
inductive Next (specs : List SagaStepDef) : SagaPhase → SagaPhase → Prop
  | finish : Next specs (running specs.length) completed
  | execute {done : ℕ} : done + 1 < specs.length →
      Next specs (running done) (running (done + 1))
  | executeLast {done : ℕ} : done + 1 = specs.length → Next specs (running done) completed
  | fail {done : ℕ} {result : TxResult Bool} : done < specs.length → result ≠ .ok true →
      Next specs (running done) (compensating done result)
  | undo {failed : ℕ} {result : TxResult Bool} :
      Next specs (compensating failed result) (cancelled failed result)
  | giveUp {failed index : ℕ} {result answer : TxResult Bool} :
      Next specs (compensating failed result) (stuck failed result index answer)
  | rest {phase : SagaPhase} : phase.state ≠ .running → phase.state ≠ .compensating →
      Next specs phase phase

end SagaPhase

section Forward

variable {specs : List SagaStepDef} {saga after : SagaInstance}
variable {calls new : List SagaCall} {done : ℕ}

/-- A saga without a next step completes. -/
theorem next_of_completed (h : (SagaPhase.running done).Describes specs saga calls)
    (hcursor : saga.steps.length ≤ saga.cursor) :
    ∃ next, SagaPhase.Next specs (.running done) next ∧
      next.Describes specs { saga with state := .completed } calls := by
  have hlength := length_of_specs h.kept
  have hdone : saga.cursor = done := h.cursor
  have hall : done = specs.length := by
    have hle : done ≤ specs.length := h.valid
    omega
  subst hall
  refine ⟨.completed, .finish, trivial, rfl, hdone, h.kept, ?_, h.calls⟩
  intro i step hstep
  have hlt := (List.getElem?_eq_some_iff.mp hstep).1
  change i < saga.steps.length at hlt
  rw [h.steps i step hstep]
  exact if_pos (by omega)

/-- No step from the cursor on has succeeded. -/
theorem not_succeeded_of_running (h : (SagaPhase.running done).Describes specs saga calls)
    {step : SagaStepState} (hstep : saga.steps[saga.cursor]? = some step) :
    step.state ≠ .succeeded := by
  have hdone : saga.cursor = done := h.cursor
  rw [h.steps _ _ hstep, hdone]
  show (if done < done then _ else _) ≠ _
  rw [if_neg (Nat.lt_irrefl done)]
  exact nofun

/-- The step states after one more step has succeeded. -/
theorem steps_of_succeeded (h : (SagaPhase.running done).Describes specs saga calls)
    {written : SagaStepState} (hstate : written.state = .succeeded) {i : ℕ}
    {found : SagaStepState} (hfound : (saga.setStep done written).steps[i]? = some found) :
    found.state = if i < done + 1 then .succeeded else .ready := by
  rcases step_setStep hfound with ⟨rfl, rfl⟩ | ⟨hne, hold⟩
  · rw [hstate, if_pos (Nat.lt_succ_self _)]
  · rw [h.steps i found hold]
    show (if i < done then _ else _) = _
    by_cases hi : i < done
    · rw [if_pos hi, if_pos (by omega)]
    · rw [if_neg hi, if_neg (by omega)]

/-- When its step has succeeded a saga goes on to the next one, or completes. -/
theorem next_of_succeeded (h : (SagaPhase.running done).Describes specs saga calls)
    {step written : SagaStepState} (hstep : saga.steps[saga.cursor]? = some step)
    (hspec : written.spec = step.spec) (hstate : written.state = .succeeded) :
    ∃ next, SagaPhase.Next specs (.running done) next ∧
      next.Describes specs (saga.setStep saga.cursor written).advance
        (calls ++ [.execute saga.cursor step.spec.actionUri (.ok true)]) := by
  have hdone : saga.cursor = done := h.cursor
  have hlt := (List.getElem?_eq_some_iff.mp hstep).1
  rw [length_of_specs h.kept, hdone] at hlt
  have hdef := spec_of_step h.kept hstep
  rw [hdone] at hstep hdef
  have hkept := specs_setStep h.kept hstep hspec
  have hset : (saga.setStep done written).steps.length = specs.length := length_of_specs hkept
  have hnew : calls ++ [SagaCall.execute done step.spec.actionUri (.ok true)] =
      executedCalls specs (done + 1) := by
    rw [executedCalls_succ hdef]
    exact congrArg (· ++ _) h.calls
  rw [hdone, hnew]
  by_cases hlast : done + 1 = specs.length
  · refine ⟨.completed, .executeLast hlast, trivial, ?_, ?_, hkept, ?_, ?_⟩
    · show (if saga.cursor + 1 ≥ _ then _ else _) = _
      rw [hset, hdone, if_pos (by omega)]
      rfl
    · show saga.cursor + 1 = _
      rw [hdone]
      exact hlast
    · intro i found hfound
      have hi := (List.getElem?_eq_some_iff.mp hfound).1
      change i < (saga.setStep done written).steps.length at hi
      rw [steps_of_succeeded h hstate hfound, if_pos (by omega)]
      rfl
    · rw [hlast]
      rfl
  · refine ⟨.running (done + 1), .execute (by omega), ?_, ?_, ?_, hkept, ?_, rfl⟩
    · show done + 1 ≤ _
      omega
    · show (if saga.cursor + 1 ≥ _ then _ else _) = _
      rw [hset, hdone, if_neg (by omega)]
      exact h.state
    · show saga.cursor + 1 = _
      rw [hdone]
      rfl
    · intro i found hfound
      exact steps_of_succeeded h hstate hfound

/-- When its step has failed a saga has to be undone. -/
theorem next_of_failed (h : (SagaPhase.running done).Describes specs saga calls)
    {step written : SagaStepState} {result : TxResult Bool}
    (hstep : saga.steps[saga.cursor]? = some step) (hspec : written.spec = step.spec)
    (hstate : written.state = .failed) (hresult : result ≠ .ok true) :
    ∃ next, SagaPhase.Next specs (.running done) next ∧
      next.Describes specs
        { saga.setStep saga.cursor written with
          state := .compensating
          cursor := saga.cursor + 1 }
        (calls ++ [.execute saga.cursor step.spec.actionUri result]) := by
  have hdone : saga.cursor = done := h.cursor
  have hrange := (List.getElem?_eq_some_iff.mp hstep).1
  rw [length_of_specs h.kept, hdone] at hrange
  have hdef := spec_of_step h.kept hstep
  rw [hdone] at hstep hdef ⊢
  refine ⟨.compensating done result, .fail hrange hresult, ⟨hrange, hresult⟩, rfl, rfl,
    specs_setStep h.kept hstep hspec, ?_, ?_⟩
  · intro i found hfound
    show found.state = undoneState done (done + 1) i found.spec
    unfold undoneState
    rcases step_setStep hfound with ⟨rfl, rfl⟩ | ⟨hne, hold⟩
    · rw [hstate, if_pos (Nat.lt_succ_self _), if_pos rfl]
    · rw [h.steps i found hold]
      show (if i < done then _ else _) = _
      by_cases hi : i < done
      · rw [if_pos hi, if_pos (by omega), if_neg hne]
      · rw [if_neg hi, if_neg (by omega), if_neg (by omega)]
  · rw [h.calls]
    show _ = executedCalls specs done ++ failedCall specs done result
    rw [failedCall_eq hdef]
    rfl

/-- A tick of a running saga is a step of the abstract saga. -/
theorem next_of_executed (h : (SagaPhase.running done).Describes specs saga calls)
    (hexecuted : Executed saga new after) :
    ∃ next, SagaPhase.Next specs (.running done) next ∧
      next.Describes specs after (calls ++ new) := by
  cases hexecuted with
  | completed hcursor =>
      rw [List.append_nil]
      exact next_of_completed h hcursor
  | passed hstep hsucceeded => exact absurd hsucceeded (not_succeeded_of_running h hstep)
  | succeeded hstep _ hspec hstate => exact next_of_succeeded h hstep hspec hstate
  | failed hstep _ hspec hstate hresult => exact next_of_failed h hstep hspec hstate hresult

end Forward

/-! ## Ticks of a compensating saga -/

/-- A saga in the middle of a tick that undoes it: the steps from the cursor up to
the failed one are undone, those below it are not. -/
structure Undoing (specs : List SagaStepDef) (failed : ℕ) (result : TxResult Bool)
    (saga : SagaInstance) (calls : List SagaCall) : Prop where
  valid : failed < specs.length ∧ result ≠ .ok true
  bound : saga.cursor ≤ failed + 1
  kept : saga.steps.map (·.spec) = specs
  steps : ∀ i step, saga.steps[i]? = some step →
    step.state = undoneState failed saga.cursor i step.spec
  calls : calls =
    executedCalls specs failed ++ failedCall specs failed result ++
      undoneCalls specs (failed + 1) saga.cursor

section Backward

variable {specs : List SagaStepDef} {failed : ℕ} {result : TxResult Bool}
variable {saga next after : SagaInstance} {calls new : List SagaCall}

theorem undoing_of_compensating
    (h : (SagaPhase.compensating failed result).Describes specs saga calls) :
    Undoing specs failed result saga calls := by
  have hcursor : saga.cursor = failed + 1 := h.cursor
  refine ⟨h.valid, Nat.le_of_eq hcursor, h.kept, ?_, ?_⟩
  · rw [hcursor]
    exact h.steps
  · have hnone : undoneCalls specs (failed + 1) (failed + 1) = [] := by
      unfold undoneCalls
      rw [List.drop_of_length_le (List.length_take_le _ _)]
      rfl
    rw [hcursor, hnone, List.append_nil]
    exact h.calls

/-- The step below the cursor has not been undone. -/
theorem Undoing.not_isUndone (h : Undoing specs failed result saga calls) {idx : ℕ}
    {step : SagaStepState} (hcursor : saga.cursor = idx + 1)
    (hstep : saga.steps[idx]? = some step) : isUndone step = false := by
  have hstate := h.steps idx step hstep
  rw [undoneState, if_pos (by omega)] at hstate
  unfold isUndone
  split at hstate <;> simp [hstate]

/-- Undoing goes on below a step that has been undone or skipped. -/
theorem Undoing.lower (h : Undoing specs failed result saga calls) {idx : ℕ}
    {step written : SagaStepState} (hcursor : saga.cursor = idx + 1)
    (hstep : saga.steps[idx]? = some step) (hspec : written.spec = step.spec)
    (hstate : written.state =
      if step.spec.compensateUri.isSome then .compensated else .skipped)
    (hnew : new = (step.spec.compensateUri.map fun uri =>
      SagaCall.compensate idx uri (.ok true)).toList) (state : SagaState) :
    Undoing specs failed result
      { saga.setStep idx written with
        cursor := idx
        state := state } (calls ++ new) := by
  have hbound := h.bound
  refine ⟨h.valid, ?_, specs_setStep h.kept hstep hspec, ?_, ?_⟩
  · show idx ≤ failed + 1
    omega
  · intro i found hfound
    show found.state = undoneState failed idx i found.spec
    unfold undoneState
    rcases step_setStep hfound with ⟨rfl, rfl⟩ | ⟨hne, hold⟩
    · rw [if_neg (Nat.lt_irrefl _), if_pos (by omega), hspec, hstate]
    · rw [h.steps i found hold, undoneState, hcursor]
      by_cases hi : i < idx
      · rw [if_pos (by omega), if_pos hi]
      · rw [if_neg (by omega), if_neg hi]
  · show _ = _ ++ undoneCalls specs (failed + 1) idx
    rw [undoneCalls_succ (by omega) (spec_of_step h.kept hstep), hnew, h.calls, hcursor]
    simp only [List.append_assoc]

theorem Undoing.again (h : Undoing specs failed result saga calls)
    (hround : Rewound saga new (.again next)) :
    Undoing specs failed result next (calls ++ new) := by
  cases hround with
  | passed hcursor hstep hundone =>
      rw [h.not_isUndone hcursor hstep] at hundone
      cases hundone
  | skipped hcursor hstep _ huri hspec hstate =>
      apply h.lower hcursor hstep hspec
      · rw [hstate, huri]
        rfl
      · rw [huri]
        rfl
  | compensated hcursor hstep _ huri hspec hstate =>
      apply h.lower hcursor hstep hspec
      · rw [hstate, huri]
        rfl
      · rw [huri]
        rfl

/-- The round that stops ends in one of the two phases. -/
theorem Undoing.stop (h : Undoing specs failed result saga calls)
    (hround : Rewound saga new (.stop after)) :
    (SagaPhase.cancelled failed result).Describes specs after (calls ++ new) ∨
      ∃ index answer,
        (SagaPhase.stuck failed result index answer).Describes specs after (calls ++ new) := by
  cases hround with
  | cancelled hcursor =>
      refine .inl ⟨h.valid, rfl, hcursor, h.kept, ?_, ?_⟩
      · intro i step hstep
        have hstate := h.steps i step hstep
        rw [hcursor] at hstate
        exact hstate
      · rw [List.append_nil, h.calls, hcursor]
        rfl
  | @stuck idx step written uri answer hcursor hstep _ huri hspec hstate hanswer =>
      have hbound := h.bound
      have hdef := spec_of_step h.kept hstep
      refine .inr ⟨idx, answer,
        ⟨h.valid.1, h.valid.2, by omega, hanswer, step.spec, uri, hdef, huri⟩, rfl, hcursor,
        specs_setStep h.kept hstep hspec, ?_, ?_⟩
      · intro i found hfound
        show found.state = undoneState failed (idx + 1) i found.spec
        rw [← hcursor]
        rcases step_setStep hfound with ⟨rfl, rfl⟩ | ⟨hne, hold⟩
        · rw [hstate, hspec]
          exact h.steps _ step hstep
        · exact h.steps i found hold
      · rw [h.calls, hcursor]
        show _ = _ ++ stuckCall specs idx answer
        rw [stuckCall_eq hdef huri]

/-- A tick of a compensating saga is a step of the abstract saga, by induction on
the rounds of its loop. -/
theorem next_of_rewinds (h : Undoing specs failed result saga calls)
    (hrewinds : Rewinds saga new after) :
    ∃ next, SagaPhase.Next specs (.compensating failed result) next ∧
      next.Describes specs after (calls ++ new) := by
  induction hrewinds generalizing calls with
  | stop hround =>
      rcases h.stop hround with hcancelled | ⟨index, answer, hstuck⟩
      · exact ⟨_, .undo, hcancelled⟩
      · exact ⟨_, .giveUp, hstuck⟩
  | again hround _ ih =>
      rw [← List.append_assoc]
      exact ih (h.again hround)

end Backward

section Runs

variable {specs : List SagaStepDef} {phase : SagaPhase} {saga after : SagaInstance}
variable {calls new : List SagaCall}

/-- What a tick makes of a saga is a step of the abstract saga. -/
theorem next_of_progressed (h : phase.Describes specs saga calls)
    (hprogressed : Progressed saga new after) :
    ∃ next, SagaPhase.Next specs phase next ∧ next.Describes specs after (calls ++ new) := by
  cases hprogressed with
  | running hstate hexecuted =>
      rw [h.state] at hstate
      cases phase with
      | running done => exact next_of_executed h hexecuted
      | completed => cases hstate
      | compensating failed result => cases hstate
      | cancelled failed result => cases hstate
      | stuck failed result index answer => cases hstate
  | compensating hstate hrewinds =>
      rw [h.state] at hstate
      cases phase with
      | compensating failed result => exact next_of_rewinds (undoing_of_compensating h) hrewinds
      | running done => cases hstate
      | completed => cases hstate
      | cancelled failed result => cases hstate
      | stuck failed result index answer => cases hstate
  | resting hrunning hcompensating =>
      rw [h.state] at hrunning hcompensating
      rw [List.append_nil]
      exact ⟨phase, .rest hrunning hcompensating, h⟩

/-- In every phase the cursor is in range. -/
theorem SagaPhase.Describes.cursor_le (h : phase.Describes specs saga calls) :
    saga.cursor ≤ specs.length := by
  have hvalid := h.valid
  rw [h.cursor]
  cases phase with
  | running done => exact hvalid
  | completed => exact Nat.le_refl _
  | compensating failed result => exact hvalid.1
  | cancelled failed result => exact Nat.zero_le _
  | stuck failed result index answer =>
      show index + 1 ≤ _
      have hfailed := hvalid.1
      have hindex := hvalid.2.2.1
      omega

/-- The stored saga and the calls are those of a phase. -/
def SagaWorld.InPhase (world : SagaWorld) (definition : SagaDefinition) (id : Id)
    (phase : SagaPhase) : Prop :=
  ∃ saga, world.stored id = some saga ∧ phase.Describes definition.steps saga world.calls

/-- A tick returns, and it is a step of the abstract saga. -/
theorem phase_of_tick {definition : SagaDefinition} {id : Id} {world last : SagaWorld}
    {result : Except SagaStop Unit} (h : world.InPhase definition id phase)
    (htick : Exec SagaWorld.answer (tick id).run world result last) :
    result = .ok () ∧ ∃ next, SagaPhase.Next definition.steps phase next ∧
      last.InPhase definition id next := by
  obtain ⟨saga, hstored, hphase⟩ := h
  rcases saved_of_tick hstored htick with
    ⟨new, after, now, rfl, hprogressed, rfl⟩ | ⟨_, _, hpanic⟩
  · obtain ⟨next, hnext, hafter⟩ := next_of_progressed hphase hprogressed
    refine ⟨rfl, next, hnext, { after with updatedAt := now }, ?_, ?_⟩
    · have hid : id.asStr = after.id.asStr := by
        rw [hprogressed.id_eq]
        exact world.sagas.keyed _ _ hstored
      exact (InMemorySagaStore.get_put _ _ _).trans (if_pos hid)
    · exact ⟨hafter.valid, hafter.state, hafter.cursor, hafter.kept, hafter.steps, hafter.calls⟩
  · have hlength := length_of_specs hphase.kept
    have hcursor := hphase.cursor_le
    omega

/-- A saga starts in the first phase. -/
theorem phase_of_start {tenant : TenantId} {definition : SagaDefinition}
    {timeoutAt : Option Int64} {id : Id} {sagas : InMemorySagaStore} {last : SagaWorld}
    (h : Exec SagaWorld.answer (start tenant definition timeoutAt).run
      { sagas := sagas, calls := [] } (.ok id) last) :
    last.InPhase definition id (.running 0) := by
  obtain ⟨hcalls, now, hstored⟩ := stored_of_start h
  refine ⟨_, hstored, Nat.zero_le _, rfl, rfl, ?_, ?_, hcalls⟩
  · show (definition.steps.map SagaStepState.new).map (·.spec) = definition.steps
    rw [List.map_map]
    exact List.map_id _
  · intro i step hstep
    change (definition.steps.map SagaStepState.new)[i]? = some step at hstep
    rw [List.getElem?_map] at hstep
    obtain ⟨spec, _, rfl⟩ := Option.map_eq_some_iff.mp hstep
    rfl

theorem phase_of_reachable {definition : SagaDefinition} {id : Id} {world : SagaWorld}
    (h : (sagaSystem definition id).Reachable world) :
    ∃ phase, world.InPhase definition id phase := by
  refine TransitionSystem.invariant
    (fun world => ∃ phase, world.InPhase definition id phase) ?_ ?_ h
  · intro world hinit
    obtain ⟨sagas, tenant, timeoutAt, hstart⟩ := hinit
    exact ⟨_, phase_of_start hstart⟩
  · intro source _ target _ hsource hstep
    obtain ⟨phase, hphase⟩ := hsource
    obtain ⟨result, htick⟩ := hstep
    obtain ⟨_, next, _, hnext⟩ := phase_of_tick hphase htick
    exact ⟨next, hnext⟩

end Runs

end Soulbase.Tx
