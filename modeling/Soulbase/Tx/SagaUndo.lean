/-
# What a cancelled saga has undone

Two expectations of a saga that fails. If it ends cancelled, then every step that
had succeeded has been undone, and otherwise it ends failed. And only steps that
had succeeded are undone.

Neither holds of the code. A step that cannot be undone is skipped, and the state
`Failed` that skipping the first step sets is overwritten by the next round. And
undoing starts at the failed step itself. For both, the runs in which the
expectation holds are characterized by the definition and the answers of the
participant.
-/

import Soulbase.Tx.SagaShape

namespace Soulbase.Tx

open Soulbase.Foundation SagaOrchestrator

section Expectations

variable (specs : List SagaStepDef) (calls : List SagaCall)

/-- Some execution has failed. -/
def SomeStepFailed : Prop :=
  ∃ index uri result, .execute index uri result ∈ calls ∧ result ≠ .ok true

/-- A step that has succeeded could not be undone: it has no compensation, or its
compensation has failed. -/
def SomeStepNotUndone : Prop :=
  ∃ index uri spec, .execute index uri (.ok true) ∈ calls ∧ specs[index]? = some spec ∧
    (spec.compensateUri = none ∨
      ∃ uri answer, .compensate index uri answer ∈ calls ∧ answer ≠ .ok true)

/-- A saga that has ended cancelled has undone every step that had succeeded, and a
saga that had to be undone and could not be has ended failed. -/
structure UndoneAtEnd (saga : SagaInstance) : Prop where
  cancelled : saga.state = .cancelled → ∀ index uri step,
    .execute index uri (.ok true) ∈ calls → saga.steps[index]? = some step →
      step.state = .compensated
  failed : SomeStepFailed calls → SomeStepNotUndone specs calls → saga.state = .failed

/-- Where a step has failed, all steps before it can be undone, or some compensation
has failed. -/
def UndoableOrStuck : Prop :=
  ∀ failed uri result, .execute failed uri result ∈ calls → result ≠ .ok true →
    (∀ index < failed, ∀ spec, specs[index]? = some spec → spec.compensateUri ≠ none) ∨
      ∃ index uri answer, .compensate index uri answer ∈ calls ∧ answer ≠ .ok true

/-- A step is compensated only after it has been executed successfully. -/
def CompensatesSucceeded : Prop :=
  ∀ earlier later index uri answer,
    calls = earlier ++ .compensate index uri answer :: later →
      ∃ uri, .execute index uri (.ok true) ∈ earlier

/-- A step that has failed has no compensation. -/
def FailedNotUndoable : Prop :=
  ∀ failed uri result spec, .execute failed uri result ∈ calls → result ≠ .ok true →
    specs[failed]? = some spec → spec.compensateUri = none

end Expectations

namespace SagaPhase

variable {specs : List SagaStepDef} {spec : SagaStepDef} {phase : SagaPhase}
variable {failed index : ℕ} {uri : String} {result answer : TxResult Bool}

/-- The step that has failed, with its result. -/
def failure : SagaPhase → Option (ℕ × TxResult Bool)
  | running _ | completed => none
  | compensating failed result | cancelled failed result | stuck failed result _ _ =>
      some (failed, result)

/-- The compensations of a phase. -/
def compensations (specs : List SagaStepDef) : SagaPhase → List SagaCall
  | running _ | completed | compensating .. => []
  | cancelled failed _ => undoneCalls specs (failed + 1) 0
  | stuck failed _ index answer =>
      undoneCalls specs (failed + 1) (index + 1) ++ stuckCall specs index answer

theorem calls_of_failure (h : phase.failure = some (failed, result)) :
    phase.calls specs =
      executedCalls specs failed ++ failedCall specs failed result ++
        phase.compensations specs := by
  cases phase with
  | running done => cases h
  | completed => cases h
  | compensating failed' result' =>
      cases h
      exact (List.append_nil _).symm
  | cancelled failed' result' =>
      cases h
      rfl
  | stuck failed' result' index answer =>
      cases h
      show _ ++ _ ++ _ ++ _ = _
      rw [List.append_assoc]
      rfl

theorem calls_of_no_failure (specs : List SagaStepDef) (h : phase.failure = none) :
    ∃ count, phase.calls specs = executedCalls specs count := by
  cases phase with
  | running done => exact ⟨done, rfl⟩
  | completed => exact ⟨_, rfl⟩
  | compensating failed result => cases h
  | cancelled failed result => cases h
  | stuck failed result index answer => cases h

/-- The failed step is a step. -/
theorem Valid.of_failure (hvalid : phase.Valid specs)
    (h : phase.failure = some (failed, result)) :
    failed < specs.length ∧ result ≠ .ok true := by
  cases phase with
  | running done => cases h
  | completed => cases h
  | compensating failed' result' =>
      cases h
      exact hvalid
  | cancelled failed' result' =>
      cases h
      exact hvalid
  | stuck failed' result' index answer =>
      cases h
      exact ⟨hvalid.1, hvalid.2.1⟩

/-- The compensations are calls to compensate steps from the failed one downwards,
where they can be undone. -/
theorem mem_compensations (hvalid : phase.Valid specs)
    (h : phase.failure = some (failed, result)) {call : SagaCall}
    (hcall : call ∈ phase.compensations specs) :
    ∃ index spec uri answer, specs[index]? = some spec ∧ spec.compensateUri = some uri ∧
      call = .compensate index uri answer ∧ index ≤ failed := by
  have hundone : ∀ bottom, call ∈ undoneCalls specs (failed + 1) bottom →
      ∃ index spec uri answer, specs[index]? = some spec ∧ spec.compensateUri = some uri ∧
        call = .compensate index uri answer ∧ index ≤ failed := by
    intro bottom hmem
    obtain ⟨index, spec, uri, hspec, huri, hcall, _, htop⟩ := mem_undoneCalls.mp hmem
    exact ⟨index, spec, uri, .ok true, hspec, huri, hcall, Nat.le_of_lt_succ htop⟩
  cases phase with
  | running done => cases hcall
  | completed => cases hcall
  | compensating failed' result' => cases hcall
  | cancelled failed' result' =>
      cases h
      exact hundone 0 hcall
  | stuck failed' result' index answer =>
      cases h
      rcases List.mem_append.mp hcall with hmem | hmem
      · exact hundone (index + 1) hmem
      · obtain ⟨_, _, hle, _, spec, uri, hspec, huri⟩ := hvalid
        rw [stuckCall_eq hspec huri] at hmem
        exact ⟨index, spec, uri, answer, hspec, huri, List.mem_singleton.mp hmem, hle⟩

/-- An execution is a successful one before the failed step, or that of the failed
step. -/
theorem execute_of_mem (hvalid : phase.Valid specs)
    (h : phase.failure = some (failed, result))
    (hcall : .execute index uri answer ∈ phase.calls specs) :
    index < failed ∧ answer = .ok true ∨ index = failed ∧ answer = result := by
  rw [calls_of_failure h] at hcall
  rcases List.mem_append.mp hcall with hmem | hmem
  · rcases List.mem_append.mp hmem with hmem | hmem
    · obtain ⟨k, hk, spec, _, heq⟩ := mem_executedCalls.mp hmem
      cases heq
      exact .inl ⟨hk, rfl⟩
    · obtain ⟨hfailed, _⟩ := hvalid.of_failure h
      rw [failedCall_eq (List.getElem?_eq_getElem hfailed)] at hmem
      cases List.mem_singleton.mp hmem
      exact .inr ⟨rfl, rfl⟩
  · obtain ⟨_, _, _, _, _, _, heq, _⟩ := mem_compensations hvalid h hmem
    cases heq

/-- The steps that have succeeded come before the failed one. -/
theorem lt_of_mem_succeeded (hvalid : phase.Valid specs)
    (h : phase.failure = some (failed, result))
    (hcall : .execute index uri (.ok true) ∈ phase.calls specs) : index < failed := by
  obtain ⟨_, hresult⟩ := hvalid.of_failure h
  rcases execute_of_mem hvalid h hcall with ⟨hlt, _⟩ | ⟨_, heq⟩
  · exact hlt
  · exact absurd heq.symm hresult

/-- No other step has failed. -/
theorem eq_of_mem_failed (hvalid : phase.Valid specs)
    (h : phase.failure = some (failed, result))
    (hcall : .execute index uri answer ∈ phase.calls specs) (hanswer : answer ≠ .ok true) :
    index = failed := by
  rcases execute_of_mem hvalid h hcall with ⟨_, hok⟩ | ⟨heq, _⟩
  · exact absurd hok hanswer
  · exact heq

/-- Without a failure all executions have succeeded. -/
theorem execute_of_mem_of_no_failure (h : phase.failure = none)
    (hcall : .execute index uri answer ∈ phase.calls specs) : answer = .ok true := by
  obtain ⟨count, hcalls⟩ := calls_of_no_failure specs h
  rw [hcalls] at hcall
  obtain ⟨_, _, _, _, heq⟩ := mem_executedCalls.mp hcall
  cases heq
  rfl

/-- The failed step has been executed. -/
theorem mem_calls_failed (hvalid : phase.Valid specs)
    (h : phase.failure = some (failed, result)) :
    ∃ uri, .execute failed uri result ∈ phase.calls specs := by
  obtain ⟨hfailed, _⟩ := hvalid.of_failure h
  rw [calls_of_failure h, failedCall_eq (List.getElem?_eq_getElem hfailed)]
  exact ⟨_, List.mem_append_left _ (List.mem_append_right _ List.mem_cons_self)⟩

/-- So have the steps before it. -/
theorem mem_calls_succeeded (h : phase.failure = some (failed, result))
    (hindex : index < failed) (hspec : specs[index]? = some spec) :
    .execute index spec.actionUri (.ok true) ∈ phase.calls specs := by
  rw [calls_of_failure h]
  apply List.mem_append_left
  apply List.mem_append_left
  exact mem_executedCalls.mpr ⟨index, hindex, spec, hspec, rfl⟩

/-- A compensation in the calls is one of the compensations. -/
theorem compensate_of_mem (hvalid : phase.Valid specs)
    (hcall : .compensate index uri answer ∈ phase.calls specs) :
    (∃ failed result, phase.failure = some (failed, result)) ∧
      .compensate index uri answer ∈ phase.compensations specs := by
  cases h : phase.failure with
  | none =>
      obtain ⟨count, hcalls⟩ := calls_of_no_failure specs h
      rw [hcalls] at hcall
      obtain ⟨_, _, _, _, heq⟩ := mem_executedCalls.mp hcall
      cases heq
  | some failure =>
      obtain ⟨failed, result⟩ := failure
      refine ⟨⟨failed, result, rfl⟩, ?_⟩
      rw [calls_of_failure h] at hcall
      rcases List.mem_append.mp hcall with hmem | hmem
      · rcases List.mem_append.mp hmem with hmem | hmem
        · obtain ⟨_, _, _, _, heq⟩ := mem_executedCalls.mp hmem
          cases heq
        · obtain ⟨hfailed, _⟩ := hvalid.of_failure h
          rw [failedCall_eq (List.getElem?_eq_getElem hfailed)] at hmem
          cases List.mem_singleton.mp hmem
      · exact hmem

end SagaPhase

/-! ## Cancelled and undone -/

section Undone

variable {definition : SagaDefinition} {id : Id} {world : SagaWorld} {saga : SagaInstance}
variable {specs : List SagaStepDef} {calls : List SagaCall} {phase : SagaPhase}

/-- Without a failure there is nothing to undo. -/
theorem undoneAtEnd_of_no_failure (h : phase.Describes specs saga calls)
    (hfailure : phase.failure = none) :
    UndoneAtEnd specs calls saga ∧ UndoableOrStuck specs calls := by
  have hsucceeded : ∀ index uri result, SagaCall.execute index uri result ∈ calls →
      result = .ok true := by
    intro index uri result hcall
    rw [h.calls] at hcall
    exact SagaPhase.execute_of_mem_of_no_failure hfailure hcall
  refine ⟨⟨?_, ?_⟩, ?_⟩
  · intro hcancelled
    rw [h.state] at hcancelled
    cases phase with
    | running _ | completed => cases hcancelled
    | compensating _ _ | cancelled _ _ | stuck _ _ _ _ => cases hfailure
  · intro hfailed
    obtain ⟨index, uri, result, hcall, hresult⟩ := hfailed
    exact absurd (hsucceeded _ _ _ hcall) hresult
  · intro failed uri result hcall hresult
    exact absurd (hsucceeded _ _ _ hcall) hresult

section Cancelled

variable {failed : ℕ} {result : TxResult Bool}

/-- No compensation of a cancelled saga has failed. -/
theorem answer_of_cancelled (h : (SagaPhase.cancelled failed result).Describes specs saga calls)
    {index : ℕ} {uri : String} {answer : TxResult Bool}
    (hcall : .compensate index uri answer ∈ calls) : answer = .ok true := by
  rw [h.calls] at hcall
  obtain ⟨_, hmem⟩ := SagaPhase.compensate_of_mem h.valid hcall
  obtain ⟨_, _, _, _, _, heq, _⟩ := mem_undoneCalls.mp hmem
  cases heq
  rfl

/-- The steps before the failed one are compensated if they can be undone. -/
theorem step_of_cancelled (h : (SagaPhase.cancelled failed result).Describes specs saga calls)
    {index : ℕ} {step : SagaStepState} (hstep : saga.steps[index]? = some step)
    (hlt : index < failed) :
    step.state = if step.spec.compensateUri.isSome then .compensated else .skipped := by
  rw [h.steps index step hstep]
  show undoneState failed 0 index step.spec = _
  rw [undoneState, if_neg (Nat.not_lt_zero _), if_pos (Nat.le_of_lt hlt)]

theorem undoableOrStuck_of_cancelled
    (h : (SagaPhase.cancelled failed result).Describes specs saga calls)
    (hend : UndoneAtEnd specs calls saga) : UndoableOrStuck specs calls := by
  intro failed' uri result' hcall hresult
  apply Or.inl
  intro index hindex spec hspec huri
  rw [h.calls] at hcall
  have hlt : index < failed := by
    rw [← SagaPhase.eq_of_mem_failed h.valid rfl hcall hresult]
    exact hindex
  obtain ⟨step, hstep, hstepSpec⟩ : ∃ step, saga.steps[index]? = some step ∧
      step.spec = spec := by
    rw [← h.kept, List.getElem?_map] at hspec
    exact Option.map_eq_some_iff.mp hspec
  have hexecuted : .execute index spec.actionUri (.ok true) ∈ calls := by
    rw [h.calls]
    exact SagaPhase.mem_calls_succeeded rfl hlt hspec
  have hcompensated := hend.cancelled h.state index _ step hexecuted hstep
  rw [step_of_cancelled h hstep hlt, hstepSpec, huri] at hcompensated
  cases hcompensated

theorem undoneAtEnd_of_cancelled
    (h : (SagaPhase.cancelled failed result).Describes specs saga calls)
    (hundoable : UndoableOrStuck specs calls) : UndoneAtEnd specs calls saga := by
  have hall : ∀ index < failed, ∀ spec, specs[index]? = some spec →
      spec.compensateUri ≠ none := by
    obtain ⟨uri, hcall⟩ := SagaPhase.mem_calls_failed h.valid rfl
    rw [← h.calls] at hcall
    rcases hundoable failed uri result hcall h.valid.2 with
      hall | ⟨index, uri, answer, hcompensate, hanswer⟩
    · exact hall
    · exact absurd (answer_of_cancelled h hcompensate) hanswer
  have hbefore : ∀ index uri, .execute index uri (.ok true) ∈ calls → index < failed := by
    intro index uri hcall
    rw [h.calls] at hcall
    exact SagaPhase.lt_of_mem_succeeded h.valid rfl hcall
  refine ⟨?_, ?_⟩
  · intro _ index uri step hcall hstep
    have hindex := hbefore index uri hcall
    rw [step_of_cancelled h hstep hindex]
    apply if_pos
    apply Option.isSome_iff_ne_none.mpr
    exact hall index hindex step.spec (spec_of_step h.kept hstep)
  · intro _ hnot
    obtain ⟨index, uri, spec, hcall, hspec, hreason⟩ := hnot
    rcases hreason with huri | ⟨uri', answer, hcompensate, hanswer⟩
    · exact absurd huri (hall index (hbefore index uri hcall) spec hspec)
    · exact absurd (answer_of_cancelled h hcompensate) hanswer

end Cancelled

/-- A saga that is stuck is failed, and a compensation has failed. -/
theorem undoneAtEnd_of_stuck {failed index : ℕ} {result answer : TxResult Bool}
    (h : (SagaPhase.stuck failed result index answer).Describes specs saga calls) :
    UndoneAtEnd specs calls saga ∧ UndoableOrStuck specs calls := by
  have hfailed : saga.state = .failed := h.state
  obtain ⟨_, _, _, hanswer, spec, uri, hspec, huri⟩ := h.valid
  refine ⟨⟨?_, ?_⟩, ?_⟩
  · intro hcancelled
    rw [hfailed] at hcancelled
    cases hcancelled
  · intro _ _
    exact hfailed
  · intro _ _ _ _ _
    refine .inr ⟨index, uri, answer, ?_, hanswer⟩
    rw [h.calls]
    show _ ∈ _ ++ stuckCall specs index answer
    rw [stuckCall_eq hspec huri]
    exact List.mem_append_right _ List.mem_cons_self

/-- A saga that has ended has undone what it should have, if and only if all steps
before a failed one can be undone or some compensation has failed. -/
theorem undoneAtEnd_iff (hreach : (sagaSystem definition id).Reachable world)
    (hstored : world.stored id = some saga) (hfinal : saga.state.isFinal) :
    UndoneAtEnd definition.steps world.calls saga ↔
      UndoableOrStuck definition.steps world.calls := by
  obtain ⟨phase, hphase⟩ := describes_of_reachable hreach hstored
  rw [hphase.state] at hfinal
  cases phase with
  | running done => simp [SagaState.isFinal, SagaPhase.state] at hfinal
  | compensating failed result => simp [SagaState.isFinal, SagaPhase.state] at hfinal
  | completed =>
      obtain ⟨hend, hundoable⟩ := undoneAtEnd_of_no_failure hphase rfl
      exact iff_of_true hend hundoable
  | cancelled failed result =>
      exact ⟨undoableOrStuck_of_cancelled hphase, undoneAtEnd_of_cancelled hphase⟩
  | stuck failed result index answer =>
      obtain ⟨hend, hundoable⟩ := undoneAtEnd_of_stuck hphase
      exact iff_of_true hend hundoable

end Undone

section OnlySucceeded

variable {definition : SagaDefinition} {id : Id} {world : SagaWorld} {saga : SagaInstance}
variable {specs : List SagaStepDef} {calls : List SagaCall} {phase : SagaPhase}
variable {failed : ℕ} {result : TxResult Bool}

/-- What comes before a call that is not in the first part of a list contains the
first part. -/
theorem mem_earlier {first second earlier later : List SagaCall} {call executed : SagaCall}
    (h : first ++ second = earlier ++ call :: later) (hcall : call ∉ first)
    (hexecuted : executed ∈ first) : executed ∈ earlier := by
  rcases List.append_eq_append_iff.mp h with ⟨middle, rfl, _⟩ | ⟨middle, rfl, hmiddle⟩
  · exact List.mem_append_left _ hexecuted
  · cases middle with
    | nil =>
        rw [List.append_nil] at hexecuted
        exact hexecuted
    | cons head rest =>
        obtain ⟨rfl, _⟩ := List.cons.inj hmiddle
        exact absurd (List.mem_append_right _ List.mem_cons_self) hcall

/-- Without compensations there is nothing to ask of them. -/
theorem compensatesSucceeded_of_no_compensations (hvalid : phase.Valid specs)
    (h : phase.compensations specs = []) : CompensatesSucceeded (phase.calls specs) := by
  intro earlier later index uri answer hcalls
  have hmem : SagaCall.compensate index uri answer ∈ phase.calls specs := by
    rw [hcalls]
    exact List.mem_append_right _ List.mem_cons_self
  obtain ⟨_, hcompensation⟩ := SagaPhase.compensate_of_mem hvalid hmem
  rw [h] at hcompensation
  cases hcompensation

/-- A failed step that is compensated has never succeeded. -/
theorem failedNotUndoable_of_compensatesSucceeded (hvalid : phase.Valid specs)
    (hfailure : phase.failure = some (failed, result))
    (hfirst : ∀ spec uri, specs[failed]? = some spec → spec.compensateUri = some uri →
      ∃ answer, .compensate failed uri answer ∈ phase.compensations specs)
    (hsucceeded : CompensatesSucceeded (phase.calls specs)) :
    FailedNotUndoable specs (phase.calls specs) := by
  intro failed' uri result' spec hcall hresult hspec
  have hfailed := SagaPhase.eq_of_mem_failed hvalid hfailure hcall hresult
  subst hfailed
  cases huri : spec.compensateUri with
  | none => rfl
  | some compensateUri =>
      exfalso
      obtain ⟨answer, hmem⟩ := hfirst spec compensateUri hspec huri
      have hcalls : .compensate failed' compensateUri answer ∈ phase.calls specs := by
        rw [SagaPhase.calls_of_failure hfailure]
        exact List.mem_append_right _ hmem
      obtain ⟨earlier, later, hsplit⟩ := List.append_of_mem hcalls
      obtain ⟨executeUri, hexecuted⟩ := hsucceeded _ _ _ _ _ hsplit
      have hearlier : .execute failed' executeUri (.ok true) ∈ phase.calls specs := by
        rw [hsplit]
        exact List.mem_append_left _ hexecuted
      exact Nat.lt_irrefl _ (SagaPhase.lt_of_mem_succeeded hvalid hfailure hearlier)

/-- The steps before the failed one have succeeded before anything is compensated. -/
theorem compensatesSucceeded_of_failedNotUndoable (hvalid : phase.Valid specs)
    (hfailure : phase.failure = some (failed, result))
    (hnot : FailedNotUndoable specs (phase.calls specs)) :
    CompensatesSucceeded (phase.calls specs) := by
  intro earlier later index uri answer hsplit
  obtain ⟨_, hresult⟩ := hvalid.of_failure hfailure
  have hmem : .compensate index uri answer ∈ phase.calls specs := by
    rw [hsplit]
    exact List.mem_append_right _ List.mem_cons_self
  obtain ⟨_, hcompensation⟩ := SagaPhase.compensate_of_mem hvalid hmem
  obtain ⟨_, spec, _, _, hspec, huri, heq, hle⟩ :=
    SagaPhase.mem_compensations hvalid hfailure hcompensation
  cases heq
  have hne : index ≠ failed := by
    intro hindex
    subst hindex
    obtain ⟨_, hcall⟩ := SagaPhase.mem_calls_failed hvalid hfailure
    rw [hnot _ _ _ spec hcall hresult hspec] at huri
    cases huri
  have hexecuted : .execute index spec.actionUri (.ok true) ∈ executedCalls specs failed :=
    mem_executedCalls.mpr ⟨index, by omega, spec, hspec, rfl⟩
  rw [SagaPhase.calls_of_failure hfailure, List.append_assoc] at hsplit
  refine ⟨_, mem_earlier hsplit ?_ hexecuted⟩
  intro hbad
  obtain ⟨_, _, _, _, heq⟩ := mem_executedCalls.mp hbad
  cases heq

/-- A saga that has been undone has compensated succeeded steps only, if and only if
the failed step cannot be undone. -/
theorem compensatesSucceeded_iff_of_failure (hvalid : phase.Valid specs)
    (hfailure : phase.failure = some (failed, result)) (hfinal : phase.state.isFinal)
    (hfirst : ∀ spec uri, specs[failed]? = some spec → spec.compensateUri = some uri →
      ∃ answer, .compensate failed uri answer ∈ phase.compensations specs) :
    CompensatesSucceeded (phase.calls specs) ↔
      (phase.state.isFinal → FailedNotUndoable specs (phase.calls specs)) := by
  constructor
  · intro hsucceeded _
    exact failedNotUndoable_of_compensatesSucceeded hvalid hfailure hfirst hsucceeded
  · intro hnot
    exact compensatesSucceeded_of_failedNotUndoable hvalid hfailure (hnot hfinal)

/-- Only steps that had succeeded are compensated, if and only if the failed step of
a run that has ended has no compensation. Before the end nothing is compensated. -/
theorem compensatesSucceeded_iff (hreach : (sagaSystem definition id).Reachable world)
    (hstored : world.stored id = some saga) :
    CompensatesSucceeded world.calls ↔
      (saga.state.isFinal → FailedNotUndoable definition.steps world.calls) := by
  obtain ⟨phase, hphase⟩ := describes_of_reachable hreach hstored
  have hvalid := hphase.valid
  rw [hphase.state, hphase.calls]
  cases phase with
  | running done =>
      apply iff_of_true (compensatesSucceeded_of_no_compensations hvalid rfl)
      intro hfinal
      simp [SagaState.isFinal, SagaPhase.state] at hfinal
  | compensating failed result =>
      apply iff_of_true (compensatesSucceeded_of_no_compensations hvalid rfl)
      intro hfinal
      simp [SagaState.isFinal, SagaPhase.state] at hfinal
  | completed =>
      apply iff_of_true (compensatesSucceeded_of_no_compensations hvalid rfl)
      intro _ failed uri result spec hcall hresult
      exact absurd (SagaPhase.execute_of_mem_of_no_failure rfl hcall) hresult
  | cancelled failed result =>
      apply compensatesSucceeded_iff_of_failure hvalid rfl (.inr (.inr rfl))
      intro spec uri hspec huri
      exact ⟨.ok true, mem_undoneCalls.mpr
        ⟨failed, spec, uri, hspec, huri, rfl, Nat.zero_le _, Nat.lt_succ_self _⟩⟩
  | stuck failed result index answer =>
      apply compensatesSucceeded_iff_of_failure hvalid rfl (.inr (.inl rfl))
      intro spec uri hspec huri
      obtain ⟨_, _, hle, _, _⟩ := hvalid
      by_cases hindex : index = failed
      · subst hindex
        refine ⟨answer, List.mem_append_right _ ?_⟩
        rw [stuckCall_eq hspec huri]
        exact List.mem_cons_self
      · refine ⟨.ok true, List.mem_append_left _ (mem_undoneCalls.mpr ?_)⟩
        exact ⟨failed, spec, uri, hspec, huri, rfl, by omega, Nat.lt_succ_self _⟩

end OnlySucceeded

namespace SkippedStep

/-- A first step that cannot be undone and a second one that can. -/
def definition : SagaDefinition where
  name := "fail"
  steps :=
    [{ name := "A", actionUri := "doA", compensateUri := none },
      { name := "B", actionUri := "doB", compensateUri := some "undoB" }]

/-- The saga has been started. -/
def started : SagaWorld := .startWith definition [.newId ⟨"sg"⟩, .clock 0, .quiet]

/-- The first step succeeds. -/
def first : List SagaChoice :=
  [.quiet, .clock 1, .result (.ok true), .clock 2, .clock 3, .quiet]

/-- The second step fails. -/
def second : List SagaChoice :=
  [.quiet, .clock 4, .result (.ok false), .clock 5, .quiet]

/-- The second step is undone and the first one is skipped. -/
def third : List SagaChoice :=
  [.quiet, .result (.ok true), .clock 6, .clock 7, .quiet]

/-- After the first tick. -/
def executed : SagaWorld := (started.tickWith ⟨"sg"⟩ first).2

/-- After the second tick. -/
def failed : SagaWorld := (executed.tickWith ⟨"sg"⟩ second).2

/-- After the third tick. -/
def world : SagaWorld := (failed.tickWith ⟨"sg"⟩ third).2

/-- The saga that is stored then. -/
def saga : SagaInstance := (world.stored ⟨"sg"⟩).getD (newInstance ⟨"t"⟩ definition none ⟨"sg"⟩ 0)

theorem reachable_world : (sagaSystem definition ⟨"sg"⟩).Reachable world := by
  have hstart : (sagaSystem definition ⟨"sg"⟩).init started :=
    ⟨.empty, ⟨"t"⟩, none, exec_of_runWith [.newId ⟨"sg"⟩, .clock 0, .quiet] rfl⟩
  have hfirst : (sagaSystem definition ⟨"sg"⟩).step started () executed :=
    ⟨_, exec_of_runWith first rfl⟩
  have hsecond : (sagaSystem definition ⟨"sg"⟩).step executed () failed :=
    ⟨_, exec_of_runWith second rfl⟩
  have hthird : (sagaSystem definition ⟨"sg"⟩).step failed () world :=
    ⟨_, exec_of_runWith third rfl⟩
  exact .step (.step (.step (.init hstart) hfirst) hsecond) hthird

end SkippedStep

/-- A saga of the definition that has ended has undone what it should have. -/
def EndsUndone (definition : SagaDefinition) (id : Id) : Prop :=
  ∀ world saga, (sagaSystem definition id).Reachable world → world.stored id = some saga →
    saga.state.isFinal → UndoneAtEnd definition.steps world.calls saga

/-- A saga of the definition compensates only steps that had succeeded. -/
def CompensatesOnlySucceeded (definition : SagaDefinition) (id : Id) : Prop :=
  ∀ world, (sagaSystem definition id).Reachable world → CompensatesSucceeded world.calls

/-- The saga is cancelled, and its first step is not undone. -/
theorem not_endsUndone_skippedStep : ¬EndsUndone SkippedStep.definition ⟨"sg"⟩ := by
  intro h
  have hend := h _ SkippedStep.saga SkippedStep.reachable_world rfl (.inr (.inr rfl))
  have hcompensated := hend.cancelled rfl 0 "doA" _ List.mem_cons_self rfl
  exact absurd hcompensated (by decide)

theorem undoneAtEnd_iff_skippedStep :
    UndoneAtEnd SkippedStep.definition.steps SkippedStep.world.calls SkippedStep.saga ↔
      UndoableOrStuck SkippedStep.definition.steps SkippedStep.world.calls :=
  undoneAtEnd_iff SkippedStep.reachable_world rfl (.inr (.inr rfl))

/-- The second step is compensated, and has never succeeded. -/
theorem not_compensatesOnlySucceeded_skippedStep :
    ¬CompensatesOnlySucceeded SkippedStep.definition ⟨"sg"⟩ := by
  intro h
  obtain ⟨uri, hexecuted⟩ := h _ SkippedStep.reachable_world
    [.execute 0 "doA" (.ok true), .execute 1 "doB" (.ok false)] [] 1 "undoB" (.ok true) rfl
  simp at hexecuted

theorem compensatesSucceeded_iff_skippedStep :
    CompensatesSucceeded SkippedStep.world.calls ↔
      (SkippedStep.saga.state.isFinal →
        FailedNotUndoable SkippedStep.definition.steps SkippedStep.world.calls) :=
  compensatesSucceeded_iff SkippedStep.reachable_world rfl

end Soulbase.Tx
