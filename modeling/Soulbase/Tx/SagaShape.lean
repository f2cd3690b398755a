/-
# The shape of a saga run

Whatever the participant answers, a run of ticks executes the steps in order
until one fails or all have succeeded, and then undoes steps downwards until one
cannot be undone. The cursor stays in range, no tick panics or spins, and the
three final states are final.
-/

import Soulbase.Tx.SagaPhase

namespace Soulbase.Tx

open Soulbase.Foundation SagaOrchestrator

/-- The result of a call. -/
def SagaCall.result : SagaCall → TxResult Bool
  | execute _ _ result | compensate _ _ result => result

/-- The step that a call is for. -/
def SagaCall.index : SagaCall → ℕ
  | execute index _ _ | compensate index _ _ => index

/-- The steps are executed from the first on, each once, and all but possibly the
last execution have succeeded. -/
structure ExecutesInOrder (specs : List SagaStepDef) (executes : List SagaCall) : Prop where
  each : ∀ k call, executes[k]? = some call → ∃ spec result, specs[k]? = some spec ∧
    call = SagaCall.execute k spec.actionUri result
  succeeded : ∀ call ∈ executes.dropLast, call.result = .ok true

/-- Steps are undone only after an execution has failed, from that step or one
below it downwards, each at most once and only where it can be, and all but
possibly the last undoing have succeeded. -/
structure UndoesBelow (specs : List SagaStepDef) (executes compensations : List SagaCall) :
    Prop where
  afterFailure : compensations ≠ [] →
    ∃ call, executes.getLast? = some call ∧ call.result ≠ .ok true
  each : ∀ call ∈ compensations, ∃ index spec uri result, specs[index]? = some spec ∧
    spec.compensateUri = some uri ∧ call = .compensate index uri result ∧
      index < executes.length
  decreasing : compensations.Pairwise fun first second => second.index < first.index
  succeeded : ∀ call ∈ compensations.dropLast, call.result = .ok true

/-- The calls of the participant in the course of a run. -/
def CallsInOrder (specs : List SagaStepDef) (calls : List SagaCall) : Prop :=
  ∃ executes compensations, calls = executes ++ compensations ∧
    ExecutesInOrder specs executes ∧ UndoesBelow specs executes compensations

/-- The states that the orchestrator leaves a saga in. -/
def SagaState.isFinal (state : SagaState) : Prop :=
  state = .completed ∨ state = .failed ∨ state = .cancelled

/-- What holds of every run of a saga. -/
structure SagaShape (definition : SagaDefinition) (id : Id) : Prop where
  /-- The saga is stored, with the steps of its definition and the cursor in
  range. -/
  saved : ∀ world, (sagaSystem definition id).Reachable world →
    ∃ saga, world.stored id = some saga ∧ saga.steps.map (·.spec) = definition.steps ∧
      saga.cursor ≤ definition.steps.length
  /-- While it is running, the steps below the cursor have succeeded and the others
  are ready. -/
  running : ∀ world saga, (sagaSystem definition id).Reachable world →
    world.stored id = some saga → saga.state = .running →
      ∀ i step, saga.steps[i]? = some step →
        step.state = if i < saga.cursor then .succeeded else .ready
  calls : ∀ world, (sagaSystem definition id).Reachable world →
    CallsInOrder definition.steps world.calls
  /-- It is completed only after all steps have been executed successfully. -/
  completed : ∀ world saga, (sagaSystem definition id).Reachable world →
    world.stored id = some saga → saga.state = .completed →
      ∀ i spec, definition.steps[i]? = some spec →
        .execute i spec.actionUri (.ok true) ∈ world.calls
  /-- The final states are never left. -/
  final : ∀ world saga after, (sagaSystem definition id).Reachable world →
    world.stored id = some saga → saga.state.isFinal →
      (sagaSystem definition id).step world () after →
        ∃ next, after.stored id = some next ∧ next.state = saga.state
  /-- A tick can be made, and it returns: no index is out of range and the loop
  ends. -/
  returns : ∀ world, (sagaSystem definition id).Reachable world →
    (∃ after, Exec SagaWorld.answer (tick id).run world (.ok ()) after) ∧
      ∀ result after, Exec SagaWorld.answer (tick id).run world result after →
        result = .ok ()

section Calls

variable {specs : List SagaStepDef} {failed : ℕ} {result : TxResult Bool}

theorem executesInOrder_executedCalls (count : ℕ) :
    ExecutesInOrder specs (executedCalls specs count) := by
  constructor
  case each =>
    intro k call hcall
    obtain ⟨_, spec, hspec, hexecute⟩ := getElem?_executedCalls.mp hcall
    exact ⟨spec, .ok true, hspec, hexecute⟩
  case succeeded =>
    intro call hcall
    obtain ⟨_, _, spec, _, rfl⟩ := mem_executedCalls.mp (List.dropLast_subset _ hcall)
    rfl

theorem executesInOrder_failedCall (hfailed : failed < specs.length) :
    ExecutesInOrder specs (executedCalls specs failed ++ failedCall specs failed result) := by
  have hspec : specs[failed]? = some specs[failed] := List.getElem?_eq_getElem hfailed
  have hlength := length_executedCalls (Nat.le_of_lt hfailed)
  rw [failedCall_eq hspec]
  constructor
  case each =>
    intro k call hcall
    rw [List.getElem?_append, hlength] at hcall
    split at hcall
    case isTrue => exact (executesInOrder_executedCalls failed).each k call hcall
    case isFalse hk =>
      obtain ⟨hzero, hget⟩ := List.getElem?_eq_some_iff.mp hcall
      have hkey : k = failed := by
        rw [List.length_singleton] at hzero
        omega
      subst hkey
      rw [List.getElem_singleton] at hget
      exact ⟨_, result, hspec, hget.symm⟩
  case succeeded =>
    intro call hcall
    rw [List.dropLast_concat] at hcall
    obtain ⟨_, _, spec, _, rfl⟩ := mem_executedCalls.mp hcall
    rfl

/-- Nothing has been undone yet. -/
theorem undoesBelow_nil (executes : List SagaCall) : UndoesBelow specs executes [] :=
  ⟨fun h => absurd rfl h, nofun, .nil, nofun⟩

theorem pairwise_undoneCalls (top bottom : ℕ) :
    (undoneCalls specs top bottom).Pairwise fun first second =>
      second.index < first.index := by
  have hzip : specs.zipIdx.Pairwise fun first second => first.2 < second.2 := by
    rw [← List.pairwise_map (f := Prod.snd) (R := (· < ·)), List.zipIdx_map_snd]
    exact List.pairwise_lt_range'
  have hpart := (hzip.sublist (List.take_sublist top _)).sublist (List.drop_sublist bottom _)
  apply List.Pairwise.filterMap _ _ (List.pairwise_reverse.mpr hpart)
  intro first second hlt call hcall call' hcall'
  obtain ⟨uri, _, rfl⟩ := Option.map_eq_some_iff.mp hcall
  obtain ⟨uri', _, rfl⟩ := Option.map_eq_some_iff.mp hcall'
  exact hlt

/-- The calls that undo steps from some step on, with a last one that may have
failed. -/
theorem undoesBelow_undoneCalls (hfailed : failed < specs.length) (hresult : result ≠ .ok true)
    {bottom : ℕ} {lastCall : List SagaCall}
    (hlast : lastCall = [] ∨ ∃ index spec uri answer, index < bottom ∧ index ≤ failed ∧
      specs[index]? = some spec ∧ spec.compensateUri = some uri ∧
        lastCall = [.compensate index uri answer]) :
    UndoesBelow specs (executedCalls specs failed ++ failedCall specs failed result)
      (undoneCalls specs (failed + 1) bottom ++ lastCall) := by
  have hspec : specs[failed]? = some specs[failed] := List.getElem?_eq_getElem hfailed
  have hlength := length_executedCalls (Nat.le_of_lt hfailed)
  rw [failedCall_eq hspec]
  constructor
  case afterFailure =>
    intro _
    exact ⟨_, List.getLast?_concat, hresult⟩
  case each =>
    intro call hcall
    rw [List.length_append, hlength, List.length_singleton]
    rcases List.mem_append.mp hcall with hundone | hmem
    · obtain ⟨index, spec, uri, hindex, huri, rfl, _, htop⟩ := mem_undoneCalls.mp hundone
      exact ⟨index, spec, uri, .ok true, hindex, huri, rfl, htop⟩
    · rcases hlast with rfl | ⟨index, spec, uri, answer, _, hle, hindex, huri, rfl⟩
      · cases hmem
      · cases List.mem_singleton.mp hmem
        exact ⟨index, spec, uri, answer, hindex, huri, rfl, Nat.lt_succ_of_le hle⟩
  case decreasing =>
    rcases hlast with rfl | ⟨index, spec, uri, answer, hlt, _, _, _, rfl⟩
    · rw [List.append_nil]
      exact pairwise_undoneCalls _ _
    · apply List.pairwise_append.mpr
      refine ⟨pairwise_undoneCalls _ _, List.pairwise_singleton _ _, ?_⟩
      intro first hfirst second hsecond
      cases List.mem_singleton.mp hsecond
      obtain ⟨upper, _, _, _, _, rfl, hbottom, _⟩ := mem_undoneCalls.mp hfirst
      exact Nat.lt_of_lt_of_le hlt hbottom
  case succeeded =>
    intro call hcall
    have hundone : call ∈ undoneCalls specs (failed + 1) bottom := by
      rcases hlast with rfl | ⟨_, _, _, _, _, _, _, _, rfl⟩
      · rw [List.append_nil] at hcall
        exact List.dropLast_subset _ hcall
      · rw [List.dropLast_concat] at hcall
        exact hcall
    obtain ⟨_, _, _, _, _, rfl, _⟩ := mem_undoneCalls.mp hundone
    rfl

theorem SagaPhase.callsInOrder {phase : SagaPhase} (hvalid : phase.Valid specs) :
    CallsInOrder specs (phase.calls specs) := by
  cases phase with
  | running done =>
      exact ⟨_, [], (List.append_nil _).symm, executesInOrder_executedCalls _,
        undoesBelow_nil _⟩
  | completed =>
      exact ⟨_, [], (List.append_nil _).symm, executesInOrder_executedCalls _,
        undoesBelow_nil _⟩
  | compensating failed result =>
      exact ⟨_, [], (List.append_nil _).symm, executesInOrder_failedCall hvalid.1,
        undoesBelow_nil _⟩
  | cancelled failed result =>
      refine ⟨_, undoneCalls specs (failed + 1) 0 ++ [], ?_,
        executesInOrder_failedCall hvalid.1,
        undoesBelow_undoneCalls hvalid.1 hvalid.2 (.inl rfl)⟩
      rw [List.append_nil]
      rfl
  | stuck failed result index answer =>
      obtain ⟨hfailed, hresult, hle, _, spec, uri, hspec, huri⟩ := hvalid
      refine ⟨_, undoneCalls specs (failed + 1) (index + 1) ++ stuckCall specs index answer, ?_,
        executesInOrder_failedCall hfailed,
        undoesBelow_undoneCalls hfailed hresult (.inr ⟨index, spec, uri, answer,
          Nat.lt_succ_self _, hle, hspec, huri, stuckCall_eq hspec huri⟩)⟩
      rw [← List.append_assoc]
      rfl

end Calls

theorem SagaPhase.Next.state_of_final {specs : List SagaStepDef} {phase next : SagaPhase}
    (h : Next specs phase next) (hfinal : phase.state.isFinal) : next.state = phase.state := by
  cases h with
  | rest _ _ => rfl
  | finish | execute _ | executeLast _ | fail _ _ | undo | giveUp =>
      simp [SagaState.isFinal, SagaPhase.state] at hfinal

/-- The phase of a reachable world, read from the stored saga. -/
theorem describes_of_reachable {definition : SagaDefinition} {id : Id} {world : SagaWorld}
    {saga : SagaInstance} (hreach : (sagaSystem definition id).Reachable world)
    (hstored : world.stored id = some saga) :
    ∃ phase : SagaPhase, phase.Describes definition.steps saga world.calls := by
  obtain ⟨phase, found, hfound, hphase⟩ := phase_of_reachable hreach
  rw [hstored] at hfound
  cases hfound
  exact ⟨phase, hphase⟩

/-- Every run of a saga has this shape. -/
theorem sagaShape (definition : SagaDefinition) (id : Id) : SagaShape definition id where
  saved := by
    intro world hreach
    obtain ⟨phase, saga, hstored, hphase⟩ := phase_of_reachable hreach
    exact ⟨saga, hstored, hphase.kept, hphase.cursor_le⟩
  running := by
    intro world saga hreach hstored hrunning i step hstep
    obtain ⟨phase, hphase⟩ := describes_of_reachable hreach hstored
    have hstate := hphase.state
    rw [hrunning] at hstate
    cases phase with
    | running done =>
        have hcursor : saga.cursor = done := hphase.cursor
        rw [hcursor]
        exact hphase.steps i step hstep
    | completed | compensating _ _ | cancelled _ _ | stuck _ _ _ _ => cases hstate
  calls := by
    intro world hreach
    obtain ⟨phase, saga, _, hphase⟩ := phase_of_reachable hreach
    rw [hphase.calls]
    exact phase.callsInOrder hphase.valid
  completed := by
    intro world saga hreach hstored hcompleted i spec hspec
    obtain ⟨phase, hphase⟩ := describes_of_reachable hreach hstored
    have hstate := hphase.state
    rw [hcompleted] at hstate
    cases phase with
    | completed =>
        have hlt := (List.getElem?_eq_some_iff.mp hspec).1
        rw [hphase.calls]
        exact mem_executedCalls.mpr ⟨i, hlt, spec, hspec, rfl⟩
    | running _ | compensating _ _ | cancelled _ _ | stuck _ _ _ _ => cases hstate
  final := by
    intro world saga after hreach hstored hfinal hstep
    obtain ⟨phase, hphase⟩ := describes_of_reachable hreach hstored
    obtain ⟨result, htick⟩ := hstep
    obtain ⟨_, next, hnext, found, hfound, hafter⟩ := phase_of_tick ⟨saga, hstored, hphase⟩ htick
    rw [hphase.state] at hfinal ⊢
    exact ⟨found, hfound, hafter.state.trans (hnext.state_of_final hfinal)⟩
  returns := by
    intro world hreach
    obtain ⟨phase, hphase⟩ := phase_of_reachable hreach
    have hreturns : ∀ result after, Exec SagaWorld.answer (tick id).run world result after →
        result = .ok () := fun _ _ htick => (phase_of_tick hphase htick).1
    obtain ⟨result, after, htick⟩ := exists_exec SagaWorld.answers (tick id).run world
    rw [hreturns result after htick] at htick
    exact ⟨⟨after, htick⟩, hreturns⟩

end Soulbase.Tx
