/-
# Sagas whose ticks are cut off

A tick may end anywhere: its future may be dropped while it waits for the store, the
clock or the participant. What it had called by then is not undone, and the saga is
stored as before, unless the tick had already saved it. So steps are executed and
compensated at least once, and `sagaAtLeastOnce` says how far that goes.

The stored sagas are always those of a run without such ticks, whose calls the
participants have seen in this order, among others. The others are repetitions: every
tick that was cut off accounts for at most one more call of each step in each
direction, since a tick that runs to its end makes no call twice, and neither does a
part of one. And whatever has been cut off, the next tick that is not returns normally.
-/

import Soulbase.Tx.SagaTicks

namespace Soulbase.Tx

open Soulbase.Foundation SagaOrchestrator

/-- What the participant is asked to do. -/
inductive SagaWork
  | execute (index : ℕ)
  | compensate (index : ℕ)
  deriving DecidableEq

/-- What a call asks for. -/
def SagaCall.work : SagaCall → SagaWork
  | execute index _ _ => .execute index
  | compensate index _ _ => .compensate index

section Works

variable {specs : List SagaStepDef} {calls : List SagaCall}

theorem ExecutesInOrder.works (h : ExecutesInOrder specs calls) :
    calls.map (·.work) = (List.range calls.length).map SagaWork.execute := by
  apply List.ext_getElem?
  intro k
  rw [List.getElem?_map, List.getElem?_map]
  cases hcall : calls[k]? with
  | none =>
      have hlength := List.getElem?_eq_none_iff.mp hcall
      rw [List.getElem?_eq_none_iff.mpr (by rwa [List.length_range])]
      rfl
  | some call =>
      obtain ⟨spec, result, _, rfl⟩ := h.each k call hcall
      rw [List.getElem?_range (List.getElem?_eq_some_iff.mp hcall).1]
      rfl

/-- A run without interruption asks for nothing twice. -/
theorem nodup_works_of_callsInOrder (h : CallsInOrder specs calls) :
    (calls.map (·.work)).Nodup := by
  obtain ⟨executes, compensations, rfl, horder, hundoes⟩ := h
  have hwork : ∀ call ∈ compensations, ∃ index,
      call.work = .compensate index ∧ call.index = index := by
    intro call hcall
    obtain ⟨index, _, _, _, _, _, rfl, _⟩ := hundoes.each call hcall
    exact ⟨index, rfl, rfl⟩
  rw [List.map_append, List.nodup_append, horder.works]
  refine ⟨?_, ?_, ?_⟩
  · exact List.nodup_range.map fun _ _ hsame => by cases hsame; rfl
  · rw [List.Nodup, List.pairwise_map]
    refine hundoes.decreasing.imp_of_mem ?_
    intro first second hfirst hsecond hbelow hsame
    obtain ⟨i, hi, hindex⟩ := hwork first hfirst
    obtain ⟨j, hj, hindex'⟩ := hwork second hsecond
    rw [hi, hj] at hsame
    cases hsame
    omega
  · intro first hfirst second hsecond hsame
    obtain ⟨index, _, rfl⟩ := List.mem_map.mp hfirst
    obtain ⟨call, hcall, rfl⟩ := List.mem_map.mp hsecond
    obtain ⟨other, hother, _⟩ := hwork call hcall
    rw [hother] at hsame
    cases hsame

/-- How often something is asked for. -/
def timesAsked (calls : List SagaCall) (work : SagaWork) : ℕ := calls.countP (·.work = work)

theorem timesAsked_append (first second : List SagaCall) (work : SagaWork) :
    timesAsked (first ++ second) work = timesAsked first work + timesAsked second work :=
  List.countP_append

theorem timesAsked_le_one (h : (calls.map (·.work)).Nodup) (work : SagaWork) :
    timesAsked calls work ≤ 1 := by
  have hcount := List.nodup_iff_count_le_one.mp h work
  rw [List.count_eq_countP, List.countP_map] at hcount
  refine Nat.le_trans (List.countP_mono_left ?_) hcount
  intro call _ hwork
  simpa using hwork

end Works

/-- How a tick ends. -/
inductive TickEnd
  /-- It returns. -/
  | returned
  /-- It is dropped at some call, or at its very end. -/
  | cutOff
  deriving DecidableEq

/-- A saga of a definition, started in any store, and ticks of it one after the other,
any of which may be cut off. -/
def cutSystem (definition : SagaDefinition) (id : Id) : TransitionSystem SagaWorld TickEnd where
  init := (sagaSystem definition id).init
  step world ended after :=
    match ended with
    | .returned => ∃ result, Exec SagaWorld.answer (tick id).run world result after
    | .cutOff => ∃ rest, Reaches SagaWorld.answer (tick id).run world rest after

section Calls

variable {world after : SagaWorld} {α : Type}

/-- The environment does not look at the calls so far. -/
theorem answer_of_other_calls {choice : SagaChoice} {op : SagaOp} {reply : op.Answer}
    (h : SagaWorld.answer world choice op = some (reply, after)) :
    ∃ new, after.calls = world.calls ++ new ∧ ∀ other,
      SagaWorld.answer { sagas := world.sagas, calls := other } choice op =
        some (reply, { sagas := after.sagas, calls := other ++ new }) := by
  cases op with
  | newSagaId | nowMs | insert _ | load _ | save _ =>
      cases choice <;> cases h
      exact ⟨[], (List.append_nil _).symm, fun other => by rw [List.append_nil]; rfl⟩
  | execute _ _ _ | compensate _ _ _ =>
      cases choice <;> cases h
      exact ⟨[_], rfl, fun other => rfl⟩

theorem reaches_of_other_calls {program rest : Program SagaOp SagaOp.Answer α}
    (h : Reaches SagaWorld.answer program world rest after) :
    ∃ new, after.calls = world.calls ++ new ∧ ∀ other,
      Reaches SagaWorld.answer program { sagas := world.sagas, calls := other } rest
        { sagas := after.sagas, calls := other ++ new } := by
  induction h with
  | refl program world =>
      refine ⟨[], (List.append_nil _).symm, fun other => ?_⟩
      rw [List.append_nil]
      exact .refl _ _
  | call hop _ ih =>
      obtain ⟨first, hfirst, hanswer⟩ := answer_of_other_calls hop
      obtain ⟨second, hsecond, hrest⟩ := ih
      refine ⟨first ++ second, ?_, fun other => ?_⟩
      · rw [hsecond, hfirst, List.append_assoc]
      · rw [← List.append_assoc]
        exact .call (hanswer other) (hrest (other ++ first))

/-- A program that has returned has gone all the way. -/
theorem reaches_of_exec {program : Program SagaOp SagaOp.Answer α} {value : α}
    (h : Exec SagaWorld.answer program world value after) :
    Reaches SagaWorld.answer program world (.done value) after := by
  induction h with
  | done value world => exact .refl _ _
  | call hop _ ih => exact .call hop ih

end Calls

section CutOff

variable {world after : SagaWorld} {id : Id}
variable {program rest : Program SagaOp SagaOp.Answer (Except SagaStop Unit)}

/-- Until it has saved, a tick leaves the store alone, and then it has returned. -/
theorem stored_or_returned_of_follows (hfollows : program.Follows (saving id) EndsSaved false)
    (h : Reaches SagaWorld.answer program world rest after) :
    after.sagas = world.sagas ∨ ∃ value, rest = .done value := by
  induction h with
  | refl program world => exact .inl rfl
  | @call op resume world middle after choice reply rest hop hrest ih =>
      by_cases hworks : op.works = true
      · have hstore : middle.sagas = world.sagas := by
          cases hop.symm.trans (SagaWorld.answer_works hworks hop world)
          rfl
        rw [← hstore]
        apply ih
        cases op with
        | nowMs | execute _ _ _ | compensate _ _ _ => exact hfollows.2 reply trivial
        | newSagaId | insert _ | load _ | save _ => cases hworks
      · cases op with
        | nowMs | execute _ _ _ | compensate _ _ _ => exact absurd rfl hworks
        | newSagaId | insert _ | load _ => exact absurd hfollows.1 hworks
        | save written =>
            have hnext := hfollows.2 reply trivial
            cases hresume : resume reply with
            | call op next =>
                rw [hresume] at hnext
                exact hnext.1.elim
            | done value =>
                rw [hresume] at hrest
                cases hrest
                exact .inr ⟨value, rfl⟩

theorem stored_or_returned (h : Reaches SagaWorld.answer (tick id).run world rest after) :
    after.sagas = world.sagas ∨ ∃ value, rest = .done value := by
  cases h with
  | refl => exact .inl rfl
  | @call _ _ _ middle _ choice reply _ hload hrest =>
      cases choice with
      | quiet =>
          cases hload
          cases hstored : world.stored id with
          | none =>
              have hnone : world.sagas.load id = .ok none := congrArg Except.ok hstored
              rw [hnone] at hrest
              cases hrest
              exact .inr ⟨_, rfl⟩
          | some saga =>
              have hid : saga.id.asStr = id.asStr := (world.sagas.keyed _ _ hstored).symm
              have hsome : world.sagas.load id = .ok (some saga) := congrArg Except.ok hstored
              rw [hsome] at hrest
              exact stored_or_returned_of_follows (follows_saving hid) hrest
      | newId | clock | result => cases hload

end CutOff

section Mirrors

variable {definition : SagaDefinition} {id : Id} {ideal world after : SagaWorld} {cuts : ℕ}

/-- A world of a run without interruption that has the same sagas and has made these
calls, except for repetitions. -/
structure Mirrors (definition : SagaDefinition) (id : Id) (ideal world : SagaWorld) (cuts : ℕ) :
    Prop where
  reachable : (sagaSystem definition id).Reachable ideal
  sagas : ideal.sagas = world.sagas
  calls : ideal.calls.Sublist world.calls
  extra : ∀ work, timesAsked world.calls work ≤ timesAsked ideal.calls work + cuts

theorem timesAsked_of_reachable (h : (sagaSystem definition id).Reachable world)
    (work : SagaWork) : timesAsked world.calls work ≤ 1 :=
  timesAsked_le_one (nodup_works_of_callsInOrder ((sagaShape definition id).calls world h)) work

/-- One more tick of the run without interruption. -/
theorem Mirrors.reachable_of_exec (h : Mirrors definition id ideal world cuts)
    {rest : Program SagaOp SagaOp.Answer (Except SagaStop Unit)} {middle last : SagaWorld}
    {result : Except SagaStop Unit}
    (hreaches : Reaches SagaWorld.answer (tick id).run ideal rest middle)
    (hexec : Exec SagaWorld.answer rest middle result last) :
    (sagaSystem definition id).Reachable last := by
  have hstep : (sagaSystem definition id).step ideal () last := ⟨result, hreaches.exec hexec⟩
  exact h.reachable.step hstep

/-- A tick that returns is one of the run without interruption. -/
theorem Mirrors.returned (h : Mirrors definition id ideal world cuts)
    {result : Except SagaStop Unit}
    (hexec : Exec SagaWorld.answer (tick id).run world result after) :
    ∃ next, Mirrors definition id next after cuts := by
  obtain ⟨new, hnew, hmirror⟩ := reaches_of_other_calls (reaches_of_exec hexec)
  have hideal := hmirror ideal.calls
  rw [← h.sagas] at hideal
  refine ⟨_, h.reachable_of_exec hideal (.done _ _), rfl, ?_, ?_⟩
  · rw [hnew]
    exact h.calls.append_right new
  · intro work
    have hextra := h.extra work
    rw [hnew, timesAsked_append, timesAsked_append]
    omega

/-- A part of a tick asks for nothing twice. -/
theorem Mirrors.timesAsked_le (h : Mirrors definition id ideal world cuts)
    {rest : Program SagaOp SagaOp.Answer (Except SagaStop Unit)} {new : List SagaCall}
    {sagas : InMemorySagaStore}
    (hreaches : Reaches SagaWorld.answer (tick id).run ideal rest
      { sagas := sagas, calls := ideal.calls ++ new }) (work : SagaWork) :
    timesAsked new work ≤ 1 := by
  obtain ⟨result, last, hexec⟩ := exists_exec SagaWorld.answers rest
    { sagas := sagas, calls := ideal.calls ++ new }
  have hlast := timesAsked_of_reachable (h.reachable_of_exec hreaches hexec) work
  have hprefix : ideal.calls ++ new <+: last.calls := hexec.preserves
    (fun next => ideal.calls ++ new <+: next.calls)
    (fun _ _ _ _ _ hop hworld => hworld.trans (SagaWorld.calls_prefix hop)) List.prefix_rfl
  have hle : timesAsked (ideal.calls ++ new) work ≤ timesAsked last.calls work :=
    hprefix.sublist.countP_le
  rw [timesAsked_append] at hle
  omega

/-- A tick that is cut off repeats calls, or is one of the run without interruption. -/
theorem Mirrors.cutOff (h : Mirrors definition id ideal world cuts)
    {rest : Program SagaOp SagaOp.Answer (Except SagaStop Unit)}
    (hreaches : Reaches SagaWorld.answer (tick id).run world rest after) :
    ∃ next, Mirrors definition id next after (cuts + 1) := by
  rcases stored_or_returned hreaches with hkept | ⟨value, rfl⟩
  · obtain ⟨new, hnew, hmirror⟩ := reaches_of_other_calls hreaches
    have hideal := hmirror ideal.calls
    rw [← h.sagas] at hideal
    refine ⟨ideal, h.reachable, h.sagas.trans hkept.symm, ?_, ?_⟩
    · rw [hnew]
      exact h.calls.trans (List.sublist_append_left _ _)
    · intro work
      have hextra := h.extra work
      have honce := h.timesAsked_le hideal work
      rw [hnew, timesAsked_append]
      omega
  · obtain ⟨next, hnext⟩ := h.returned (hreaches.exec (.done _ _))
    exact ⟨next, hnext.reachable, hnext.sagas, hnext.calls,
      fun work => Nat.le_succ_of_le (hnext.extra work)⟩

/-- Along a run. -/
theorem Mirrors.run (h : Mirrors definition id ideal world cuts) {ends : List TickEnd}
    (hrun : (cutSystem definition id).Run world ends after) :
    ∃ next, Mirrors definition id next after (cuts + ends.count .cutOff) := by
  induction hrun generalizing ideal cuts with
  | nil world => exact ⟨ideal, h⟩
  | @cons source middle target ended ends hstep _ ih =>
      cases ended with
      | returned =>
          obtain ⟨result, hexec⟩ := hstep
          obtain ⟨next, hnext⟩ := h.returned hexec
          rw [List.count_cons_of_ne (by decide)]
          exact ih hnext
      | cutOff =>
          obtain ⟨rest, hreaches⟩ := hstep
          obtain ⟨next, hnext⟩ := h.cutOff hreaches
          rw [List.count_cons_self, Nat.add_comm (ends.count _), ← Nat.add_assoc]
          exact ih hnext

end Mirrors

/-- What holds of a saga whose ticks may be cut off. -/
structure SagaAtLeastOnce (definition : SagaDefinition) (id : Id) : Prop where
  /-- The sagas are stored as in a run without interruption, and the participants have
  got its calls, in its order. -/
  replayed : ∀ start ends world, (cutSystem definition id).init start →
    (cutSystem definition id).Run start ends world →
      ∃ ideal, (sagaSystem definition id).Reachable ideal ∧ ideal.sagas = world.sagas ∧
        ideal.calls.Sublist world.calls
  /-- A tick that was cut off repeats a call at most once. -/
  repeated : ∀ start ends world work, (cutSystem definition id).init start →
    (cutSystem definition id).Run start ends world →
      timesAsked world.calls work ≤ ends.count .cutOff + 1
  /-- The saga can always go on. -/
  resumes : ∀ start ends world result after, (cutSystem definition id).init start →
    (cutSystem definition id).Run start ends world →
      Exec SagaWorld.answer (tick id).run world result after → result = .ok ()

theorem sagaAtLeastOnce (definition : SagaDefinition) (id : Id) :
    SagaAtLeastOnce definition id := by
  have hmirrors : ∀ start ends world, (cutSystem definition id).init start →
      (cutSystem definition id).Run start ends world →
        ∃ ideal, Mirrors definition id ideal world (0 + ends.count .cutOff) := by
    intro start ends world hinit hrun
    have hstart : Mirrors definition id start start 0 :=
      ⟨.init hinit, rfl, List.Sublist.refl _, fun _ => Nat.le_refl _⟩
    exact hstart.run hrun
  constructor
  case replayed =>
    intro start ends world hinit hrun
    obtain ⟨ideal, hideal⟩ := hmirrors start ends world hinit hrun
    exact ⟨ideal, hideal.reachable, hideal.sagas, hideal.calls⟩
  case repeated =>
    intro start ends world work hinit hrun
    obtain ⟨ideal, hideal⟩ := hmirrors start ends world hinit hrun
    have hextra := hideal.extra work
    have honce := timesAsked_of_reachable hideal.reachable work
    omega
  case resumes =>
    intro start ends world result after hinit hrun hexec
    obtain ⟨ideal, hideal⟩ := hmirrors start ends world hinit hrun
    obtain ⟨_, _, hmirror⟩ := reaches_of_other_calls (reaches_of_exec hexec)
    have hreaches := hmirror ideal.calls
    rw [← hideal.sagas] at hreaches
    exact ((sagaShape definition id).returns ideal hideal.reachable).2 _ _
      (hreaches.exec (.done _ _))

end Soulbase.Tx
