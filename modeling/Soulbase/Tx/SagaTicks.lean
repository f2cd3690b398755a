/-
# Concurrent ticks of a saga

Any number of ticks of one saga over the in-memory store, interleaved at the
granularity of loading, calling the participant and saving. A tick saves the whole
instance that it has made of the one it loaded, whatever is stored by then, so two
ticks that load the saga at the same cursor both execute the step there.

`not_isolated_twoLoads` is such a run. `isolated_of_undisturbed` says what keeps
ticks apart: a tick calls the participant and saves only while the saga is stored as
it was loaded, and while no other tick has calls that are not saved.

A tick that has loaded a saga goes on alone from there, whatever happens around it.
The invariant says of each tick how far such a run of it has come, `Stage`, and of
the store that it is in a phase but for the unsaved calls of one tick, `AccountedFor`.
So every save is the end of a tick that ran alone, and `phase_of_tick` applies.
-/

import Soulbase.Tx.SagaShape

namespace Soulbase.Tx

open Soulbase.Foundation Orchestration SagaOrchestrator

namespace SagaCall

/-- Whether the call executes a step. -/
def executes (index : ℕ) : SagaCall → Bool
  | execute other _ _ => other = index
  | compensate .. => false

end SagaCall

/-- No step is executed twice. -/
def ExecutesOnce (calls : List SagaCall) : Prop :=
  ∀ index, calls.countP (·.executes index) ≤ 1

/-- What a step may make of a stored saga: the cursor of a running one does not go
back, and a terminal state stays. -/
structure KeepsProgress (before after : SagaInstance) : Prop where
  cursor : before.state = .running → before.cursor ≤ after.cursor
  final : before.state.isFinal → after.state = before.state

/-- Two instances that differ at most in when they were saved. -/
def SameButTime (first second : SagaInstance) : Prop :=
  { first with updatedAt := second.updatedAt } = second

/-- The store and the calls of the participant, with what each tick has loaded and
the calls it has made since and not saved. -/
structure TickWorld (ι : Type) where
  world : SagaWorld
  loaded : ι → Option SagaInstance
  unsaved : ι → List SagaCall

namespace SagaOp

/-- The calls of the participant that an operation makes. -/
def calls : (op : SagaOp) → op.Answer → List SagaCall
  | execute index uri _, result => [.execute index uri result]
  | compensate index uri _, result => [.compensate index uri result]
  | newSagaId, _ | nowMs, _ | insert _, _ | load _, _ | save _, _ => []

/-- The operations after which a tick has no unsaved calls. -/
def settles : SagaOp → Bool
  | load _ | save _ => true
  | newSagaId | nowMs | insert _ | execute .. | compensate .. => false

/-- The operations between a load and the save that belongs to it. -/
def works : SagaOp → Bool
  | nowMs | execute .. | compensate .. => true
  | newSagaId | insert _ | load _ | save _ => false

/-- The operations that others can see: calls of the participant and saves. -/
def acts : SagaOp → Bool
  | execute .. | compensate .. | save _ => true
  | newSagaId | nowMs | insert _ | load _ => false

end SagaOp

namespace TickWorld

variable {ι : Type} [DecidableEq ι]

/-- A tick has called an operation that left the world like this. -/
def after (state : TickWorld ι) (i : ι) (op : SagaOp) (answer : op.Answer)
    (world : SagaWorld) : TickWorld ι where
  world := world
  loaded :=
    match op with
    | .load id => Function.update state.loaded i (state.world.stored id)
    | _ => state.loaded
  unsaved :=
    Function.update state.unsaved i
      (if op.settles then [] else state.unsaved i ++ op.calls answer)

/-- What the environment does on a call of a tick. -/
def answer (i : ι) : Handler SagaOp SagaOp.Answer SagaChoice (TickWorld ι) :=
  fun state choice op =>
    (SagaWorld.answer state.world choice op).map fun outcome =>
      (outcome.1, state.after i op outcome.1 outcome.2)

/-- The saga is stored as the tick has loaded it, and no other tick has calls that
are not saved. -/
structure Undisturbed (state : TickWorld ι) (id : Id) (i : ι) : Prop where
  others : ∀ j, j ≠ i → state.unsaved j = []
  loaded : ∃ stored loaded, state.world.stored id = some stored ∧
    state.loaded i = some loaded ∧ SameButTime stored loaded

end TickWorld

/-- What may happen next. -/
inductive TickAction (ι : Type)
  /-- A tick begins. -/
  | tick (i : ι)
  /-- A tick makes its next call. -/
  | call (i : ι) (choice : SagaChoice)

/-- The ticks of one saga. -/
abbrev Ticks (ι : Type) :=
  Pool ι SagaOp SagaOp.Answer (Except SagaStop Unit) (TickWorld ι)

namespace Ticks

variable {ι : Type} [DecidableEq ι]

/-- Nobody has begun a tick. -/
def idle (world : SagaWorld) : Ticks ι where
  shared :=
    { world := world
      loaded := fun _ => none
      unsaved := fun _ => [] }
  threads _ := .done (.ok ())

/-- The step function. -/
def next (id : Id) (ticks : Ticks ι) : TickAction ι → Option (Ticks ι)
  | .tick i => ticks.spawn i (tick id).run
  | .call i choice => ticks.call (TickWorld.answer i) i choice

/-- A saga of a definition, started in any store, and any ticks of it. -/
def system (definition : SagaDefinition) (id : Id) :
    TransitionSystem (Ticks ι) (TickAction ι) where
  init ticks := ∃ sagas tenant timeoutAt world,
    Exec SagaWorld.answer (start tenant definition timeoutAt).run
      { sagas := sagas, calls := [] } (.ok id) world ∧ ticks = idle world
  step ticks action after := next id ticks action = some after

/-- What holds of every run of ticks if they are not in each other's way. -/
structure Isolated (id : Id) (T : TransitionSystem (Ticks ι) (TickAction ι)) : Prop where
  once : ∀ ticks, T.Reachable ticks → ExecutesOnce ticks.shared.world.calls
  progress : ∀ ticks action after saga, T.Reachable ticks → T.step ticks action after →
    ticks.shared.world.stored id = some saga →
      ∃ saved, after.shared.world.stored id = some saved ∧ KeepsProgress saga saved

/-- A tick calls the participant and saves only where nobody is in its way. -/
def Alone (id : Id) (ticks : Ticks ι) : TickAction ι → Prop
  | .tick _ => True
  | .call i _ => ∀ op, (ticks.threads i).head? = some op → op.acts = true →
      ticks.shared.Undisturbed id i

end Ticks

section Executed

variable {specs : List SagaStepDef} {calls new : List SagaCall}

theorem ExecutesOnce.sublist (h : ExecutesOnce new) (hsub : calls.Sublist new) :
    ExecutesOnce calls :=
  fun index => Nat.le_trans hsub.countP_le (h index)

/-- Executions in order are each of another step. -/
theorem ExecutesInOrder.once (h : ExecutesInOrder specs calls) : ExecutesOnce calls := by
  have hindex : calls.map SagaCall.index = List.range calls.length := by
    apply List.ext_getElem?
    intro k
    rw [List.getElem?_map]
    cases hcall : calls[k]? with
    | none =>
        have hlength := List.getElem?_eq_none_iff.mp hcall
        symm
        rwa [Option.map_none, List.getElem?_eq_none_iff, List.length_range]
    | some call =>
        obtain ⟨_, _, _, rfl⟩ := h.each k call hcall
        have hlength := (List.getElem?_eq_some_iff.mp hcall).1
        rw [List.getElem?_range hlength]
        rfl
  intro index
  calc calls.countP (·.executes index)
      ≤ calls.countP ((· == index) ∘ SagaCall.index) := by
        apply List.countP_mono_left
        intro call _ hexecutes
        cases call with
        | execute other _ _ => simpa [SagaCall.executes, SagaCall.index] using hexecutes
        | compensate _ _ _ => simp [SagaCall.executes] at hexecutes
    _ = (List.range calls.length).count index := by
        rw [← List.countP_map, hindex]
        rfl
    _ ≤ 1 := List.nodup_iff_count_le_one.mp List.nodup_range index

/-- In every phase each step has been executed at most once. -/
theorem SagaPhase.executesOnce {phase : SagaPhase} (hvalid : phase.Valid specs) :
    ExecutesOnce (phase.calls specs) := by
  obtain ⟨executes, compensations, hcalls, horder, hundoes⟩ := phase.callsInOrder hvalid
  intro index
  have hnone : compensations.countP (·.executes index) = 0 := by
    rw [List.countP_eq_zero]
    intro call hmem
    obtain ⟨_, _, _, _, _, _, rfl, _⟩ := hundoes.each call hmem
    simp [SagaCall.executes]
  rw [hcalls, List.countP_append, hnone]
  exact horder.once index

/-- A step of the abstract saga keeps the progress. -/
theorem SagaPhase.Next.keepsProgress {phase next : SagaPhase} {saga after : SagaInstance}
    (h : Next specs phase next) (hsaga : phase.Describes specs saga calls)
    (hafter : next.Describes specs after new) : KeepsProgress saga after := by
  constructor
  case cursor =>
    intro hrunning
    rw [hsaga.state] at hrunning
    rw [hsaga.cursor, hafter.cursor]
    cases h with
    | finish => exact Nat.le_refl _
    | execute _ => exact Nat.le_succ _
    | executeLast hlast =>
        show _ ≤ specs.length
        rw [← hlast]
        exact Nat.le_succ _
    | fail _ _ => exact Nat.le_succ _
    | undo | giveUp => cases hrunning
    | rest hresting _ => exact absurd hrunning hresting
  case final =>
    intro hfinal
    rw [hsaga.state] at hfinal ⊢
    rw [hafter.state]
    exact h.state_of_final hfinal

theorem KeepsProgress.refl (saga : SagaInstance) : KeepsProgress saga saga :=
  ⟨fun _ => Nat.le_refl _, fun _ => rfl⟩

end Executed

/-! ## A tick saves at its end

A tick that has loaded a saga reads the clock and calls the participant until it
saves the saga, under the id it has loaded it from, and then makes no more calls. Its
standing is whether it has saved. -/

/-- What a tick calls once it has loaded a saga. -/
def saving (id : Id) : Discipline SagaOp SagaOp.Answer Bool where
  permits
    | false, .save saga => saga.id.asStr = id.asStr
    | false, op => op.works = true
    | true, _ => False
  ensures _ _ := True
  after
    | _, .save _, _ => true
    | saved, _, _ => saved

/-- Without a save a tick ends only with an error. -/
def EndsSaved (result : Except SagaStop Unit) (saved : Bool) : Prop :=
  saved = true ∨ ∃ stop, result = .error stop

/-- What is to be saved has the id of the saga. -/
def EndsUnsaved (id : Id) (result : Except SagaStop SagaInstance) (saved : Bool) : Prop :=
  saved = false ∧ ∀ saga, result = .ok saga → saga.id.asStr = id.asStr

/-- The saga that a round leaves. -/
def SagaOrchestrator.Flow.saga : Flow → SagaInstance
  | again saga | stop saga => saga

/-- What a round leaves has the id of the saga. -/
def EndsRound (id : Id) (result : Except SagaStop Flow) (saved : Bool) : Prop :=
  saved = false ∧ ∀ flow, result = .ok flow → flow.saga.id.asStr = id.asStr

namespace SagaOrchestrator

variable {id : Id} {saga : SagaInstance}

theorem follows_saving_ask {α : Type} {post : Except SagaStop α → Bool → Prop} {op : SagaOp}
    {next : op.Answer → Orchestration α} (hop : op.works = true)
    (hnext : ∀ answer, (next answer).run.Follows (saving id) post false) :
    (ask op >>= next).run.Follows (saving id) post false := by
  cases op with
  | nowMs | execute _ _ _ | compensate _ _ _ => exact ⟨rfl, fun answer _ => hnext answer⟩
  | newSagaId | insert _ | load _ | save _ => cases hop

theorem follows_saving_stepAt {α : Type} {post : Except SagaStop α → Bool → Prop} {idx : ℕ}
    {next : SagaStepState → Orchestration α} (herror : post (.error .panic) false)
    (hnext : ∀ step, saga.steps[idx]? = some step →
      (next step).run.Follows (saving id) post false) :
    (stepAt saga idx >>= next).run.Follows (saving id) post false := by
  unfold stepAt
  cases hstep : saga.steps[idx]? with
  | none => exact herror
  | some step => exact hnext step hstep

theorem follows_saving_tickRunning (hid : saga.id.asStr = id.asStr) :
    (tickRunning saga).run.Follows (saving id) (EndsUnsaved id) false := by
  have hends : ∀ after : SagaInstance, after.id = saga.id →
      EndsUnsaved id (.ok after) false := by
    intro after hafter
    refine ⟨rfl, ?_⟩
    intro _ hok
    cases hok
    rw [hafter, hid]
  unfold tickRunning
  split
  case isTrue => exact hends _ rfl
  case isFalse =>
    split
    case isTrue => exact hends _ rfl
    case isFalse =>
      apply follows_saving_stepAt
      · exact ⟨rfl, nofun⟩
      intro step _
      apply follows_saving_ask rfl
      intro now
      apply follows_saving_ask rfl
      intro result
      split
      case h_1 =>
        apply follows_saving_ask rfl
        intro completedAt
        exact hends _ rfl
      case h_2 => exact hends _ rfl

theorem follows_saving_compensateRound (hid : saga.id.asStr = id.asStr) :
    (compensateRound saga).run.Follows (saving id) (EndsRound id) false := by
  have hends : ∀ flow : Flow, flow.saga.id = saga.id → EndsRound id (.ok flow) false := by
    intro flow hflow
    refine ⟨rfl, ?_⟩
    intro _ hok
    cases hok
    rw [hflow, hid]
  unfold compensateRound
  split
  case isTrue => exact hends _ rfl
  case isFalse =>
    dsimp only
    split
    case isTrue => exact hends _ rfl
    case isFalse =>
      apply follows_saving_stepAt
      · exact ⟨rfl, nofun⟩
      intro step _
      cases step.spec.compensateUri with
      | none => exact hends _ rfl
      | some uri =>
          apply follows_saving_ask rfl
          intro result
          split
          case h_1 =>
            apply follows_saving_ask rfl
            intro completedAt
            exact hends _ rfl
          case h_2 => exact hends _ rfl

theorem follows_saving_tickCompensating {rounds : ℕ} (hid : saga.id.asStr = id.asStr) :
    (tickCompensating rounds saga).run.Follows (saving id) (EndsUnsaved id) false := by
  induction rounds generalizing saga with
  | zero => exact ⟨rfl, nofun⟩
  | succ rounds ih =>
      apply follows_fallible_bind (follows_saving_compensateRound hid)
      · intro stop saved hended
        exact ⟨hended.1, nofun⟩
      · intro flow saved hended
        obtain ⟨rfl, hflow⟩ := hended
        cases flow with
        | again next => exact ih (hflow _ rfl)
        | stop after =>
            refine ⟨rfl, ?_⟩
            intro _ hok
            cases hok
            exact hflow _ rfl

theorem follows_saving_progress (hid : saga.id.asStr = id.asStr) :
    (progress saga).run.Follows (saving id) (EndsUnsaved id) false := by
  unfold progress
  split
  case h_1 => exact follows_saving_tickRunning hid
  case h_2 => exact follows_saving_tickCompensating hid
  all_goals
    refine ⟨rfl, ?_⟩
    intro _ hok
    cases hok
    exact hid

/-- What a tick does with the saga it has loaded. -/
theorem follows_saving (hid : saga.id.asStr = id.asStr) :
    (progress saga >>= saveNow).run.Follows (saving id) EndsSaved false := by
  apply follows_fallible_bind (follows_saving_progress hid)
  · intro stop saved _
    exact .inr ⟨stop, rfl⟩
  · intro after saved hended
    obtain ⟨rfl, hafter⟩ := hended
    apply follows_saving_ask rfl
    intro now
    refine ⟨hafter after rfl, ?_⟩
    intro result _
    cases result with
    | error error => exact .inr ⟨_, rfl⟩
    | ok _ => exact .inl rfl

end SagaOrchestrator

namespace SagaWorld

/-- A store with one saga, after some calls. -/
def holding (saga : SagaInstance) (calls : List SagaCall) : SagaWorld where
  sagas := InMemorySagaStore.empty.put saga
  calls := calls

theorem stored_put {id : Id} {sagas : InMemorySagaStore} {saga : SagaInstance}
    {calls : List SagaCall} (hid : saga.id.asStr = id.asStr) :
    SagaWorld.stored { sagas := sagas.put saga, calls := calls } id = some saga :=
  (InMemorySagaStore.get_put _ _ _).trans (if_pos hid.symm)

/-- Nothing removes a call from the record. -/
theorem calls_prefix {world after : SagaWorld} {choice : SagaChoice} {op : SagaOp}
    {reply : op.Answer} (h : answer world choice op = some (reply, after)) :
    world.calls <+: after.calls := by
  cases op <;> cases choice <;> cases h <;> simp [append]

/-- What a tick does between its load and its save does not look at the store. -/
theorem answer_works {world after : SagaWorld} {choice : SagaChoice} {op : SagaOp}
    {reply : op.Answer} (hop : op.works = true)
    (h : answer world choice op = some (reply, after)) (other : SagaWorld) :
    answer other choice op = some (reply, other.append (op.calls reply)) := by
  cases op with
  | nowMs =>
      cases choice <;> cases h
      simp [answer, SagaOp.calls]
  | execute _ _ _ | compensate _ _ _ =>
      cases choice <;> cases h
      rfl
  | newSagaId | insert _ | load _ | save _ => cases hop

theorem answer_save {world : SagaWorld} {id : Id} {saga written : SagaInstance}
    (hstored : world.stored id = some saga) (hid : written.id.asStr = id.asStr) :
    answer world .quiet (.save written) =
      some (.ok (), { world with sagas := world.sagas.put written }) := by
  have hfound : world.sagas.items.get written.id.asStr = some saga := by
    rw [hid]
    exact hstored
  simp only [answer, InMemorySagaStore.save, hfound]

end SagaWorld

/-- A tick that has loaded a saga and not saved it: alone, with that saga stored, it
comes as far with the same calls. -/
structure Working (specs : List SagaStepDef) (id : Id)
    (thread : Program SagaOp SagaOp.Answer (Except SagaStop Unit)) (saga : SagaInstance)
    (unsaved : List SagaCall) : Prop where
  own : saga.id.asStr = id.asStr
  phase : ∃ (phase : SagaPhase) (calls : List SagaCall), phase.Describes specs saga calls
  follows : thread.Follows (saving id) EndsSaved false
  alone : ∀ calls, Reaches SagaWorld.answer (tick id).run (.holding saga calls) thread
    ((SagaWorld.holding saga calls).append unsaved)

section Working

variable {definition : SagaDefinition} {id : Id} {saga : SagaInstance} {phase : SagaPhase}
variable {thread : Program SagaOp SagaOp.Answer (Except SagaStop Unit)}
variable {before unsaved : List SagaCall}

/-- Where the tick ends, it has taken the saga from phase to phase. -/
theorem Working.ends (h : Working definition.steps id thread saga unsaved)
    (hphase : phase.Describes definition.steps saga before) {last : SagaWorld}
    {result : Except SagaStop Unit}
    (hexec : Exec SagaWorld.answer thread ((SagaWorld.holding saga before).append unsaved)
      result last) :
    result = .ok () ∧ ∃ next, SagaPhase.Next definition.steps phase next ∧
      last.InPhase definition id next :=
  phase_of_tick ⟨saga, SagaWorld.stored_put h.own, hphase⟩ ((h.alone before).exec hexec)

/-- With the calls that a tick has made, no step has been executed twice. -/
theorem Working.executesOnce (h : Working definition.steps id thread saga unsaved)
    (hphase : phase.Describes definition.steps saga before) :
    ExecutesOnce (before ++ unsaved) := by
  obtain ⟨result, last, hexec⟩ := exists_exec SagaWorld.answers thread
    ((SagaWorld.holding saga before).append unsaved)
  obtain ⟨_, next, _, found, _, hnext⟩ := h.ends hphase hexec
  have hlast : ExecutesOnce last.calls := by
    rw [hnext.calls]
    exact SagaPhase.executesOnce hnext.valid
  have hprefix := hexec.preserves
    (fun world => ((SagaWorld.holding saga before).append unsaved).calls <+: world.calls)
    (fun _ _ _ _ _ hop hworld => hworld.trans (SagaWorld.calls_prefix hop)) List.prefix_rfl
  exact hlast.sublist hprefix.sublist

/-- Such a tick has not returned: it would have returned without saving. -/
theorem Working.not_returned (h : Working definition.steps id thread saga unsaved) :
    thread.returned = false := by
  cases thread with
  | call op resume => rfl
  | done value =>
      obtain ⟨phase, calls, hphase⟩ := h.phase
      obtain ⟨hvalue, _⟩ := h.ends hphase (.done value _)
      rcases h.follows with hsaved | ⟨stop, hstop⟩
      · cases hsaved
      · rw [hvalue] at hstop
        cases hstop

/-- It reads the clock or calls the participant. -/
theorem Working.step {op : SagaOp}
    {resume : op.Answer → Program SagaOp SagaOp.Answer (Except SagaStop Unit)}
    {world after : SagaWorld} {choice : SagaChoice} {reply : op.Answer}
    (h : Working definition.steps id (.call op resume) saga unsaved) (hop : op.works = true)
    (hanswer : SagaWorld.answer world choice op = some (reply, after)) :
    Working definition.steps id (resume reply) saga (unsaved ++ op.calls reply) where
  own := h.own
  phase := h.phase
  follows := by
    have hnext := h.follows.2 reply trivial
    cases op with
    | nowMs | execute _ _ _ | compensate _ _ _ => exact hnext
    | newSagaId | insert _ | load _ | save _ => cases hop
  alone := by
    intro calls
    rw [← SagaWorld.append_append]
    exact (h.alone calls).step (SagaWorld.answer_works hop hanswer _)

/-- It saves what it has made of the saga, and returns. -/
theorem Working.save {written : SagaInstance}
    {resume : TxResult Unit → Program SagaOp SagaOp.Answer (Except SagaStop Unit)}
    (h : Working definition.steps id (.call (.save written) resume) saga unsaved)
    (hphase : phase.Describes definition.steps saga before) :
    (∃ value, resume (.ok ()) = .done value) ∧
      ∃ next, SagaPhase.Next definition.steps phase next ∧
        next.Describes definition.steps written (before ++ unsaved) := by
  have hid : written.id.asStr = id.asStr := h.follows.1
  have hnext := h.follows.2 (.ok ()) trivial
  cases hresume : resume (.ok ()) with
  | call op rest =>
      rw [hresume] at hnext
      exact hnext.1.elim
  | done value =>
      refine ⟨⟨value, rfl⟩, ?_⟩
      have hsave : SagaWorld.answer ((SagaWorld.holding saga before).append unsaved) .quiet
          (.save written) = _ :=
        SagaWorld.answer_save (SagaWorld.stored_put h.own) hid
      have hrest (world : SagaWorld) :
          Exec SagaWorld.answer (resume (.ok ())) world value world := by
        rw [hresume]
        exact .done value world
      obtain ⟨_, next, hstep, found, hfound, hdescribes⟩ :=
        h.ends hphase (.call hsave (hrest _))
      rw [SagaWorld.stored_put hid] at hfound
      cases hfound
      exact ⟨next, hstep, hdescribes⟩

/-- A tick has loaded the saga. -/
theorem working_of_load (hid : saga.id.asStr = id.asStr)
    (hphase : ∃ (phase : SagaPhase) (calls : List SagaCall),
      phase.Describes definition.steps saga calls) :
    Working definition.steps id (progress saga >>= saveNow).run saga [] where
  own := hid
  phase := hphase
  follows := follows_saving hid
  alone := by
    intro calls
    have hload : SagaWorld.answer (.holding saga calls) .quiet (.load id) =
        some (.ok (some saga), .holding saga calls) :=
      congrArg (fun found => some (Except.ok found, SagaWorld.holding saga calls))
        (SagaWorld.stored_put hid)
    rw [SagaWorld.append_nil]
    exact .call hload (.refl _ _)

end Working

/-- Where a tick is. -/
inductive Stage (specs : List SagaStepDef) (id : Id)
    (thread : Program SagaOp SagaOp.Answer (Except SagaStop Unit))
    (loaded : Option SagaInstance) (unsaved : List SagaCall) : Prop
  | idle {value : Except SagaStop Unit} : thread = .done value → unsaved = [] →
      Stage specs id thread loaded unsaved
  | fresh : thread = (tick id).run → unsaved = [] → Stage specs id thread loaded unsaved
  | working {saga : SagaInstance} : loaded = some saga →
      Working specs id thread saga unsaved → Stage specs id thread loaded unsaved

theorem Stage.of_returned {definition : SagaDefinition} {id : Id}
    {thread : Program SagaOp SagaOp.Answer (Except SagaStop Unit)}
    {loaded : Option SagaInstance} {unsaved : List SagaCall}
    (h : Stage definition.steps id thread loaded unsaved) (hreturned : thread.returned = true) :
    unsaved = [] := by
  cases h with
  | idle _ hunsaved => exact hunsaved
  | fresh _ hunsaved => exact hunsaved
  | working _ hworking =>
      rw [hworking.not_returned] at hreturned
      cases hreturned

section AccountedFor

variable {ι : Type}

/-- The stored saga and the calls are those of a phase, but for the unsaved calls of
one tick, which has loaded that saga. -/
inductive AccountedFor (specs : List SagaStepDef) (id : Id) (state : TickWorld ι) : Prop
  | saved {phase : SagaPhase} {stored : SagaInstance} :
      state.world.stored id = some stored →
        phase.Describes specs stored state.world.calls →
          (∀ i, state.unsaved i = []) → AccountedFor specs id state
  | owed {phase : SagaPhase} {stored loaded : SagaInstance} {before : List SagaCall} (i : ι) :
      state.world.stored id = some stored → phase.Describes specs stored before →
        state.loaded i = some loaded → SameButTime stored loaded →
          (∀ j, j ≠ i → state.unsaved j = []) →
            state.world.calls = before ++ state.unsaved i → AccountedFor specs id state

theorem SameButTime.describes {specs : List SagaStepDef} {phase : SagaPhase}
    {first second : SagaInstance} {calls : List SagaCall} (h : SameButTime first second)
    (hfirst : phase.Describes specs first calls) : phase.Describes specs second calls := by
  rw [← h]
  exact ⟨hfirst.valid, hfirst.state, hfirst.cursor, hfirst.kept, hfirst.steps, hfirst.calls⟩

variable {specs : List SagaStepDef} {id : Id} {state : TickWorld ι} {i : ι}

theorem AccountedFor.stored (h : AccountedFor specs id state) :
    ∃ (stored : SagaInstance) (phase : SagaPhase) (before : List SagaCall),
      state.world.stored id = some stored ∧ phase.Describes specs stored before := by
  cases h with
  | saved hstored hphase _ => exact ⟨_, _, _, hstored, hphase⟩
  | owed _ hstored hphase _ _ _ _ => exact ⟨_, _, _, hstored, hphase⟩

/-- An undisturbed tick is the one whose calls are unsaved, if any is. -/
theorem AccountedFor.of_undisturbed (h : AccountedFor specs id state)
    (hundisturbed : state.Undisturbed id i) :
    ∃ (phase : SagaPhase) (stored loaded : SagaInstance) (before : List SagaCall),
      state.world.stored id = some stored ∧ state.loaded i = some loaded ∧
        SameButTime stored loaded ∧ phase.Describes specs stored before ∧
          state.world.calls = before ++ state.unsaved i := by
  obtain ⟨stored, loaded, hstored, hloaded, hsame⟩ := hundisturbed.loaded
  cases h with
  | saved hfound hphase hnone =>
      rw [hstored] at hfound
      cases hfound
      refine ⟨_, stored, loaded, _, hstored, hloaded, hsame, hphase, ?_⟩
      rw [hnone i, List.append_nil]
  | owed j hfound hphase _ _ hothers hcalls =>
      rw [hstored] at hfound
      cases hfound
      refine ⟨_, stored, loaded, _, hstored, hloaded, hsame, hphase, ?_⟩
      by_cases hj : i = j
      · rw [hj]
        exact hcalls
      · rw [hcalls, hundisturbed.others j (fun heq => hj heq.symm), hothers i hj]

end AccountedFor

namespace TickWorld

variable {ι : Type} [DecidableEq ι] {state : TickWorld ι} {i j : ι} {op : SagaOp}
variable {reply : op.Answer} {world : SagaWorld}

theorem loaded_after_of_ne (hj : j ≠ i) :
    (state.after i op reply world).loaded j = state.loaded j := by
  cases op with
  | load _ => exact Function.update_of_ne hj _ _
  | newSagaId | nowMs | insert _ | save _ | execute _ _ _ | compensate _ _ _ => rfl

theorem unsaved_after_of_ne (hj : j ≠ i) :
    (state.after i op reply world).unsaved j = state.unsaved j :=
  Function.update_of_ne hj _ _

theorem unsaved_after :
    (state.after i op reply world).unsaved i =
      if op.settles then [] else state.unsaved i ++ op.calls reply :=
  Function.update_self _ _ _

variable {env : TickWorld ι} {choice : SagaChoice} {id : Id} {stored written : SagaInstance}

theorem answer_eq_some_iff :
    answer i state choice op = some (reply, env) ↔
      ∃ world, SagaWorld.answer state.world choice op = some (reply, world) ∧
        env = state.after i op reply world := by
  rw [answer, Option.map_eq_some_iff]
  constructor
  · rintro ⟨⟨found, world⟩, hcall, hafter⟩
    cases hafter
    exact ⟨world, hcall, rfl⟩
  · rintro ⟨world, hcall, rfl⟩
    exact ⟨(reply, world), hcall, rfl⟩

theorem answer_load {found : TxResult (Option SagaInstance)}
    (h : answer i state choice (.load id) = some (found, env)) :
    found = .ok (state.world.stored id) ∧
      env = state.after i (.load id) (.ok (state.world.stored id)) state.world := by
  obtain ⟨world, hload, rfl⟩ := answer_eq_some_iff.mp h
  cases choice <;> cases hload
  exact ⟨rfl, rfl⟩

theorem answer_works (hop : op.works = true)
    (h : answer i state choice op = some (reply, env)) :
    env = state.after i op reply (state.world.append (op.calls reply)) := by
  obtain ⟨world, hcall, rfl⟩ := answer_eq_some_iff.mp h
  have hworld := SagaWorld.answer_works hop hcall state.world
  rw [hcall] at hworld
  cases hworld
  rfl

theorem answer_save {saved : TxResult Unit} (hstored : state.world.stored id = some stored)
    (hid : written.id.asStr = id.asStr)
    (h : answer i state choice (.save written) = some (saved, env)) :
    saved = .ok () ∧
      env = state.after i (.save written) (.ok ())
        { state.world with sagas := state.world.sagas.put written } := by
  obtain ⟨world, hsave, rfl⟩ := answer_eq_some_iff.mp h
  cases choice with
  | quiet =>
      rw [SagaWorld.answer_save hstored hid] at hsave
      cases hsave
      exact ⟨rfl, rfl⟩
  | newId _ | clock _ | result _ => cases hsave

/-- Between its load and its save a tick keeps what it has loaded and adds up its
calls. -/
theorem after_works (state : TickWorld ι) (i : ι) (reply : op.Answer) (world : SagaWorld)
    (hop : op.works = true) :
    (state.after i op reply world).loaded i = state.loaded i ∧
      (state.after i op reply world).unsaved i = state.unsaved i ++ op.calls reply := by
  rw [unsaved_after]
  cases op with
  | nowMs | execute _ _ _ | compensate _ _ _ => exact ⟨rfl, rfl⟩
  | newSagaId | insert _ | load _ | save _ => cases hop

/-- Reading the clock changes nothing. -/
theorem after_nowMs {now : Int64} :
    state.after i .nowMs now (state.world.append (SagaOp.calls .nowMs now)) = state := by
  simp [after, SagaOp.calls, SagaOp.settles]

end TickWorld

section AccountedFor

variable {ι : Type} [DecidableEq ι] {id : Id} {i : ι}

/-- A tick without unsaved calls loads the saga. -/
theorem AccountedFor.load {specs : List SagaStepDef} {state : TickWorld ι}
    {found : TxResult (Option SagaInstance)} (h : AccountedFor specs id state)
    (hnone : state.unsaved i = []) :
    AccountedFor specs id (state.after i (.load id) found state.world) := by
  have hunsaved (j : ι) :
      (state.after i (.load id) found state.world).unsaved j = state.unsaved j := by
    by_cases hj : j = i
    · subst hj
      rw [TickWorld.unsaved_after, hnone]
      rfl
    · exact TickWorld.unsaved_after_of_ne hj
  cases h with
  | saved hstored hphase hall =>
      refine .saved hstored hphase ?_
      intro j
      rw [hunsaved]
      exact hall j
  | @owed phase stored loaded before k hstored hphase hloaded hsame hothers hcalls =>
      by_cases hk : k = i
      · subst hk
        rw [hnone, List.append_nil] at hcalls
        rw [← hcalls] at hphase
        refine .saved hstored hphase ?_
        · intro j
          rw [hunsaved]
          by_cases hj : j = k
          · rw [hj, hnone]
          · exact hothers j hj
      · refine .owed k hstored hphase ?_ hsame ?_ ?_
        · rw [TickWorld.loaded_after_of_ne hk]
          exact hloaded
        · intro j hj
          rw [hunsaved]
          exact hothers j hj
        · rw [hunsaved]
          exact hcalls

/-- An undisturbed tick calls the participant. -/
theorem AccountedFor.call {specs : List SagaStepDef} {state : TickWorld ι} {op : SagaOp}
    {reply : op.Answer} (h : AccountedFor specs id state)
    (hundisturbed : state.Undisturbed id i) (hop : op.works = true) :
    AccountedFor specs id
      (state.after i op reply (state.world.append (op.calls reply))) := by
  obtain ⟨phase, stored, loaded, before, hstored, hloaded, hsame, hphase, hcalls⟩ :=
    h.of_undisturbed hundisturbed
  obtain ⟨hkept, hunsaved⟩ := state.after_works i reply (state.world.append (op.calls reply)) hop
  refine .owed i hstored hphase (hkept.trans hloaded) hsame ?_ ?_
  · intro j hj
    rw [TickWorld.unsaved_after_of_ne hj]
    exact hundisturbed.others j hj
  · rw [hunsaved, ← List.append_assoc, ← hcalls]
    rfl

/-- An undisturbed tick saves the saga in another phase. -/
theorem AccountedFor.save {specs : List SagaStepDef} {state : TickWorld ι}
    {written : SagaInstance} {phase : SagaPhase} (hundisturbed : state.Undisturbed id i)
    (hid : written.id.asStr = id.asStr)
    (hphase : phase.Describes specs written state.world.calls) :
    AccountedFor specs id
      (state.after i (.save written) (.ok ())
        { state.world with sagas := state.world.sagas.put written }) := by
  refine .saved (SagaWorld.stored_put hid) hphase ?_
  intro j
  by_cases hj : j = i
  · subst hj
    exact TickWorld.unsaved_after
  · rw [TickWorld.unsaved_after_of_ne hj]
    exact hundisturbed.others j hj

end AccountedFor

namespace Ticks

section Serial

variable {ι : Type} {definition : SagaDefinition} {id : Id}

/-- What holds while ticks are not in each other's way. -/
structure Serial (definition : SagaDefinition) (id : Id) (ticks : Ticks ι) : Prop where
  accounted : AccountedFor definition.steps id ticks.shared
  stages : ∀ i, Stage definition.steps id (ticks.threads i) (ticks.shared.loaded i)
    (ticks.shared.unsaved i)

theorem Serial.executesOnce {ticks : Ticks ι} (h : Serial definition id ticks) :
    ExecutesOnce ticks.shared.world.calls := by
  cases h.accounted with
  | saved _ hphase _ =>
      rw [hphase.calls]
      exact SagaPhase.executesOnce hphase.valid
  | owed i _ hphase hloaded hsame _ hcalls =>
      rw [hcalls]
      cases h.stages i with
      | idle _ hunsaved | fresh _ hunsaved =>
          rw [hunsaved, List.append_nil, hphase.calls]
          exact SagaPhase.executesOnce hphase.valid
      | working hfound hworking =>
          rw [hloaded] at hfound
          cases hfound
          exact hworking.executesOnce (hsame.describes hphase)

/-- The saga has been started, and no tick has begun. -/
theorem serial_idle {tenant : TenantId} {timeoutAt : Option Int64} {sagas : InMemorySagaStore}
    {world : SagaWorld}
    (h : Exec SagaWorld.answer (start tenant definition timeoutAt).run
      { sagas := sagas, calls := [] } (.ok id) world) :
    Serial definition id (idle world : Ticks ι) := by
  obtain ⟨saga, hstored, hphase⟩ := phase_of_start h
  exact ⟨.saved hstored hphase fun _ => rfl, fun _ => .idle rfl rfl⟩

end Serial

section Steps

variable {ι : Type} [DecidableEq ι] {definition : SagaDefinition} {id : Id}
variable {ticks after : Ticks ι} {i : ι}

/-- A tick begins. -/
theorem Serial.tick (h : Serial definition id ticks)
    (hspawn : ticks.spawn i (SagaOrchestrator.tick id).run = some after) :
    Serial definition id after ∧ after.shared = ticks.shared := by
  obtain ⟨hreturned, rfl⟩ := Pool.spawn_eq_some_iff.mp hspawn
  refine ⟨⟨h.accounted, ?_⟩, rfl⟩
  intro j
  by_cases hj : j = i
  · subst hj
    apply Stage.fresh
    · exact Function.update_self _ _ _
    · exact (h.stages j).of_returned hreturned
  · show Stage _ _ (Function.update ticks.threads i _ j) _ _
    rw [Function.update_of_ne hj]
    exact h.stages j

/-- A call leaves all other ticks where they are. -/
theorem Serial.answered (h : Serial definition id ticks) {op : SagaOp} {reply : op.Answer}
    {world : SagaWorld} {rest : Program SagaOp SagaOp.Answer (Except SagaStop Unit)}
    (haccounted : AccountedFor definition.steps id (ticks.shared.after i op reply world))
    (hown : Stage definition.steps id rest ((ticks.shared.after i op reply world).loaded i)
      ((ticks.shared.after i op reply world).unsaved i)) :
    Serial definition id
      { shared := ticks.shared.after i op reply world
        threads := Function.update ticks.threads i rest } where
  accounted := haccounted
  stages := by
    intro j
    show Stage _ _ (Function.update ticks.threads i rest j) _ _
    by_cases hj : j = i
    · subst hj
      rw [Function.update_self]
      exact hown
    · rw [Function.update_of_ne hj, TickWorld.loaded_after_of_ne hj,
        TickWorld.unsaved_after_of_ne hj]
      exact h.stages j

/-- A tick that has begun loads the saga. -/
theorem Serial.load (h : Serial definition id ticks) (hunsaved : ticks.shared.unsaved i = [])
    {saga : SagaInstance} (hsaga : ticks.shared.world.stored id = some saga)
    {resume : TxResult (Option SagaInstance) →
      Program SagaOp SagaOp.Answer (Except SagaStop Unit)}
    (htick : (SagaOrchestrator.tick id).run = .call (.load id) resume) :
    Serial definition id
      { shared := ticks.shared.after i (.load id) (.ok (ticks.shared.world.stored id))
          ticks.shared.world
        threads := Function.update ticks.threads i
          (resume (.ok (ticks.shared.world.stored id))) } := by
  cases htick
  apply h.answered (h.accounted.load hunsaved)
  obtain ⟨stored, phase, before, hstored, hphase⟩ := h.accounted.stored
  rw [hsaga] at hstored
  cases hstored
  have hid : saga.id.asStr = id.asStr := (ticks.shared.world.sagas.keyed _ _ hsaga).symm
  have hloaded : Function.update ticks.shared.loaded i (ticks.shared.world.stored id) i =
      some saga := by
    rw [Function.update_self, hsaga]
  apply Stage.working hloaded
  rw [hsaga, TickWorld.unsaved_after]
  exact working_of_load hid ⟨phase, before, hphase⟩

variable {op : SagaOp} {reply : op.Answer} {choice : SagaChoice} {env : TickWorld ι}
variable {resume : op.Answer → Program SagaOp SagaOp.Answer (Except SagaStop Unit)}
variable {loaded : SagaInstance}

/-- A tick that has loaded the saga reads the clock or calls the participant. -/
theorem Serial.works (h : Serial definition id ticks)
    (hloaded : ticks.shared.loaded i = some loaded)
    (hworking : Working definition.steps id (.call op resume) loaded (ticks.shared.unsaved i))
    (hop : op.works = true) (halone : op.acts = true → ticks.shared.Undisturbed id i)
    (hanswer : TickWorld.answer i ticks.shared choice op = some (reply, env)) :
    Serial definition id
        { shared := env, threads := Function.update ticks.threads i (resume reply) } ∧
      env.world.stored id = ticks.shared.world.stored id := by
  obtain ⟨world, hworld, _⟩ := TickWorld.answer_eq_some_iff.mp hanswer
  obtain rfl := TickWorld.answer_works hop hanswer
  obtain ⟨hkept, hunsaved⟩ := ticks.shared.after_works i reply
    (ticks.shared.world.append (op.calls reply)) hop
  refine ⟨h.answered ?_ ?_, rfl⟩
  · cases op with
    | nowMs =>
        rw [TickWorld.after_nowMs]
        exact h.accounted
    | execute _ _ _ | compensate _ _ _ => exact h.accounted.call (halone rfl) rfl
    | newSagaId | insert _ | load _ | save _ => cases hop
  · refine .working (hkept.trans hloaded) ?_
    rw [hunsaved]
    exact hworking.step hop hworld

/-- A tick that has loaded the saga saves it: a step of the abstract saga. -/
theorem Serial.save (h : Serial definition id ticks) {written : SagaInstance}
    {resume : TxResult Unit → Program SagaOp SagaOp.Answer (Except SagaStop Unit)}
    (hloaded : ticks.shared.loaded i = some loaded)
    (hworking : Working definition.steps id (.call (.save written) resume) loaded
      (ticks.shared.unsaved i))
    (hundisturbed : ticks.shared.Undisturbed id i) {saga : SagaInstance}
    (hsaga : ticks.shared.world.stored id = some saga) {saved : TxResult Unit}
    (hanswer : TickWorld.answer i ticks.shared choice (.save written) = some (saved, env)) :
    Serial definition id
        { shared := env, threads := Function.update ticks.threads i (resume saved) } ∧
      env.world.stored id = some written ∧ KeepsProgress saga written := by
  have hid : written.id.asStr = id.asStr := hworking.follows.1
  obtain ⟨rfl, rfl⟩ := TickWorld.answer_save hsaga hid hanswer
  obtain ⟨phase, stored, found, before, hstored, hfound, hsame, hphase, hcalls⟩ :=
    h.accounted.of_undisturbed hundisturbed
  rw [hsaga] at hstored
  rw [hloaded] at hfound
  cases hstored
  cases hfound
  obtain ⟨⟨value, hreturned⟩, next, hnext, hwritten⟩ := hworking.save (hsame.describes hphase)
  refine ⟨h.answered ?_ ?_, SagaWorld.stored_put hid, hnext.keepsProgress hphase hwritten⟩
  · apply AccountedFor.save hundisturbed hid
    rw [hcalls]
    exact hwritten
  · exact .idle hreturned TickWorld.unsaved_after

/-- The next call of a tick. A save is a step of the abstract saga, and all other
calls leave the stored saga as it is. -/
theorem Serial.call (h : Serial definition id ticks)
    (halone : Alone id ticks (.call i choice))
    (hcall : ticks.call (TickWorld.answer i) i choice = some after) {saga : SagaInstance}
    (hsaga : ticks.shared.world.stored id = some saga) :
    Serial definition id after ∧
      ∃ saved, after.shared.world.stored id = some saved ∧ KeepsProgress saga saved := by
  obtain ⟨op, resume, reply, env, hthread, hanswer, rfl⟩ := Pool.call_eq_some_iff.mp hcall
  have halone := halone op (by rw [hthread]; rfl)
  cases h.stages i with
  | idle hdone _ =>
      rw [hthread] at hdone
      cases hdone
  | fresh hfresh hunsaved =>
      rw [hthread] at hfresh
      cases hfresh
      obtain ⟨rfl, rfl⟩ := TickWorld.answer_load hanswer
      exact ⟨h.load hunsaved hsaga rfl, saga, hsaga, .refl saga⟩
  | working hloaded hworking =>
      rw [hthread] at hworking
      by_cases hop : op.works = true
      · obtain ⟨hserial, hkept⟩ := h.works hloaded hworking hop halone hanswer
        exact ⟨hserial, saga, hkept.trans hsaga, .refl saga⟩
      · cases op with
        | nowMs | execute _ _ _ | compensate _ _ _ => exact absurd rfl hop
        | newSagaId | insert _ | load _ => exact absurd hworking.follows.1 hop
        | save written =>
            obtain ⟨hserial, hsaved, hprogress⟩ :=
              h.save hloaded hworking (halone rfl) hsaga hanswer
            exact ⟨hserial, written, hsaved, hprogress⟩

/-- A step of the system. -/
theorem Serial.step (h : Serial definition id ticks) {action : TickAction ι}
    (halone : Alone id ticks action) (hnext : next id ticks action = some after)
    {saga : SagaInstance} (hsaga : ticks.shared.world.stored id = some saga) :
    Serial definition id after ∧
      ∃ saved, after.shared.world.stored id = some saved ∧ KeepsProgress saga saved := by
  cases action with
  | tick i =>
      obtain ⟨hserial, hshared⟩ := h.tick hnext
      rw [hshared]
      exact ⟨hserial, saga, hsaga, .refl saga⟩
  | call i choice => exact h.call halone hnext hsaga

theorem serial_of_reachable
    (h : ((system definition id).restrict (Alone id)).Reachable ticks) :
    Serial definition id ticks := by
  apply TransitionSystem.invariant (Serial definition id) _ _ h
  · rintro _ ⟨sagas, tenant, timeoutAt, world, hstart, rfl⟩
    exact serial_idle hstart
  · intro source action target _ hserial hstep
    obtain ⟨stored, _, _, hstored, _⟩ := hserial.accounted.stored
    exact (hserial.step hstep.1 hstep.2 hstored).1

/-- Ticks that are not in each other's way execute each step once, and none of them
overwrites what another has saved. -/
theorem isolated_of_undisturbed (ι : Type) [DecidableEq ι] (definition : SagaDefinition)
    (id : Id) : Isolated id ((system (ι := ι) definition id).restrict (Alone id)) where
  once := by
    intro ticks hreach
    exact (serial_of_reachable hreach).executesOnce
  progress := by
    intro ticks action after saga hreach hstep hsaga
    exact ((serial_of_reachable hreach).step hstep.1 hstep.2 hsaga).2

end Steps

namespace TwoLoads

/-- One step, which can be undone. -/
def definition : SagaDefinition where
  name := "transfer"
  steps := [{ name := "debit", actionUri := "tool://debit", compensateUri := some "tool://undo" }]

/-- The saga has been started. -/
def started : SagaWorld := .startWith definition [.newId ⟨"sg"⟩, .clock 0, .quiet]

/-- Both ticks load the saga before one of them executes its step. -/
def actions : List (TickAction Bool) :=
  [.tick false, .tick true, .call false .quiet, .call true .quiet,
    .call false (.clock 0), .call true (.clock 0),
    .call false (.result (.ok true)), .call true (.result (.ok true))]

/-- Both ticks have executed it. -/
def executedTwice : Ticks Bool :=
  (TransitionSystem.replay (next ⟨"sg"⟩) (idle started) actions).getD (idle started)

theorem reachable_executedTwice :
    (system definition ⟨"sg"⟩).Reachable executedTwice := by
  have hstart : (system definition ⟨"sg"⟩).init (idle started : Ticks Bool) :=
    ⟨.empty, ⟨"t"⟩, none, started,
      exec_of_runWith [.newId ⟨"sg"⟩, .clock 0, .quiet] rfl, rfl⟩
  have hreplay : TransitionSystem.replay (next ⟨"sg"⟩) (idle started) actions =
      some executedTwice := rfl
  exact TransitionSystem.Reachable.run (.init hstart)
    (.of_replay (fun _ _ _ hstep => hstep) hreplay)

end TwoLoads

/-- The step has been executed twice. -/
theorem not_isolated_twoLoads :
    ¬Isolated ⟨"sg"⟩ (system (ι := Bool) TwoLoads.definition ⟨"sg"⟩) := by
  intro h
  have honce := h.once _ TwoLoads.reachable_executedTwice 0
  exact absurd honce (by decide)

end Ticks

end Soulbase.Tx
