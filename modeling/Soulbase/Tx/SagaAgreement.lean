/-
# Sagas over either store

Orchestrators start and tick sagas, any number of them at once, over the in-memory saga store
or over SurrealDB. The stores are not the same: the one refuses to save a saga that it does not
have, which the other ignores, and rows are found under a record id in which two sagas of
different tenants may meet. An orchestrator cannot tell them apart. It inserts a saga
under the id it has just drawn, ids of one length never meet, and it saves only what is there.

So whatever can be said of the orchestrators and of all calls with their answers holds in
every interleaving over the one store just if it does over the other, as long as no id is
drawn twice.
-/

import Soulbase.Foundation.Simulation
import Soulbase.Foundation.Trail
import Soulbase.Tx.SagaRun
import Soulbase.Tx.Surreal.SagaStore

namespace Soulbase.Tx

open Soulbase.Foundation Soulbase.Storage Orchestration SagaOrchestrator

/-- What an orchestrator is asked to do. -/
inductive SagaRequest
  | start (tenant : TenantId) (definition : SagaDefinition) (timeoutAt : Option Int64)
  | tick (id : Id)

/-- The answer to a request. A tick has none but its end. -/
def SagaRequest.serve : SagaRequest → Orchestration (Option Id)
  | start tenant definition timeoutAt => do
      let id ← SagaOrchestrator.start tenant definition timeoutAt
      return some id
  | tick id => do
      SagaOrchestrator.tick id
      return none

/-- The calls so far, with who made them, the latest first. -/
abbrev SagaLog (ι : Type) := List (ι × Sigma SagaOp.Answer)

/-- The table `tx_saga`, and the calls of the participant. -/
structure SurrealSagaWorld where
  rows : SagaRows
  calls : List SagaCall

namespace SurrealSagaWorld

/-- More calls of the participant. -/
def append (world : SurrealSagaWorld) (calls : List SagaCall) : SurrealSagaWorld :=
  { world with calls := world.calls ++ calls }

/-- What the environment does on a call. A table yields its rows in some order. -/
def answer : Handler SagaOp SagaOp.Answer (SagaChoice × List String) SurrealSagaWorld
  | world, (.newId id, _), .newSagaId => some (id, world)
  | world, (.clock time, _), .nowMs => some (time, world)
  | world, (.quiet, _), .insert saga =>
      some ((SurrealSagaStore.insert world.rows saga).1,
        { world with rows := (SurrealSagaStore.insert world.rows saga).2 })
  | world, (.quiet, order), .load id => some (SurrealSagaStore.load world.rows id order, world)
  | world, (.quiet, _), .save saga =>
      some ((SurrealSagaStore.save world.rows saga).1,
        { world with rows := (SurrealSagaStore.save world.rows saga).2 })
  | world, (.result result, _), .execute index uri _ =>
      some (result, world.append [.execute index uri result])
  | world, (.result result, _), .compensate index uri _ =>
      some (result, world.append [.compensate index uri result])
  | _, _, _ => none

end SurrealSagaWorld

/-- The id is one that `new_saga_id` makes. -/
def IsNewSagaId (id : Id) : Prop :=
  ∃ suffix : List Char, suffix.length = 16 ∧ (∀ c ∈ suffix, c.isAlphanum = true) ∧
    id.asStr = "sg-" ++ String.ofList suffix

/-- The id was drawn. -/
def Drawn {ι : Type} (log : SagaLog ι) (id : Id) : Prop :=
  ∃ caller, (caller, ⟨.newSagaId, id⟩) ∈ log

/-- No id is drawn twice. -/
def FreshChoice {ι : Type} (log : SagaLog ι) (choice : SagaChoice) : Prop :=
  ∀ id, choice = .newId id → IsNewSagaId id ∧ ¬Drawn log id

section Systems

variable {ι : Type} [DecidableEq ι]

/-- Orchestrators over the in-memory store. -/
abbrev MemorySagas (ι : Type) :=
  Pool ι SagaOp SagaOp.Answer (Except SagaStop (Option Id))
    (Logged ι SagaOp SagaOp.Answer SagaWorld)

/-- Orchestrators over SurrealDB. -/
abbrev SurrealSagas (ι : Type) :=
  Pool ι SagaOp SagaOp.Answer (Except SagaStop (Option Id))
    (Logged ι SagaOp SagaOp.Answer SurrealSagaWorld)

/-- Each orchestrator has its request, and both start without sagas. -/
def memorySagas (requests : ι → SagaRequest) :
    TransitionSystem (MemorySagas ι) (ι × SagaChoice) :=
  (TransitionSystem.ofNext
    { shared := { env := { sagas := .empty, calls := [] }, log := [] }
      threads := fun i => (requests i).serve.run }
    fun pool step => pool.call (SagaWorld.answer.logged step.1) step.1 step.2).restrict
  fun pool step => FreshChoice pool.shared.log step.2

/-- The same over SurrealDB. The order of the rows is any order there is. -/
def surrealSagas (requests : ι → SagaRequest) :
    TransitionSystem (SurrealSagas ι) (ι × SagaChoice × List String) :=
  (TransitionSystem.ofNext
    { shared := { env := { rows := ∅, calls := [] }, log := [] }
      threads := fun i => (requests i).serve.run }
    fun pool step => pool.call (SurrealSagaWorld.answer.logged step.1) step.1 step.2).restrict
  fun pool step =>
    FreshChoice pool.shared.log step.2.1 ∧ pool.shared.env.rows.Enumerates step.2.2

end Systems

/-- What an orchestrator has in hand. -/
inductive SagaHolding
  | nothing
  | drew (id : Id)
  | loaded (saga : SagaInstance)

/-- The instances go by the same names. -/
def SameNames (saga after : SagaInstance) : Prop :=
  after.id = saga.id ∧ after.tenant = saga.tenant

/-- An orchestrator inserts under the id that it has drawn, and saves what it has loaded. -/
def sagaDiscipline : Discipline SagaOp SagaOp.Answer SagaHolding where
  permits holding
    | .insert saga => holding = .drew saga.id
    | .save saga => ∃ loaded, holding = .loaded loaded ∧ SameNames loaded saga
    | _ => True
  ensures _ _ := True
  after holding
    | .newSagaId, id => .drew id
    | .insert _, _ => .nothing
    | .load _, .ok (some saga) => .loaded saga
    | .load _, _ => .nothing
    | _, _ => holding

/-- A part of a tick ends with a saga that goes by the names of the loaded one. -/
def EndsNamed (saga : SagaInstance) (result : Except SagaStop SagaInstance)
    (holding : SagaHolding) : Prop :=
  holding = .loaded saga ∧ ∀ after, result = .ok after → SameNames saga after

/-- A round of the loop does, too. -/
def EndsRoundNamed (saga : SagaInstance) (result : Except SagaStop Flow)
    (holding : SagaHolding) : Prop :=
  holding = .loaded saga ∧
    ∀ flow, result = .ok flow → match flow with
      | .again after | .stop after => SameNames saga after

section Follows

variable {loaded saga : SagaInstance}

theorem endsNamed_ok {after : SagaInstance} (h : SameNames loaded after) :
    EndsNamed loaded (.ok after) (.loaded loaded) := by
  refine ⟨rfl, ?_⟩
  rintro _ ⟨⟩
  exact h

/-- A step that is there is taken; otherwise, the tick panics. -/
theorem follows_names_stepAt {α : Type} {post : Except SagaStop α → SagaHolding → Prop}
    {idx : ℕ} {next : SagaStepState → Orchestration α}
    (herror : post (.error .panic) (.loaded loaded))
    (hnext : ∀ step, (next step).run.Follows sagaDiscipline post (.loaded loaded)) :
    (stepAt saga idx >>= next).run.Follows sagaDiscipline post (.loaded loaded) := by
  unfold stepAt
  cases saga.steps[idx]? with
  | none => exact herror
  | some step => exact hnext step

theorem follows_names_tickRunning (h : SameNames loaded saga) :
    (tickRunning saga).run.Follows sagaDiscipline (EndsNamed loaded) (.loaded loaded) := by
  unfold tickRunning
  split
  case isTrue => exact endsNamed_ok h
  case isFalse =>
    split
    case isTrue => exact endsNamed_ok h
    case isFalse =>
      apply follows_names_stepAt
      · exact ⟨rfl, nofun⟩
      intro step
      refine ⟨trivial, fun now _ => ⟨trivial, fun result _ => ?_⟩⟩
      match result with
      | .ok true => exact ⟨trivial, fun completedAt _ => endsNamed_ok h⟩
      | .ok false => exact endsNamed_ok h
      | .error _ => exact endsNamed_ok h

theorem follows_names_compensateRound (h : SameNames loaded saga) :
    (compensateRound saga).run.Follows sagaDiscipline (EndsRoundNamed loaded)
      (.loaded loaded) := by
  have hends : ∀ flow : Flow, (match flow with
      | .again after | .stop after => SameNames loaded after) →
      EndsRoundNamed loaded (.ok flow) (.loaded loaded) := by
    intro flow hflow
    refine ⟨rfl, ?_⟩
    rintro _ ⟨⟩
    exact hflow
  unfold compensateRound
  split
  case isTrue => exact hends (.stop _) h
  case isFalse =>
    dsimp only
    split
    case isTrue => exact hends (.again _) h
    case isFalse =>
      apply follows_names_stepAt
      · exact ⟨rfl, nofun⟩
      intro step
      cases step.spec.compensateUri with
      | none => exact hends (.again _) h
      | some uri =>
          refine ⟨trivial, fun result _ => ?_⟩
          match result with
          | .ok true => exact ⟨trivial, fun completedAt _ => hends (.again _) h⟩
          | .ok false => exact hends (.stop _) h
          | .error _ => exact hends (.stop _) h

theorem follows_names_tickCompensating {rounds : ℕ} (h : SameNames loaded saga) :
    (tickCompensating rounds saga).run.Follows sagaDiscipline (EndsNamed loaded)
      (.loaded loaded) := by
  induction rounds generalizing saga with
  | zero => exact ⟨rfl, nofun⟩
  | succ rounds ih =>
      apply follows_fallible_bind (follows_names_compensateRound h)
      · intro stop holding hended
        exact ⟨hended.1, nofun⟩
      · rintro flow _ ⟨rfl, hflow⟩
        cases flow with
        | again next => exact ih (hflow _ rfl)
        | stop after => exact endsNamed_ok (hflow _ rfl)

theorem follows_names_progress (h : SameNames loaded saga) :
    (progress saga).run.Follows sagaDiscipline (EndsNamed loaded) (.loaded loaded) := by
  unfold progress
  split
  case h_1 => exact follows_names_tickRunning h
  case h_2 => exact follows_names_tickCompensating h
  all_goals exact endsNamed_ok h

/-- An orchestrator inserts what it has named, and saves what it has loaded. -/
theorem follows_serve (request : SagaRequest) :
    request.serve.run.Follows sagaDiscipline (fun _ _ => True) .nothing := by
  cases request with
  | start tenant definition timeoutAt =>
      refine ⟨trivial, fun id _ => ⟨trivial, fun now _ => ⟨rfl, fun inserted _ => ?_⟩⟩⟩
      cases inserted with
      | error _ => exact trivial
      | ok _ => exact trivial
  | tick id =>
      refine ⟨trivial, fun found _ => ?_⟩
      match found with
      | .error _ => exact trivial
      | .ok none => exact trivial
      | .ok (some saga) =>
          have htick : (progress saga >>= saveNow).run.Follows sagaDiscipline
              (fun _ _ => True) (.loaded saga) := by
            apply follows_fallible_bind (follows_names_progress ⟨rfl, rfl⟩)
            · exact fun _ _ _ => trivial
            · rintro after _ ⟨rfl, hafter⟩
              refine ⟨trivial, fun now _ => ⟨⟨saga, rfl, hafter after rfl⟩, ?_⟩⟩
              intro saved _
              cases saved with
              | error _ => exact trivial
              | ok _ => exact trivial
          exact follows_fallible_bind htick (fun _ _ _ => trivial) fun _ _ _ => trivial

end Follows

/-- What an orchestrator has in hand after all that is logged. -/
def SagaLog.holding {ι : Type} [DecidableEq ι] (log : SagaLog ι) (i : ι) : SagaHolding :=
  sagaDiscipline.standing .nothing log i

/-- Every id that is stored or in hand was drawn, and is drawn by one orchestrator. -/
structure WellNamed {ι : Type} [DecidableEq ι]
    (threads : ι → Program SagaOp SagaOp.Answer (Except SagaStop (Option Id)))
    (log : SagaLog ι) (sagas : InMemorySagaStore) : Prop where
  named : ∀ key saga, sagas.items.get key = some saga → IsNewSagaId saga.id ∧ Drawn log saga.id
  follows : ∀ i, (threads i).Follows sagaDiscipline (fun _ _ => True) (log.holding i)
  drew : ∀ i id, log.holding i = .drew id → IsNewSagaId id ∧ Drawn log id ∧
    sagas.items.get id.asStr = none ∧ ∀ j, log.holding j = .drew id → j = i
  loaded : ∀ i saga, log.holding i = .loaded saga →
    ∃ stored, sagas.items.get saga.id.asStr = some stored ∧ stored.tenant = saga.tenant

section WellNamed

variable {ι : Type} [DecidableEq ι] {log : SagaLog ι} {sagas : InMemorySagaStore} {i j : ι}
variable {threads : ι → Program SagaOp SagaOp.Answer (Except SagaStop (Option Id))}
variable {op : SagaOp} {answer : op.Answer} {saga : SagaInstance} {id : Id}

omit [DecidableEq ι] in
theorem Drawn.cons (h : Drawn log id) (entry : ι × Sigma SagaOp.Answer) :
    Drawn (entry :: log) id := by
  obtain ⟨caller, hcaller⟩ := h
  exact ⟨caller, List.mem_cons_of_mem _ hcaller⟩

theorem holding_cons_self :
    SagaLog.holding ((i, ⟨op, answer⟩) :: log) i =
      sagaDiscipline.after (log.holding i) op answer :=
  Function.update_self _ _ _

theorem holding_cons_of_ne (h : j ≠ i) :
    SagaLog.holding ((i, ⟨op, answer⟩) :: log) j = log.holding j :=
  Function.update_of_ne h _ _

theorem follows_cons
    {resume : op.Answer → Program SagaOp SagaOp.Answer (Except SagaStop (Option Id))}
    (h : ∀ j, (threads j).Follows sagaDiscipline (fun _ _ => True) (log.holding j))
    (hthread : threads i = .call op resume) (j : ι) :
    (Function.update threads i (resume answer) j).Follows sagaDiscipline (fun _ _ => True)
      (SagaLog.holding ((i, ⟨op, answer⟩) :: log) j) :=
  Pool.follows_call (D := fun _ => sagaDiscipline) h hthread trivial j

/-- An instance that is stored has the id it is stored under. -/
theorem InMemorySagaStore.id_of_get (h : sagas.items.get id.asStr = some saga) : saga.id = id :=
  (Id.asStr_inj.mp (sagas.keyed _ _ h)).symm

/-- A call that is neither about names nor about the store. -/
theorem WellNamed.aside (h : WellNamed threads log sagas) {resume}
    (hthread : threads i = .call op resume)
    (hafter : ∀ holding, sagaDiscipline.after holding op answer = holding) :
    WellNamed (Function.update threads i (resume answer)) ((i, ⟨op, answer⟩) :: log) sagas := by
  have hholding : ∀ j, SagaLog.holding ((i, ⟨op, answer⟩) :: log) j = log.holding j := by
    intro j
    by_cases hj : j = i
    · rw [hj, holding_cons_self, hafter]
    · exact holding_cons_of_ne hj
  refine ⟨?_, follows_cons h.follows hthread, ?_, ?_⟩
  · intro key saga hget
    obtain ⟨hnew, hdrawn⟩ := h.named key saga hget
    exact ⟨hnew, hdrawn.cons _⟩
  · intro j id hj
    rw [hholding] at hj
    obtain ⟨hnew, hdrawn, hnone, hunique⟩ := h.drew j id hj
    refine ⟨hnew, hdrawn.cons _, hnone, fun k hk => hunique k ?_⟩
    rwa [hholding] at hk
  · intro j saga hj
    rw [hholding] at hj
    exact h.loaded j saga hj

theorem WellNamed.draw (h : WellNamed threads log sagas) {resume}
    (hthread : threads i = .call .newSagaId resume) (hnew : IsNewSagaId id)
    (hfresh : ¬Drawn log id) :
    WellNamed (Function.update threads i (resume id)) ((i, ⟨.newSagaId, id⟩) :: log) sagas := by
  have hcaller : SagaLog.holding ((i, ⟨.newSagaId, id⟩) :: log) i = .drew id := holding_cons_self
  refine ⟨?_, follows_cons h.follows hthread, ?_, ?_⟩
  · intro key saga hget
    obtain ⟨hnamed, hdrawn⟩ := h.named key saga hget
    exact ⟨hnamed, hdrawn.cons _⟩
  · intro j other hj
    by_cases hji : j = i
    · subst hji
      rw [hcaller] at hj
      cases hj
      refine ⟨hnew, ⟨j, List.mem_cons_self⟩, ?_, ?_⟩
      · cases hget : sagas.items.get id.asStr with
        | none => rfl
        | some saga =>
            have hdrawn := (h.named _ saga hget).2
            rw [InMemorySagaStore.id_of_get hget] at hdrawn
            exact absurd hdrawn hfresh
      · intro k hk
        by_contra hkj
        rw [holding_cons_of_ne hkj] at hk
        exact hfresh (h.drew k id hk).2.1
    · rw [holding_cons_of_ne hji] at hj
      obtain ⟨hnamed, hdrawn, hnone, hunique⟩ := h.drew j other hj
      refine ⟨hnamed, hdrawn.cons _, hnone, ?_⟩
      intro k hk
      by_cases hki : k = i
      · subst hki
        rw [hcaller] at hk
        cases hk
        exact absurd hdrawn hfresh
      · rw [holding_cons_of_ne hki] at hk
        exact hunique k hk
  · intro j saga hj
    by_cases hji : j = i
    · rw [hji, hcaller] at hj
      cases hj
    · rw [holding_cons_of_ne hji] at hj
      exact h.loaded j saga hj

theorem WellNamed.insert (h : WellNamed threads log sagas) {resume}
    (hthread : threads i = .call (.insert saga) resume) (result : TxResult Unit) :
    WellNamed (Function.update threads i (resume result)) ((i, ⟨.insert saga, result⟩) :: log)
      (sagas.put saga) := by
  have hpermits := h.follows i
  rw [hthread] at hpermits
  obtain ⟨hnew, hdrawn, hnone, hunique⟩ := h.drew i saga.id hpermits.1
  have hcaller : SagaLog.holding ((i, ⟨.insert saga, result⟩) :: log) i = .nothing :=
    holding_cons_self
  refine ⟨?_, follows_cons h.follows hthread, ?_, ?_⟩
  · intro key stored hget
    rw [InMemorySagaStore.get_put] at hget
    split at hget
    case isTrue =>
      cases hget
      exact ⟨hnew, hdrawn.cons _⟩
    case isFalse =>
      obtain ⟨hnamed, hother⟩ := h.named key stored hget
      exact ⟨hnamed, hother.cons _⟩
  · intro j id hj
    by_cases hji : j = i
    · rw [hji, hcaller] at hj
      cases hj
    · rw [holding_cons_of_ne hji] at hj
      obtain ⟨hnamed, hother, hfree, halone⟩ := h.drew j id hj
      have hne : id ≠ saga.id := by
        rintro rfl
        exact hji (halone i hpermits.1).symm
      refine ⟨hnamed, hother.cons _, ?_, ?_⟩
      · rw [InMemorySagaStore.get_put, if_neg fun heq => hne (Id.asStr_inj.mp heq)]
        exact hfree
      · intro k hk
        by_cases hki : k = i
        · rw [hki, hcaller] at hk
          cases hk
        · rw [holding_cons_of_ne hki] at hk
          exact halone k hk
  · intro j loaded hj
    by_cases hji : j = i
    · rw [hji, hcaller] at hj
      cases hj
    · rw [holding_cons_of_ne hji] at hj
      obtain ⟨stored, hget, htenant⟩ := h.loaded j loaded hj
      refine ⟨stored, ?_, htenant⟩
      rw [InMemorySagaStore.get_put, if_neg]
      · exact hget
      · intro heq
        rw [heq, hnone] at hget
        cases hget

theorem WellNamed.load (h : WellNamed threads log sagas) {resume}
    (hthread : threads i = .call (.load id) resume) :
    WellNamed (Function.update threads i (resume (sagas.load id)))
      ((i, ⟨.load id, sagas.load id⟩) :: log) sagas := by
  have hcaller : SagaLog.holding ((i, ⟨.load id, sagas.load id⟩) :: log) i = .nothing ∨
      ∃ saga, sagas.items.get id.asStr = some saga ∧
        SagaLog.holding ((i, ⟨.load id, sagas.load id⟩) :: log) i = .loaded saga := by
    rw [holding_cons_self, InMemorySagaStore.load]
    cases hget : sagas.items.get id.asStr with
    | none => exact .inl rfl
    | some saga => exact .inr ⟨saga, rfl, rfl⟩
  have hundrawn : ∀ other, SagaLog.holding ((i, ⟨.load id, sagas.load id⟩) :: log) i ≠
      .drew other := by
    intro other hdrew
    rcases hcaller with hnothing | ⟨saga, -, hloaded⟩
    · cases hnothing.symm.trans hdrew
    · cases hloaded.symm.trans hdrew
  refine ⟨?_, follows_cons h.follows hthread, ?_, ?_⟩
  · intro key saga hget
    obtain ⟨hnamed, hdrawn⟩ := h.named key saga hget
    exact ⟨hnamed, hdrawn.cons _⟩
  · intro j other hj
    by_cases hji : j = i
    · exact absurd (hji ▸ hj) (hundrawn other)
    · rw [holding_cons_of_ne hji] at hj
      obtain ⟨hnamed, hdrawn, hnone, hunique⟩ := h.drew j other hj
      refine ⟨hnamed, hdrawn.cons _, hnone, ?_⟩
      intro k hk
      by_cases hki : k = i
      · exact absurd (hki ▸ hk) (hundrawn other)
      · rw [holding_cons_of_ne hki] at hk
        exact hunique k hk
  · intro j saga hj
    by_cases hji : j = i
    · rw [hji] at hj
      rcases hcaller with hnothing | ⟨found, hget, hloaded⟩
      · cases hnothing.symm.trans hj
      · cases hloaded.symm.trans hj
        exact ⟨saga, by rw [InMemorySagaStore.id_of_get hget, hget], rfl⟩
    · rw [holding_cons_of_ne hji] at hj
      exact h.loaded j saga hj

/-- What is saved is stored, for the same tenant. -/
theorem WellNamed.stored_of_save (h : WellNamed threads log sagas) {resume}
    (hthread : threads i = .call (.save saga) resume) :
    ∃ stored, sagas.items.get saga.id.asStr = some stored ∧ stored.tenant = saga.tenant := by
  have hpermits := h.follows i
  rw [hthread] at hpermits
  obtain ⟨loaded, hloaded, hid, htenant⟩ := hpermits.1
  rw [hid, htenant]
  exact h.loaded i loaded hloaded

theorem WellNamed.save (h : WellNamed threads log sagas) {resume}
    (hthread : threads i = .call (.save saga) resume) (result : TxResult Unit) :
    WellNamed (Function.update threads i (resume result)) ((i, ⟨.save saga, result⟩) :: log)
      (sagas.put saga) := by
  obtain ⟨old, hold, holdTenant⟩ := h.stored_of_save hthread
  have hnames := InMemorySagaStore.id_of_get hold
  have haside : WellNamed (Function.update threads i (resume result))
      ((i, ⟨.save saga, result⟩) :: log) sagas := h.aside hthread fun _ => rfl
  refine ⟨?_, haside.follows, ?_, ?_⟩
  · intro key stored hget
    rw [InMemorySagaStore.get_put] at hget
    split at hget
    case isTrue =>
      cases hget
      rw [← hnames]
      exact haside.named _ old hold
    case isFalse => exact haside.named key stored hget
  · intro j id hj
    obtain ⟨hnamed, hdrawn, hnone, hunique⟩ := haside.drew j id hj
    refine ⟨hnamed, hdrawn, ?_, hunique⟩
    rw [InMemorySagaStore.get_put, if_neg]
    · exact hnone
    · intro heq
      rw [heq, hold] at hnone
      cases hnone
  · intro j loaded hj
    obtain ⟨stored, hget, htenant⟩ := haside.loaded j loaded hj
    rw [InMemorySagaStore.get_put]
    split
    case isTrue heq =>
      rw [heq, hold] at hget
      cases hget
      exact ⟨saga, rfl, holdTenant.symm.trans htenant⟩
    case isFalse => exact ⟨stored, hget, htenant⟩

end WellNamed

/-! ## The rows of the sagas -/

/-- The table holds the rows of the instances that the store holds. -/
def SameSagas (sagas : InMemorySagaStore) (rows : SagaRows) : Prop :=
  ∀ rid doc, rows.get rid = some doc ↔
    ∃ saga, sagas.items.get saga.id.asStr = some saga ∧ doc = sagaDocFromInstance saga ∧
      rid = doc.id

theorem length_of_isNewSagaId {id : Id} (h : IsNewSagaId id) : id.asStr.length = 19 := by
  obtain ⟨suffix, hlength, _, hid⟩ := h
  have hprefix : "sg-".length = 3 := rfl
  rw [hid, String.length_append, hprefix, String.length_ofList, hlength]

/-- Sagas whose ids are of one length do not meet in a record id. -/
theorem id_eq_of_recordId {saga other : SagaInstance} (hsaga : IsNewSagaId saga.id)
    (hother : IsNewSagaId other.id)
    (h : (sagaDocFromInstance saga).id = (sagaDocFromInstance other).id) : saga.id = other.id := by
  have hlength := length_of_isNewSagaId hsaga
  have hlength' := length_of_isNewSagaId hother
  have hseparator : "_".length = 1 := rfl
  rcases recordIdFor_eq_iff.mp h with ⟨_, hid⟩ | ⟨middle, _, hid⟩ | ⟨middle, _, hid⟩
  · exact Id.asStr_inj.mp hid
  · rw [hid, String.length_append, String.length_append] at hlength
    omega
  · rw [hid, String.length_append, String.length_append] at hlength'
    omega

section Rows

variable {sagas : InMemorySagaStore} {rows : SagaRows} {saga : SagaInstance} {id : Id}

theorem sameSagas_empty : SameSagas .empty ∅ := by
  intro rid doc
  rw [HashMap.get_empty]
  constructor
  · nofun
  · rintro ⟨saga, hget, _⟩
    rw [InMemorySagaStore.empty, HashMap.get_empty] at hget
    cases hget

theorem SameSagas.put (h : SameSagas sagas rows)
    (hnew : ∀ key stored, sagas.items.get key = some stored → IsNewSagaId stored.id)
    (hsaga : IsNewSagaId saga.id)
    (htenant : ∀ stored, sagas.items.get saga.id.asStr = some stored →
      stored.tenant = saga.tenant) :
    SameSagas (sagas.put saga)
      (rows.put (sagaDocFromInstance saga).id (sagaDocFromInstance saga)) := by
  intro rid doc
  rw [HashMap.get_put]
  by_cases hrid : rid = (sagaDocFromInstance saga).id
  · rw [if_pos hrid, Option.some.injEq]
    constructor
    · rintro rfl
      exact ⟨saga, by rw [InMemorySagaStore.get_put, if_pos rfl], rfl, hrid⟩
    · rintro ⟨other, hget, rfl, hother⟩
      rw [InMemorySagaStore.get_put] at hget
      split at hget
      case isTrue =>
        cases hget
        rfl
      case isFalse hne =>
        have hid := id_eq_of_recordId (hnew _ other hget) hsaga (hother.symm.trans hrid)
        exact absurd (congrArg Id.asStr hid) hne
  · rw [if_neg hrid, h rid doc]
    refine exists_congr fun other => and_congr_left ?_
    rintro ⟨rfl, hother⟩
    rw [InMemorySagaStore.get_put]
    split
    case isFalse => exact Iff.rfl
    case isTrue heq =>
      -- it would be the row that is written
      have hid : other.id = saga.id := Id.asStr_inj.mp heq
      refine iff_of_false ?_ ?_
      · intro hget
        apply hrid
        rw [heq] at hget
        rw [hother]
        simp only [sagaDocFromInstance, hid, htenant other hget]
      · rintro ⟨⟩
        exact hrid hother

theorem SameSagas.insert (h : SameSagas sagas rows)
    (hnew : ∀ key stored, sagas.items.get key = some stored → IsNewSagaId stored.id)
    (hsaga : IsNewSagaId saga.id) (hnone : sagas.items.get saga.id.asStr = none) :
    sagas.insert saga = (.ok (), sagas.put saga) ∧
      (SurrealSagaStore.insert rows saga).1 = .ok () ∧
        SameSagas (sagas.put saga) (SurrealSagaStore.insert rows saga).2 := by
  have hfree : rows.get (sagaDocFromInstance saga).id = none := by
    cases hget : rows.get (sagaDocFromInstance saga).id with
    | none => rfl
    | some doc =>
        obtain ⟨other, hother, rfl, hrid⟩ := (h _ _).mp hget
        have hid := id_eq_of_recordId hsaga (hnew _ other hother) hrid
        rw [hid, hother] at hnone
        cases hnone
  have hcreate : rows.create (sagaDocFromInstance saga).id (sagaDocFromInstance saga) = _ :=
    Records.create_of_get_eq_none hfree
  have hput := h.put hnew hsaga fun stored hget => by rw [hnone] at hget; cases hget
  refine ⟨by simp only [InMemorySagaStore.insert, hnone], ?_, ?_⟩
  · simp only [SurrealSagaStore.insert, hcreate]
  · simp only [SurrealSagaStore.insert, hcreate]
    exact hput

theorem SameSagas.save (h : SameSagas sagas rows)
    (hnew : ∀ key stored, sagas.items.get key = some stored → IsNewSagaId stored.id)
    {old : SagaInstance} (hold : sagas.items.get saga.id.asStr = some old)
    (htenant : old.tenant = saga.tenant) :
    sagas.save saga = (.ok (), sagas.put saga) ∧
      (SurrealSagaStore.save rows saga).1 = .ok () ∧
        SameSagas (sagas.put saga) (SurrealSagaStore.save rows saga).2 := by
  have hid := InMemorySagaStore.id_of_get hold
  have hrow : rows.get (sagaDocFromInstance saga).id = some (sagaDocFromInstance old) := by
    refine (h _ _).mpr ⟨old, by rw [hid, hold], rfl, ?_⟩
    simp only [sagaDocFromInstance, hid, htenant]
  have hselect : rows.select (sagaDocFromInstance saga).id (fun _ => true) = _ :=
    Records.select_of_get hrow rfl
  have hreplace : rows.update (sagaDocFromInstance saga).id (fun _ => true)
      (fun _ => sagaDocFromInstance saga) = _ := Records.update_of_select hselect
  have hput := h.put hnew (hid ▸ hnew _ old hold) fun stored hget => by
    rw [hold] at hget
    cases hget
    exact htenant
  refine ⟨by simp only [InMemorySagaStore.save, hold], rfl, ?_⟩
  simp only [SurrealSagaStore.save, Records.replace, hreplace]
  exact hput

theorem SameSagas.load (h : SameSagas sagas rows) {order : List String}
    (horder : rows.Enumerates order) : SurrealSagaStore.load rows id order = sagas.load id := by
  have hrows : ∀ doc, doc ∈ Records.selectWhere rows order (fun doc => doc.sagaId = id.asStr) ↔
      ∃ saga, sagas.items.get id.asStr = some saga ∧ doc = sagaDocFromInstance saga := by
    intro doc
    rw [Records.selectWhere, List.mem_filter, horder.mem_valuesIn, decide_eq_true_iff]
    constructor
    · rintro ⟨⟨rid, hget⟩, hid⟩
      obtain ⟨saga, hstored, rfl, _⟩ := (h rid doc).mp hget
      exact ⟨saga, by rw [← hid]; exact hstored, rfl⟩
    · rintro ⟨saga, hstored, rfl⟩
      have hid := InMemorySagaStore.id_of_get hstored
      refine ⟨⟨_, (h _ _).mpr ⟨saga, by rw [hid, hstored], rfl, rfl⟩⟩, ?_⟩
      rw [← hid]
      rfl
  rw [SurrealSagaStore.load, InMemorySagaStore.load]
  cases hhead : (Records.selectWhere rows order fun doc => doc.sagaId = id.asStr).head? with
  | none =>
      have hnil := List.head?_eq_none_iff.mp hhead
      cases hget : sagas.items.get id.asStr with
      | none => rfl
      | some saga =>
          have hmem := (hrows _).mpr ⟨saga, hget, rfl⟩
          rw [hnil] at hmem
          cases hmem
  | some doc =>
      obtain ⟨saga, hstored, rfl⟩ := (hrows doc).mp (List.mem_of_mem_head? hhead)
      dsimp only
      rw [sagaInstanceFromDoc_docFromInstance, hstored]
      rfl

end Rows

/-- Orchestrators have come equally far over stores that hold the same. -/
structure SameCourse {ι : Type} [DecidableEq ι] (surreal : SurrealSagas ι)
    (memory : MemorySagas ι) : Prop where
  threads : surreal.threads = memory.threads
  log : surreal.shared.log = memory.shared.log
  calls : surreal.shared.env.calls = memory.shared.env.calls
  sagas : SameSagas memory.shared.env.sagas surreal.shared.env.rows
  wellNamed : WellNamed memory.threads memory.shared.log memory.shared.env.sagas

section Courses

variable {ι : Type} [DecidableEq ι] {surreal : SurrealSagas ι} {memory : MemorySagas ι} {i : ι}
variable {op : SagaOp}
variable {resume : op.Answer → Program SagaOp SagaOp.Answer (Except SagaStop (Option Id))}
variable {choice : SagaChoice} {order : List String}

/-- What both stores answer, and that they stay the same. -/
theorem SameCourse.answers (h : SameCourse surreal memory)
    (hthread : memory.threads i = .call op resume)
    (hfresh : FreshChoice memory.shared.log choice)
    (horder : surreal.shared.env.rows.Enumerates order) :
    (SurrealSagaWorld.answer surreal.shared.env (choice, order) op = none ∧
      SagaWorld.answer memory.shared.env choice op = none) ∨
    ∃ answer world world',
      SurrealSagaWorld.answer surreal.shared.env (choice, order) op = some (answer, world) ∧
        SagaWorld.answer memory.shared.env choice op = some (answer, world') ∧
        world.calls = world'.calls ∧ SameSagas world'.sagas world.rows ∧
        WellNamed (Function.update memory.threads i (resume answer))
          ((i, ⟨op, answer⟩) :: memory.shared.log) world'.sagas := by
  have hnew : ∀ key stored, memory.shared.env.sagas.items.get key = some stored →
      IsNewSagaId stored.id := fun key stored hget => (h.wellNamed.named key stored hget).1
  cases op with
  | newSagaId =>
      cases choice with
      | newId id =>
          obtain ⟨hid, hdrawn⟩ := hfresh id rfl
          exact .inr ⟨id, _, _, rfl, rfl, h.calls, h.sagas, h.wellNamed.draw hthread hid hdrawn⟩
      | _ => exact .inl ⟨rfl, rfl⟩
  | nowMs =>
      cases choice with
      | clock time =>
          exact .inr ⟨time, _, _, rfl, rfl, h.calls, h.sagas,
            h.wellNamed.aside hthread fun _ => rfl⟩
      | _ => exact .inl ⟨rfl, rfl⟩
  | insert saga =>
      cases choice with
      | quiet =>
          have hpermits := h.wellNamed.follows i
          rw [hthread] at hpermits
          obtain ⟨hsaga, _, hnone, _⟩ := h.wellNamed.drew i saga.id hpermits.1
          obtain ⟨hmemory, hsurreal, hsame⟩ := h.sagas.insert hnew hsaga hnone
          refine .inr ⟨.ok (),
            { surreal.shared.env with
              rows := (SurrealSagaStore.insert surreal.shared.env.rows saga).2 },
            { memory.shared.env with sagas := memory.shared.env.sagas.put saga },
            ?_, ?_, h.calls, hsame, h.wellNamed.insert hthread (.ok ())⟩
          · simp only [SurrealSagaWorld.answer, hsurreal]
          · simp only [SagaWorld.answer, hmemory]
      | _ => exact .inl ⟨rfl, rfl⟩
  | load id =>
      cases choice with
      | quiet =>
          refine .inr ⟨_, _, _, ?_, rfl, h.calls, h.sagas, h.wellNamed.load hthread⟩
          simp only [SurrealSagaWorld.answer, h.sagas.load horder]
      | _ => exact .inl ⟨rfl, rfl⟩
  | save saga =>
      cases choice with
      | quiet =>
          obtain ⟨old, hold, htenant⟩ := h.wellNamed.stored_of_save hthread
          obtain ⟨hmemory, hsurreal, hsame⟩ := h.sagas.save hnew hold htenant
          refine .inr ⟨.ok (),
            { surreal.shared.env with
              rows := (SurrealSagaStore.save surreal.shared.env.rows saga).2 },
            { memory.shared.env with sagas := memory.shared.env.sagas.put saga },
            ?_, ?_, h.calls, hsame, h.wellNamed.save hthread (.ok ())⟩
          · simp only [SurrealSagaWorld.answer, hsurreal]
          · simp only [SagaWorld.answer, hmemory]
      | _ => exact .inl ⟨rfl, rfl⟩
  | execute index uri saga =>
      cases choice with
      | result result =>
          refine .inr ⟨result, _, _, rfl, rfl, ?_, h.sagas, h.wellNamed.aside hthread fun _ => rfl⟩
          exact congrArg (· ++ [_]) h.calls
      | _ => exact .inl ⟨rfl, rfl⟩
  | compensate index uri saga =>
      cases choice with
      | result result =>
          refine .inr ⟨result, _, _, rfl, rfl, ?_, h.sagas, h.wellNamed.aside hthread fun _ => rfl⟩
          exact congrArg (· ++ [_]) h.calls
      | _ => exact .inl ⟨rfl, rfl⟩

/-- The course after a call that both stores have answered. -/
theorem SameCourse.next (h : SameCourse surreal memory) {answer : op.Answer}
    {world : SurrealSagaWorld} {world' : SagaWorld} (hcalls : world.calls = world'.calls)
    (hsagas : SameSagas world'.sagas world.rows)
    (hnamed : WellNamed (Function.update memory.threads i (resume answer))
      ((i, ⟨op, answer⟩) :: memory.shared.log) world'.sagas) :
    SameCourse
      { shared := { env := world, log := (i, ⟨op, answer⟩) :: surreal.shared.log }
        threads := Function.update surreal.threads i (resume answer) }
      { shared := { env := world', log := (i, ⟨op, answer⟩) :: memory.shared.log }
        threads := Function.update memory.threads i (resume answer) } where
  threads := by rw [h.threads]
  log := by rw [h.log]
  calls := hcalls
  sagas := hsagas
  wellNamed := hnamed

variable (requests : ι → SagaRequest)

theorem sagaBisimulation : Bisimulation (surrealSagas requests) (memorySagas requests)
    SameCourse := by
  have hstart : SameCourse
      { shared := { env := { rows := ∅, calls := [] }, log := [] }
        threads := fun i => (requests i).serve.run }
      { shared := { env := { sagas := .empty, calls := [] }, log := [] }
        threads := fun i => (requests i).serve.run } := by
    refine ⟨rfl, rfl, rfl, sameSagas_empty, ⟨?_, fun i => follows_serve (requests i), nofun, nofun⟩⟩
    intro key saga hget
    rw [InMemorySagaStore.empty, HashMap.get_empty] at hget
    cases hget
  refine ⟨⟨?_, ?_⟩, ⟨?_, ?_⟩⟩
  · rintro _ rfl
    exact ⟨_, rfl, hstart⟩
  · rintro surreal memory ⟨i, choice, order⟩ after h ⟨⟨hfresh, horder⟩, hstep⟩
    obtain ⟨op, resume, answer, shared, hthread, hlogged, rfl⟩ := Pool.call_eq_some_iff.mp hstep
    obtain ⟨world, hanswer, rfl⟩ := Handler.logged_eq_some_iff.mp hlogged
    rw [h.threads] at hthread
    rw [h.log] at hfresh
    rcases h.answers hthread hfresh horder with
      ⟨hnone, _⟩ | ⟨same, _, world', hsurreal, hmemory, hcalls, hsagas, hnamed⟩
    · rw [hanswer] at hnone
      cases hnone
    · rw [hanswer] at hsurreal
      cases hsurreal
      refine ⟨(i, choice), _, ⟨hfresh, Pool.call_eq_some_iff.mpr ⟨op, resume, answer, _, hthread,
        Handler.logged_eq_some_iff.mpr ⟨world', hmemory, rfl⟩, rfl⟩⟩, ?_⟩
      exact h.next hcalls hsagas hnamed
  · rintro _ rfl
    exact ⟨_, rfl, hstart⟩
  · rintro memory surreal ⟨i, choice⟩ after h ⟨hfresh, hstep⟩
    obtain ⟨op, resume, answer, shared, hthread, hlogged, rfl⟩ := Pool.call_eq_some_iff.mp hstep
    obtain ⟨world', hanswer, rfl⟩ := Handler.logged_eq_some_iff.mp hlogged
    have horder : surreal.shared.env.rows.Enumerates surreal.shared.env.rows.keys := .refl _
    rcases h.answers hthread hfresh horder with
      ⟨_, hnone⟩ | ⟨same, world, _, hsurreal, hmemory, hcalls, hsagas, hnamed⟩
    · rw [hanswer] at hnone
      cases hnone
    · rw [hanswer] at hmemory
      cases hmemory
      refine ⟨(i, choice, surreal.shared.env.rows.keys), _, ⟨⟨?_, horder⟩,
        Pool.call_eq_some_iff.mpr ⟨op, resume, answer, _, by rw [h.threads, hthread],
          Handler.logged_eq_some_iff.mpr ⟨world, hsurreal, rfl⟩, rfl⟩⟩, ?_⟩
      · dsimp only
        rw [h.log]
        exact hfresh
      · exact h.next hcalls hsagas hnamed

end Courses

/-- Over either store, orchestrators do the same. What can be said of what they have left to do
and of all calls with their answers is true in every state of the one system just if it is in
every state of the other, and the sagas in the two stores are the same all along. -/
theorem sagaStoresAgree {ι : Type} [DecidableEq ι] (requests : ι → SagaRequest) :
    (∀ said : (ι → Program SagaOp SagaOp.Answer (Except SagaStop (Option Id))) →
        SagaLog ι → Prop,
      (∀ pool, (surrealSagas requests).Reachable pool → said pool.threads pool.shared.log) ↔
        ∀ pool, (memorySagas requests).Reachable pool → said pool.threads pool.shared.log) ∧
    ∀ surreal, (surrealSagas requests).Reachable surreal → ∃ memory,
      (memorySagas requests).Reachable memory ∧
        surreal.shared.log = memory.shared.log ∧
          SameSagas memory.shared.env.sagas surreal.shared.env.rows := by
  have hbisimulation := sagaBisimulation requests
  constructor
  · intro said
    apply hbisimulation.transfer
    intro surreal memory h
    rw [h.threads, h.log]
  · intro surreal hsurreal
    obtain ⟨memory, hmemory, h⟩ := hbisimulation.forth.reachable hsurreal
    exact ⟨memory, hmemory, h.log, h.sagas⟩

end Soulbase.Tx
