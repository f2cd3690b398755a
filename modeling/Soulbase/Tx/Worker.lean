/-
# Workers and their shutdown

`spawn_runtime` spawns up to two tasks: one that lets a dispatcher tick at an interval,
and one that purges old dead letters at another. Both wait, in one `select!`, for their
timer or for the channel of their handle, on which a stop is sent or which is dropped
with the handle. While a tick or a purge is under way nothing is waited for, so it is
not interrupted. `shutdown` stops the dispatcher task and waits for its end, and then
does the same with the maintenance task. A panic inside a tick or a purge, which would end
the task there, is left out.

Any number of runtimes work on one store here, and anything else may change the store in
between. `Controlled` and `Ticking` hold of each runtime alone, whatever the others do, and give
the properties of `RuntimesOrderly`: a runtime that has been shut down does nothing any
more, no tick is ever left in the middle, the dispatcher ends before the maintenance is
told to, and a shutdown can always come to its end.
-/

import Soulbase.Tx.Fleet
import Soulbase.Tx.Retention

namespace Soulbase.Tx

open Soulbase.Foundation

/-- `WorkerConfig`. -/
structure WorkerConfig where
  enableDispatcher : Bool
  dispatcherIntervalMs : UInt64
  deadLetterIntervalMs : UInt64
  deadLetterRetentionMs : Option UInt64

namespace WorkerConfig

/-- `WorkerConfig::default`. -/
def default : WorkerConfig where
  enableDispatcher := true
  dispatcherIntervalMs := 500
  deadLetterIntervalMs := 60000
  deadLetterRetentionMs := none

end WorkerConfig

/-- A spawned task with its `DispatcherWorkerHandle`. -/
structure WorkerTask (Work : Type) where
  work : Work
  intervalMs : UInt64
  /-- The channel of the handle has something for the task: a stop, or the news that its
  sender is gone. -/
  stopRequested : Bool
  ended : Bool

namespace WorkerTask

variable {Work : Type}

/-- `spawn_dispatcher_worker` and `spawn_dead_letter_maintenance`. -/
def spawn (work : Work) (intervalMs : UInt64) : WorkerTask Work where
  work := work
  intervalMs := intervalMs
  stopRequested := false
  ended := false

/-- The stop is sent, or the sender is dropped. -/
def requestStop (task : WorkerTask Work) : WorkerTask Work := { task with stopRequested := true }

/-- The task leaves its loop. -/
def finish (task : WorkerTask Work) : WorkerTask Work := { task with ended := true }

/-- Whether a join of the task returns: it was not spawned, or it has ended. -/
def isGone (task : Option (WorkerTask Work)) : Bool := task.all (·.ended)

end WorkerTask

/-- How far the owner of the handles has come. -/
inductive HandlesOwner
  /-- It keeps them. -/
  | keeping
  /-- `TxRuntimeHandles::shutdown` waits for the dispatcher task. -/
  | awaitingDispatcher
  /-- `TxRuntimeHandles::shutdown` waits for the maintenance task. -/
  | awaitingMaintenance
  /-- `TxRuntimeHandles::shutdown` has returned. -/
  | returned
  /-- The handles are dropped, or the call of `shutdown` is. -/
  | dropped
  deriving DecidableEq

/-- What `spawn_runtime` is given. -/
structure RuntimeArgs where
  dispatcher : Option Dispatcher
  hasDeadStore : Bool
  tenant : TenantId
  cfg : WorkerConfig
  defaultRetentionMs : UInt64

/-- The tasks of a runtime, with what they have called, the first call first. -/
structure Runtime where
  tenant : TenantId
  dispatcher : Option (WorkerTask Dispatcher)
  /-- The maintenance task works with its retention. -/
  maintenance : Option (WorkerTask UInt64)
  owner : HandlesOwner
  /-- What is left of the present tick. -/
  job : Program DispatchOp DispatchOp.Answer (TxResult Unit)
  dispatched : List (Sigma DispatchOp.Answer)
  purged : List Int64

/-- The retention that `spawn_runtime` settles on. -/
def RuntimeArgs.retentionMs (args : RuntimeArgs) : UInt64 :=
  args.cfg.deadLetterRetentionMs.getD args.defaultRetentionMs

/-- `spawn_runtime`. -/
def spawnRuntime (args : RuntimeArgs) : Runtime where
  tenant := args.tenant
  dispatcher :=
    if args.cfg.enableDispatcher then
      args.dispatcher.map fun dispatcher =>
        .spawn dispatcher (max args.cfg.dispatcherIntervalMs 10)
    else none
  maintenance :=
    if args.retentionMs > 0 then
      if args.hasDeadStore then
        some (.spawn args.retentionMs (max args.cfg.deadLetterIntervalMs 1000))
      else none
    else none
  owner := .keeping
  job := .done (.ok ())
  dispatched := []
  purged := []

namespace Runtime

/-- A dispatcher task that has not ended and is not in the middle of a tick. -/
def awaits (runtime : Runtime) (task : WorkerTask Dispatcher) : Bool :=
  !task.ended && runtime.job.returned

/-- The timer of the dispatcher task wins the `select!`: a tick begins. -/
def timer (runtime : Runtime) (nowMs : Int64) : Option Runtime :=
  match runtime.dispatcher with
  | none => none
  | some task =>
      if runtime.awaits task then
        some { runtime with job := (task.work.tick runtime.tenant nowMs).run }
      else none

/-- The channel of the dispatcher task wins the `select!`. -/
def dispatcherStops (runtime : Runtime) : Option Runtime :=
  match runtime.dispatcher with
  | none => none
  | some task =>
      if runtime.awaits task && task.stopRequested then
        some { runtime with dispatcher := some task.finish }
      else none

/-- The timer of the maintenance task wins its `select!`. A retention of zero parks the
task. -/
def purgeBefore (runtime : Runtime) (nowMs : Int64) : Option Int64 :=
  match runtime.maintenance with
  | none => none
  | some task =>
      if !task.ended && task.work != 0 then some (nowMs - task.work.toInt64) else none

/-- The channel of the maintenance task wins its `select!`, or the task is parked. -/
def maintenanceStops (runtime : Runtime) : Option Runtime :=
  match runtime.maintenance with
  | none => none
  | some task =>
      if !task.ended && task.stopRequested then
        some { runtime with maintenance := some task.finish }
      else none

/-- `TxRuntimeHandles::shutdown` is called: a dispatcher task is sent its stop. -/
def shutdown (runtime : Runtime) : Option Runtime :=
  if runtime.owner = .keeping then
    some { runtime with
      owner := .awaitingDispatcher
      dispatcher := runtime.dispatcher.map (·.requestStop) }
  else none

/-- The dispatcher task is joined, and a maintenance task is sent its stop. -/
def dispatcherJoined (runtime : Runtime) : Option Runtime :=
  if runtime.owner = .awaitingDispatcher ∧ WorkerTask.isGone runtime.dispatcher then
    some { runtime with
      owner := .awaitingMaintenance
      maintenance := runtime.maintenance.map (·.requestStop) }
  else none

/-- The maintenance task is joined. -/
def maintenanceJoined (runtime : Runtime) : Option Runtime :=
  if runtime.owner = .awaitingMaintenance ∧ WorkerTask.isGone runtime.maintenance then
    some { runtime with owner := .returned }
  else none

/-- The handles are dropped, with the senders of both channels. -/
def drop (runtime : Runtime) : Option Runtime :=
  if runtime.owner = .returned ∨ runtime.owner = .dropped then none
  else
    some { runtime with
      owner := .dropped
      dispatcher := runtime.dispatcher.map (·.requestStop)
      maintenance := runtime.maintenance.map (·.requestStop) }

end Runtime

/-- What runtimes run in: the store behind the calls of their ticks, the dead letters,
and what else may happen to them. -/
structure Surroundings (ι Env Choice Outside : Type) where
  answer : ι → Handler DispatchOp DispatchOp.Answer Choice Env
  purge : TenantId → Int64 → Env → Env
  outside : Outside → Env → Env

/-- Runtimes with what they share. -/
structure RuntimeState (ι Env : Type) where
  env : Env
  runtimes : ι → Runtime

/-- What may happen next. -/
inductive RuntimeAction (ι Choice Outside : Type)
  | timer (i : ι) (nowMs : Int64)
  | call (i : ι) (choice : Choice)
  | dispatcherStops (i : ι)
  | purge (i : ι) (nowMs : Int64)
  | maintenanceStops (i : ι)
  | shutdown (i : ι)
  | dispatcherJoined (i : ι)
  | maintenanceJoined (i : ι)
  | drop (i : ι)
  | outside (event : Outside)

/-- Whether an action begins a tick. -/
def RuntimeAction.begins {ι Choice Outside : Type} : RuntimeAction ι Choice Outside → Bool
  | timer .. => true
  | call .. | dispatcherStops _ | purge .. | maintenanceStops _ | shutdown _
  | dispatcherJoined _ | maintenanceJoined _ | drop _ | outside _ => false

section System

variable {ι Env Choice Outside : Type} [DecidableEq ι]

namespace RuntimeState

/-- One runtime does something on its own. -/
def alone (state : RuntimeState ι Env) (i : ι) (act : Runtime → Option Runtime) :
    Option (RuntimeState ι Env) :=
  (act (state.runtimes i)).map fun runtime =>
    { state with runtimes := Function.update state.runtimes i runtime }

/-- The tick of a runtime makes its next call. -/
def call (surroundings : Surroundings ι Env Choice Outside) (state : RuntimeState ι Env) (i : ι)
    (choice : Choice) : Option (RuntimeState ι Env) :=
  match (state.runtimes i).job with
  | .done _ => none
  | .call op resume =>
      (surroundings.answer i state.env choice op).map fun outcome =>
        { env := outcome.2
          runtimes := Function.update state.runtimes i
            { state.runtimes i with
              job := resume outcome.1
              dispatched := (state.runtimes i).dispatched ++ [⟨op, outcome.1⟩] } }

/-- The maintenance task of a runtime purges. -/
def purge (surroundings : Surroundings ι Env Choice Outside) (state : RuntimeState ι Env)
    (i : ι) (nowMs : Int64) : Option (RuntimeState ι Env) :=
  ((state.runtimes i).purgeBefore nowMs).map fun before =>
    { env := surroundings.purge (state.runtimes i).tenant before state.env
      runtimes := Function.update state.runtimes i
        { state.runtimes i with purged := (state.runtimes i).purged ++ [before] } }

end RuntimeState

/-- The step function. -/
def nextOfRuntimes (surroundings : Surroundings ι Env Choice Outside)
    (state : RuntimeState ι Env) : RuntimeAction ι Choice Outside → Option (RuntimeState ι Env)
  | .timer i nowMs => state.alone i (·.timer nowMs)
  | .call i choice => state.call surroundings i choice
  | .dispatcherStops i => state.alone i (·.dispatcherStops)
  | .purge i nowMs => state.purge surroundings i nowMs
  | .maintenanceStops i => state.alone i (·.maintenanceStops)
  | .shutdown i => state.alone i (·.shutdown)
  | .dispatcherJoined i => state.alone i (·.dispatcherJoined)
  | .maintenanceJoined i => state.alone i (·.maintenanceJoined)
  | .drop i => state.alone i (·.drop)
  | .outside event => some { state with env := surroundings.outside event state.env }

/-- Runtimes that have just been spawned. -/
def spawned (args : ι → RuntimeArgs) (env : Env) : RuntimeState ι Env where
  env := env
  runtimes i := spawnRuntime (args i)

/-- Runtimes, from any state of what they share. -/
def runtimeSystem (surroundings : Surroundings ι Env Choice Outside) (args : ι → RuntimeArgs)
    (env : Env) : TransitionSystem (RuntimeState ι Env) (RuntimeAction ι Choice Outside) :=
  .ofNext (spawned args env) (nextOfRuntimes surroundings)

end System

/-- Calls of ticks that all came to their ends. -/
def WholeTicks (dispatcher : Dispatcher) (tenant : TenantId)
    (calls : List (Sigma DispatchOp.Answer)) : Prop :=
  ∃ ticks : List (Int64 × List (Sigma DispatchOp.Answer)),
    (∀ tick ∈ ticks, ∃ result, Runs (dispatcher.tick tenant tick.1).run tick.2 result) ∧
      calls = ticks.flatMap (·.2)

/-- Whole ticks, and one that has this left to do. -/
def TickUnderWay (dispatcher : Dispatcher) (tenant : TenantId)
    (calls : List (Sigma DispatchOp.Answer))
    (job : Program DispatchOp DispatchOp.Answer (TxResult Unit)) : Prop :=
  ∃ whole begun nowMs, calls = whole ++ begun ∧ WholeTicks dispatcher tenant whole ∧
    ∀ rest result, Runs job rest result →
      Runs (dispatcher.tick tenant nowMs).run (begun ++ rest) result

section Ticks

variable {dispatcher : Dispatcher} {tenant : TenantId} {calls : List (Sigma DispatchOp.Answer)}

theorem wholeTicks_nil : WholeTicks dispatcher tenant [] := ⟨[], by simp, rfl⟩

theorem WholeTicks.begin (h : WholeTicks dispatcher tenant calls) (nowMs : Int64) :
    TickUnderWay dispatcher tenant calls (dispatcher.tick tenant nowMs).run :=
  ⟨calls, [], nowMs, (List.append_nil _).symm, h, fun _ _ hruns => hruns⟩

theorem TickUnderWay.call {op : DispatchOp}
    {resume : op.Answer → Program DispatchOp DispatchOp.Answer (TxResult Unit)}
    (h : TickUnderWay dispatcher tenant calls (.call op resume)) (answer : op.Answer) :
    TickUnderWay dispatcher tenant (calls ++ [⟨op, answer⟩]) (resume answer) := by
  obtain ⟨whole, begun, nowMs, rfl, hwhole, hruns⟩ := h
  refine ⟨whole, begun ++ [⟨op, answer⟩], nowMs, List.append_assoc _ _ _, hwhole, ?_⟩
  intro rest result hrest
  rw [List.append_assoc]
  exact hruns _ _ (.call hrest)

/-- A tick with nothing left to do has come to its end. -/
theorem TickUnderWay.whole {result : TxResult Unit}
    (h : TickUnderWay dispatcher tenant calls (.done result)) :
    WholeTicks dispatcher tenant calls := by
  obtain ⟨whole, begun, nowMs, rfl, ⟨ticks, hticks, rfl⟩, hruns⟩ := h
  refine ⟨ticks ++ [(nowMs, begun)], ?_, by simp⟩
  intro tick htick
  rcases List.mem_append.mp htick with hmem | hlast
  · exact hticks tick hmem
  · rw [List.mem_singleton.mp hlast]
    have hrun := hruns [] result (.done result)
    rw [List.append_nil] at hrun
    exact ⟨result, hrun⟩

end Ticks

namespace Runtime

/-- All that one step can do to a runtime, and whether it begins a tick. -/
inductive Step (runtime : Runtime) : Bool → Runtime → Prop
  | timer {task : WorkerTask Dispatcher} {nowMs : Int64} :
      runtime.dispatcher = some task → task.ended = false → runtime.job.returned = true →
        Step runtime true { runtime with job := (task.work.tick runtime.tenant nowMs).run }
  | call {op : DispatchOp} {resume} {answer : op.Answer} : runtime.job = .call op resume →
      Step runtime false
        { runtime with
          job := resume answer
          dispatched := runtime.dispatched ++ [⟨op, answer⟩] }
  | dispatcherStops {task : WorkerTask Dispatcher} :
      runtime.dispatcher = some task → task.ended = false → runtime.job.returned = true →
        task.stopRequested = true →
          Step runtime false { runtime with dispatcher := some task.finish }
  | purge {task : WorkerTask UInt64} {before : Int64} :
      runtime.maintenance = some task → task.ended = false →
        Step runtime false { runtime with purged := runtime.purged ++ [before] }
  | maintenanceStops {task : WorkerTask UInt64} :
      runtime.maintenance = some task → task.ended = false → task.stopRequested = true →
        Step runtime false { runtime with maintenance := some task.finish }
  | shutdown : runtime.owner = .keeping →
      Step runtime false
        { runtime with
          owner := .awaitingDispatcher
          dispatcher := runtime.dispatcher.map (·.requestStop) }
  | dispatcherJoined : runtime.owner = .awaitingDispatcher →
      WorkerTask.isGone runtime.dispatcher = true →
        Step runtime false
          { runtime with
            owner := .awaitingMaintenance
            maintenance := runtime.maintenance.map (·.requestStop) }
  | maintenanceJoined : runtime.owner = .awaitingMaintenance →
      WorkerTask.isGone runtime.maintenance = true →
        Step runtime false { runtime with owner := .returned }
  | drop : runtime.owner ≠ .returned →
      Step runtime false
        { runtime with
          owner := .dropped
          dispatcher := runtime.dispatcher.map (·.requestStop)
          maintenance := runtime.maintenance.map (·.requestStop) }

variable {runtime after : Runtime}

theorem step_of_timer {nowMs : Int64} (h : runtime.timer nowMs = some after) :
    runtime.Step true after := by
  unfold timer at h
  split at h
  case h_1 => cases h
  case h_2 task htask =>
    split at h
    case isFalse => cases h
    case isTrue hawaits =>
      cases h
      rw [awaits, Bool.and_eq_true, Bool.not_eq_true'] at hawaits
      exact .timer htask hawaits.1 hawaits.2

theorem step_of_dispatcherStops (h : runtime.dispatcherStops = some after) :
    runtime.Step false after := by
  unfold dispatcherStops at h
  split at h
  case h_1 => cases h
  case h_2 task htask =>
    split at h
    case isFalse => cases h
    case isTrue hstops =>
      cases h
      rw [awaits, Bool.and_eq_true, Bool.and_eq_true, Bool.not_eq_true'] at hstops
      exact .dispatcherStops htask hstops.1.1 hstops.1.2 hstops.2

theorem step_of_maintenanceStops (h : runtime.maintenanceStops = some after) :
    runtime.Step false after := by
  unfold maintenanceStops at h
  split at h
  case h_1 => cases h
  case h_2 task htask =>
    split at h
    case isFalse => cases h
    case isTrue hstops =>
      cases h
      rw [Bool.and_eq_true, Bool.not_eq_true'] at hstops
      exact .maintenanceStops htask hstops.1 hstops.2

theorem step_of_purgeBefore {nowMs before : Int64} (h : runtime.purgeBefore nowMs = some before) :
    runtime.Step false { runtime with purged := runtime.purged ++ [before] } := by
  unfold purgeBefore at h
  split at h
  case h_1 => cases h
  case h_2 task htask =>
    split at h
    case isFalse => cases h
    case isTrue hpurges =>
      rw [Bool.and_eq_true, Bool.not_eq_true'] at hpurges
      exact .purge htask hpurges.1

theorem step_of_shutdown (h : runtime.shutdown = some after) : runtime.Step false after := by
  unfold shutdown at h
  split at h
  case isTrue howner =>
    cases h
    exact .shutdown howner
  case isFalse => cases h

theorem step_of_dispatcherJoined (h : runtime.dispatcherJoined = some after) :
    runtime.Step false after := by
  unfold dispatcherJoined at h
  split at h
  case isTrue howner =>
    cases h
    exact .dispatcherJoined howner.1 howner.2
  case isFalse => cases h

theorem step_of_maintenanceJoined (h : runtime.maintenanceJoined = some after) :
    runtime.Step false after := by
  unfold maintenanceJoined at h
  split at h
  case isTrue howner =>
    cases h
    exact .maintenanceJoined howner.1 howner.2
  case isFalse => cases h

theorem step_of_drop (h : runtime.drop = some after) : runtime.Step false after := by
  unfold drop at h
  split at h
  case isTrue => cases h
  case isFalse howner =>
    cases h
    exact .drop fun hreturned => howner (.inl hreturned)

end Runtime

section Steps

variable {ι Env Choice Outside : Type} [DecidableEq ι]
variable {surroundings : Surroundings ι Env Choice Outside}
variable {state after : RuntimeState ι Env} {action : RuntimeAction ι Choice Outside}

/-- A runtime that acts takes a step, and the others do not. -/
theorem step_of_alone {i : ι} (act : Runtime → Option Runtime) {begins : Bool}
    (hact : ∀ runtime, act (state.runtimes i) = some runtime →
      (state.runtimes i).Step begins runtime)
    (h : state.alone i act = some after) (j : ι) :
    after.runtimes j = state.runtimes j ∨
      (state.runtimes j).Step begins (after.runtimes j) := by
  obtain ⟨runtime, hruntime, rfl⟩ := Option.map_eq_some_iff.mp h
  by_cases hj : j = i
  · subst hj
    dsimp only
    rw [Function.update_self]
    exact .inr (hact runtime hruntime)
  · exact .inl (Function.update_of_ne hj _ _)

theorem step_of_nextOfRuntimes (h : nextOfRuntimes surroundings state action = some after)
    (j : ι) :
    after.runtimes j = state.runtimes j ∨
      (state.runtimes j).Step action.begins (after.runtimes j) := by
  cases action with
  | timer i nowMs => exact step_of_alone (·.timer nowMs) (fun _ => Runtime.step_of_timer) h j
  | dispatcherStops i =>
      exact step_of_alone (·.dispatcherStops) (fun _ => Runtime.step_of_dispatcherStops) h j
  | maintenanceStops i =>
      exact step_of_alone (·.maintenanceStops) (fun _ => Runtime.step_of_maintenanceStops) h j
  | shutdown i =>
      exact step_of_alone (·.shutdown) (fun _ => Runtime.step_of_shutdown) h j
  | dispatcherJoined i =>
      exact step_of_alone (·.dispatcherJoined) (fun _ => Runtime.step_of_dispatcherJoined) h j
  | maintenanceJoined i =>
      exact step_of_alone (·.maintenanceJoined) (fun _ => Runtime.step_of_maintenanceJoined) h j
  | drop i =>
      exact step_of_alone (·.drop) (fun _ => Runtime.step_of_drop) h j
  | outside event =>
      cases h
      exact .inl rfl
  | call i choice =>
      change state.call surroundings i choice = some after at h
      unfold RuntimeState.call at h
      split at h
      case h_1 => cases h
      case h_2 op resume hjob =>
        obtain ⟨outcome, _, rfl⟩ := Option.map_eq_some_iff.mp h
        by_cases hj : j = i
        · subst hj
          dsimp only
          rw [Function.update_self]
          exact .inr (.call hjob)
        · exact .inl (Function.update_of_ne hj _ _)
  | purge i nowMs =>
      obtain ⟨before, hbefore, rfl⟩ := Option.map_eq_some_iff.mp h
      by_cases hj : j = i
      · subst hj
        dsimp only
        rw [Function.update_self]
        exact .inr (Runtime.step_of_purgeBefore hbefore)
      · exact .inl (Function.update_of_ne hj _ _)

end Steps

/-! ## The invariant -/

namespace WorkerTask

variable {Work : Type}

@[simp]
theorem isGone_map_requestStop (task : Option (WorkerTask Work)) :
    isGone (task.map (·.requestStop)) = isGone task := by
  cases task <;> rfl

end WorkerTask

namespace Runtime

/-- The tasks are told to stop in their order, and end only then. -/
structure Controlled (args : RuntimeArgs) (runtime : Runtime) : Prop where
  tenant : runtime.tenant = args.tenant
  dispatcher : ∀ task, runtime.dispatcher = some task →
    args.cfg.enableDispatcher = true ∧ args.dispatcher = some task.work ∧ 10 ≤ task.intervalMs
  maintenance : ∀ task, runtime.maintenance = some task →
    0 < args.retentionMs ∧ 1000 ≤ task.intervalMs
  dispatcherEnded : ∀ task, runtime.dispatcher = some task → task.ended = true →
    task.stopRequested = true
  maintenanceEnded : ∀ task, runtime.maintenance = some task → task.ended = true →
    task.stopRequested = true
  keeping : runtime.owner = .keeping →
    ∀ task, runtime.dispatcher = some task → task.stopRequested = false
  early : runtime.owner = .keeping ∨ runtime.owner = .awaitingDispatcher →
    ∀ task, runtime.maintenance = some task → task.stopRequested = false
  awaiting : runtime.owner = .awaitingDispatcher →
    ∀ task, runtime.dispatcher = some task → task.stopRequested = true
  late : runtime.owner = .awaitingMaintenance ∨ runtime.owner = .returned →
    WorkerTask.isGone runtime.dispatcher = true ∧
      ∀ task, runtime.maintenance = some task → task.stopRequested = true
  returned : runtime.owner = .returned → WorkerTask.isGone runtime.maintenance = true

/-- Ticks are whole, but for one at most, and during it the task goes on. -/
structure Ticking (runtime : Runtime) : Prop where
  idle : runtime.dispatcher = none → runtime.job.returned = true ∧ runtime.dispatched = []
  unpurged : runtime.maintenance = none → runtime.purged = []
  ended : ∀ task, runtime.dispatcher = some task → task.ended = true →
    runtime.job.returned = true
  whole : ∀ task, runtime.dispatcher = some task → runtime.job.returned = true →
    WholeTicks task.work runtime.tenant runtime.dispatched
  underWay : ∀ task, runtime.dispatcher = some task → runtime.job.returned = false →
    TickUnderWay task.work runtime.tenant runtime.dispatched runtime.job

variable {args : RuntimeArgs} {runtime after : Runtime} {begins : Bool}

theorem dispatcher_spawnRuntime {task : WorkerTask Dispatcher}
    (h : (spawnRuntime args).dispatcher = some task) :
    args.cfg.enableDispatcher = true ∧ args.dispatcher = some task.work ∧ 10 ≤ task.intervalMs ∧
      task.stopRequested = false ∧ task.ended = false := by
  simp only [spawnRuntime] at h
  split at h
  case isTrue henabled =>
    obtain ⟨dispatcher, hgiven, rfl⟩ := Option.map_eq_some_iff.mp h
    exact ⟨henabled, hgiven, le_max_right _ _, rfl, rfl⟩
  case isFalse => cases h

theorem maintenance_spawnRuntime {task : WorkerTask UInt64}
    (h : (spawnRuntime args).maintenance = some task) :
    0 < args.retentionMs ∧ 1000 ≤ task.intervalMs ∧ task.stopRequested = false ∧
      task.ended = false := by
  simp only [spawnRuntime] at h
  split at h
  case isTrue hpositive =>
    split at h
    case isTrue =>
      cases h
      exact ⟨hpositive, le_max_right _ _, rfl, rfl⟩
    case isFalse => cases h
  case isFalse => cases h

theorem controlled_spawnRuntime (args : RuntimeArgs) : (spawnRuntime args).Controlled args := by
  have hdispatcher : ∀ task, (spawnRuntime args).dispatcher = some task → _ :=
    fun _ => dispatcher_spawnRuntime
  have hmaintenance : ∀ task, (spawnRuntime args).maintenance = some task → _ :=
    fun _ => maintenance_spawnRuntime
  have howner : (spawnRuntime args).owner = .keeping := rfl
  have htenant : (spawnRuntime args).tenant = args.tenant := rfl
  constructor <;> grind

theorem ticking_spawnRuntime (args : RuntimeArgs) : (spawnRuntime args).Ticking where
  idle _ := ⟨rfl, rfl⟩
  unpurged _ := rfl
  ended _ _ _ := rfl
  whole _ _ _ := wholeTicks_nil
  underWay _ _ hjob := by cases hjob

/-- Every step is one of a control flow that goes one way. -/
theorem Controlled.step (h : runtime.Controlled args) (hstep : runtime.Step begins after) :
    after.Controlled args := by
  obtain ⟨htenant, hdispatcher, hmaintenance, hended, hended', hkeeping, hearly, hawaiting, hlate,
    hreturned⟩ := h
  cases hstep with
  | timer | call | purge => constructor <;> assumption
  | shutdown | dispatcherJoined | drop =>
      constructor <;>
        simp only [WorkerTask.isGone_map_requestStop, Option.map_eq_some_iff] <;>
          grind [WorkerTask.requestStop]
  | maintenanceJoined => constructor <;> grind
  | @dispatcherStops task htask _ _ hstop =>
      have hsame : task.finish.stopRequested = true := hstop
      refine ⟨htenant, ?_, hmaintenance, ?_, hended', ?_, hearly, ?_, ?_, hreturned⟩
      · rintro _ ⟨⟩
        exact hdispatcher task htask
      · rintro _ ⟨⟩ _
        exact hsame
      · rintro howner _ ⟨⟩
        exact hkeeping howner task htask
      · rintro _ _ ⟨⟩
        exact hsame
      · exact fun howner => ⟨rfl, (hlate howner).2⟩
  | @maintenanceStops task htask _ hstop =>
      have hsame : task.finish.stopRequested = true := hstop
      refine ⟨htenant, hdispatcher, ?_, hended, ?_, hkeeping, ?_, hawaiting, ?_, fun _ => rfl⟩
      · rintro _ ⟨⟩
        exact hmaintenance task htask
      · rintro _ ⟨⟩ _
        exact hsame
      · rintro howner _ ⟨⟩
        exact hearly howner task htask
      · rintro howner
        refine ⟨(hlate howner).1, ?_⟩
        rintro _ ⟨⟩
        exact hsame

/-- What only tells tasks to stop leaves their calls alone. -/
theorem Ticking.told (h : runtime.Ticking) {owner : HandlesOwner}
    {dispatcher : Option (WorkerTask Dispatcher)} {maintenance : Option (WorkerTask UInt64)}
    (hdispatcher : dispatcher = runtime.dispatcher ∨
      dispatcher = runtime.dispatcher.map (·.requestStop))
    (hmaintenance : maintenance = runtime.maintenance ∨
      maintenance = runtime.maintenance.map (·.requestStop)) :
    Ticking { runtime with
      owner := owner
      dispatcher := dispatcher
      maintenance := maintenance } := by
  have htask : ∀ task, dispatcher = some task → ∃ old, runtime.dispatcher = some old ∧
      task.work = old.work ∧ task.ended = old.ended := by
    intro task htask
    rcases hdispatcher with rfl | rfl
    · exact ⟨task, htask, rfl, rfl⟩
    · obtain ⟨old, hold, rfl⟩ := Option.map_eq_some_iff.mp htask
      exact ⟨old, hold, rfl, rfl⟩
  constructor
  case idle =>
    intro hnone
    apply h.idle
    rcases hdispatcher with rfl | rfl
    · exact hnone
    · exact Option.map_eq_none_iff.mp hnone
  case unpurged =>
    intro hnone
    apply h.unpurged
    rcases hmaintenance with rfl | rfl
    · exact hnone
    · exact Option.map_eq_none_iff.mp hnone
  case ended =>
    intro task hsome hended
    obtain ⟨old, hold, _, hsame⟩ := htask task hsome
    exact h.ended old hold (hsame ▸ hended)
  case whole =>
    intro task hsome hjob
    obtain ⟨old, hold, hwork, _⟩ := htask task hsome
    rw [hwork]
    exact h.whole old hold hjob
  case underWay =>
    intro task hsome hjob
    obtain ⟨old, hold, hwork, _⟩ := htask task hsome
    rw [hwork]
    exact h.underWay old hold hjob

theorem Ticking.step (h : runtime.Ticking) (hstep : runtime.Step begins after) :
    after.Ticking := by
  cases hstep with
  | shutdown => exact h.told (.inr rfl) (.inl rfl)
  | dispatcherJoined => exact h.told (.inl rfl) (.inr rfl)
  | maintenanceJoined => exact h.told (.inl rfl) (.inl rfl)
  | drop => exact h.told (.inr rfl) (.inr rfl)
  | @timer task nowMs htask hended hjob =>
      refine ⟨fun hnone => ?_, h.unpurged, ?_, ?_, ?_⟩
      · rw [htask] at hnone
        cases hnone
      · intro other hother hgone
        cases htask.symm.trans hother
        rw [hended] at hgone
        cases hgone
      · exact fun _ _ hreturned => by cases hreturned
      · intro other hother _
        cases htask.symm.trans hother
        exact (h.whole task htask hjob).begin nowMs
  | @call op resume answer hjob =>
      have hbusy : runtime.job.returned = false := by rw [hjob]; rfl
      have hunderWay : ∀ task, runtime.dispatcher = some task →
          TickUnderWay task.work runtime.tenant (runtime.dispatched ++ [⟨op, answer⟩])
            (resume answer) := by
        intro task htask
        have hbefore := h.underWay task htask hbusy
        rw [hjob] at hbefore
        exact hbefore.call answer
      refine ⟨fun hnone => ?_, h.unpurged, ?_, ?_, fun task htask _ => hunderWay task htask⟩
      · rw [(h.idle hnone).1] at hbusy
        cases hbusy
      · intro task htask hended
        rw [h.ended task htask hended] at hbusy
        cases hbusy
      · intro task htask hreturned
        have hlast := hunderWay task htask
        generalize hrest : resume answer = rest at hreturned hlast
        cases rest with
        | done value => exact hlast.whole
        | call _ _ => cases hreturned
  | @dispatcherStops task htask _ hjob _ =>
      refine ⟨nofun, h.unpurged, fun _ _ _ => hjob, ?_, ?_⟩
      · intro other hother hreturned
        cases hother
        exact h.whole task htask hreturned
      · intro other hother hbusy
        cases hother
        exact h.underWay task htask hbusy
  | @purge task before htask _ =>
      refine ⟨h.idle, fun hnone => ?_, h.ended, h.whole, h.underWay⟩
      rw [htask] at hnone
      cases hnone
  | maintenanceStops => exact ⟨h.idle, nofun, h.ended, h.whole, h.underWay⟩

/-- A runtime that has been shut down takes no step. -/
theorem not_step_of_returned (hcontrolled : runtime.Controlled args) (hticking : runtime.Ticking)
    (hreturned : runtime.owner = .returned) : ¬runtime.Step begins after := by
  have hgone := (hcontrolled.late (.inr hreturned)).1
  have hgone' := hcontrolled.returned hreturned
  intro hstep
  cases hstep with
  | shutdown howner | dispatcherJoined howner | maintenanceJoined howner =>
      rw [hreturned] at howner
      cases howner
  | drop howner => exact howner hreturned
  | timer htask hended _ =>
      rw [htask] at hgone
      exact absurd hgone (by simp [WorkerTask.isGone, hended])
  | purge htask hended =>
      rw [htask] at hgone'
      exact absurd hgone' (by simp [WorkerTask.isGone, hended])
  | dispatcherStops htask hended _ _ =>
      rw [htask] at hgone
      exact absurd hgone (by simp [WorkerTask.isGone, hended])
  | maintenanceStops htask hended _ =>
      rw [htask] at hgone'
      exact absurd hgone' (by simp [WorkerTask.isGone, hended])
  | call hjob =>
      have hbusy : runtime.job.returned = false := by rw [hjob]; rfl
      cases htask : runtime.dispatcher with
      | none =>
          rw [(hticking.idle htask).1] at hbusy
          cases hbusy
      | some task =>
          rw [htask] at hgone
          rw [hticking.ended task htask (by simpa [WorkerTask.isGone] using hgone)] at hbusy
          cases hbusy

end Runtime

section Runs

variable {ι Env Choice Outside : Type} [DecidableEq ι]
variable {surroundings : Surroundings ι Env Choice Outside} {args : ι → RuntimeArgs} {env : Env}
variable {state after : RuntimeState ι Env}

theorem orderly_of_reachable (h : (runtimeSystem surroundings args env).Reachable state) (i : ι) :
    (state.runtimes i).Controlled (args i) ∧ (state.runtimes i).Ticking := by
  refine TransitionSystem.invariant
    (fun state => (state.runtimes i).Controlled (args i) ∧ (state.runtimes i).Ticking) ?_ ?_ h
  · rintro _ rfl
    exact ⟨Runtime.controlled_spawnRuntime (args i), Runtime.ticking_spawnRuntime (args i)⟩
  · intro source action target _ ⟨hcontrolled, hticking⟩ hnext
    rcases step_of_nextOfRuntimes hnext i with hsame | hstep
    · rw [hsame]
      exact ⟨hcontrolled, hticking⟩
    · exact ⟨hcontrolled.step hstep, hticking.step hstep⟩

/-- A runtime that has been shut down stays as it is. -/
theorem runtime_of_run (hreach : (runtimeSystem surroundings args env).Reachable state) {i : ι}
    (hreturned : (state.runtimes i).owner = .returned)
    {actions : List (RuntimeAction ι Choice Outside)}
    (hrun : (runtimeSystem surroundings args env).Run state actions after) :
    after.runtimes i = state.runtimes i := by
  refine hrun.preserves (fun next => next.runtimes i = state.runtimes i) hreach ?_ rfl
  intro before action next _ hbefore hsame hnext
  obtain ⟨hcontrolled, hticking⟩ := orderly_of_reachable hbefore i
  rcases step_of_nextOfRuntimes hnext i with hkept | hstep
  · exact hkept.trans hsame
  · rw [← hsame] at hreturned
    exact absurd hstep (Runtime.not_step_of_returned hcontrolled hticking hreturned)

/-- A run on which no tick begins. -/
def Winds (surroundings : Surroundings ι Env Choice Outside) (args : ι → RuntimeArgs) (env : Env)
    (state after : RuntimeState ι Env) : Prop :=
  ∃ actions, (runtimeSystem surroundings args env).Run state actions after ∧
    ∀ action ∈ actions, action.begins = false

theorem Winds.refl (state : RuntimeState ι Env) : Winds surroundings args env state state :=
  ⟨[], .nil state, by simp⟩

theorem Winds.first {middle : RuntimeState ι Env} {action : RuntimeAction ι Choice Outside}
    (hnext : nextOfRuntimes surroundings state action = some middle)
    (hbegins : action.begins = false) (h : Winds surroundings args env middle after) :
    Winds surroundings args env state after := by
  obtain ⟨actions, hrun, hnone⟩ := h
  refine ⟨action :: actions, .cons hnext hrun, ?_⟩
  intro other hother
  rcases List.mem_cons.mp hother with rfl | hrest
  · exact hbegins
  · exact hnone other hrest

theorem Winds.trans {middle : RuntimeState ι Env}
    (hfirst : Winds surroundings args env state middle)
    (hsecond : Winds surroundings args env middle after) :
    Winds surroundings args env state after := by
  obtain ⟨actions, hrun, hnone⟩ := hfirst
  induction hrun with
  | nil _ => exact hsecond
  | cons hnext _ ih =>
      apply Winds.first hnext (hnone _ List.mem_cons_self)
      exact ih hsecond fun action hmem => hnone action (List.mem_cons_of_mem _ hmem)

theorem Winds.reachable (hreach : (runtimeSystem surroundings args env).Reachable state)
    (h : Winds surroundings args env state after) :
    (runtimeSystem surroundings args env).Reachable after := by
  obtain ⟨actions, hrun, _⟩ := h
  exact hreach.run hrun

/-- Everything that a tick may call is answered. -/
def Surroundings.Answers (surroundings : Surroundings ι Env Choice Outside) : Prop :=
  ∀ i env op, ∃ choice answer next,
    surroundings.answer i env choice op = some (answer, next)

/-- A tick comes to its end, by induction on what is left of it. -/
theorem winds_job (hanswers : surroundings.Answers) (state : RuntimeState ι Env) (i : ι) :
    ∃ after, Winds surroundings args env state after ∧
      (after.runtimes i).job.returned = true ∧
        (after.runtimes i).owner = (state.runtimes i).owner ∧
          (after.runtimes i).dispatcher = (state.runtimes i).dispatcher := by
  generalize hjob : (state.runtimes i).job = job
  induction job generalizing state with
  | done result => exact ⟨state, .refl state, by rw [hjob]; rfl, rfl, rfl⟩
  | call op resume ih =>
      obtain ⟨choice, answer, next, hanswer⟩ := hanswers i state.env op
      have hnext : ∃ middle, nextOfRuntimes surroundings state (.call i choice) = some middle ∧
          (middle.runtimes i).job = resume answer ∧
            (middle.runtimes i).owner = (state.runtimes i).owner ∧
              (middle.runtimes i).dispatcher = (state.runtimes i).dispatcher := by
        simp only [nextOfRuntimes, RuntimeState.call, hjob, hanswer, Option.map_some,
          Option.some.injEq, exists_eq_left']
        refine ⟨?_, ?_, ?_⟩ <;> simp only [Function.update_self]
      obtain ⟨middle, hstep, hrest, howner, hdispatcher⟩ := hnext
      obtain ⟨after, hwinds, hreturned, howner', hdispatcher'⟩ := ih answer middle hrest
      exact ⟨after, .first hstep rfl hwinds, hreturned, howner'.trans howner,
        hdispatcher'.trans hdispatcher⟩

theorem exists_alone (act : Runtime → Option Runtime) {i : ι} {runtime : Runtime}
    (h : act (state.runtimes i) = some runtime) :
    ∃ next, state.alone i act = some next ∧ next.runtimes i = runtime := by
  refine ⟨{ state with runtimes := Function.update state.runtimes i runtime }, ?_, ?_⟩
  · rw [RuntimeState.alone, h]
    rfl
  · exact Function.update_self _ _ _

/-- A dispatcher task that is told to stop does so once its tick is over. -/
theorem winds_dispatcher (hanswers : surroundings.Answers)
    (hreach : (runtimeSystem surroundings args env).Reachable state) {i : ι}
    (howner : (state.runtimes i).owner = .awaitingDispatcher) :
    ∃ after, Winds surroundings args env state after ∧
      (after.runtimes i).owner = .awaitingDispatcher ∧
        WorkerTask.isGone (after.runtimes i).dispatcher = true := by
  obtain ⟨middle, hwinds, hjob, howner', _⟩ :=
    @winds_job _ _ _ _ _ _ args env hanswers state i
  rw [howner] at howner'
  obtain ⟨hcontrolled, _⟩ := orderly_of_reachable (hwinds.reachable hreach) i
  cases htask : (middle.runtimes i).dispatcher with
  | none => exact ⟨middle, hwinds, howner', by rw [htask]; rfl⟩
  | some task =>
      cases hended : task.ended with
      | true => exact ⟨middle, hwinds, howner', by simp [WorkerTask.isGone, htask, hended]⟩
      | false =>
          have hstop := hcontrolled.awaiting howner' task htask
          have hact : (middle.runtimes i).dispatcherStops =
              some { middle.runtimes i with dispatcher := some task.finish } := by
            simp [Runtime.dispatcherStops, htask, Runtime.awaits, hended, hjob, hstop]
          obtain ⟨after, halone, hafter⟩ := exists_alone (·.dispatcherStops) hact
          have hnext : nextOfRuntimes surroundings middle (.dispatcherStops i) = some after :=
            halone
          refine ⟨after, hwinds.trans (.first hnext rfl (.refl after)), ?_, ?_⟩
          · rw [hafter]
            exact howner'
          · rw [hafter]
            rfl

/-- So does a maintenance task. -/
theorem winds_maintenance (hreach : (runtimeSystem surroundings args env).Reachable state) {i : ι}
    (howner : (state.runtimes i).owner = .awaitingMaintenance) :
    ∃ after, Winds surroundings args env state after ∧
      (after.runtimes i).owner = .awaitingMaintenance ∧
        WorkerTask.isGone (after.runtimes i).maintenance = true := by
  obtain ⟨hcontrolled, _⟩ := orderly_of_reachable hreach i
  cases htask : (state.runtimes i).maintenance with
  | none => exact ⟨state, .refl state, howner, by rw [htask]; rfl⟩
  | some task =>
      cases hended : task.ended with
      | true => exact ⟨state, .refl state, howner, by simp [WorkerTask.isGone, htask, hended]⟩
      | false =>
          have hstop := (hcontrolled.late (.inl howner)).2 task htask
          have hact : (state.runtimes i).maintenanceStops =
              some { state.runtimes i with maintenance := some task.finish } := by
            simp [Runtime.maintenanceStops, htask, hended, hstop]
          obtain ⟨after, halone, hafter⟩ := exists_alone (·.maintenanceStops) hact
          have hnext : nextOfRuntimes surroundings state (.maintenanceStops i) = some after :=
            halone
          refine ⟨after, .first hnext rfl (.refl after), ?_, ?_⟩
          · rw [hafter]
            exact howner
          · rw [hafter]
            rfl

/-- The second half of a shutdown. -/
theorem winds_of_awaitingMaintenance
    (hreach : (runtimeSystem surroundings args env).Reachable state) {i : ι}
    (howner : (state.runtimes i).owner = .awaitingMaintenance) :
    ∃ after, Winds surroundings args env state after ∧
      (after.runtimes i).owner = .returned := by
  obtain ⟨middle, hwinds, howner', hgone⟩ := winds_maintenance hreach howner
  have hact : (middle.runtimes i).maintenanceJoined =
      some { middle.runtimes i with owner := .returned } := by
    rw [Runtime.maintenanceJoined, if_pos ⟨howner', hgone⟩]
  obtain ⟨after, halone, hafter⟩ := exists_alone (·.maintenanceJoined) hact
  have hnext : nextOfRuntimes surroundings middle (.maintenanceJoined i) = some after := halone
  exact ⟨after, hwinds.trans (.first hnext rfl (.refl after)), by rw [hafter]⟩

/-- A shutdown that has begun can return, without a tick that begins. -/
theorem winds_of_shutdown (hanswers : surroundings.Answers)
    (hreach : (runtimeSystem surroundings args env).Reachable state) {i : ι}
    (howner : (state.runtimes i).owner = .awaitingDispatcher ∨
      (state.runtimes i).owner = .awaitingMaintenance) :
    ∃ after, Winds surroundings args env state after ∧
      (after.runtimes i).owner = .returned := by
  rcases howner with howner | howner
  · obtain ⟨middle, hwinds, howner', hgone⟩ := winds_dispatcher hanswers hreach howner
    have hact : (middle.runtimes i).dispatcherJoined =
        some { middle.runtimes i with
          owner := .awaitingMaintenance
          maintenance := (middle.runtimes i).maintenance.map (·.requestStop) } := by
      rw [Runtime.dispatcherJoined, if_pos ⟨howner', hgone⟩]
    obtain ⟨joined, halone, hjoined⟩ := exists_alone (·.dispatcherJoined) hact
    have hnext : nextOfRuntimes surroundings middle (.dispatcherJoined i) = some joined := halone
    have hfirst : Winds surroundings args env state joined :=
      hwinds.trans (.first hnext rfl (.refl joined))
    have howner'' : (joined.runtimes i).owner = .awaitingMaintenance := by rw [hjoined]
    obtain ⟨after, hlast, hreturned⟩ :=
      winds_of_awaitingMaintenance (hfirst.reachable hreach) howner''
    exact ⟨after, hfirst.trans hlast, hreturned⟩
  · exact winds_of_awaitingMaintenance hreach howner

end Runs

/-- What holds of runtimes in every run. -/
structure RuntimesOrderly {ι Env Choice Outside : Type} [DecidableEq ι]
    (surroundings : Surroundings ι Env Choice Outside) (args : ι → RuntimeArgs) (env : Env) :
    Prop where
  /-- After `shutdown` has returned, the runtime calls nothing any more. -/
  silent : ∀ state actions after i, (runtimeSystem surroundings args env).Reachable state →
    (state.runtimes i).owner = .returned →
      (runtimeSystem surroundings args env).Run state actions after →
        after.runtimes i = state.runtimes i
  /-- A dispatcher task ends only between ticks, and between ticks all that was called
  are whole ticks. -/
  whole : ∀ state i task, (runtimeSystem surroundings args env).Reachable state →
    (state.runtimes i).dispatcher = some task →
      (task.ended = true → (state.runtimes i).job.returned = true) ∧
        ((state.runtimes i).job.returned = true →
          WholeTicks task.work (args i).tenant (state.runtimes i).dispatched)
  /-- Unless the handles are dropped, the maintenance is told to stop only after the
  dispatcher task has ended, and every task ends only when it is told to. -/
  inTurn : ∀ state i task, (runtimeSystem surroundings args env).Reachable state →
    (state.runtimes i).maintenance = some task → task.stopRequested = true →
      (state.runtimes i).owner ≠ .dropped →
        WorkerTask.isGone (state.runtimes i).dispatcher = true
  disabled : ∀ state i, (runtimeSystem surroundings args env).Reachable state →
    ((args i).cfg.enableDispatcher = false → (state.runtimes i).dispatched = []) ∧
      ((args i).retentionMs = 0 → (state.runtimes i).purged = [])
  /-- The timers are never set to zero. -/
  intervals : ∀ state i, (runtimeSystem surroundings args env).Reachable state →
    (∀ task, (state.runtimes i).dispatcher = some task → 10 ≤ task.intervalMs) ∧
      ∀ task, (state.runtimes i).maintenance = some task → 1000 ≤ task.intervalMs
  /-- A shutdown does not have to wait for a tick that is still to begin. -/
  finishes : surroundings.Answers → ∀ state i,
    (runtimeSystem surroundings args env).Reachable state →
      (state.runtimes i).owner = .awaitingDispatcher ∨
        (state.runtimes i).owner = .awaitingMaintenance →
          ∃ actions after, (runtimeSystem surroundings args env).Run state actions after ∧
            (after.runtimes i).owner = .returned ∧ ∀ action ∈ actions, action.begins = false

theorem runtimesOrderly {ι Env Choice Outside : Type} [DecidableEq ι]
    (surroundings : Surroundings ι Env Choice Outside) (args : ι → RuntimeArgs) (env : Env) :
    RuntimesOrderly surroundings args env := by
  constructor
  case silent =>
    intro state actions after i hreach hreturned hrun
    exact runtime_of_run hreach hreturned hrun
  case whole =>
    intro state i task hreach htask
    obtain ⟨hcontrolled, hticking⟩ := orderly_of_reachable hreach i
    refine ⟨hticking.ended task htask, ?_⟩
    rw [← hcontrolled.tenant]
    exact hticking.whole task htask
  case inTurn =>
    intro state i task hreach htask hstop hdropped
    obtain ⟨hcontrolled, _⟩ := orderly_of_reachable hreach i
    have hearly : ¬((state.runtimes i).owner = .keeping ∨
        (state.runtimes i).owner = .awaitingDispatcher) := by
      intro howner
      rw [hcontrolled.early howner task htask] at hstop
      cases hstop
    cases howner : (state.runtimes i).owner with
    | keeping => exact absurd (.inl howner) hearly
    | awaitingDispatcher => exact absurd (.inr howner) hearly
    | awaitingMaintenance => exact (hcontrolled.late (.inl howner)).1
    | returned => exact (hcontrolled.late (.inr howner)).1
    | dropped => exact absurd howner hdropped
  case disabled =>
    intro state i hreach
    obtain ⟨hcontrolled, hticking⟩ := orderly_of_reachable hreach i
    constructor
    · intro hdisabled
      cases htask : (state.runtimes i).dispatcher with
      | none => exact (hticking.idle htask).2
      | some task =>
          rw [(hcontrolled.dispatcher task htask).1] at hdisabled
          cases hdisabled
    · intro hzero
      cases htask : (state.runtimes i).maintenance with
      | none => exact hticking.unpurged htask
      | some task =>
          have hpositive := (hcontrolled.maintenance task htask).1
          rw [hzero] at hpositive
          exact absurd hpositive (by decide)
  case intervals =>
    intro state i hreach
    obtain ⟨hcontrolled, _⟩ := orderly_of_reachable hreach i
    exact ⟨fun task htask => (hcontrolled.dispatcher task htask).2.2,
      fun task htask => (hcontrolled.maintenance task htask).2⟩
  case finishes =>
    intro hanswers state i hreach howner
    obtain ⟨after, ⟨actions, hrun, hnone⟩, hreturned⟩ :=
      winds_of_shutdown hanswers hreach howner
    exact ⟨actions, after, hrun, hreturned, hnone⟩

end Soulbase.Tx
