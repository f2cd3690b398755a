/-
# The runtimes of one outbox

Runtimes whose dispatchers work on one in-memory outbox are a fleet: what their tasks
call is what the dispatchers of the fleet call, and what starts, stops and joins the
tasks is nothing to it. So what a fleet delivers, runtimes deliver.
-/

import Soulbase.Tx.FleetDelivery
import Soulbase.Tx.Worker

namespace Soulbase.Tx

open Soulbase.Foundation

/-- The outbox store with the dead letters next to it. -/
structure LetteredOutbox where
  outbox : OutboxWorld
  letters : InMemoryDeadStore

/-- What else happens to the outbox, or to the dead letters. -/
inductive OutsideEvent (ι : Type)
  | enqueue (message : NewOutboxMessage) (createdAt notBefore : Int64)
  | heartbeat (i : ι) (tenant : TenantId) (id : Id) (leaseUntil : Int64)
  | revive (tenant : TenantId) (id : Id) (time : Int64)
  | letters (letters : InMemoryDeadStore)

namespace LetteredOutbox

/-- The calls of a tick: letters are pushed into the dead store, as far as that does not fail. -/
def answer (worker : String) :
    Handler DispatchOp DispatchOp.Answer DispatchChoice LetteredOutbox :=
  fun world choice op =>
    match op, choice with
    | .push letter, .outcome (.ok ()) =>
        some (.ok (), { world with letters := world.letters.push letter })
    | op, choice => (OutboxWorld.answer worker world.outbox choice op).map fun outcome =>
        (outcome.1, { world with outbox := outcome.2 })

/-- Something else happens. -/
def outside {ι : Type} (fleet : Fleet ι) (event : OutsideEvent ι) (world : LetteredOutbox) :
    LetteredOutbox :=
  match event with
  | .enqueue message createdAt notBefore =>
      { world with outbox := world.outbox.enqueue message createdAt notBefore }
  | .heartbeat i tenant id leaseUntil =>
      { world with
        outbox := world.outbox.heartbeat (fleet.dispatcher i).workerId tenant id leaseUntil }
  | .revive tenant id time => { world with outbox := world.outbox.revive tenant id time }
  | .letters letters => { world with letters := letters }

/-- Runtimes whose dispatchers are those of a fleet run in this. -/
def surroundings {ι : Type} (fleet : Fleet ι) :
    Surroundings ι LetteredOutbox DispatchChoice (OutsideEvent ι) where
  answer i := answer (fleet.dispatcher i).workerId
  purge tenant before world :=
    { world with letters := world.letters.purgeOlderThan tenant before }
  outside := outside fleet

/-- A call of a tick is the same call over the outbox alone. -/
theorem answer_outbox {worker : String} {world after : LetteredOutbox} {choice : DispatchChoice}
    {op : DispatchOp} {reply : op.Answer}
    (h : answer worker world choice op = some (reply, after)) :
    OutboxWorld.answer worker world.outbox choice op = some (reply, after.outbox) := by
  unfold answer at h
  split at h
  case h_1 letter =>
    cases h
    rfl
  case h_2 =>
    obtain ⟨⟨reply', outbox⟩, hanswer, hoption⟩ := Option.map_eq_some_iff.mp h
    cases hoption
    exact hanswer

end LetteredOutbox

section Fleets

variable {ι : Type} [DecidableEq ι]

/-- The dispatchers of runtimes, as a fleet sees them. -/
def fleetState (state : RuntimeState ι LetteredOutbox) : FleetState ι where
  shared := state.env.outbox
  threads i := (state.runtimes i).job

omit [DecidableEq ι] in
/-- What leaves all ticks and the outbox alone is nothing to the fleet. -/
theorem fleetState_eq {state after : RuntimeState ι LetteredOutbox}
    (henv : after.env.outbox = state.env.outbox)
    (hjobs : ∀ i, (after.runtimes i).job = (state.runtimes i).job) :
    fleetState after = fleetState state := by
  unfold fleetState
  rw [henv]
  congr 1
  exact funext hjobs

theorem fleetState_alone {state after : RuntimeState ι LetteredOutbox} {i : ι}
    (act : Runtime → Option Runtime)
    (hact : ∀ runtime runtime', act runtime = some runtime' → runtime'.job = runtime.job)
    (h : state.alone i act = some after) : fleetState after = fleetState state := by
  obtain ⟨runtime, hruntime, rfl⟩ := Option.map_eq_some_iff.mp h
  refine fleetState_eq rfl fun j => ?_
  dsimp only
  by_cases hj : j = i
  · subst hj
    rw [Function.update_self]
    exact hact _ _ hruntime
  · rw [Function.update_of_ne hj]

theorem update_job (runtimes : ι → Runtime) (i : ι) (runtime : Runtime) :
    (fun j => (Function.update runtimes i runtime j).job) =
      Function.update (fun j => (runtimes j).job) i runtime.job := by
  funext j
  by_cases hj : j = i
  · subst hj
    rw [Function.update_self, Function.update_self]
  · rw [Function.update_of_ne hj, Function.update_of_ne hj]

variable {fleet : Fleet ι} {args : ι → RuntimeArgs} {env : LetteredOutbox}
variable {state after : RuntimeState ι LetteredOutbox}

/-- A timer that goes off begins a tick of the fleet. -/
theorem fleet_timer {i : ι} {nowMs : Int64}
    (hargs : ∀ i dispatcher, (args i).dispatcher = some dispatcher →
      dispatcher = fleet.dispatcher i)
    (hcontrolled : (state.runtimes i).Controlled (args i))
    (h : state.alone i (·.timer nowMs) = some after) :
    fleet.next (fleetState state) (.tick i (state.runtimes i).tenant nowMs) =
      some (fleetState after) := by
  obtain ⟨runtime, hruntime, rfl⟩ := Option.map_eq_some_iff.mp h
  dsimp only at hruntime
  unfold Runtime.timer at hruntime
  split at hruntime
  case h_1 => cases hruntime
  case h_2 task htask =>
    split at hruntime
    case isFalse => cases hruntime
    case isTrue hawaits =>
      cases hruntime
      rw [Runtime.awaits, Bool.and_eq_true] at hawaits
      refine Pool.spawn_eq_some_iff.mpr ⟨hawaits.2, ?_⟩
      simp only [fleetState, update_job, hargs i _ (hcontrolled.dispatcher task htask).2.1]

/-- A step of the runtimes is a step of the fleet, or nothing. -/
theorem fleet_step {action : RuntimeAction ι DispatchChoice (OutsideEvent ι)}
    (hargs : ∀ i dispatcher, (args i).dispatcher = some dispatcher →
      dispatcher = fleet.dispatcher i)
    (hcontrolled : ∀ i, (state.runtimes i).Controlled (args i))
    (h : nextOfRuntimes (LetteredOutbox.surroundings fleet) state action = some after) :
    fleetState after = fleetState state ∨
      ∃ step, fleet.next (fleetState state) step = some (fleetState after) := by
  cases action with
  | timer i nowMs => exact .inr ⟨_, fleet_timer hargs (hcontrolled i) h⟩
  | dispatcherStops i =>
      exact .inl (fleetState_alone (·.dispatcherStops) (by grind [Runtime.dispatcherStops]) h)
  | maintenanceStops i =>
      exact .inl (fleetState_alone (·.maintenanceStops) (by grind [Runtime.maintenanceStops]) h)
  | shutdown i => exact .inl (fleetState_alone (·.shutdown) (by grind [Runtime.shutdown]) h)
  | dispatcherJoined i =>
      exact .inl (fleetState_alone (·.dispatcherJoined) (by grind [Runtime.dispatcherJoined]) h)
  | maintenanceJoined i =>
      exact .inl (fleetState_alone (·.maintenanceJoined) (by grind [Runtime.maintenanceJoined]) h)
  | drop i => exact .inl (fleetState_alone (·.drop) (by grind [Runtime.drop]) h)
  | purge i nowMs =>
      obtain ⟨before, _, rfl⟩ := Option.map_eq_some_iff.mp h
      refine .inl (fleetState_eq rfl fun j => ?_)
      dsimp only
      by_cases hj : j = i
      · subst hj
        rw [Function.update_self]
      · rw [Function.update_of_ne hj]
  | outside event =>
      cases h
      cases event with
      | enqueue message createdAt notBefore =>
          exact .inr ⟨.enqueue message createdAt notBefore, rfl⟩
      | heartbeat i tenant id leaseUntil => exact .inr ⟨.heartbeat i tenant id leaseUntil, rfl⟩
      | revive tenant id time => exact .inr ⟨.revive tenant id time, rfl⟩
      | letters letters => exact .inl rfl
  | call i choice =>
      right
      change state.call (LetteredOutbox.surroundings fleet) i choice = some after at h
      unfold RuntimeState.call at h
      split at h
      case h_1 => cases h
      case h_2 op resume hjob =>
        obtain ⟨⟨reply, env⟩, hanswer, rfl⟩ := Option.map_eq_some_iff.mp h
        have houtbox := LetteredOutbox.answer_outbox hanswer
        refine ⟨.call i choice, Pool.call_eq_some_iff.mpr
          ⟨op, resume, reply, env.outbox, hjob, houtbox, ?_⟩⟩
        simp only [fleetState, update_job]

/-- The dispatchers of runtimes do nothing that those of a fleet could not do, where they begin
with an outbox that the fleet could have come to. -/
theorem fleet_of_runtimes
    (hargs : ∀ i dispatcher, (args i).dispatcher = some dispatcher →
      dispatcher = fleet.dispatcher i)
    (hstart : fleet.system.Reachable { Fleet.start with shared := env.outbox })
    (h : (runtimeSystem (LetteredOutbox.surroundings fleet) args env).Reachable state) :
    fleet.system.Reachable (fleetState state) := by
  induction h with
  | init hinit =>
      obtain rfl := hinit
      exact hstart
  | step hsource hnext ih =>
      rcases fleet_step hargs (fun i => (orderly_of_reachable hsource i).1) hnext with
        hsame | ⟨step, hstep⟩
      · rw [hsame]
        exact ih
      · exact ih.step hstep

end Fleets

namespace TwoRuntimes

open TwoWorkers

/-- A runtime for each of the two workers, with a dead store. -/
def args (i : Bool) : RuntimeArgs where
  dispatcher := some (fleet.dispatcher i)
  hasDeadStore := true
  tenant := ⟨"t"⟩
  cfg := .default
  defaultRetentionMs := 1000

/-- One of them is shut down in the middle of a tick. -/
def actions : List (RuntimeAction Bool DispatchChoice (OutsideEvent Bool)) :=
  [.outside (.enqueue request 0 0), .timer false 0, .call false (.order [("t", "m")]),
    .call false (.outcome (.ok ())), .shutdown false, .purge true 0]

def start : RuntimeState Bool LetteredOutbox := spawned args ⟨.empty, .empty⟩

def state : RuntimeState Bool LetteredOutbox :=
  (TransitionSystem.replay (nextOfRuntimes (LetteredOutbox.surroundings fleet)) start
    actions).getD start

/-- The fleet has come to the send of the message. -/
theorem fleet_of_runtimes_state : fleet.system.Reachable (fleetState state) :=
  @fleet_of_runtimes Bool _ fleet args start.env state
    (fun _ _ h => (Option.some.inj h).symm) (.init rfl)
    (TransitionSystem.reachable_of_replay actions rfl)

end TwoRuntimes

end Soulbase.Tx
