/-
# What is in flight

Ticks one after the other, of any dispatchers and tenants, share one `SimpleBudgetGuard`.
The stores, the transport and the backoff policy answer as they like. An attempt is counted
before the message is sent and taken off at the end of each branch; an error of a store in
between ends the tick, and the attempt stays counted for good. The counters keep their
values, and nobody is refused for them, in exactly those runs in which that does not happen.
-/

import Soulbase.Foundation.Triple
import Soulbase.Tx.Dispatcher
import Soulbase.Tx.Qos

namespace Soulbase.Tx

open Soulbase.Foundation

/-- A call of a tick with its answer. -/
abbrev DispatchCall := Sigma DispatchOp.Answer

/-- The budget guard, and what has been called so far, the newest first. -/
structure BudgetWorld where
  guard : SimpleBudgetGuard
  calls : List DispatchCall

/-- What the environment decides about a call: its answer, or the reading of the clock of a
hook of the guard. -/
structure BudgetChoice where
  reply : (op : DispatchOp) → op.Answer
  now : Int64

/-- The guard answers for its hooks, and the environment for everything else. -/
def SimpleBudgetGuard.serve (guard : SimpleBudgetGuard) (choice : BudgetChoice) :
    (op : DispatchOp) → op.Answer × SimpleBudgetGuard
  | .onDispatchAttempt tenant _ => guard.onDispatchAttempt tenant choice.now
  | .onDispatchResult tenant _ _ => guard.onDispatchResult tenant
  | op => (choice.reply op, guard)

/-- The operations of a tick. -/
def BudgetWorld.answer :
    Handler DispatchOp DispatchOp.Answer BudgetChoice BudgetWorld
  | world, choice, op =>
      let served := world.guard.serve choice op
      some (served.1, { guard := served.2, calls := ⟨op, served.1⟩ :: world.calls })

namespace DispatchCall

/-- The call asks the guard for an attempt. -/
def isAttempt : DispatchCall → Bool
  | ⟨.onDispatchAttempt .., _⟩ => true
  | _ => false

/-- The guard refuses an attempt because of what is in flight. -/
def isRefusal : DispatchCall → Prop
  | ⟨.onDispatchAttempt tenant _, .error error⟩ => ∃ max, error = inflightExceeded tenant max
  | _ => False

/-- A store or the dead store fails while a message is being settled. -/
def failsSettling : DispatchCall → Bool
  | ⟨.ackDone .., .error _⟩ | ⟨.deadLetter .., .error _⟩ | ⟨.push _, .error _⟩
  | ⟨.nackBackoff .., .error _⟩ => true
  | _ => false

end DispatchCall

/-- A tick that a dispatcher makes for a tenant, with its calls. -/
structure BudgetStep where
  dispatcher : Dispatcher
  tenant : TenantId
  nowMs : Int64
  before : SimpleBudgetGuard
  calls : List DispatchCall
  result : TxResult Unit
  after : SimpleBudgetGuard

namespace BudgetStep

/-- The tick may go this way. -/
def Happens (step : BudgetStep) : Prop :=
  Exec BudgetWorld.answer (step.dispatcher.tick step.tenant step.nowMs).run
    { guard := step.before, calls := [] } step.result
    { guard := step.after, calls := step.calls }

/-- The counter of the tenant is what it was, and no attempt was refused because of it. -/
structure Conserves (step : BudgetStep) : Prop where
  inflight : step.after.inflight step.tenant = step.before.inflight step.tenant
  unrefused : ∀ call ∈ step.calls, ¬call.isRefusal

/-- No store fails while a message is being settled, and no attempt is made where the
configuration allows none. -/
structure Undisturbed (step : BudgetStep) : Prop where
  settled : ∀ call ∈ step.calls, call.failsSettling = false
  allowed : step.before.cfg.maxInflight = some 0 → ∀ call ∈ step.calls, call.isAttempt = false

end BudgetStep

/-- The steps follow each other, from a guard on. -/
def BudgetSteps (guard : SimpleBudgetGuard) : List BudgetStep → Prop
  | [] => True
  | step :: steps => step.before = guard ∧ step.Happens ∧ BudgetSteps step.after steps

/-- A run of ticks that share a new guard. -/
structure BudgetRun (cfg : BudgetConfig) where
  steps : List BudgetStep
  follows : BudgetSteps (.new cfg) steps

/-! ## Inside a tick -/

/-- Nothing is in flight, and nothing was wrong so far. -/
structure BudgetWorld.Calm (cfg : BudgetConfig) (world : BudgetWorld) : Prop where
  cfg_eq : world.guard.cfg = cfg
  idle : ∀ tenant, world.guard.inflight tenant = 0
  settled : ∀ call ∈ world.calls, call.failsSettling = false
  unrefused : ∀ call ∈ world.calls, ¬call.isRefusal
  allowed : cfg.maxInflight = some 0 → ∀ call ∈ world.calls, call.isAttempt = false

/-- An attempt of the tenant is in flight, and nothing was wrong so far. -/
structure BudgetWorld.Sending (cfg : BudgetConfig) (tenant : TenantId) (world : BudgetWorld) :
    Prop where
  cfg_eq : world.guard.cfg = cfg
  one : world.guard.inflight tenant = 1
  others : ∀ other, other ≠ tenant → world.guard.inflight other = 0
  settled : ∀ call ∈ world.calls, call.failsSettling = false
  unrefused : ∀ call ∈ world.calls, ¬call.isRefusal
  positive : cfg.maxInflight ≠ some 0

/-- How a tick of the tenant may end: an attempt is still in flight exactly if a store has
failed, and one was refused exactly if none was allowed. -/
structure BudgetWorld.Ended (cfg : BudgetConfig) (tenant : TenantId) (world : BudgetWorld) :
    Prop where
  cfg_eq : world.guard.cfg = cfg
  others : ∀ other, other ≠ tenant → world.guard.inflight other = 0
  inflight_iff : world.guard.inflight tenant = 0 ↔
    ∀ call ∈ world.calls, call.failsSettling = false
  unrefused_iff : (∀ call ∈ world.calls, ¬call.isRefusal) ↔
    (cfg.maxInflight = some 0 → ∀ call ∈ world.calls, call.isAttempt = false)

section Calls

variable {cfg : BudgetConfig} {tenant : TenantId} {world next : BudgetWorld}
variable {choice : BudgetChoice} {op : DispatchOp} {reply : op.Answer}

/-- A call that is not a hook of the guard. -/
def DispatchOp.isOutside : DispatchOp → Bool
  | onDispatchAttempt .. | onDispatchResult .. => false
  | _ => true

/-- A call that is not a hook leaves the guard alone. -/
theorem BudgetWorld.answer_outside (hop : op.isOutside = true)
    (h : BudgetWorld.answer world choice op = some (reply, next)) :
    next = { guard := world.guard, calls := ⟨op, reply⟩ :: world.calls } := by
  cases op <;> first | (cases h; rfl) | cases hop

theorem DispatchCall.isAttempt_outside (hop : op.isOutside = true) :
    isAttempt ⟨op, reply⟩ = false := by
  cases op <;> first | rfl | cases hop

theorem DispatchCall.not_isRefusal_outside (hop : op.isOutside = true) :
    ¬isRefusal ⟨op, reply⟩ := by
  cases op <;> first | exact not_false | cases hop

/-- Where all is calm, a tick may end. -/
theorem BudgetWorld.Calm.ended (h : world.Calm cfg) (tenant : TenantId) :
    world.Ended cfg tenant where
  cfg_eq := h.cfg_eq
  others := fun other _ => h.idle other
  inflight_iff := iff_of_true (h.idle tenant) h.settled
  unrefused_iff := iff_of_true h.unrefused h.allowed

/-- A call that is not a hook and does not fail keeps the calm. -/
theorem BudgetWorld.Calm.outside (h : world.Calm cfg) (hop : op.isOutside = true)
    (hcall : BudgetWorld.answer world choice op = some (reply, next))
    (hsettled : DispatchCall.failsSettling ⟨op, reply⟩ = false) : next.Calm cfg := by
  obtain rfl := answer_outside hop hcall
  constructor
  case cfg_eq => exact h.cfg_eq
  case idle => exact h.idle
  case settled => exact List.forall_mem_cons.mpr ⟨hsettled, h.settled⟩
  case unrefused =>
    exact List.forall_mem_cons.mpr ⟨DispatchCall.not_isRefusal_outside hop, h.unrefused⟩
  case allowed =>
    intro hnone
    exact List.forall_mem_cons.mpr ⟨DispatchCall.isAttempt_outside hop, h.allowed hnone⟩

/-- An attempt is refused, which may end a tick, or it is in flight. -/
theorem BudgetWorld.Calm.attempt (h : world.Calm cfg) {message : OutboxMessage}
    {reply : TxResult Unit}
    (hcall : BudgetWorld.answer world choice (.onDispatchAttempt tenant message) =
      some (reply, next)) :
    Ends (fun _ => Sending cfg tenant) (fun _ => Ended cfg tenant) reply next := by
  obtain ⟨hreply, rfl⟩ := Prod.mk.inj (Option.some.inj hcall)
  obtain ⟨hcfg, hothers, hcases⟩ :=
    SimpleBudgetGuard.onDispatchAttempt_of_idle (h.idle tenant) (Prod.ext hreply rfl)
  rw [h.cfg_eq] at hcfg hcases
  have hidle := fun other hne => (hothers other hne).trans (h.idle other)
  have hsettled : ∀ call ∈ ⟨.onDispatchAttempt tenant message, reply⟩ :: world.calls,
      DispatchCall.failsSettling call = false := List.forall_mem_cons.mpr ⟨rfl, h.settled⟩
  rw [hreply]
  rcases hcases with ⟨hzero, rfl, hafter⟩ | ⟨hmax, ⟨limit, windowSec, rfl, hafter⟩ | ⟨rfl, hafter⟩⟩
  · refine ⟨hcfg, hidle, iff_of_true hafter hsettled, iff_of_false ?_ ?_⟩
    · exact fun hnone => hnone _ List.mem_cons_self ⟨0, rfl⟩
    · exact fun hnone => Bool.noConfusion (hnone hzero _ List.mem_cons_self)
  · refine ⟨hcfg, hidle, iff_of_true hafter hsettled, iff_of_true ?_ fun hzero => absurd hzero hmax⟩
    refine List.forall_mem_cons.mpr ⟨?_, h.unrefused⟩
    rintro ⟨max, hsame⟩
    exact inflightExceeded_ne_windowExceeded tenant max limit windowSec hsame.symm
  · exact ⟨hcfg, hafter, hidle, hsettled,
      List.forall_mem_cons.mpr ⟨not_false, h.unrefused⟩, hmax⟩

/-- While an attempt is in flight, any other call keeps it there, and ends the tick if it
fails. -/
theorem BudgetWorld.Sending.outside (h : world.Sending cfg tenant) (hop : op.isOutside = true)
    (hcall : BudgetWorld.answer world choice op = some (reply, next)) :
    if DispatchCall.failsSettling ⟨op, reply⟩ then next.Ended cfg tenant
    else next.Sending cfg tenant := by
  obtain rfl := answer_outside hop hcall
  have hunrefused : ∀ call ∈ ⟨op, reply⟩ :: world.calls, ¬DispatchCall.isRefusal call :=
    List.forall_mem_cons.mpr ⟨DispatchCall.not_isRefusal_outside hop, h.unrefused⟩
  split
  case isTrue hfails =>
    refine ⟨h.cfg_eq, h.others, iff_of_false ?_ ?_, iff_of_true hunrefused ?_⟩
    · rw [h.one]
      decide
    · intro hsettled
      rw [hsettled _ List.mem_cons_self] at hfails
      cases hfails
    · exact fun hzero => absurd hzero h.positive
  case isFalse hfine =>
    exact ⟨h.cfg_eq, h.one, h.others,
      List.forall_mem_cons.mpr ⟨Bool.eq_false_iff.mpr hfine, h.settled⟩, hunrefused, h.positive⟩

/-- The result takes the attempt off. -/
theorem BudgetWorld.Sending.result (h : world.Sending cfg tenant) {message : OutboxMessage}
    {success : Bool} {reply : TxResult Unit}
    (hcall : BudgetWorld.answer world choice (.onDispatchResult tenant message success) =
      some (reply, next)) : reply = .ok () ∧ next.Calm cfg := by
  obtain ⟨hreply, rfl⟩ := Prod.mk.inj (Option.some.inj hcall)
  refine ⟨hreply.symm, h.cfg_eq, ?_, List.forall_mem_cons.mpr ⟨rfl, h.settled⟩,
    List.forall_mem_cons.mpr ⟨not_false, h.unrefused⟩, fun hzero => absurd hzero h.positive⟩
  intro other
  refine (SimpleBudgetGuard.inflight_onDispatchResult h.one other).trans ?_
  split
  · rfl
  · exact h.others other (by assumption)

/-- An attempt with the guard. -/
theorem triple_onDispatchAttempt (message : OutboxMessage) :
    Triple BudgetWorld.answer (BudgetWorld.Calm cfg)
      (attempt (call (.onDispatchAttempt tenant message)))
      (fun _ => BudgetWorld.Sending cfg tenant) fun _ => BudgetWorld.Ended cfg tenant := by
  intro world result last h hexec
  obtain ⟨choice, hcall⟩ := exec_perform_iff.mp hexec
  exact h.attempt hcall

/-- A call that settles a message, while the attempt is in flight. -/
theorem triple_settling {α : Type} (op : DispatchOp) (hop : op.isOutside = true)
    (reply : TxResult α → op.Answer)
    {program : Program DispatchOp DispatchOp.Answer (TxResult α)}
    (hprogram : ∀ world result last, Exec BudgetWorld.answer program world result last →
      ∃ choice, BudgetWorld.answer world choice op = some (reply result, last))
    (hfails : ∀ error, DispatchCall.failsSettling ⟨op, reply (.error error)⟩ = true)
    (hfine : ∀ value, DispatchCall.failsSettling ⟨op, reply (.ok value)⟩ = false) :
    Triple BudgetWorld.answer (BudgetWorld.Sending cfg tenant) (attempt program)
      (fun _ => BudgetWorld.Sending cfg tenant) fun _ => BudgetWorld.Ended cfg tenant := by
  intro world result last h hexec
  obtain ⟨choice, hcall⟩ := hprogram world result last hexec
  have hend := h.outside hop hcall
  cases result with
  | error error =>
      rw [if_pos (hfails error)] at hend
      exact hend
  | ok value =>
      rw [hfine value, if_neg Bool.false_ne_true] at hend
      exact hend

/-- A call that can do no harm. -/
theorem triple_harmless (op : DispatchOp) (hop : op.isOutside = true)
    (hfine : ∀ reply, DispatchCall.failsSettling ⟨op, reply⟩ = false) :
    Triple BudgetWorld.answer (BudgetWorld.Sending cfg tenant)
      (ExceptT.lift (call op) : Dispatch op.Answer)
      (fun _ => BudgetWorld.Sending cfg tenant) fun _ => BudgetWorld.Ended cfg tenant := by
  apply triple_lift
  intro world reply last h hexec
  obtain ⟨choice, hcall⟩ := exec_perform_iff.mp hexec
  have hend := h.outside hop hcall
  rw [hfine reply, if_neg Bool.false_ne_true] at hend
  exact hend

/-- The result of the attempt, with which a round ends. -/
theorem triple_onDispatchResult (message : OutboxMessage) (success : Bool) :
    Triple BudgetWorld.answer (BudgetWorld.Sending cfg tenant)
      (attempt (call (.onDispatchResult tenant message success)))
      (fun _ => BudgetWorld.Calm cfg) fun _ => BudgetWorld.Ended cfg tenant := by
  intro world result last h hexec
  obtain ⟨choice, hcall⟩ := exec_perform_iff.mp hexec
  obtain ⟨rfl, hcalm⟩ := h.result hcall
  exact hcalm

/-- One round of the loop. -/
theorem triple_dispatch (dispatcher : Dispatcher) (nowMs : Int64) (message : OutboxMessage) :
    Triple BudgetWorld.answer (BudgetWorld.Calm cfg) (dispatcher.dispatch tenant nowMs message)
      (fun _ => BudgetWorld.Calm cfg) fun _ => BudgetWorld.Ended cfg tenant := by
  have hresult : ∀ success, Triple BudgetWorld.answer (BudgetWorld.Sending cfg tenant)
      (attempt (call (.onDispatchResult tenant message success)))
      (fun _ => BudgetWorld.Calm cfg) fun _ => BudgetWorld.Ended cfg tenant :=
    triple_onDispatchResult message
  apply triple_bind (triple_onDispatchAttempt message)
  intro _
  apply triple_bind (triple_harmless (.send message) rfl fun _ => rfl)
  intro sent
  cases sent with
  | ok _ =>
      exact triple_bind (triple_settling (.ackDone tenant message.id) rfl id
        (fun _ _ _ => exec_perform_iff.mp) (fun _ => rfl) fun _ => rfl) fun _ => hresult true
  | error error =>
      unfold Dispatcher.giveUpOrRetry
      simp only
      split
      · apply triple_bind (triple_settling
          (.deadLetter tenant message.id (some error.toString)) rfl id
          (fun _ _ _ => exec_perform_iff.mp) (fun _ => rfl) fun _ => rfl)
        intro letter
        split
        · exact triple_bind (triple_settling (.push letter) rfl id
            (fun _ _ _ => exec_perform_iff.mp) (fun _ => rfl) fun _ => rfl) fun _ => hresult false
        · exact hresult false
      · apply triple_bind
          (triple_harmless (.nextAfter nowMs (message.attempts + 1)) rfl fun _ => rfl)
        intro next
        exact triple_bind (triple_settling
          (.nackBackoff tenant message.id next (some error.toString)) rfl id
          (fun _ _ _ => exec_perform_iff.mp) (fun _ => rfl) fun _ => rfl) fun _ => hresult false

/-- A tick that begins where all is calm. -/
theorem triple_tick (dispatcher : Dispatcher) (nowMs : Int64) :
    Triple BudgetWorld.answer (BudgetWorld.Calm cfg) (dispatcher.tick tenant nowMs)
      (fun _ => BudgetWorld.Calm cfg) fun _ => BudgetWorld.Ended cfg tenant := by
  have hlease : Triple BudgetWorld.answer (BudgetWorld.Calm cfg)
      (attempt (call (.leaseBatch tenant nowMs dispatcher.leaseMs dispatcher.batch
        dispatcher.workerId dispatcher.groupByDispatchKey)))
      (fun _ => BudgetWorld.Calm cfg) fun _ => BudgetWorld.Ended cfg tenant := by
    intro world result last h hexec
    obtain ⟨choice, hcall⟩ := exec_perform_iff.mp hexec
    have hcalm := h.outside rfl hcall rfl
    cases result with
    | error error => exact hcalm.ended tenant
    | ok messages => exact hcalm
  exact triple_bind hlease (triple_forM (triple_dispatch dispatcher nowMs))

end Calls

/-- How a tick ends that begins with nothing in flight. -/
theorem BudgetStep.Happens.ended {step : BudgetStep} (h : step.Happens)
    (hidle : ∀ tenant, step.before.inflight tenant = 0) :
    BudgetWorld.Ended step.before.cfg step.tenant { guard := step.after, calls := step.calls } := by
  have hcalm : BudgetWorld.Calm step.before.cfg { guard := step.before, calls := [] } :=
    ⟨rfl, hidle, by simp, by simp, by simp⟩
  have hends := triple_tick step.dispatcher step.nowMs _ _ _ hcalm h
  cases hresult : step.result with
  | ok _ =>
      rw [hresult] at hends
      exact BudgetWorld.Calm.ended hends step.tenant
  | error error =>
      rw [hresult] at hends
      exact hends

/-- Such a tick conserves the counter exactly if it is undisturbed. -/
theorem BudgetStep.Happens.conserves_iff {step : BudgetStep} (h : step.Happens)
    (hidle : ∀ tenant, step.before.inflight tenant = 0) :
    step.Conserves ↔ step.Undisturbed := by
  have hend := h.ended hidle
  constructor
  · rintro ⟨hinflight, hunrefused⟩
    exact ⟨hend.inflight_iff.mp (hinflight.trans (hidle _)), hend.unrefused_iff.mp hunrefused⟩
  · rintro ⟨hsettled, hallowed⟩
    exact ⟨(hend.inflight_iff.mpr hsettled).trans (hidle _).symm, hend.unrefused_iff.mpr hallowed⟩

/-- If it conserves the counter, nothing is in flight after it. -/
theorem BudgetStep.Happens.idle_after {step : BudgetStep} (h : step.Happens)
    (hidle : ∀ tenant, step.before.inflight tenant = 0) (hconserves : step.Conserves)
    (tenant : TenantId) : step.after.inflight tenant = 0 := by
  by_cases htenant : tenant = step.tenant
  · rw [htenant, hconserves.inflight, hidle]
  · exact (h.ended hidle).others tenant htenant

/-- The same for steps that follow each other. -/
theorem conserves_iff_undisturbed {guard : SimpleBudgetGuard} {steps : List BudgetStep}
    (hidle : ∀ tenant, guard.inflight tenant = 0) (h : BudgetSteps guard steps) :
    (∀ step ∈ steps, step.Conserves) ↔ ∀ step ∈ steps, step.Undisturbed := by
  induction steps generalizing guard with
  | nil => simp
  | cons step rest ih =>
      obtain ⟨rfl, hhappens, hrest⟩ := h
      rw [List.forall_mem_cons, List.forall_mem_cons, ← hhappens.conserves_iff hidle]
      exact and_congr_right fun hconserves => ih (hhappens.idle_after hidle hconserves) hrest

/-- In a run of ticks that share a new guard, the counter of the tenant is after each tick
what it was before, and no attempt is refused because of it, exactly if every tick is
undisturbed. -/
theorem inflightConserved_iff_undisturbed {cfg : BudgetConfig} (run : BudgetRun cfg) :
    (∀ step ∈ run.steps, step.Conserves) ↔ ∀ step ∈ run.steps, step.Undisturbed :=
  conserves_iff_undisturbed (SimpleBudgetGuard.inflight_new cfg) run.follows

/-- A message is leased and sent, and then the store is out of reach. -/
def storeOutage : BudgetChoice where
  reply
    | .leaseBatch .. =>
        .ok [buildOutboxMessage ⟨⟨"m"⟩, ⟨"t"⟩, ⟨"e"⟩, "topic", .null, none, none⟩ 0 0]
    | .onDispatchAttempt .. | .send _ | .onDispatchResult .. | .push _ | .nackBackoff .. => .ok ()
    | .ackDone .. => .error (.unknown "out of reach")
    | .deadLetter .. => .error (.unknown "out of reach")
    | .nextAfter nowMs _ => nowMs
  now := 0

/-- A dispatcher for messages one by one. -/
def oneByOne : Dispatcher where
  workerId := "w"
  maxAttempts := 3
  leaseMs := 1000
  batch := 1
  groupByDispatchKey := false
  deadStore := false

/-- One attempt may be in flight, and after a tick without its acknowledgement one is, for
good. -/
theorem not_inflightConserved_storeOutage :
    ¬∀ (cfg : BudgetConfig) (run : BudgetRun cfg), ∀ step ∈ run.steps, step.Conserves := by
  intro h
  obtain ⟨result, world, hruns, hinflight⟩ : ∃ result world,
      runWith BudgetWorld.answer (.replicate 4 storeOutage) (oneByOne.tick ⟨"t"⟩ 0).run
        { guard := .new ⟨some 1, none, none⟩, calls := [] } = some (result, world) ∧
      world.guard.inflight ⟨"t"⟩ = 1 := ⟨_, _, rfl, by decide⟩
  have hconserves := h ⟨some 1, none, none⟩
    { steps := [⟨oneByOne, ⟨"t"⟩, 0, .new ⟨some 1, none, none⟩, world.calls, result, world.guard⟩]
      follows := ⟨rfl, exec_of_runWith _ hruns, trivial⟩ } _ List.mem_cons_self
  have hzero := hconserves.inflight
  rw [hinflight, SimpleBudgetGuard.inflight_new] at hzero
  exact absurd hzero (by decide)

end Soulbase.Tx
