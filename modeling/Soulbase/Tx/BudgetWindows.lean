/-
# Budgets over runs

`SimpleBudgetGuard` under any sequence of attempts and results of any tenants, with a clock that
does not go back. What is in flight and what a window has admitted stay within their limits,
windows are as far apart as configured, a refusal costs nothing, and tenants do not meet.
-/

import Soulbase.Foundation.MachineInt
import Soulbase.Tx.Qos

namespace Soulbase.Tx

open Soulbase.Foundation

/-- All that an attempt does to the budget of its tenant. -/
inductive TenantBudget.Attempted (budget : TenantBudget) (cfg : BudgetConfig) (tenant : TenantId)
    (now : Int64) : TxResult Unit → TenantBudget → Prop
  | inflightFull {max : UInt32} : cfg.maxInflight = some max → max ≤ budget.inflight →
      Attempted budget cfg tenant now (.error (inflightExceeded tenant max)) budget
  | windowFull {limit : UInt32} {windowSec : UInt64} :
      cfg.maxDispatchPerWindow = some limit → cfg.windowSeconds = some windowSec →
        limit ≤ (budget.rollWindow windowSec now).windowCount →
          Attempted budget cfg tenant now (.error (windowExceeded tenant limit windowSec))
            (budget.rollWindow windowSec now)
  | inWindow {limit : UInt32} {windowSec : UInt64} :
      cfg.maxDispatchPerWindow = some limit → cfg.windowSeconds = some windowSec →
        (budget.rollWindow windowSec now).windowCount < limit →
          (∀ max, cfg.maxInflight = some max → budget.inflight < max) →
            Attempted budget cfg tenant now (.ok ())
              { budget.rollWindow windowSec now with
                windowCount := (budget.rollWindow windowSec now).windowCount + 1
                inflight := (budget.rollWindow windowSec now).inflight + 1 }
  | noWindow : cfg.maxDispatchPerWindow = none ∨ cfg.windowSeconds = none →
      (∀ max, cfg.maxInflight = some max → budget.inflight < max) →
        Attempted budget cfg tenant now (.ok ()) { budget with inflight := budget.inflight + 1 }

namespace TenantBudget

variable {budget after : TenantBudget} {cfg : BudgetConfig} {tenant : TenantId} {now : Int64}
variable {reply : TxResult Unit} {windowSec : UInt64}

theorem attempted_attemptInWindow
    (hroom : ∀ max, cfg.maxInflight = some max → budget.inflight < max) :
    Attempted budget cfg tenant now (budget.attemptInWindow cfg tenant now).1
      (budget.attemptInWindow cfg tenant now).2 := by
  unfold attemptInWindow
  split
  case h_1 limit windowSec hlimit hwindow =>
    by_cases hfull : (budget.rollWindow windowSec now).windowCount ≥ limit
    · simp only [if_pos hfull]
      exact .windowFull hlimit hwindow hfull
    · simp only [if_neg hfull]
      exact .inWindow hlimit hwindow (UInt32.not_le.mp hfull) hroom
  case h_2 hnone =>
    apply Attempted.noWindow _ hroom
    cases hlimit : cfg.maxDispatchPerWindow with
    | none => exact .inl rfl
    | some limit =>
        cases hwindow : cfg.windowSeconds with
        | none => exact .inr rfl
        | some windowSec => exact (hnone limit windowSec hlimit hwindow).elim

theorem attempted_attempt (budget : TenantBudget) (cfg : BudgetConfig) (tenant : TenantId)
    (now : Int64) :
    Attempted budget cfg tenant now (budget.attempt cfg tenant now).1
      (budget.attempt cfg tenant now).2 := by
  unfold attempt
  split
  case h_1 max hmax =>
    by_cases hfull : budget.inflight ≥ max
    · simp only [if_pos hfull]
      exact .inflightFull hmax hfull
    · simp only [if_neg hfull]
      refine attempted_attemptInWindow fun max' hmax' => ?_
      rw [← Option.some.inj (hmax.symm.trans hmax')]
      exact UInt32.not_le.mp hfull
  case h_2 hmax =>
    refine attempted_attemptInWindow fun max hmax' => ?_
    rw [hmax] at hmax'
    cases hmax'

/-- The length of a window in milliseconds, as an integer. -/
def windowLength (windowSec : UInt64) : ℤ := max (windowSec.toNat : ℤ) 1 * 1000

/-- The product with a thousand does not overflow. -/
theorem toInt_windowMs (h : windowSec.toNat * 1000 < 2 ^ 63) :
    (windowMs windowSec).toInt = windowLength windowSec := by
  have hcast : windowSec.toInt64.toInt = windowSec.toNat := by
    change windowSec.toInt64.toBitVec.toInt = _
    rw [UInt64.toBitVec_toInt64, BitVec.toInt_eq_toNat_of_lt]
    · rfl
    · change 2 * windowSec.toNat < 2 ^ 64
      omega
  have hmax : (max windowSec.toInt64 1).toInt = max (windowSec.toNat : ℤ) 1 := by
    have hone : (1 : Int64).toInt = 1 := rfl
    change (if windowSec.toInt64 ≤ 1 then (1 : Int64) else windowSec.toInt64).toInt = _
    split
    case isTrue hle =>
      have := Int64.le_iff_toInt_le.mp hle
      omega
    case isFalse hgt =>
      have := Int64.lt_iff_toInt_lt.mp (Int64.not_le.mp hgt)
      omega
  have hthousand : (1000 : Int64).toInt = 1000 := rfl
  rw [windowMs, Int64.toInt_mul, hmax, hthousand, windowLength]
  apply Int.bmod_eq_of_le <;> omega

/-- A window starts at 0 or has started at a time that the clock has passed. -/
structure StartedBy (budget : TenantBudget) (now : Int64) : Prop where
  nonneg : 0 ≤ budget.windowStartMs
  passed : budget.windowStartMs = 0 ∨ budget.windowStartMs ≤ now

theorem StartedBy.congr (h : budget.StartedBy now)
    (hstart : after.windowStartMs = budget.windowStartMs) : after.StartedBy now :=
  ⟨hstart ▸ h.nonneg, hstart ▸ h.passed⟩

theorem StartedBy.mono {later : Int64} (h : budget.StartedBy now) (hle : now ≤ later) :
    budget.StartedBy later :=
  ⟨h.nonneg, h.passed.imp_right fun hstart => Int64.le_trans hstart hle⟩

/-- A window is replaced when it has run out, and only then. -/
theorem rollWindow_cases (h : budget.StartedBy now) (hsec : windowSec.toNat * 1000 < 2 ^ 63) :
    (budget.rollWindow windowSec now = budget) ∨
      budget.windowStartMs.toInt + windowLength windowSec ≤ now.toInt ∧
        budget.rollWindow windowSec now =
          { budget with
            windowStartMs := now
            windowCount := 0 } := by
  unfold rollWindow
  split
  case isFalse => exact .inl rfl
  case isTrue hover =>
    refine .inr ⟨?_, rfl⟩
    have hlength := toInt_windowMs hsec
    have hage := Int64.le_iff_toInt_le.mp hover
    have hsub : (now - budget.windowStartMs).toInt = now.toInt - budget.windowStartMs.toInt := by
      rcases h.passed with hzero | hle
      · rw [hzero, Int64.sub_zero, Int64.toInt_zero, Int.sub_zero]
      · exact Int64.toInt_sub_of_le _ _ h.nonneg hle
    omega

theorem windowLength_pos (windowSec : UInt64) : 0 < windowLength windowSec := by
  unfold windowLength
  omega

theorem startedBy_rollWindow (h : budget.StartedBy now)
    (hsec : windowSec.toNat * 1000 < 2 ^ 63) : (budget.rollWindow windowSec now).StartedBy now := by
  rcases rollWindow_cases h hsec with hsame | ⟨hlater, hnew⟩
  · rw [hsame]
    exact h
  · rw [hnew]
    have hstart := Int64.le_iff_toInt_le.mp h.nonneg
    have hlength := windowLength_pos windowSec
    refine ⟨Int64.le_iff_toInt_le.mpr ?_, .inr (Int64.le_refl now)⟩
    change (0 : Int64).toInt ≤ now.toInt
    omega

end TenantBudget

/-- A call of a hook, with its reading of the clock. -/
inductive BudgetCall
  | attempt (tenant : TenantId) (now : Int64)
  | result (tenant : TenantId)

namespace BudgetCall

def tenant : BudgetCall → TenantId
  | attempt tenant _ => tenant
  | result tenant => tenant

def clock : BudgetCall → Option Int64
  | attempt _ now => some now
  | result _ => none

end BudgetCall

/-- The guard, and the attempts that it has admitted: their tenant and their window. -/
structure GuardRun where
  guard : SimpleBudgetGuard
  admitted : List (TenantId × Int64)

namespace GuardRun

/-- What a call makes of the run. -/
def apply (run : GuardRun) : BudgetCall → GuardRun
  | .attempt tenant now =>
      let served := run.guard.onDispatchAttempt tenant now
      match served.1 with
      | .ok () =>
          ⟨served.2, (tenant, (served.2.budget tenant).windowStartMs) :: run.admitted⟩
      | .error _ => ⟨served.2, run.admitted⟩
  | .result tenant => ⟨(run.guard.onDispatchResult tenant).2, run.admitted⟩

/-- The run of calls on a new guard. The latest call is the first of the list. -/
def of (cfg : BudgetConfig) : List BudgetCall → GuardRun
  | [] => ⟨.new cfg, []⟩
  | call :: earlier => (of cfg earlier).apply call

/-- The budget of a tenant. -/
def budget (run : GuardRun) (tenant : TenantId) : TenantBudget := run.guard.budget tenant

/-- The clock does not go back from call to call. -/
def ClockAdvances (calls : List BudgetCall) : Prop :=
  calls.Pairwise fun later earlier =>
    ∀ now ∈ later.clock, ∀ before ∈ earlier.clock, before ≤ now

/-- The windows of a configuration can be measured in milliseconds. -/
def Measurable (cfg : BudgetConfig) : Prop :=
  ∀ windowSec, cfg.windowSeconds = some windowSec → windowSec.toNat * 1000 < 2 ^ 63

/-- What the guard keeps to over calls. -/
structure KeepsBudgets (cfg : BudgetConfig) (calls : List BudgetCall) : Prop where
  /-- No tenant has more in flight than allowed. -/
  inflight : ∀ tenant max, cfg.maxInflight = some max →
    ((of cfg calls).budget tenant).inflight ≤ max
  /-- No window of a tenant has admitted more attempts than allowed. -/
  admitted : ∀ tenant limit windowSec window, cfg.maxDispatchPerWindow = some limit →
    cfg.windowSeconds = some windowSec →
      (of cfg calls).admitted.count (tenant, window) ≤ limit.toNat
  /-- A window is followed by one that starts so much later. -/
  spaced : ∀ call earlier tenant windowSec, call :: earlier <:+ calls →
    cfg.windowSeconds = some windowSec →
      ((of cfg (call :: earlier)).budget tenant).windowStartMs =
          ((of cfg earlier).budget tenant).windowStartMs ∨
        ((of cfg earlier).budget tenant).windowStartMs.toInt +
            TenantBudget.windowLength windowSec ≤
          ((of cfg (call :: earlier)).budget tenant).windowStartMs.toInt
  /-- A refused attempt leaves what is in flight and what its window has admitted. -/
  refused : ∀ tenant now earlier error, .attempt tenant now :: earlier <:+ calls →
    ((of cfg earlier).guard.onDispatchAttempt tenant now).1 = .error error →
      let before := (of cfg earlier).budget tenant
      let after := (of cfg (.attempt tenant now :: earlier)).budget tenant
      after.inflight = before.inflight ∧
        (after.windowStartMs = before.windowStartMs → after.windowCount = before.windowCount) ∧
          (after.windowStartMs ≠ before.windowStartMs → after.windowCount = 0)
  /-- A call leaves the budgets of other tenants. -/
  others : ∀ call earlier other, call :: earlier <:+ calls → other ≠ call.tenant →
    (of cfg (call :: earlier)).budget other = (of cfg earlier).budget other

section Steps

variable {run after : GuardRun} {cfg : BudgetConfig} {calls earlier : List BudgetCall}
variable {call : BudgetCall} {tenant other : TenantId} {now window : Int64} {limit : UInt32}
variable {windowSec : UInt64}

theorem cfg_of : (of cfg calls).guard.cfg = cfg := by
  induction calls with
  | nil => rfl
  | cons call earlier ih =>
      cases call with
      | result tenant => exact ih
      | attempt tenant now =>
          rw [of, apply]
          split <;> exact ih

/-- All that a call does: it changes the budget of its tenant, and an attempt that is admitted is
recorded. -/
inductive Applied (run : GuardRun) : BudgetCall → GuardRun → Prop
  | result (tenant : TenantId) {after : GuardRun} :
      (∀ other, after.budget other =
        if other = tenant then (run.budget tenant).result else run.budget other) →
      after.admitted = run.admitted → Applied run (.result tenant) after
  | admitted (tenant : TenantId) (now : Int64) {budget : TenantBudget} {after : GuardRun} :
      (run.budget tenant).Attempted run.guard.cfg tenant now (.ok ()) budget →
      (∀ other, after.budget other = if other = tenant then budget else run.budget other) →
      after.admitted = (tenant, budget.windowStartMs) :: run.admitted →
        Applied run (.attempt tenant now) after
  | refused (tenant : TenantId) (now : Int64) {budget : TenantBudget} {after : GuardRun}
      (error : TxError) :
      (run.guard.onDispatchAttempt tenant now).1 = .error error →
      (run.budget tenant).Attempted run.guard.cfg tenant now (.error error) budget →
      (∀ other, after.budget other = if other = tenant then budget else run.budget other) →
      after.admitted = run.admitted → Applied run (.attempt tenant now) after

theorem applied_apply (run : GuardRun) (call : BudgetCall) : Applied run call (run.apply call) := by
  cases call with
  | result tenant =>
      exact .result tenant (fun _ => SimpleBudgetGuard.budget_withTenant
        fun budget => ((.ok () : TxResult Unit), budget.result)) rfl
  | attempt tenant now =>
      have hattempted :=
        TenantBudget.attempted_attempt (run.budget tenant) run.guard.cfg tenant now
      have hbudget : ∀ other, (run.guard.onDispatchAttempt tenant now).2.budget other =
          if other = tenant then ((run.budget tenant).attempt run.guard.cfg tenant now).2
          else run.budget other := fun other => SimpleBudgetGuard.budget_withTenant _
      have hreply : (run.guard.onDispatchAttempt tenant now).1 =
          ((run.budget tenant).attempt run.guard.cfg tenant now).1 := rfl
      rw [apply]
      split
      case h_1 hok =>
        rw [← hreply, hok] at hattempted
        refine .admitted tenant now hattempted hbudget ?_
        rw [hbudget, if_pos rfl]
      case h_2 error herror =>
        rw [← hreply, herror] at hattempted
        exact .refused tenant now error herror hattempted hbudget rfl

/-- A call leaves the budgets of other tenants. -/
theorem Applied.budget_of_ne (h : Applied run call after) (hne : other ≠ call.tenant) :
    after.budget other = run.budget other := by
  cases h with
  | result _ hbudget _ => exact (hbudget other).trans (if_neg hne)
  | admitted _ _ _ hbudget _ => exact (hbudget other).trans (if_neg hne)
  | refused _ _ _ _ _ hbudget _ => exact (hbudget other).trans (if_neg hne)

/-- What a call makes of the budget of its tenant: a result, or an attempt, which is recorded if it
is admitted. -/
theorem Applied.budget_self (h : Applied run call after) :
    after.budget call.tenant = (run.budget call.tenant).result ∧
        after.admitted = run.admitted ∨
      ∃ now reply, call.clock = some now ∧
        (run.budget call.tenant).Attempted run.guard.cfg call.tenant now reply
          (after.budget call.tenant) ∧
        after.admitted =
          if reply = .ok () then
            (call.tenant, (after.budget call.tenant).windowStartMs) :: run.admitted
          else run.admitted := by
  cases h with
  | result tenant hbudget hadmitted => exact .inl ⟨(hbudget tenant).trans (if_pos rfl), hadmitted⟩
  | admitted tenant now hattempted hbudget hadmitted =>
      have hself := (hbudget tenant).trans (if_pos rfl)
      rw [← hself] at hattempted hadmitted
      exact .inr ⟨now, _, rfl, hattempted, hadmitted⟩
  | refused tenant now error _ hattempted hbudget hadmitted =>
      have hself := (hbudget tenant).trans (if_pos rfl)
      rw [← hself] at hattempted
      exact .inr ⟨now, _, rfl, hattempted, hadmitted⟩

end Steps

end GuardRun

namespace TenantBudget

section Limits

variable {budget after : TenantBudget} {cfg : BudgetConfig} {tenant : TenantId} {now : Int64}
variable {reply : TxResult Unit} {windowSec : UInt64} {max limit : UInt32}

theorem Attempted.inflight_le (h : budget.Attempted cfg tenant now reply after)
    (hmax : cfg.maxInflight = some max) (hle : budget.inflight ≤ max) : after.inflight ≤ max := by
  have hsucc : budget.inflight < max → budget.inflight + 1 ≤ max := by
    intro hlt
    have hnat := UInt32.lt_iff_toNat_lt.mp hlt
    have hsize := max.toNat_lt
    rw [UInt32.le_iff_toNat_le, toNat_succ (by omega)]
    omega
  cases h with
  | inflightFull _ _ => exact hle
  | windowFull _ _ _ => exact (inflight_rollWindow budget now _).symm ▸ hle
  | inWindow _ _ _ hroom =>
      rw [inflight_rollWindow]
      exact hsucc (hroom max hmax)
  | noWindow _ hroom => exact hsucc (hroom max hmax)

theorem inflight_result_le : budget.result.inflight ≤ budget.inflight := by
  unfold result
  split
  case isTrue hpos =>
    have hnat := UInt32.lt_iff_toNat_lt.mp hpos
    have hone : (1 : UInt32) ≤ budget.inflight := by
      rw [UInt32.le_iff_toNat_le]
      exact hnat
    change budget.inflight - 1 ≤ budget.inflight
    rw [UInt32.le_iff_toNat_le, UInt32.toNat_sub_of_le _ _ hone]
    exact Nat.sub_le _ _
  case isFalse => exact UInt32.le_refl _

theorem windowStartMs_result : budget.result.windowStartMs = budget.windowStartMs := by
  unfold result
  split <;> rfl

theorem windowCount_result : budget.result.windowCount = budget.windowCount := by
  unfold result
  split <;> rfl

/-- The window of an attempt is that before it, or a new one. -/
theorem rollWindow_window (hstarted : budget.StartedBy now)
    (hsec : windowSec.toNat * 1000 < 2 ^ 63) :
    (budget.rollWindow windowSec now).windowStartMs = budget.windowStartMs ∧
        (budget.rollWindow windowSec now).windowCount = budget.windowCount ∨
      budget.windowStartMs.toInt + windowLength windowSec ≤ now.toInt ∧
        (budget.rollWindow windowSec now).windowStartMs = now ∧
          (budget.rollWindow windowSec now).windowCount = 0 := by
  rcases rollWindow_cases hstarted hsec with hsame | ⟨hlater, hnew⟩
  · rw [hsame]
    exact .inl ⟨rfl, rfl⟩
  · rw [hnew]
    exact .inr ⟨hlater, rfl, rfl⟩

/-- An attempt stays in its window, or has found that it has run out. -/
theorem Attempted.spaced (h : budget.Attempted cfg tenant now reply after)
    (hstarted : budget.StartedBy now) (hwindow : cfg.windowSeconds = some windowSec)
    (hsec : windowSec.toNat * 1000 < 2 ^ 63) :
    after.windowStartMs = budget.windowStartMs ∨
      budget.windowStartMs.toInt + windowLength windowSec ≤ after.windowStartMs.toInt := by
  have hroll : (budget.rollWindow windowSec now).windowStartMs = budget.windowStartMs ∨
      budget.windowStartMs.toInt + windowLength windowSec ≤
        (budget.rollWindow windowSec now).windowStartMs.toInt := by
    rcases rollWindow_window hstarted hsec with ⟨hstart, _⟩ | ⟨hlater, hstart, _⟩
    · exact .inl hstart
    · rw [hstart]
      exact .inr hlater
  cases h with
  | inflightFull _ _ => exact .inl rfl
  | noWindow _ _ => exact .inl rfl
  | windowFull _ hwindow' _ =>
      obtain rfl := Option.some.inj (hwindow.symm.trans hwindow')
      exact hroll
  | inWindow _ hwindow' _ _ =>
      obtain rfl := Option.some.inj (hwindow.symm.trans hwindow')
      exact hroll

/-- The window after an attempt has started by its time. -/
theorem Attempted.startedBy (h : budget.Attempted cfg tenant now reply after)
    (hstarted : budget.StartedBy now)
    (hsec : ∀ windowSec, cfg.windowSeconds = some windowSec → windowSec.toNat * 1000 < 2 ^ 63) :
    after.StartedBy now := by
  cases h with
  | inflightFull _ _ => exact hstarted
  | noWindow _ _ => exact hstarted.congr rfl
  | windowFull _ hwindow _ => exact startedBy_rollWindow hstarted (hsec _ hwindow)
  | inWindow _ hwindow _ _ => exact (startedBy_rollWindow hstarted (hsec _ hwindow)).congr rfl

/-- A refusal leaves what is in flight, and the count of the window if that is the same. -/
theorem Attempted.refused {error : TxError}
    (h : budget.Attempted cfg tenant now (.error error) after) (hstarted : budget.StartedBy now)
    (hsec : ∀ windowSec, cfg.windowSeconds = some windowSec → windowSec.toNat * 1000 < 2 ^ 63) :
    after.inflight = budget.inflight ∧
      (after.windowStartMs = budget.windowStartMs → after.windowCount = budget.windowCount) ∧
        (after.windowStartMs ≠ budget.windowStartMs → after.windowCount = 0) := by
  cases h with
  | inflightFull _ _ => exact ⟨rfl, fun _ => rfl, fun hne => absurd rfl hne⟩
  | windowFull _ hwindow _ =>
      refine ⟨inflight_rollWindow _ _ _, ?_⟩
      rcases rollWindow_window hstarted (hsec _ hwindow) with
        ⟨hstart, hcount⟩ | ⟨hlater, hstart, hcount⟩
      · exact ⟨fun _ => hcount, fun hne => absurd hstart hne⟩
      · refine ⟨fun hsame => ?_, fun _ => hcount⟩
        rw [hstart] at hsame
        have hlength := windowLength_pos ‹UInt64›
        rw [← hsame] at hlater
        omega

/-- The attempts of a tenant that its windows have admitted are within the limit, and those of the
running window are counted. -/
structure WindowKept (admitted : List (TenantId × Int64)) (tenant : TenantId) (limit : UInt32)
    (budget : TenantBudget) : Prop where
  started : ∀ window, (tenant, window) ∈ admitted → window ≤ budget.windowStartMs
  counted : admitted.count (tenant, budget.windowStartMs) = budget.windowCount.toNat
  within : ∀ window, admitted.count (tenant, window) ≤ limit.toNat

variable {admitted : List (TenantId × Int64)} {other : TenantId} {window : Int64}

theorem WindowKept.congr (h : WindowKept admitted tenant limit budget)
    (hstart : after.windowStartMs = budget.windowStartMs)
    (hcount : after.windowCount = budget.windowCount) :
    WindowKept admitted tenant limit after := by
  constructor
  · rw [hstart]
    exact h.started
  · rw [hstart, hcount]
    exact h.counted
  · exact h.within

theorem WindowKept.roll (h : WindowKept admitted tenant limit budget)
    (hstarted : budget.StartedBy now) (hsec : windowSec.toNat * 1000 < 2 ^ 63) :
    WindowKept admitted tenant limit (budget.rollWindow windowSec now) := by
  rcases rollWindow_window hstarted hsec with ⟨hstart, hcount⟩ | ⟨hlater, hstart, hcount⟩
  · exact h.congr hstart hcount
  · have hlt : budget.windowStartMs < now := by
      have hlength := windowLength_pos windowSec
      rw [Int64.lt_iff_toInt_lt]
      omega
    constructor
    · intro window hmem
      rw [hstart]
      exact Int64.le_of_lt (Int64.lt_of_le_of_lt (h.started window hmem) hlt)
    · rw [hstart, hcount]
      refine List.count_eq_zero.mpr fun hmem => ?_
      exact Int64.lt_irrefl (Int64.lt_of_lt_of_le hlt (h.started now hmem))
    · exact h.within

theorem WindowKept.count (h : WindowKept admitted tenant limit budget)
    (hroom : budget.windowCount < limit) (hstart : after.windowStartMs = budget.windowStartMs)
    (hcount : after.windowCount = budget.windowCount + 1) :
    WindowKept ((tenant, budget.windowStartMs) :: admitted) tenant limit after := by
  have hnat := UInt32.lt_iff_toNat_lt.mp hroom
  have hsize := limit.toNat_lt
  constructor
  · intro window hmem
    rw [hstart]
    rcases List.mem_cons.mp hmem with hsame | hmem
    · exact (Prod.mk.inj hsame).2 ▸ Int64.le_refl _
    · exact h.started window hmem
  · rw [hstart, hcount, List.count_cons_self, h.counted, toNat_succ (by omega)]
  · intro window
    by_cases hsame : window = budget.windowStartMs
    · rw [hsame, List.count_cons_self, h.counted]
      omega
    · rw [List.count_cons_of_ne fun heq => hsame (Prod.mk.inj heq).2.symm]
      exact h.within window

theorem WindowKept.cons_of_ne (h : WindowKept admitted tenant limit budget) (hne : tenant ≠ other) :
    WindowKept ((other, window) :: admitted) tenant limit budget := by
  have hcount : ∀ window', ((other, window) :: admitted).count (tenant, window') =
      admitted.count (tenant, window') :=
    fun _ => List.count_cons_of_ne fun heq => hne (Prod.mk.inj heq).1.symm
  constructor
  · intro window' hmem
    rcases List.mem_cons.mp hmem with hsame | hmem
    · exact absurd (Prod.mk.inj hsame).1 hne
    · exact h.started window' hmem
  · rw [hcount]
    exact h.counted
  · intro window'
    rw [hcount]
    exact h.within window'

/-- An attempt of the tenant keeps its windows within the limit. -/
theorem Attempted.windowKept (h : budget.Attempted cfg tenant now reply after)
    (hkept : WindowKept admitted tenant limit budget) (hstarted : budget.StartedBy now)
    (hlimit : cfg.maxDispatchPerWindow = some limit) (hwindow : cfg.windowSeconds = some windowSec)
    (hsec : windowSec.toNat * 1000 < 2 ^ 63) :
    WindowKept (if reply = .ok () then (tenant, after.windowStartMs) :: admitted else admitted)
      tenant limit after := by
  cases h with
  | inflightFull _ _ => exact hkept
  | noWindow hnone _ =>
      rw [hlimit, hwindow] at hnone
      exact hnone.elim nofun nofun
  | windowFull _ hwindow' _ =>
      obtain rfl := Option.some.inj (hwindow.symm.trans hwindow')
      exact hkept.roll hstarted hsec
  | inWindow hlimit' hwindow' hroom _ =>
      obtain rfl := Option.some.inj (hwindow.symm.trans hwindow')
      obtain rfl := Option.some.inj (hlimit.symm.trans hlimit')
      exact (hkept.roll hstarted hsec).count hroom rfl rfl

end Limits

end TenantBudget

/-! ## All calls -/

namespace GuardRun

section Runs

variable {cfg : BudgetConfig} {calls earlier : List BudgetCall} {call : BudgetCall}
variable {tenant : TenantId} {now : Int64} {max limit : UInt32} {windowSec : UInt64}

theorem budget_of_nil : (of cfg []).budget tenant = .new := by
  simp [of, budget, SimpleBudgetGuard.budget, SimpleBudgetGuard.new]

/-- A window has started by any time that no call is later than. -/
theorem startedBy_of (hcfg : Measurable cfg) (hclock : ClockAdvances calls)
    (hnow : ∀ call ∈ calls, ∀ time ∈ call.clock, time ≤ now) (tenant : TenantId) :
    ((of cfg calls).budget tenant).StartedBy now := by
  induction calls generalizing now with
  | nil =>
      rw [budget_of_nil]
      exact ⟨Int64.le_refl _, .inl rfl⟩
  | cons call earlier ih =>
      obtain ⟨hlatest, hearlier⟩ := List.pairwise_cons.mp hclock
      have hbefore := ih hearlier fun other hother => hnow other (List.mem_cons_of_mem _ hother)
      have happlied := applied_apply (of cfg earlier) call
      by_cases htenant : tenant = call.tenant
      case neg =>
        rw [of, happlied.budget_of_ne htenant]
        exact hbefore
      case pos =>
        subst htenant
        rcases happlied.budget_self with ⟨hresult, _⟩ | ⟨time, reply, htime, hattempted, _⟩
        · rw [of, hresult]
          exact hbefore.congr TenantBudget.windowStartMs_result
        · have hstarted := ih hearlier fun other hother before hbefore =>
            hlatest other hother time htime before hbefore
          rw [cfg_of] at hattempted
          exact (hattempted.startedBy hstarted hcfg).mono (hnow call List.mem_cons_self time htime)

/-- The same at the time of the next call. -/
theorem startedBy_of_cons (hcfg : Measurable cfg) (hclock : ClockAdvances (call :: earlier))
    (htime : call.clock = some now) (tenant : TenantId) :
    ((of cfg earlier).budget tenant).StartedBy now := by
  obtain ⟨hlatest, hearlier⟩ := List.pairwise_cons.mp hclock
  exact startedBy_of hcfg hearlier (fun other hother => hlatest other hother now htime) tenant

theorem inflight_of_le (hmax : cfg.maxInflight = some max) :
    ((of cfg calls).budget tenant).inflight ≤ max := by
  induction calls with
  | nil =>
      rw [budget_of_nil]
      exact UInt32.le_iff_toNat_le.mpr (Nat.zero_le _)
  | cons call earlier ih =>
      have happlied := applied_apply (of cfg earlier) call
      by_cases htenant : tenant = call.tenant
      case neg =>
        rw [of, happlied.budget_of_ne htenant]
        exact ih
      case pos =>
        subst htenant
        rcases happlied.budget_self with ⟨hresult, _⟩ | ⟨time, reply, _, hattempted, _⟩
        · rw [of, hresult]
          exact UInt32.le_trans TenantBudget.inflight_result_le ih
        · rw [cfg_of] at hattempted
          exact hattempted.inflight_le hmax ih

theorem windowKept_of (hcfg : Measurable cfg) (hclock : ClockAdvances calls)
    (hlimit : cfg.maxDispatchPerWindow = some limit)
    (hwindow : cfg.windowSeconds = some windowSec) (tenant : TenantId) :
    TenantBudget.WindowKept (of cfg calls).admitted tenant limit
      ((of cfg calls).budget tenant) := by
  induction calls with
  | nil =>
      rw [budget_of_nil]
      exact ⟨nofun, rfl, fun _ => Nat.zero_le _⟩
  | cons call earlier ih =>
      have hkept := ih (List.pairwise_cons.mp hclock).2
      have happlied := applied_apply (of cfg earlier) call
      by_cases htenant : tenant = call.tenant
      case neg =>
        rw [of, happlied.budget_of_ne htenant]
        rcases happlied.budget_self with ⟨_, hsame⟩ | ⟨_, _, _, _, hadmitted⟩
        · rw [hsame]
          exact hkept
        · rw [hadmitted]
          split
          · exact hkept.cons_of_ne htenant
          · exact hkept
      case pos =>
        subst htenant
        rcases happlied.budget_self with
          ⟨hresult, hsame⟩ | ⟨time, reply, htime, hattempted, hadmitted⟩
        · rw [of, hresult, hsame]
          exact hkept.congr TenantBudget.windowStartMs_result TenantBudget.windowCount_result
        · rw [cfg_of] at hattempted
          rw [of, hadmitted]
          exact hattempted.windowKept hkept (startedBy_of_cons hcfg hclock htime _) hlimit hwindow
            (hcfg windowSec hwindow)

theorem spaced_of (hcfg : Measurable cfg) (hclock : ClockAdvances (call :: earlier))
    (hwindow : cfg.windowSeconds = some windowSec) (tenant : TenantId) :
    ((of cfg (call :: earlier)).budget tenant).windowStartMs =
        ((of cfg earlier).budget tenant).windowStartMs ∨
      ((of cfg earlier).budget tenant).windowStartMs.toInt +
          TenantBudget.windowLength windowSec ≤
        ((of cfg (call :: earlier)).budget tenant).windowStartMs.toInt := by
  have happlied := applied_apply (of cfg earlier) call
  by_cases htenant : tenant = call.tenant
  case neg =>
    rw [of, happlied.budget_of_ne htenant]
    exact .inl rfl
  case pos =>
    subst htenant
    rcases happlied.budget_self with ⟨hresult, _⟩ | ⟨time, reply, htime, hattempted, _⟩
    · rw [of, hresult]
      exact .inl TenantBudget.windowStartMs_result
    · rw [cfg_of] at hattempted
      exact hattempted.spaced (startedBy_of_cons hcfg hclock htime _) hwindow
        (hcfg windowSec hwindow)

/-- A refused attempt of a run. -/
theorem refused_of (hcfg : Measurable cfg) (hclock : ClockAdvances (.attempt tenant now :: earlier))
    {error : TxError}
    (hrefused : ((of cfg earlier).guard.onDispatchAttempt tenant now).1 = .error error) :
    let before := (of cfg earlier).budget tenant
    let after := (of cfg (.attempt tenant now :: earlier)).budget tenant
    after.inflight = before.inflight ∧
      (after.windowStartMs = before.windowStartMs → after.windowCount = before.windowCount) ∧
        (after.windowStartMs ≠ before.windowStartMs → after.windowCount = 0) := by
  have hattempted :=
    TenantBudget.attempted_attempt ((of cfg earlier).budget tenant) cfg tenant now
  have hreply : (((of cfg earlier).budget tenant).attempt cfg tenant now).1 = .error error := by
    rw [← hrefused]
    change _ = (((of cfg earlier).budget tenant).attempt (of cfg earlier).guard.cfg tenant now).1
    rw [cfg_of]
  have hafter : (of cfg (.attempt tenant now :: earlier)).budget tenant =
      (((of cfg earlier).budget tenant).attempt cfg tenant now).2 := by
    have hbudget : ((of cfg earlier).guard.onDispatchAttempt tenant now).2.budget tenant =
        (((of cfg earlier).budget tenant).attempt (of cfg earlier).guard.cfg tenant now).2 :=
      (SimpleBudgetGuard.budget_withTenant _).trans (if_pos rfl)
    rw [cfg_of] at hbudget
    rw [← hbudget, of, apply]
    simp only [hrefused]
    rfl
  rw [hreply, ← hafter] at hattempted
  exact hattempted.refused (startedBy_of_cons hcfg hclock rfl tenant) hcfg

end Runs

/-- The guard keeps to the budgets over every sequence of calls with a clock that does not go
back. -/
theorem keepsBudgets (cfg : BudgetConfig) (hcfg : Measurable cfg) (calls : List BudgetCall)
    (hclock : ClockAdvances calls) : KeepsBudgets cfg calls where
  inflight _ _ := inflight_of_le
  admitted tenant _ _ window hlimit hwindow :=
    (windowKept_of hcfg hclock hlimit hwindow tenant).within window
  spaced _ _ tenant _ hsuffix hwindow :=
    spaced_of hcfg (hclock.sublist hsuffix.sublist) hwindow tenant
  refused _ _ _ _ hsuffix := refused_of hcfg (hclock.sublist hsuffix.sublist)
  others call earlier _ _ := (applied_apply (of cfg earlier) call).budget_of_ne

/-- Two tenants with two attempts a window of a second, one of them in flight at a time. -/
theorem keepsBudgets_twoTenants :
    let cfg : BudgetConfig := ⟨some 1, some 2, some 1⟩
    let calls : List BudgetCall := [.attempt ⟨"b"⟩ 5000, .attempt ⟨"a"⟩ 4200, .result ⟨"a"⟩,
      .attempt ⟨"a"⟩ 4000]
    Measurable cfg ∧ ClockAdvances calls ∧ KeepsBudgets cfg calls := by
  intro cfg calls
  have hcfg : Measurable cfg := by
    intro windowSec h
    obtain rfl := Option.some.inj h
    decide
  have hclock : ClockAdvances calls := by
    simp [ClockAdvances, calls, BudgetCall.clock]
  exact ⟨hcfg, hclock, keepsBudgets cfg hcfg calls hclock⟩

end GuardRun

end Soulbase.Tx
