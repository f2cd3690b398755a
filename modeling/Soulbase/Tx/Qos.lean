/-
# The budget guard

`SimpleBudgetGuard` counts for each tenant the attempts in flight and those of the running
window. `attempt_cases` and `result_cases` say what a hook makes of the budget of its
tenant; the budgets of other tenants are left alone.
-/

import Soulbase.Foundation.FiniteMap
import Soulbase.Tx.Errors
import Soulbase.Types

namespace Soulbase.Tx

open Soulbase.Foundation

/-- `BudgetConfig`. -/
structure BudgetConfig where
  maxInflight : Option UInt32
  maxDispatchPerWindow : Option UInt32
  windowSeconds : Option UInt64

/-- `TenantBudget`. -/
structure TenantBudget where
  inflight : UInt32
  windowStartMs : Int64
  windowCount : UInt32

/-- The error of an attempt beyond `max_inflight`. -/
def inflightExceeded (tenant : TenantId) (max : UInt32) : TxError :=
  .budgetExhausted ("tenant " ++ tenant.asStr ++ " exceeds max inflight " ++ toString max)

/-- The error of an attempt beyond the limit of the window. -/
def windowExceeded (tenant : TenantId) (limit : UInt32) (windowSec : UInt64) : TxError :=
  .budgetExhausted ("tenant " ++ tenant.asStr ++ " exceeds dispatch limit " ++ toString limit ++
    "/" ++ toString windowSec ++ "s")

/-- The two errors are told apart by their texts. -/
theorem inflightExceeded_ne_windowExceeded (tenant : TenantId) (max limit : UInt32)
    (windowSec : UInt64) : inflightExceeded tenant max ≠ windowExceeded tenant limit windowSec := by
  intro h
  simp only [inflightExceeded, windowExceeded, TxError.budgetExhausted, TxError.build,
    TxError.mk.injEq, Errors.ErrorObj.mk.injEq, Option.some.injEq, true_and, String.append_assoc,
    String.append_right_inj] at h
  have hchars := congrArg String.toList h
  simp at hchars

namespace TenantBudget

/-- The budget that a tenant begins with. -/
def new : TenantBudget where
  inflight := 0
  windowStartMs := 0
  windowCount := 0

/-- The length of a window. -/
def windowMs (windowSec : UInt64) : Int64 := max windowSec.toInt64 1 * 1000

/-- A window that has run out starts anew. -/
def rollWindow (budget : TenantBudget) (windowSec : UInt64) (now : Int64) : TenantBudget :=
  if now - budget.windowStartMs ≥ windowMs windowSec then
    { budget with
      windowStartMs := now
      windowCount := 0 }
  else budget

/-- The part of `on_dispatch_attempt` that comes after `max_inflight`. -/
def attemptInWindow (budget : TenantBudget) (cfg : BudgetConfig) (tenant : TenantId)
    (now : Int64) : TxResult Unit × TenantBudget :=
  match cfg.maxDispatchPerWindow, cfg.windowSeconds with
  | some limit, some windowSec =>
      let budget := budget.rollWindow windowSec now
      if budget.windowCount ≥ limit then (.error (windowExceeded tenant limit windowSec), budget)
      else
        (.ok (), { budget with
          windowCount := budget.windowCount + 1
          inflight := budget.inflight + 1 })
  | _, _ => (.ok (), { budget with inflight := budget.inflight + 1 })

/-- What `on_dispatch_attempt` does to the budget of the tenant. -/
def attempt (budget : TenantBudget) (cfg : BudgetConfig) (tenant : TenantId) (now : Int64) :
    TxResult Unit × TenantBudget :=
  match cfg.maxInflight with
  | some max =>
      if budget.inflight ≥ max then (.error (inflightExceeded tenant max), budget)
      else budget.attemptInWindow cfg tenant now
  | none => budget.attemptInWindow cfg tenant now

/-- What `on_dispatch_result` does to the budget of the tenant. -/
def result (budget : TenantBudget) : TenantBudget :=
  if budget.inflight > 0 then { budget with inflight := budget.inflight - 1 } else budget

variable (budget : TenantBudget) (cfg : BudgetConfig) (tenant : TenantId) (now : Int64)

theorem inflight_rollWindow (windowSec : UInt64) :
    (budget.rollWindow windowSec now).inflight = budget.inflight := by
  unfold rollWindow
  split <;> rfl

/-- Past `max_inflight`, an attempt is refused because of its window, or counted. -/
theorem attemptInWindow_cases :
    (∃ limit windowSec after, after.inflight = budget.inflight ∧
      budget.attemptInWindow cfg tenant now =
        (.error (windowExceeded tenant limit windowSec), after)) ∨
      ∃ after, after.inflight = budget.inflight + 1 ∧
        budget.attemptInWindow cfg tenant now = (.ok (), after) := by
  unfold attemptInWindow
  split
  case h_1 limit windowSec _ _ =>
    have hroll := budget.inflight_rollWindow now windowSec
    by_cases hfull : (budget.rollWindow windowSec now).windowCount ≥ limit
    · exact .inl ⟨limit, windowSec, _, hroll, if_pos hfull⟩
    · exact .inr ⟨_, congrArg (· + 1) hroll, if_neg hfull⟩
  case h_2 => exact .inr ⟨_, rfl, rfl⟩

variable {budget}

/-- Where nothing is in flight, an attempt is refused for `max_inflight` only if that
is zero. -/
theorem attempt_cases_of_idle (hidle : budget.inflight = 0) :
    (cfg.maxInflight = some 0 ∧
      budget.attempt cfg tenant now = (.error (inflightExceeded tenant 0), budget)) ∨
    cfg.maxInflight ≠ some 0 ∧
      ((∃ limit windowSec after, after.inflight = 0 ∧ budget.attempt cfg tenant now =
        (.error (windowExceeded tenant limit windowSec), after)) ∨
      ∃ after, after.inflight = 1 ∧ budget.attempt cfg tenant now = (.ok (), after)) := by
  have hwindow := budget.attemptInWindow_cases cfg tenant now
  rw [hidle, UInt32.zero_add] at hwindow
  unfold attempt
  cases hmax : cfg.maxInflight with
  | none => exact .inr ⟨Option.some_ne_none _ ∘ Eq.symm, hwindow⟩
  | some max =>
      by_cases hzero : max = 0
      · subst hzero
        exact .inl ⟨rfl, if_pos (hidle ▸ UInt32.le_refl _)⟩
      · have hroom : ¬budget.inflight ≥ max := by
          rw [hidle, ge_iff_le, UInt32.le_zero_iff]
          exact hzero
        exact .inr ⟨fun h => hzero (Option.some.inj h), by simpa only [if_neg hroom] using hwindow⟩

/-- One attempt in flight is taken off. -/
theorem inflight_result_of_one (hone : budget.inflight = 1) : budget.result.inflight = 0 := by
  unfold result
  rw [if_pos (by rw [hone]; decide), hone]
  rfl

end TenantBudget

/-- `SimpleBudgetGuard`. -/
structure SimpleBudgetGuard where
  cfg : BudgetConfig
  state : HashMap String TenantBudget

namespace SimpleBudgetGuard

/-- `SimpleBudgetGuard::new`. -/
def new (cfg : BudgetConfig) : SimpleBudgetGuard where
  cfg := cfg
  state := ∅

/-- The budget of a tenant, which is a new one at first. -/
def budget (guard : SimpleBudgetGuard) (tenant : TenantId) : TenantBudget :=
  (guard.state.get tenant.asStr).getD .new

/-- `SimpleBudgetGuard::with_tenant`. -/
def withTenant {α : Type} (guard : SimpleBudgetGuard) (tenant : TenantId)
    (f : TenantBudget → α × TenantBudget) : α × SimpleBudgetGuard :=
  let changed := f (guard.budget tenant)
  (changed.1, { guard with state := guard.state.put tenant.asStr changed.2 })

/-- `SimpleBudgetGuard::on_dispatch_attempt`, with its reading of the clock. -/
def onDispatchAttempt (guard : SimpleBudgetGuard) (tenant : TenantId) (now : Int64) :
    TxResult Unit × SimpleBudgetGuard :=
  guard.withTenant tenant fun budget => budget.attempt guard.cfg tenant now

/-- `SimpleBudgetGuard::on_dispatch_result`. -/
def onDispatchResult (guard : SimpleBudgetGuard) (tenant : TenantId) :
    TxResult Unit × SimpleBudgetGuard :=
  guard.withTenant tenant fun budget => (.ok (), budget.result)

/-- The attempts of a tenant that are in flight. -/
def inflight (guard : SimpleBudgetGuard) (tenant : TenantId) : UInt32 :=
  (guard.budget tenant).inflight

@[simp]
theorem inflight_new (cfg : BudgetConfig) (tenant : TenantId) : (new cfg).inflight tenant = 0 := by
  simp [inflight, budget, new, TenantBudget.new]

variable {guard : SimpleBudgetGuard} {tenant other : TenantId}

/-- The budget of a tenant after a change of some budget. -/
theorem budget_withTenant {α : Type} (f : TenantBudget → α × TenantBudget) :
    (guard.withTenant tenant f).2.budget other =
      if other = tenant then (f (guard.budget tenant)).2 else guard.budget other := by
  simp only [withTenant, budget, HashMap.get_put, TenantId.ext_iff]
  split <;> rfl

/-- Hooks of a tenant leave the others alone. -/
theorem inflight_withTenant_of_ne {α : Type} (f : TenantBudget → α × TenantBudget)
    (hne : other ≠ tenant) :
    (guard.withTenant tenant f).2.inflight other = guard.inflight other := by
  rw [inflight, budget_withTenant, if_neg hne, inflight]

theorem inflight_withTenant_self {α : Type} (f : TenantBudget → α × TenantBudget) :
    (guard.withTenant tenant f).2.inflight tenant = (f (guard.budget tenant)).2.inflight := by
  rw [inflight, budget_withTenant, if_pos rfl]

/-- All that an attempt does where the tenant has nothing in flight. -/
theorem onDispatchAttempt_of_idle (hidle : guard.inflight tenant = 0) {now : Int64}
    {reply : TxResult Unit} {after : SimpleBudgetGuard}
    (h : guard.onDispatchAttempt tenant now = (reply, after)) :
    after.cfg = guard.cfg ∧
      (∀ other, other ≠ tenant → after.inflight other = guard.inflight other) ∧
      ((guard.cfg.maxInflight = some 0 ∧ reply = .error (inflightExceeded tenant 0) ∧
          after.inflight tenant = 0) ∨
        guard.cfg.maxInflight ≠ some 0 ∧
          ((∃ limit windowSec, reply = .error (windowExceeded tenant limit windowSec) ∧
              after.inflight tenant = 0) ∨
            reply = .ok () ∧ after.inflight tenant = 1)) := by
  have hself : (guard.onDispatchAttempt tenant now).2.inflight tenant =
      ((guard.budget tenant).attempt guard.cfg tenant now).2.inflight :=
    inflight_withTenant_self _
  have hothers : ∀ other, other ≠ tenant →
      (guard.onDispatchAttempt tenant now).2.inflight other = guard.inflight other :=
    fun other hne => inflight_withTenant_of_ne _ hne
  have hreply : (guard.onDispatchAttempt tenant now).1 =
      ((guard.budget tenant).attempt guard.cfg tenant now).1 := rfl
  have hcfg : (guard.onDispatchAttempt tenant now).2.cfg = guard.cfg := rfl
  rw [h] at hself hothers hreply hcfg
  refine ⟨hcfg, hothers, ?_⟩
  rcases TenantBudget.attempt_cases_of_idle guard.cfg tenant now hidle with
    ⟨hzero, hattempt⟩ | ⟨hmax, ⟨limit, windowSec, budget, hbudget, hattempt⟩ |
      ⟨budget, hbudget, hattempt⟩⟩
  · rw [hattempt] at hself hreply
    exact .inl ⟨hzero, hreply, hself.trans hidle⟩
  · rw [hattempt] at hself hreply
    exact .inr ⟨hmax, .inl ⟨limit, windowSec, hreply, hself.trans hbudget⟩⟩
  · rw [hattempt] at hself hreply
    exact .inr ⟨hmax, .inr ⟨hreply, hself.trans hbudget⟩⟩

/-- A result takes the one attempt of the tenant off. -/
theorem inflight_onDispatchResult (hone : guard.inflight tenant = 1) (other : TenantId) :
    (guard.onDispatchResult tenant).2.inflight other =
      if other = tenant then 0 else guard.inflight other := by
  unfold onDispatchResult
  split
  case isTrue hsame =>
    rw [hsame, inflight_withTenant_self]
    exact TenantBudget.inflight_result_of_one hone
  case isFalse hne => rw [inflight_withTenant_of_ne _ hne]

end SimpleBudgetGuard

end Soulbase.Tx
