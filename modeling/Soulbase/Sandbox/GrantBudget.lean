/-
# The budget of a grant

The budget goes into the limits of the profile, and so bounds what one request may use. The
meter that comes with the sandbox keeps no account, and nothing else remembers an earlier
request: with the same grant each of several requests may use the whole budget.
-/

import Mathlib.Algebra.Order.BigOperators.Group.List
import Mathlib.Algebra.Order.Ring.Nat
import Soulbase.Sandbox.Closing
import Soulbase.Sandbox.Defaults
import Soulbase.Sandbox.LeastPrivilege

namespace Soulbase.Sandbox

open Soulbase.Foundation

/-- The entries of a budget that a grant bounds. -/
inductive BudgetDimension
  | calls
  | bytesIn
  | bytesOut
  | fileCount
  deriving DecidableEq

/-- The entry of a budget. -/
def BudgetDimension.amount (budget : Budget) : BudgetDimension → UInt64
  | calls => budget.calls
  | bytesIn => budget.bytesIn
  | bytesOut => budget.bytesOut
  | fileCount => budget.fileCount

/-- The usage that a call commits. -/
def SandboxCall.committed? : SandboxCall → Option Budget
  | ⟨.commit used, _⟩ => some used
  | _ => none

/-- The usage that is committed in a dimension. -/
def spent (dimension : BudgetDimension) (calls : List SandboxCall) : ℕ :=
  ((calls.filterMap (·.committed?)).map fun used => (dimension.amount used).toNat).sum

section Spent

variable {calls : List SandboxCall} {dimension : BudgetDimension}

theorem spent_append (first second : List SandboxCall) :
    spent dimension (first ++ second) = spent dimension first + spent dimension second := by
  simp [spent]

/-- Where no usage is committed, none is counted. -/
theorem spent_eq_zero (h : ∀ call ∈ calls, call.committed? = none) :
    spent dimension calls = 0 := by
  have hnone : calls.filterMap (·.committed?) = [] := by
    rw [List.filterMap_eq_nil_iff]
    exact h
  rw [spent, hnone]
  rfl

theorem committed?_of_isCheck {call : SandboxCall} (h : call.1.isCheck = true) :
    call.committed? = none := by
  obtain ⟨op, answer⟩ := call
  cases op <;> first | rfl | cases h

variable {sandbox : Sandbox} {request : ExecuteRequest}

theorem Clearance.spent_calls (clearance : Clearance sandbox request) :
    spent dimension clearance.calls = 0 :=
  spent_eq_zero fun call hcall => committed?_of_isCheck (clearance.checks call hcall)

theorem Clearance.spent_opening (clearance : Clearance sandbox request) (startedAt : DateTime) :
    spent dimension (clearance.opening startedAt) = 0 := by
  rw [Clearance.opening, spent_append, clearance.spent_calls]
  rfl

/-- A request commits nothing, or the usage of the executor once. -/
theorem Course.spent {result : SandboxResult ExecutionOutcome}
    (h : Course sandbox request calls result) :
    (∀ dimension, spent dimension calls = 0) ∨
      ∃ (clearance : Clearance sandbox request) (execResult : ExecResult),
        ⟨.build request.grant request.manifest request.policy, .ok clearance.profile⟩ ∈ calls ∧
        clearance.executed (.ok execResult) ∈ calls ∧
        WithinLimits clearance.profile.limits execResult.usage ∧
        ∀ dimension, spent dimension calls =
          (dimension.amount execResult.usage.toBudget).toNat := by
  cases h with
  | refused hchecks =>
      exact .inl fun _ =>
        spent_eq_zero fun call hcall => committed?_of_isCheck (hchecks call hcall)
  | unreserved clearance error =>
      left
      intro dimension
      rw [spent_append, clearance.spent_calls]
      rfl
  | failed clearance startedAt finishedAt err =>
      left
      intro dimension
      rw [spent_append, clearance.spent_opening]
      rfl
  | overused clearance startedAt execResult error husage =>
      left
      intro dimension
      rw [spent_append, clearance.spent_opening]
      rfl
  | finished clearance startedAt finishedAt execResult husage =>
      right
      refine ⟨clearance, execResult, by simp [Clearance.opening, Clearance.calls], by simp,
        ensureUsageWithinLimits_eq_ok_iff.mp husage, ?_⟩
      intro dimension
      rw [spent_append, clearance.spent_opening]
      simp [Sandbox.spent, SandboxCall.committed?, Clearance.executed]

end Spent

section Request

variable {host : DefaultSandbox}

theorem some_mem_of_budgetBound {first second : Option UInt64} {amount : UInt64}
    (h : amount ≠ 0) : some amount ∈ [first, second, budgetBound amount] := by
  simp [budgetBound, h]

/-- What keeps to the limits of the profile keeps to the amounts of the budget. -/
theorem LeastLimits.amount_le {manifest policy : Option Limits} {budget : Budget}
    {limits : Limits} {usage : ExecUsage} (hlimits : LeastLimits manifest policy budget limits)
    (hwithin : WithinLimits limits usage) (hcalls : usage.calls = 1)
    {dimension : BudgetDimension} (hgiven : dimension.amount budget ≠ 0) :
    dimension.amount usage.toBudget ≤ dimension.amount budget := by
  cases dimension with
  | calls =>
      change usage.calls ≤ budget.calls
      have hpos : 0 < budget.calls := UInt64.pos_iff_ne_zero.mpr hgiven
      rw [hcalls, UInt64.le_iff_toNat_le]
      exact UInt64.lt_iff_toNat_lt.mp hpos
  | bytesIn => exact hlimits.maxBytesIn.le (some_mem_of_budgetBound hgiven) hwithin.bytesIn
  | bytesOut => exact hlimits.maxBytesOut.le (some_mem_of_budgetBound hgiven) hwithin.bytesOut
  | fileCount => exact hlimits.maxFiles.le (some_mem_of_budgetBound hgiven) hwithin.files

/-- A single request keeps to the budget of its grant. -/
theorem DefaultSandbox.Execution.spent_le (execution : host.Execution)
    {dimension : BudgetDimension} (hgiven : dimension.amount execution.request.grant.budget ≠ 0) :
    spent dimension execution.calls ≤
      (dimension.amount execution.request.grant.budget).toNat := by
  rcases (course_of_runs execution.runs).spent with
    hnone | ⟨clearance, execResult, hbuild, hexecuted, hwithin, hspent⟩
  · rw [hnone dimension]
    exact Nat.zero_le _
  · have hbuilt := execution.answered _ hbuild
    have hlimits := (leastPrivileged_of_build hbuilt.symm).limits
    obtain ⟨executor, hexecutor⟩ := Option.isSome_iff_exists.mp clearance.registered
    have hreturned := execution.answered _ hexecuted executor hexecutor
    have hcalls := (BuiltinExecutor.reports hreturned).oneCall
    rw [hspent dimension]
    exact UInt64.le_iff_toNat_le.mp (hlimits.amount_le hwithin hcalls hgiven)

end Request

/-- The usage of several requests with one grant keeps to its budget. -/
def GrantBounded {host : DefaultSandbox} (grant : Grant) (executions : List host.Execution) :
    Prop :=
  ∀ dimension : BudgetDimension, dimension.amount grant.budget ≠ 0 →
    (executions.map (spent dimension ·.calls)).sum ≤ (dimension.amount grant.budget).toNat

/-- Each of several requests with one grant keeps to its budget, and so all of them keep to
as many budgets as there are requests. -/
theorem spent_le_of_grant (host : DefaultSandbox) (grant : Grant)
    (executions : List host.Execution)
    (hgrant : ∀ execution ∈ executions, execution.request.grant = grant)
    (dimension : BudgetDimension) (hgiven : dimension.amount grant.budget ≠ 0) :
    (∀ execution ∈ executions,
        spent dimension execution.calls ≤ (dimension.amount grant.budget).toNat) ∧
      (executions.map (spent dimension ·.calls)).sum ≤
        executions.length * (dimension.amount grant.budget).toNat := by
  have heach : ∀ execution ∈ executions,
      spent dimension execution.calls ≤ (dimension.amount grant.budget).toNat := by
    intro execution hmem
    have hsame := hgrant execution hmem
    have hlimited : dimension.amount execution.request.grant.budget ≠ 0 := by rwa [hsame]
    have hle := execution.spent_le hlimited
    rwa [hsame] at hle
  refine ⟨heach, ?_⟩
  have hsum := List.sum_le_card_nsmul (executions.map (spent dimension ·.calls))
    (dimension.amount grant.budget).toNat
  rw [List.length_map, Nat.nsmul_eq_mul] at hsum
  apply hsum
  intro amount hamount
  obtain ⟨execution, hmem, rfl⟩ := List.mem_map.mp hamount
  exact heach execution hmem

namespace TwoAllocations

/-- Ten bytes are granted. -/
def grant : Grant := { Grant.forCall "scratch" [.tmpUse] with budget := { bytesOut := 10 } }

/-- Eight bytes are asked for. -/
def request : ExecuteRequest := grant.request (.tmpAlloc 8)

/-- The executor of temporary space is registered. -/
def host : DefaultSandbox := .withExecutor .tmpUse .tmp

/-- No call of the file system fails. -/
def fsReply : (fsCall : FsCall) → fsCall.Answer
  | .openFile _ | .seek _ | .pathExists _ | .createDirAll _ | .createFile _ | .writeAll _ => true
  | .readToEnd _ => some []
  | .readDir _ => some []

/-- No call of the sandbox fails. -/
def reply : (op : SandboxOp) → op.Answer
  | .now => ⟨0⟩
  | .isRevoked _ => .ok false
  | .build grant manifest policy =>
      DefaultProfileBuilder.build host.hashing grant manifest policy
  | .validate profile capability => DefaultPolicyGuard.validate profile capability
  | .reserve request => NoopBudgetMeter.reserve request
  | .commit _ => ()
  | .rollback _ => ()
  | .emit _ => ()
  | .execute _ profile op => ((TmpExecutor.execute profile false op).run.answered fsReply).2

theorem answers_reply (op : SandboxOp) : host.Answers ⟨op, reply op⟩ := by
  cases op with
  | execute kind profile op =>
      intro executor hexecutor
      obtain ⟨_, htmp⟩ := Option.ite_none_right_eq_some.mp hexecutor
      cases htmp
      exact ⟨_, runs_answered fsReply (TmpExecutor.execute profile false op).run⟩
  | build _ _ _ | validate _ _ | reserve _ => rfl
  | now | isRevoked _ | commit _ | rollback _ | emit _ => trivial

/-- The request, where nothing fails. -/
def execution : host.Execution where
  request := request
  calls := ((host.sandbox.execute request).run.answered reply).1
  result := ((host.sandbox.execute request).run.answered reply).2
  runs := runs_answered reply _
  answered := by
    intro call hcall
    have hanswer := answer_of_mem_answered call hcall
    rw [show call = ⟨call.1, reply call.1⟩ from Sigma.ext rfl (heq_of_eq hanswer)]
    exact answers_reply call.1

theorem spent_execution : spent .bytesOut execution.calls = 8 := by decide

end TwoAllocations

/-- Two requests, each for eight of ten bytes. -/
theorem spent_le_of_grant_twoAllocations :
    (∀ execution ∈ [TwoAllocations.execution, TwoAllocations.execution],
        spent .bytesOut execution.calls ≤ 10) ∧
      ([TwoAllocations.execution, TwoAllocations.execution].map
        (spent .bytesOut ·.calls)).sum ≤ 2 * 10 :=
  spent_le_of_grant TwoAllocations.host TwoAllocations.grant
    [TwoAllocations.execution, TwoAllocations.execution] (by simp [TwoAllocations.execution,
      TwoAllocations.request]) .bytesOut (by decide)

/-- They use sixteen bytes: the budget of a grant does not bound a sequence of requests. -/
theorem not_grantBounded_twoAllocations :
    ¬∀ (host : DefaultSandbox) (grant : Grant) (executions : List host.Execution),
      (∀ execution ∈ executions, execution.request.grant = grant) →
        GrantBounded grant executions := by
  intro h
  have hbounded := h TwoAllocations.host TwoAllocations.grant
    [TwoAllocations.execution, TwoAllocations.execution]
    (by simp [TwoAllocations.execution, TwoAllocations.request]) .bytesOut (by decide)
  simp [TwoAllocations.spent_execution, BudgetDimension.amount, TwoAllocations.grant] at hbounded

end Soulbase.Sandbox
