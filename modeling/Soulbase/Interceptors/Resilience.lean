/-
# Retries of the handler

`execute_with_resilience` calls the handler until an attempt succeeds, exceeds the timeout or
fails with an error that is not transient, or no retry is left. It counts the attempts in a
machine word, which is increased before the call. `executeLoop` is the loop as it stands, for as
many turns as it is given; `executeLoop_eq` says that `executeWithResilience`, which counts the
retries that are left, is the same. `retries_exact` says how many calls there are.
-/

import Soulbase.Interceptors.Service

namespace Soulbase.Interceptors

open Soulbase.Foundation Soulbase.Errors

/-- The loop of `execute_with_resilience`, from the attempts that were made. There is no result
where more turns are taken than it is given. -/
def ResiliencePolicy.executeLoop (policy : ResiliencePolicy) (req : ProtoRequest) :
    ℕ → UInt64 → InterceptContext → ChainProgram (Option (Returned Json.Value))
  | 0, _, _ => return none
  | turns + 1, attempt, cx => do
      let attempt := attempt + 1
      match ← policy.attempt cx req with
      | (none, cx) => return some (.error timeoutError, cx)
      | (some (.ok body), cx) => return some (.ok body, cx)
      | (some (.error error), cx) =>
          if error.inner.retryable = .transient ∧ attempt.toNat ≤ policy.maxRetries then do
            policy.backOff
            policy.executeLoop req turns attempt cx
          else return some (.error error, cx)

section Counting

variable {policy : ResiliencePolicy} {req : ProtoRequest}

/-- An attempt that fits in a machine word counts as one more. -/
theorem toNat_attempt {attempt : UInt64} (hle : attempt.toNat ≤ policy.maxRetries)
    (hmax : policy.maxRetries < 2 ^ 64 - 1) : (attempt + 1).toNat = attempt.toNat + 1 := by
  rw [UInt64.toNat_add, UInt64.toNat_one, Nat.mod_eq_of_lt (by omega)]

/-- Counting the attempts is counting the retries that are left. -/
theorem executeLoop_eq (hmax : policy.maxRetries < 2 ^ 64 - 1) {left turns : ℕ}
    {attempt : UInt64} (hleft : attempt.toNat + left = policy.maxRetries) (hturns : left < turns)
    (cx : InterceptContext) :
    policy.executeLoop req turns attempt cx = some <$> policy.executeFrom req left cx := by
  induction left generalizing turns attempt cx with
  | zero =>
      obtain ⟨turns, rfl⟩ := Nat.exists_eq_succ_of_ne_zero (Nat.ne_zero_of_lt hturns)
      have hcount := toNat_attempt (by omega : attempt.toNat ≤ policy.maxRetries) hmax
      have hlast : ¬(attempt + 1).toNat ≤ policy.maxRetries := by omega
      rw [ResiliencePolicy.executeLoop, ResiliencePolicy.executeFrom, map_bind]
      congr 1
      funext ended
      obtain ⟨ended, cx'⟩ := ended
      cases ended with
      | none => rfl
      | some result =>
          cases result with
          | ok body => rfl
          | error error =>
              simp only [hlast, and_false, if_false, ResiliencePolicy.conclude]
              cases error.inner.retryable <;> rfl
  | succ left ih =>
      obtain ⟨turns, rfl⟩ := Nat.exists_eq_succ_of_ne_zero (Nat.ne_zero_of_lt hturns)
      have hcount := toNat_attempt (by omega : attempt.toNat ≤ policy.maxRetries) hmax
      have hmore : (attempt + 1).toNat ≤ policy.maxRetries := by omega
      have hagain := fun cx => @ih turns (attempt + 1) (by omega) (by omega) cx
      rw [ResiliencePolicy.executeLoop, ResiliencePolicy.executeFrom, map_bind]
      congr 1
      funext ended
      obtain ⟨ended, cx'⟩ := ended
      cases ended with
      | none => rfl
      | some result =>
          cases result with
          | ok body => rfl
          | error error =>
              simp only [hmore, and_true, hagain, ResiliencePolicy.conclude]
              cases error.inner.retryable with
              | none => rfl
              | permanent => rfl
              | transient =>
                  rw [if_pos rfl, map_bind]

/-- So the loop ends, as `execute_with_resilience`. -/
theorem executeLoop_eq_executeWithResilience (hmax : policy.maxRetries < 2 ^ 64 - 1) {turns : ℕ}
    (hturns : policy.maxRetries < turns) (cx : InterceptContext) :
    policy.executeLoop req turns 0 cx = some <$> executeWithResilience policy cx req :=
  executeLoop_eq hmax (Nat.zero_add _) hturns cx

end Counting

/-- How the calls of the handler end, one after the other, with the context that each leaves.
One that exceeds the timeout, if there is one, is `none`. -/
structure HandlerOutcomes (policy : ResiliencePolicy) where
  ended : ℕ → Option (Except InterceptError Json.Value) × InterceptContext
  timed : policy.timeout = none → ∀ n, (ended n).1 ≠ none

namespace HandlerOutcomes

variable {policy : ResiliencePolicy} (outcomes : HandlerOutcomes policy)

/-- What a call comes to. -/
def returned (n : ℕ) : Returned Json.Value :=
  match outcomes.ended n with
  | (none, cx) => (.error timeoutError, cx)
  | (some result, cx) => (result, cx)

/-- A call fails with an error that may be gone the next time. -/
def IsTransient (n : ℕ) : Prop :=
  ∃ error, (outcomes.ended n).1 = some (.error error) ∧ error.inner.retryable = .transient

/-- The handler answers with its outcomes, of which the number is counted. Nothing else is
known of the other calls. -/
def respond (aside : (op : ChainOp) → op.Answer) (op : ChainOp) (calls : ℕ) :
    op.Answer × ℕ :=
  match op with
  | .callHandler .. => (outcomes.returned calls, calls + 1)
  | .callHandlerWithin .. => (outcomes.ended calls, calls + 1)
  | op => (aside op, calls)

section Run

variable {outcomes} {aside : (op : ChainOp) → op.Answer} {req : ProtoRequest}
variable {cx : InterceptContext} {attempt : UInt64} {turns n : ℕ}

/-- An attempt is the next call of the handler. -/
theorem runIn_attempt :
    (policy.attempt cx req).runIn (outcomes.respond aside) n = (outcomes.ended n, n + 1) := by
  unfold ResiliencePolicy.attempt
  split
  case h_1 duration => rfl
  case h_2 hnone =>
    have htimed := outcomes.timed hnone n
    change ((some (outcomes.returned n).1, (outcomes.returned n).2), n + 1) = _
    unfold returned
    generalize outcomes.ended n = ended at htimed ⊢
    obtain ⟨ended, cx'⟩ := ended
    cases ended with
    | none => exact absurd rfl htimed
    | some result => rfl

theorem runIn_backOff : policy.backOff.runIn (outcomes.respond aside) n = ((), n) := by
  unfold ResiliencePolicy.backOff
  split <;> rfl

/-- A turn that is followed by another. -/
theorem runIn_executeLoop_again (htransient : outcomes.IsTransient n)
    (hmore : (attempt + 1).toNat ≤ policy.maxRetries) :
    (policy.executeLoop req (turns + 1) attempt cx).runIn (outcomes.respond aside) n =
      (policy.executeLoop req turns (attempt + 1) (outcomes.ended n).2).runIn
        (outcomes.respond aside) (n + 1) := by
  obtain ⟨error, hended, hclass⟩ := htransient
  rw [ResiliencePolicy.executeLoop, Program.runIn_bind, runIn_attempt]
  generalize outcomes.ended n = ended at hended ⊢
  obtain ⟨ended, cx'⟩ := ended
  obtain rfl : ended = some (.error error) := hended
  simp only [hclass, hmore, and_self, if_true, Program.runIn_bind, runIn_backOff]

/-- A turn that is the last. -/
theorem runIn_executeLoop_last
    (h : ¬outcomes.IsTransient n ∨ ¬(attempt + 1).toNat ≤ policy.maxRetries) :
    (policy.executeLoop req (turns + 1) attempt cx).runIn (outcomes.respond aside) n =
      (some (outcomes.returned n), n + 1) := by
  rw [ResiliencePolicy.executeLoop, Program.runIn_bind, runIn_attempt]
  unfold IsTransient at h
  unfold returned
  generalize outcomes.ended n = ended at h ⊢
  obtain ⟨ended, cx'⟩ := ended
  cases ended with
  | none => rfl
  | some result =>
      cases result with
      | ok body => rfl
      | error error =>
          have hstop : ¬(error.inner.retryable = .transient ∧
              (attempt + 1).toNat ≤ policy.maxRetries) := by
            rintro ⟨hclass, hmore⟩
            exact h.elim (fun hnot => hnot ⟨error, rfl, hclass⟩) (fun hnot => hnot hmore)
          simp only [hstop, if_false]
          rfl

/-- The loop goes on over transient errors, and ends with the first call that has another
outcome or is the last retry. -/
theorem runIn_executeLoop (hmax : policy.maxRetries < 2 ^ 64 - 1) {left : ℕ}
    (hleft : attempt.toNat + left = policy.maxRetries) :
    ∃ last ≤ left,
      (∀ turns, last < turns →
        (policy.executeLoop req turns attempt cx).runIn (outcomes.respond aside) n =
          (some (outcomes.returned (n + last)), n + last + 1)) ∧
      (∀ k < last, outcomes.IsTransient (n + k)) ∧
      (last < left → ¬outcomes.IsTransient (n + last)) := by
  -- The induction is on the retries that are left.
  induction left generalizing attempt cx n with
  | zero =>
      have hcount := toNat_attempt (by omega : attempt.toNat ≤ policy.maxRetries) hmax
      have hlast : ¬(attempt + 1).toNat ≤ policy.maxRetries := by omega
      refine ⟨0, Nat.le_refl 0, fun turns hturns => ?_, nofun, nofun⟩
      obtain ⟨turns, rfl⟩ := Nat.exists_eq_succ_of_ne_zero (Nat.ne_zero_of_lt hturns)
      exact runIn_executeLoop_last (.inr hlast)
  | succ left ih =>
      have hcount := toNat_attempt (by omega : attempt.toNat ≤ policy.maxRetries) hmax
      have hmore : (attempt + 1).toNat ≤ policy.maxRetries := by omega
      by_cases htransient : outcomes.IsTransient n
      case neg =>
        refine ⟨0, Nat.zero_le _, fun turns hturns => ?_, nofun, fun _ => htransient⟩
        obtain ⟨turns, rfl⟩ := Nat.exists_eq_succ_of_ne_zero (Nat.ne_zero_of_lt hturns)
        exact runIn_executeLoop_last (.inl htransient)
      case pos =>
        have hleft' : (attempt + 1).toNat + left = policy.maxRetries := by omega
        obtain ⟨last, hle, hrun, hbefore, hend⟩ :=
          @ih (outcomes.ended n).2 (attempt + 1) (n + 1) hleft'
        have hnext : ∀ k, n + 1 + k = n + (k + 1) := by omega
        refine ⟨last + 1, Nat.succ_le_succ hle, fun turns hturns => ?_, fun k hk => ?_,
          fun hlt => ?_⟩
        · obtain ⟨turns, rfl⟩ := Nat.exists_eq_succ_of_ne_zero (Nat.ne_zero_of_lt hturns)
          rw [runIn_executeLoop_again htransient hmore, hrun turns (Nat.lt_of_succ_lt_succ hturns),
            hnext]
        · cases k with
          | zero => exact htransient
          | succ k =>
              rw [← hnext]
              exact hbefore k (Nat.lt_of_succ_lt_succ hk)
        · rw [← hnext]
          exact hend (Nat.lt_of_succ_lt_succ hlt)

end Run

end HandlerOutcomes

/-- The loop ends after a number of calls with what the last of them came to. Each call before
it has failed with a transient error, and it has not, unless it was the last retry. -/
theorem retries_exact (policy : ResiliencePolicy) (hmax : policy.maxRetries < 2 ^ 64 - 1)
    (outcomes : HandlerOutcomes policy) (aside : (op : ChainOp) → op.Answer)
    (cx : InterceptContext) (req : ProtoRequest) :
    ∃ n, 1 ≤ n ∧ n ≤ policy.maxRetries + 1 ∧
      (∀ turns ≥ n, (policy.executeLoop req turns 0 cx).runIn (outcomes.respond aside) 0 =
        (some (outcomes.returned (n - 1)), n)) ∧
      (∀ k < n - 1, outcomes.IsTransient k) ∧
      (n ≤ policy.maxRetries → ¬outcomes.IsTransient (n - 1)) := by
  obtain ⟨last, hle, hrun, hbefore, hend⟩ :=
    @HandlerOutcomes.runIn_executeLoop policy outcomes aside req cx 0 0 hmax policy.maxRetries
      (Nat.zero_add _)
  refine ⟨last + 1, Nat.succ_le_succ (Nat.zero_le _), Nat.succ_le_succ hle, ?_, ?_, ?_⟩
  · intro turns hturns
    rw [hrun turns hturns, Nat.zero_add, Nat.add_sub_cancel]
  · intro k hk
    rw [← Nat.zero_add k]
    exact hbefore k hk
  · intro hlt
    rw [Nat.add_sub_cancel, ← Nat.zero_add last]
    exact hend hlt

/-- One retry, and a handler that fails once. -/
def failingOnce : HandlerOutcomes { ResiliencePolicy.default with maxRetries := 1 } where
  ended n := (some (if n = 0 then .error timeoutError else .ok .null), .new)
  timed := nofun

theorem retries_exact_failingOnce :
    ∃ n, 1 ≤ n ∧ n ≤ 2 ∧
      (∀ turns ≥ n,
        (ResiliencePolicy.executeLoop { ResiliencePolicy.default with maxRetries := 1 }
          (taskRequest none) turns 0 .new).runIn (failingOnce.respond taskReply) 0 =
            (some (failingOnce.returned (n - 1)), n)) ∧
      (∀ k < n - 1, failingOnce.IsTransient k) ∧
      (n ≤ 1 → ¬failingOnce.IsTransient (n - 1)) :=
  retries_exact _ (by decide) failingOnce taskReply .new (taskRequest none)

end Soulbase.Interceptors
