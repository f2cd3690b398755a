/-
# Backing off

`RetryPolicy::next_after` computes the time of the next attempt from a configuration that nothing
checks. The floating-point arithmetic is read as the exact arithmetic of an ordered field with a
floor, such as the reals; at the rationals the definitions compute. `none` is a panic.

Factor, jitter, attempts and sample decide where between its two bounds the delay lies, and no
more: the last step clamps it. That step asserts that the bounds are in order, which a base above
the cap is not, and the cast after it saturates. `nextAfter_bounded_iff` says when the time is
the one that is meant.
-/

import Mathlib.Algebra.Order.Archimedean.Real.Basic
import Mathlib.Algebra.Order.GroupWithZero.Basic
import Mathlib.Algebra.Order.Field.Basic
import Mathlib.Data.Rat.Floor
import Mathlib.Tactic.NormNum
import Soulbase.Foundation.RealArithmetic

namespace Soulbase.Tx

open Soulbase.Foundation

/-- `BackoffConfig`. -/
structure BackoffConfig (K : Type) where
  baseMs : UInt64
  factor : K
  jitter : K
  capMs : UInt64

/-- `RetryPolicy`. -/
structure RetryPolicy (K : Type) where
  maxAttempts : UInt32
  baseMs : UInt64
  factor : K
  jitter : K
  capMs : UInt64

/-- A sample that the generator draws: a number from zero up to, but not including, one. -/
structure Sample (K : Type) [Field K] [LinearOrder K] where
  value : K
  nonneg : 0 ≤ value
  lt_one : value < 1

section Policy

variable {K : Type}

/-- `From<BackoffConfig> for RetryPolicy`. -/
def BackoffConfig.intoRetryPolicy (config : BackoffConfig K) : RetryPolicy K where
  maxAttempts := .ofNat (2 ^ 32 - 1)
  baseMs := config.baseMs
  factor := config.factor
  jitter := config.jitter
  capMs := config.capMs

/-- `BackoffConfig::into_retry_policy_with_attempts`, which is also what
`OutboxConfig::retry_policy` does with its own limit. -/
def BackoffConfig.intoRetryPolicyWithAttempts (config : BackoffConfig K) (maxAttempts : UInt32) :
    RetryPolicy K :=
  { config.intoRetryPolicy with maxAttempts }

/-- `RetryPolicy::allowed`. -/
def RetryPolicy.allowed (policy : RetryPolicy K) (attempts : UInt32) : Bool :=
  attempts < policy.maxAttempts

/-- A policy that is built from a configuration. -/
inductive RetryPolicy.BuiltFrom (config : BackoffConfig K) : RetryPolicy K → Prop
  | into : BuiltFrom config config.intoRetryPolicy
  | withAttempts (maxAttempts : UInt32) :
      BuiltFrom config (config.intoRetryPolicyWithAttempts maxAttempts)

theorem RetryPolicy.BuiltFrom.bounds {config : BackoffConfig K} {policy : RetryPolicy K}
    (h : policy.BuiltFrom config) :
    policy.baseMs = config.baseMs ∧ policy.capMs = config.capMs := by
  cases h <;> exact ⟨rfl, rfl⟩

end Policy

namespace RetryPolicy

variable {K : Type} [Field K] [LinearOrder K]

/-- The exponent of `powi`. The count is cast to a signed number, so that it is negative from
`2 ^ 31` on. -/
def exponent (attempts : UInt32) : ℤ :=
  (UInt32.ofNat (attempts.toNat - 1)).toInt32.toInt

/-- The delay before jitter: it grows with the attempts, up to the cap. -/
def capped (policy : RetryPolicy K) (attempts : UInt32) : K :=
  let exp := (policy.baseMs.toNat : K) * policy.factor ^ exponent attempts
  min exp policy.capMs.toNat

/-- The jitter of a sample: it spreads the delay by at most its own fraction both ways. -/
def spread (policy : RetryPolicy K) (sample : Sample K) : K :=
  1 + (sample.value * 2 - 1) * policy.jitter

/-- The delay, clamped between the base and the cap. -/
def delay (policy : RetryPolicy K) (attempts : UInt32) (sample : Sample K) : Option K :=
  clamp (policy.capped attempts * policy.spread sample) policy.baseMs.toNat policy.capMs.toNat

/-- `RetryPolicy::next_after`. -/
def nextAfter [FloorRing K] (policy : RetryPolicy K) (nowMs : Int64) (attempts : UInt32)
    (sample : Sample K) : Option Int64 := do
  let delay ← policy.delay attempts sample
  checkedAdd nowMs (truncateToInt64 delay)

/-- A call that returns a time, which is no earlier than after the smaller bound and no later than
after the cap. -/
def BoundedAt [FloorRing K] (policy : RetryPolicy K) (nowMs : Int64) (attempts : UInt32)
    (sample : Sample K) : Prop :=
  ∃ next, policy.nextAfter nowMs attempts sample = some next ∧
    nowMs.toInt + min policy.baseMs.toNat policy.capMs.toNat ≤ next.toInt ∧
    next.toInt ≤ nowMs.toInt + policy.capMs.toNat

variable [IsStrictOrderedRing K] [FloorRing K] {policy : RetryPolicy K} {nowMs : Int64}
variable {attempts later : UInt32} {sample other : Sample K}

/-- A base above the cap breaks the assertion of the clamp. -/
theorem nextAfter_of_cap_lt (h : policy.capMs < policy.baseMs) :
    policy.nextAfter nowMs attempts sample = none := by
  have hbounds : (policy.capMs.toNat : K) < policy.baseMs.toNat :=
    Nat.cast_lt.mpr (UInt64.lt_iff_toNat_lt.mp h)
  rw [nextAfter, delay, clamp_of_lt hbounds]
  rfl

/-- With the bounds in order, the call returns, and what it adds lies between the two bounds, each
of them saturated by the cast. -/
theorem exists_nextAfter (hbounds : policy.baseMs ≤ policy.capMs)
    (hfits : nowMs.toInt + policy.capMs.toNat ≤ Int64.maxValue.toInt) :
    ∃ next, policy.nextAfter nowMs attempts sample = some next ∧
      nowMs.toInt + min (policy.baseMs.toNat : ℤ) Int64.maxValue.toInt ≤ next.toInt ∧
      next.toInt ≤ nowMs.toInt + min (policy.capMs.toNat : ℤ) Int64.maxValue.toInt := by
  have hcast : (policy.baseMs.toNat : K) ≤ policy.capMs.toNat :=
    Nat.cast_le.mpr (UInt64.le_iff_toNat_le.mp hbounds)
  obtain ⟨delay, hdelay⟩ := exists_clamp (policy.capped attempts * policy.spread sample) hcast
  have hnonneg : 0 ≤ delay := (Nat.cast_nonneg _).trans (le_of_clamp hdelay)
  have hleast := le_toInt_truncateToInt64 (le_of_clamp hdelay)
  have hmost := toInt_truncateToInt64_le hnonneg (le_high_of_clamp hdelay)
  have hmax : Int64.maxValue.toInt = 2 ^ 63 - 1 := rfl
  have hnow := nowMs.minValue_le_toInt
  obtain ⟨next, hnext⟩ :=
    exists_checkedAdd nowMs (truncateToInt64 delay) (by omega) (by omega)
  have hvalue := toInt_of_checkedAdd hnext
  refine ⟨next, ?_, by omega, by omega⟩
  rw [nextAfter, RetryPolicy.delay, hdelay]
  exact hnext

/-- For every policy that is built from a configuration, whatever its factor and jitter, and for
every count of attempts and every sample, the call returns a time within its bounds
exactly where the base is no more than the cap and within the range of the signed type. -/
theorem nextAfter_bounded_iff {config : BackoffConfig K} (hbuilt : policy.BuiltFrom config)
    (hfits : nowMs.toInt + config.capMs.toNat ≤ Int64.maxValue.toInt) :
    policy.BoundedAt nowMs attempts sample ↔
      config.baseMs ≤ config.capMs ∧ (config.baseMs.toNat : ℤ) ≤ Int64.maxValue.toInt := by
  obtain ⟨hbase, hcap⟩ := hbuilt.bounds
  rw [← hbase, ← hcap]
  rw [← hcap] at hfits
  constructor
  · rintro ⟨next, hnext, hlow, -⟩
    have hbounds : policy.baseMs ≤ policy.capMs := by
      by_contra hreversed
      rw [nextAfter_of_cap_lt (not_le.mp hreversed)] at hnext
      cases hnext
    obtain ⟨other, hother, -, hhigh⟩ := exists_nextAfter hbounds hfits
    obtain rfl : next = other := Option.some.inj (hnext.symm.trans hother)
    have hle := UInt64.le_iff_toNat_le.mp hbounds
    exact ⟨hbounds, by omega⟩
  · rintro ⟨hbounds, hrange⟩
    obtain ⟨next, hnext, hlow, hhigh⟩ := exists_nextAfter hbounds hfits
    have hle := UInt64.le_iff_toNat_le.mp hbounds
    exact ⟨next, hnext, by omega, by omega⟩

/-- The default configuration of the outbox: half a second, doubled up to five minutes. -/
def outboxBackoff : BackoffConfig ℚ where
  baseMs := 500
  factor := 2
  jitter := 3 / 10
  capMs := 300000

/-- The sample in the middle: no jitter. -/
def middle : Sample ℚ := ⟨1 / 2, by norm_num, by norm_num⟩

theorem nextAfter_bounded_outbox :
    (outboxBackoff.intoRetryPolicyWithAttempts 12).BoundedAt 1000 3 middle :=
  (nextAfter_bounded_iff (.withAttempts 12) (by decide)).mpr ⟨by decide, by decide⟩

/-- A base of two seconds under a cap of one second. -/
def reversedBounds : BackoffConfig ℝ where
  baseMs := 2000
  factor := 2
  jitter := 0
  capMs := 1000

/-- Without a condition on the bounds the call can panic. -/
theorem not_nextAfter_bounded_reversedBounds :
    ¬ ∀ (config : BackoffConfig ℝ) (policy : RetryPolicy ℝ) (nowMs : Int64) (attempts : UInt32)
        (sample : Sample ℝ), policy.BuiltFrom config → 1 ≤ config.factor → 0 ≤ config.jitter →
        config.jitter ≤ 1 → 1 ≤ attempts →
        nowMs.toInt + config.capMs.toNat ≤ Int64.maxValue.toInt →
        policy.BoundedAt nowMs attempts sample := by
  intro hbounded
  obtain ⟨next, hnext, -⟩ := hbounded reversedBounds reversedBounds.intoRetryPolicy 0 1
    ⟨0, le_rfl, zero_lt_one⟩ .into one_le_two le_rfl zero_le_one (by decide) (by decide)
  have hreversed :
      reversedBounds.intoRetryPolicy.capMs < reversedBounds.intoRetryPolicy.baseMs := by decide
  rw [nextAfter_of_cap_lt hreversed] at hnext
  cases hnext

/-- As long as the cast does not wrap, the exponent is one less than the count of attempts. -/
theorem exponent_eq (h : attempts.toNat ≤ 2 ^ 31) :
    exponent attempts = (attempts.toNat - 1 : ℕ) := by
  have hsmall : attempts.toNat - 1 < 2 ^ 32 := by omega
  have hcast : (UInt32.ofNat (attempts.toNat - 1)).toInt32.toInt =
      ((UInt32.ofNat (attempts.toNat - 1)).toNat : ℤ).bmod (2 ^ 32) :=
    BitVec.toInt_eq_toNat_bmod _
  rw [exponent, hcast, UInt32.toNat_ofNat_of_lt' hsmall]
  apply Int.bmod_eq_of_le <;> omega

/-- With a factor that is at least one, a later attempt never has the shorter delay. -/
theorem capped_mono (hfactor : 1 ≤ policy.factor) (hle : attempts ≤ later)
    (hlater : later.toNat ≤ 2 ^ 31) : policy.capped attempts ≤ policy.capped later := by
  have hnat : attempts.toNat ≤ later.toNat := UInt32.le_iff_toNat_le.mp hle
  have hpow : policy.factor ^ (attempts.toNat - 1) ≤ policy.factor ^ (later.toNat - 1) :=
    pow_le_pow_right₀ hfactor (by omega)
  rw [capped, capped, exponent_eq (hnat.trans hlater), exponent_eq hlater, zpow_natCast,
    zpow_natCast]
  exact min_le_min_right _ (mul_le_mul_of_nonneg_left hpow (Nat.cast_nonneg _))

/-- Without jitter a later attempt is never made the sooner. -/
theorem nextAfter_mono {next following : Int64} (hfactor : 1 ≤ policy.factor)
    (hjitter : policy.jitter = 0) (hle : attempts ≤ later) (hlater : later.toNat ≤ 2 ^ 31)
    (hnext : policy.nextAfter nowMs attempts sample = some next)
    (hfollowing : policy.nextAfter nowMs later other = some following) : next ≤ following := by
  obtain ⟨delay, hdelay, hsum⟩ := Option.bind_eq_some_iff.mp hnext
  obtain ⟨longer, hlonger, hsum'⟩ := Option.bind_eq_some_iff.mp hfollowing
  have hcapped := capped_mono hfactor hle hlater
  simp only [RetryPolicy.delay, spread, hjitter, mul_zero, add_zero, mul_one] at hdelay hlonger
  have hdelays : delay ≤ longer := clamp_mono hcapped hdelay hlonger
  have hnonneg : 0 ≤ delay := (Nat.cast_nonneg _).trans (le_of_clamp hdelay)
  have hcasts := toInt_truncateToInt64_mono hnonneg hdelays
  rw [Int64.le_iff_toInt_le, toInt_of_checkedAdd hsum, toInt_of_checkedAdd hsum']
  omega

end RetryPolicy

end Soulbase.Tx
