/-
# The retention of dead letters

A turn of the maintenance loop purges the letters of its tenant that are older than the retention.
The retention is an unsigned number that is cast to a signed one before it is subtracted from
the reading of the clock. Where the difference is no number of 64 bits, the cutoff wraps around
to a time in the future: with the largest retention, which should keep letters for ever, all of
them are removed at once. `retains_iff` says which letters are lost.
-/

import Soulbase.Tx.Memory.DeadStore

namespace Soulbase.Tx

open Soulbase.Foundation

namespace InMemoryDeadStore

/-- A turn of the loop of `spawn_dead_letter_maintenance`, at a reading of the clock. -/
def maintain (store : InMemoryDeadStore) (tenant : TenantId) (retentionMs : UInt64)
    (now : Int64) : InMemoryDeadStore :=
  let retention := retentionMs.toInt64
  let before := now - retention
  store.purgeOlderThan tenant before

/-- The task of `spawn_dead_letter_maintenance`, for the readings of the clock until it is
stopped. It parks where the retention is zero. -/
def maintenance (tenant : TenantId) (retentionMs : UInt64) (readings : List Int64)
    (store : InMemoryDeadStore) : InMemoryDeadStore :=
  if retentionMs = 0 then store
  else readings.foldl (fun store now => store.maintain tenant retentionMs now) store

/-- A letter of the tenant that occurred before a time. -/
def occurredBefore (tenant : TenantId) (time : ℤ) (letter : DeadLetter) : Bool :=
  letter.tenant = tenant && letter.occurredAt.toInt < time

/-- The letters of the tenant that are older than the retention are removed, and no others. -/
def Retains (store : InMemoryDeadStore) (tenant : TenantId) (retentionMs : UInt64)
    (now : Int64) : Prop :=
  ∀ key, (store.maintain tenant retentionMs now).find key =
    (store.find key).filter (!occurredBefore tenant (now.toInt - retentionMs.toNat) ·)

section Turn

variable {store : InMemoryDeadStore} {tenant : TenantId} {retentionMs : UInt64}
variable {now : Int64} {key : LetterKey}

theorem occurredBefore_iff {time : ℤ} {letter : DeadLetter} :
    occurredBefore tenant time letter = true ↔
      letter.tenant = tenant ∧ letter.occurredAt.toInt < time := by
  rw [occurredBefore, Bool.and_eq_true, decide_eq_true_iff, decide_eq_true_iff]

/-- A purge drops the letters of the tenant that are older than it is asked to. -/
theorem find_purgeOlderThan (beforeEpochMs : Int64) :
    (store.purgeOlderThan tenant beforeEpochMs).find key =
      (store.find key).filter (!occurredBefore tenant beforeEpochMs.toInt ·) := by
  rw [purgeOlderThan, find_foldl_erase]
  cases hfind : store.find key with
  | none => rw [Option.filter_none, ite_self]
  | some letter =>
      have hkey : key ∈ store.entries.keys :=
        AList.mem_keys.mp (AList.lookup_isSome.mp (Option.isSome_of_eq_some hfind))
      have hexpired : key ∈ store.expired tenant beforeEpochMs ↔
          occurredBefore tenant beforeEpochMs.toInt letter = true := by
        rw [expired, List.mem_filter, hfind, Option.any_some, decide_eq_true_iff,
          occurredBefore_iff, Int64.lt_iff_toInt_lt]
        exact and_iff_right hkey
      by_cases hold : occurredBefore tenant beforeEpochMs.toInt letter = true
      · rw [if_pos (hexpired.mpr hold), Option.filter_some, hold]
        rfl
      · rw [if_neg (hold ∘ hexpired.mp), Option.filter_some, Bool.eq_false_iff.mpr hold]
        rfl

/-- The cutoff is what it should be where that is a number of 64 bits. -/
theorem toInt_cutoff (h : (retentionMs.toNat : ℤ) ≤ now.toInt + 2 ^ 63) :
    (now - retentionMs.toInt64).toInt = now.toInt - retentionMs.toNat := by
  have hle := Int64.toInt_le now
  have hmax : Int64.maxValue.toInt = 2 ^ 63 - 1 := rfl
  rw [toInt_sub_toInt64]
  apply Int.bmod_eq_of_le <;> omega

/-- It wraps around to the future where that is too small. -/
theorem toInt_cutoff_of_lt (h : now.toInt + 2 ^ 63 < (retentionMs.toNat : ℤ)) :
    (now - retentionMs.toInt64).toInt = now.toInt - retentionMs.toNat + 2 ^ 64 := by
  have hle := Int64.le_toInt now
  have hmin : Int64.minValue.toInt = -2 ^ 63 := rfl
  have hlt := retentionMs.toNat_lt
  rw [toInt_sub_toInt64, ← Int.add_bmod_right]
  apply Int.bmod_eq_of_le <;> omega

/-- Nothing is lost where the cutoff is a number of 64 bits. -/
theorem find_maintain_of_fits (h : (retentionMs.toNat : ℤ) ≤ now.toInt + 2 ^ 63) :
    (store.maintain tenant retentionMs now).find key =
      (store.find key).filter (!occurredBefore tenant (now.toInt - retentionMs.toNat) ·) := by
  rw [maintain, find_purgeOlderThan, toInt_cutoff h]

/-- Over all turns of the task, the letters are kept that are at no reading of the clock older
than the retention. -/
theorem find_maintenance (hne : retentionMs ≠ 0) (readings : List Int64)
    (h : ∀ now ∈ readings, (retentionMs.toNat : ℤ) ≤ now.toInt + 2 ^ 63) :
    (maintenance tenant retentionMs readings store).find key =
      (store.find key).filter fun letter =>
        readings.all fun now => !occurredBefore tenant (now.toInt - retentionMs.toNat) letter := by
  rw [maintenance, if_neg hne]
  induction readings generalizing store with
  | nil =>
      rw [List.foldl_nil]
      cases store.find key <;> rfl
  | cons now readings ih =>
      have hrest : ∀ later ∈ readings, (retentionMs.toNat : ℤ) ≤ later.toInt + 2 ^ 63 :=
        fun later hlater => h later (List.mem_cons_of_mem _ hlater)
      rw [List.foldl_cons, ih hrest, find_maintain_of_fits (h now List.mem_cons_self),
        Option.filter_filter]
      simp only [List.all_cons]

end Turn

/-- Letters are lost where the retention is longer than the time since the least number of 64
bits, and the letter is not later than the cutoff that has wrapped around. -/
theorem retains_iff (store : InMemoryDeadStore) (tenant : TenantId) (retentionMs : UInt64)
    (now : Int64) :
    store.Retains tenant retentionMs now ↔
      (retentionMs.toNat : ℤ) ≤ now.toInt + 2 ^ 63 ∨
        ∀ key letter, store.find key = some letter → letter.tenant = tenant →
          now.toInt - retentionMs.toNat + 2 ^ 64 ≤ letter.occurredAt.toInt := by
  unfold Retains
  by_cases hfits : (retentionMs.toNat : ℤ) ≤ now.toInt + 2 ^ 63
  · exact iff_of_true (fun key => find_maintain_of_fits hfits) (.inl hfits)
  · have hlong : now.toInt + 2 ^ 63 < (retentionMs.toNat : ℤ) := Int.not_le.mp hfits
    -- Nothing is as old as the retention.
    have hyoung : ∀ letter : DeadLetter,
        occurredBefore tenant (now.toInt - retentionMs.toNat) letter = false := by
      intro letter
      rw [Bool.eq_false_iff, Ne, occurredBefore_iff]
      rintro ⟨_, hold⟩
      have hle := Int64.le_toInt letter.occurredAt
      have hmin : Int64.minValue.toInt = -2 ^ 63 := rfl
      omega
    rw [or_iff_right hfits]
    simp only [maintain, find_purgeOlderThan, toInt_cutoff_of_lt hlong]
    constructor
    · intro h key letter hfind htenant
      have hkept := h key
      rw [hfind, Option.filter_some, Option.filter_some, hyoung, Bool.not_false,
        if_pos rfl] at hkept
      by_contra hlost
      have hbefore : occurredBefore tenant (now.toInt - retentionMs.toNat + 2 ^ 64) letter =
          true := occurredBefore_iff.mpr ⟨htenant, Int.not_le.mp hlost⟩
      rw [hbefore] at hkept
      cases hkept
    · intro h key
      cases hfind : store.find key with
      | none => rfl
      | some letter =>
          have hlater : occurredBefore tenant (now.toInt - retentionMs.toNat + 2 ^ 64) letter =
              false := by
            rw [Bool.eq_false_iff, Ne, occurredBefore_iff]
            rintro ⟨htenant, hlt⟩
            exact Int.not_lt.mpr (h key letter hfind htenant) hlt
          rw [Option.filter_some, Option.filter_some, hyoung, hlater]

namespace KeptForEver

/-- A letter that has just occurred. -/
def letter : DeadLetter where
  reference := { kind := .outbox, id := ⟨"m"⟩ }
  tenant := ⟨"t"⟩
  error := none
  occurredAt := 1000
  payload := .outbox
    { id := ⟨"m"⟩
      tenant := ⟨"t"⟩
      envelopeId := ⟨"e"⟩
      topic := "mail"
      payload := .null
      createdAt := 0
      notBefore := 0
      attempts := 5
      status := .dead
      lastError := none
      dispatchKey := none
      leaseUntil := none
      worker := none }

end KeptForEver

/-- With the largest retention the letter is removed at once. -/
theorem not_retains_largest :
    ¬∀ (store : InMemoryDeadStore) tenant retentionMs now, 0 < retentionMs → 0 ≤ now →
      store.Retains tenant retentionMs now := by
  intro h
  have hretains := h (empty.push KeptForEver.letter) ⟨"t"⟩ (.ofNat (2 ^ 64 - 1)) 1000
    (by decide) (by decide)
  have hkept := congrArg Option.isSome (hretains KeptForEver.letter.reference.key)
  revert hkept
  decide

end InMemoryDeadStore

end Soulbase.Tx
