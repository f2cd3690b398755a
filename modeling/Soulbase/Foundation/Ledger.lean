/-
# Ledgers of tries

Agents try to carry out what a ledger lists, and report on a try later, or never. Reports may get
lost, agents may be replaced in between, and entries may be amended from elsewhere, so the attempts
that an entry counts are not the tries that there were.

They are never more. Every attempt that is counted and every failure that is still to be reported
is a failed try of its own, and this makes `Sound` pass through every `Step`: what is listed as
carried out was carried out, and nothing is given up before the agent that gave it up was allowed
to.
-/

import Mathlib.Data.Finset.Card
import Mathlib.Data.List.Count
import Mathlib.Logic.Function.Basic

namespace Soulbase.Foundation

/-- What a ledger lists. -/
structure LedgerEntry where
  attempts : ℕ
  /-- Whether it was carried out or given up, once it has ended. -/
  ending : Option Bool

/-- What an agent has done. -/
structure LedgerTry (ι κ : Type*) where
  agent : ι
  key : κ
  succeeded : Bool

/-- Entries, all tries with the newest first, and the last try of every agent until it is reported
or forgotten. -/
structure Ledger (ι κ : Type*) where
  entries : κ → Option LedgerEntry
  tries : List (LedgerTry ι κ)
  unreported : ι → Option (κ × Bool)

variable {ι κ : Type*}

namespace Ledger

section

variable [DecidableEq κ]

/-- How often a key was tried without success. -/
def failures (tries : List (LedgerTry ι κ)) (key : κ) : ℕ :=
  tries.countP fun attempt => attempt.key = key && !attempt.succeeded

/-- The attempts that are counted under a key. -/
def attempts (ledger : Ledger ι κ) (key : κ) : ℕ :=
  (ledger.entries key).elim 0 (·.attempts)

variable {tries : List (LedgerTry ι κ)} {key other : κ} {i : ι}

theorem failures_failed :
    failures (⟨i, key, false⟩ :: tries) other =
      failures tries other + if key = other then 1 else 0 := by
  simp [failures, List.countP_cons]

theorem failures_le_cons (attempt : LedgerTry ι κ) :
    failures tries key ≤ failures (attempt :: tries) key :=
  (List.sublist_cons_self _ _).countP_le

end

variable [DecidableEq ι] [DecidableEq κ]

/-- What may happen to a ledger. An agent may give up as soon as its limit of failures is
reached. -/
inductive Step (limit : ι → ℕ) (ledger after : Ledger ι κ) : Prop
  /-- Nothing new ends and nothing more is counted. -/
  | amended (htries : after.tries = ledger.tries)
      (hunreported : after.unreported = ledger.unreported)
      (hattempts : ∀ key, after.attempts key ≤ ledger.attempts key)
      (hended : ∀ key entry, after.entries key = some entry → entry.ending ≠ none →
        ∃ old, ledger.entries key = some old ∧ old.ending = entry.ending)
  | tried (i : ι) (key : κ) (succeeded : Bool) (hentries : after.entries = ledger.entries)
      (htries : after.tries = ⟨i, key, succeeded⟩ :: ledger.tries)
      (hunreported :
        after.unreported = Function.update ledger.unreported i (some (key, succeeded)))
  /-- There will be no report, or nobody takes it. -/
  | forgotten (i : ι) (hentries : after.entries = ledger.entries)
      (htries : after.tries = ledger.tries)
      (hunreported : after.unreported = Function.update ledger.unreported i none)
  | reported (i : ι) (key : κ) (succeeded : Bool) (old new : LedgerEntry)
      (hsent : ledger.unreported i = some (key, succeeded))
      (hold : ledger.entries key = some old)
      (hcount : new.attempts ≤ old.attempts + if succeeded then 0 else 1)
      (hending : ∀ ending, new.ending = some ending →
        ending = succeeded ∧ (ending = false → limit i ≤ failures ledger.tries key))
      (hentries : after.entries = Function.update ledger.entries key (some new))
      (htries : after.tries = ledger.tries)
      (hunreported : after.unreported = Function.update ledger.unreported i none)

/-- What the entries say of the tries. -/
structure Sound (limit : ι → ℕ) (ledger : Ledger ι κ) : Prop where
  recorded : ∀ i key succeeded, ledger.unreported i = some (key, succeeded) →
    ⟨i, key, succeeded⟩ ∈ ledger.tries
  /-- Every attempt counted and every report owed is a failed try of its own. -/
  counted : ∀ key, ∃ owing : Finset ι,
    (∀ i, ledger.unreported i = some (key, false) → i ∈ owing) ∧
      ledger.attempts key + owing.card ≤ failures ledger.tries key
  carriedOut : ∀ key entry, ledger.entries key = some entry → entry.ending = some true →
    ∃ i, ⟨i, key, true⟩ ∈ ledger.tries
  givenUp : ∀ key entry, ledger.entries key = some entry → entry.ending = some false →
    ∃ i, ⟨i, key, false⟩ ∈ ledger.tries ∧ limit i ≤ failures ledger.tries key

variable {limit : ι → ℕ} {ledger after : Ledger ι κ}

omit [DecidableEq ι] in
theorem Sound.attempts_le (h : ledger.Sound limit) (key : κ) :
    ledger.attempts key ≤ failures ledger.tries key := by
  obtain ⟨owing, _, hcount⟩ := h.counted key
  exact (Nat.le_add_right _ _).trans hcount

omit [DecidableEq ι] in
/-- Nothing is tried, and nothing listed is changed for the better or the worse. -/
theorem Sound.amend (h : ledger.Sound limit) (htries : after.tries = ledger.tries)
    (hunreported : after.unreported = ledger.unreported)
    (hattempts : ∀ key, after.attempts key ≤ ledger.attempts key)
    (hended : ∀ key entry, after.entries key = some entry → entry.ending ≠ none →
      ∃ old, ledger.entries key = some old ∧ old.ending = entry.ending) : after.Sound limit := by
  constructor
  case recorded =>
    rw [hunreported, htries]
    exact h.recorded
  case counted =>
    intro key
    rw [hunreported, htries]
    obtain ⟨owing, howing, hcount⟩ := h.counted key
    have hbelow := hattempts key
    exact ⟨owing, howing, by omega⟩
  case carriedOut =>
    intro key entry hentry hending
    rw [htries]
    obtain ⟨old, hold, hsame⟩ := hended key entry hentry (by simp [hending])
    exact h.carriedOut key old hold (hsame.trans hending)
  case givenUp =>
    intro key entry hentry hending
    rw [htries]
    obtain ⟨old, hold, hsame⟩ := hended key entry hentry (by simp [hending])
    exact h.givenUp key old hold (hsame.trans hending)

theorem Sound.attempt (h : ledger.Sound limit) {i : ι} {key : κ} {succeeded : Bool}
    (hentries : after.entries = ledger.entries)
    (htries : after.tries = ⟨i, key, succeeded⟩ :: ledger.tries)
    (hunreported :
      after.unreported = Function.update ledger.unreported i (some (key, succeeded))) :
    after.Sound limit := by
  have hattempts : ∀ other, after.attempts other = ledger.attempts other := by
    intro other
    rw [attempts, attempts, hentries]
  constructor
  case recorded =>
    intro j other outcome hsent
    rw [hunreported] at hsent
    rw [htries]
    by_cases hj : j = i
    · subst hj
      rw [Function.update_self] at hsent
      cases hsent
      exact List.mem_cons_self
    · rw [Function.update_of_ne hj] at hsent
      exact List.mem_cons_of_mem _ (h.recorded j other outcome hsent)
  case counted =>
    intro other
    obtain ⟨owing, howing, hcount⟩ := h.counted other
    rw [htries, hunreported, hattempts]
    by_cases howes : key = other ∧ succeeded = false
    · obtain ⟨rfl, rfl⟩ := howes
      refine ⟨insert i owing, ?_, ?_⟩
      · intro j hj
        by_cases hji : j = i
        · exact hji ▸ Finset.mem_insert_self _ _
        · rw [Function.update_of_ne hji] at hj
          exact Finset.mem_insert_of_mem (howing j hj)
      · have hcard := Finset.card_insert_le i owing
        rw [failures_failed, if_pos rfl]
        omega
    · refine ⟨owing, ?_, hcount.trans (failures_le_cons _)⟩
      intro j hj
      by_cases hji : j = i
      · rw [hji, Function.update_self] at hj
        cases hj
        exact absurd ⟨rfl, rfl⟩ howes
      · rw [Function.update_of_ne hji] at hj
        exact howing j hj
  case carriedOut =>
    intro other entry hentry hending
    rw [hentries] at hentry
    rw [htries]
    obtain ⟨j, hj⟩ := h.carriedOut other entry hentry hending
    exact ⟨j, List.mem_cons_of_mem _ hj⟩
  case givenUp =>
    intro other entry hentry hending
    rw [hentries] at hentry
    rw [htries]
    obtain ⟨j, hj, hlimit⟩ := h.givenUp other entry hentry hending
    exact ⟨j, List.mem_cons_of_mem _ hj, hlimit.trans (failures_le_cons _)⟩

omit [DecidableEq κ] in
/-- Who has nothing to report any more owes nothing. -/
theorem mem_erase_of_owes {unreported : ι → Option (κ × Bool)} {owing : Finset ι} {i : ι} {key : κ}
    (howing : ∀ j, unreported j = some (key, false) → j ∈ owing) (j : ι)
    (hj : Function.update unreported i none j = some (key, false)) : j ∈ owing.erase i := by
  by_cases hji : j = i
  · rw [hji, Function.update_self] at hj
    cases hj
  · rw [Function.update_of_ne hji] at hj
    exact Finset.mem_erase.mpr ⟨hji, howing j hj⟩

theorem Sound.forget (h : ledger.Sound limit) {i : ι} (hentries : after.entries = ledger.entries)
    (htries : after.tries = ledger.tries)
    (hunreported : after.unreported = Function.update ledger.unreported i none) :
    after.Sound limit := by
  constructor
  case recorded =>
    intro j key succeeded hsent
    rw [hunreported] at hsent
    rw [htries]
    by_cases hj : j = i
    · rw [hj, Function.update_self] at hsent
      cases hsent
    · rw [Function.update_of_ne hj] at hsent
      exact h.recorded j key succeeded hsent
  case counted =>
    intro key
    obtain ⟨owing, howing, hcount⟩ := h.counted key
    rw [htries, hunreported, attempts, hentries]
    have herase : (owing.erase i).card ≤ owing.card := Finset.card_erase_le
    exact ⟨owing.erase i, mem_erase_of_owes howing, (Nat.add_le_add_left herase _).trans hcount⟩
  case carriedOut =>
    rw [hentries, htries]
    exact h.carriedOut
  case givenUp =>
    rw [hentries, htries]
    exact h.givenUp

theorem Sound.report (h : ledger.Sound limit) {i : ι} {key : κ} {succeeded : Bool}
    {old new : LedgerEntry} (hsent : ledger.unreported i = some (key, succeeded))
    (hold : ledger.entries key = some old)
    (hcount : new.attempts ≤ old.attempts + if succeeded then 0 else 1)
    (hending : ∀ ending, new.ending = some ending →
      ending = succeeded ∧ (ending = false → limit i ≤ failures ledger.tries key))
    (hentries : after.entries = Function.update ledger.entries key (some new))
    (htries : after.tries = ledger.tries)
    (hunreported : after.unreported = Function.update ledger.unreported i none) :
    after.Sound limit := by
  have hforgotten : Sound limit { after with entries := ledger.entries } :=
    h.forget rfl htries hunreported
  have hnew : after.entries key = some new := by rw [hentries, Function.update_self]
  have hother : ∀ {other}, other ≠ key → after.entries other = ledger.entries other := by
    intro other hne
    rw [hentries, Function.update_of_ne hne]
  constructor
  case recorded => exact hforgotten.recorded
  case counted =>
    intro other
    by_cases hne : other = key
    · subst hne
      obtain ⟨owing, howing, hbound⟩ := h.counted other
      refine ⟨owing.erase i, ?_, ?_⟩
      · rw [hunreported]
        exact mem_erase_of_owes howing
      · rw [attempts, hold] at hbound
        rw [attempts, hnew, htries]
        simp only [Option.elim_some] at hbound ⊢
        cases succeeded with
        | true =>
            have herase : (owing.erase i).card ≤ owing.card := Finset.card_erase_le
            simp only [if_true, Nat.add_zero] at hcount
            omega
        | false =>
            -- The one more attempt is the report that was owed.
            have howed := Finset.card_erase_add_one (howing i hsent)
            simp only [Bool.false_eq_true, if_false] at hcount
            omega
    · have hsame := hforgotten.counted other
      rw [attempts] at hsame
      rw [attempts, hother hne]
      exact hsame
  case carriedOut =>
    intro other entry hentry hdone
    rw [htries]
    by_cases hne : other = key
    · subst hne
      cases hnew.symm.trans hentry
      obtain ⟨hsucceeded, _⟩ := hending true hdone
      exact ⟨i, h.recorded i other true (hsucceeded ▸ hsent)⟩
    · rw [hother hne] at hentry
      exact h.carriedOut other entry hentry hdone
  case givenUp =>
    intro other entry hentry hdead
    rw [htries]
    by_cases hne : other = key
    · subst hne
      cases hnew.symm.trans hentry
      obtain ⟨hsucceeded, hlimit⟩ := hending false hdead
      exact ⟨i, h.recorded i other false (hsucceeded ▸ hsent), hlimit rfl⟩
    · rw [hother hne] at hentry
      exact h.givenUp other entry hentry hdead

/-- Soundness passes through every step. -/
theorem Sound.step (h : ledger.Sound limit) (hstep : Step limit ledger after) :
    after.Sound limit := by
  cases hstep with
  | amended htries hunreported hattempts hended =>
      exact h.amend htries hunreported hattempts hended
  | tried i key succeeded hentries htries hunreported => exact h.attempt hentries htries hunreported
  | forgotten i hentries htries hunreported => exact h.forget hentries htries hunreported
  | reported i key succeeded old new hsent hold hcount hending hentries htries hunreported =>
      exact h.report hsent hold hcount hending hentries htries hunreported

end Ledger

end Soulbase.Foundation
