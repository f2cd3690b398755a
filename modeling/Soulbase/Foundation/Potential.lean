/-
# Counting along runs

What a run may still do is often bounded by what it has been given. The argument is
that of a potential: a number attached to every state, which the steps that count
raise and which what has been given bounds. `Run.add_sum_le` and `Run.le_add_sum`
read such a number off a run, and `Trace.eventually` turns a bound on finite runs
into a statement about infinite ones: once nothing is given any more, nothing is
done any more.
-/

import Mathlib.Algebra.BigOperators.Group.Finset.Basic
import Mathlib.Algebra.Order.BigOperators.Group.Finset
import Mathlib.Data.Nat.Nth
import Soulbase.Foundation.Transition

namespace Soulbase.Foundation

/-- A list whose elements are among some keys, none of them too often, is not too long. -/
theorem length_le_mul_of_count_le {κ : Type*} [DecidableEq κ] {items keys : List κ} {bound : ℕ}
    (hkeys : items ⊆ keys) (hcount : ∀ key, items.countP (· = key) ≤ bound) :
    items.length ≤ bound * keys.length :=
  calc items.length = ∑ key ∈ items.toFinset, items.count key :=
        (List.sum_toFinset_count_eq_length items).symm
    _ ≤ items.toFinset.card * bound := by
        exact Finset.sum_le_card_nsmul _ _ _ fun key _ => hcount key
    _ ≤ keys.length * bound := by
        apply Nat.mul_le_mul_right
        refine (Finset.card_le_card ?_).trans (List.toFinset_card_le keys)
        intro key hkey
        exact List.mem_toFinset.mpr (hkeys (List.mem_toFinset.mp hkey))
    _ = bound * keys.length := Nat.mul_comm _ _

namespace TransitionSystem

variable {State Label : Type*} {T : TransitionSystem State Label}

section Measures

variable {source target : State} {labels : List Label}

/-- What every step adds at least, a run adds at least. -/
theorem Run.add_sum_le (measure : State → ℕ) (amount : Label → ℕ)
    (hrun : T.Run source labels target) (hreach : T.Reachable source)
    (hstep : ∀ before label after, T.Reachable before → T.step before label after →
      measure before + amount label ≤ measure after) :
    measure source + (labels.map amount).sum ≤ measure target := by
  induction hrun with
  | nil _ => exact Nat.le_refl _
  | cons h _ ih =>
      have hfirst := hstep _ _ _ hreach h
      have hrest := ih (hreach.step h)
      rw [List.map_cons, List.sum_cons]
      omega

/-- What every step adds at most, a run adds at most. -/
theorem Run.le_add_sum (measure : State → ℕ) (amount : Label → ℕ)
    (hrun : T.Run source labels target) (hreach : T.Reachable source)
    (hstep : ∀ before label after, T.Reachable before → T.step before label after →
      measure after ≤ measure before + amount label) :
    measure target ≤ measure source + (labels.map amount).sum := by
  induction hrun with
  | nil _ => exact Nat.le_refl _
  | cons h _ ih =>
      have hfirst := hstep _ _ _ hreach h
      have hrest := ih (hreach.step h)
      rw [List.map_cons, List.sum_cons]
      omega

/-- One more step at the end of a run. -/
theorem Run.snoc {middle : State} {label : Label} (hrun : T.Run source labels middle)
    (hstep : T.step middle label target) : T.Run source (labels ++ [label]) target := by
  induction hrun with
  | nil _ => exact .cons hstep (.nil _)
  | cons h _ ih => exact .cons h (ih hstep)

end Measures

/-- A run that goes on for ever. -/
structure Trace (T : TransitionSystem State Label) (states : ℕ → State) (labels : ℕ → Label) :
    Prop where
  init : T.init (states 0)
  step : ∀ n, T.step (states n) (labels n) (states (n + 1))

variable {states : ℕ → State} {labels : ℕ → Label}

/-- Its beginnings are runs. -/
theorem Trace.run (h : T.Trace states labels) (n : ℕ) :
    T.Run (states 0) ((List.range n).map labels) (states n) := by
  induction n with
  | zero => exact .nil _
  | succ n ih =>
      rw [List.range_succ, List.map_append]
      exact ih.snoc (h.step n)

theorem countP_range_map (labels : ℕ → Label) (counts : Label → Bool) (n : ℕ) :
    ((List.range n).map labels).countP counts =
      Nat.count (fun k => counts (labels k) = true) n := by
  induction n with
  | zero => rfl
  | succ n ih =>
      rw [List.range_succ, List.map_append, List.countP_append, ih, Nat.count_succ,
        List.map_singleton, List.countP_singleton]

/-- If in every finite run the labels of one kind are bounded by those of another, then
an infinite run with finitely many of the other kind has finitely many of the one. -/
theorem Trace.eventually (h : T.Trace states labels) {does given : Label → Bool} {rate : ℕ}
    (hbound : ∀ start names target, T.init start → T.Run start names target →
      names.countP does ≤ rate * names.countP given)
    (hgiven : ∃ n, ∀ k ≥ n, given (labels k) = false) :
    ∃ n, ∀ k ≥ n, does (labels k) = false := by
  obtain ⟨last, hlast⟩ := hgiven
  have hfuel : ∀ n, Nat.count (fun k => given (labels k) = true) n ≤ last := by
    intro n
    rw [Nat.count_eq_card_filter_range]
    refine (Finset.card_le_card ?_).trans (Finset.card_range last).le
    intro k hk
    rw [Finset.mem_filter] at hk
    by_contra hlate
    rw [Finset.mem_range, not_lt] at hlate
    simp [hlast k hlate] at hk
  have hdone : ∀ n, Nat.count (fun k => does (labels k) = true) n ≤ rate * last := by
    intro n
    have hrun := hbound _ _ _ h.init (h.run n)
    rw [countP_range_map, countP_range_map] at hrun
    exact hrun.trans (Nat.mul_le_mul_left rate (hfuel n))
  have hfinite : {k | does (labels k) = true}.Finite := by
    by_contra hinfinite
    have hcount := hdone (Nat.nth (fun k => does (labels k) = true) (rate * last + 1))
    rw [Nat.count_nth_of_infinite hinfinite] at hcount
    omega
  obtain ⟨bound, hbelow⟩ := hfinite.bddAbove
  refine ⟨bound + 1, fun k hk => ?_⟩
  by_contra hdoes
  have hle := hbelow (Bool.eq_true_of_not_eq_false hdoes)
  omega

end TransitionSystem

end Soulbase.Foundation
