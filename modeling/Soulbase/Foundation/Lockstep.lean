/-
# Two machines on one history

A machine answers calls one after the other. Two machines agree on a history when each of
its calls gets answers that count as the same. `agrees_iff_meets` finds out when they do:
it takes a relation of their states that is kept as long as a condition on the two states
and the next call is met, and that makes the answers differ where it is not.

Of one machine, `throughout_iff` finds out when a property of each call holds along a history,
from an invariant that the calls keep which have it. `countWins_le_one` bounds the calls of a
history that win: a call that finds the machine open to it shuts it for those that it excludes,
and the others change nothing.
-/

import Mathlib.Data.List.Perm.Basic
import Mathlib.Data.Nat.Notation
import Mathlib.Tactic.TypeStar

namespace Soulbase.Foundation

universe u v

/-- A machine with a state, whose calls are answered at once. -/
abbrev Machine (State : Type u) (Call : Type v) (Answer : Call → Type*) :=
  State → (call : Call) → Answer call × State

namespace Machine

variable {Left Right Call : Type*} {LeftAnswer RightAnswer : Call → Type*}

/-- The machines answer every call of a history in the same way. -/
def Agree (left : Machine Left Call LeftAnswer) (right : Machine Right Call RightAnswer)
    (same : (call : Call) → LeftAnswer call → RightAnswer call → Prop) :
    Left → Right → List Call → Prop
  | _, _, [] => True
  | s, t, call :: calls =>
      same call (left s call).1 (right t call).1 ∧
        Agree left right same (left s call).2 (right t call).2 calls

/-- Every call of a history meets a condition on the states in which it is made. -/
def Meets (left : Machine Left Call LeftAnswer) (right : Machine Right Call RightAnswer)
    (condition : Left → Right → Call → Prop) : Left → Right → List Call → Prop
  | _, _, [] => True
  | s, t, call :: calls =>
      condition s t call ∧ Meets left right condition (left s call).2 (right t call).2 calls

variable {left : Machine Left Call LeftAnswer} {right : Machine Right Call RightAnswer}
variable {same : (call : Call) → LeftAnswer call → RightAnswer call → Prop}
variable {admits condition : Left → Right → Call → Prop}

/-- The machines agree as long as the condition is met, and no longer. The calls may be
restricted to those that are admitted. -/
theorem agrees_iff_meets (related : Left → Right → Prop)
    (hstep : ∀ s t call, related s t → admits s t call → condition s t call →
      same call (left s call).1 (right t call).1 ∧ related (left s call).2 (right t call).2)
    (hdiffer : ∀ s t call, related s t → admits s t call → ¬condition s t call →
      ¬same call (left s call).1 (right t call).1)
    {s : Left} {t : Right} {calls : List Call} (hstates : related s t)
    (hadmits : Meets left right admits s t calls) :
    Agree left right same s t calls ↔ Meets left right condition s t calls := by
  induction calls generalizing s t with
  | nil => exact Iff.rfl
  | cons call calls ih =>
      obtain ⟨hadmitted, hrest⟩ := hadmits
      by_cases hcondition : condition s t call
      · obtain ⟨hsame, hnext⟩ := hstep s t call hstates hadmitted hcondition
        exact and_congr (iff_of_true hsame hcondition) (ih hnext hrest)
      · have hdifferent := hdiffer s t call hstates hadmitted hcondition
        exact iff_of_false (fun h => hdifferent h.1) (fun h => hcondition h.1)

/-- What holds of every call holds along every history. -/
theorem meets_of_forall (h : ∀ s t call, condition s t call) (s : Left) (t : Right)
    (calls : List Call) : Meets left right condition s t calls := by
  induction calls generalizing s t with
  | nil => trivial
  | cons call calls ih => exact ⟨h s t call, ih _ _⟩

section Throughout

variable {State : Type*} {Answer : Call → Type*} {machine : Machine State Call Answer}
variable {property condition : State → Call → Prop}

/-- Every call of a history has a property, in the state in which it is made. -/
def Throughout (machine : Machine State Call Answer) (property : State → Call → Prop) :
    State → List Call → Prop
  | _, [] => True
  | s, call :: calls => property s call ∧ Throughout machine property (machine s call).2 calls

/-- Where an invariant holds, the calls that meet the condition are those that have the property,
and they keep the invariant. So the histories that have the one are those that have the other. -/
theorem throughout_iff (invariant : State → Prop)
    (hsame : ∀ s call, invariant s → (property s call ↔ condition s call))
    (hkept : ∀ s call, invariant s → condition s call → invariant (machine s call).2)
    {s : State} {calls : List Call} (hinvariant : invariant s) :
    Throughout machine property s calls ↔ Throughout machine condition s calls := by
  induction calls generalizing s with
  | nil => exact Iff.rfl
  | cons call calls ih =>
      have hcall := hsame s call hinvariant
      constructor
      · rintro ⟨hproperty, hrest⟩
        have hcondition := hcall.mp hproperty
        exact ⟨hcondition, (ih (hkept s call hinvariant hcondition)).mp hrest⟩
      · rintro ⟨hcondition, hrest⟩
        exact ⟨hcall.mpr hcondition, (ih (hkept s call hinvariant hcondition)).mpr hrest⟩

end Throughout

section Wins

variable {State Call Answer : Type*} {machine : Machine State Call fun _ => Answer}
variable {wins : Answer → Bool}

/-- How many calls of a history win. -/
def countWins (machine : Machine State Call fun _ => Answer) (wins : Answer → Bool) :
    State → List Call → ℕ
  | _, [] => 0
  | s, call :: calls =>
      (if wins (machine s call).1 then 1 else 0) + countWins machine wins (machine s call).2 calls

variable (opened : State → Call → Prop) {excludes : Call → Call → Prop}

/-- Without a call that the machine is open to, nothing happens. -/
theorem countWins_eq_zero (hwins : ∀ s call, wins (machine s call).1 = true → opened s call)
    (hidle : ∀ s call, ¬opened s call → (machine s call).2 = s) {s : State} {calls : List Call}
    (h : ∀ call ∈ calls, ¬opened s call) : countWins machine wins s calls = 0 := by
  induction calls with
  | nil => rfl
  | cons call calls ih =>
      have hshut := h call List.mem_cons_self
      rw [countWins, if_neg fun hwin => hshut (hwins s call hwin), hidle s call hshut, Nat.zero_add]
      exact ih fun later hlater => h later (List.mem_cons_of_mem _ hlater)

/-- Of calls that exclude each other, at most one wins. -/
theorem countWins_le_one (hwins : ∀ s call, wins (machine s call).1 = true → opened s call)
    (hidle : ∀ s call, ¬opened s call → (machine s call).2 = s)
    (hshuts : ∀ s call other, opened s call → excludes call other →
      ¬opened (machine s call).2 other)
    (s : State) {calls : List Call} (hcalls : calls.Pairwise excludes) :
    countWins machine wins s calls ≤ 1 := by
  induction calls generalizing s with
  | nil => exact Nat.zero_le 1
  | cons call calls ih =>
      obtain ⟨hfirst, hrest⟩ := List.pairwise_cons.mp hcalls
      rw [countWins]
      by_cases hopened : opened s call
      · have hzero : countWins machine wins (machine s call).2 calls = 0 :=
          countWins_eq_zero opened hwins hidle fun later hlater =>
            hshuts s call later hopened (hfirst later hlater)
        rw [hzero, Nat.add_zero]
        split <;> decide
      · rw [if_neg fun hwin => hopened (hwins s call hwin), Nat.zero_add]
        exact ih _ hrest

/-- A call that wins, and then another. -/
theorem two_le_countWins {s : State} {first second : Call} {rest : List Call}
    (hfirst : wins (machine s first).1 = true)
    (hsecond : wins (machine (machine s first).2 second).1 = true) :
    2 ≤ countWins machine wins s (first :: second :: rest) := by
  rw [countWins, countWins, if_pos hfirst, if_pos hsecond, ← Nat.add_assoc]
  exact Nat.le_add_right 2 _

omit opened in
/-- What relates the first two calls of every order relates any two calls. -/
theorem pairwise_of_perm {related : Call → Call → Prop} {calls : List Call}
    (h : ∀ first second rest, (first :: second :: rest).Perm calls → related first second) :
    calls.Pairwise fun first second => related first second ∧ related second first := by
  rw [List.pairwise_iff_forall_sublist]
  intro first second hsublist
  obtain ⟨rest, hperm⟩ := hsublist.exists_perm_append
  exact ⟨h first second rest hperm.symm,
    h second first rest ((List.Perm.swap first second rest).trans hperm.symm)⟩

end Wins

end Machine

end Soulbase.Foundation
