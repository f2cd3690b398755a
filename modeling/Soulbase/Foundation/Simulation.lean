/-
# Simulations

A relation between the states of two systems that every step of the left one keeps, with some
step of the right one, is a simulation: each reachable state on the left has a counterpart
on the right. With a simulation in both directions, whatever related states have in common
holds of all reachable states on both sides or on neither (`Bisimulation.transfer`).
-/

import Soulbase.Foundation.Transition

namespace Soulbase.Foundation

variable {Left Right LeftLabel RightLabel : Type*}

/-- Each step on the left is one on the right. -/
structure Simulation (T : TransitionSystem Left LeftLabel) (U : TransitionSystem Right RightLabel)
    (related : Left → Right → Prop) : Prop where
  init : ∀ s, T.init s → ∃ t, U.init t ∧ related s t
  step : ∀ s t label next, related s t → T.step s label next →
    ∃ label' next', U.step t label' next' ∧ related next next'

/-- Each step on one side is one on the other. -/
structure Bisimulation (T : TransitionSystem Left LeftLabel)
    (U : TransitionSystem Right RightLabel) (related : Left → Right → Prop) : Prop where
  forth : Simulation T U related
  back : Simulation U T fun t s => related s t

section Simulations

variable {T : TransitionSystem Left LeftLabel} {U : TransitionSystem Right RightLabel}
variable {related : Left → Right → Prop}

/-- Each reachable state on the left has its counterpart. -/
theorem Simulation.reachable (h : Simulation T U related) {s : Left} (hs : T.Reachable s) :
    ∃ t, U.Reachable t ∧ related s t := by
  induction hs with
  | init hinit =>
      obtain ⟨t, ht, hrelated⟩ := h.init _ hinit
      exact ⟨t, .init ht, hrelated⟩
  | step _ hstep ih =>
      obtain ⟨t, ht, hrelated⟩ := ih
      obtain ⟨_, next', hnext, hafter⟩ := h.step _ _ _ _ hrelated hstep
      exact ⟨next', ht.step hnext, hafter⟩

/-- What related states share, the systems share. -/
theorem Bisimulation.transfer (h : Bisimulation T U related) {onLeft : Left → Prop}
    {onRight : Right → Prop} (hsame : ∀ s t, related s t → (onLeft s ↔ onRight t)) :
    (∀ s, T.Reachable s → onLeft s) ↔ ∀ t, U.Reachable t → onRight t := by
  constructor
  · intro hleft t ht
    obtain ⟨s, hs, hrelated⟩ := h.back.reachable ht
    exact (hsame s t hrelated).mp (hleft s hs)
  · intro hright s hs
    obtain ⟨t, ht, hrelated⟩ := h.forth.reachable hs
    exact (hsame s t hrelated).mpr (hright t ht)

end Simulations

end Soulbase.Foundation
