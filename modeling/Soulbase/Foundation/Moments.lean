/-
# Moments of a run

A program of a pool is answered call by call while everybody else moves on. What it returns at
the end rests on answers that were given at different moments, and each of them was true when
it was given and may be out of date by then. `runs_of_run` finds the moments: between a state
and the one in which the program has returned, every call of its run was answered in a step of
the system.
-/

import Soulbase.Foundation.Program
import Soulbase.Foundation.Transition

namespace Soulbase.Foundation

universe u v

namespace TransitionSystem

variable {State : Type u} {Label : Type v} {T : TransitionSystem State Label}
variable {source middle target : State} {label : Label} {labels : List Label}
variable {during during' : State → Label → State → Prop}

variable (T) in
/-- Something happens in a step of a run. -/
def Moment (source : State) (labels : List Label) (target : State)
    (during : State → Label → State → Prop) : Prop :=
  ∃ earlier before label after later, labels = earlier ++ label :: later ∧
    T.Run source earlier before ∧ T.step before label after ∧ T.Run after later target ∧
      during before label after

/-- The first step of a run is a moment of it. -/
theorem Moment.first (hstep : T.step source label middle) (hrun : T.Run middle labels target)
    (hduring : during source label middle) : T.Moment source (label :: labels) target during :=
  ⟨[], source, label, middle, labels, rfl, .nil source, hstep, hrun, hduring⟩

/-- A moment of the rest of a run is a moment of it. -/
theorem Moment.cons (hstep : T.step source label middle)
    (h : T.Moment middle labels target during) :
    T.Moment source (label :: labels) target during := by
  obtain ⟨earlier, before, now, after, later, rfl, hearlier, hnow, hlater, hduring⟩ := h
  exact ⟨label :: earlier, before, now, after, later, rfl, .cons hstep hearlier, hnow, hlater,
    hduring⟩

theorem Moment.mono (h : T.Moment source labels target during)
    (himp : ∀ before label after, during before label after → during' before label after) :
    T.Moment source labels target during' := by
  obtain ⟨earlier, before, now, after, later, heq, hearlier, hnow, hlater, hduring⟩ := h
  exact ⟨earlier, before, now, after, later, heq, hearlier, hnow, hlater,
    himp before now after hduring⟩

/-- The labels of a moment are labels of the run. -/
theorem Moment.mem (h : T.Moment source labels target during) :
    ∃ before label after, label ∈ labels ∧ during before label after := by
  obtain ⟨earlier, before, now, after, later, rfl, _, _, _, hduring⟩ := h
  exact ⟨before, now, after, List.mem_append_right _ List.mem_cons_self, hduring⟩

section Programs

variable {Op : Type*} {Res : Op → Type*} {α : Type*}

/-- A step leaves the program of a caller alone or answers its next call. -/
def Answers (thread : State → Program Op Res α)
    (answered : Sigma Res → State → Label → State → Prop)
    (before : State) (label : Label) (after : State) : Prop :=
  thread after = thread before ∨
    ∃ op resume answer, thread before = .call op resume ∧ thread after = resume answer ∧
      answered ⟨op, answer⟩ before label after

/-- A program that has returned has made its calls, each at a moment of the run. -/
theorem runs_of_run {thread : State → Program Op Res α}
    {answered : Sigma Res → State → Label → State → Prop} {value : α}
    (hrun : T.Run source labels target)
    (hstep : ∀ before label after, label ∈ labels → T.step before label after →
      Answers thread answered before label after)
    (hdone : thread target = .done value) :
    ∃ calls, Runs (thread source) calls value ∧
      ∀ call ∈ calls, T.Moment source labels target (answered call) := by
  induction hrun with
  | nil state =>
      rw [hdone]
      exact ⟨[], .done value, by simp⟩
  | @cons before between last now rest hnow hrest ih =>
      obtain ⟨calls, hruns, hmoments⟩ := ih
        (fun _ _ _ hmem => hstep _ _ _ (List.mem_cons_of_mem _ hmem)) hdone
      rcases hstep _ _ _ List.mem_cons_self hnow with hsame | ⟨op, resume, answer, hcall, hnext,
        hanswered⟩
      · rw [hsame] at hruns
        exact ⟨calls, hruns, fun call hcall => (hmoments call hcall).cons hnow⟩
      · rw [hnext] at hruns
        rw [hcall]
        refine ⟨⟨op, answer⟩ :: calls, .call hruns, ?_⟩
        intro call hmem
        rcases List.mem_cons.mp hmem with rfl | hmem
        · exact .first hnow hrest hanswered
        · exact (hmoments call hmem).cons hnow

end Programs

end TransitionSystem

end Soulbase.Foundation
