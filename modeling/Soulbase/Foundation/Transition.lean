/-
# Labelled transition systems

A system is a predicate on initial states and a labelled step relation. Safety
properties are stated of its reachable states and of its finite runs, and both
are proved from one step: `invariant` lifts a step lemma to every reachable
state, `Run.preserves` lifts it along a run.

`restrict` keeps only the steps that meet a side condition. A property that
fails of a system is often a property of a restriction of it, and the two are
then the same proposition about two systems.

`ofNext` reads a system off an executable step function. Its runs can be
replayed, so a concrete execution is a computation and not a derivation.
-/

import Mathlib.Data.Option.Basic
import Mathlib.Tactic.TypeStar

namespace Soulbase.Foundation

universe u v

/-- States that a system may start in, and what one labelled step may do. -/
structure TransitionSystem (State : Type u) (Label : Type v) where
  /-- The states a run may start from. -/
  init : State → Prop
  /-- The steps, each carrying the label that names what happened. -/
  step : State → Label → State → Prop

namespace TransitionSystem

variable {State : Type u} {Label : Type v}

/-- A finite run, with the labels of its steps in order. -/
inductive Run (T : TransitionSystem State Label) : State → List Label → State → Prop
  | nil (state : State) : Run T state [] state
  | cons {source middle target : State} {label : Label} {labels : List Label} :
      T.step source label middle → Run T middle labels target →
        Run T source (label :: labels) target

/-- The states some run from an initial state ends in. -/
inductive Reachable (T : TransitionSystem State Label) : State → Prop
  | init {state : State} : T.init state → Reachable T state
  | step {source target : State} {label : Label} :
      Reachable T source → T.step source label target → Reachable T target

variable {T : TransitionSystem State Label}

/-- A run continues a reachable state to a reachable state. -/
theorem Reachable.run {source target : State} {labels : List Label}
    (hsource : T.Reachable source) (hrun : T.Run source labels target) :
    T.Reachable target := by
  induction hrun with
  | nil _ => exact hsource
  | cons hstep _ ih => exact ih (hsource.step hstep)

/-- What holds initially and is kept by every step from a reachable state holds
of every reachable state. -/
theorem invariant (holds : State → Prop)
    (hinit : ∀ state, T.init state → holds state)
    (hstep : ∀ source label target, T.Reachable source → holds source →
      T.step source label target → holds target)
    {state : State} (hreach : T.Reachable state) : holds state := by
  induction hreach with
  | init h => exact hinit _ h
  | step hsource h ih => exact hstep _ _ _ hsource ih h

/-- What every step of a run keeps, the run keeps. The step lemma may use that
the state is reachable and that the label occurs in the run. -/
theorem Run.preserves (holds : State → Prop) {source target : State}
    {labels : List Label} (hrun : T.Run source labels target)
    (hreach : T.Reachable source)
    (hstep : ∀ before label after, label ∈ labels → T.Reachable before →
      holds before → T.step before label after → holds after)
    (hsource : holds source) : holds target := by
  induction hrun with
  | nil _ => exact hsource
  | cons h _ ih =>
      apply ih (hreach.step h)
      · intro before label after hmem
        exact hstep before label after (List.mem_cons_of_mem _ hmem)
      · exact hstep _ _ _ List.mem_cons_self hreach hsource h

/-- The same system, with only the steps that meet a side condition on the
state before the step and on its label. -/
def restrict (T : TransitionSystem State Label) (allowed : State → Label → Prop) :
    TransitionSystem State Label where
  init := T.init
  step source label target := allowed source label ∧ T.step source label target

/-- The system of a step function. A step that is not possible is `none`. -/
def ofNext (start : State) (next : State → Label → Option State) :
    TransitionSystem State Label where
  init state := state = start
  step source label target := next source label = some target

/-- Take the listed steps in order, or stop at the first impossible one. -/
def replay (next : State → Label → Option State) : State → List Label → Option State
  | state, [] => some state
  | state, label :: labels => (next state label).bind fun middle =>
      replay next middle labels

variable {start : State} {next : State → Label → Option State}

/-- A replay that succeeds is a run of any system that can take its steps. -/
theorem Run.of_replay {T : TransitionSystem State Label}
    (hnext : ∀ source label target, next source label = some target →
      T.step source label target)
    {source target : State} {labels : List Label} (h : replay next source labels = some target) :
    T.Run source labels target := by
  induction labels generalizing source with
  | nil =>
      cases h
      exact .nil _
  | cons label labels ih =>
      obtain ⟨middle, hmiddle, hrest⟩ := Option.bind_eq_some_iff.mp h
      exact .cons (hnext _ _ _ hmiddle) (ih hrest)

/-- A replay that succeeds is a run. -/
theorem run_of_replay {source target : State} {labels : List Label}
    (h : replay next source labels = some target) :
    (ofNext start next).Run source labels target :=
  .of_replay (fun _ _ _ hstep => hstep) h

/-- A state that a replay from the start computes is reachable. -/
theorem reachable_of_replay {target : State} (labels : List Label)
    (h : replay next start labels = some target) :
    (ofNext start next).Reachable target :=
  Reachable.run (.init rfl) (run_of_replay h)

/-- Take the listed steps in order, as long as each meets the side condition. -/
def replayWithin (next : State → Label → Option State)
    (allowed : State → Label → Prop) [∀ state label, Decidable (allowed state label)] :
    State → List Label → Option State
  | state, [] => some state
  | state, label :: labels =>
      if allowed state label then
        (next state label).bind fun middle => replayWithin next allowed middle labels
      else none

/-- A replay whose steps all meet the side condition is a run of the
restriction. -/
theorem run_of_replayWithin [∀ state label, Decidable (allowed state label)]
    {source target : State} {labels : List Label}
    (h : replayWithin next allowed source labels = some target) :
    ((ofNext start next).restrict allowed).Run source labels target := by
  induction labels generalizing source with
  | nil =>
      cases h
      exact .nil _
  | cons label labels ih =>
      rw [replayWithin] at h
      split at h
      case isTrue hallowed =>
        obtain ⟨middle, hmiddle, hrest⟩ := Option.bind_eq_some_iff.mp h
        exact .cons ⟨hallowed, hmiddle⟩ (ih hrest)
      case isFalse => cases h

theorem reachable_of_replayWithin [∀ state label, Decidable (allowed state label)]
    {source target : State} (labels : List Label)
    (hsource : ((ofNext start next).restrict allowed).Reachable source)
    (h : replayWithin next allowed source labels = some target) :
    ((ofNext start next).restrict allowed).Reachable target :=
  hsource.run (run_of_replayWithin h)

end TransitionSystem

end Soulbase.Foundation
