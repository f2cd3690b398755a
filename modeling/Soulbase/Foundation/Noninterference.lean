/-
# What a party learns of the others

A service answers the inputs of several parties from one state. A party is isolated from the rest
if the inputs of the others may be left out, and its own are answered as before.

`Unwinds` asks this of single steps: states that are alike to the party answer it alike and stay
alike, and inputs of the others lead to states that are alike. `Unwinds.answers_eq` draws the
conclusion about whole histories.
-/

import Mathlib.Data.List.Basic

namespace Soulbase.Foundation

universe u v w

/-- A state that is asked and changed by inputs. -/
structure Service (State : Type u) (Input : Type v) (Output : Type w) where
  serve : State → Input → Output × State

namespace Service

variable {State : Type u} {Input : Type v} {Output : Type w}

/-- The answers to the inputs of one party in a history. -/
def answers (service : Service State Input Output) (mine : Input → Bool) :
    State → List Input → List Output
  | _, [] => []
  | state, input :: rest =>
      if mine input then
        (service.serve state input).1 :: service.answers mine (service.serve state input).2 rest
      else service.answers mine (service.serve state input).2 rest

/-- What is asked of single steps, for inputs that are lawful. -/
structure Unwinds (service : Service State Input Output) (mine : Input → Bool)
    (lawful : Input → Prop) (alike : State → State → Prop) : Prop where
  /-- The party gets the same answers from states that are alike to it. -/
  answer {first second : State} {input : Input} : alike first second → lawful input →
    mine input = true → (service.serve first input).1 = (service.serve second input).1
  /-- Its inputs keep the states alike. -/
  keep {first second : State} {input : Input} : alike first second → lawful input →
    mine input = true → alike (service.serve first input).2 (service.serve second input).2
  /-- Inputs of the others do not show. -/
  other {first second : State} {input : Input} : alike first second → lawful input →
    mine input = false → alike (service.serve first input).2 second

variable {service : Service State Input Output} {mine : Input → Bool} {lawful : Input → Prop}
variable {alike : State → State → Prop}

/-- The inputs of the others may be left out. -/
theorem Unwinds.answers_eq (h : service.Unwinds mine lawful alike) {first second : State}
    (halike : alike first second) {inputs : List Input} (hlawful : ∀ input ∈ inputs, lawful input) :
    service.answers mine first inputs = service.answers mine second (inputs.filter mine) := by
  induction inputs generalizing first second with
  | nil => rfl
  | cons input inputs ih =>
      obtain ⟨hinput, hinputs⟩ := List.forall_mem_cons.mp hlawful
      rw [answers]
      cases hmine : mine input with
      | true =>
          rw [if_pos rfl, List.filter_cons_of_pos hmine, answers, if_pos hmine,
            h.answer halike hinput hmine, ih (h.keep halike hinput hmine) hinputs]
      | false =>
          rw [if_neg Bool.false_ne_true, List.filter_cons_of_neg (by simp [hmine])]
          exact ih (h.other halike hinput hmine) hinputs

end Service

end Soulbase.Foundation
