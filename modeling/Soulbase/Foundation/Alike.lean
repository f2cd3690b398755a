/-
# Answers that count as the same

Some answers differ in what a program has no business to look at. Two programs are alike if they
make the same calls, on any answers that count as the same, and return values that do. The rules
follow the programs, so that a program is found to be alike to itself part by part.

`Result.Alike` is the same for results that may fail. Where the steps of a system keep states
alike, its replays do: `rel_replay`.
-/

import Mathlib.Data.List.Forall2
import Soulbase.Foundation.Trail
import Soulbase.Foundation.Transition

namespace Soulbase.Foundation

universe u v w

/-- Both results are values that count as the same, or both are errors that do. -/
inductive Result.Alike {ε α β : Type*} (sameError : ε → ε → Prop) (related : α → β → Prop) :
    Except ε α → Except ε β → Prop
  | ok {value : α} {value' : β} : related value value' →
      Result.Alike sameError related (.ok value) (.ok value')
  | error {error error' : ε} : sameError error error' →
      Result.Alike sameError related (.error error) (.error error')

namespace Program

variable {Op : Type u} {Res : Op → Type v} {α β γ δ : Type w}

/-- Two programs that make the same calls as long as their answers count as the same, and then
return values that are related. -/
inductive Alike (same : (op : Op) → Res op → Res op → Prop) (related : α → β → Prop) :
    Program Op Res α → Program Op Res β → Prop
  | done {value : α} {value' : β} : related value value' →
      Alike same related (.done value) (.done value')
  | call {op : Op} {resume : Res op → Program Op Res α} {resume' : Res op → Program Op Res β} :
      (∀ answer answer', same op answer answer' →
        Alike same related (resume answer) (resume' answer')) →
      Alike same related (.call op resume) (.call op resume')

variable {same : (op : Op) → Res op → Res op → Prop}

theorem Alike.mono {related related' : α → β → Prop} {program : Program Op Res α}
    {program' : Program Op Res β} (h : Alike same related program program')
    (himplies : ∀ value value', related value value' → related' value value') :
    Alike same related' program program' := by
  induction h with
  | done hvalue => exact .done (himplies _ _ hvalue)
  | call _ ih => exact .call ih

theorem Alike.head?_eq {related : α → β → Prop} {program : Program Op Res α}
    {program' : Program Op Res β} (h : Alike same related program program') :
    program.head? = program'.head? := by
  cases h <;> rfl

/-- Parts that are alike make a whole that is. -/
theorem Alike.bind {middle : α → β → Prop} {related : γ → δ → Prop} {first : Program Op Res α}
    {first' : Program Op Res β} {second : α → Program Op Res γ} {second' : β → Program Op Res δ}
    (hfirst : Alike same middle first first')
    (hsecond : ∀ value value', middle value value' →
      Alike same related (second value) (second' value')) :
    Alike same related (first >>= second) (first' >>= second') := by
  induction hfirst with
  | done hvalue => exact hsecond _ _ hvalue
  | call _ ih => exact .call ih

/-- Where all answers are told apart, a program is alike to itself. -/
theorem alike_of_callsOnly {permits : Op → Prop} {program : Program Op Res α}
    (h : program.CallsOnly permits)
    (hpermits : ∀ op, permits op → ∀ answer answer', same op answer answer' → answer = answer') :
    Alike same Eq program program := by
  induction program with
  | done value => exact .done rfl
  | call op resume ih =>
      refine .call fun answer answer' hsame => ?_
      rw [← hpermits op h.1 answer answer' hsame]
      exact ih answer (h.2 answer trivial)

/-- A part of a larger program, whose answers are told apart as there. -/
theorem Alike.embed {Op' : Type u} {Res' : Op' → Type v} {into : Op → Op'}
    {answers : (op : Op) → Res' (into op) ≃ Res op}
    {same' : (op : Op') → Res' op → Res' op → Prop} {related : α → β → Prop}
    {program : Program Op Res α} {program' : Program Op Res β}
    (h : Alike same related program program')
    (hsame : ∀ op answer answer', same' (into op) answer answer' →
      same op (answers op answer) (answers op answer')) :
    Alike same' related (program.embed into answers) (program'.embed into answers) := by
  induction h with
  | done hvalue => exact .done hvalue
  | call _ ih => exact .call fun answer answer' h => ih _ _ (hsame _ _ _ h)

end Program

section Fallible

variable {Op : Type u} {Res : Op → Type v} {ε α β : Type w}
variable {same : (op : Op) → Res op → Res op → Prop} {sameError : ε → ε → Prop}

/-- Parts that may fail and are alike make a whole that is. -/
theorem alike_fallible_bind {middle : α → α → Prop} {related : β → β → Prop}
    {first first' : ExceptT ε (Program Op Res) α}
    {second second' : α → ExceptT ε (Program Op Res) β}
    (hfirst : Program.Alike same (Result.Alike sameError middle) first.run first'.run)
    (hsecond : ∀ value value', middle value value' →
      Program.Alike same (Result.Alike sameError related) (second value).run
        (second' value').run) :
    Program.Alike same (Result.Alike sameError related) (first >>= second).run
      (first' >>= second').run := by
  refine hfirst.bind ?_
  intro _ _ hresult
  cases hresult with
  | ok hvalue => exact hsecond _ _ hvalue
  | error herror => exact .done (.error herror)

end Fallible

/-- Where each step keeps related states related, or cannot be taken in either of them, so do
replays. By induction on what happens. -/
theorem rel_replay {State State' Label Label' : Type*} {next : State → Label → Option State}
    {next' : State' → Label' → Option State'} {related : State → State' → Prop}
    {same : Label → Label' → Prop}
    (hstep : ∀ state state' label label', related state state' → same label label' →
      Option.Rel related (next state label) (next' state' label'))
    {state : State} {state' : State'} {labels : List Label} {labels' : List Label'}
    (hstate : related state state') (hlabels : List.Forall₂ same labels labels') :
    Option.Rel related (TransitionSystem.replay next state labels)
      (TransitionSystem.replay next' state' labels') := by
  induction hlabels generalizing state state' with
  | nil => exact .some hstate
  | cons hlabel _ ih =>
      have hnext := hstep _ _ _ _ hstate hlabel
      rw [TransitionSystem.replay, TransitionSystem.replay]
      generalize next state _ = middle at hnext ⊢
      generalize next' state' _ = middle' at hnext ⊢
      cases hnext with
      | none => exact .none
      | some hmiddle => exact ih hmiddle

end Soulbase.Foundation
