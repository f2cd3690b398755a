/-
# Programs over programs

A program whose operations are carried out by programs over the operations of a layer below.
What the upper program calls is then a matter of its own, and how a call is carried out is one of
the layer: a property of calls passes down with `callsOnly_carryOut`, and a discipline of the layer
that every operation leaves as it finds it holds of all programs above it, by
`follows_carryOut`.
-/

import Soulbase.Foundation.Program

namespace Soulbase.Foundation

universe u

variable {Op Op' : Type*} {Res : Op → Type u} {Res' : Op' → Type*} {α : Type u}

namespace Program

/-- The program, with its operations carried out below. -/
def carryOut (below : (op : Op) → Program Op' Res' (Res op)) :
    Program Op Res α → Program Op' Res' α
  | done value => .done value
  | call op resume => below op >>= fun answer => (resume answer).carryOut below

variable {below : (op : Op) → Program Op' Res' (Res op)} {program : Program Op Res α}

/-- What may be called above is carried out by what may be called below. -/
theorem callsOnly_carryOut {permits : Op → Prop} {permits' : Op' → Prop}
    (h : program.CallsOnly permits) (hbelow : ∀ op, permits op → (below op).CallsOnly permits') :
    (program.carryOut below).CallsOnly permits' := by
  induction program with
  | done value => exact callsOnly_done value
  | call op resume ih =>
      exact callsOnly_bind (hbelow op h.1) fun answer => ih answer (h.2 answer trivial)

/-- Operations that keep a standing are made into programs that keep it. -/
theorem follows_carryOut {Standing : Type*} {D : Discipline Op' Res' Standing}
    {standing : Standing}
    (hbelow : ∀ op, (below op).Follows D (fun _ ended => ended = standing) standing)
    (program : Program Op Res α) :
    (program.carryOut below).Follows D (fun _ ended => ended = standing) standing := by
  induction program with
  | done value => exact rfl
  | call op resume ih =>
      refine (hbelow op).bind ?_
      rintro answer _ rfl
      exact ih answer

/-- A discipline above is one below, where the programs of the layer keep the standings related and
answer as the upper discipline expects. -/
theorem Follows.carryOut {Standing Standing' : Type*} {D : Discipline Op Res Standing}
    {D' : Discipline Op' Res' Standing'} {related : Standing → Standing' → Prop}
    {post : α → Standing → Prop} {standing : Standing} {standing' : Standing'}
    (h : program.Follows D post standing) (hrelated : related standing standing')
    (hbelow : ∀ op standing standing', related standing standing' → D.permits standing op →
      (below op).Follows D' (fun answer after' =>
        D.ensures op answer ∧ related (D.after standing op answer) after') standing') :
    (program.carryOut below).Follows D' (fun value after' =>
      ∃ after, post value after ∧ related after after') standing' := by
  induction program generalizing standing standing' with
  | done value => exact ⟨standing, h, hrelated⟩
  | call op resume ih =>
      refine (hbelow op standing standing' hrelated h.1).bind ?_
      rintro answer after' ⟨hanswer, hafter⟩
      exact ih answer (h.2 answer hanswer) hafter

end Program

end Soulbase.Foundation
