/-
# Pre- and postconditions

What a program that may fail does to its environment, said by what holds before it, what
holds after it where it returns, and what holds after it where it fails. The rules follow
the way in which such programs are written: a sequence needs a condition in between, and a
loop over a list one that each round keeps.
-/

import Soulbase.Foundation.Program

namespace Soulbase.Foundation

universe u v w

section Triple

variable {Op : Type u} {Res : Op → Type v} {ε α β : Type w} {Choice Env : Type*}

/-- What holds in the end, for either way of ending. -/
def Ends (post : α → Env → Prop) (failed : ε → Env → Prop) : Except ε α → Env → Prop
  | .ok value => post value
  | .error error => failed error

/-- Where `pre` holds before the program, `post` holds after it if it returns, and `failed`
if it fails. -/
def Triple (H : Handler Op Res Choice Env) (pre : Env → Prop)
    (program : ExceptT ε (Program Op Res) α) (post : α → Env → Prop)
    (failed : ε → Env → Prop) : Prop :=
  ∀ env result last, pre env → Exec H program.run env result last → Ends post failed result last

variable {H : Handler Op Res Choice Env} {pre : Env → Prop} {failed : ε → Env → Prop}

/-- A sequence, by a condition in between. -/
theorem triple_bind {first : ExceptT ε (Program Op Res) α}
    {second : α → ExceptT ε (Program Op Res) β} {middle : α → Env → Prop}
    {post : β → Env → Prop} (hfirst : Triple H pre first middle failed)
    (hsecond : ∀ value, Triple H (middle value) (second value) post failed) :
    Triple H pre (first >>= second) post failed := by
  intro env result last hpre hexec
  rcases exec_fallible_bind_iff.mp hexec with ⟨error, hfail, rfl⟩ | ⟨value, between, hdone, hrest⟩
  · exact hfirst env _ last hpre hfail
  · exact hsecond value between result last (hfirst env _ between hpre hdone) hrest

/-- A call whose answer is not an error of the program. -/
theorem triple_lift {program : Program Op Res α} {post : α → Env → Prop}
    (h : ∀ env value last, pre env → Exec H program env value last → post value last) :
    Triple H pre (ExceptT.lift program) post failed := by
  intro env result last hpre hexec
  obtain ⟨value, rfl, hprogram⟩ := exec_lift_iff.mp hexec
  exact h env value last hpre hprogram

/-- A loop over a list keeps what each of its rounds keeps. -/
theorem triple_forM {Item : Type*} {body : Item → ExceptT ε (Program Op Res) PUnit}
    (h : ∀ item, Triple H pre (body item) (fun _ => pre) failed) (items : List Item) :
    Triple H pre (items.forM body) (fun _ => pre) failed := by
  induction items with
  | nil =>
      intro env result last hpre hexec
      obtain ⟨rfl, rfl⟩ := exec_done_iff.mp hexec
      exact hpre
  | cons item rest ih => exact triple_bind (h item) fun _ => ih

end Triple

end Soulbase.Foundation
