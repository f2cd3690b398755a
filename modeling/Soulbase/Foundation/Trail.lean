/-
# Runs with their calls

`Exec` says what a run leaves behind and `Runs` lists its calls. A `Trail` does both, so a
property of the calls of a program and an invariant of the environment can be used on the
same run.

`Handler.logged` keeps a log of who called what, from which the standing of every caller of a
pool can be read.

`Program.embed` lets a program whose operations are some of those of a larger program be
written once and then run as a part of it.
-/

import Mathlib.Logic.Equiv.Defs
import Soulbase.Foundation.Program

namespace Soulbase.Foundation

universe u v w

section Trail

variable {Op : Type u} {Res : Op → Type v} {α β : Type w} {Choice Env : Type*}

/-- The program, run alone from an environment, makes these calls, returns a value and
leaves an environment, for some choices of the environment. -/
inductive Trail (H : Handler Op Res Choice Env) :
    Program Op Res α → Env → List (Sigma Res) → α → Env → Prop
  | done (value : α) (env : Env) : Trail H (.done value) env [] value env
  | call {op : Op} {resume : Res op → Program Op Res α} {env middle last : Env}
      {choice : Choice} {answer : Res op} {calls : List (Sigma Res)} {value : α} :
      H env choice op = some (answer, middle) →
        Trail H (resume answer) middle calls value last →
          Trail H (.call op resume) env (⟨op, answer⟩ :: calls) value last

variable {H : Handler Op Res Choice Env} {program : Program Op Res α}
variable {env last : Env} {calls : List (Sigma Res)} {value result : α}

theorem trail_done_iff :
    Trail H (.done value) env calls result last ↔ calls = [] ∧ result = value ∧ last = env := by
  constructor
  · intro h
    cases h
    exact ⟨rfl, rfl, rfl⟩
  · rintro ⟨rfl, rfl, rfl⟩
    exact .done _ _

theorem trail_call_iff {op : Op} {resume : Res op → Program Op Res α} :
    Trail H (.call op resume) env calls value last ↔
      ∃ choice answer middle rest, calls = ⟨op, answer⟩ :: rest ∧
        H env choice op = some (answer, middle) ∧
          Trail H (resume answer) middle rest value last := by
  constructor
  · intro h
    cases h with
    | call hop hrest => exact ⟨_, _, _, _, rfl, hop, hrest⟩
  · rintro ⟨choice, answer, middle, rest, rfl, hop, hrest⟩
    exact .call hop hrest

/-- The trail of a sequence is made of those of its parts. -/
theorem trail_bind_iff {first : Program Op Res α} {second : α → Program Op Res β} {result : β} :
    Trail H (first >>= second) env calls result last ↔
      ∃ before value middle after, calls = before ++ after ∧
        Trail H first env before value middle ∧
          Trail H (second value) middle after result last := by
  induction first generalizing env calls with
  | done value =>
      constructor
      · intro h
        exact ⟨[], value, env, calls, rfl, .done _ _, h⟩
      · rintro ⟨before, value, middle, after, rfl, hfirst, hsecond⟩
        obtain ⟨rfl, rfl, rfl⟩ := trail_done_iff.mp hfirst
        exact hsecond
  | call op resume ih =>
      rw [Program.call_bind, trail_call_iff]
      constructor
      · rintro ⟨choice, answer, between, rest, rfl, hop, hrest⟩
        obtain ⟨before, value, middle, after, rfl, hfirst, hsecond⟩ := (ih answer).mp hrest
        exact ⟨⟨op, answer⟩ :: before, value, middle, after, rfl, .call hop hfirst, hsecond⟩
      · rintro ⟨before, value, middle, after, rfl, hfirst, hsecond⟩
        obtain ⟨choice, answer, between, rest, rfl, hop, hrest⟩ := trail_call_iff.mp hfirst
        exact ⟨choice, answer, between, rest ++ after, rfl, hop,
          (ih answer).mpr ⟨rest, value, middle, after, rfl, hrest, hsecond⟩⟩

/-- The calls of a trail are a run of the program. -/
theorem Trail.runs (h : Trail H program env calls value last) : Runs program calls value := by
  induction h with
  | done value env => exact .done value
  | call _ _ ih => exact .call ih

/-- What every call keeps, given the calls before it, a trail keeps. -/
theorem Trail.preserves (h : Trail H program env calls value last)
    (holds : List (Sigma Res) → Env → Prop)
    (hcall : ∀ before env choice op answer next, H env choice op = some (answer, next) →
      holds before env → holds (before ++ [⟨op, answer⟩]) next)
    {before : List (Sigma Res)} (henv : holds before env) : holds (before ++ calls) last := by
  induction h generalizing before with
  | done value env => simpa using henv
  | call hop _ ih =>
      have hnext := ih (hcall _ _ _ _ _ _ hop henv)
      rwa [List.append_assoc] at hnext

/-- Every call of a trail was answered in an environment of which holds what the calls
before it keep. -/
theorem Trail.answered (h : Trail H program env calls value last)
    (holds : List (Sigma Res) → Env → Prop)
    (hcall : ∀ before env choice op answer next, H env choice op = some (answer, next) →
      holds before env → holds (before ++ [⟨op, answer⟩]) next)
    {before : List (Sigma Res)} (henv : holds before env) {call : Sigma Res}
    (hmem : call ∈ calls) :
    ∃ earlier env choice next, earlier ⊆ before ++ calls ∧ holds earlier env ∧
      H env choice call.1 = some (call.2, next) := by
  induction h generalizing before with
  | done value env => cases hmem
  | @call op resume env middle last choice answer rest value hop _ ih =>
      rcases List.mem_cons.mp hmem with rfl | hrest
      · exact ⟨before, env, choice, middle, List.subset_append_left _ _, henv, hop⟩
      · obtain ⟨earlier, env', choice', next, hsub, hholds, hanswer⟩ :=
          ih (hcall _ _ _ _ _ _ hop henv) hrest
        rw [List.append_assoc] at hsub
        exact ⟨earlier, env', choice', next, hsub, hholds, hanswer⟩

/-- The standing after some calls. -/
def Discipline.afterAll {Standing : Type*} (D : Discipline Op Res Standing) (begun : Standing)
    (calls : List (Sigma Res)) : Standing :=
  calls.foldl (fun standing call => D.after standing call.1 call.2) begun

theorem Discipline.afterAll_concat {Standing : Type*} (D : Discipline Op Res Standing)
    (begun : Standing) (calls : List (Sigma Res)) (call : Sigma Res) :
    D.afterAll begun (calls ++ [call]) = D.after (D.afterAll begun calls) call.1 call.2 := by
  rw [afterAll, List.foldl_append]
  rfl

/-- What every permitted call keeps, given the calls before it, the trail of a program that
follows the discipline keeps, and it ends as the discipline says. -/
theorem Trail.follows {Standing : Type*} {D : Discipline Op Res Standing} {begun : Standing}
    {post : α → Standing → Prop} (h : Trail H program env calls value last)
    (holds : List (Sigma Res) → Env → Prop)
    (hcall : ∀ before env choice op answer next, D.permits (D.afterAll begun before) op →
      H env choice op = some (answer, next) → holds before env →
        D.ensures op answer ∧ holds (before ++ [⟨op, answer⟩]) next)
    {before : List (Sigma Res)} (hfollows : program.Follows D post (D.afterAll begun before))
    (henv : holds before env) :
    post value (D.afterAll begun (before ++ calls)) ∧ holds (before ++ calls) last := by
  induction h generalizing before with
  | done value env => simpa using ⟨hfollows, henv⟩
  | @call op resume env middle last choice answer rest value hop _ ih =>
      obtain ⟨hpermits, hrest⟩ := hfollows
      obtain ⟨hensures, hmiddle⟩ := hcall _ _ _ _ _ _ hpermits hop henv
      have hnext := hrest answer hensures
      rw [← D.afterAll_concat begun before ⟨op, answer⟩] at hnext
      have hlast := ih hnext hmiddle
      rwa [List.append_assoc] at hlast

/-- The same from the beginning on. -/
theorem Trail.follows_all {Standing : Type*} {D : Discipline Op Res Standing} {begun : Standing}
    {post : α → Standing → Prop} (h : Trail H program env calls value last)
    (hfollows : program.Follows D post begun) (holds : List (Sigma Res) → Env → Prop)
    (hcall : ∀ before env choice op answer next, D.permits (D.afterAll begun before) op →
      H env choice op = some (answer, next) → holds before env →
        D.ensures op answer ∧ holds (before ++ [⟨op, answer⟩]) next)
    (henv : holds [] env) : post value (D.afterAll begun calls) ∧ holds calls last := by
  have hbegun : program.Follows D post (D.afterAll begun []) := hfollows
  have hall := h.follows holds hcall hbegun henv
  rwa [List.nil_append] at hall

/-- Run a program on a list of choices, with its calls. -/
def trailWith (H : Handler Op Res Choice Env) :
    List Choice → Program Op Res α → Env → Option (List (Sigma Res) × α × Env)
  | _, .done value, env => some ([], value, env)
  | [], .call _ _, _ => none
  | choice :: choices, .call op resume, env =>
      (H env choice op).bind fun outcome =>
        (trailWith H choices (resume outcome.1) outcome.2).map fun rest =>
          (⟨op, outcome.1⟩ :: rest.1, rest.2)

/-- A computed trail is a trail. -/
theorem trail_of_trailWith (choices : List Choice)
    (h : trailWith H choices program env = some (calls, value, last)) :
    Trail H program env calls value last := by
  induction choices generalizing program env calls with
  | nil =>
      cases program with
      | done result =>
          cases h
          exact .done _ _
      | call op resume => cases h
  | cons choice choices ih =>
      cases program with
      | done result =>
          cases h
          exact .done _ _
      | call op resume =>
          obtain ⟨outcome, hop, hrest⟩ := Option.bind_eq_some_iff.mp h
          obtain ⟨⟨rest, result, env'⟩, hrun, heq⟩ := Option.map_eq_some_iff.mp hrest
          cases heq
          exact .call hop (ih hrun)

end Trail

section Logged

variable {ι : Type*} {Op : Type u} {Res : Op → Type v} {α : Type w} {Choice Env : Type*}

/-- An environment, with the calls that were made and who made them, the latest first. -/
structure Logged (ι : Type*) (Op : Type u) (Res : Op → Type v) (Env : Type*) where
  env : Env
  log : List (ι × Sigma Res)

/-- The calls of a caller are logged. -/
def Handler.logged (H : Handler Op Res Choice Env) (caller : ι) :
    Handler Op Res Choice (Logged ι Op Res Env) :=
  fun state choice op => (H state.env choice op).map fun outcome =>
    (outcome.1, { env := outcome.2, log := (caller, ⟨op, outcome.1⟩) :: state.log })

theorem Handler.logged_eq_some_iff {H : Handler Op Res Choice Env} {caller : ι}
    {state next : Logged ι Op Res Env} {choice : Choice} {op : Op} {answer : Res op} :
    H.logged caller state choice op = some (answer, next) ↔
      ∃ env, H state.env choice op = some (answer, env) ∧
        next = { env := env, log := (caller, ⟨op, answer⟩) :: state.log } := by
  rw [Handler.logged, Option.map_eq_some_iff]
  constructor
  · rintro ⟨⟨given, env⟩, hop, heq⟩
    cases heq
    exact ⟨env, hop, rfl⟩
  · rintro ⟨env, hop, rfl⟩
    exact ⟨(answer, env), hop, rfl⟩

variable [DecidableEq ι] {Standing : Type*}

/-- The standing of a caller after all that is logged. -/
def Discipline.standing (D : Discipline Op Res Standing) (begun : Standing) :
    List (ι × Sigma Res) → ι → Standing
  | [] => fun _ => begun
  | (caller, call) :: log =>
      let earlier := D.standing begun log
      Function.update earlier caller (D.after (earlier caller) call.1 call.2)

end Logged

section Embed

variable {Op Op' : Type u} {Res : Op → Type v} {Res' : Op' → Type v} {α : Type w}
variable {into : Op → Op'} {answers : (op : Op) → Res' (into op) ≃ Res op}

/-- A program, with its operations taken for some of those of a larger program. -/
def Program.embed (into : Op → Op') (answers : (op : Op) → Res' (into op) ≃ Res op) :
    Program Op Res α → Program Op' Res' α
  | done value => .done value
  | call op resume => .call (into op) fun answer => (resume (answers op answer)).embed into answers

/-- A call, taken for one of the larger program. -/
def embedCall (answers : (op : Op) → Res' (into op) ≃ Res op) (call : Sigma Res) : Sigma Res' :=
  ⟨into call.1, (answers call.1).symm call.2⟩

/-- The part runs as it does alone. -/
theorem runs_embed_iff {program : Program Op Res α} {calls : List (Sigma Res')} {value : α} :
    Runs (program.embed into answers) calls value ↔
      ∃ inner, calls = inner.map (embedCall answers) ∧ Runs program inner value := by
  induction program generalizing calls with
  | done result =>
      rw [Program.embed, runs_done_iff]
      constructor
      · rintro ⟨rfl, rfl⟩
        exact ⟨[], rfl, .done _⟩
      · rintro ⟨inner, rfl, h⟩
        obtain ⟨rfl, rfl⟩ := runs_done_iff.mp h
        exact ⟨rfl, rfl⟩
  | call op resume ih =>
      rw [Program.embed, runs_call_iff]
      constructor
      · rintro ⟨answer, rest, rfl, hrest⟩
        obtain ⟨inner, rfl, hinner⟩ := (ih _).mp hrest
        refine ⟨⟨op, answers op answer⟩ :: inner, ?_, .call hinner⟩
        simp [embedCall]
      · rintro ⟨inner, rfl, h⟩
        obtain ⟨answer, rest, rfl, hrest⟩ := runs_call_iff.mp h
        refine ⟨(answers op).symm answer, rest.map (embedCall answers), rfl, ?_⟩
        rw [Equiv.apply_symm_apply]
        exact (ih answer).mpr ⟨rest, rfl, hrest⟩

/-- A part that only makes permitted calls does so in the larger program. -/
theorem Program.callsOnly_embed {permits : Op' → Prop} (program : Program Op Res α)
    (h : ∀ op, permits (into op)) : (program.embed into answers).CallsOnly permits := by
  induction program with
  | done value => exact Program.callsOnly_done value
  | call op resume ih => exact ⟨h op, fun answer _ => ih (answers op answer)⟩

end Embed

end Soulbase.Foundation
