/-
# Permits

Tasks share a semaphore. A task is a program that is given up at any time or goes on to its end,
and in both cases the permits that it holds go back. A call that takes a permit is answered
only while one is left; all other calls are answered by the environment.

Whatever the tasks are, no permit is lost or made. Where they are `Disciplined`, that is, where
none asks for a second permit and the guarded calls are only made with a permit, there
are never more guarded calls under way than permits. Where all are held and the calls of their
holders are answered, any one of the holders can go on, alone and without giving up, until its
permit is back: `freed`.
-/

import Mathlib.Data.Finset.Card
import Mathlib.Data.List.Count
import Soulbase.Foundation.Program
import Soulbase.Foundation.Transition

namespace Soulbase.Foundation

universe u v w

/-- How calls use a semaphore. -/
structure PermitUse (Op : Type u) (Res : Op → Type v) where
  /-- What a call that takes a permit returns with it. -/
  taken : (op : Op) → Option (Res op)
  /-- What a call that puts a permit back returns. -/
  given : (op : Op) → Option (Res op)
  /-- Whether a call needs a permit. -/
  guarded : Op → Bool

namespace PermitUse

variable {Op : Type u} {Res : Op → Type v} (use : PermitUse Op Res)

/-- Whether the caller holds a permit after a call. -/
def after (held : Bool) (op : Op) : Bool :=
  if (use.taken op).isSome then true else if (use.given op).isSome then false else held

/-- One permit at most is held, and one is held by who makes a guarded call. -/
def discipline : Discipline Op Res Bool where
  permits held op :=
    ((use.taken op).isSome = true → held = false) ∧
      ((use.given op).isSome = true → held = true) ∧ (use.guarded op = true → held = true)
  ensures _ _ := True
  after held op _ := use.after held op

/-- The program obeys the semaphore, from a start without a permit. -/
def Disciplined {α : Type w} (program : Program Op Res α) : Prop :=
  program.Follows use.discipline (fun _ _ => True) false

/-- A call that leaves the semaphore alone. -/
def isFree (op : Op) : Prop := use.taken op = none ∧ use.given op = none

/-- A call that leaves the semaphore alone, and needs no permit. -/
def isOpen (op : Op) : Prop := use.isFree op ∧ use.guarded op = false

variable {use}

theorem after_of_isFree {op : Op} (h : use.isFree op) (held : Bool) : use.after held op = held := by
  rw [after, h.1, h.2]
  rfl

theorem permits_of_isOpen {op : Op} (h : use.isOpen op) (held : Bool) :
    use.discipline.permits held op := by
  obtain ⟨⟨htaken, hgiven⟩, hguarded⟩ := h
  simp [discipline, htaken, hgiven, hguarded]

theorem permits_of_isFree {op : Op} (h : use.isFree op) : use.discipline.permits true op := by
  simp [discipline, h.1, h.2]

section Programs

variable {α : Type w} {program : Program Op Res α} {held : Bool}

/-- Nothing is to be said of a program that has nothing to do with the semaphore. -/
theorem follows_of_isOpen (h : program.CallsOnly use.isOpen) :
    program.Follows use.discipline (fun _ ended => ended = held) held := by
  refine h.follows ?_ (fun _ _ _ _ hstays => hstays) rfl
  rintro _ op rfl hop
  exact ⟨permits_of_isOpen hop _, fun _ => after_of_isFree hop.1 _⟩

/-- With a permit, a program may make guarded calls, too. -/
theorem follows_of_isFree (h : program.CallsOnly use.isFree) :
    program.Follows use.discipline (fun _ ended => ended = true) true := by
  refine h.follows ?_ (fun _ _ _ _ hstays => hstays) rfl
  rintro _ op rfl hop
  exact ⟨permits_of_isFree hop, fun _ => after_of_isFree hop _⟩

end Programs

end PermitUse

/-- Tasks with a semaphore. Who holds two permits is listed twice. -/
structure PermitPool (ι : Type*) (Op : Type u) (Res : Op → Type v) (α : Type w)
    (Env : Type*) where
  shared : Env
  available : ℕ
  holders : List ι
  tasks : ι → Option (Program Op Res α)

/-- What may happen next. -/
inductive PermitAction (ι Task Choice : Type*)
  /-- A task is begun. -/
  | begin (i : ι) (task : Task)
  /-- A task makes its next call. -/
  | call (i : ι) (choice : Choice)
  /-- A task has returned, or is given up. -/
  | leave (i : ι)

/-- A task that is under way makes its next call, or leaves where it has returned. -/
inductive PermitPool.GoesOn {ι Op Task Choice α Env : Type*} {Res : Op → Type*}
    (pool : PermitPool ι Op Res α Env) (i : ι) : PermitAction ι Task Choice → Prop
  | call (choice : Choice) : GoesOn pool i (.call i choice)
  | leave {value : α} : pool.tasks i = some (.done value) → GoesOn pool i (.leave i)

section Pool

variable {ι : Type*} [DecidableEq ι] {Op : Type u} {Res : Op → Type v} {α : Type w}
variable {Env Task Choice : Type*}

namespace PermitPool

/-- The place of nobody is given to a task. -/
def begin (pool : PermitPool ι Op Res α Env) (i : ι) (program : Program Op Res α) :
    Option (PermitPool ι Op Res α Env) :=
  match pool.tasks i with
  | none => some { pool with tasks := Function.update pool.tasks i (some program) }
  | some _ => none

/-- A permit is taken. -/
def take (pool : PermitPool ι Op Res α Env) (i : ι) (rest : Program Op Res α) :
    Option (PermitPool ι Op Res α Env) :=
  if 0 < pool.available then
    some { pool with
      available := pool.available - 1
      holders := i :: pool.holders
      tasks := Function.update pool.tasks i (some rest) }
  else none

/-- A permit is put back. -/
def give (pool : PermitPool ι Op Res α Env) (i : ι) (rest : Program Op Res α) :
    Option (PermitPool ι Op Res α Env) :=
  if i ∈ pool.holders then
    some { pool with
      available := pool.available + 1
      holders := pool.holders.erase i
      tasks := Function.update pool.tasks i (some rest) }
  else none

/-- The environment answers a call. -/
def ask (H : Handler Op Res Choice Env) (pool : PermitPool ι Op Res α Env) (i : ι)
    (choice : Choice) (op : Op) (resume : Res op → Program Op Res α) :
    Option (PermitPool ι Op Res α Env) :=
  (H pool.shared choice op).map fun outcome =>
    { pool with
      shared := outcome.2
      tasks := Function.update pool.tasks i (some (resume outcome.1)) }

/-- A task makes its next call. -/
def call (use : PermitUse Op Res) (H : Handler Op Res Choice Env)
    (pool : PermitPool ι Op Res α Env) (i : ι) (choice : Choice) :
    Option (PermitPool ι Op Res α Env) :=
  match pool.tasks i with
  | some (.call op resume) =>
      match use.taken op, use.given op with
      | some answer, _ => pool.take i (resume answer)
      | none, some answer => pool.give i (resume answer)
      | none, none => pool.ask H i choice op resume
  | _ => none

/-- A task ends, finished or not, and its permits go back. -/
def leave (pool : PermitPool ι Op Res α Env) (i : ι) : PermitPool ι Op Res α Env where
  shared := pool.shared
  available := pool.available + pool.holders.count i
  holders := pool.holders.filter (· ≠ i)
  tasks := Function.update pool.tasks i none

/-- The step function. -/
def next (use : PermitUse Op Res) (H : Handler Op Res Choice Env)
    (program : Task → Program Op Res α) (pool : PermitPool ι Op Res α Env) :
    PermitAction ι Task Choice → Option (PermitPool ι Op Res α Env)
  | .begin i task => pool.begin i (program task)
  | .call i choice => pool.call use H i choice
  | .leave i => some (pool.leave i)

/-- `Semaphore::new`, and no task. -/
def start (limit : ℕ) (env : Env) : PermitPool ι Op Res α Env where
  shared := env
  available := limit
  holders := []
  tasks _ := none

/-- The system of a semaphore and its tasks. -/
def system (use : PermitUse Op Res) (H : Handler Op Res Choice Env)
    (program : Task → Program Op Res α) (limit : ℕ) (env : Env) :
    TransitionSystem (PermitPool ι Op Res α Env) (PermitAction ι Task Choice) :=
  .ofNext (start limit env) (next use H program)

/-- The next call of a task. -/
def asks (pool : PermitPool ι Op Res α Env) (i : ι) : Option Op :=
  (pool.tasks i).bind Program.head?

/-- A task is in the middle of a guarded call. -/
def Guarded (use : PermitUse Op Res) (pool : PermitPool ι Op Res α Env) (i : ι) : Prop :=
  ∃ op, pool.asks i = some op ∧ use.guarded op = true

/-- A task waits for a permit. -/
def Waits (use : PermitUse Op Res) (pool : PermitPool ι Op Res α Env) (i : ι) : Prop :=
  pool.available = 0 ∧ ∃ op, pool.asks i = some op ∧ (use.taken op).isSome = true

variable {use : PermitUse Op Res} {H : Handler Op Res Choice Env}
variable {program : Task → Program Op Res α} {pool after : PermitPool ι Op Res α Env}
variable {i : ι} {limit : ℕ} {env : Env}

/-- All that one call can do. -/
theorem call_cases {choice : Choice} (h : pool.call use H i choice = some after) :
    ∃ op resume answer, pool.tasks i = some (.call op resume) ∧
      after.tasks = Function.update pool.tasks i (some (resume answer)) ∧
      ((use.taken op = some answer ∧ pool.available = after.available + 1 ∧
          after.holders = i :: pool.holders) ∨
        (use.taken op = none ∧ use.given op = some answer ∧ i ∈ pool.holders ∧
          after.available = pool.available + 1 ∧ after.holders = pool.holders.erase i) ∨
        (use.isFree op ∧ after.available = pool.available ∧ after.holders = pool.holders)) := by
  unfold call at h
  split at h
  case h_2 => cases h
  case h_1 op resume htask =>
    refine ⟨op, resume, ?_⟩
    split at h
    case h_1 _ answer htaken =>
      obtain ⟨hpositive, hafter⟩ := Option.ite_none_right_eq_some.mp h
      cases hafter
      exact ⟨answer, htask, rfl, .inl ⟨htaken, (Nat.sub_add_cancel hpositive).symm, rfl⟩⟩
    case h_2 answer htaken hgiven =>
      obtain ⟨hmem, hafter⟩ := Option.ite_none_right_eq_some.mp h
      cases hafter
      exact ⟨answer, htask, rfl, .inr (.inl ⟨htaken, hgiven, hmem, rfl, rfl⟩)⟩
    case h_3 htaken hgiven =>
      obtain ⟨outcome, _, rfl⟩ := Option.map_eq_some_iff.mp h
      exact ⟨outcome.1, htask, rfl, .inr (.inr ⟨⟨htaken, hgiven⟩, rfl, rfl⟩)⟩

/-- All that a beginning can do. -/
theorem begin_cases {begun : Program Op Res α} (h : pool.begin i begun = some after) :
    pool.tasks i = none ∧
      after = { pool with tasks := Function.update pool.tasks i (some begun) } := by
  unfold begin at h
  split at h
  case h_1 htask => exact ⟨htask, (Option.some.inj h).symm⟩
  case h_2 => cases h

theorem length_leave (pool : PermitPool ι Op Res α Env) (i : ι) :
    (pool.leave i).available + (pool.leave i).holders.length =
      pool.available + pool.holders.length := by
  have hsplit := List.length_eq_countP_add_countP (fun j => decide (j = i)) (l := pool.holders)
  have hcount : pool.holders.countP (fun j => decide (j = i)) = pool.holders.count i := by
    rw [List.count]
    exact List.countP_congr fun j _ => by simp
  have hfilter : (pool.holders.filter (· ≠ i)).length =
      pool.holders.countP fun j => decide ¬decide (j = i) = true := by
    rw [← List.countP_eq_length_filter]
    exact List.countP_congr fun j _ => by simp
  rw [leave]
  dsimp only
  omega

/-- No permit is lost or made. -/
theorem conserved (h : (system use H program limit env).Reachable pool) :
    pool.available + pool.holders.length = limit := by
  refine TransitionSystem.invariant
    (fun pool : PermitPool ι Op Res α Env => pool.available + pool.holders.length = limit) ?_ ?_ h
  · rintro _ rfl
    rfl
  · intro source label target _ hsource hstep
    cases label with
    | begin i task =>
        obtain ⟨_, rfl⟩ := begin_cases hstep
        exact hsource
    | call i choice =>
        obtain ⟨op, resume, answer, _, _, hcases⟩ := call_cases hstep
        rcases hcases with ⟨_, havailable, hholders⟩ | ⟨_, _, hmem, havailable, hholders⟩ |
          ⟨_, havailable, hholders⟩
        · rw [hholders, List.length_cons]
          omega
        · have hpositive := List.length_pos_of_mem hmem
          rw [hholders, List.length_erase_of_mem hmem, havailable]
          omega
        · rw [hholders, havailable, hsource]
    | leave i =>
        cases hstep
        rw [length_leave, hsource]

/-! ## Disciplined tasks -/

/-- Who holds permits, and what tasks may still do. -/
structure Ordered (use : PermitUse Op Res) (pool : PermitPool ι Op Res α Env) : Prop where
  nodup : pool.holders.Nodup
  present : ∀ i ∈ pool.holders, pool.tasks i ≠ none
  follows : ∀ i rest, pool.tasks i = some rest →
    rest.Follows use.discipline (fun _ _ => True) (decide (i ∈ pool.holders))

theorem ordered_start : (start limit env : PermitPool ι Op Res α Env).Ordered use where
  nodup := List.nodup_nil
  present _ h := by cases h
  follows _ _ h := by cases h

theorem Ordered.begin {begun : Program Op Res α} (h : pool.Ordered use)
    (hbegun : use.Disciplined begun) (hstep : pool.begin i begun = some after) :
    after.Ordered use := by
  obtain ⟨hnone, rfl⟩ := begin_cases hstep
  have hout : i ∉ pool.holders := fun hmem => h.present i hmem hnone
  refine ⟨h.nodup, ?_, ?_⟩
  · intro j hj
    have hne : j ≠ i := fun heq => hout (heq ▸ hj)
    dsimp only
    rw [Function.update_of_ne hne]
    exact h.present j hj
  · intro j rest hrest
    dsimp only at hrest ⊢
    by_cases hj : j = i
    · subst hj
      rw [Function.update_self, Option.some.injEq] at hrest
      rw [decide_eq_false hout, ← hrest]
      exact hbegun
    · rw [Function.update_of_ne hj] at hrest
      exact h.follows j rest hrest

/-- A call moves its caller on in its new standing. -/
theorem Ordered.of_call (h : pool.Ordered use) {op : Op} {resume : Res op → Program Op Res α}
    {answer : Res op} (htask : pool.tasks i = some (.call op resume))
    (htasks : after.tasks = Function.update pool.tasks i (some (resume answer)))
    (hnodup : after.holders.Nodup)
    (hcaller : decide (i ∈ after.holders) = use.after (decide (i ∈ pool.holders)) op)
    (hothers : ∀ j, j ≠ i → (j ∈ after.holders ↔ j ∈ pool.holders)) : after.Ordered use := by
  refine ⟨hnodup, ?_, ?_⟩
  · intro j hj
    rw [htasks]
    by_cases hji : j = i
    · rw [hji, Function.update_self]
      exact Option.some_ne_none _
    · rw [Function.update_of_ne hji]
      exact h.present j ((hothers j hji).mp hj)
  · intro j rest hrest
    rw [htasks] at hrest
    by_cases hji : j = i
    · rw [hji, Function.update_self, Option.some.injEq] at hrest
      rw [hji, hcaller, ← hrest]
      exact (h.follows i _ htask).2 answer trivial
    · rw [Function.update_of_ne hji] at hrest
      rw [decide_eq_decide.mpr (hothers j hji)]
      exact h.follows j rest hrest

theorem Ordered.call {choice : Choice} (h : pool.Ordered use)
    (hstep : pool.call use H i choice = some after) : after.Ordered use := by
  obtain ⟨op, resume, answer, htask, htasks, hcases⟩ := call_cases hstep
  obtain ⟨⟨hfresh, _⟩, _⟩ := h.follows i _ htask
  rcases hcases with ⟨htaken, _, hholders⟩ | ⟨htaken, hgiven, _, _, hholders⟩ |
    ⟨hfree, _, hholders⟩
  · have hout : i ∉ pool.holders := of_decide_eq_false (hfresh (by rw [htaken]; rfl))
    refine h.of_call htask htasks ?_ ?_ ?_
    · rw [hholders]
      exact List.nodup_cons.mpr ⟨hout, h.nodup⟩
    · rw [hholders, decide_eq_true List.mem_cons_self, PermitUse.after, htaken]
      rfl
    · intro j hj
      rw [hholders, List.mem_cons, or_iff_right hj]
  · refine h.of_call htask htasks ?_ ?_ ?_
    · rw [hholders]
      exact h.nodup.erase i
    · rw [hholders, decide_eq_false h.nodup.not_mem_erase, PermitUse.after, htaken, hgiven]
      rfl
    · intro j hj
      rw [hholders, List.mem_erase_of_ne hj]
  · refine h.of_call htask htasks ?_ ?_ ?_
    · rw [hholders]
      exact h.nodup
    · rw [hholders, PermitUse.after_of_isFree hfree]
    · intro j _
      rw [hholders]

theorem Ordered.leave (h : pool.Ordered use) : (pool.leave i).Ordered use := by
  have hmem : ∀ j, j ∈ (pool.leave i).holders ↔ j ∈ pool.holders ∧ j ≠ i := by
    intro j
    rw [PermitPool.leave]
    simp
  refine ⟨h.nodup.filter _, ?_, ?_⟩
  · intro j hj
    obtain ⟨hj, hne⟩ := (hmem j).mp hj
    rw [PermitPool.leave]
    dsimp only
    rw [Function.update_of_ne hne]
    exact h.present j hj
  · intro j rest hrest
    rw [PermitPool.leave] at hrest
    dsimp only at hrest
    have hne : j ≠ i := by
      rintro rfl
      rw [Function.update_self] at hrest
      cases hrest
    rw [Function.update_of_ne hne] at hrest
    rw [decide_eq_decide.mpr ((hmem j).trans (and_iff_left hne))]
    exact h.follows j rest hrest

/-- Disciplined tasks stay in order. -/
theorem ordered (hprogram : ∀ task, use.Disciplined (program task))
    (h : (system use H program limit env).Reachable pool) : pool.Ordered use := by
  refine TransitionSystem.invariant (Ordered use) ?_ ?_ h
  · rintro _ rfl
    exact ordered_start
  · intro source label target _ hsource hstep
    cases label with
    | begin i task => exact hsource.begin (hprogram task) hstep
    | call i choice => exact hsource.call hstep
    | leave i =>
        cases hstep
        exact hsource.leave

/-- Whoever holds a permit can go on until it is back, by induction on what it has left to do. -/
theorem Ordered.freed {rest : Program Op Res α} (h : pool.Ordered use)
    (hanswers : ∀ env op, ∃ choice outcome, H env choice op = some outcome)
    (hheld : i ∈ pool.holders) (htask : pool.tasks i = some rest) :
    ∃ actions after, ((system use H program limit env).restrict (·.GoesOn i)).Run pool
      actions after ∧ after.available = pool.available + 1 := by
  induction rest generalizing pool with
  | done value =>
      refine ⟨[.leave i], pool.leave i, .cons ⟨.leave htask, rfl⟩ (.nil _), ?_⟩
      rw [PermitPool.leave, List.count_eq_one_of_mem h.nodup hheld]
  | call op resume ih =>
      obtain ⟨hfresh, _⟩ := (h.follows i _ htask).1
      have htaken : use.taken op = none := by
        by_contra hsome
        have hnot := hfresh (Option.isSome_iff_ne_none.mpr hsome)
        exact of_decide_eq_false hnot hheld
      obtain ⟨choice, outcome, hanswer⟩ := hanswers pool.shared op
      cases hgiven : use.given op with
      | some answer =>
          have hstep : pool.call use H i choice = pool.give i (resume answer) := by
            simp only [PermitPool.call, htask, htaken, hgiven]
          rw [give, if_pos hheld] at hstep
          exact ⟨[.call i choice], _, .cons ⟨.call choice, hstep⟩ (.nil _), rfl⟩
      | none =>
          have hstep : pool.call use H i choice = pool.ask H i choice op resume := by
            simp only [PermitPool.call, htask, htaken, hgiven]
          rw [ask, hanswer, Option.map_some] at hstep
          obtain ⟨actions, after, hrun, havailable⟩ :=
            ih outcome.1 (h.call hstep) hheld (Function.update_self _ _ _)
          exact ⟨.call i choice :: actions, after, .cons ⟨.call choice, hstep⟩ hrun, havailable⟩

theorem Ordered.mem_of_guarded (h : pool.Ordered use) (hguarded : pool.Guarded use i) :
    i ∈ pool.holders := by
  obtain ⟨op, hasks, hop⟩ := hguarded
  obtain ⟨rest, htask, hhead⟩ := Option.bind_eq_some_iff.mp hasks
  have hfollows := h.follows i rest htask
  cases rest with
  | done value => cases hhead
  | call first resume =>
      cases hhead
      exact of_decide_eq_true (hfollows.1.2.2 hop)

/-- What a semaphore is for: a bound on guarded calls, no permit lost, and somebody who does not
wait. -/
structure Sound (use : PermitUse Op Res) (limit : ℕ) (pool : PermitPool ι Op Res α Env) :
    Prop where
  conserved : pool.available + pool.holders.length = limit
  once : pool.holders.Nodup
  bounded : ∀ callers : Finset ι, (∀ i ∈ callers, pool.Guarded use i) → callers.card ≤ limit
  back : (∀ i, pool.tasks i = none) → pool.available = limit
  unblocked : 0 < limit → (∃ i, pool.tasks i ≠ none) →
    ∃ i, pool.tasks i ≠ none ∧ ¬pool.Waits use i

theorem Ordered.sound (h : pool.Ordered use)
    (hconserved : pool.available + pool.holders.length = limit) : pool.Sound use limit where
  conserved := hconserved
  once := h.nodup
  bounded callers hcallers := by
    have hsub : callers ⊆ pool.holders.toFinset := by
      intro i hi
      exact List.mem_toFinset.mpr (h.mem_of_guarded (hcallers i hi))
    have hcard := (Finset.card_le_card hsub).trans (List.toFinset_card_le _)
    omega
  back hnone := by
    have hnil : pool.holders = [] :=
      List.eq_nil_iff_forall_not_mem.mpr fun i hi => h.present i hi (hnone i)
    rw [hnil, List.length_nil, Nat.add_zero] at hconserved
    exact hconserved
  unblocked hpositive hsome := by
    by_cases havailable : pool.available = 0
    · -- All permits are held, and who holds one waits for none.
      obtain ⟨i, hi⟩ := List.exists_mem_of_length_pos (l := pool.holders) (by omega)
      refine ⟨i, h.present i hi, ?_⟩
      rintro ⟨_, op, hasks, htaken⟩
      obtain ⟨rest, htask, hhead⟩ := Option.bind_eq_some_iff.mp hasks
      have hfollows := h.follows i rest htask
      cases rest with
      | done value => cases hhead
      | call first resume =>
          cases hhead
          exact of_decide_eq_false (hfollows.1.1 htaken) hi
    · obtain ⟨i, hi⟩ := hsome
      exact ⟨i, hi, fun hwaits => havailable hwaits.1⟩

/-- A semaphore with disciplined tasks does what it is for, in every state. -/
theorem sound (hprogram : ∀ task, use.Disciplined (program task))
    (h : (system use H program limit env).Reachable pool) : pool.Sound use limit :=
  (ordered hprogram h).sound (conserved h)

/-- Whoever waits for a permit waits for holders, any of which can put it back where all calls are
answered. -/
theorem exists_freed (hprogram : ∀ task, use.Disciplined (program task)) (hlimit : 0 < limit)
    (hanswers : ∀ env op, ∃ choice outcome, H env choice op = some outcome)
    (h : (system use H program limit env).Reachable pool) (hwaits : pool.Waits use i) :
    pool.holders ≠ [] ∧ ∀ j ∈ pool.holders, ∃ actions after,
      ((system use H program limit env).restrict (·.GoesOn j)).Run pool actions after ∧
        0 < after.available := by
  have hconserved := conserved h
  have hordered := ordered hprogram h
  constructor
  · rintro hnil
    rw [hwaits.1, hnil, List.length_nil] at hconserved
    omega
  · intro j hj
    obtain ⟨rest, hrest⟩ := Option.ne_none_iff_exists'.mp (hordered.present j hj)
    obtain ⟨actions, after, hrun, havailable⟩ := hordered.freed hanswers hj hrest
    exact ⟨actions, after, hrun, havailable ▸ Nat.succ_pos _⟩

end PermitPool

end Pool

end Soulbase.Foundation
