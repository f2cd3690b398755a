/-
# Programs that call operations

A program either returns or calls an operation and continues with its answer.
Code whose atomic actions are calls to stores, transports and clocks is written
once, as such a program in `do` notation, and is then read in two ways:

* `Exec` runs a program alone, from a state of the environment to a state and a
  result;
* `Pool.call` lets one of many programs perform its next call, so any
  interleaving at the granularity of single calls is a sequence of such steps.

Where nothing is said of the environment, `Runs` lists the calls of a program with
whatever answers they get.

A `Handler` says what the environment does on a call. It also receives a
`Choice`, the part of the outcome that the environment picks (a clock reading,
a failure), and so stays an executable function.

A `Discipline` is a typestate: which calls a caller in a given standing may
make, and how an answer changes its standing. `Program.Follows` says that every
continuation of a program obeys one, and `Pool.call` keeps it, so invariants of
a pool may speak of standings and never of program texts.
-/

import Mathlib.Logic.Function.Basic

namespace Soulbase.Foundation

universe u v w

/-- A computation that calls operations and returns a value. -/
inductive Program (Op : Type u) (Res : Op → Type v) (α : Type w)
  /-- The computation has returned. -/
  | done (value : α)
  /-- The computation waits for the answer of an operation. -/
  | call (op : Op) (resume : Res op → Program Op Res α)

namespace Program

variable {Op : Type u} {Res : Op → Type v} {α β : Type w}

/-- Continue with a second program once the first has returned. -/
def bind (first : Program Op Res α) (second : α → Program Op Res β) :
    Program Op Res β :=
  match first with
  | done value => second value
  | call op resume => call op fun answer => bind (resume answer) second

instance : Monad (Program Op Res) where
  pure := done
  bind := bind

@[simp]
theorem call_bind (op : Op) (resume : Res op → Program Op Res α)
    (second : α → Program Op Res β) :
    call op resume >>= second = call op fun answer => resume answer >>= second := rfl

theorem bind_assoc {γ : Type w} (first : Program Op Res α) (second : α → Program Op Res β)
    (third : β → Program Op Res γ) :
    first >>= second >>= third = first >>= fun value => second value >>= third := by
  induction first with
  | done value => rfl
  | call op resume ih => exact congrArg (call op) (funext fun answer => ih answer)

theorem id_map (program : Program Op Res α) : id <$> program = program := by
  induction program with
  | done value => rfl
  | call op resume ih => exact congrArg (call op) (funext fun answer => ih answer)

instance : LawfulMonad (Program Op Res) :=
  LawfulMonad.mk' (Program Op Res) id_map (fun _ _ => rfl) bind_assoc

/-- The operation a program calls next, unless it has returned. -/
def head? : Program Op Res α → Option Op
  | done _ => none
  | call op _ => some op

/-- Whether the program has returned. -/
def returned : Program Op Res α → Bool
  | done _ => true
  | call _ _ => false

end Program

/-- Call one operation and return its answer. -/
def perform {Op : Type u} {Res : Op → Type v} (op : Op) : Program Op Res (Res op) :=
  .call op .done

/-- What the environment does on a call, given its own choice. `none` means that
the choice is not one the environment can make in this state. -/
abbrev Handler (Op : Type u) (Res : Op → Type v) (Choice : Type*) (Env : Type*) :=
  Env → Choice → (op : Op) → Option (Res op × Env)

/-- The same environment, limited to some of its choices. -/
def Handler.restrict {Op : Type u} {Res : Op → Type v} {Choice Env : Type*}
    (H : Handler Op Res Choice Env) (allowed : Env → Choice → Op → Bool) :
    Handler Op Res Choice Env :=
  fun env choice op => if allowed env choice op then H env choice op else none

theorem Handler.restrict_eq_some_iff {Op : Type u} {Res : Op → Type v}
    {Choice Env : Type*} {H : Handler Op Res Choice Env}
    {allowed : Env → Choice → Op → Bool} {env : Env} {choice : Choice} {op : Op}
    {outcome : Res op × Env} :
    H.restrict allowed env choice op = some outcome ↔
      allowed env choice op = true ∧ H env choice op = some outcome := by
  simp [Handler.restrict]

section Exec

variable {Op : Type u} {Res : Op → Type v} {α β : Type w}
variable {Choice Env : Type*}

/-- The program, run alone from an environment, returns a value and leaves an
environment, for some choices of the environment. -/
inductive Exec (H : Handler Op Res Choice Env) :
    Program Op Res α → Env → α → Env → Prop
  | done (value : α) (env : Env) : Exec H (.done value) env value env
  | call {op : Op} {resume : Res op → Program Op Res α} {env middle last : Env}
      {choice : Choice} {answer : Res op} {value : α} :
      H env choice op = some (answer, middle) →
        Exec H (resume answer) middle value last →
          Exec H (.call op resume) env value last

variable {H : Handler Op Res Choice Env}

@[simp]
theorem exec_done_iff {value result : α} {env last : Env} :
    Exec H (.done value) env result last ↔ result = value ∧ last = env := by
  constructor
  · intro h
    cases h
    exact ⟨rfl, rfl⟩
  · rintro ⟨rfl, rfl⟩
    exact .done _ _

theorem exec_call_iff {op : Op} {resume : Res op → Program Op Res α}
    {env last : Env} {value : α} :
    Exec H (.call op resume) env value last ↔
      ∃ choice answer middle, H env choice op = some (answer, middle) ∧
        Exec H (resume answer) middle value last := by
  constructor
  · intro h
    cases h with
    | call hop hrest => exact ⟨_, _, _, hop, hrest⟩
  · rintro ⟨choice, answer, middle, hop, hrest⟩
    exact .call hop hrest

/-- Running a single call. -/
theorem exec_perform_iff {op : Op} {env last : Env} {answer : Res op} :
    Exec H (perform op) env answer last ↔
      ∃ choice, H env choice op = some (answer, last) := by
  rw [perform, exec_call_iff]
  constructor
  · rintro ⟨choice, answer', middle, hop, hrest⟩
    obtain ⟨rfl, rfl⟩ := exec_done_iff.mp hrest
    exact ⟨choice, hop⟩
  · rintro ⟨choice, hop⟩
    exact ⟨choice, answer, last, hop, .done _ _⟩

/-- Running a sequence is running its parts one after the other. -/
theorem exec_bind_iff {first : Program Op Res α} {second : α → Program Op Res β}
    {env last : Env} {result : β} :
    Exec H (first >>= second) env result last ↔
      ∃ value middle, Exec H first env value middle ∧
        Exec H (second value) middle result last := by
  induction first generalizing env with
  | done value =>
      constructor
      · intro h
        exact ⟨value, env, .done _ _, h⟩
      · rintro ⟨_, _, hfirst, h⟩
        cases hfirst
        exact h
  | call op resume ih =>
      simp only [Program.call_bind, exec_call_iff, ih]
      constructor
      · rintro ⟨choice, answer, between, hop, value, middle, hfirst, hsecond⟩
        exact ⟨value, middle, ⟨choice, answer, between, hop, hfirst⟩, hsecond⟩
      · rintro ⟨value, middle, ⟨choice, answer, between, hop, hfirst⟩, hsecond⟩
        exact ⟨choice, answer, between, hop, value, middle, hfirst, hsecond⟩

/-- Run a program on a list of choices, returning the unused ones. -/
def runWith (H : Handler Op Res Choice Env) :
    List Choice → Program Op Res α → Env → Option (α × Env)
  | _, .done value, env => some (value, env)
  | [], .call _ _, _ => none
  | choice :: choices, .call op resume, env =>
      (H env choice op).bind fun outcome =>
        runWith H choices (resume outcome.1) outcome.2

/-- A computed run is an execution. -/
theorem exec_of_runWith (choices : List Choice) {program : Program Op Res α}
    {env last : Env} {value : α}
    (h : runWith H choices program env = some (value, last)) :
    Exec H program env value last := by
  induction choices generalizing program env with
  | nil =>
      cases program with
      | done result =>
          cases h
          exact .done _ _
      | call op resume => cases h
  | cons choice choices ih =>
      cases program with
      | done result =>
          cases h
          exact .done _ _
      | call op resume =>
          obtain ⟨outcome, hop, hrest⟩ := Option.bind_eq_some_iff.mp h
          exact .call hop (ih hrest)

/-- An environment that can do more runs a program in all the ways that one that can
do less does. -/
theorem Exec.mono {H' : Handler Op Res Choice Env} {program : Program Op Res α}
    {env last : Env} {value : α} (h : Exec H program env value last)
    (hmore : ∀ env choice op outcome, H env choice op = some outcome →
      H' env choice op = some outcome) : Exec H' program env value last := by
  induction h with
  | done value env => exact .done value env
  | call hop _ ih => exact .call (hmore _ _ _ _ hop) ih

theorem Exec.of_restrict {allowed : Env → Choice → Op → Bool} {program : Program Op Res α}
    {env last : Env} {value : α} (h : Exec (H.restrict allowed) program env value last) :
    Exec H program env value last :=
  h.mono fun _ _ _ _ hop => (Handler.restrict_eq_some_iff.mp hop).2

/-- Where the environment has an answer to every call, every program can be run to
its end. -/
theorem exists_exec
    (hanswers : ∀ env op, ∃ choice answer next, H env choice op = some (answer, next))
    (program : Program Op Res α) (env : Env) : ∃ value last, Exec H program env value last := by
  induction program generalizing env with
  | done value => exact ⟨value, env, .done value env⟩
  | call op resume ih =>
      obtain ⟨choice, answer, next, hop⟩ := hanswers env op
      obtain ⟨value, last, hrest⟩ := ih answer next
      exact ⟨value, last, .call hop hrest⟩

/-- The program runs, for some choices of the environment, up to what it has then
left to do. -/
inductive Reaches (H : Handler Op Res Choice Env) :
    Program Op Res α → Env → Program Op Res α → Env → Prop
  | refl (program : Program Op Res α) (env : Env) : Reaches H program env program env
  | call {op : Op} {resume : Res op → Program Op Res α} {env middle last : Env}
      {choice : Choice} {answer : Res op} {rest : Program Op Res α} :
      H env choice op = some (answer, middle) →
        Reaches H (resume answer) middle rest last →
          Reaches H (.call op resume) env rest last

/-- One more call. -/
theorem Reaches.step {op : Op} {resume : Res op → Program Op Res α}
    {program : Program Op Res α} {env middle last : Env} {choice : Choice}
    {answer : Res op} (h : Reaches H program env (.call op resume) middle)
    (hop : H middle choice op = some (answer, last)) :
    Reaches H program env (resume answer) last := by
  generalize hrest : Program.call op resume = rest at h
  induction h with
  | refl program env =>
      subst hrest
      exact .call hop (.refl _ _)
  | call hfirst _ ih => exact .call hfirst (ih hop hrest)

/-- Running what is left runs the program to its end. -/
theorem Reaches.exec {program rest : Program Op Res α} {env middle last : Env} {value : α}
    (h : Reaches H program env rest middle) (hrest : Exec H rest middle value last) :
    Exec H program env value last := by
  induction h with
  | refl program env => exact hrest
  | call hop _ ih => exact .call hop (ih hrest)

/-- What every call keeps, a run keeps. -/
theorem Exec.preserves {program : Program Op Res α} {env last : Env} {value : α}
    (h : Exec H program env value last) (holds : Env → Prop)
    (hcall : ∀ env choice op answer next, H env choice op = some (answer, next) →
      holds env → holds next) (henv : holds env) : holds last := by
  induction h with
  | done value env => exact henv
  | call hop _ ih => exact ih (hcall _ _ _ _ _ hop henv)

end Exec

section Runs

variable {Op : Type u} {Res : Op → Type v} {α : Type w}

/-- The program returns a value after these calls, whatever is behind their answers. -/
inductive Runs : Program Op Res α → List (Sigma Res) → α → Prop
  | done (value : α) : Runs (.done value) [] value
  | call {op : Op} {resume : Res op → Program Op Res α} {answer : Res op}
      {calls : List (Sigma Res)} {value : α} :
      Runs (resume answer) calls value → Runs (.call op resume) (⟨op, answer⟩ :: calls) value

variable {calls : List (Sigma Res)} {value result : α}

theorem runs_done_iff :
    Runs (.done value : Program Op Res α) calls result ↔ calls = [] ∧ result = value := by
  constructor
  · intro h
    cases h
    exact ⟨rfl, rfl⟩
  · rintro ⟨rfl, rfl⟩
    exact .done _

theorem runs_call_iff {op : Op} {resume : Res op → Program Op Res α} :
    Runs (.call op resume) calls value ↔
      ∃ answer rest, calls = ⟨op, answer⟩ :: rest ∧ Runs (resume answer) rest value := by
  constructor
  · intro h
    cases h with
    | call hrest => exact ⟨_, _, rfl, hrest⟩
  · rintro ⟨answer, rest, rfl, hrest⟩
    exact .call hrest

/-- The calls of a sequence are those of its parts. -/
theorem runs_bind_iff {β : Type w} {first : Program Op Res α} {second : α → Program Op Res β}
    {result : β} :
    Runs (first >>= second) calls result ↔
      ∃ before value after, calls = before ++ after ∧ Runs first before value ∧
        Runs (second value) after result := by
  induction first generalizing calls with
  | done value =>
      constructor
      · intro h
        exact ⟨[], value, calls, rfl, .done _, h⟩
      · rintro ⟨before, value, after, rfl, hfirst, hsecond⟩
        obtain ⟨rfl, rfl⟩ := runs_done_iff.mp hfirst
        exact hsecond
  | call op resume ih =>
      rw [Program.call_bind, runs_call_iff]
      constructor
      · rintro ⟨answer, rest, rfl, hrest⟩
        obtain ⟨before, value, after, rfl, hfirst, hsecond⟩ := (ih answer).mp hrest
        exact ⟨⟨op, answer⟩ :: before, value, after, rfl, .call hfirst, hsecond⟩
      · rintro ⟨before, value, after, rfl, hfirst, hsecond⟩
        obtain ⟨answer, rest, rfl, hrest⟩ := runs_call_iff.mp hfirst
        exact ⟨answer, rest ++ after, rfl,
          (ih answer).mpr ⟨rest, value, after, rfl, hrest, hsecond⟩⟩

/-- The answers determine the calls of a program and its value. -/
theorem Runs.unique_of_prefix {program : Program Op Res α} {other all : List (Sigma Res)}
    (h : Runs program calls value) (hother : Runs program other result)
    (hcalls : calls <+: all) (hothers : other <+: all) : calls = other ∧ value = result := by
  induction h generalizing other all with
  | done value =>
      obtain ⟨rfl, rfl⟩ := runs_done_iff.mp hother
      exact ⟨rfl, rfl⟩
  | @call op resume answer rest value _ ih =>
      obtain ⟨answer', rest', rfl, hrest⟩ := runs_call_iff.mp hother
      obtain ⟨after, rfl⟩ := hcalls
      obtain ⟨hcall, hafter⟩ := List.cons_prefix_cons.mp hothers
      cases hcall
      obtain ⟨rfl, rfl⟩ := ih hrest (List.prefix_append _ _) hafter
      exact ⟨rfl, rfl⟩

/-- The calls and the value of a program whose calls are answered by a function. -/
def Program.answered (reply : (op : Op) → Res op) : Program Op Res α → List (Sigma Res) × α
  | done value => ([], value)
  | call op resume =>
      let rest := answered reply (resume (reply op))
      (⟨op, reply op⟩ :: rest.1, rest.2)

theorem runs_answered (reply : (op : Op) → Res op) (program : Program Op Res α) :
    Runs program (program.answered reply).1 (program.answered reply).2 := by
  induction program with
  | done value => exact .done value
  | call op resume ih => exact .call (ih (reply op))

theorem answer_of_mem_answered {reply : (op : Op) → Res op} {program : Program Op Res α} :
    ∀ call ∈ (program.answered reply).1, call.2 = reply call.1 := by
  induction program with
  | done value => simp [Program.answered]
  | call op resume ih =>
      intro call hcall
      rcases List.mem_cons.mp hcall with rfl | hrest
      · rfl
      · exact ih (reply op) call hrest

/-- A program is answered one way only. -/
theorem Runs.eq_answered {reply : (op : Op) → Res op} {program : Program Op Res α}
    (h : Runs program calls value) (hreply : ∀ call ∈ calls, call.2 = reply call.1) :
    program.answered reply = (calls, value) := by
  induction h with
  | done value => rfl
  | @call op resume answer rest value _ ih =>
      obtain rfl : answer = reply op := hreply ⟨op, answer⟩ List.mem_cons_self
      rw [Program.answered, ih fun call hcall => hreply call (List.mem_cons_of_mem _ hcall)]

/-- Run a program where a call may also change what answers it. -/
def Program.runIn {Env : Type*} (respond : (op : Op) → Env → Res op × Env) :
    Program Op Res α → Env → α × Env
  | done value, env => (value, env)
  | call op resume, env => (resume (respond op env).1).runIn respond (respond op env).2

theorem Program.runIn_bind {Env : Type*} {β : Type w}
    {respond : (op : Op) → Env → Res op × Env} {env : Env}
    (first : Program Op Res α) (second : α → Program Op Res β) :
    (first >>= second).runIn respond env =
      (second (first.runIn respond env).1).runIn respond (first.runIn respond env).2 := by
  induction first generalizing env with
  | done value => rfl
  | call op resume ih => exact ih (respond op env).1

/-- What a sequence returns, where its calls are answered by a function. -/
theorem Program.answered_bind_snd {β : Type w} {reply : (op : Op) → Res op}
    (first : Program Op Res α) (second : α → Program Op Res β) :
    ((first >>= second).answered reply).2 =
      ((second (first.answered reply).2).answered reply).2 := by
  induction first with
  | done value => rfl
  | call op resume ih => exact ih (reply op)

end Runs

/-- Programs, one to each caller, over one shared environment. -/
structure Pool (ι : Type*) (Op : Type u) (Res : Op → Type v) (α : Type w)
    (Env : Type*) where
  /-- What all callers see. -/
  shared : Env
  /-- What each caller has left to do. -/
  threads : ι → Program Op Res α

namespace Pool

variable {ι : Type*} [DecidableEq ι] {Op : Type u} {Res : Op → Type v} {α : Type w}
variable {Choice Env : Type*}

/-- A caller that has returned begins a new program. -/
def spawn (pool : Pool ι Op Res α Env) (i : ι) (program : Program Op Res α) :
    Option (Pool ι Op Res α Env) :=
  if (pool.threads i).returned then
    some { pool with threads := Function.update pool.threads i program }
  else none

/-- One caller performs its next call. -/
def call (H : Handler Op Res Choice Env) (pool : Pool ι Op Res α Env) (i : ι)
    (choice : Choice) : Option (Pool ι Op Res α Env) :=
  match pool.threads i with
  | .done _ => none
  | .call op resume =>
      (H pool.shared choice op).map fun outcome =>
        { shared := outcome.2
          threads := Function.update pool.threads i (resume outcome.1) }

theorem spawn_eq_some_iff {pool next : Pool ι Op Res α Env} {i : ι}
    {program : Program Op Res α} :
    pool.spawn i program = some next ↔
      (pool.threads i).returned = true ∧
        next = { pool with threads := Function.update pool.threads i program } := by
  unfold spawn
  split
  case isTrue h => simp [h, eq_comm]
  case isFalse h => simp [h]

/-- All that one call can do: the caller was at some operation, the environment
answered it, the caller took the answer and nobody else moved. -/
theorem call_eq_some_iff {H : Handler Op Res Choice Env}
    {pool next : Pool ι Op Res α Env} {i : ι} {choice : Choice} :
    pool.call H i choice = some next ↔
      ∃ op resume answer env, pool.threads i = .call op resume ∧
        H pool.shared choice op = some (answer, env) ∧
        next = { shared := env
                 threads := Function.update pool.threads i (resume answer) } := by
  unfold call
  cases hthread : pool.threads i with
  | done value => simp
  | call op resume =>
      simp only [Option.map_eq_some_iff]
      constructor
      · rintro ⟨⟨answer, env⟩, hop, rfl⟩
        exact ⟨op, resume, answer, env, rfl, hop, rfl⟩
      · rintro ⟨op', resume', answer, env, hprogram, hop, rfl⟩
        cases hprogram
        exact ⟨⟨answer, env⟩, hop, rfl⟩

end Pool

/-- What a caller may call, depending on its standing, and how the answer to a
call changes the standing. -/
structure Discipline (Op : Type u) (Res : Op → Type v) (Standing : Type*) where
  /-- The calls a caller in this standing may make. -/
  permits : Standing → Op → Prop
  /-- What the environment promises of the answers it gives. -/
  ensures : (op : Op) → Res op → Prop
  /-- The standing of the caller once a call has been answered. -/
  after : Standing → (op : Op) → Res op → Standing

namespace Program

variable {Op : Type u} {Res : Op → Type v} {α β : Type w} {Standing : Type*}
variable {D : Discipline Op Res Standing}

/-- Every call the program can still make is permitted in the standing it then
has, as long as the environment keeps its promises, and where the program
returns, its value and its standing meet the postcondition. -/
def Follows (D : Discipline Op Res Standing) (post : α → Standing → Prop) :
    Standing → Program Op Res α → Prop
  | standing, done value => post value standing
  | standing, call op resume => D.permits standing op ∧
      ∀ answer, D.ensures op answer →
        Follows D post (D.after standing op answer) (resume answer)

variable {post : α → Standing → Prop} {standing : Standing}

@[simp]
theorem follows_done {value : α} :
    Follows D post standing (done value : Program Op Res α) ↔ post value standing :=
  Iff.rfl

/-- A single call. -/
@[simp]
theorem follows_perform {op : Op} {post : Res op → Standing → Prop} :
    Follows D post standing (perform op) ↔ D.permits standing op ∧
      ∀ answer, D.ensures op answer → post answer (D.after standing op answer) :=
  Iff.rfl

/-- A sequence follows the discipline when its second part does so wherever the
first part may end. -/
theorem Follows.bind {first : Program Op Res α} {second : α → Program Op Res β}
    {post' : β → Standing → Prop} (hfirst : Follows D post standing first)
    (hsecond : ∀ value standing, post value standing →
      Follows D post' standing (second value)) :
    Follows D post' standing (first >>= second) := by
  induction first generalizing standing with
  | done value => exact hsecond value standing hfirst
  | call op resume ih =>
      refine ⟨hfirst.1, ?_⟩
      intro answer hanswer
      exact ih answer (hfirst.2 answer hanswer)

/-- What meets a stronger postcondition meets a weaker one. -/
theorem Follows.mono {post' : α → Standing → Prop} {program : Program Op Res α}
    (h : Follows D post standing program)
    (himp : ∀ value standing, post value standing → post' value standing) :
    Follows D post' standing program := by
  induction program generalizing standing with
  | done value => exact himp value standing h
  | call op resume ih => exact ⟨h.1, fun answer hanswer => ih answer (h.2 answer hanswer)⟩

/-- Every call of a run is permitted in some standing. -/
theorem Follows.permits_of_runs {program : Program Op Res α} {calls : List (Sigma Res)}
    {value : α} (h : Follows D post standing program) (hruns : Runs program calls value)
    (hensures : ∀ call ∈ calls, D.ensures call.1 call.2) :
    ∀ call ∈ calls, ∃ standing, D.permits standing call.1 := by
  induction hruns generalizing standing with
  | done value => simp
  | @call op resume answer rest value hrest ih =>
      intro call hcall
      rcases List.mem_cons.mp hcall with rfl | hmem
      · exact ⟨standing, h.1⟩
      · apply ih (h.2 answer (hensures ⟨op, answer⟩ List.mem_cons_self)) _ call hmem
        intro other hother
        exact hensures other (List.mem_cons_of_mem _ hother)

/-- The same calls are permitted at all times. -/
def CallsOnly (permits : Op → Prop) (program : Program Op Res α) : Prop :=
  Follows { permits := fun _ => permits, ensures := fun _ _ => True, after := fun _ _ _ => () }
    (fun _ _ => True) () program

theorem callsOnly_done {permits : Op → Prop} (value : α) :
    CallsOnly permits (done value : Program Op Res α) := trivial

theorem callsOnly_perform {permits : Op → Prop} {op : Op} (h : permits op) :
    CallsOnly permits (perform op : Program Op Res (Res op)) :=
  ⟨h, fun _ _ => trivial⟩

theorem callsOnly_call {permits : Op → Prop} {op : Op} {resume : Res op → Program Op Res α}
    (hop : permits op) (hrest : ∀ answer, (resume answer).CallsOnly permits) :
    CallsOnly permits (call op resume) :=
  ⟨hop, fun answer _ => hrest answer⟩

theorem callsOnly_bind {permits : Op → Prop} {first : Program Op Res α}
    {second : α → Program Op Res β} (hfirst : first.CallsOnly permits)
    (hsecond : ∀ value, (second value).CallsOnly permits) :
    CallsOnly permits (first >>= second) :=
  Follows.bind hfirst fun value _ _ => hsecond value

theorem CallsOnly.mono {permits permits' : Op → Prop} {program : Program Op Res α}
    (h : program.CallsOnly permits) (himp : ∀ op, permits op → permits' op) :
    program.CallsOnly permits' := by
  induction program with
  | done value => trivial
  | call op resume ih => exact ⟨himp op h.1, fun answer _ => ih answer (h.2 answer trivial)⟩

/-- Every call of a run is permitted. -/
theorem CallsOnly.of_runs {permits : Op → Prop} {program : Program Op Res α}
    {calls : List (Sigma Res)} {value : α} (h : program.CallsOnly permits)
    (hruns : Runs program calls value) : ∀ call ∈ calls, permits call.1 := by
  intro call hcall
  obtain ⟨_, hpermits⟩ := h.permits_of_runs hruns (fun _ _ => trivial) call hcall
  exact hpermits

/-- A program whose calls keep what holds of the standing follows the discipline, if all that
it may return, whatever the answers, meets the postcondition. -/
theorem CallsOnly.follows {permits : Op → Prop} {program : Program Op Res α}
    (h : program.CallsOnly permits) {holds : Standing → Prop}
    (hcall : ∀ standing op, holds standing → permits op → D.permits standing op ∧
      ∀ answer, holds (D.after standing op answer))
    (hpost : ∀ calls value standing, Runs program calls value → holds standing →
      post value standing)
    (hstanding : holds standing) : Follows D post standing program := by
  induction program generalizing standing with
  | done value => exact hpost [] value standing (.done value) hstanding
  | call op resume ih =>
      obtain ⟨hpermits, hafter⟩ := hcall standing op hstanding h.1
      refine ⟨hpermits, ?_⟩
      intro answer _
      refine ih answer (h.2 answer trivial) ?_ (hafter answer)
      intro calls value standing hruns
      exact hpost _ value standing (.call hruns)

end Program

/-- A program that follows the discipline in a standing may be begun by a client
that takes that standing. -/
theorem Pool.follows_begin {ι : Type*} [DecidableEq ι] {Op : Type u}
    {Res : Op → Type v} {α : Type w} {Standing : Type*}
    {D : ι → Discipline Op Res Standing} {post : α → Standing → Prop}
    {standing : ι → Standing} {threads : ι → Program Op Res α}
    (hfollows : ∀ i, (threads i).Follows (D i) post (standing i))
    {i : ι} {begun : Standing} {program : Program Op Res α}
    (hprogram : program.Follows (D i) post begun) (j : ι) :
    (Function.update threads i program j).Follows (D j) post
      (Function.update standing i begun j) := by
  by_cases hj : j = i
  · subst j
    rw [Function.update_self, Function.update_self]
    exact hprogram
  · rw [Function.update_of_ne hj, Function.update_of_ne hj]
    exact hfollows j

/-- A program that follows the discipline in the standing of its caller may be begun. -/
theorem Pool.follows_spawn {ι : Type*} [DecidableEq ι] {Op : Type u}
    {Res : Op → Type v} {α : Type w} {Standing : Type*}
    {D : ι → Discipline Op Res Standing} {post : α → Standing → Prop}
    {standing : ι → Standing} {threads : ι → Program Op Res α}
    (hfollows : ∀ i, (threads i).Follows (D i) post (standing i))
    {i : ι} {program : Program Op Res α} (hprogram : program.Follows (D i) post (standing i))
    (j : ι) : (Function.update threads i program j).Follows (D j) post (standing j) := by
  have hbegun := Pool.follows_begin hfollows hprogram j
  rwa [Function.update_eq_self] at hbegun

/-- A call leaves its caller following the discipline in its new standing and
every other caller as it was. -/
theorem Pool.follows_call {ι : Type*} [DecidableEq ι] {Op : Type u}
    {Res : Op → Type v} {α : Type w} {Standing : Type*}
    {D : ι → Discipline Op Res Standing} {post : α → Standing → Prop}
    {standing : ι → Standing} {threads : ι → Program Op Res α}
    (hfollows : ∀ i, (threads i).Follows (D i) post (standing i))
    {i : ι} {op : Op} {resume : Res op → Program Op Res α} {answer : Res op}
    (hthread : threads i = .call op resume) (hanswer : (D i).ensures op answer) (j : ι) :
    (Function.update threads i (resume answer) j).Follows (D j) post
      (Function.update standing i ((D i).after (standing i) op answer) j) := by
  by_cases hj : j = i
  · subst j
    have hcall := hfollows i
    rw [hthread] at hcall
    simpa using hcall.2 answer hanswer
  · simpa [hj] using hfollows j

/-! ## Programs that may fail

A program in `ExceptT ε (Program Op Res)` stops at its first error, as the
question mark operator does. Its two readings sequence accordingly. -/

/-- The question mark operator. -/
theorem except_bind_eq_ok_iff {ε α β : Type*} {first : Except ε α} {second : α → Except ε β}
    {value : β} : first.bind second = .ok value ↔
      ∃ middle, first = .ok middle ∧ second middle = .ok value := by
  cases first with
  | error error => exact ⟨nofun, nofun⟩
  | ok middle => exact ⟨fun h => ⟨middle, rfl, h⟩, fun ⟨_, hok, h⟩ => by cases hok; exact h⟩

/-- The same of `do` blocks. -/
theorem except_do_eq_ok_iff {ε : Type*} {α β : Type v} {first : Except ε α}
    {second : α → Except ε β} {value : β} : first >>= second = .ok value ↔
      ∃ middle, first = .ok middle ∧ second middle = .ok value :=
  except_bind_eq_ok_iff

/-- Checks in a row. -/
theorem except_seq_eq_ok_iff {ε : Type*} {first second : Except ε Unit} :
    (do first; second) = .ok () ↔ first = .ok () ∧ second = .ok () := by
  rw [except_do_eq_ok_iff]
  constructor
  · rintro ⟨_, hfirst, hsecond⟩
    exact ⟨hfirst, hsecond⟩
  · rintro ⟨hfirst, hsecond⟩
    exact ⟨(), hfirst, hsecond⟩

/-- A loop that returns at the first error. -/
theorem except_forM_eq_ok_iff {ε α : Type*} {items : List α} {check : α → Except ε Unit} :
    forM items check = .ok () ↔ ∀ item ∈ items, check item = .ok () := by
  induction items with
  | nil => exact iff_of_true rfl fun _ h => absurd h List.not_mem_nil
  | cons item rest ih =>
      rw [List.forM_cons, List.forall_mem_cons, ← ih]
      exact except_seq_eq_ok_iff

/-- A loop whose items fail by themselves, in whatever state, fails with the first that does. -/
theorem except_foldlM_eq {ε α : Type*} {β : Type v} {step : β → α → Except ε β}
    (fail : α → Option ε) (next : β → α → β) (items : List α)
    (h : ∀ state item, step state item = (fail item).elim (.ok (next state item)) .error)
    (state : β) :
    items.foldlM step state =
      (items.findSome? fail).elim (.ok (items.foldl next state)) .error := by
  induction items generalizing state with
  | nil => rfl
  | cons item items ih =>
      rw [List.foldlM_cons, h, List.findSome?_cons]
      cases fail item with
      | some err => rfl
      | none => exact ih (next state item)

/-- The same of steps that also change a state. -/
theorem stateT_bind_eq_ok_iff {σ ε : Type} {α β : Type} {first : StateT σ (Except ε) α}
    {second : α → StateT σ (Except ε) β} {state last : σ} {value : β} :
    (first >>= second) state = .ok (value, last) ↔
      ∃ middle between, first state = .ok (middle, between) ∧
        second middle between = .ok (value, last) := by
  constructor
  · intro h
    obtain ⟨⟨middle, between⟩, hfirst, hsecond⟩ := except_do_eq_ok_iff.mp h
    exact ⟨middle, between, hfirst, hsecond⟩
  · rintro ⟨middle, between, hfirst, hsecond⟩
    exact except_do_eq_ok_iff.mpr ⟨(middle, between), hfirst, hsecond⟩

theorem stateT_map_eq_ok_iff {σ ε : Type} {α β : Type} {first : StateT σ (Except ε) α}
    {change : α → β} {state last : σ} {value : β} :
    (change <$> first) state = .ok (value, last) ↔
      ∃ middle, first state = .ok (middle, last) ∧ change middle = value := by
  constructor
  · intro h
    obtain ⟨⟨middle, between⟩, hfirst, hchange⟩ := except_do_eq_ok_iff.mp h
    cases hchange
    exact ⟨middle, hfirst, rfl⟩
  · rintro ⟨middle, hfirst, rfl⟩
    exact except_do_eq_ok_iff.mpr ⟨(middle, last), hfirst, rfl⟩

theorem except_map_eq_ok_iff {ε α β : Type*} {first : Except ε α} {change : α → β} {value : β} :
    first.map change = .ok value ↔ ∃ middle, first = .ok middle ∧ change middle = value := by
  cases first <;> simp [Except.map]

/-- Reading a list whose items can all be read. -/
theorem mapM_eq_ok_map {ε α β : Type*} {read : α → Except ε β} {list : List α} {result : α → β}
    (h : ∀ item ∈ list, read item = .ok (result item)) :
    list.mapM read = .ok (list.map result) := by
  induction list with
  | nil => rfl
  | cons first rest ih =>
      rw [List.mapM_cons, h first List.mem_cons_self,
        ih fun item hitem => h item (List.mem_cons_of_mem _ hitem)]
      rfl

/-- What reading a list returns was read from it. -/
theorem mem_of_mapM_eq_ok {ε α β : Type*} {read : α → Except ε β} {list : List α}
    {results : List β} (h : list.mapM read = .ok results) {result : β}
    (hresult : result ∈ results) :
    ∃ value ∈ list, read value = .ok result := by
  induction list generalizing results with
  | nil =>
      cases h
      simp at hresult
  | cons first rest ih =>
      rw [List.mapM_cons] at h
      obtain ⟨head, hhead, h⟩ := except_bind_eq_ok_iff.mp h
      obtain ⟨tail, htail, h⟩ := except_bind_eq_ok_iff.mp h
      cases h
      rcases List.mem_cons.mp hresult with rfl | hrest
      · exact ⟨first, List.mem_cons_self, hhead⟩
      · obtain ⟨value, hvalue, hread⟩ := ih htail hrest
        exact ⟨value, List.mem_cons_of_mem _ hvalue, hread⟩

section Fallible

variable {Op : Type u} {Res : Op → Type v} {ε α β : Type w}
variable {first : ExceptT ε (Program Op Res) α}
variable {second : α → ExceptT ε (Program Op Res) β}

theorem fallible_bind_eq :
    (first >>= second).run =
      first.run >>= fun
        | .ok value => (second value).run
        | .error error => .done (.error error) := rfl

/-- Running a sequence that may fail: the first part fails and that is the
result, or it returns and the second part runs. -/
theorem exec_fallible_bind_iff {Choice Env : Type*} {H : Handler Op Res Choice Env}
    {env last : Env} {result : Except ε β} :
    Exec H (first >>= second).run env result last ↔
      (∃ error, Exec H first.run env (.error error) last ∧ result = .error error) ∨
        ∃ value middle, Exec H first.run env (.ok value) middle ∧
          Exec H (second value).run middle result last := by
  rw [fallible_bind_eq, exec_bind_iff]
  constructor
  · rintro ⟨outcome, middle, hfirst, hsecond⟩
    cases outcome with
    | error error =>
        obtain ⟨rfl, rfl⟩ := exec_done_iff.mp hsecond
        exact .inl ⟨error, hfirst, rfl⟩
    | ok value => exact .inr ⟨value, middle, hfirst, hsecond⟩
  · rintro (⟨error, hfirst, rfl⟩ | ⟨value, middle, hfirst, hsecond⟩)
    · exact ⟨.error error, last, hfirst, .done _ _⟩
    · exact ⟨.ok value, middle, hfirst, hsecond⟩

/-- Running a call whose answer is not an error of the program. -/
theorem exec_lift_iff {Choice Env : Type*} {H : Handler Op Res Choice Env}
    {program : Program Op Res α} {env last : Env} {result : Except ε α} :
    Exec H (ExceptT.lift program).run env result last ↔
      ∃ value, result = .ok value ∧ Exec H program env value last := by
  change Exec H (program >>= fun value => .done (.ok value)) env result last ↔ _
  rw [exec_bind_iff]
  constructor
  · rintro ⟨value, middle, hprogram, hdone⟩
    obtain ⟨rfl, rfl⟩ := exec_done_iff.mp hdone
    exact ⟨value, rfl, hprogram⟩
  · rintro ⟨value, rfl, hprogram⟩
    exact ⟨value, last, hprogram, .done _ _⟩

/-- Running such a call and what follows it. -/
theorem exec_lift_bind_iff {Choice Env : Type*} {H : Handler Op Res Choice Env}
    {program : Program Op Res α} {env last : Env} {result : Except ε β} :
    Exec H (ExceptT.lift program >>= second).run env result last ↔
      ∃ value middle, Exec H program env value middle ∧
        Exec H (second value).run middle result last := by
  rw [exec_fallible_bind_iff]
  constructor
  · intro h
    rcases h with ⟨error, hlift, _⟩ | ⟨value, middle, hlift, hsecond⟩
    · obtain ⟨_, hok, _⟩ := exec_lift_iff.mp hlift
      cases hok
    · obtain ⟨_, hok, hprogram⟩ := exec_lift_iff.mp hlift
      cases hok
      exact ⟨value, middle, hprogram, hsecond⟩
  · intro ⟨value, middle, hprogram, hsecond⟩
    exact .inr ⟨value, middle, exec_lift_iff.mpr ⟨value, rfl, hprogram⟩, hsecond⟩

/-- The calls of a sequence that may fail: those of the first part where that fails, and
those of both where it returns. -/
theorem runs_fallible_bind_iff {calls : List (Sigma Res)} {result : Except ε β} :
    Runs (first >>= second).run calls result ↔
      (∃ error, Runs first.run calls (.error error) ∧ result = .error error) ∨
        ∃ before value after, calls = before ++ after ∧ Runs first.run before (.ok value) ∧
          Runs (second value).run after result := by
  rw [fallible_bind_eq, runs_bind_iff]
  constructor
  · rintro ⟨before, outcome, after, rfl, hfirst, hsecond⟩
    cases outcome with
    | error error =>
        obtain ⟨rfl, rfl⟩ := runs_done_iff.mp hsecond
        exact .inl ⟨error, by simpa using hfirst, rfl⟩
    | ok value => exact .inr ⟨before, value, after, rfl, hfirst, hsecond⟩
  · rintro (⟨error, hfirst, rfl⟩ | ⟨before, value, after, rfl, hfirst, hsecond⟩)
    · exact ⟨calls, .error error, [], by simp, hfirst, .done _⟩
    · exact ⟨before, .ok value, after, rfl, hfirst, hsecond⟩

/-- Where a sequence returns, both parts did. -/
theorem runs_bind_ok_iff {calls : List (Sigma Res)} {value : β} :
    Runs (first >>= second).run calls (.ok value) ↔
      ∃ before middle after, calls = before ++ after ∧ Runs first.run before (.ok middle) ∧
        Runs (second middle).run after (.ok value) := by
  rw [runs_fallible_bind_iff]
  constructor
  · rintro (⟨error, _, hok⟩ | h)
    · cases hok
    · exact h
  · exact .inr

/-- The calls of a part that does not fail, and of what follows it. -/
theorem runs_lift_bind_iff {program : Program Op Res α} {calls : List (Sigma Res)}
    {result : Except ε β} :
    Runs (ExceptT.lift program >>= second).run calls result ↔
      ∃ before value after, calls = before ++ after ∧ Runs program before value ∧
        Runs (second value).run after result := by
  have hlift : (ExceptT.lift program >>= second).run =
      program >>= fun value => (second value).run := by
    rw [fallible_bind_eq]
    change (program >>= fun value => .done (Except.ok value)) >>= _ = _
    rw [Program.bind_assoc]
    rfl
  rw [hlift, runs_bind_iff]

/-- A result that is there makes no calls. -/
theorem runs_result_bind_ok_iff {given : Except ε α} {calls : List (Sigma Res)} {value : β} :
    Runs (ExceptT.mk (.done given) >>= second).run calls (.ok value) ↔
      ∃ middle, given = .ok middle ∧ Runs (second middle).run calls (.ok value) := by
  cases given with
  | error error =>
      constructor
      · intro h
        cases (runs_done_iff.mp h).2
      · rintro ⟨_, hok, _⟩
        cases hok
  | ok middle =>
      constructor
      · exact fun h => ⟨middle, rfl, h⟩
      · rintro ⟨_, hok, h⟩
        cases hok
        exact h

/-- A loop over a list stops at its first error. What holds of the items to come
and the environment is kept by each round that returns, and whatever way a round
ends, the loop may end there. -/
theorem exec_forM {Choice Env : Type*} {H : Handler Op Res Choice Env} {Item : Type*}
    {body : Item → ExceptT ε (Program Op Res) PUnit} (holds : List Item → Env → Prop)
    (ended : Env → Prop)
    (hround : ∀ item rest env result last, holds (item :: rest) env →
      Exec H (body item).run env result last →
      ended last ∧ (result = .ok ⟨⟩ → holds rest last))
    (hempty : ∀ env, holds [] env → ended env)
    {items : List Item} {env last : Env} {result : Except ε PUnit}
    (hitems : holds items env) (h : Exec H (items.forM body).run env result last) :
    ended last := by
  induction items generalizing env with
  | nil =>
      obtain ⟨_, rfl⟩ := exec_done_iff.mp h
      exact hempty _ hitems
  | cons item rest ih =>
      rcases exec_fallible_bind_iff.mp h with ⟨error, hitem, _⟩ | ⟨_, middle, hitem, hrest⟩
      · exact (hround item rest env _ last hitems hitem).1
      · exact ih ((hround item rest env _ middle hitems hitem).2 rfl) hrest

/-- What a program that may fail comes to, where its calls are answered by a function. -/
def answeredValue (reply : (op : Op) → Res op) (program : ExceptT ε (Program Op Res) α) :
    Except ε α :=
  (program.run.answered reply).2

@[simp]
theorem answeredValue_pure (reply : (op : Op) → Res op) (value : α) :
    answeredValue reply (pure value : ExceptT ε (Program Op Res) α) = .ok value := rfl

/-- A sequence stops at its first error. -/
theorem answeredValue_bind (reply : (op : Op) → Res op) :
    answeredValue reply (first >>= second) =
      answeredValue reply first >>= fun value => answeredValue reply (second value) := by
  rw [answeredValue, fallible_bind_eq, Program.answered_bind_snd]
  change ((match (first.run.answered reply).2 with
    | .ok value => (second value).run
    | .error error => .done (.error error)).answered reply).2 =
    (first.run.answered reply).2 >>= _
  cases (first.run.answered reply).2 with
  | error error => rfl
  | ok value => rfl

/-- Where a part returns, the next one runs in what it has left. -/
theorem runIn_bind_ok {Env : Type*} {respond : (op : Op) → Env → Res op × Env} {env next : Env}
    {value : α} (h : first.run.runIn respond env = (.ok value, next)) :
    (first >>= second).run.runIn respond env = (second value).run.runIn respond next := by
  rw [fallible_bind_eq, Program.runIn_bind, h]

theorem runIn_bind_error {Env : Type*} {respond : (op : Op) → Env → Res op × Env} {env next : Env}
    {error : ε} (h : first.run.runIn respond env = (.error error, next)) :
    (first >>= second).run.runIn respond env = (.error error, next) := by
  rw [fallible_bind_eq, Program.runIn_bind, h]
  rfl

theorem follows_fallible_bind {Standing : Type*} {D : Discipline Op Res Standing}
    {standing : Standing} {middle : Except ε α → Standing → Prop}
    {post : Except ε β → Standing → Prop}
    (hfirst : first.run.Follows D middle standing)
    (herror : ∀ error standing, middle (.error error) standing →
      post (.error error) standing)
    (hsecond : ∀ value standing, middle (.ok value) standing →
      (second value).run.Follows D post standing) :
    (first >>= second).run.Follows D post standing := by
  rw [fallible_bind_eq]
  apply hfirst.bind
  intro outcome standing hmiddle
  cases outcome with
  | error error => exact herror error standing hmiddle
  | ok value => exact hsecond value standing hmiddle

theorem callsOnly_fallible_bind {permits : Op → Prop} (hfirst : first.run.CallsOnly permits)
    (hsecond : ∀ value, (second value).run.CallsOnly permits) :
    (first >>= second).run.CallsOnly permits :=
  follows_fallible_bind hfirst (fun _ _ _ => trivial) fun value _ _ => hsecond value

theorem callsOnly_forM {permits : Op → Prop} {Item : Type*} {items : List Item}
    {body : Item → ExceptT ε (Program Op Res) PUnit}
    (h : ∀ item ∈ items, (body item).run.CallsOnly permits) :
    (items.forM body).run.CallsOnly permits := by
  induction items with
  | nil => trivial
  | cons item rest ih =>
      refine callsOnly_fallible_bind (h item List.mem_cons_self) fun _ => ih ?_
      exact fun other hother => h other (List.mem_cons_of_mem _ hother)

/-- Whatever its calls are answered, the program returns such values only, where it does
not fail. -/
def ReturnsOnly (holds : α → Prop) (program : ExceptT ε (Program Op Res) α) : Prop :=
  ∀ calls value, Runs program.run calls (.ok value) → holds value

/-- What a sequence returns is what its second part returns. -/
theorem returnsOnly_bind {holds : β → Prop} (h : ∀ value, ReturnsOnly holds (second value)) :
    ReturnsOnly holds (first >>= second) := by
  intro calls value hruns
  obtain ⟨_, middle, rest, _, _, hrest⟩ := runs_bind_ok_iff.mp hruns
  exact h middle rest value hrest

/-- The same, where it is known what the first part returns. -/
theorem returnsOnly_bind_of {middle : α → Prop} {holds : β → Prop}
    (hfirst : ReturnsOnly middle first)
    (hsecond : ∀ value, middle value → ReturnsOnly holds (second value)) :
    ReturnsOnly holds (first >>= second) := by
  intro calls value hruns
  obtain ⟨before, given, rest, _, hgiven, hrest⟩ := runs_bind_ok_iff.mp hruns
  exact hsecond given (hfirst before given hgiven) rest value hrest

theorem returnsOnly_done {holds : α → Prop} {result : Except ε α}
    (h : ∀ value, result = .ok value → holds value) :
    ReturnsOnly holds (ExceptT.mk (.done result) : ExceptT ε (Program Op Res) α) := by
  intro calls value hruns
  exact h value (runs_done_iff.mp hruns).2.symm

end Fallible

end Soulbase.Foundation
