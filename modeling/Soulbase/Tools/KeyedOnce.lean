/-
# One run of a keyed tool to a key

Any number of invocations of one keyed tool, for one tenant and with one idempotency key, are
interleaved at the granularity of their calls. One of them at most should come to a result of
its own, and the others should be given that result.

A lookup that misses does not stop others from missing too, and the result is stored only
after all operations, the obligations and the check of the output. So an invocation that is
looked up in between executes the operations again. The tool runs once if no lookup is made
in between.
-/

import Soulbase.Foundation.Transition
import Soulbase.Tools.Invocations

namespace Soulbase.Tools

open Soulbase.Foundation

/-- Invocations of one keyed tool, for one tenant and with one key. -/
structure KeyedInvocations (ι : Type*) where
  crates : ToolCrates
  tenant : TenantId
  tool : ToolId
  key : String
  world : ToolWorld
  request : ι → InvokeRequest
  tenant_eq : ∀ i, (request i).call.tenant = tenant
  tool_eq : ∀ i, (request i).manifest.id = tool
  keyed : ∀ i, (request i).manifest.idempotency = .keyed
  key_eq : ∀ i, (request i).call.idempotencyKey = some key

namespace InvocationPool

variable {ι : Type*} (pool : InvocationPool ι)

/-- An invocation has returned a result. -/
def Returns (i : ι) (result : InvokeResult) : Prop := pool.threads i = .done (.ok result)

/-- An invocation was answered from the store. -/
def Answered (i : ι) (hit : InvokeResult) : Prop :=
  ∃ key, (i, ⟨.idempotencyGet key, some hit⟩) ∈ pool.shared.log

/-- An invocation has returned a result of its own. -/
structure Completes (i : ι) (result : InvokeResult) : Prop where
  returns : pool.Returns i result
  own : ∀ hit, ¬pool.Answered i hit

end InvocationPool

namespace KeyedInvocations

variable {ι : Type*} [DecidableEq ι] (invocations : KeyedInvocations ι)

/-- No invocation has made a call. -/
def start : InvocationPool ι where
  shared := { env := invocations.world, log := [] }
  threads i := (invocations.request i).invoke invocations.crates

/-- The runs of the invocations. -/
def system : TransitionSystem (InvocationPool ι) (ι × ToolChoice) :=
  .ofNext invocations.start InvocationPool.next

end KeyedInvocations

/-- One invocation at most completes with a result of its own, and all others that return a
result return that one. -/
def RunOnce {ι : Type*} (T : TransitionSystem (InvocationPool ι) (ι × ToolChoice)) : Prop :=
  ∀ pool, T.Reachable pool → ∀ i result, pool.Completes i result →
    (∀ j other, pool.Completes j other → j = i) ∧ ∀ j other, pool.Returns j other → other = result

namespace KeyedInvocations

variable {ι : Type*} [DecidableEq ι] (invocations : KeyedInvocations ι)

/-- How far an invocation has come with the key. -/
def phase (pool : InvocationPool ι) (i : ι) : Lookup :=
  (Lookup.discipline (some invocations.key)).standing .coming pool.shared.log i

/-- The invocation was looked up in vain, and has neither stored a result nor returned. -/
structure Pending (pool : InvocationPool ι) (i : ι) : Prop where
  phase : invocations.phase pool i = .missed
  running : (pool.threads i).returned = false

/-- A lookup is made only while no other invocation is pending. -/
def Undisturbed (pool : InvocationPool ι) (step : ι × ToolChoice) : Prop :=
  ∀ key, (pool.threads step.1).head? = some (.idempotencyGet key) →
    ∀ other, other ≠ step.1 → ¬invocations.Pending pool other

/-- What is in the store. -/
def found (pool : InvocationPool ι) : Option InvokeResult :=
  pool.shared.env.results.get invocations.key

/-- One invocation at most is pending, and as long as one is there is no result. Then one has
stored its result, and those that are answered from the store have been given it. -/
structure Guarded (pool : InvocationPool ι) : Prop where
  follows : ∀ i, (pool.threads i).Follows (Lookup.discipline (some invocations.key))
    (Lookup.Concludes (some invocations.key)) (invocations.phase pool i)
  alone : ∀ i j, invocations.Pending pool i → invocations.Pending pool j → i = j
  vacant : ∀ i, invocations.Pending pool i → invocations.found pool = none
  hit : ∀ i result, invocations.phase pool i = .hit result →
    invocations.found pool = some result
  stored : ∀ i result, invocations.phase pool i = .stored result →
    invocations.found pool = some result
  once : ∀ i j result other, invocations.phase pool i = .stored result →
    invocations.phase pool j = .stored other → i = j
  answered : ∀ i result, pool.Answered i result ↔ invocations.phase pool i = .hit result

/-- One invocation makes a call and comes to a phase. -/
structure Moves (pool : InvocationPool ι) (i : ι) (call : ToolStep)
    (next : InvocationPool ι) : Prop where
  running : (pool.threads i).returned = false
  phase : invocations.phase next i = (invocations.phase pool i).after call.1 call.2
  others : ∀ j, j ≠ i → next.threads j = pool.threads j ∧
    invocations.phase next j = invocations.phase pool j
  follows : ∀ j, (next.threads j).Follows (Lookup.discipline (some invocations.key))
    (Lookup.Concludes (some invocations.key)) (invocations.phase next j)
  log : next.shared.log = (i, call) :: pool.shared.log

variable {invocations} {pool next : InvocationPool ι} {i j : ι}

omit [DecidableEq ι] in
theorem idempotencyKey_eq (i : ι) :
    (invocations.request i).idempotencyKey = some invocations.key := by
  rw [InvokeRequest.idempotencyKey, invocations.keyed i]
  exact invocations.key_eq i

theorem guarded_start : invocations.Guarded invocations.start where
  follows i := by
    have hfollows := (invocations.request i).follows_invoke invocations.crates
    rwa [idempotencyKey_eq] at hfollows
  alone _ _ hi := nomatch hi.phase
  vacant _ hi := nomatch hi.phase
  hit := nofun
  stored := nofun
  once := nofun
  answered _ _ := ⟨nofun, nofun⟩

theorem Moves.pending_iff {call : ToolStep} (h : invocations.Moves pool i call next)
    (hj : j ≠ i) : invocations.Pending next j ↔ invocations.Pending pool j := by
  obtain ⟨hthread, hphase⟩ := h.others j hj
  constructor
  · rintro ⟨hmissed, hrunning⟩
    exact ⟨hphase ▸ hmissed, hthread ▸ hrunning⟩
  · rintro ⟨hmissed, hrunning⟩
    exact ⟨hphase.symm ▸ hmissed, hthread.symm ▸ hrunning⟩

/-- Who is answered from the store is the caller, by this call, or was before. -/
theorem Moves.answered_iff {call : ToolStep} (h : invocations.Moves pool i call next)
    {result : InvokeResult} : next.Answered j result ↔
      (j = i ∧ ∃ key, call = ⟨.idempotencyGet key, some result⟩) ∨ pool.Answered j result := by
  constructor
  · rintro ⟨key, hmem⟩
    rw [h.log] at hmem
    rcases List.mem_cons.mp hmem with heq | hearly
    · obtain ⟨hj, hcall⟩ := Prod.mk.inj heq
      exact .inl ⟨hj, key, hcall.symm⟩
    · exact .inr ⟨key, hearly⟩
  · rintro (⟨rfl, key, rfl⟩ | ⟨key, hearly⟩)
    · exact ⟨key, h.log ▸ List.mem_cons_self⟩
    · exact ⟨key, h.log ▸ List.mem_cons_of_mem _ hearly⟩

/-- A call moves its caller on. -/
theorem Guarded.moves (h : invocations.Guarded pool) {choice : ToolChoice}
    (hstep : InvocationPool.next pool (i, choice) = some next) :
    ∃ op answer, (pool.threads i).head? = some op ∧
      (Lookup.discipline (some invocations.key)).permits (invocations.phase pool i) op ∧
      ToolWorld.answer pool.shared.env choice op = some (answer, next.shared.env) ∧
      invocations.Moves pool i ⟨op, answer⟩ next := by
  obtain ⟨op, resume, answer, shared, hthread, hlogged, rfl⟩ := Pool.call_eq_some_iff.mp hstep
  obtain ⟨env, hanswer, rfl⟩ := Handler.logged_eq_some_iff.mp hlogged
  have hfollows := h.follows i
  rw [hthread] at hfollows
  refine ⟨op, answer, by rw [hthread]; rfl, hfollows.1, hanswer, ?_⟩
  refine
    { running := by
        rw [hthread]
        rfl
      phase := Function.update_self _ _ _
      others := ?_
      follows := Pool.follows_call (D := fun _ => Lookup.discipline (some invocations.key))
        h.follows hthread trivial
      log := rfl }
  intro j hj
  exact ⟨Function.update_of_ne hj _ _, Function.update_of_ne hj _ _⟩

/-- A call that is not one of the store. -/
theorem Guarded.aside (h : invocations.Guarded pool) {op : ToolOp} {answer : op.Answer}
    (hmoves : invocations.Moves pool i ⟨op, answer⟩ next) (hop : op.isStore = false)
    (hfound : invocations.found next = invocations.found pool) : invocations.Guarded next := by
  have hphase : ∀ j, invocations.phase next j = invocations.phase pool j := by
    intro j
    by_cases hj : j = i
    · subst j
      rw [hmoves.phase]
      exact Lookup.after_of_isStore hop answer
    · exact (hmoves.others j hj).2
  have hpending : ∀ j, invocations.Pending next j → invocations.Pending pool j := by
    intro j hj
    by_cases hji : j = i
    · subst j
      exact ⟨(hphase _).symm.trans hj.phase, hmoves.running⟩
    · exact (hmoves.pending_iff hji).mp hj
  refine ⟨hmoves.follows, ?_, ?_, ?_, ?_, ?_, ?_⟩
  · intro first second hfirst hsecond
    exact h.alone first second (hpending first hfirst) (hpending second hsecond)
  · intro j hj
    rw [hfound]
    exact h.vacant j (hpending j hj)
  · intro j result hhit
    rw [hfound]
    exact h.hit j result ((hphase j).symm.trans hhit)
  · intro j result hstored
    rw [hfound]
    exact h.stored j result ((hphase j).symm.trans hstored)
  · intro first second result other hfirst hsecond
    exact h.once first second result other ((hphase first).symm.trans hfirst)
      ((hphase second).symm.trans hsecond)
  · intro j result
    rw [hphase, hmoves.answered_iff, h.answered, or_iff_right]
    rintro ⟨_, key, hcall⟩
    cases hcall
    cases hop

/-- A lookup, while no other invocation is pending. -/
theorem Guarded.looksUp (h : invocations.Guarded pool) {result : Option InvokeResult}
    (hmoves : invocations.Moves pool i ⟨.idempotencyGet invocations.key, result⟩ next)
    (hcoming : invocations.phase pool i = .coming)
    (halone : ∀ other, other ≠ i → ¬invocations.Pending pool other)
    (hresult : invocations.found pool = result)
    (hfound : invocations.found next = invocations.found pool) : invocations.Guarded next := by
  have hpending : ∀ j, invocations.Pending next j → j = i := by
    intro j hj
    by_contra hji
    exact halone j hji ((hmoves.pending_iff hji).mp hj)
  have hphase : invocations.phase next i =
      (match result with | none => .missed | some result => .hit result) := by
    rw [hmoves.phase, hcoming]
    cases result <;> rfl
  have hothers : ∀ j phase, invocations.phase next j = phase → j ≠ i →
      invocations.phase pool j = phase := by
    intro j phase hj hji
    exact (hmoves.others j hji).2.symm.trans hj
  refine ⟨hmoves.follows, ?_, ?_, ?_, ?_, ?_, ?_⟩
  · intro first second hfirst hsecond
    rw [hpending first hfirst, hpending second hsecond]
  · intro j hj
    obtain rfl := hpending j hj
    rw [hfound, hresult]
    cases result with
    | none => rfl
    | some result => cases hphase.symm.trans hj.phase
  · intro j given hhit
    rw [hfound]
    by_cases hji : j = i
    · subst j
      cases result with
      | none => cases hphase.symm.trans hhit
      | some result =>
          cases hphase.symm.trans hhit
          exact hresult
    · exact h.hit j given (hothers j _ hhit hji)
  · intro j given hstored
    rw [hfound]
    refine h.stored j given (hothers j _ hstored ?_)
    rintro rfl
    cases result <;> cases hphase.symm.trans hstored
  · intro first second given other hfirst hsecond
    have hne : ∀ j given, invocations.phase next j = .stored given → j ≠ i := by
      rintro _ given hstored rfl
      cases result <;> cases hphase.symm.trans hstored
    exact h.once first second given other (hothers first _ hfirst (hne _ _ hfirst))
      (hothers second _ hsecond (hne _ _ hsecond))
  · intro j given
    rw [hmoves.answered_iff, h.answered]
    by_cases hji : j = i
    · subst j
      rw [hcoming, hphase]
      cases result with
      | none =>
          constructor
          · rintro (⟨_, _, hcall⟩ | hhit)
            · cases hcall
            · cases hhit
          · nofun
      | some result =>
          constructor
          · rintro (⟨_, _, hcall⟩ | hhit)
            · cases hcall
              rfl
            · cases hhit
          · rintro ⟨⟩
            exact .inl ⟨rfl, _, rfl⟩
    · rw [(hmoves.others j hji).2, or_iff_right]
      exact fun hcaller => hji hcaller.1

/-- The pending invocation stores its result. -/
theorem Guarded.stores (h : invocations.Guarded pool) {result : InvokeResult}
    (hmoves : invocations.Moves pool i ⟨.idempotencyPut invocations.key result, ()⟩ next)
    (hmissed : invocations.phase pool i = .missed)
    (hfound : invocations.found next = some result) : invocations.Guarded next := by
  have hi : invocations.Pending pool i := ⟨hmissed, hmoves.running⟩
  have hphase : invocations.phase next i = .stored result := hmoves.phase
  have hnone : ∀ j given, j ≠ i → invocations.phase next j ≠ .hit given ∧
      invocations.phase next j ≠ .stored given := by
    intro j given hji
    rw [(hmoves.others j hji).2]
    constructor
    · intro hhit
      cases (h.vacant i hi).symm.trans (h.hit j given hhit)
    · intro hstored
      cases (h.vacant i hi).symm.trans (h.stored j given hstored)
  have hpending : ∀ j, ¬invocations.Pending next j := by
    intro j hj
    by_cases hji : j = i
    · subst j
      cases hphase.symm.trans hj.phase
    · exact hji (h.alone j i ((hmoves.pending_iff hji).mp hj) hi)
  have hstorer : ∀ j given, invocations.phase next j = .stored given → j = i := by
    intro j given hstored
    by_contra hji
    exact (hnone j given hji).2 hstored
  refine ⟨hmoves.follows, ?_, ?_, ?_, ?_, ?_, ?_⟩
  · intro first _ hfirst
    exact absurd hfirst (hpending first)
  · intro j hj
    exact absurd hj (hpending j)
  · intro j given hhit
    by_cases hji : j = i
    · subst j
      cases hphase.symm.trans hhit
    · exact absurd hhit (hnone j given hji).1
  · intro j given hstored
    obtain rfl := hstorer j given hstored
    cases hphase.symm.trans hstored
    exact hfound
  · intro first second given other hfirst hsecond
    rw [hstorer first given hfirst, hstorer second other hsecond]
  · intro j given
    rw [hmoves.answered_iff, h.answered]
    constructor
    · rintro (⟨_, _, hcall⟩ | hhit)
      · cases hcall
      · cases (h.vacant i hi).symm.trans (h.hit j given hhit)
    · intro hhit
      by_cases hji : j = i
      · subst j
        cases hphase.symm.trans hhit
      · exact absurd hhit (hnone j given hji).1

/-- Every call keeps the invocations guarded, if it is made undisturbed. -/
theorem Guarded.step (h : invocations.Guarded pool) {choice : ToolChoice}
    (hundisturbed : invocations.Undisturbed pool (i, choice))
    (hstep : InvocationPool.next pool (i, choice) = some next) : invocations.Guarded next := by
  obtain ⟨op, answer, hhead, hpermits, hanswer, hmoves⟩ := h.moves hstep
  cases hstore : op.isStore with
  | false =>
      refine h.aside hmoves hstore ?_
      rw [found, ToolWorld.results_of_answer hanswer hstore]
      rfl
  | true =>
      cases op with
      | idempotencyGet used =>
          obtain ⟨hused, hcoming⟩ := hpermits
          cases hused
          obtain ⟨rfl, henv⟩ := Prod.mk.inj (Option.some.inj hanswer)
          refine h.looksUp hmoves hcoming (hundisturbed _ hhead) rfl ?_
          rw [found, ← henv]
          rfl
      | idempotencyPut used result =>
          obtain ⟨hused, hmissed⟩ := hpermits
          cases hused
          obtain ⟨rfl, henv⟩ := Prod.mk.inj (Option.some.inj hanswer)
          refine h.stores hmoves hmissed ?_
          rw [found, ← henv]
          exact HashMap.get_put_self _ _ _
      | _ => cases hstore

/-- What an invocation has returned was found or stored. -/
theorem Guarded.found_of_returns (h : invocations.Guarded pool) {result : InvokeResult}
    (hreturns : pool.Returns i result) :
    (invocations.phase pool i = .hit result ∨ invocations.phase pool i = .stored result) ∧
      invocations.found pool = some result := by
  have hfollows := h.follows i
  rw [show pool.threads i = _ from hreturns] at hfollows
  rcases hfollows with hnone | hhit | hstored
  · cases hnone
  · exact ⟨.inl hhit, h.hit i result hhit⟩
  · exact ⟨.inr hstored, h.stored i result hstored⟩

/-- The tool runs once, as long as no invocation is looked up while another one is pending. -/
theorem runOnce_of_undisturbed (invocations : KeyedInvocations ι) :
    RunOnce (invocations.system.restrict invocations.Undisturbed) := by
  intro pool hreach i result hcompletes
  have hguarded : invocations.Guarded pool := by
    refine TransitionSystem.invariant invocations.Guarded ?_ ?_ hreach
    · rintro state rfl
      exact guarded_start
    · rintro source ⟨i, choice⟩ target _ hsource ⟨hundisturbed, hstep⟩
      exact hsource.step hundisturbed hstep
  have hown : ∀ j other, pool.Completes j other → invocations.phase pool j = .stored other := by
    intro j other hother
    rcases (hguarded.found_of_returns hother.returns).1 with hhit | hstored
    · exact absurd ((hguarded.answered j other).mpr hhit) (hother.own other)
    · exact hstored
  obtain ⟨_, hfound⟩ := hguarded.found_of_returns hcompletes.returns
  constructor
  · intro j other hother
    exact hguarded.once j i other result (hown j other hother) (hown i result hcompletes)
  · intro j other hother
    cases hfound.symm.trans (hguarded.found_of_returns hother).2
    rfl

end KeyedInvocations

/-! ## Two invocations of a tool -/

namespace TwoEchoes

/-- The same call of the tool that echoes, over and over. -/
def invocations : KeyedInvocations ℕ where
  crates := echoCrates
  tenant := ⟨"tenant-a"⟩
  tool := ⟨"net.echo.get"⟩
  key := "key-123"
  world := .new
  request _ := echoRequest "tenant-a"
  tenant_eq _ := rfl
  tool_eq _ := rfl
  keyed _ := rfl
  key_eq _ := rfl

/-- Both invocations are looked up before the first one stores its result. -/
def concurrently : List (ℕ × ToolChoice) :=
  List.replicate 2 (0, echoChoice "first") ++ List.replicate 2 (1, echoChoice "second") ++
    List.replicate 9 (0, echoChoice "first") ++ List.replicate 9 (1, echoChoice "second")

/-- Where the invocations are then. -/
def pool : InvocationPool ℕ :=
  (TransitionSystem.replay InvocationPool.next invocations.start concurrently).getD
    invocations.start

/-- A lookup that is answered from the store. -/
def isAnswered : ToolStep → Bool
  | ⟨.idempotencyGet _, some _⟩ => true
  | _ => false

theorem not_answered (i : ℕ) (hit : InvokeResult) : ¬pool.Answered i hit := by
  rintro ⟨key, hmem⟩
  have hnone : (pool.shared.log.all fun entry => !isAnswered entry.2) = true := rfl
  cases List.all_eq_true.mp hnone _ hmem

theorem completes (i : ℕ) (text : String)
    (h : pool.Returns i (.ok (.object [("body", .string text)]) (some ⟨"call-1"⟩))) :
    pool.Completes i (.ok (.object [("body", .string text)]) (some ⟨"call-1"⟩)) :=
  ⟨h, not_answered i⟩

end TwoEchoes

/-- Two invocations at the same time both execute the tool. -/
theorem not_runOnce_concurrently :
    ¬∀ invocations : KeyedInvocations ℕ, RunOnce invocations.system := by
  intro h
  have hreach : TwoEchoes.invocations.system.Reachable TwoEchoes.pool :=
    TransitionSystem.reachable_of_replay TwoEchoes.concurrently rfl
  have hfirst := TwoEchoes.completes 0 "first" rfl
  have hsecond := TwoEchoes.completes 1 "second" rfl
  exact absurd ((h _ _ hreach 0 _ hfirst).1 1 _ hsecond) (by decide)

end Soulbase.Tools
