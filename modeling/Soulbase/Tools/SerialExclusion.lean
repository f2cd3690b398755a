/-
# Serial tools

Invocations of an invoker are interleaved at the granularity of their calls. Of a tool that is
declared serial one invocation at most should be under way for a tenant.

`ConcurrencyGuard::lock` only counts who holds a guard, and lets everybody in. So two
invocations of a serial tool run at the same time wherever the second comes before the first
has dropped its guard; they exclude each other if a guard is only taken while the map has no
entry for its key. The count is right in any case, and the map is empty in the end.
-/

import Soulbase.Foundation.Transition
import Soulbase.Tools.Invocations

namespace Soulbase.Tools

open Soulbase.Foundation

/-- Invocations of one invoker, of any tools and for any tenants. -/
structure Invocations (ι : Type*) where
  crates : ToolCrates
  results : HashMap String InvokeResult
  request : ι → InvokeRequest

/-- Where an invocation is with its guard. -/
inductive Holding
  | idle
  | holding
  | dropped
  deriving DecidableEq

namespace Holding

/-- What a call does to the guard of its caller. -/
def after (held : Holding) : ToolOp → Holding
  | .lock _ => .holding
  | .unlock _ => .dropped
  | _ => held

/-- A guard is taken and dropped, once. -/
def discipline (key : String) : Discipline ToolOp ToolOp.Answer Holding where
  permits held
    | .lock used => used = key ∧ held = .idle
    | .unlock used => used = key ∧ held = .holding
    | _ => True
  ensures _ _ := True
  after held op _ := held.after op

/-- Where callers are with their guards after all that is logged. -/
def logged {ι : Type*} [DecidableEq ι] : List (ι × ToolStep) → ι → Holding
  | [] => fun _ => .idle
  | (caller, call) :: log =>
      Function.update (logged log) caller ((logged log caller).after call.1)

end Holding

/-- Where an invocation is with its guard. -/
def InvocationPool.guard {ι : Type*} [DecidableEq ι] (pool : InvocationPool ι) : ι → Holding :=
  Holding.logged pool.shared.log

/-- Once all have finished, the concurrency map is empty. -/
def InvocationPool.Drained {ι : Type*} (pool : InvocationPool ι) : Prop :=
  (∀ i, (pool.threads i).returned = true) → pool.shared.env.concurrency = ∅

namespace Invocations

variable {ι : Type*} [DecidableEq ι] (invocations : Invocations ι)

/-- No invocation has made a call, and no guard is held. -/
def start : InvocationPool ι where
  shared := { env := { results := invocations.results, concurrency := ∅ }, log := [] }
  threads i := (invocations.request i).invoke invocations.crates

/-- The runs of the invocations. -/
def system : TransitionSystem (InvocationPool ι) (ι × ToolChoice) :=
  .ofNext invocations.start InvocationPool.next

/-- An invocation of a serial tool is between the acquisition and the drop of its guard. -/
structure Inside (pool : InvocationPool ι) (i : ι) : Prop where
  serial : (invocations.request i).manifest.concurrency = .serial
  holding : pool.guard i = .holding

/-- One invocation at most is inside for a tool and a tenant. -/
def Exclusive (pool : InvocationPool ι) : Prop :=
  ∀ i j, invocations.Inside pool i → invocations.Inside pool j →
    (invocations.request i).manifest.id = (invocations.request j).manifest.id →
      (invocations.request i).call.tenant = (invocations.request j).call.tenant → i = j

end Invocations

/-- A guard is taken only while the map has no entry for its key. -/
def InvocationPool.Waits {ι : Type*} (pool : InvocationPool ι) (step : ι × ToolChoice) : Prop :=
  ∀ key, (pool.threads step.1).head? = some (.lock key) →
    pool.shared.env.concurrency.get key = none

/-- Serial tools exclude themselves, and leave nothing behind. -/
def MutuallyExclusive {ι : Type*} [DecidableEq ι] (invocations : Invocations ι)
    (T : TransitionSystem (InvocationPool ι) (ι × ToolChoice)) : Prop :=
  ∀ pool, T.Reachable pool → invocations.Exclusive pool ∧ pool.Drained

namespace Holding

variable {α : Type} {program : ToolProgram α} {held : Holding} {key : String}

/-- All calls but those of the map leave the guard alone. -/
theorem after_of_isGuard {op : ToolOp} (hop : op.isGuard = false) :
    held.after op = held := by
  cases op with
  | lock _ | unlock _ => cases hop
  | _ => rfl

/-- A program that makes no call of the map ends as it begins. -/
theorem follows_of_calls (h : program.CallsOnly fun op => op.isGuard = false) :
    program.Follows (discipline key) (fun _ ended => ended = held) held := by
  refine h.follows ?_ (fun _ _ _ _ hstays => hstays) rfl
  rintro _ op rfl hop
  refine ⟨?_, fun _ => after_of_isGuard hop⟩
  cases op with
  | lock _ | unlock _ => cases hop
  | _ => exact trivial

end Holding

namespace InvokeRequest

variable (request : InvokeRequest)

theorem isGuard_of_isAside {op : ToolOp} (h : op.isAside = true) : op.isGuard = false := by
  rw [ToolOp.isAside, Bool.and_eq_true, Bool.not_eq_true', Bool.not_eq_true'] at h
  exact h.2

theorem callsOnly_conclude (course : Course) (output : Json.Value) :
    (request.conclude course output).CallsOnly fun op => op.isGuard = false := by
  unfold conclude
  cases course.failure with
  | some err => exact Program.callsOnly_done _
  | none =>
      unfold keep
      cases request.idempotencyKey with
      | none => exact Program.callsOnly_done _
      | some key => exact Program.callsOnly_call rfl fun _ => Program.callsOnly_done _

/-- Under the guard, the map is left alone. -/
theorem callsOnly_run (crates : ToolCrates) (startedAt : Instant) :
    (request.run crates startedAt).CallsOnly fun op => op.isGuard = false := by
  unfold run
  split
  · exact Program.callsOnly_done _
  · refine Program.callsOnly_bind ⟨rfl, fun _ _ => trivial⟩ fun _ => ?_
    apply Program.callsOnly_bind
    · exact (request.callsOnly_runOps _ _ _).mono fun _ => isGuard_of_isAside
    · intro course
      apply Program.callsOnly_bind
      · exact (request.callsOnly_report _ _ _ _).mono fun _ => isGuard_of_isAside
      · intro _
        exact request.callsOnly_conclude _ _

/-- A guard that is taken is dropped before the end, whatever that is. -/
theorem holds_runGuarded (crates : ToolCrates) (startedAt : Instant) :
    (request.runGuarded crates startedAt).Follows (Holding.discipline request.lockKey)
      (fun _ ended => ended ≠ .holding) .idle := by
  unfold runGuarded
  cases request.manifest.concurrency with
  | parallel =>
      refine (Holding.follows_of_calls (request.callsOnly_run crates startedAt)).mono ?_
      rintro _ _ rfl
      nofun
  | serial =>
      refine ⟨⟨rfl, rfl⟩, fun _ _ => ?_⟩
      apply Program.Follows.bind
        (Holding.follows_of_calls (request.callsOnly_run crates startedAt))
      rintro result _ rfl
      exact ⟨⟨rfl, rfl⟩, fun _ _ => nofun⟩

theorem holds_invoke (crates : ToolCrates) :
    (request.invoke crates).Follows (Holding.discipline request.lockKey)
      (fun _ ended => ended ≠ .holding) .idle := by
  have hidle : Holding.idle ≠ .holding := by simp
  unfold InvokeRequest.invoke
  cases request.idempotencyKey with
  | some key =>
      refine ⟨trivial, fun startedAt _ => ⟨trivial, ?_⟩⟩
      intro found _
      cases found with
      | some hit => exact hidle
      | none => exact request.holds_runGuarded crates startedAt
  | none => exact ⟨trivial, fun startedAt _ => request.holds_runGuarded crates startedAt⟩

end InvokeRequest

/-! ## The count -/

/-- The entry of the map for some holders. -/
def entryFor {ι : Type*} (holders : List ι) : Option ℕ :=
  if holders = [] then none else some holders.length

section Count

variable {ι : Type*} [DecidableEq ι] {world : ToolWorld} {key other : String}
variable {holders : List ι} {i : ι}

omit [DecidableEq ι] in
theorem ToolWorld.get_lock (h : world.concurrency.get key = entryFor holders) :
    (world.lock key).concurrency.get key = entryFor (i :: holders) := by
  rw [lock, HashMap.get_put_self, h]
  cases holders <;> rfl

theorem ToolWorld.get_lock_of_ne (h : other ≠ key) :
    (world.lock key).concurrency.get other = world.concurrency.get other := by
  rw [lock, HashMap.get_put, if_neg h]

theorem ToolWorld.get_unlock (h : world.concurrency.get key = entryFor holders)
    (hi : i ∈ holders) :
    (world.unlock key).concurrency.get key = entryFor (holders.erase i) := by
  have hlength := List.length_erase_of_mem hi
  rw [entryFor, if_neg (List.ne_nil_of_mem hi)] at h
  unfold unlock
  rw [h]
  dsimp only
  split
  case isTrue hone =>
    have hnil : holders.erase i = [] := by
      rw [← List.length_eq_zero_iff, hlength]
      omega
    rw [HashMap.get_remove, if_pos rfl, entryFor, if_pos hnil]
  case isFalse hmany =>
    have hcons : holders.erase i ≠ [] := by
      rw [ne_eq, ← List.length_eq_zero_iff, hlength]
      omega
    rw [HashMap.get_put_self, entryFor, if_neg hcons, hlength]

theorem ToolWorld.get_unlock_of_ne (h : other ≠ key) :
    (world.unlock key).concurrency.get other = world.concurrency.get other := by
  unfold unlock
  split
  · rfl
  · split
    · rw [HashMap.get_remove, if_neg h]
    · rw [HashMap.get_put, if_neg h]

end Count

namespace Invocations

variable {ι : Type*} [DecidableEq ι] (invocations : Invocations ι)

/-- The invocations that hold a guard of a key. -/
structure Holders (pool : InvocationPool ι) (key : String) (holders : List ι) : Prop where
  nodup : holders.Nodup
  mem_iff : ∀ i, i ∈ holders ↔
    (invocations.request i).lockKey = key ∧ pool.guard i = .holding

/-- The map counts the guards that are held. -/
structure Counted (pool : InvocationPool ι) : Prop where
  follows : ∀ i, (pool.threads i).Follows
    (Holding.discipline (invocations.request i).lockKey) (fun _ ended => ended ≠ .holding)
    (pool.guard i)
  counts : ∀ key, ∃ holders, invocations.Holders pool key holders ∧
    pool.shared.env.concurrency.get key = entryFor holders

variable {invocations} {pool next : InvocationPool ι} {i j : ι}

theorem counted_start : invocations.Counted invocations.start where
  follows i := (invocations.request i).holds_invoke invocations.crates
  counts key := by
    refine ⟨[], ⟨List.nodup_nil, ?_⟩, HashMap.get_empty key⟩
    intro i
    exact ⟨nofun, fun h => nomatch h.2⟩

/-- A call moves its caller on, and nobody else. -/
theorem Counted.moves (h : invocations.Counted pool) {choice : ToolChoice}
    (hstep : InvocationPool.next pool (i, choice) = some next) :
    ∃ op answer, (pool.threads i).head? = some op ∧
      ToolWorld.answer pool.shared.env choice op = some (answer, next.shared.env) ∧
      (Holding.discipline (invocations.request i).lockKey).permits (pool.guard i) op ∧
      next.guard = Function.update pool.guard i ((pool.guard i).after op) ∧
      ∀ j, (next.threads j).Follows (Holding.discipline (invocations.request j).lockKey)
        (fun _ ended => ended ≠ .holding) (next.guard j) := by
  obtain ⟨op, resume, answer, shared, hthread, hlogged, rfl⟩ := Pool.call_eq_some_iff.mp hstep
  obtain ⟨env, hanswer, rfl⟩ := Handler.logged_eq_some_iff.mp hlogged
  have hfollows := h.follows i
  rw [hthread] at hfollows
  exact ⟨op, answer, by rw [hthread]; rfl, hanswer, hfollows.1, rfl,
    Pool.follows_call (D := fun j => Holding.discipline (invocations.request j).lockKey)
      h.follows hthread trivial⟩

/-- Where a call leaves the guards alone, the holders stay. -/
theorem Holders.of_guard {key : String} {holders : List ι}
    (h : invocations.Holders pool key holders)
    (hguard : ∀ j, (invocations.request j).lockKey = key →
      (next.guard j = .holding ↔ pool.guard j = .holding)) :
    invocations.Holders next key holders where
  nodup := h.nodup
  mem_iff j := by
    rw [h.mem_iff]
    exact and_congr_right fun hkey => (hguard j hkey).symm

/-- Every call keeps the count. -/
theorem Counted.step (h : invocations.Counted pool) {choice : ToolChoice}
    (hstep : InvocationPool.next pool (i, choice) = some next) : invocations.Counted next := by
  obtain ⟨op, answer, _, hanswer, hpermits, hguard, hfollows⟩ := h.moves hstep
  refine ⟨hfollows, ?_⟩
  intro key
  obtain ⟨holders, hholders, hget⟩ := h.counts key
  have hothers : ∀ j, j ≠ i → next.guard j = pool.guard j := by
    intro j hj
    rw [hguard, Function.update_of_ne hj]
  have hcaller : next.guard i = (pool.guard i).after op := by
    rw [hguard, Function.update_self]
  cases hop : op.isGuard with
  | false =>
      refine ⟨holders, hholders.of_guard ?_, ?_⟩
      · intro j _
        by_cases hj : j = i
        · rw [hj, hcaller, Holding.after_of_isGuard hop]
        · rw [hothers j hj]
      · rw [ToolWorld.concurrency_of_answer hanswer hop, hget]
  | true =>
      cases op with
      | lock used =>
          obtain ⟨rfl, hidle⟩ := hpermits
          obtain ⟨_, henv⟩ := Prod.mk.inj (Option.some.inj hanswer)
          rw [← henv]
          by_cases hkey : key = (invocations.request i).lockKey
          · subst hkey
            refine ⟨i :: holders, ⟨?_, ?_⟩, ToolWorld.get_lock hget⟩
            · refine List.nodup_cons.mpr ⟨?_, hholders.nodup⟩
              intro hi
              cases hidle.symm.trans ((hholders.mem_iff i).mp hi).2
            · intro j
              rw [List.mem_cons]
              by_cases hj : j = i
              · subst hj
                simp [hcaller, Holding.after]
              · rw [hothers j hj, or_iff_right hj, hholders.mem_iff]
          · refine ⟨holders, hholders.of_guard ?_, ?_⟩
            · intro j hj
              rw [hothers j]
              rintro rfl
              exact hkey hj.symm
            · rw [ToolWorld.get_lock_of_ne hkey, hget]
      | unlock used =>
          obtain ⟨rfl, hholding⟩ := hpermits
          obtain ⟨_, henv⟩ := Prod.mk.inj (Option.some.inj hanswer)
          rw [← henv]
          by_cases hkey : key = (invocations.request i).lockKey
          · subst hkey
            have hi : i ∈ holders := (hholders.mem_iff i).mpr ⟨rfl, hholding⟩
            refine ⟨holders.erase i, ⟨hholders.nodup.erase i, ?_⟩, ToolWorld.get_unlock hget hi⟩
            intro j
            rw [hholders.nodup.mem_erase_iff, hholders.mem_iff]
            by_cases hj : j = i
            · subst hj
              simp [hcaller, Holding.after]
            · rw [hothers j hj, and_iff_right hj]
          · refine ⟨holders, hholders.of_guard ?_, ?_⟩
            · intro j hj
              rw [hothers j]
              rintro rfl
              exact hkey hj.symm
            · rw [ToolWorld.get_unlock_of_ne hkey, hget]
      | _ => cases hop

/-- When all have finished, no guard is held, and the map is empty. -/
theorem Counted.drained (h : invocations.Counted pool) : pool.Drained := by
  intro hfinished
  apply HashMap.eq_empty_of_get
  intro key
  obtain ⟨holders, hholders, hget⟩ := h.counts key
  have hnil : holders = [] := by
    rw [List.eq_nil_iff_forall_not_mem]
    intro i hi
    have hfollows := h.follows i
    cases hthread : pool.threads i with
    | call op resume =>
        have hreturned := hfinished i
        rw [hthread] at hreturned
        cases hreturned
    | done result =>
        rw [hthread] at hfollows
        exact hfollows ((hholders.mem_iff i).mp hi).2
  rw [hget, hnil]
  rfl

/-- The count is kept in every run. -/
theorem counted_of_reachable (hreach : invocations.system.Reachable pool) :
    invocations.Counted pool := by
  refine TransitionSystem.invariant invocations.Counted ?_ ?_ hreach
  · rintro state rfl
    exact counted_start
  · rintro source ⟨i, choice⟩ target _ hsource hstep
    exact hsource.step hstep

/-- Whatever the order of the calls, the map is empty in the end. -/
theorem drained_of_reachable (invocations : Invocations ι) :
    ∀ pool, invocations.system.Reachable pool → pool.Drained :=
  fun _ hreach => (counted_of_reachable hreach).drained

/-- One invocation at most holds a guard of a key. -/
structure Alone (invocations : Invocations ι) (pool : InvocationPool ι) : Prop where
  counted : invocations.Counted pool
  unique : ∀ i j, pool.guard i = .holding → pool.guard j = .holding →
    (invocations.request i).lockKey = (invocations.request j).lockKey → i = j

/-- Every call keeps that, if guards are taken only while the map has no entry. -/
theorem Alone.step (h : invocations.Alone pool) {choice : ToolChoice}
    (hwaits : pool.Waits (i, choice))
    (hstep : InvocationPool.next pool (i, choice) = some next) : invocations.Alone next := by
  refine ⟨h.counted.step hstep, ?_⟩
  obtain ⟨op, answer, hhead, _, hpermits, hguard, _⟩ := h.counted.moves hstep
  have hothers : ∀ j, j ≠ i → next.guard j = pool.guard j := by
    intro j hj
    rw [hguard, Function.update_of_ne hj]
  by_cases hlock : ∃ key, op = .lock key
  · obtain ⟨key, rfl⟩ := hlock
    obtain ⟨rfl, _⟩ := hpermits
    obtain ⟨holders, hholders, hget⟩ := h.counted.counts (invocations.request i).lockKey
    have hnone : ∀ j, j ≠ i → next.guard j = .holding →
        (invocations.request j).lockKey ≠ (invocations.request i).lockKey := by
      intro j hj hholding hkey
      rw [hothers j hj] at hholding
      have hmem := (hholders.mem_iff j).mpr ⟨hkey, hholding⟩
      rw [hwaits _ hhead, entryFor, if_neg (List.ne_nil_of_mem hmem)] at hget
      cases hget
    intro first second hfirst hsecond hkey
    by_cases hi : first = i
    · by_contra hne
      subst hi
      exact hnone second (Ne.symm hne) hsecond hkey.symm
    · by_cases hj : second = i
      · subst hj
        exact absurd hkey (hnone first hi hfirst)
      · rw [hothers first hi] at hfirst
        rw [hothers second hj] at hsecond
        exact h.unique first second hfirst hsecond hkey
  · have hbefore : ∀ j, next.guard j = .holding → pool.guard j = .holding := by
      intro j hholding
      by_cases hj : j = i
      · subst hj
        rw [hguard, Function.update_self] at hholding
        cases op with
        | lock key => exact absurd ⟨key, rfl⟩ hlock
        | unlock _ => cases hholding
        | _ => exact hholding
      · exact (hothers j hj).symm.trans hholding
    intro first second hfirst hsecond hkey
    exact h.unique first second (hbefore first hfirst) (hbefore second hsecond) hkey

/-- Serial tools exclude themselves, as long as guards are taken only while the map has no
entry for their key. -/
theorem mutuallyExclusive_of_waits (invocations : Invocations ι) :
    MutuallyExclusive invocations (invocations.system.restrict InvocationPool.Waits) := by
  intro pool hreach
  have halone : invocations.Alone pool := by
    refine TransitionSystem.invariant invocations.Alone ?_ ?_ hreach
    · rintro state rfl
      exact ⟨counted_start, fun _ _ hi => nomatch hi⟩
    · rintro source ⟨i, choice⟩ target _ hsource ⟨hwaits, hstep⟩
      exact hsource.step hwaits hstep
  refine ⟨?_, halone.counted.drained⟩
  intro i j hi hj htool htenant
  apply halone.unique i j hi.holding hj.holding
  rw [InvokeRequest.lockKey, InvokeRequest.lockKey, htool, htenant]

end Invocations

namespace TwoSerial

/-- The same call of the tool that echoes, over and over. -/
def invocations : Invocations ℕ where
  crates := echoCrates
  results := ∅
  request _ := echoRequest "tenant-a"

/-- Both are looked up and take their guards. -/
def both : List (ℕ × ToolChoice) :=
  List.replicate 3 (0, echoChoice "first") ++ List.replicate 3 (1, echoChoice "second")

/-- Where the invocations are then. -/
def pool : InvocationPool ℕ :=
  (TransitionSystem.replay InvocationPool.next invocations.start both).getD invocations.start

theorem inside (i : ℕ) (h : pool.guard i = .holding) : invocations.Inside pool i := ⟨rfl, h⟩

end TwoSerial

/-- Nobody waits for the guard of another invocation. -/
theorem not_mutuallyExclusive_serial :
    ¬∀ invocations : Invocations ℕ, MutuallyExclusive invocations invocations.system := by
  intro h
  have hreach : TwoSerial.invocations.system.Reachable TwoSerial.pool :=
    TransitionSystem.reachable_of_replay TwoSerial.both rfl
  have hexclusive := (h _ _ hreach).1
  exact absurd (hexclusive 0 1 (TwoSerial.inside 0 rfl) (TwoSerial.inside 1 rfl) rfl rfl)
    (by decide)

end Soulbase.Tools
