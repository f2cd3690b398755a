/-
# Terminal statuses

`Done` and `Dead` are meant to be final: selection passes over such a message,
and only `revive` puts it back. The operations that end the processing of a
message do not look at its status, though, so a worker that has been overtaken
can still put an acknowledged message back with a late `nack_backoff`.

`not_terminalFinal_lateNack` is such a run. `terminalFinal_of_handlesOwn` says when
the statuses are final: as long as a dispatcher sends and settles a message only
while nobody else has leased it since.
-/

import Soulbase.Tx.Fleet

namespace Soulbase.Tx

open Soulbase.Foundation OutboxEvent

variable {ι : Type} [DecidableEq ι]

/-- Along every run that does not revive a message, its terminal status stays as
it is, and once it is acknowledged it is neither leased nor sent. -/
structure TerminalFinal (T : TransitionSystem (FleetState ι) (FleetAction ι)) : Prop where
  /-- A terminal status does not change. -/
  unchanged : ∀ state actions after key message, T.Reachable state →
    T.Run state actions after → state.shared.store.find key = some message →
    message.status.isTerminal = true → (∀ action ∈ actions, action.revives ≠ some key) →
    ∃ kept, after.shared.store.find key = some kept ∧ kept.status = message.status
  /-- An acknowledged message is left alone. -/
  unhandled : ∀ state actions after key message, T.Reachable state →
    T.Run state actions after → state.shared.store.find key = some message →
    message.status = .done → (∀ action ∈ actions, action.revives ≠ some key) →
    ∃ recent, after.shared.log = recent ++ state.shared.log ∧
      ∀ event ∈ recent, event.handled ≠ some key

/-- When a dispatcher sends or settles a message, nobody has leased the message
since that dispatcher did. -/
def HandlesOwn (fleet : Fleet ι) (state : FleetState ι) : FleetAction ι → Prop
  | .call i _ => ∀ op key, (state.threads i).head? = some op → op.handles = some key →
      state.shared.LastLeasedBy (fleet.workerId i) key
  | _ => True

/-- A message held by the dispatcher that was the last to lease it has not
reached a terminal status. -/
def Unfinished (fleet : Fleet ι) (held : ι → List MessageKey) (world : OutboxWorld) :
    Prop :=
  ∀ i key, key ∈ held i → world.LastLeasedBy (fleet.workerId i) key →
    ∃ message, world.store.find key = some message ∧ message.status.isTerminal = false

/-- What a step leaves of a message in a terminal status. -/
structure LeftAlone (key : MessageKey) (status : OutboxStatus) (before after : OutboxWorld) :
    Prop where
  status : ∃ kept, after.store.find key = some kept ∧ kept.status = status
  unhandled : ∃ recent, after.log = recent ++ before.log ∧
    ∀ event ∈ recent, event.handled ≠ some key

/-- Moving the end of a lease leaves every status as it is. -/
theorem find_insertRaw_renewed {store : InMemoryOutboxStore} {key renewedKey : MessageKey}
    {message renewed : OutboxMessage} (hrenewed : store.find renewedKey = some renewed)
    (hfind : store.find key = some message) (leaseUntil : Int64) :
    ∃ kept, (store.insertRaw (InMemoryOutboxStore.renewed leaseUntil renewed)).find key =
        some kept ∧ kept.status = message.status := by
  rw [InMemoryOutboxStore.find_insertRaw, InMemoryOutboxStore.key_renewed]
  split
  case isTrue hkey =>
    rw [hkey, InMemoryOutboxStore.key_of_find hrenewed, hrenewed] at hfind
    cases hfind
    exact ⟨_, rfl, rfl⟩
  case isFalse => exact ⟨message, hfind, rfl⟩

section Steps

variable {fleet : Fleet ι} {held : ι → List MessageKey} {world : OutboxWorld}

omit [DecidableEq ι] in
/-- Writing a message that is not in a terminal status. -/
theorem Unfinished.insertRaw (h : Unfinished fleet held world) {message : OutboxMessage}
    (hactive : message.status.isTerminal = false) :
    Unfinished fleet held { world with store := world.store.insertRaw message } := by
  intro i key hheld hlast
  by_cases hkey : key = message.key
  · subst hkey
    exact ⟨message, InMemoryOutboxStore.find_insertRaw_self _ _, hactive⟩
  · rw [InMemoryOutboxStore.find_insertRaw_of_ne hkey]
    exact h i key hheld hlast

theorem Unfinished.lease (h : Unfinished fleet held world) {i : ι} {tenant : TenantId}
    {nowMs leaseUntil : Int64} {leased : List OutboxMessage} {after : InMemoryOutboxStore}
    (hleases : world.store.Leases tenant nowMs (fleet.workerId i) leaseUntil leased after) :
    Unfinished fleet (Function.update held i (leased.map (·.key)))
      { store := after
        clock := nowMs
        log := OutboxWorld.leaseEvents (fleet.workerId i) leaseUntil leased ++ world.log } := by
  intro j key hheld hlast
  rw [OutboxWorld.LastLeasedBy, OutboxWorld.lastHolder_leaseEvents] at hlast
  by_cases hkey : key ∈ leased.map (·.key)
  · obtain ⟨old, _, _, hstored⟩ := hleases.of_mem_keys hkey
    exact ⟨_, hstored, rfl⟩
  · rw [if_neg hkey] at hlast
    have hj : j ≠ i := by
      rintro rfl
      rw [Function.update_self] at hheld
      exact hkey hheld
    rw [Function.update_of_ne hj] at hheld
    obtain ⟨message, hfind, hactive⟩ := h j key hheld hlast
    exact ⟨message, (hleases.frame key hkey).trans hfind, hactive⟩

/-- After a settlement nobody who was the last to lease the message holds it. -/
theorem Unfinished.settle (h : Unfinished fleet held world) (hdistinct : fleet.Distinct)
    {i : ι} {op : DispatchOp} {message : OutboxMessage}
    (hlast : world.LastLeasedBy (fleet.workerId i) message.key) :
    Unfinished fleet (Function.update held i ((held i).filter (· ≠ message.key)))
      { world with store := world.store.insertRaw (op.rewrite message) } := by
  intro j other hheld hother
  have hheldBefore := Fleet.mem_of_mem_update_filter hheld
  have hne : other ≠ (op.rewrite message).key := by
    rw [DispatchOp.key_rewrite]
    rintro rfl
    have hji := hdistinct j i (Option.some.inj (hother.symm.trans hlast))
    exact hheldBefore.2 hji rfl
  rw [InMemoryOutboxStore.find_insertRaw_of_ne hne]
  exact h j other hheldBefore.1 hother

omit [DecidableEq ι] in
/-- A heartbeat leaves the status of the message. -/
theorem Unfinished.heartbeat (h : Unfinished fleet held world) (i : ι)
    (tenant : TenantId) (id : Id) (leaseUntil : Int64) :
    Unfinished fleet held (world.heartbeat (fleet.workerId i) tenant id leaseUntil) := by
  rcases world.heartbeat_cases (fleet.workerId i) tenant id leaseUntil with
    heq | ⟨renewed, hrenewed, _, heq⟩
  · rwa [heq]
  rw [heq]
  intro j key hheld hlast
  obtain ⟨message, hfind, hactive⟩ := h j key hheld hlast
  obtain ⟨kept, hkept, hstatus⟩ := find_insertRaw_renewed hrenewed hfind leaseUntil
  rw [← hstatus] at hactive
  exact ⟨kept, hkept, hactive⟩

/-- One step, as long as nobody is overtaken. -/
theorem Unfinished.step {state after : FleetState ι} {action : FleetAction ι}
    {held' : ι → List MessageKey} (h : Unfinished fleet held state.shared)
    (hdistinct : fleet.Distinct) (howns : HandlesOwn fleet state action)
    (hstep : fleet.Step held state action held' after) :
    Unfinished fleet held' after.shared := by
  cases hstep with
  | tick =>
      intro j key hheld
      exact h j key (Fleet.mem_of_mem_update (List.nil_subset _) hheld)
  | @enqueue message createdAt notBefore =>
      rcases state.shared.enqueue_cases message createdAt notBefore with heq | ⟨_, heq⟩
      · rwa [heq]
      · rw [heq]
        exact h.insertRaw rfl
  | heartbeat => exact h.heartbeat _ _ _ _
  | @revive tenant id time =>
      rcases state.shared.revive_cases tenant id time with heq | ⟨_, _, heq⟩
      · rwa [heq]
      · rw [heq]
        exact h.insertRaw rfl
  | call hthread hpermits heffect =>
      cases heffect with
      | lease hleases =>
          subst hpermits
          exact h.lease hleases
      | send =>
          rw [show (holding _).after _ (.send _) _ = held _ from rfl,
            Function.update_eq_self]
          exact h
      | settle hop hfind =>
          have hkey := InMemoryOutboxStore.key_of_find hfind
          rw [after_of_settles hop, ← hkey]
          apply h.settle hdistinct
          apply howns _ _ (by rw [hthread]; rfl)
          rw [DispatchOp.handles_of_settles hop, hkey]
      | missing hop _ =>
          rw [after_of_settles hop]
          intro j key hheld
          exact h j key (Fleet.mem_of_mem_update_filter hheld).1
      | bystander hop =>
          rw [after_of_isBystander hop, Function.update_eq_self]
          exact h

omit [DecidableEq ι] in
/-- A dispatcher that nobody has overtaken handles no message in a terminal
status. -/
theorem Unfinished.ne_of_handles (h : Unfinished fleet held world) {i : ι}
    {handled key : MessageKey} {message : OutboxMessage}
    (hheld : handled ∈ held i) (hlast : world.LastLeasedBy (fleet.workerId i) handled)
    (hfind : world.store.find key = some message)
    (hterminal : message.status.isTerminal = true) : key ≠ handled := by
  rintro rfl
  obtain ⟨message', hfind', hactive⟩ := h i key hheld hlast
  rw [hfind] at hfind'
  cases hfind'
  rw [hactive] at hterminal
  cases hterminal

section LeftAlone

variable {key : MessageKey} {message : OutboxMessage}

theorem LeftAlone.of_find_eq {after : OutboxWorld} (hfind : world.store.find key = some message)
    (hsame : after.store.find key = world.store.find key) (hlog : after.log = world.log) :
    LeftAlone key message.status world after :=
  ⟨⟨message, hsame.trans hfind, rfl⟩, [], hlog, by simp⟩

/-- Writing another message. -/
theorem LeftAlone.insertRaw (hfind : world.store.find key = some message)
    {other : OutboxMessage} (hother : key ≠ other.key) :
    LeftAlone key message.status world { world with store := world.store.insertRaw other } :=
  .of_find_eq hfind (InMemoryOutboxStore.find_insertRaw_of_ne hother) rfl

/-- A heartbeat, also of the message itself. -/
theorem LeftAlone.heartbeat (hfind : world.store.find key = some message) (worker : String)
    (tenant : TenantId) (id : Id) (leaseUntil : Int64) :
    LeftAlone key message.status world (world.heartbeat worker tenant id leaseUntil) := by
  rcases world.heartbeat_cases worker tenant id leaseUntil with
    heq | ⟨renewed, hrenewed, _, heq⟩
  · rw [heq]
    exact .of_find_eq hfind rfl rfl
  · rw [heq]
    exact ⟨find_insertRaw_renewed hrenewed hfind leaseUntil, [_], rfl, by simp [handled]⟩

/-- A message in a terminal status is not selected. -/
theorem LeftAlone.lease (hfind : world.store.find key = some message)
    (hterminal : message.status.isTerminal = true) {worker : String} {tenant : TenantId}
    {nowMs leaseUntil : Int64} {batch : List OutboxMessage} {after : InMemoryOutboxStore}
    (hleases : world.store.Leases tenant nowMs worker leaseUntil batch after) :
    LeftAlone key message.status world
      { store := after
        clock := nowMs
        log := OutboxWorld.leaseEvents worker leaseUntil batch ++ world.log } := by
  have hkey : ∀ leased ∈ batch, key ≠ leased.key := by
    rintro leased hmem rfl
    obtain ⟨old, hold, hselectable, _⟩ := hleases.granted leased hmem
    rw [hfind] at hold
    cases hold
    rw [hselectable.not_terminal] at hterminal
    cases hterminal
  refine ⟨⟨message, ?_, rfl⟩, _, rfl, ?_⟩
  · rw [hleases.frame key, hfind]
    intro hmem
    obtain ⟨leased, hleased, hsame⟩ := List.mem_map.mp hmem
    exact hkey leased hleased hsame.symm
  · intro event hevent
    obtain ⟨leased, hleased, hhandled⟩ := OutboxWorld.handled_of_mem_leaseEvents hevent
    rw [hhandled]
    exact fun hsame => hkey leased hleased (Option.some.inj hsame).symm

end LeftAlone

/-- One step that does not revive the message. -/
theorem Unfinished.leftAlone {state after : FleetState ι} {action : FleetAction ι}
    {held' : ι → List MessageKey} (h : Unfinished fleet held state.shared)
    (howns : HandlesOwn fleet state action)
    (hstep : fleet.Step held state action held' after) {key : MessageKey}
    {message : OutboxMessage} (hfind : state.shared.store.find key = some message)
    (hterminal : message.status.isTerminal = true) (hrevive : action.revives ≠ some key) :
    LeftAlone key message.status state.shared after.shared := by
  cases hstep with
  | tick => exact .of_find_eq hfind rfl rfl
  | @enqueue new createdAt notBefore =>
      rcases state.shared.enqueue_cases new createdAt notBefore with heq | ⟨hfree, heq⟩
      · rw [heq]
        exact .of_find_eq hfind rfl rfl
      · rw [heq]
        apply LeftAlone.insertRaw hfind
        rintro rfl
        rw [hfree] at hfind
        cases hfind
  | heartbeat => exact .heartbeat hfind _ _ _ _
  | @revive tenant id time =>
      rcases state.shared.revive_cases tenant id time with heq | ⟨found, hfound, heq⟩
      · rw [heq]
        exact .of_find_eq hfind rfl rfl
      · rw [heq]
        apply LeftAlone.insertRaw hfind
        rw [InMemoryOutboxStore.key_revived, InMemoryOutboxStore.key_of_find hfound]
        exact fun hkey => hrevive (congrArg some hkey.symm)
  | @call i choice op resume answer world threads hthread hpermits heffect =>
      have hlast : ∀ handled, op.handles = some handled →
          state.shared.LastLeasedBy (fleet.workerId i) handled :=
        fun handled => howns op handled (by rw [hthread]; rfl)
      cases heffect with
      | lease hleases => exact .lease hfind hterminal hleases
      | send =>
          have hne := h.ne_of_handles hpermits (hlast _ rfl) hfind hterminal
          refine ⟨⟨message, hfind, rfl⟩, [_], rfl, ?_⟩
          simpa [handled] using hne.symm
      | settle hop hsettled =>
          apply LeftAlone.insertRaw hfind
          rw [DispatchOp.key_rewrite, InMemoryOutboxStore.key_of_find hsettled]
          exact h.ne_of_handles (mem_of_permits hop hpermits)
            (hlast _ (DispatchOp.handles_of_settles hop)) hfind hterminal
      | missing | bystander => exact .of_find_eq hfind rfl rfl

end Steps

/-- The runs of the fleet in which nobody is overtaken. -/
def Fleet.notOvertaken (fleet : Fleet ι) :
    TransitionSystem (FleetState ι) (FleetAction ι) :=
  fleet.system.restrict (HandlesOwn fleet)

theorem unfinished_of_reachable {fleet : Fleet ι} (hdistinct : fleet.Distinct)
    {state : FleetState ι} (h : fleet.notOvertaken.Reachable state) :
    ∃ held, fleet.Holds held state ∧ Unfinished fleet held state.shared := by
  refine TransitionSystem.invariant
    (fun state => ∃ held, fleet.Holds held state ∧ Unfinished fleet held state.shared)
    ?_ ?_ h
  · rintro _ rfl
    exact ⟨fun _ => [], fleet.holds_start, by simp [Unfinished]⟩
  · rintro source action target _ ⟨held, hholds, hunfinished⟩ ⟨howns, hnext⟩
    obtain ⟨held', hstep, hholds'⟩ := Fleet.step_of_next hholds hnext
    exact ⟨held', hholds', hunfinished.step hdistinct howns hstep⟩

/-- Along a run a message in a terminal status is left alone. -/
theorem leftAlone_of_run {fleet : Fleet ι} (hdistinct : fleet.Distinct)
    {state after : FleetState ι} {actions : List (FleetAction ι)} {key : MessageKey}
    {message : OutboxMessage} (hreach : fleet.notOvertaken.Reachable state)
    (hrun : fleet.notOvertaken.Run state actions after)
    (hfind : state.shared.store.find key = some message)
    (hterminal : message.status.isTerminal = true)
    (hrevive : ∀ action ∈ actions, action.revives ≠ some key) :
    LeftAlone key message.status state.shared after.shared := by
  refine hrun.preserves
    (fun middle => LeftAlone key message.status state.shared middle.shared) hreach ?_
    (.of_find_eq hfind rfl rfl)
  rintro before action next haction hbefore ⟨⟨kept, hkept, hstatus⟩, recent, hlog, hrecent⟩
    ⟨howns, hnext⟩
  obtain ⟨held, hholds, hunfinished⟩ := unfinished_of_reachable hdistinct hbefore
  obtain ⟨held', hstep, _⟩ := Fleet.step_of_next hholds hnext
  obtain ⟨hstatus', later, hlog', hlater⟩ := hunfinished.leftAlone howns hstep hkept
    (by rwa [hstatus]) (hrevive action haction)
  rw [hstatus] at hstatus'
  refine ⟨hstatus', later ++ recent, by rw [hlog', hlog, List.append_assoc], ?_⟩
  intro event hevent
  exact (List.mem_append.mp hevent).elim (hlater event) (hrecent event)

/-- While nobody is overtaken, terminal statuses are final. -/
theorem terminalFinal_of_handlesOwn (fleet : Fleet ι) (hdistinct : fleet.Distinct) :
    TerminalFinal fleet.notOvertaken := by
  constructor
  case unchanged =>
    intro state actions after key message hreach hrun hfind hterminal hrevive
    exact (leftAlone_of_run hdistinct hreach hrun hfind hterminal hrevive).status
  case unhandled =>
    intro state actions after key message hreach hrun hfind hdone hrevive
    exact (leftAlone_of_run hdistinct hreach hrun hfind (by rw [hdone]; rfl) hrevive).unhandled

theorem terminalFinal_twoWorkers :
    TwoWorkers.fleet.Distinct ∧ TerminalFinal TwoWorkers.fleet.notOvertaken :=
  ⟨TwoWorkers.distinct_fleet, terminalFinal_of_handlesOwn _ TwoWorkers.distinct_fleet⟩

namespace LateNack

open TwoWorkers

/-- `A` leases the message at time 0 and its send fails at time 10. Meanwhile `B`
has leased the message, sent it and acknowledged it. -/
def untilAcknowledged : List (FleetAction Bool) :=
  [.enqueue request 0 0,
    .tick false ⟨"t"⟩ 0, .call false (.order [("t", "m")]),
    .call false (.outcome (.ok ())),
    .call false (.outcome (.error (.timeout "no answer"))),
    .tick true ⟨"t"⟩ 10, .call true (.order [("t", "m")]),
    .call true (.outcome (.ok ())), .call true (.outcome (.ok ())), .call true .none]

/-- `A` computes the time of its next attempt and puts the message back. -/
def lateNack : List (FleetAction Bool) := [.call false (.time 20), .call false .none]

/-- The state in which the message is acknowledged. -/
def acknowledged : FleetState Bool :=
  (TransitionSystem.replayWithin fleet.next Fleet.KeepsTime Fleet.start
    untilAcknowledged).getD Fleet.start

/-- The state in which it is put back. -/
def putBack : FleetState Bool :=
  (TransitionSystem.replayWithin fleet.next Fleet.KeepsTime acknowledged lateNack).getD
    acknowledged

end LateNack

/-- `A` undoes the acknowledgement of `B`, in a run whose times do not go back. -/
theorem not_terminalFinal_lateNack : ¬TerminalFinal TwoWorkers.fleet.inOrder := by
  intro h
  have hreach : TwoWorkers.fleet.inOrder.Reachable LateNack.acknowledged :=
    TransitionSystem.reachable_of_replayWithin LateNack.untilAcknowledged (.init rfl) rfl
  have hrun : TwoWorkers.fleet.inOrder.Run LateNack.acknowledged LateNack.lateNack
      LateNack.putBack := TransitionSystem.run_of_replayWithin rfl
  obtain ⟨kept, hfind, hstatus⟩ := h.unchanged _ _ _ ("t", "m")
    (InMemoryOutboxStore.acked (buildOutboxMessage TwoWorkers.request 0 0)) hreach hrun rfl
    rfl (by decide)
  have hpending : (LateNack.putBack.shared.store.find ("t", "m")).map (·.status) =
      some .pending := by decide
  rw [hfind, Option.map_some, hstatus] at hpending
  cases hpending

end Soulbase.Tx
