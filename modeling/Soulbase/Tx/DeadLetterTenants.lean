/-
# Dead letters of several tenants

The outbox keys its messages by tenant and id, so two tenants may use the same
id. The dead store keys its letters by kind and id alone, and the reference with
which a letter is removed or replayed names no tenant either.

`not_deadLetterTenants_sameId` has the letter of one tenant replace that of another.
`deadLetterTenants_of_ownReferences` says when tenants do not meet: as long as a
reference is used by one tenant at a time. That a letter stays listable needs
more, for a push also replaces an older letter of the same tenant.
-/

import Soulbase.Foundation.Transition
import Soulbase.Tx.Memory.DeadStore

namespace Soulbase.Tx

open Soulbase.Foundation

/-- A call to the dead store. A removal and a replay are made for a letter of some
tenant, which the call itself does not mention. -/
inductive DeadCall
  | push (letter : DeadLetter)
  | get (reference : DeadLetterRef)
  | list (tenant : TenantId) (kind : Option DeadKind) (limit : Nat) (order : List LetterKey)
  | remove (tenant : TenantId) (reference : DeadLetterRef)
  | replay (tenant : TenantId) (reference : DeadLetterRef) (nowMs : Int64)
  | purgeOlderThan (tenant : TenantId) (beforeEpochMs : Int64)

namespace DeadCall

/-- The call is there to change something of the tenant's. -/
def IsFor : DeadCall → TenantId → Prop
  | push letter, tenant => letter.tenant = tenant
  | get _, _ | list .., _ => False
  | remove owner _, tenant | replay owner _ _, tenant | purgeOlderThan owner _, tenant =>
      owner = tenant

/-- The call is there to remove or to replay the letter. -/
def Ends : DeadCall → DeadLetter → Prop
  | push _, _ | get _, _ | list .., _ => False
  | remove tenant reference, letter | replay tenant reference _, letter =>
      tenant = letter.tenant ∧ reference = letter.reference
  | purgeOlderThan tenant beforeEpochMs, letter =>
      tenant = letter.tenant ∧ letter.occurredAt < beforeEpochMs

end DeadCall

namespace InMemoryDeadStore

/-- What a call does to the store. -/
def next (store : InMemoryDeadStore) : DeadCall → Option InMemoryDeadStore
  | .push letter => some (store.push letter)
  | .get _ => some store
  | .list _ _ _ order => if store.entries.Enumerates order then some store else none
  | .remove _ reference => some (store.remove reference)
  | .replay _ reference nowMs => some (store.replay reference nowMs).2
  | .purgeOlderThan tenant beforeEpochMs => some (store.purgeOlderThan tenant beforeEpochMs)

/-- Any calls in any order, to a store without letters over an outbox and sagas. -/
def calls (outbox : InMemoryOutboxStore) (saga : InMemorySagaStore) :
    TransitionSystem InMemoryDeadStore DeadCall :=
  TransitionSystem.ofNext { empty with outbox := outbox, saga := saga } next

/-- Its tenant finds the letter, under its kind and under any, when it asks for
enough letters. -/
def Lists (store : InMemoryDeadStore) (letter : DeadLetter) : Prop :=
  ∀ kind limit order, kind.all (letter.kind = ·) = true → store.entries.Enumerates order →
    order.length ≤ limit →
    ∃ letters, store.list letter.tenant kind limit order = .ok letters ∧ letter ∈ letters

/-- A call changes no letter and no message of a tenant that it is not made for. -/
structure KeepsTenantsApart (T : TransitionSystem InMemoryDeadStore DeadCall) : Prop where
  letters : ∀ store call after key letter, T.Reachable store → T.step store call after →
    store.find key = some letter → ¬call.IsFor letter.tenant → after.find key = some letter
  messages : ∀ store call after key message, T.Reachable store → T.step store call after →
    store.outbox.find key = some message → ¬call.IsFor message.tenant →
    after.outbox.find key = some message

/-- A letter that has been pushed stays listable until it is removed, replayed or
purged. -/
def KeepsListable (T : TransitionSystem InMemoryDeadStore DeadCall) : Prop :=
  ∀ store letter pushed later after, T.Reachable store → T.step store (.push letter) pushed →
    T.Run pushed later after → (∀ call ∈ later, ¬call.Ends letter) → after.Lists letter

/-- The tenants are kept apart in the one system, and letters stay listable in the
other. -/
structure DeadLetterTenants (apart listable : TransitionSystem InMemoryDeadStore DeadCall) :
    Prop where
  apart : KeepsTenantsApart apart
  listable : KeepsListable listable

/-- The letter that lies under the reference, if any, is of the tenant for which a
letter is pushed, removed or replayed. -/
def OwnReference (store : InMemoryDeadStore) : DeadCall → Prop
  | .push letter => ∀ stored, store.find letter.reference.key = some stored →
      stored.tenant = letter.tenant
  | .remove tenant reference | .replay tenant reference _ =>
      ∀ stored, store.find reference.key = some stored → stored.tenant = tenant
  | .get _ | .list .. | .purgeOlderThan .. => True

/-- The same, and a letter is pushed only where none lies under its reference. -/
def FreeReference (store : InMemoryDeadStore) : DeadCall → Prop
  | .push letter => store.find letter.reference.key = none
  | call => store.OwnReference call

section Steps

variable {store after : InMemoryDeadStore} {call : DeadCall}

/-- Distinct references have distinct keys. -/
theorem eq_of_key_eq {left right : DeadLetterRef} (h : left.key = right.key) :
    left = right := by
  obtain ⟨kind, ⟨id⟩⟩ := left
  obtain ⟨kind', ⟨id'⟩⟩ := right
  cases h
  rfl

theorem eq_of_next_list {tenant : TenantId} {kind : Option DeadKind} {limit : Nat}
    {order : List LetterKey} (h : store.next (.list tenant kind limit order) = some after) :
    after = store := by
  rw [next] at h
  split at h
  case isTrue =>
    cases h
    rfl
  case isFalse => cases h

/-- A replay leaves the letters under other references where they are. -/
theorem find_replay_of_ne {key : LetterKey} {reference : DeadLetterRef} (nowMs : Int64)
    (hkey : key ≠ reference.key) :
    (store.replay reference nowMs).2.find key = store.find key := by
  rcases store.replay_cases reference nowMs with
    ⟨_, heq⟩ | ⟨replayed, _, _, _, hsame, _, _, heq⟩ | ⟨replayed, _, _, hsame, _, heq⟩
  · rw [heq]
  · rw [heq, remove, find_erase, hsame, if_neg hkey]
    rfl
  · rw [heq, remove, find_erase, hsame, if_neg hkey]
    rfl

/-- A replay leaves the messages of other tenants than its letter's as they are. -/
theorem outbox_find_replay {key : MessageKey} {message : OutboxMessage}
    (hfind : store.outbox.find key = some message) (reference : DeadLetterRef) (nowMs : Int64) :
    (store.replay reference nowMs).2.outbox.find key = some message ∨
      ∃ letter, store.find reference.key = some letter ∧ letter.tenant = message.tenant := by
  rcases store.replay_cases reference nowMs with
    ⟨_, heq⟩ | ⟨letter, _, found, hletter, _, _, hfound, heq⟩ | ⟨_, _, _, _, _, heq⟩
  · rw [heq]
    exact .inl hfind
  · by_cases hkey : key = messageKey letter.tenant letter.reference.id
    · subst hkey
      rw [hfind] at hfound
      cases hfound
      have hsame := InMemoryOutboxStore.key_of_find hfind
      have htenant : letter.tenant = message.tenant := by
        apply TenantId.ext
        exact (congrArg Prod.fst hsame).symm
      exact .inr ⟨letter, hletter, htenant⟩
    · apply Or.inl
      have hne : key ≠ (InMemoryOutboxStore.revived nowMs found).key := by
        rwa [InMemoryOutboxStore.key_revived, InMemoryOutboxStore.key_of_find hfound]
      rw [heq]
      exact (InMemoryOutboxStore.find_insertRaw_of_ne hne).trans hfind
  · rw [heq]
    exact .inl hfind

/-- What a call may do to a stored letter: leave it there, push another one over it,
or end it. -/
theorem find_of_next (hnext : store.next call = some after) {key : LetterKey}
    {letter : DeadLetter} (hfind : store.find key = some letter) :
    after.find key = some letter ∨
      (∃ pushed, call = .push pushed ∧ pushed.reference.key = key) ∨
      (∃ tenant reference, reference.key = key ∧
        (call = .remove tenant reference ∨ ∃ nowMs, call = .replay tenant reference nowMs)) ∨
      call.Ends letter := by
  cases call with
  | push pushed =>
      cases hnext
      by_cases hkey : key = pushed.reference.key
      · exact .inr (.inl ⟨pushed, rfl, hkey.symm⟩)
      · apply Or.inl
        rw [find_push, if_neg hkey, hfind]
  | get _ =>
      cases hnext
      exact .inl hfind
  | list _ _ _ _ =>
      obtain rfl := eq_of_next_list hnext
      exact .inl hfind
  | remove tenant reference =>
      cases hnext
      by_cases hkey : key = reference.key
      · exact .inr (.inr (.inl ⟨tenant, reference, hkey.symm, .inl rfl⟩))
      · apply Or.inl
        rw [remove, find_erase, if_neg hkey, hfind]
  | replay tenant reference nowMs =>
      cases hnext
      by_cases hkey : key = reference.key
      · exact .inr (.inr (.inl ⟨tenant, reference, hkey.symm, .inr ⟨nowMs, rfl⟩⟩))
      · exact .inl ((find_replay_of_ne nowMs hkey).trans hfind)
  | purgeOlderThan tenant beforeEpochMs =>
      cases hnext
      rw [purgeOlderThan, find_foldl_erase]
      by_cases hkey : key ∈ store.expired tenant beforeEpochMs
      · have hexpired := (List.mem_filter.mp hkey).2
        rw [hfind, Option.any_some, decide_eq_true_eq] at hexpired
        exact .inr (.inr (.inr ⟨hexpired.1.symm, hexpired.2⟩))
      · rw [if_neg hkey]
        exact .inl hfind

/-- Only a replay changes the outbox, and only the message of the letter it reads. -/
theorem outbox_of_next (hnext : store.next call = some after) {key : MessageKey}
    {message : OutboxMessage} (hfind : store.outbox.find key = some message) :
    after.outbox.find key = some message ∨
      ∃ tenant reference nowMs letter, call = .replay tenant reference nowMs ∧
        store.find reference.key = some letter ∧ letter.tenant = message.tenant := by
  cases call with
  | push _ | get _ | remove _ _ =>
      cases hnext
      exact .inl hfind
  | list _ _ _ _ =>
      obtain rfl := eq_of_next_list hnext
      exact .inl hfind
  | purgeOlderThan tenant beforeEpochMs =>
      cases hnext
      apply Or.inl
      rw [purgeOlderThan, outbox_foldl_erase, hfind]
  | replay tenant reference nowMs =>
      cases hnext
      rcases outbox_find_replay hfind reference nowMs with
        hkept | ⟨letter, hletter, htenant⟩
      · exact .inl hkept
      · exact .inr ⟨tenant, reference, nowMs, letter, rfl, hletter, htenant⟩

/-- A stored letter is listable. -/
theorem lists_of_find {letter : DeadLetter}
    (hfind : store.find letter.reference.key = some letter) : store.Lists letter := by
  intro kind limit order hkind horder hlimit
  have hroom : store.entries.keys.length ≤ limit := horder.length_eq ▸ hlimit
  have hwanted : wanted letter.tenant kind letter = true := by simpa [wanted] using hkind
  exact ⟨_, rfl, (store.mem_listLoop horder hroom _ _ _).mpr ⟨_, hfind, hwanted⟩⟩

end Steps

/-- As long as references are used by one tenant at a time, tenants are kept apart,
and as long as they are free when a letter is pushed, letters stay listable. -/
theorem deadLetterTenants_of_ownReferences (outbox : InMemoryOutboxStore)
    (saga : InMemorySagaStore) :
    DeadLetterTenants ((calls outbox saga).restrict OwnReference)
      ((calls outbox saga).restrict FreeReference) := by
  constructor
  case apart =>
    constructor
    case letters =>
      intro store call after key letter _ ⟨hown, hnext⟩ hfind hnot
      rcases find_of_next hnext hfind with
        hkept | ⟨pushed, rfl, rfl⟩ | ⟨tenant, reference, rfl, hcall⟩ | hends
      · exact hkept
      · exact absurd (hown letter hfind).symm hnot
      · rcases hcall with rfl | ⟨nowMs, rfl⟩
        · exact absurd (hown letter hfind).symm hnot
        · exact absurd (hown letter hfind).symm hnot
      · cases call with
        | push _ | get _ | list _ _ _ _ => cases hends
        | remove _ _ | replay _ _ _ | purgeOlderThan _ _ => exact absurd hends.1 hnot
    case messages =>
      intro store call after key message _ ⟨hown, hnext⟩ hfind hnot
      rcases outbox_of_next hnext hfind with
        hkept | ⟨tenant, reference, nowMs, letter, rfl, hletter, htenant⟩
      · exact hkept
      · exact absurd ((hown letter hletter).symm.trans htenant) hnot
  case listable =>
    intro store letter pushed later after hreach hpush hrun hkept
    apply lists_of_find
    refine hrun.preserves (fun next => next.find letter.reference.key = some letter)
      (hreach.step hpush) ?_ ?_
    · intro before call next hmem _ hfind ⟨hfree, hnext⟩
      rcases find_of_next hnext hfind with
        hstays | ⟨other, rfl, hkey⟩ | ⟨tenant, reference, hkey, hcall⟩ | hends
      · exact hstays
      · rw [FreeReference, hkey, hfind] at hfree
        cases hfree
      · have hsame := eq_of_key_eq hkey
        subst hsame
        rcases hcall with rfl | ⟨nowMs, rfl⟩
        · exact absurd ⟨(hfree letter hfind).symm, rfl⟩ (hkept _ hmem)
        · exact absurd ⟨(hfree letter hfind).symm, rfl⟩ (hkept _ hmem)
      · exact absurd hends (hkept call hmem)
    · cases hpush.2
      rw [find_push, if_pos rfl]

namespace SameId

/-- A message that was given up, under the id that both tenants use. -/
def letter (tenant : String) : DeadLetter :=
  buildDeadLetter
    { id := ⟨"m"⟩, tenant := ⟨tenant⟩, envelopeId := ⟨"e"⟩, topic := "x", payload := .null,
      createdAt := 0, notBefore := 0, attempts := 3, status := .dead, lastError := none,
      dispatchKey := none, leaseUntil := none, worker := none } none 0

end SameId

/-- The letter of the first tenant is gone once the second tenant's is pushed. -/
theorem not_deadLetterTenants_sameId :
    ¬∀ outbox saga, DeadLetterTenants (calls outbox saga) (calls outbox saga) := by
  intro hall
  have h := hall .empty .empty
  have hreach : (calls .empty .empty).Reachable (empty.push (SameId.letter "t")) :=
    TransitionSystem.reachable_of_replay [.push (SameId.letter "t")] rfl
  have hother : ¬(SameId.letter "u").tenant = (SameId.letter "t").tenant := by decide
  have hkept := h.apart.letters (empty.push (SameId.letter "t")) (.push (SameId.letter "u")) _
    (.outbox, "m") (SameId.letter "t") hreach rfl rfl hother
  have htenant := congrArg (Option.map DeadLetter.tenant) hkept
  revert htenant
  decide

end InMemoryDeadStore

end Soulbase.Tx
