/-
# The in-memory dead-letter store

A map from kind and id to dead letters, next to the outbox and the saga store
into which letters are replayed. The source shares these two stores behind
reference-counted pointers; here the dead store owns them, and whoever shares
them reads them from it.

The key of a letter does not contain its tenant.
-/

import Soulbase.Tx.Memory.OutboxStore
import Soulbase.Tx.Memory.SagaStore

namespace Soulbase.Tx

open Soulbase.Foundation

/-- What a letter is stored under. -/
abbrev LetterKey := DeadKind × String

/-- `InMemoryDeadStore::key`. -/
def DeadLetterRef.key (reference : DeadLetterRef) : LetterKey :=
  (reference.kind, reference.id.asStr)

/-- `InMemoryDeadStore`. -/
structure InMemoryDeadStore where
  outbox : InMemoryOutboxStore
  saga : InMemorySagaStore
  /-- The letters. -/
  entries : HashMap LetterKey DeadLetter
  /-- Every letter lies under its own key. -/
  keyed : ∀ key letter, entries.get key = some letter → key = letter.reference.key

namespace InMemoryDeadStore

/-- `InMemoryDeadStore::new` over empty stores. -/
def empty : InMemoryDeadStore where
  outbox := .empty
  saga := .empty
  entries := ∅
  keyed := by simp

/-- The letter under a key. -/
def find (store : InMemoryDeadStore) (key : LetterKey) : Option DeadLetter :=
  store.entries.get key

/-- `InMemoryDeadStore::push`. It does not fail. -/
def push (store : InMemoryDeadStore) (letter : DeadLetter) : InMemoryDeadStore :=
  { store with
    entries := store.entries.put letter.reference.key letter
    keyed := by
      intro key stored h
      rw [HashMap.get_put] at h
      split at h
      case isTrue hkey =>
        cases h
        exact hkey
      case isFalse => exact store.keyed key stored h }

/-- Drop the letter under a key. -/
def erase (store : InMemoryDeadStore) (key : LetterKey) : InMemoryDeadStore :=
  { store with
    entries := store.entries.remove key
    keyed := by
      intro key' stored h
      rw [HashMap.get_remove] at h
      split at h
      case isTrue => cases h
      case isFalse => exact store.keyed key' stored h }

/-- A letter of the tenant, and of the kind if one is asked for. -/
def wanted (tenant : TenantId) (kind : Option DeadKind) (letter : DeadLetter) : Bool :=
  letter.tenant = tenant && kind.all (letter.kind = ·)

/-- The loop of `list`, with the letters found so far. The length is tested after a
letter has been added, so a limit of zero still yields one. -/
def listLoop (tenant : TenantId) (kind : Option DeadKind) (limit : Nat) :
    List DeadLetter → List DeadLetter → List DeadLetter
  | [], out => out
  | letter :: rest, out =>
      if ¬wanted tenant kind letter then listLoop tenant kind limit rest out
      else if (out ++ [letter]).length ≥ limit then out ++ [letter]
      else listLoop tenant kind limit rest (out ++ [letter])

/-- `InMemoryDeadStore::list`. `order` is the order in which the map yields its
values. -/
def list (store : InMemoryDeadStore) (tenant : TenantId) (kind : Option DeadKind)
    (limit : Nat) (order : List LetterKey) : TxResult (List DeadLetter) :=
  .ok (listLoop tenant kind limit (store.entries.valuesIn order) [])

/-- `InMemoryDeadStore::get`. -/
def get (store : InMemoryDeadStore) (reference : DeadLetterRef) :
    TxResult (Option DeadLetter) :=
  .ok (store.find reference.key)

/-- `InMemoryDeadStore::remove`. It does not fail. -/
def remove (store : InMemoryDeadStore) (reference : DeadLetterRef) : InMemoryDeadStore :=
  store.erase reference.key

/-- The saga of a letter, set running again as it was. -/
def restarted (nowMs : Int64) (saga : SagaInstance) : SagaInstance :=
  { saga with
    state := .running
    updatedAt := nowMs }

/-- `InMemoryDeadStore::replay`: revive the message or restart the saga, and drop
the letter. `nowMs` is the reading of the clock. -/
def replay (store : InMemoryDeadStore) (reference : DeadLetterRef) (nowMs : Int64) :
    TxResult Unit × InMemoryDeadStore :=
  match store.find reference.key with
  | none => (.error (.unknown "dead letter not found"), store)
  | some letter =>
      match letter.payload with
      | .outbox _ =>
          match store.outbox.revive letter.tenant letter.reference.id nowMs with
          | (.error error, outbox) => (.error error, { store with outbox := outbox })
          | (.ok (), outbox) =>
              (.ok (), { store with outbox := outbox }.remove letter.reference)
      | .saga saga =>
          match store.saga.save (restarted nowMs saga) with
          | (.error error, sagas) => (.error error, { store with saga := sagas })
          | (.ok (), sagas) =>
              (.ok (), { store with saga := sagas }.remove letter.reference)

/-- The letters that a purge drops. -/
def expired (store : InMemoryDeadStore) (tenant : TenantId) (beforeEpochMs : Int64) :
    List LetterKey :=
  store.entries.keys.filter fun key =>
    (store.find key).any fun letter =>
      letter.tenant = tenant ∧ letter.occurredAt < beforeEpochMs

/-- `InMemoryDeadStore::purge_older_than`. It does not fail. -/
def purgeOlderThan (store : InMemoryDeadStore) (tenant : TenantId)
    (beforeEpochMs : Int64) : InMemoryDeadStore :=
  (store.expired tenant beforeEpochMs).foldl erase store

/-- With room for all letters the loop yields all that are wanted. -/
theorem listLoop_eq {tenant : TenantId} {kind : Option DeadKind} {limit : Nat}
    {letters out : List DeadLetter} (hroom : out.length + letters.length ≤ limit) :
    listLoop tenant kind limit letters out = out ++ letters.filter (wanted tenant kind) := by
  induction letters generalizing out with
  | nil => simp [listLoop]
  | cons letter rest ih =>
      rw [List.length_cons] at hroom
      rw [listLoop]
      split
      case isTrue hother => rw [ih (by omega), List.filter_cons_of_neg hother]
      case isFalse hwanted =>
        rw [List.filter_cons_of_pos (not_not.mp hwanted)]
        split
        case isTrue hfull =>
          -- The loop ends early only where nothing is left to look at.
          rw [List.length_append, List.length_singleton] at hfull
          have hrest : rest = [] := List.length_eq_zero_iff.mp (by omega)
          rw [hrest, List.filter_nil]
        case isFalse =>
          rw [ih (by rw [List.length_append, List.length_singleton]; omega),
            List.append_assoc, List.singleton_append]

section Lemmas

variable (store : InMemoryDeadStore)

@[simp]
theorem find_empty (key : LetterKey) : empty.find key = none := HashMap.get_empty key

theorem find_push (letter : DeadLetter) (key : LetterKey) :
    (store.push letter).find key =
      if key = letter.reference.key then some letter else store.find key :=
  HashMap.get_put _ _ _ _

theorem find_erase (key other : LetterKey) :
    (store.erase key).find other = if other = key then none else store.find other :=
  HashMap.get_remove _ _ _

theorem outbox_foldl_erase (keys : List LetterKey) :
    (keys.foldl erase store).outbox = store.outbox := by
  induction keys generalizing store with
  | nil => rfl
  | cons key rest ih => exact ih (store.erase key)

/-- Dropping keys one after the other keeps the others. -/
theorem find_foldl_erase (keys : List LetterKey) (other : LetterKey) :
    (keys.foldl erase store).find other = if other ∈ keys then none else store.find other := by
  induction keys generalizing store with
  | nil => rfl
  | cons key rest ih =>
      rw [List.foldl_cons, ih, find_erase]
      by_cases hkey : other = key <;> simp [hkey]

/-- With room for all letters, those are listed that are wanted. -/
theorem mem_listLoop {limit : Nat} {order : List LetterKey}
    (horder : store.entries.Enumerates order) (hlimit : store.entries.keys.length ≤ limit)
    (tenant : TenantId) (kind : Option DeadKind) (letter : DeadLetter) :
    letter ∈ listLoop tenant kind limit (store.entries.valuesIn order) [] ↔
      ∃ key, store.find key = some letter ∧ wanted tenant kind letter = true := by
  have hroom : ([] : List DeadLetter).length + (store.entries.valuesIn order).length ≤ limit := by
    rw [List.length_nil, Nat.zero_add]
    exact horder.length_valuesIn_le.trans hlimit
  rw [listLoop_eq hroom, List.nil_append, List.mem_filter, horder.mem_valuesIn]
  exact exists_and_right.symm

/-- A replay fails and changes nothing, or it revives the message or restarts the
saga of a letter and drops the letter. -/
theorem replay_cases (reference : DeadLetterRef) (nowMs : Int64) :
    (∃ error, store.replay reference nowMs = (.error error, store)) ∨
      (∃ letter message found, store.find reference.key = some letter ∧
        letter.reference.key = reference.key ∧ letter.payload = .outbox message ∧
        store.outbox.find (messageKey letter.tenant letter.reference.id) = some found ∧
        store.replay reference nowMs =
          (.ok (), { store with
            outbox := store.outbox.insertRaw
              (InMemoryOutboxStore.revived nowMs found) }.remove letter.reference)) ∨
      ∃ letter saga, store.find reference.key = some letter ∧
        letter.reference.key = reference.key ∧ letter.payload = .saga saga ∧
        store.replay reference nowMs =
          (.ok (), { store with
            saga := store.saga.put (restarted nowMs saga) }.remove letter.reference) := by
  cases hfind : store.find reference.key with
  | none => exact .inl ⟨_, by simp only [replay, hfind]; rfl⟩
  | some letter =>
      have hkey := (store.keyed _ letter hfind).symm
      cases hpayload : letter.payload with
      | outbox message =>
          cases hfound : store.outbox.find
              (messageKey letter.tenant letter.reference.id) with
          | none =>
              have hrevive : store.outbox.revive letter.tenant letter.reference.id nowMs = _ :=
                InMemoryOutboxStore.withMessage_of_missing hfound
              exact .inl ⟨_, by simp only [replay, hfind, hpayload, hrevive]; rfl⟩
          | some found =>
              have hrevive : store.outbox.revive letter.tenant letter.reference.id nowMs = _ :=
                InMemoryOutboxStore.withMessage_of_find hfound rfl
              exact .inr (.inl ⟨letter, message, found, rfl, hkey, hpayload, hfound,
                by simp only [replay, hfind, hpayload, hrevive]⟩)
      | saga saga =>
          rcases store.saga.save_cases (restarted nowMs saga) with ⟨error, hsave⟩ | hsave
          · exact .inl ⟨error, by simp only [replay, hfind, hpayload, hsave]⟩
          · exact .inr (.inr ⟨letter, saga, rfl, hkey, hpayload,
              by simp only [replay, hfind, hpayload, hsave]⟩)

end Lemmas

end InMemoryDeadStore

end Soulbase.Tx
