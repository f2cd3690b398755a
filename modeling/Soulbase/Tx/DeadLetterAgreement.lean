/-
# The two dead-letter stores

The in-memory store and the SurrealDB store are new, and are given the same calls for one
tenant. Pushing a letter succeeds in both, but in the database it updates a row that is not
there: the table stays empty for good. So the stores agree for as long as nobody looks for
a letter that has been pushed and has not been removed or purged.
-/

import Soulbase.Foundation.Lockstep
import Soulbase.Json
import Soulbase.Tx.Memory.DeadStore
import Soulbase.Tx.Surreal.DeadStore

namespace Soulbase.Tx

open Soulbase.Foundation

/-- A call of a dead-letter store for one tenant, with the orders in which the stores yield
what they hold. -/
inductive LetterCall
  | push (letter : DeadLetter)
  | get (reference : DeadLetterRef) (rowOrder : List String)
  | list (kind : Option DeadKind) (limit : Nat) (storeOrder : List LetterKey)
      (rowOrder : List String)
  | remove (reference : DeadLetterRef)
  | purgeOlderThan (beforeEpochMs : Int64)

/-- What a call returns. -/
abbrev LetterCall.Answer : LetterCall → Type
  | push _ => TxResult Unit
  | get .. => TxResult (Option DeadLetter)
  | list .. => TxResult (List DeadLetter)
  | remove _ => TxResult Unit
  | purgeOlderThan _ => TxResult Unit

/-- The calls of the in-memory store. -/
def InMemoryDeadStore.serve (tenant : TenantId) :
    Machine InMemoryDeadStore LetterCall LetterCall.Answer
  | store, .push letter => (.ok (), store.push { letter with tenant := tenant })
  | store, .get reference _ => (store.get reference, store)
  | store, .list kind limit storeOrder _ => (store.list tenant kind limit storeOrder, store)
  | store, .remove reference => (.ok (), store.remove reference)
  | store, .purgeOlderThan beforeEpochMs => (.ok (), store.purgeOlderThan tenant beforeEpochMs)

/-- The calls of the SurrealDB store. -/
def SurrealDeadStore.serve (codec : PayloadCodec) (tenant : TenantId) :
    Machine DeadRows LetterCall LetterCall.Answer
  | rows, .push letter => push codec rows { letter with tenant := tenant }
  | rows, .get reference rowOrder => (get codec rows reference rowOrder, rows)
  | rows, .list kind limit _ rowOrder => (list codec rows tenant kind limit rowOrder, rows)
  | rows, .remove reference => remove rows reference
  | rows, .purgeOlderThan beforeEpochMs => purgeOlderThan rows tenant beforeEpochMs

/-- Answers of a call that count as the same. What is listed is compared as a set. -/
def LetterCall.Same : (call : LetterCall) → call.Answer → call.Answer → Prop
  | push _ => EndAlike (· = ·)
  | get .. => EndAlike (· = ·)
  | list .. => EndAlike fun letters others => ∀ letter, letter ∈ letters ↔ letter ∈ others
  | remove _ => EndAlike (· = ·)
  | purgeOlderThan _ => EndAlike (· = ·)

/-- A list has room for all letters, and each store goes through all that it holds. -/
def LetterCall.Admitted (store : InMemoryDeadStore) (rows : DeadRows) : LetterCall → Prop
  | get _ rowOrder => rows.Enumerates rowOrder
  | list _ limit storeOrder rowOrder =>
      store.entries.Enumerates storeOrder ∧ store.entries.keys.length ≤ limit ∧
        rows.Enumerates rowOrder ∧ rows.keys.length ≤ limit
  | _ => True

/-- A call that the stores treat alike: it does not look for a letter that is there. What
is pushed can be serialized. -/
def LetterCall.TreatedAlike (codec : PayloadCodec) (tenant : TenantId)
    (store : InMemoryDeadStore) : LetterCall → Prop
  | push letter => ∃ payload, codec.toValue letter.payload = .ok payload
  | get reference _ => store.find reference.key = none
  | list kind _ _ _ => ∀ key letter, store.find key = some letter →
      InMemoryDeadStore.wanted tenant kind letter = false
  | remove _ | purgeOlderThan _ => True

section Steps

variable {codec : PayloadCodec} {tenant : TenantId} {store : InMemoryDeadStore}
variable {rows : DeadRows}

/-- Calls of an empty table leave it empty. -/
theorem SurrealDeadStore.vacant_serve (h : rows.Vacant) (call : LetterCall) :
    (SurrealDeadStore.serve codec tenant rows call).2.Vacant := by
  cases call with
  | push letter => exact push_of_vacant h _
  | get reference rowOrder => exact h
  | list kind limit storeOrder rowOrder => exact h
  | remove reference => exact h.deleteWhere
  | purgeOlderThan beforeEpochMs => exact h.deleteWhere

/-- With an empty table, the calls that end alike are those that are treated alike. -/
theorem LetterCall.same_iff_treatedAlike (call : LetterCall) (h : rows.Vacant)
    (hadmitted : call.Admitted store rows) :
    call.Same (InMemoryDeadStore.serve tenant store call).1
        (SurrealDeadStore.serve codec tenant rows call).1 ↔
      call.TreatedAlike codec tenant store := by
  cases call with
  | push letter =>
      simp only [LetterCall.TreatedAlike, SurrealDeadStore.serve, SurrealDeadStore.push,
        deadDocFromLetter]
      cases hpayload : codec.toValue letter.payload with
      | error err => exact iff_of_false not_false (by simp)
      | ok payload => exact iff_of_true rfl ⟨payload, rfl⟩
  | get reference rowOrder =>
      simp only [LetterCall.TreatedAlike, SurrealDeadStore.serve,
        SurrealDeadStore.get_of_vacant h]
      exact Iff.rfl
  | list kind limit storeOrder rowOrder =>
      obtain ⟨hstore, hlimit, _⟩ := hadmitted
      have hmem := store.mem_listLoop hstore hlimit tenant kind
      simp only [LetterCall.TreatedAlike, SurrealDeadStore.serve,
        SurrealDeadStore.list_of_vacant h]
      constructor
      · intro hsame key letter hfind
        rw [← Bool.not_eq_true]
        intro hwanted
        exact List.not_mem_nil ((hsame letter).mp ((hmem letter).mpr ⟨key, hfind, hwanted⟩))
      · intro hnone letter
        refine iff_of_false ?_ List.not_mem_nil
        intro hletter
        obtain ⟨key, hfind, hwanted⟩ := (hmem letter).mp hletter
        rw [hnone key letter hfind] at hwanted
        cases hwanted
  | remove reference => exact iff_of_true rfl trivial
  | purgeOlderThan beforeEpochMs => exact iff_of_true rfl trivial

end Steps

/-- New stores answer the calls of a history alike. -/
def DeadStoresAgree (codec : PayloadCodec) (tenant : TenantId) (calls : List LetterCall) : Prop :=
  Machine.Agree (InMemoryDeadStore.serve tenant) (SurrealDeadStore.serve codec tenant)
    LetterCall.Same .empty ∅ calls

/-- A condition on every call of a history of new stores. -/
def AlongLetterCalls (codec : PayloadCodec) (tenant : TenantId)
    (condition : InMemoryDeadStore → DeadRows → LetterCall → Prop) (calls : List LetterCall) :
    Prop :=
  Machine.Meets (InMemoryDeadStore.serve tenant) (SurrealDeadStore.serve codec tenant) condition
    .empty ∅ calls

/-- The stores agree on a history exactly if none of its calls looks for a letter that has
been pushed and is still there. -/
theorem deadStoresAgree_iff_treatedAlike (codec : PayloadCodec) (tenant : TenantId)
    (calls : List LetterCall)
    (hadmitted : AlongLetterCalls codec tenant (fun store rows call => call.Admitted store rows)
      calls) :
    DeadStoresAgree codec tenant calls ↔
      AlongLetterCalls codec tenant (fun store _ call => call.TreatedAlike codec tenant store)
        calls := by
  apply Machine.agrees_iff_meets fun _ rows => rows.Vacant
  case hstep =>
    intro store rows call h hadmitted halike
    exact ⟨(call.same_iff_treatedAlike h hadmitted).mpr halike,
      SurrealDeadStore.vacant_serve h call⟩
  case hdiffer =>
    intro store rows call h hadmitted halike hsame
    exact halike ((call.same_iff_treatedAlike h hadmitted).mp hsame)
  case hstates => exact Records.vacant_empty
  case hadmits => exact hadmitted

/-- A text or a null. -/
def jsonText : Option String → Json.Value
  | none => .null
  | some text => .string text

/-- `serde_json::to_value` of an outbox message. -/
def jsonOutboxMessage (message : OutboxMessage) : Json.Value :=
  .object
    [("attempts", .number (.posInt message.attempts.toUInt64)),
      ("created_at", .ofInt64 message.createdAt),
      ("dispatch_key", jsonText message.dispatchKey),
      ("envelope_id", .string message.envelopeId.asStr),
      ("id", .string message.id.asStr),
      ("last_error", jsonText message.lastError),
      ("lease_until", (message.leaseUntil.map .ofInt64).getD .null),
      ("not_before", .ofInt64 message.notBefore),
      ("payload", message.payload),
      ("status", .string (outboxStatusToStr message.status)),
      ("tenant", .string message.tenant.asStr),
      ("topic", .string message.topic),
      ("worker", jsonText message.worker)]

/-- A codec that writes letters of the outbox and reads none. -/
def outboxCodec : PayloadCodec where
  toValue
    | .outbox message => .ok (.object [("Outbox", jsonOutboxMessage message)])
    | .saga _ => .error "not an outbox message"
  fromValue _ := .error "not read"

/-- A letter of the outbox. -/
def outboxLetter (id : String) : DeadLetter :=
  buildDeadLetter
    (buildOutboxMessage ⟨⟨id⟩, ⟨"t"⟩, ⟨"e"⟩, "topic", .null, none, none⟩ 0 0) (some "gone") 5

/-- A letter is pushed, others are looked for, and then it is removed. -/
theorem deadStoresAgree_lookElsewhere :
    DeadStoresAgree outboxCodec ⟨"t"⟩
      [.push (outboxLetter "m"), .get ⟨.saga, ⟨"m"⟩⟩ [],
        .list (some .saga) 1 [(.outbox, "m")] [], .remove ⟨.outbox, ⟨"m"⟩⟩,
        .list none 0 [] [], .purgeOlderThan 9] := by
  apply (deadStoresAgree_iff_treatedAlike _ _ _ _).mpr
  · refine ⟨⟨_, rfl⟩, rfl, ?_, trivial, ?_, trivial, trivial⟩
    · intro key letter hfind
      have hone : (InMemoryDeadStore.empty.push (outboxLetter "m")).find key = some letter := hfind
      rw [InMemoryDeadStore.find_push, InMemoryDeadStore.find_empty] at hone
      split at hone
      · cases hone
        rfl
      · cases hone
    · intro key letter hfind
      have hnone : (∅ : HashMap LetterKey DeadLetter).get key = some letter := hfind
      rw [HashMap.get_empty] at hnone
      cases hnone
  · have hnone : List.Perm ([] : List String) [] := .refl _
    refine ⟨trivial, hnone, ⟨.refl _, Nat.le_refl _, hnone, Nat.zero_le _⟩, trivial,
      ⟨.refl _, Nat.le_refl _, hnone, Nat.le_refl _⟩, trivial, trivial⟩

/-- A letter is pushed and looked for: it is found in memory, and not in the database. -/
theorem not_deadStoresAgree_push :
    ¬∀ (tenant : TenantId) (calls : List LetterCall),
      AlongLetterCalls outboxCodec tenant (fun store rows call => call.Admitted store rows)
        calls → DeadStoresAgree outboxCodec tenant calls := by
  intro h
  have hagree := h ⟨"t"⟩ [.push (outboxLetter "m"), .get ⟨.outbox, ⟨"m"⟩⟩ []]
    ⟨trivial, .refl _, trivial⟩
  exact Option.some_ne_none _ hagree.2.1

end Soulbase.Tx
