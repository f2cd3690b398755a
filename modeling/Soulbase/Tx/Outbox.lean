/-
# Building and selecting outbox messages

The store-independent part of the outbox: how an accepted message is built, how
a batch is selected for a worker, and how a message that is given up becomes a
dead letter.

`selectMessages` keeps the loop of the source, with its two accumulators and
its early exit. Its callers use one fact about it, `selectMessages_eq`: the
result names a selection in the sense of `Selects`.
-/

import Soulbase.Tx.Model

namespace Soulbase.Tx

/-- `build_outbox_message`. The source reads the clock for `created_at` and a
second time for a missing `not_before`. -/
def buildOutboxMessage (new : NewOutboxMessage) (createdAt notBefore : Int64) :
    OutboxMessage where
  id := new.id
  tenant := new.tenant
  envelopeId := new.envelopeId
  topic := new.topic
  payload := new.payload
  createdAt := createdAt
  notBefore := new.notBefore.getD notBefore
  attempts := 0
  status := .pending
  lastError := none
  dispatchKey := new.dispatchKey
  leaseUntil := none
  worker := none

/-- `build_dead_letter`: the message as it is when it is given up. -/
def buildDeadLetter (message : OutboxMessage) (error : Option String) (now : Int64) :
    DeadLetter where
  reference := { kind := .outbox, id := message.id }
  tenant := message.tenant
  error := error
  occurredAt := now
  payload := .outbox message

/-- The part of a message that its producer fixed. No store operation is meant
to change it. -/
structure OutboxMessage.SameRequest (left right : OutboxMessage) : Prop where
  id : left.id = right.id
  tenant : left.tenant = right.tenant
  envelopeId : left.envelopeId = right.envelopeId
  topic : left.topic = right.topic
  payload : left.payload = right.payload
  createdAt : left.createdAt = right.createdAt
  dispatchKey : left.dispatchKey = right.dispatchKey

theorem OutboxMessage.SameRequest.refl (message : OutboxMessage) :
    message.SameRequest message :=
  ⟨rfl, rfl, rfl, rfl, rfl, rfl, rfl⟩

theorem OutboxMessage.SameRequest.trans {first second third : OutboxMessage}
    (hleft : first.SameRequest second) (hright : second.SameRequest third) :
    first.SameRequest third :=
  ⟨hleft.id.trans hright.id, hleft.tenant.trans hright.tenant,
    hleft.envelopeId.trans hright.envelopeId, hleft.topic.trans hright.topic,
    hleft.payload.trans hright.payload, hleft.createdAt.trans hright.createdAt,
    hleft.dispatchKey.trans hright.dispatchKey⟩

/-- The lease of a message is running and belongs to somebody else. -/
def OutboxMessage.LeasedElsewhere (message : OutboxMessage) (nowMs : Int64)
    (workerId : String) : Prop :=
  match message.leaseUntil with
  | none => False
  | some leaseUntil => nowMs < leaseUntil ∧ message.worker ≠ some workerId

instance (message : OutboxMessage) (nowMs : Int64) (workerId : String) :
    Decidable (message.LeasedElsewhere nowMs workerId) := by
  unfold OutboxMessage.LeasedElsewhere
  cases message.leaseUntil <;> infer_instance

/-- A message that the loop of `select_messages` does not pass over because of
its tenant, its status, its lease or its time. -/
structure OutboxMessage.Selectable (message : OutboxMessage) (tenant : TenantId)
    (nowMs : Int64) (workerId : String) : Prop where
  tenant : message.tenant = tenant
  active : ¬(message.status = .done ∨ message.status = .dead)
  free : ¬message.LeasedElsewhere nowMs workerId
  due : ¬nowMs < message.notBefore

instance (message : OutboxMessage) (tenant : TenantId) (nowMs : Int64)
    (workerId : String) : Decidable (message.Selectable tenant nowMs workerId) :=
  decidable_of_iff
    (message.tenant = tenant ∧ ¬(message.status = .done ∨ message.status = .dead) ∧
      ¬message.LeasedElsewhere nowMs workerId ∧ ¬nowMs < message.notBefore)
    ⟨fun ⟨h₁, h₂, h₃, h₄⟩ => ⟨h₁, h₂, h₃, h₄⟩,
      fun h => ⟨h.tenant, h.active, h.free, h.due⟩⟩

/-- A selectable message is not in a terminal status. -/
theorem OutboxMessage.Selectable.not_terminal {message : OutboxMessage}
    {tenant : TenantId} {nowMs : Int64} {workerId : String}
    (h : message.Selectable tenant nowMs workerId) :
    message.status.isTerminal = false := by
  have hactive := h.active
  cases hstatus : message.status with
  | pending => rfl
  | leased => rfl
  | done => exact absurd (.inl hstatus) hactive
  | dead => exact absurd (.inr hstatus) hactive

/-- The keys already taken, after a message has been looked at: with grouping,
its own key is taken too. -/
def seenAfter (groupByKey : Bool) (message : OutboxMessage) (seenKeys : List String) :
    List String :=
  if groupByKey then message.dispatchKey.toList ++ seenKeys else seenKeys

/-- Grouping is on and the key of the message has been taken in this batch. -/
def repeatsKey (groupByKey : Bool) (message : OutboxMessage) (seenKeys : List String) :
    Bool :=
  groupByKey && message.dispatchKey.any (seenKeys.contains ·)

/-- The loop of `select_messages`, with the ids selected and the dispatch keys
seen so far. The length is tested after a message has been selected, so a batch
size of zero still selects one. -/
def selectLoop (tenant : TenantId) (nowMs : Int64) (batch : Nat) (workerId : String)
    (groupByKey : Bool) :
    List OutboxMessage → List Id → List String → List Id
  | [], selected, _ => selected
  | message :: rest, selected, seenKeys =>
      if ¬message.Selectable tenant nowMs workerId then
        selectLoop tenant nowMs batch workerId groupByKey rest selected seenKeys
      else if repeatsKey groupByKey message seenKeys then
        selectLoop tenant nowMs batch workerId groupByKey rest selected seenKeys
      else if (selected ++ [message.id]).length ≥ batch then
        selected ++ [message.id]
      else
        selectLoop tenant nowMs batch workerId groupByKey rest (selected ++ [message.id])
          (seenAfter groupByKey message seenKeys)

/-- `select_messages`. -/
def selectMessages (all : List OutboxMessage) (tenant : TenantId) (nowMs : Int64)
    (batch : Nat) (workerId : String) (groupByKey : Bool) : List Id :=
  selectLoop tenant nowMs batch workerId groupByKey all [] []

/-- The first message with a dispatch key that the loop may select. -/
def firstSelectable (all : List OutboxMessage) (tenant : TenantId) (nowMs : Int64)
    (workerId : String) (dispatchKey : String) : Option OutboxMessage :=
  all.find? fun message =>
    message.Selectable tenant nowMs workerId ∧ message.dispatchKey = some dispatchKey

section Selects

variable {all : List OutboxMessage} {tenant : TenantId} {nowMs : Int64}
variable {workerId : String} {groupByKey : Bool}

/-- What a selection may be: some of the messages in their order, all selectable,
and with grouping each the first selectable one of its dispatch key. -/
structure Selects (all : List OutboxMessage) (tenant : TenantId) (nowMs : Int64)
    (workerId : String) (groupByKey : Bool) (chosen : List OutboxMessage) : Prop where
  sublist : chosen.Sublist all
  selectable : ∀ message ∈ chosen, message.Selectable tenant nowMs workerId
  first : groupByKey = true → ∀ message ∈ chosen, ∀ key, message.dispatchKey = some key →
    firstSelectable all tenant nowMs workerId key = some message

theorem Selects.nil : Selects all tenant nowMs workerId groupByKey [] :=
  ⟨List.nil_sublist _, by simp, by simp⟩

variable {rest chosen : List OutboxMessage} {message : OutboxMessage}

/-- A message that is not selectable, or whose key none of the chosen messages
has, may be passed over. -/
theorem Selects.skip (h : Selects rest tenant nowMs workerId groupByKey chosen)
    (hskip : groupByKey = true → message.Selectable tenant nowMs workerId →
      ∀ other ∈ chosen, ∀ key, other.dispatchKey = some key → message.dispatchKey ≠ some key) :
    Selects (message :: rest) tenant nowMs workerId groupByKey chosen := by
  constructor
  case sublist => exact h.sublist.cons _
  case selectable => exact h.selectable
  case first =>
    intro hgroup other hother key hkey
    rw [firstSelectable, List.find?_cons_of_neg]
    · exact h.first hgroup other hother key hkey
    · simp only [decide_eq_true_eq, not_and]
      exact fun hselectable => hskip hgroup hselectable other hother key hkey

/-- A selectable message may be chosen if none of the later ones has its key. -/
theorem Selects.take (h : Selects rest tenant nowMs workerId groupByKey chosen)
    (hmessage : message.Selectable tenant nowMs workerId)
    (hfresh : groupByKey = true → ∀ other ∈ chosen, ∀ key, other.dispatchKey = some key →
      message.dispatchKey ≠ some key) :
    Selects (message :: rest) tenant nowMs workerId groupByKey (message :: chosen) := by
  have hothers : Selects (message :: rest) tenant nowMs workerId groupByKey chosen :=
    h.skip fun hgroup _ => hfresh hgroup
  constructor
  case sublist => exact h.sublist.cons_cons _
  case selectable =>
    intro other hother
    rcases List.mem_cons.mp hother with rfl | hother
    · exact hmessage
    · exact h.selectable other hother
  case first =>
    intro hgroup other hother key hkey
    rcases List.mem_cons.mp hother with rfl | hother
    · rw [firstSelectable, List.find?_cons_of_pos]
      simp only [decide_eq_true_eq]
      exact ⟨hmessage, hkey⟩
    · exact hothers.first hgroup other hother key hkey

/-- A message whose key is free keeps it from being taken twice. -/
theorem repeatsKey_seenAfter {other : OutboxMessage} {seenKeys : List String}
    (h : repeatsKey groupByKey other (seenAfter groupByKey message seenKeys) = false) :
    repeatsKey groupByKey other seenKeys = false ∧
      (groupByKey = true → ∀ key, other.dispatchKey = some key →
        message.dispatchKey ≠ some key) := by
  cases groupByKey with
  | false => simp [repeatsKey]
  | true =>
      cases hother : other.dispatchKey with
      | none => simp [repeatsKey, hother]
      | some key =>
          simp only [repeatsKey, seenAfter, hother] at h ⊢
          cases hmessage : message.dispatchKey with
          | none => simpa [hmessage] using h
          | some first =>
              simp only [hmessage] at h
              simp at h ⊢
              exact ⟨h.2, fun hsame => h.1 hsame.symm⟩

end Selects

/-- Whatever the loop has selected already, it adds the ids of a selection from
the remaining messages whose keys have not been taken. -/
theorem selectLoop_eq (tenant : TenantId) (nowMs : Int64) (batch : Nat)
    (workerId : String) (groupByKey : Bool) (all : List OutboxMessage)
    (selected : List Id) (seenKeys : List String) :
    ∃ chosen : List OutboxMessage, Selects all tenant nowMs workerId groupByKey chosen ∧
      (∀ message ∈ chosen, repeatsKey groupByKey message seenKeys = false) ∧
      selectLoop tenant nowMs batch workerId groupByKey all selected seenKeys =
        selected ++ chosen.map (·.id) := by
  induction all generalizing selected seenKeys with
  | nil => exact ⟨[], .nil, by simp, by simp [selectLoop]⟩
  | cons message rest ih =>
      rw [selectLoop]
      split
      case isTrue hnot =>
        obtain ⟨chosen, hselects, hfree, heq⟩ := ih selected seenKeys
        exact ⟨chosen, hselects.skip fun _ hselectable => absurd hselectable hnot, hfree, heq⟩
      case isFalse hselectable =>
        have hmessage := not_not.mp hselectable
        split
        case isTrue hrepeats =>
          obtain ⟨chosen, hselects, hfree, heq⟩ := ih selected seenKeys
          refine ⟨chosen, hselects.skip ?_, hfree, heq⟩
          intro hgroup _ other hother key hkey hsame
          have hother := hfree other hother
          rw [repeatsKey, hkey, ← hsame, ← repeatsKey, hrepeats] at hother
          cases hother
        case isFalse hfresh =>
          have hfresh := Bool.eq_false_iff.mpr hfresh
          split
          case isTrue _ =>
            exact ⟨[message], Selects.nil.take hmessage (by simp), by simpa using hfresh,
              by simp⟩
          case isFalse _ =>
            obtain ⟨chosen, hselects, hfree, heq⟩ :=
              ih (selected ++ [message.id]) (seenAfter groupByKey message seenKeys)
            have hothers := fun other hother => repeatsKey_seenAfter (hfree other hother)
            refine ⟨message :: chosen, hselects.take hmessage ?_, ?_, by simp [heq]⟩
            · exact fun hgroup other hother => (hothers other hother).2 hgroup
            · intro other hother
              rcases List.mem_cons.mp hother with rfl | hother
              · exact hfresh
              · exact (hothers other hother).1

/-- Without grouping and with room for all of them, the loop selects every selectable
message. -/
theorem selectLoop_all {tenant : TenantId} {nowMs : Int64} {batch : Nat} {workerId : String}
    (all : List OutboxMessage) (selected : List Id) (seenKeys : List String)
    (hroom : selected.length + (all.filter (·.Selectable tenant nowMs workerId)).length ≤ batch) :
    selectLoop tenant nowMs batch workerId false all selected seenKeys =
      selected ++ (all.filter (·.Selectable tenant nowMs workerId)).map (·.id) := by
  induction all generalizing selected seenKeys with
  | nil => simp [selectLoop]
  | cons message rest ih =>
      rw [selectLoop]
      by_cases hselectable : message.Selectable tenant nowMs workerId
      · rw [List.filter_cons_of_pos (by simpa using hselectable), List.length_cons] at hroom
        rw [List.filter_cons_of_pos (by simpa using hselectable), List.map_cons,
          if_neg (not_not.mpr hselectable), if_neg (by simp [repeatsKey])]
        split
        case isTrue hfull =>
          have hnone : rest.filter (·.Selectable tenant nowMs workerId) = [] := by
            rw [List.length_append, List.length_singleton] at hfull
            exact List.length_eq_zero_iff.mp (by omega)
          rw [hnone]
          rfl
        case isFalse =>
          rw [ih _ _ (by rw [List.length_append, List.length_singleton]; omega),
            List.append_assoc, List.singleton_append]
      · rw [List.filter_cons_of_neg (by simpa using hselectable)] at hroom
        rw [List.filter_cons_of_neg (by simpa using hselectable), if_pos hselectable,
          ih _ _ hroom]

/-- The selected ids are those of a selection from the messages. -/
theorem selectMessages_eq (all : List OutboxMessage) (tenant : TenantId)
    (nowMs : Int64) (batch : Nat) (workerId : String) (groupByKey : Bool) :
    ∃ chosen : List OutboxMessage, Selects all tenant nowMs workerId groupByKey chosen ∧
      selectMessages all tenant nowMs batch workerId groupByKey = chosen.map (·.id) := by
  obtain ⟨chosen, hselects, _, heq⟩ :=
    selectLoop_eq tenant nowMs batch workerId groupByKey all [] []
  exact ⟨chosen, hselects, by simpa [selectMessages] using heq⟩

end Soulbase.Tx
