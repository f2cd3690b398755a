/-
# A dead letter revives its message once

The steps of a replay are locked one by one, and reviving a message does not look at
its status. Two replays that have both read a letter both revive its message, also
when the message has been delivered between the two, and the second one removes
whatever letter lies there by then.

`not_revivesOnce_twoReplays` is such a run. `revivesOnce_of_separate` says what keeps
replays apart from each other and from the dispatchers. The invariant is `Orderly`: a
letter whose message has not been revived waits for it, with the message `Dead`.
-/

import Soulbase.Tx.Replay

namespace Soulbase.Tx

open Soulbase.Foundation RevivalEvent

/-- Each letter has its message revived at most once, and not after the message has
been acknowledged, and a replay removes only the letter that it has read, none that
was pushed later. -/
structure RevivesOnce (log : List RevivalEvent) : Prop where
  once : ∀ letter, revives log letter ≤ 1
  undelivered : ∀ recent older letter message,
    log = recent ++ .revived letter message :: older → ¬AckedSince older letter message
  own : ∀ read stored, .removed read stored ∈ log → stored = read

namespace RevivalState

variable {ι κ : Type}

/-- The replay has read the letter under a key and has not ended. -/
def Underway (state : RevivalState ι κ) (j : κ) (key : LetterKey) : Prop :=
  (∃ op, (state.replays j).head? = some op ∧ op.followsRead = true) ∧
    (state.world.reading j).1 = key

/-- In every reachable state. -/
def RevivesOnceThroughout (T : TransitionSystem (RevivalState ι κ) (RevivalAction ι κ)) : Prop :=
  ∀ state, T.Reachable state → RevivesOnce state.world.log

/-- Replays keep apart: while one is under way, no other reads the letter under its
key and none is pushed there. Dispatchers settle no message that is `Dead`. -/
def Separate (state : RevivalState ι κ) : RevivalAction ι κ → Prop
  | .proceed j _ => ∀ reference, (state.replays j).head? = some (.read reference) →
      ∀ k, k ≠ j → ¬state.Underway k reference.key
  | .dispatch i _ =>
      (∀ letter, (state.dispatchers i).head? = some (.push letter) →
        ∀ k, ¬state.Underway k letter.reference.key) ∧
      ∀ op key message, (state.dispatchers i).head? = some op → op.settles = some key →
        state.world.dead.outbox.find key = some message → message.status ≠ .dead
  | .enqueue .. | .tick .. | .replay .. => True

end RevivalState

namespace RevivalEvent

variable {log : List RevivalEvent} {key : LetterKey} {letter : LetterSerial}
variable {message : MessageKey} {event : RevivalEvent}

theorem pushes_cons : pushes (event :: log) key =
    pushes log key + if event = .pushed key then 1 else 0 := by
  simp only [pushes, List.count_cons, beq_iff_eq]

theorem revives_revived {other : LetterSerial} :
    revives (.revived other message :: log) letter =
      revives log letter + if other = letter then 1 else 0 := by
  simp only [revives, List.countP_cons, decide_eq_true_eq]

theorem revives_of_ne (hevent : ∀ other message, event ≠ .revived other message) :
    revives (event :: log) letter = revives log letter := by
  cases event with
  | revived other message => exact absurd rfl (hevent other message)
  | pushed _ | acked _ | removed _ _ => simp [revives]

/-- It revives nothing, or because of another letter. -/
theorem revives_of_ne_letter (hevent : ∀ message, event ≠ .revived letter message) :
    revives (event :: log) letter = revives log letter := by
  cases event with
  | revived other message =>
      have hne : other ≠ letter := by
        rintro rfl
        exact hevent message rfl
      rw [revives_revived, if_neg hne, Nat.add_zero]
  | pushed _ | acked _ | removed _ _ => exact revives_of_ne nofun

/-- Letters that are still to be pushed are not revived by an event that revives
nothing. -/
theorem future_cons (h : ∀ key n, pushes log key < n → revives log (key, n) = 0)
    (hevent : ∀ other message, event ≠ .revived other message) (key : LetterKey) (n : ℕ)
    (hn : pushes (event :: log) key < n) : revives (event :: log) (key, n) = 0 := by
  rw [pushes_cons] at hn
  rw [revives_of_ne hevent]
  exact h key n (by omega)

/-- Only an acknowledgement can make a message acknowledged since. -/
theorem AckedSince.of_cons (h : AckedSince (event :: log) letter message) :
    event = .acked message ∨ AckedSince log letter message := by
  obtain ⟨recent, older, hsplit, hserial, hmem⟩ := h
  cases recent with
  | nil => cases hmem
  | cons head tail =>
      obtain ⟨rfl, rfl⟩ := List.cons_eq_cons.mp hsplit
      rcases List.mem_cons.mp hmem with rfl | hmem
      · exact .inl rfl
      · exact .inr ⟨tail, older, rfl, hserial, hmem⟩

/-- A letter that has not been pushed has nothing acknowledged since. -/
theorem not_ackedSince_of_lt (h : pushes log letter.1 < letter.2) :
    ¬AckedSince log letter message := by
  rintro ⟨recent, older, rfl, hserial, _⟩
  have hcount : pushes (recent ++ .pushed letter.1 :: older) letter.1 =
      recent.count (.pushed letter.1) + (pushes older letter.1 + 1) := by
    simp [pushes, List.count_append]
  omega

end RevivalEvent

/-- An event that revives nothing and removes nothing says nothing new. -/
theorem RevivesOnce.cons {log : List RevivalEvent} (h : RevivesOnce log) {event : RevivalEvent}
    (hrevived : ∀ letter message, event ≠ .revived letter message)
    (hremoved : ∀ read stored, event = .removed read stored → stored = read) :
    RevivesOnce (event :: log) := by
  constructor
  case once =>
    intro letter
    rw [revives_of_ne hrevived]
    exact h.once letter
  case undelivered =>
    intro recent older letter message hsplit
    cases recent with
    | nil => exact absurd (List.cons_eq_cons.mp hsplit).1 (hrevived letter message)
    | cons head tail =>
        exact h.undelivered tail older letter message (List.cons_eq_cons.mp hsplit).2
  case own =>
    intro read stored hmem
    rcases List.mem_cons.mp hmem with hevent | hmem
    · exact hremoved read stored hevent.symm
    · exact h.own read stored hmem

/-- A first revival, of a message that has not been acknowledged. -/
theorem RevivesOnce.revived {log : List RevivalEvent} (h : RevivesOnce log)
    {letter : LetterSerial} {message : MessageKey} (hfirst : revives log letter = 0)
    (hunacked : ¬AckedSince log letter message) :
    RevivesOnce (.revived letter message :: log) := by
  constructor
  case once =>
    intro other
    rw [revives_revived]
    have hother := h.once other
    split
    case isTrue hsame =>
      subst hsame
      omega
    case isFalse => omega
  case undelivered =>
    intro recent older other key hsplit
    cases recent with
    | nil =>
        obtain ⟨hevent, rfl⟩ := List.cons_eq_cons.mp hsplit
        cases hevent
        exact hunacked
    | cons head tail =>
        exact h.undelivered tail older other key (List.cons_eq_cons.mp hsplit).2
  case own =>
    intro read stored hmem
    rcases List.mem_cons.mp hmem with hevent | hmem
    · cases hevent
    · exact h.own read stored hmem

/-- The message a letter is about. -/
def DeadLetter.messageKey (letter : DeadLetter) : MessageKey :=
  Tx.messageKey letter.tenant letter.reference.id

/-- The letter of a message that was given up. -/
structure DeadLetter.OfMessage (letter : DeadLetter) : Prop where
  kind : letter.reference.kind = .outbox
  payload : ∀ saga, letter.payload ≠ .saga saga

/-- Letters of one message lie under one key. -/
theorem DeadLetter.OfMessage.key_eq {letter other : DeadLetter} (h : letter.OfMessage)
    (hother : other.OfMessage) (hsame : letter.messageKey = other.messageKey) :
    letter.reference.key = other.reference.key := by
  have hid : letter.reference.id.asStr = other.reference.id.asStr :=
    congrArg Prod.snd hsame
  rw [DeadLetterRef.key, DeadLetterRef.key, h.kind, hother.kind, hid]

namespace RevivalWorld

variable {ι κ : Type}

/-- The message is stored as `Dead`. -/
def IsDead (world : RevivalWorld κ) (key : MessageKey) : Prop :=
  ∃ message, world.dead.outbox.find key = some message ∧ message.status = .dead

/-- The letter waits for a replay: its message is `Dead` still, and has not been
revived because of it or acknowledged since. -/
structure Waits (world : RevivalWorld κ) (letter : DeadLetter) : Prop where
  dead : world.IsDead letter.messageKey
  unrevived : revives world.log (world.current letter.reference.key) = 0
  unacked : ¬AckedSince world.log (world.current letter.reference.key) letter.messageKey

/-- An event that pushes, revives and acknowledges something else. -/
theorem Waits.cons {world after : RevivalWorld κ} {letter : DeadLetter} {event : RevivalEvent}
    (h : world.Waits letter) (hlog : after.log = event :: world.log)
    (hdead : after.IsDead letter.messageKey) (hpushed : event ≠ .pushed letter.reference.key)
    (hrevived : ∀ message, event ≠ .revived (world.current letter.reference.key) message)
    (hacked : event ≠ .acked letter.messageKey) : after.Waits letter := by
  have hcurrent : after.current letter.reference.key = world.current letter.reference.key := by
    simp [current, hlog, pushes_cons, hpushed]
  constructor
  case dead => exact hdead
  case unrevived =>
    rw [hcurrent, hlog, revives_of_ne_letter hrevived]
    exact h.unrevived
  case unacked =>
    rw [hcurrent, hlog]
    intro hsince
    rcases hsince.of_cons with hevent | hsince
    · exact hacked hevent
    · exact h.unacked hsince

/-- What holds while replays and dispatchers keep apart, for the standings of the
replays and the letters that dispatchers have still to push. -/
structure Orderly (world : RevivalWorld κ) (standing : κ → ReplayStanding)
    (pending : ι → Option DeadLetter) : Prop where
  record : RevivesOnce world.log
  future : ∀ key n, pushes world.log key < n → revives world.log (key, n) = 0
  letters : ∀ key letter, world.dead.find key = some letter → letter.OfMessage
  waiting : ∀ key letter, world.dead.find key = some letter →
    (∃ j, standing j = .revived letter) ∨ world.Waits letter
  reading : ∀ j letter, (standing j).letter? = some letter →
    world.dead.find letter.reference.key = some letter ∧
      world.reading j = world.current letter.reference.key
  alone : ∀ j k letter other, (standing j).letter? = some letter →
    (standing k).letter? = some other → letter.reference.key = other.reference.key → j = k
  unpushed : ∀ i letter, pending i = some letter → letter.OfMessage ∧
    world.IsDead letter.messageKey ∧
    ∀ key other, world.dead.find key = some other → other.messageKey = letter.messageKey →
      ∃ j, standing j = .revived other
  unpushedAlone : ∀ i k letter other, pending i = some letter → pending k = some other →
    letter.messageKey = other.messageKey → i = k

/-- Nothing has been pushed. -/
theorem orderly_start (reading : κ → LetterSerial) :
    Orderly { dead := .empty, reading := reading, log := [] } (fun _ => .idle)
      (fun _ : ι => none) := by
  constructor
  case record => exact ⟨fun _ => Nat.zero_le _, by simp, by simp⟩
  case future => exact fun _ _ _ => rfl
  case letters | waiting => exact fun key letter hfind => by simp at hfind
  case reading | unpushed => exact fun _ _ hletter => by cases hletter
  case alone | unpushedAlone => exact fun _ _ _ _ hletter => by cases hletter

/-- Messages that are `Dead` are stored still. -/
def KeepsDead (before after : InMemoryOutboxStore) : Prop :=
  ∀ key message, before.find key = some message → message.status = .dead →
    after.find key = some message

theorem keepsDead_insertRaw {store : InMemoryOutboxStore} {written : OutboxMessage}
    (h : ∀ message, store.find written.key = some message → message.status ≠ .dead) :
    KeepsDead store (store.insertRaw written) := by
  intro key message hfind hdead
  rw [InMemoryOutboxStore.find_insertRaw_of_ne]
  · exact hfind
  · rintro rfl
    exact h message hfind hdead

/-- A message that is stored already is not enqueued over. -/
theorem keepsDead_enqueue (store : InMemoryOutboxStore) (message : NewOutboxMessage)
    (createdAt notBefore : Int64) :
    KeepsDead store (store.enqueue message createdAt notBefore).2 := by
  rcases store.enqueue_cases message createdAt notBefore with ⟨_, heq⟩ | ⟨hfree, heq⟩
  · rw [heq]
    exact fun _ _ hfind _ => hfind
  · rw [heq]
    apply keepsDead_insertRaw
    intro stored hstored
    rw [hfree] at hstored
    cases hstored

/-- A call of a dispatcher that settles no message that is `Dead` keeps these. -/
theorem keepsDead_of_effect {worker : String} {world after : OutboxWorld} {op : DispatchOp}
    {reply : op.Answer} (h : OutboxWorld.Effect worker world op reply after)
    (hsettles : ∀ key message, op.settles = some key → world.store.find key = some message →
      message.status ≠ .dead) : KeepsDead world.store after.store := by
  cases h with
  | send | missing | bystander => exact fun _ _ hfind _ => hfind
  | settle hop hfind =>
      apply keepsDead_insertRaw
      intro message hmessage
      rw [DispatchOp.key_rewrite, InMemoryOutboxStore.key_of_find hfind] at hmessage
      exact hsettles _ message hop hmessage
  | lease hleases =>
      intro key message hfind hdead
      rw [hleases.frame key]
      · exact hfind
      · intro hmem
        obtain ⟨old, hold, hselectable, _⟩ := hleases.of_mem_keys hmem
        rw [hfind] at hold
        cases hold
        exact hselectable.active (.inr hdead)

section Outbox

variable {world : RevivalWorld κ} {standing : κ → ReplayStanding}
variable {pending : ι → Option DeadLetter}

theorem IsDead.of_keepsDead {outbox : InMemoryOutboxStore} {key : MessageKey}
    (h : world.IsDead key) (hkeeps : KeepsDead world.dead.outbox outbox) :
    (world.withOutbox outbox).IsDead key := by
  obtain ⟨message, hfind, hdead⟩ := h
  exact ⟨message, hkeeps key message hfind hdead, hdead⟩

/-- The outbox changes, but for the messages that are `Dead`. -/
theorem Orderly.withOutbox (h : Orderly world standing pending)
    {outbox : InMemoryOutboxStore} (hkeeps : KeepsDead world.dead.outbox outbox) :
    Orderly (world.withOutbox outbox) standing pending := by
  constructor
  case record => exact h.record
  case future => exact h.future
  case letters => exact h.letters
  case waiting =>
    intro key letter hfind
    rcases h.waiting key letter hfind with hrevived | hwaits
    · exact .inl hrevived
    · exact .inr ⟨hwaits.dead.of_keepsDead hkeeps, hwaits.unrevived, hwaits.unacked⟩
  case reading => exact h.reading
  case alone => exact h.alone
  case unpushed =>
    intro i letter hletter
    obtain ⟨hmessage, hdead, hothers⟩ := h.unpushed i letter hletter
    exact ⟨hmessage, hdead.of_keepsDead hkeeps, hothers⟩
  case unpushedAlone => exact h.unpushedAlone

/-- A message that is not `Dead` is acknowledged. -/
theorem Orderly.acked (h : Orderly world standing pending) {key : MessageKey}
    (halive : ¬world.IsDead key) :
    Orderly (world.recording (.acked key)) standing pending := by
  have hcurrent : (world.recording (.acked key)).current = world.current := by
    funext other
    simp [current, recording, pushes_cons]
  constructor
  case record => exact h.record.cons (by simp) (by simp)
  case future => exact future_cons h.future nofun
  case letters => exact h.letters
  case waiting =>
    intro other letter hfind
    rcases h.waiting other letter hfind with hrevived | hwaits
    · exact .inl hrevived
    · refine .inr (hwaits.cons rfl hwaits.dead nofun nofun ?_)
      rintro ⟨⟩
      exact halive hwaits.dead
  case reading =>
    intro j letter hletter
    rw [hcurrent]
    exact h.reading j letter hletter
  case alone => exact h.alone
  case unpushed => exact h.unpushed
  case unpushedAlone => exact h.unpushedAlone

/-- The letter a replay is at still waits for it. -/
theorem Orderly.waits (h : Orderly world standing pending) {j : κ} {letter : DeadLetter}
    (hholding : standing j = .holding letter) : world.Waits letter := by
  have hletter : (standing j).letter? = some letter := by rw [hholding]; rfl
  rcases h.waiting _ letter (h.reading j letter hletter).1 with ⟨k, hk⟩ | hwaits
  · have hjk := h.alone j k letter letter hletter (by rw [hk]; rfl) rfl
    rw [← hjk, hholding] at hk
    cases hk
  · exact hwaits

end Outbox

section Pushing

variable [DecidableEq ι] {world : RevivalWorld κ} {standing : κ → ReplayStanding}
variable {pending : ι → Option DeadLetter}

/-- A dispatcher has nothing to push. -/
theorem Orderly.forget (h : Orderly world standing pending) (i : ι) :
    Orderly world standing (Function.update pending i none) := by
  have hbefore : ∀ k letter, Function.update pending i none k = some letter →
      pending k = some letter := by
    intro k letter hletter
    by_cases hk : k = i
    · subst hk
      rw [Function.update_self] at hletter
      cases hletter
    · rwa [Function.update_of_ne hk] at hletter
  exact
    { h with
      unpushed := fun k letter hletter => h.unpushed k letter (hbefore k letter hletter)
      unpushedAlone := fun k l letter other hletter hother =>
        h.unpushedAlone k l letter other (hbefore k letter hletter) (hbefore l other hother) }

/-- A message that was not `Dead` is given up, and its letter is to be pushed. -/
theorem Orderly.givesUp (h : Orderly world standing pending) (i : ι) {letter : DeadLetter}
    {message dead : OutboxMessage} (hletter : letter.OfMessage)
    (hfind : world.dead.outbox.find letter.messageKey = some message)
    (halive : message.status ≠ .dead) (hkey : dead.key = letter.messageKey)
    (hdead : dead.status = .dead) :
    Orderly (world.withOutbox (world.dead.outbox.insertRaw dead)) standing
      (Function.update pending i (some letter)) := by
  have hkeeps : KeepsDead world.dead.outbox (world.dead.outbox.insertRaw dead) := by
    apply keepsDead_insertRaw
    intro stored hstored
    rw [hkey, hfind] at hstored
    cases hstored
    exact halive
  have hnotDead : ¬world.IsDead letter.messageKey := by
    rintro ⟨stored, hstored, hstatus⟩
    rw [hfind] at hstored
    cases hstored
    exact halive hstatus
  have hkept := h.withOutbox hkeeps
  have hother : ∀ k other, k ≠ i → Function.update pending i (some letter) k = some other →
      pending k = some other ∧ other.messageKey ≠ letter.messageKey := by
    intro k other hk hpending
    rw [Function.update_of_ne hk] at hpending
    refine ⟨hpending, ?_⟩
    intro hsame
    exact hnotDead (hsame ▸ (h.unpushed k other hpending).2.1)
  refine { hkept with unpushed := ?_, unpushedAlone := ?_ }
  · intro k other hpending
    by_cases hk : k = i
    · subst hk
      rw [Function.update_self] at hpending
      cases hpending
      refine ⟨hletter, ⟨dead, ?_, hdead⟩, ?_⟩
      · rw [← hkey]
        exact InMemoryOutboxStore.find_insertRaw_self _ dead
      · intro key stored hstored hsame
        rcases h.waiting key stored hstored with hrevived | hwaits
        · exact hrevived
        · exact absurd (hsame ▸ hwaits.dead) hnotDead
    · exact hkept.unpushed k other (hother k other hk hpending).1
  · intro k l left right hleft hright hsame
    by_cases hk : k = i
    · by_cases hl : l = i
      · exact hk.trans hl.symm
      · subst hk
        rw [Function.update_self] at hleft
        cases hleft
        exact absurd hsame.symm (hother l right hl hright).2
    · by_cases hl : l = i
      · subst hl
        rw [Function.update_self] at hright
        cases hright
        exact absurd hsame (hother k left hk hleft).2
      · exact h.unpushedAlone k l left right (hother k left hk hleft).1
          (hother l right hl hright).1 hsame

/-- A letter is pushed while no replay is at the letter under its key. -/
theorem Orderly.push (h : Orderly world standing pending) {i : ι} {letter : DeadLetter}
    (hpending : pending i = some letter)
    (hfree : ∀ j other, (standing j).letter? = some other →
      other.reference.key ≠ letter.reference.key) :
    Orderly (world.push letter) standing (Function.update pending i none) := by
  obtain ⟨hmessage, hdead, _⟩ := h.unpushed i letter hpending
  have hforgotten := h.forget i
  have hcurrent : ∀ key, key ≠ letter.reference.key →
      (world.push letter).current key = world.current key := by
    intro key hkey
    simp [current, RevivalWorld.push, pushes_cons, hkey.symm]
  have hserial : (world.push letter).current letter.reference.key =
      (letter.reference.key, pushes world.log letter.reference.key + 1) := by
    simp [current, RevivalWorld.push, pushes_cons]
  have hfind : ∀ key other, (world.push letter).dead.find key = some other →
      key = letter.reference.key ∧ other = letter ∨
        key ≠ letter.reference.key ∧ world.dead.find key = some other := by
    intro key other hother
    rw [RevivalWorld.push, InMemoryDeadStore.find_push] at hother
    split at hother
    case isTrue hkey =>
      cases hother
      exact .inl ⟨hkey, rfl⟩
    case isFalse hkey => exact .inr ⟨hkey, hother⟩
  constructor
  case record => exact h.record.cons (by simp) (by simp)
  case future => exact future_cons h.future nofun
  case letters =>
    intro key other hother
    rcases hfind key other hother with ⟨_, rfl⟩ | ⟨_, hother⟩
    · exact hmessage
    · exact h.letters key other hother
  case waiting =>
    intro key other hother
    rcases hfind key other hother with ⟨_, rfl⟩ | ⟨hkey, hother⟩
    · refine .inr ⟨hdead, ?_, ?_⟩
      · rw [hserial, RevivalWorld.push, revives_of_ne (by simp)]
        exact h.future _ _ (Nat.lt_succ_self _)
      · rw [hserial]
        intro hacked
        rcases hacked.of_cons with hevent | hacked
        · cases hevent
        · exact not_ackedSince_of_lt (Nat.lt_succ_self _) hacked
    · have hsame := world.dead.keyed key other hother
      rcases h.waiting key other hother with hrevived | hwaits
      · exact .inl hrevived
      · subst hsame
        have hpushed : RevivalEvent.pushed letter.reference.key ≠ .pushed other.reference.key :=
          fun hevent => hkey (RevivalEvent.pushed.inj hevent).symm
        exact .inr (hwaits.cons rfl hwaits.dead hpushed nofun nofun)
  case reading =>
    intro j other hother
    obtain ⟨hstored, hread⟩ := h.reading j other hother
    have hkey := hfree j other hother
    refine ⟨?_, ?_⟩
    · rw [RevivalWorld.push, InMemoryDeadStore.find_push, if_neg hkey]
      exact hstored
    · rw [hcurrent _ hkey]
      exact hread
  case alone => exact h.alone
  case unpushed =>
    intro k other hother
    obtain ⟨hotherMessage, hotherDead, hstored⟩ := hforgotten.unpushed k other hother
    refine ⟨hotherMessage, hotherDead, ?_⟩
    intro key stored hfound hsame
    rcases hfind key stored hfound with ⟨_, rfl⟩ | ⟨_, hfound⟩
    · -- Two dispatchers would have given up the same message.
      have hk : k ≠ i := by
        rintro rfl
        rw [Function.update_self] at hother
        cases hother
      rw [Function.update_of_ne hk] at hother
      exact absurd (h.unpushedAlone k i other stored hother hpending hsame.symm) hk
    · exact hstored key stored hfound hsame
  case unpushedAlone => exact hforgotten.unpushedAlone

end Pushing

/-! ## Steps of a replay -/

section Replaying

variable [DecidableEq κ] {world : RevivalWorld κ} {standing : κ → ReplayStanding}
variable {pending : ι → Option DeadLetter}

/-- What is at a letter after one replay has moved. -/
theorem letter?_update {j k : κ} {next : ReplayStanding} {letter : DeadLetter}
    (h : (Function.update standing j next k).letter? = some letter) :
    k = j ∧ next.letter? = some letter ∨ k ≠ j ∧ (standing k).letter? = some letter := by
  by_cases hk : k = j
  · subst hk
    rw [Function.update_self] at h
    exact .inl ⟨rfl, h⟩
  · rw [Function.update_of_ne hk] at h
    exact .inr ⟨hk, h⟩

/-- A replay that has not revived a letter may move on. -/
theorem revived_update {j : κ} {next : ReplayStanding} {letter : DeadLetter}
    (hj : standing j ≠ .revived letter) (h : ∃ k, standing k = .revived letter) :
    ∃ k, Function.update standing j next k = .revived letter := by
  obtain ⟨k, hk⟩ := h
  refine ⟨k, ?_⟩
  rwa [Function.update_of_ne]
  rintro rfl
  exact hj hk

/-- A replay reads what lies under a key, while no other is at it. -/
theorem Orderly.read (h : Orderly world standing pending) {j : κ} {key : LetterKey}
    {next : ReplayStanding} (hidle : standing j = .idle)
    (hnext : ∀ letter, next.letter? = some letter → world.dead.find key = some letter)
    (hfree : ∀ k other, (standing k).letter? = some other → other.reference.key ≠ key) :
    Orderly { world with reading := Function.update world.reading j (world.current key) }
      (Function.update standing j next) pending := by
  have hj : ∀ letter, standing j ≠ .revived letter := by simp [hidle]
  have hkey : ∀ letter, next.letter? = some letter → letter.reference.key = key :=
    fun letter hletter => (world.dead.keyed key letter (hnext letter hletter)).symm
  constructor
  case record => exact h.record
  case future => exact h.future
  case letters => exact h.letters
  case waiting =>
    intro other letter hfind
    rcases h.waiting other letter hfind with hrevived | hwaits
    · exact .inl (revived_update (hj letter) hrevived)
    · exact .inr ⟨hwaits.dead, hwaits.unrevived, hwaits.unacked⟩
  case reading =>
    intro k letter hat
    rcases letter?_update hat with ⟨rfl, hletter⟩ | ⟨hk, hletter⟩
    · have hsame := hkey letter hletter
      subst hsame
      exact ⟨hnext letter hletter, Function.update_self _ _ _⟩
    · obtain ⟨hfind, hread⟩ := h.reading k letter hletter
      exact ⟨hfind, (Function.update_of_ne hk _ _).trans hread⟩
  case alone =>
    intro k l letter other hat hotherAt hsame
    rcases letter?_update hat with ⟨rfl, hletter⟩ | ⟨hk, hletter⟩
    · rcases letter?_update hotherAt with ⟨rfl, _⟩ | ⟨hl, hother⟩
      · rfl
      · exact absurd (hsame.symm.trans (hkey letter hletter)) (hfree l other hother)
    · rcases letter?_update hotherAt with ⟨rfl, hother⟩ | ⟨hl, hother⟩
      · exact absurd (hsame.trans (hkey other hother)) (hfree k letter hletter)
      · exact h.alone k l letter other hletter hother hsame
  case unpushed =>
    intro i letter hletter
    obtain ⟨hmessage, hdead, hstored⟩ := h.unpushed i letter hletter
    refine ⟨hmessage, hdead, ?_⟩
    intro other stored hfind hsame
    exact revived_update (hj stored) (hstored other stored hfind hsame)
  case unpushedAlone => exact h.unpushedAlone

/-- A replay revives the message of the letter it has read. -/
theorem Orderly.revive (h : Orderly world standing pending) {j : κ} {letter : DeadLetter}
    (hholding : standing j = .holding letter) {message : OutboxMessage}
    (hkey : message.key = letter.messageKey) :
    Orderly
      ((world.recording (.revived (world.reading j) letter.messageKey)).withOutbox
        (world.dead.outbox.insertRaw message))
      (Function.update standing j (.revived letter)) pending := by
  have hletter : (standing j).letter? = some letter := by rw [hholding]; rfl
  have hwaits := h.waits hholding
  obtain ⟨hfind, hread⟩ := h.reading j letter hletter
  have hmessage := h.letters _ letter hfind
  have hj : ∀ other, standing j ≠ .revived other := by simp [hholding]
  have hnow : Function.update standing j (.revived letter) j = .revived letter :=
    Function.update_self _ _ _
  have hdead : ∀ other, world.IsDead other → other ≠ letter.messageKey →
      ((world.recording (.revived (world.reading j) letter.messageKey)).withOutbox
        (world.dead.outbox.insertRaw message)).IsDead other := by
    rintro other ⟨stored, hstored, hstatus⟩ hne
    refine ⟨stored, ?_, hstatus⟩
    rw [← hkey] at hne
    exact (InMemoryOutboxStore.find_insertRaw_of_ne hne).trans hstored
  have hcurrent : ((world.recording (.revived (world.reading j) letter.messageKey)).withOutbox
      (world.dead.outbox.insertRaw message)).current = world.current := by
    funext other
    simp [current, recording, RevivalWorld.withOutbox, pushes_cons]
  constructor
  case record =>
    rw [hread]
    exact h.record.revived hwaits.unrevived hwaits.unacked
  case future =>
    intro other n hn
    rw [RevivalWorld.withOutbox, recording, pushes_cons] at hn
    have hn : pushes world.log other < n := by simpa using hn
    rw [RevivalWorld.withOutbox, recording, revives_revived, h.future other n hn, hread]
    have hne : world.current letter.reference.key ≠ (other, n) := by
      intro hsame
      cases hsame
      exact Nat.lt_irrefl _ hn
    rw [if_neg hne]
  case letters => exact h.letters
  case waiting =>
    intro other stored (hstored : world.dead.find other = some stored)
    rcases h.waiting other stored hstored with hrevived | hother
    · exact .inl (revived_update (hj stored) hrevived)
    by_cases hsame : stored.messageKey = letter.messageKey
    · -- It is the letter itself.
      have hsameKey := (h.letters other stored hstored).key_eq hmessage hsame
      rw [world.dead.keyed other stored hstored, hsameKey, hfind] at hstored
      cases hstored
      exact .inl ⟨j, hnow⟩
    · have hkeys : letter.reference.key ≠ stored.reference.key := by
        intro hsameKey
        rw [world.dead.keyed other stored hstored, ← hsameKey, hfind] at hstored
        cases hstored
        exact hsame rfl
      have hne : world.reading j ≠ world.current stored.reference.key := by
        rw [hread]
        exact fun hserial => hkeys (congrArg Prod.fst hserial)
      have hrevived : ∀ revived, RevivalEvent.revived (world.reading j) letter.messageKey ≠
          .revived (world.current stored.reference.key) revived := by
        intro revived hevent
        exact hne (RevivalEvent.revived.inj hevent).1
      exact .inr (hother.cons rfl (hdead _ hother.dead hsame) (by simp) hrevived (by simp))
  case reading =>
    intro k other hat
    rw [hcurrent]
    rcases letter?_update hat with ⟨rfl, hother⟩ | ⟨_, hother⟩
    · cases hother
      exact ⟨hfind, hread⟩
    · exact h.reading k other hother
  case alone =>
    have hbefore : ∀ k other, (Function.update standing j (.revived letter) k).letter? =
        some other → (standing k).letter? = some other := by
      intro k other hat
      rcases letter?_update hat with ⟨rfl, hother⟩ | ⟨_, hother⟩
      · cases hother
        exact hletter
      · exact hother
    intro k l left right hleft hright hsame
    exact h.alone k l left right (hbefore k left hleft) (hbefore l right hright) hsame
  case unpushed =>
    intro i other hother
    obtain ⟨hotherMessage, hotherDead, hstored⟩ := h.unpushed i other hother
    refine ⟨hotherMessage, hdead _ hotherDead ?_, ?_⟩
    · intro hsame
      obtain ⟨k, hk⟩ := hstored _ letter hfind hsame.symm
      have hjk := h.alone j k letter letter hletter (by rw [hk]; rfl) rfl
      rw [← hjk, hholding] at hk
      cases hk
    · intro key stored hfound hsame
      exact revived_update (hj stored) (hstored key stored hfound hsame)
  case unpushedAlone => exact h.unpushedAlone

/-- A replay removes the letter it has read. -/
theorem Orderly.remove (h : Orderly world standing pending) {j : κ} {letter : DeadLetter}
    (hrevived : standing j = .revived letter) :
    Orderly
      ({ world with dead := world.dead.remove letter.reference }.recording
        (.removed (world.reading j) (world.current letter.reference.key)))
      (Function.update standing j .idle) pending := by
  have hletter : (standing j).letter? = some letter := by rw [hrevived]; rfl
  obtain ⟨hfind, hread⟩ := h.reading j letter hletter
  have hcurrent : ({ world with dead := world.dead.remove letter.reference }.recording
      (.removed (world.reading j) (world.current letter.reference.key))).current =
        world.current := by
    funext other
    simp [current, recording, pushes_cons]
  -- What lies there now lay there before, and is not the letter removed.
  have hbefore : ∀ key other,
      (world.dead.remove letter.reference).find key = some other →
        world.dead.find key = some other ∧ other.reference.key ≠ letter.reference.key := by
    intro key other hother
    rw [InMemoryDeadStore.remove, InMemoryDeadStore.find_erase] at hother
    split at hother
    case isTrue => cases hother
    case isFalse hkey => exact ⟨hother, world.dead.keyed key other hother ▸ hkey⟩
  have hkept : ∀ other, other.reference.key ≠ letter.reference.key →
      (∃ k, standing k = .revived other) →
      ∃ k, Function.update standing j .idle k = .revived other := by
    intro other hne hother
    apply revived_update _ hother
    rw [hrevived]
    rintro ⟨⟩
    exact hne rfl
  have hothers : ∀ k other, (Function.update standing j .idle k).letter? = some other →
      k ≠ j ∧ (standing k).letter? = some other := by
    intro k other hat
    rcases letter?_update hat with ⟨_, hnone⟩ | hother
    · cases hnone
    · exact hother
  constructor
  case record =>
    apply h.record.cons (by simp)
    rintro read stored ⟨⟩
    exact hread.symm
  case future => exact future_cons h.future nofun
  case letters => exact fun key other hother => h.letters key other (hbefore key other hother).1
  case waiting =>
    intro key other hother
    obtain ⟨hfound, hne⟩ := hbefore key other hother
    rcases h.waiting key other hfound with hotherRevived | hwaits
    · exact .inl (hkept other hne hotherRevived)
    · exact .inr (hwaits.cons rfl hwaits.dead nofun nofun nofun)
  case reading =>
    intro k other hat
    obtain ⟨hk, hother⟩ := hothers k other hat
    obtain ⟨hfound, hotherRead⟩ := h.reading k other hother
    rw [hcurrent]
    refine ⟨?_, hotherRead⟩
    have hne : other.reference.key ≠ letter.reference.key :=
      fun hsame => hk (h.alone k j other letter hother hletter hsame)
    exact (InMemoryDeadStore.find_erase _ _ _).trans ((if_neg hne).trans hfound)
  case alone =>
    intro k l left right hleft hright hsame
    exact h.alone k l left right (hothers k left hleft).2 (hothers l right hright).2 hsame
  case unpushed =>
    intro i other hother
    obtain ⟨hmessage, hdead, hstored⟩ := h.unpushed i other hother
    refine ⟨hmessage, hdead, ?_⟩
    intro key stored hfound hsame
    obtain ⟨hfound, hne⟩ := hbefore key stored hfound
    exact hkept stored hne (hstored key stored hfound hsame)
  case unpushedAlone => exact h.unpushedAlone

end Replaying

section Calls

variable {world after : RevivalWorld κ}
variable {standing : κ → ReplayStanding} {pending : ι → Option DeadLetter}

/-- The answer to a giving up is the letter of a message that is now `Dead`. -/
theorem exists_of_deadLetter {worker : String} {choice : DispatchChoice} {tenant : TenantId}
    {id : Id} {error : Option String} {letter : DeadLetter} {outbox : OutboxWorld}
    (h : OutboxWorld.answer worker world.outboxWorld choice (.deadLetter tenant id error) =
      some (.ok letter, outbox)) :
    ∃ message, world.dead.outbox.find letter.messageKey = some message ∧ letter.OfMessage ∧
      letter.messageKey = Tx.messageKey tenant id ∧
      outbox.store = world.dead.outbox.insertRaw (InMemoryOutboxStore.deadened error message) := by
  cases choice with
  | time now =>
      simp only [OutboxWorld.answer, outboxWorld] at h
      cases hfind : world.dead.outbox.find (Tx.messageKey tenant id) with
      | none =>
          rw [InMemoryOutboxStore.deadLetter_of_missing hfind] at h
          cases h
      | some message =>
          rw [InMemoryOutboxStore.deadLetter_of_find hfind] at h
          cases h
          have hkey : Tx.messageKey message.tenant message.id = Tx.messageKey tenant id :=
            InMemoryOutboxStore.key_of_find hfind
          refine ⟨message, ?_, ⟨rfl, ?_⟩, hkey, rfl⟩
          · rw [← hfind]
            exact congrArg _ hkey
          · intro saga hsaga
            cases hsaga
  | order _ | outcome _ | hooked _ _ _ | none => cases h

/-- A call of a dispatcher. -/
theorem Orderly.dispatch [DecidableEq ι] (h : Orderly world standing pending) {i : ι}
    {worker : String} {choice : DispatchChoice} {op : DispatchOp} {reply : op.Answer}
    (hpermits : pushing.permits (pending i) op)
    (hfree : ∀ letter, op = .push letter → ∀ j other, (standing j).letter? = some other →
      other.reference.key ≠ letter.reference.key)
    (hsettles : ∀ key message, op.settles = some key →
      world.dead.outbox.find key = some message → message.status ≠ .dead)
    (hanswer : RevivalWorld.dispatch worker world choice op = some (reply, after)) :
    Orderly after standing
      (Function.update pending i (pushing.after (pending i) op reply)) := by
  cases op with
  | push letter =>
      cases hanswer
      exact h.push hpermits (hfree letter rfl)
  | ackDone tenant id =>
      obtain ⟨⟨reply', outbox⟩, hcall, heq⟩ := Option.map_eq_some_iff.mp hanswer
      cases heq
      have hkeeps := keepsDead_of_effect (OutboxWorld.effect_of_answer hcall) hsettles
      have halive : ¬world.IsDead (Tx.messageKey tenant id) := by
        rintro ⟨message, hfind, hdead⟩
        exact hsettles _ message rfl hfind hdead
      exact ((h.acked halive).withOutbox hkeeps).forget i
  | deadLetter tenant id error =>
      obtain ⟨⟨reply', outbox⟩, hcall, heq⟩ := Option.map_eq_some_iff.mp hanswer
      cases heq
      cases reply with
      | error _ =>
          have hkeeps := keepsDead_of_effect (OutboxWorld.effect_of_answer hcall) hsettles
          exact (h.withOutbox hkeeps).forget i
      | ok letter =>
          obtain ⟨message, hfind, hletter, hkey, hstore⟩ := exists_of_deadLetter hcall
          rw [hstore]
          apply h.givesUp i hletter hfind
          · exact hsettles _ message (hkey ▸ rfl) hfind
          · rw [InMemoryOutboxStore.key_deadened, InMemoryOutboxStore.key_of_find hfind]
          · rfl
  | leaseBatch _ _ _ _ _ _ | onDispatchAttempt _ _ | send _ | onDispatchResult _ _ _
  | nextAfter _ _ | nackBackoff _ _ _ _ =>
      obtain ⟨⟨reply', outbox⟩, hcall, heq⟩ := Option.map_eq_some_iff.mp hanswer
      cases heq
      have hkeeps := keepsDead_of_effect (OutboxWorld.effect_of_answer hcall) hsettles
      exact (h.withOutbox hkeeps).forget i

/-- A step of a replay. -/
theorem Orderly.proceed [DecidableEq κ] (h : Orderly world standing pending) {j : κ} {time : Int64}
    {op : ReplayOp} {reply : op.Answer} (hpermits : replaying.permits (standing j) op)
    (hfree : ∀ reference, op = .read reference → ∀ k other, (standing k).letter? = some other →
      other.reference.key ≠ reference.key)
    (hanswer : answer j world time op = some (reply, after)) :
    Orderly after (Function.update standing j (replaying.after (standing j) op reply))
      pending := by
  cases hstanding : standing j with
  | idle =>
      rw [hstanding] at hpermits
      cases op with
      | read reference =>
          cases hanswer
          apply h.read hstanding _ (hfree reference rfl)
          intro letter hletter
          cases hfind : world.dead.find reference.key with
          | none =>
              rw [hfind] at hletter
              cases hletter
          | some found =>
              rw [hfind] at hletter
              exact hletter
      | nowMs | revive _ _ _ | save _ | remove _ => cases hpermits
  | holding letter =>
      rw [hstanding] at hpermits
      have hletter : (standing j).letter? = some letter := by rw [hstanding]; rfl
      obtain ⟨hfind, _⟩ := h.reading j letter hletter
      cases op with
      | read _ | remove _ => cases hpermits
      | nowMs =>
          cases hanswer
          rw [show replaying.after (.holding letter) .nowMs time = standing j from
            hstanding.symm, Function.update_eq_self]
          exact h
      | save saga =>
          obtain ⟨payload, hpayload⟩ := hpermits
          exact absurd hpayload ((h.letters _ letter hfind).payload payload)
      | revive tenant id now =>
          obtain ⟨rfl, rfl⟩ := hpermits
          obtain ⟨message, hmessage, _⟩ := (h.waits hstanding).dead
          have hrevive : world.dead.outbox.revive letter.tenant letter.reference.id now = _ :=
            InMemoryOutboxStore.withMessage_of_find hmessage rfl
          simp only [answer, hrevive] at hanswer
          cases hanswer
          apply h.revive hstanding
          rw [InMemoryOutboxStore.key_revived, InMemoryOutboxStore.key_of_find hmessage]
  | revived letter =>
      rw [hstanding] at hpermits
      have hletter : (standing j).letter? = some letter := by rw [hstanding]; rfl
      obtain ⟨hfind, _⟩ := h.reading j letter hletter
      cases op with
      | read _ | nowMs | revive _ _ _ | save _ => cases hpermits
      | remove reference =>
          cases hpermits
          simp only [answer, hfind, Option.isSome_some, if_true] at hanswer
          cases hanswer
          exact h.remove hstanding

end Calls

end RevivalWorld

namespace RevivalState

variable {ι κ : Type}

open RevivalWorld

/-- What holds of every state reached: the parties obey their disciplines, and the
world is in order. -/
structure Obeys (state : RevivalState ι κ) (standing : κ → ReplayStanding)
    (pending : ι → Option DeadLetter) : Prop where
  dispatchers : ∀ i, (state.dispatchers i).Follows pushing EndsAnyhow (pending i)
  replays : ∀ j, (state.replays j).Follows Tx.replaying EndsIdle (standing j)
  orderly : state.world.Orderly standing pending

variable {state after : RevivalState ι κ} {standing : κ → ReplayStanding}
variable {pending : ι → Option DeadLetter}

/-- A replay that is at a letter is under way. -/
theorem Obeys.underway (h : state.Obeys standing pending) {j : κ} {letter : DeadLetter}
    (hletter : (standing j).letter? = some letter) :
    state.Underway j letter.reference.key := by
  refine ⟨?_, congrArg Prod.fst (h.orderly.reading j letter hletter).2⟩
  have hfollows := h.replays j
  cases hthread : state.replays j with
  | done value =>
      rw [hthread] at hfollows
      rw [show standing j = .idle from hfollows] at hletter
      cases hletter
  | call op resume =>
      rw [hthread] at hfollows
      refine ⟨op, rfl, ?_⟩
      have hpermits := hfollows.1
      cases op with
      | read reference =>
          cases hstanding : standing j with
          | idle =>
              rw [hstanding] at hletter
              cases hletter
          | holding _ | revived _ =>
              rw [hstanding] at hpermits
              cases hpermits
      | nowMs | revive _ _ _ | save _ | remove _ => rfl

/-- A replay that has returned is at no letter. -/
theorem Obeys.idle (h : state.Obeys standing pending) {j : κ}
    (hreturned : (state.replays j).returned = true) : standing j = .idle := by
  have hfollows := h.replays j
  cases hthread : state.replays j with
  | done value =>
      rw [hthread] at hfollows
      exact hfollows
  | call op resume =>
      rw [hthread] at hreturned
      cases hreturned

/-- A replay that has still to read a letter is not under way. -/
theorem not_underway_of_read {j : κ} {reference : DeadLetterRef} {key : LetterKey}
    (hhead : (state.replays j).head? = some (.read reference)) : ¬state.Underway j key := by
  rintro ⟨⟨op, hop, hreads⟩, _⟩
  rw [hhead] at hop
  cases hop
  cases hreads

variable [DecidableEq ι] [DecidableEq κ]

/-- One step of parties that keep apart. -/
theorem Obeys.step {dispatcher : ι → Dispatcher} {action : RevivalAction ι κ}
    (h : state.Obeys standing pending) (hseparate : state.Separate action)
    (hnext : state.next dispatcher action = some after) :
    ∃ standing' pending', after.Obeys standing' pending' := by
  cases action with
  | enqueue message createdAt notBefore =>
      cases hnext
      exact ⟨standing, pending, h.dispatchers, h.replays,
        h.orderly.withOutbox (keepsDead_enqueue _ message createdAt notBefore)⟩
  | tick i tenant nowMs =>
      obtain ⟨pool, hspawn, rfl⟩ := Option.map_eq_some_iff.mp hnext
      obtain ⟨_, rfl⟩ := Pool.spawn_eq_some_iff.mp hspawn
      exact ⟨standing, pending,
        Pool.follows_spawn h.dispatchers (Dispatcher.follows_pushing_tick _ tenant nowMs),
        h.replays, h.orderly⟩
  | replay j reference =>
      obtain ⟨pool, hspawn, rfl⟩ := Option.map_eq_some_iff.mp hnext
      obtain ⟨hreturned, rfl⟩ := Pool.spawn_eq_some_iff.mp hspawn
      have hreplay := Replay.follows_replay reference
      rw [← h.idle hreturned] at hreplay
      exact ⟨standing, pending, h.dispatchers, Pool.follows_spawn h.replays hreplay, h.orderly⟩
  | dispatch i choice =>
      obtain ⟨pool, hcall, rfl⟩ := Option.map_eq_some_iff.mp hnext
      obtain ⟨op, resume, reply, world, hthread, hanswer, rfl⟩ := Pool.call_eq_some_iff.mp hcall
      have hpermits := h.dispatchers i
      rw [show state.dispatchers i = _ from hthread] at hpermits
      have hhead : (state.dispatchers i).head? = some op := by
        rw [show state.dispatchers i = _ from hthread]
        rfl
      refine ⟨standing, _,
        Pool.follows_call (D := fun _ => pushing) h.dispatchers hthread trivial, h.replays, ?_⟩
      apply h.orderly.dispatch hpermits.1 _ _ hanswer
      · rintro letter rfl j other hother hsame
        exact hseparate.1 letter hhead j (hsame ▸ h.underway hother)
      · intro key message hop hfind
        exact hseparate.2 op key message hhead hop hfind
  | proceed j time =>
      obtain ⟨pool, hcall, rfl⟩ := Option.map_eq_some_iff.mp hnext
      obtain ⟨op, resume, reply, world, hthread, hanswer, rfl⟩ := Pool.call_eq_some_iff.mp hcall
      have hpermits := h.replays j
      rw [show state.replays j = _ from hthread] at hpermits
      have hhead : (state.replays j).head? = some op := by
        rw [show state.replays j = _ from hthread]
        rfl
      refine ⟨_, pending, h.dispatchers,
        Pool.follows_call (D := fun _ => Tx.replaying) h.replays hthread trivial, ?_⟩
      apply h.orderly.proceed hpermits.1 _ hanswer
      rintro reference rfl k other hother hsame
      have hk : k ≠ j := by
        rintro rfl
        exact not_underway_of_read hhead (h.underway hother)
      exact hseparate reference hhead k hk (hsame ▸ h.underway hother)

/-- Letters revive their messages once while replays keep apart. -/
theorem revivesOnce_of_separate (dispatcher : ι → Dispatcher) :
    RevivesOnceThroughout ((system (κ := κ) dispatcher).restrict Separate) := by
  intro state hreach
  suffices hobeys : ∃ standing pending, state.Obeys standing pending by
    obtain ⟨standing, pending, h⟩ := hobeys
    exact h.orderly.record
  refine TransitionSystem.invariant
    (fun state => ∃ standing pending, state.Obeys standing pending) ?_ ?_ hreach
  · rintro _ rfl
    exact ⟨fun _ => .idle, fun _ => none, fun _ => trivial, fun _ => rfl, orderly_start _⟩
  · intro source action target _ ⟨standing, pending, hobeys⟩ ⟨hseparate, hnext⟩
    exact hobeys.step hseparate hnext

namespace TwoReplays

/-- A dispatcher that gives a message up at its first failure. -/
def dispatcher : Dispatcher where
  workerId := "A"
  maxAttempts := 1
  leaseMs := 10
  batch := 1
  groupByDispatchKey := false
  deadStore := true

/-- A message. -/
def request : NewOutboxMessage where
  id := ⟨"m"⟩
  tenant := ⟨"t"⟩
  envelopeId := ⟨"e"⟩
  topic := "x"
  payload := .null
  notBefore := none
  dispatchKey := none

/-- The message is given up and its letter pushed. Both replays read the letter and
the clock, and then each revives the message. -/
def actions : List (RevivalAction Unit Bool) :=
  [.enqueue request 0 0, .tick () ⟨"t"⟩ 0, .dispatch () (.order [("t", "m")]),
    .dispatch () (.outcome (.ok ())), .dispatch () (.outcome (.error (.timeout "no answer"))),
    .dispatch () (.time 0), .dispatch () .none,
    .replay false ⟨.outbox, ⟨"m"⟩⟩, .replay true ⟨.outbox, ⟨"m"⟩⟩,
    .proceed false 0, .proceed true 0, .proceed false 1, .proceed true 2,
    .proceed false 0, .proceed true 0]

/-- The state after these steps. -/
def revivedTwice : RevivalState Unit Bool :=
  (TransitionSystem.replay (next fun _ => dispatcher) start actions).getD start

end TwoReplays

/-- Two replays of one letter revive its message twice. -/
theorem not_revivesOnce_twoReplays :
    ¬RevivesOnceThroughout (system (ι := Unit) (κ := Bool) fun _ => TwoReplays.dispatcher) := by
  intro h
  have hreach : (system fun _ => TwoReplays.dispatcher).Reachable TwoReplays.revivedTwice :=
    TransitionSystem.reachable_of_replay TwoReplays.actions rfl
  have honce := (h TwoReplays.revivedTwice hreach).once ((.outbox, "m"), 1)
  revert honce
  decide

end RevivalState

end Soulbase.Tx
