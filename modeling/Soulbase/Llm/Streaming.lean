/-
# One answer and a stream

`LocalChat` answers at once with `chat` and in two deltas with `chat_stream`, which are written
apart. Their texts agree where no JSON is asked for: `chat` gives a candidate in JSON as it is,
`chat_stream` puts `echo: ` before it. The usage in the last delta is that of an empty output, so
the two only agree where both fail, or where the estimate of the output comes to nothing as well.
-/

import Soulbase.Foundation.Program
import Soulbase.Llm

namespace Soulbase.Llm

open Soulbase.Foundation

namespace LocalChat

section Calls

variable {Schema : Type} (library : JsonLibrary Schema)

/-- `json!` of an echo, as a text. -/
def jsonCandidate (lastUser : String) : String :=
  library.toText (.object [("echo", .string lastUser)])

/-- `LocalChat::chat`. -/
def chat (req : ChatRequest Schema) (enforce : StructOutPolicy) :
    Except LlmError ChatResponse := do
  let lastUser := (lastUserText req.messages).getD ""
  let mut textOut := "echo: " ++ lastUser
  if let some format := req.responseFormat then
    if format.kind = .json ∨ format.kind = .jsonSchema then
      let candidate := jsonCandidate library lastUser
      let value ← enforceJson library candidate enforce
      validateAgainstSchema library value format.jsonSchema
      textOut := candidate
  return {
    modelId := req.modelId
    message := { role := .assistant, segments := [.text textOut], toolCalls := [] }
    usage := estimateUsage [lastUser] textOut
    cost := zeroCost
    finish := .stop
    providerMeta := .object [("provider", .string "local")] }

/-- `LocalChat::chat_stream`. -/
def chatStream (req : ChatRequest Schema) (enforce : StructOutPolicy) :
    Except LlmError ChatStream := do
  let lastUser := (lastUserText req.messages).getD ""
  let intro : ChatDelta := {
    textDelta := some "echo: "
    toolCallDelta := none
    usagePartial := none
    finish := none
    firstTokenMs := some 10 }
  let mut bodyText := lastUser
  if let some format := req.responseFormat then
    if format.kind = .json ∨ format.kind = .jsonSchema then
      let candidate := jsonCandidate library lastUser
      let value ← enforceJson library candidate enforce
      validateAgainstSchema library value format.jsonSchema
      bodyText := candidate
  let body : ChatDelta := {
    textDelta := some bodyText
    toolCallDelta := none
    usagePartial := some (estimateUsage [lastUser] "")
    finish := some .stop
    firstTokenMs := none }
  return [.ok intro, .ok body]

end Calls

end LocalChat

/-- The texts of a message, one after the other. -/
def Message.text (message : Message) : String :=
  String.join (message.segments.filterMap ContentSegment.asText)

/-- Both fail, or the stream yields deltas whose texts make that of the response, and whose last
one has its usage. -/
def Agree (response : Except LlmError ChatResponse) (stream : Except LlmError ChatStream) : Prop :=
  match response, stream with
  | .error _, .error _ => True
  | .ok response, .ok items => ∃ deltas : List ChatDelta, items = deltas.map .ok ∧
      String.join (deltas.filterMap (·.textDelta)) = response.message.text ∧
        deltas.getLast?.bind (·.usagePartial) = some response.usage
  | .error _, .ok _ | .ok _, .error _ => False

section Formats

variable {Schema : Type}

/-- The format asks for JSON. -/
def ResponseFormat.AsksJson (format : ResponseFormat Schema) : Prop :=
  format.kind = .json ∨ format.kind = .jsonSchema

/-- The candidate for an answer is refused: it is not the JSON that is asked for. -/
def Refuses (library : JsonLibrary Schema) (enforce : StructOutPolicy)
    (format : ResponseFormat Schema) (candidate : String) : Prop :=
  ∀ value, enforceJson library candidate enforce = .ok value →
    validateAgainstSchema library value format.jsonSchema ≠ .ok ()

end Formats

/-- A response with a text, with its usage estimated. -/
def Answers (lastUser text : String) (response : ChatResponse) : Prop :=
  response.message.text = text ∧ response.usage = estimateUsage [lastUser] text

/-- A stream with a text after the first delta, with the usage of no output. -/
def Streams (lastUser text : String) (stream : ChatStream) : Prop :=
  ∃ intro body, stream = [.ok intro, .ok body] ∧ intro.textDelta = some "echo: " ∧
    body.textDelta = some text ∧ body.usagePartial = some (estimateUsage [lastUser] "")

section Checked

variable {ε α β : Type} {first : Except ε α} {check : α → Except ε Unit}

theorem checked_eq_ok {value : α} {result : β} (hfirst : first = .ok value)
    (hcheck : check value = .ok ()) :
    (do
      let value ← first
      check value
      return result) = Except.ok result :=
  except_do_eq_ok_iff.mpr ⟨value, hfirst, except_do_eq_ok_iff.mpr ⟨(), hcheck, rfl⟩⟩

theorem checked_eq_error (h : ∀ value, first = .ok value → check value ≠ .ok ()) :
    ∃ err, ∀ result : β, (do
      let value ← first
      check value
      return result) = Except.error err := by
  cases first with
  | error err => exact ⟨err, fun _ => rfl⟩
  | ok value =>
      cases hcheck : check value with
      | ok => exact absurd hcheck (h value rfl)
      | error err =>
          refine ⟨err, fun result => ?_⟩
          change (check value >>= fun _ => pure result) = _
          rw [hcheck]
          rfl

end Checked

namespace LocalChat

variable {Schema : Type} {library : JsonLibrary Schema} {req : ChatRequest Schema}
variable {enforce : StructOutPolicy} {format : ResponseFormat Schema} {lastUser : String}

section Plain

variable (huser : (lastUserText req.messages).getD "" = lastUser)
variable (hplain : ∀ format, req.responseFormat = some format → ¬ format.AsksJson)

include huser hplain

theorem chat_plain : ∃ response, chat library req enforce = .ok response ∧
    Answers lastUser ("echo: " ++ lastUser) response := by
  subst huser
  unfold chat
  cases hformat : req.responseFormat with
  | none => exact ⟨_, rfl, rfl, rfl⟩
  | some format => exact ⟨_, if_neg (hplain format hformat), rfl, rfl⟩

theorem chatStream_plain : ∃ stream, chatStream library req enforce = .ok stream ∧
    Streams lastUser lastUser stream := by
  subst huser
  unfold chatStream
  cases hformat : req.responseFormat with
  | none => exact ⟨_, rfl, _, _, rfl, rfl, rfl, rfl⟩
  | some format => exact ⟨_, if_neg (hplain format hformat), _, _, rfl, rfl, rfl, rfl⟩

end Plain

section Json

variable (huser : (lastUserText req.messages).getD "" = lastUser)
variable (hformat : req.responseFormat = some format) (hjson : format.AsksJson)

include huser hformat hjson

theorem chat_refused (h : Refuses library enforce format (jsonCandidate library lastUser)) :
    ∃ err, chat library req enforce = .error err := by
  subst huser
  unfold chat
  rw [hformat]
  obtain ⟨err, herr⟩ := checked_eq_error h
  exact ⟨err, (if_pos hjson).trans (herr _)⟩

theorem chatStream_refused (h : Refuses library enforce format (jsonCandidate library lastUser)) :
    ∃ err, chatStream library req enforce = .error err := by
  subst huser
  unfold chatStream
  rw [hformat]
  obtain ⟨err, herr⟩ := checked_eq_error h
  exact ⟨err, (if_pos hjson).trans (herr _)⟩

section Accepted

variable {value : Json.Value}
variable (hvalue : enforceJson library (jsonCandidate library lastUser) enforce = .ok value)
variable (hvalid : validateAgainstSchema library value format.jsonSchema = .ok ())

include hvalue hvalid

theorem chat_json : ∃ response, chat library req enforce = .ok response ∧
    Answers lastUser (jsonCandidate library lastUser) response := by
  subst huser
  unfold chat
  rw [hformat]
  exact ⟨_, (if_pos hjson).trans (checked_eq_ok hvalue hvalid), rfl, rfl⟩

theorem chatStream_json : ∃ stream, chatStream library req enforce = .ok stream ∧
    Streams lastUser (jsonCandidate library lastUser) stream := by
  subst huser
  unfold chatStream
  rw [hformat]
  exact ⟨_, (if_pos hjson).trans (checked_eq_ok hvalue hvalid), _, _, rfl, rfl, rfl, rfl⟩

end Accepted

end Json

end LocalChat

section Agreement

variable {Schema : Type} {library : JsonLibrary Schema} {req : ChatRequest Schema}
variable {enforce : StructOutPolicy} {format : ResponseFormat Schema}

theorem agree_two_iff {response : ChatResponse} {intro body : ChatDelta} :
    Agree (.ok response) (.ok [.ok intro, .ok body]) ↔
      String.join ([intro, body].filterMap (·.textDelta)) = response.message.text ∧
        body.usagePartial = some response.usage := by
  constructor
  · rintro ⟨deltas, hitems, htext, husage⟩
    obtain rfl : [intro, body] = deltas :=
      List.map_injective_iff.mpr (fun _ _ => Except.ok.inj) hitems
    exact ⟨htext, husage⟩
  · rintro ⟨htext, husage⟩
    exact ⟨[intro, body], rfl, htext, husage⟩

/-- The texts agree without `echo: ` in front only, and the usage for an output of no tokens. -/
theorem agree_iff {lastUser text body : String} {response : ChatResponse} {stream : ChatStream}
    (hresponse : Answers lastUser text response) (hstream : Streams lastUser body stream) :
    Agree (.ok response) (.ok stream) ↔ text = "echo: " ++ body ∧ estimateTokens text = 0 := by
  obtain ⟨htext, husage⟩ := hresponse
  obtain ⟨intro, last, rfl, hintro, hlast, hpartial⟩ := hstream
  have hjoin : String.join ([intro, last].filterMap (·.textDelta)) = "echo: " ++ body := by
    simp [hintro, hlast, String.join]
  rw [agree_two_iff, hjoin, htext, hpartial, husage, Option.some_inj]
  refine and_congr eq_comm ?_
  constructor
  · intro hsame
    exact (congrArg Usage.outputTokens hsame).symm
  · intro hzero
    unfold estimateUsage
    rw [hzero]
    rfl

/-- The condition for a request: where JSON is asked for, the candidate is refused, and where it is
not, the answer has so many characters that its estimate comes to nothing. -/
def AgreesWhen (library : JsonLibrary Schema) (req : ChatRequest Schema)
    (enforce : StructOutPolicy) : Prop :=
  let lastUser := (lastUserText req.messages).getD ""
  let count := (6 + lastUser.length) % 2 ^ 32
  (∃ format, req.responseFormat = some format ∧ format.AsksJson ∧
      Refuses library enforce format (LocalChat.jsonCandidate library lastUser)) ∨
    (∀ format, req.responseFormat = some format → ¬ format.AsksJson) ∧
      (count = 0 ∨ 2 ^ 32 - 3 ≤ count)

/-- `chat` and `chat_stream` agree on a request exactly where that holds. -/
theorem agree_iff_agreesWhen (library : JsonLibrary Schema) (req : ChatRequest Schema)
    (enforce : StructOutPolicy) :
    Agree (LocalChat.chat library req enforce) (LocalChat.chatStream library req enforce) ↔
      AgreesWhen library req enforce := by
  by_cases hasks : ∃ format, req.responseFormat = some format ∧ format.AsksJson
  · obtain ⟨format, hformat, hjson⟩ := hasks
    have hplain : ¬ ∀ format, req.responseFormat = some format → ¬ format.AsksJson :=
      fun h => h format hformat hjson
    by_cases hrefuses : Refuses library enforce format
        (LocalChat.jsonCandidate library ((lastUserText req.messages).getD ""))
    · obtain ⟨err, hchat⟩ := LocalChat.chat_refused rfl hformat hjson hrefuses
      obtain ⟨err', hstream⟩ := LocalChat.chatStream_refused rfl hformat hjson hrefuses
      rw [hchat, hstream]
      exact iff_of_true trivial (.inl ⟨format, hformat, hjson, hrefuses⟩)
    · have hchecked := hrefuses
      simp only [Refuses, not_forall, not_not] at hchecked
      obtain ⟨value, hvalue, hvalid⟩ := hchecked
      obtain ⟨response, hchat, hresponse⟩ := LocalChat.chat_json rfl hformat hjson hvalue hvalid
      obtain ⟨stream, hstream, hstreams⟩ :=
        LocalChat.chatStream_json rfl hformat hjson hvalue hvalid
      rw [hchat, hstream, agree_iff hresponse hstreams]
      refine iff_of_false ?_ ?_
      · rintro ⟨htext, _⟩
        exact absurd (congrArg String.length htext) (by simp)
      · rintro (⟨other, hother, _, hother_refuses⟩ | ⟨h, _⟩)
        · rw [hformat] at hother
          cases hother
          exact hrefuses hother_refuses
        · exact hplain h
  · have hplain : ∀ format, req.responseFormat = some format → ¬ format.AsksJson :=
      fun format hformat hjson => hasks ⟨format, hformat, hjson⟩
    obtain ⟨response, hchat, hresponse⟩ := LocalChat.chat_plain rfl hplain
    obtain ⟨stream, hstream, hstreams⟩ := LocalChat.chatStream_plain rfl hplain
    rw [hchat, hstream, agree_iff hresponse hstreams, estimateTokens_eq_zero_iff,
      String.length_append]
    constructor
    · rintro ⟨_, hcount⟩
      exact .inr ⟨hplain, hcount⟩
    · rintro (⟨format, hformat, hjson, _⟩ | ⟨_, hcount⟩)
      · exact absurd hjson (hplain format hformat)
      · exact ⟨rfl, hcount⟩

end Agreement

namespace Echo

/-- The library on echoes of texts without escapes. -/
def library : JsonLibrary Unit where
  toText
    | .object [("echo", .string text)] => "\x7b\"echo\":\"" ++ text ++ "\"\x7d"
    | _ => "null"
  fromText text :=
    if text = "\x7b\"echo\":\"hello\"\x7d" then .ok (.object [("echo", .string "hello")])
    else .error "expected value"
  validate _ _ := .ok ()

def request (format : Option (ResponseFormat Unit)) : ChatRequest Unit where
  modelId := "local:echo"
  messages := [⟨.system, [.text "You are echo."], []⟩, ⟨.user, [.text "hello"], []⟩]
  responseFormat := format

end Echo

open Echo in
/-- An echo of `hello` takes three tokens in the response and none in the stream, and in JSON it is
not JSON in the stream. -/
theorem not_agree_hello :
    ¬ Agree (LocalChat.chat library (request none) .off)
        (LocalChat.chatStream library (request none) .off) ∧
      ¬ Agree (LocalChat.chat library (request (some ⟨.json, none, true⟩)) .strictReject)
        (LocalChat.chatStream library (request (some ⟨.json, none, true⟩)) .strictReject) := by
  constructor
  · intro h
    change Agree (.ok _) (.ok [.ok _, .ok _]) at h
    have husage := congrArg Usage.outputTokens (Option.some.inj (agree_two_iff.mp h).2)
    revert husage
    decide
  · intro h
    change Agree (.ok _) (.ok [.ok _, .ok _]) at h
    have htext := (agree_two_iff.mp h).1
    revert htext
    decide

end Soulbase.Llm
