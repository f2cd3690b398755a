/-
# Texts of conditions

A condition compares fields of a record with parameters. Its text is cut into words and
parentheses and read with `NOT` over `AND` over `OR`, by a reader that keeps a frame for every
parenthesis that is open. What a piece of text does to the reader is stated once for every
form of text, `Factors` and `Alternatives`, and so is what cannot be read at all,
`Unreadable`: an empty piece next to an `AND` or an `OR`.
-/

import Mathlib.Data.List.Infix
import Mathlib.Data.Nat.Notation
import Soulbase.Foundation.Text

namespace Soulbase.Foundation

/-- Comparisons of fields with parameters, and what is built from them. -/
inductive Condition
  | compare (field comparator param : String)
  | not (inner : Condition)
  | and (first second : Condition)
  | or (first second : Condition)
  deriving DecidableEq

namespace Condition

/-- Which comparisons are true: of a field, with a parameter. -/
abbrev Truth := String → String → String → Bool

/-- Whether a condition holds. -/
def holds (truth : Truth) : Condition → Bool
  | compare field comparator param => truth field comparator param
  | not inner => !inner.holds truth
  | and first second => first.holds truth && second.holds truth
  | or first second => first.holds truth || second.holds truth

/-- The word that has been read, if there is one. -/
def flush (word : List Char) : List String := if word = [] then [] else [.ofList word]

/-- The characters that end a word, and what they are themselves. -/
def delimiter (c : Char) : Option (List String) :=
  if c = ' ' then some []
  else if c = '(' then some ["("]
  else if c = ')' then some [")"]
  else none

/-- Cut characters into words and parentheses, after a part of a word. -/
def lexFrom (word : List Char) : List Char → List String
  | [] => flush word
  | c :: rest =>
      match delimiter c with
      | some tokens => flush word ++ tokens ++ lexFrom [] rest
      | none => lexFrom (word ++ [c]) rest

/-- Cut a text into words and parentheses. -/
def lex (text : String) : List String := lexFrom [] text.toList

/-- A word: it is not empty, and nothing in it ends it. -/
def IsWord (text : String) : Prop := text ≠ "" ∧ ∀ c ∈ text.toList, delimiter c = none

theorem lexFrom_append_delimiter {c : Char} {tokens : List String} (hc : delimiter c = some tokens)
    (word first second : List Char) :
    lexFrom word (first ++ c :: second) = lexFrom word first ++ tokens ++ lexFrom [] second := by
  induction first generalizing word with
  | nil => simp [lexFrom, hc]
  | cons head rest ih =>
      rw [List.cons_append, lexFrom, lexFrom]
      cases delimiter head with
      | none => exact ih _
      | some found => simp only [ih, List.append_assoc]

theorem lexFrom_of_plain {first : List Char} (h : ∀ c ∈ first, delimiter c = none)
    (word : List Char) : lexFrom word first = flush (word ++ first) := by
  induction first generalizing word with
  | nil => rw [lexFrom, List.append_nil]
  | cons head rest ih =>
      rw [lexFrom, h head List.mem_cons_self]
      have hrest := ih (fun c hc => h c (List.mem_cons_of_mem _ hc)) (word ++ [head])
      rw [List.append_assoc] at hrest
      exact hrest

@[simp]
theorem lex_empty : lex "" = [] := rfl

theorem lex_word {text : String} (h : IsWord text) : lex text = [text] := by
  rw [lex, lexFrom_of_plain h.2, List.nil_append, flush, if_neg, String.ofList_toList]
  exact fun hempty => h.1 (String.toList_eq_nil_iff.mp hempty)

theorem lex_append_space (first second : String) :
    lex (first ++ " " ++ second) = lex first ++ lex second := by
  rw [lex, String.toList_append, String.toList_append, List.append_assoc]
  change lexFrom [] (first.toList ++ ' ' :: second.toList) = _
  rw [lexFrom_append_delimiter rfl, List.append_nil]
  rfl

theorem lex_parenthesis (text : String) : lex ("(" ++ text ++ ")") = "(" :: lex text ++ [")"] := by
  rw [lex, String.toList_append, String.toList_append]
  have hclose : lexFrom [] (text.toList ++ [')']) = lexFrom [] text.toList ++ [")"] ++ [] :=
    lexFrom_append_delimiter rfl [] text.toList []
  change lexFrom [] ('(' :: (text.toList ++ [')'])) = _
  rw [lexFrom, show delimiter '(' = some ["("] from rfl, hclose, List.append_nil]
  rfl

theorem lex_and (first second : String) :
    lex (first ++ " AND " ++ second) = lex first ++ "AND" :: lex second := by
  have hwords : first ++ " AND " ++ second = first ++ " " ++ ("AND" ++ " " ++ second) := by
    rw [show " AND " = " " ++ "AND" ++ " " by decide]
    simp only [String.append_assoc]
  rw [hwords, lex_append_space, lex_append_space]
  rfl

theorem lex_or (first second : String) :
    lex (first ++ " OR " ++ second) = lex first ++ "OR" :: lex second := by
  have hwords : first ++ " OR " ++ second = first ++ " " ++ ("OR" ++ " " ++ second) := by
    rw [show " OR " = " " ++ "OR" ++ " " by decide]
    simp only [String.append_assoc]
  rw [hwords, lex_append_space, lex_append_space]
  rfl

theorem lex_not (text : String) :
    lex ("NOT (" ++ text ++ ")") = "NOT" :: "(" :: lex text ++ [")"] := by
  have hwords : "NOT (" ++ text ++ ")" = "NOT" ++ " " ++ ("(" ++ text ++ ")") := by
    rw [show "NOT (" = "NOT" ++ " " ++ "(" by decide]
    simp only [String.append_assoc]
  rw [hwords, lex_append_space, lex_parenthesis]
  rfl

/-- What has been read of a condition in parentheses: the alternatives before the last `OR`, and
the factors after it. -/
structure Frame where
  negated : Bool
  alternatives : Option Condition
  group : Option Condition

namespace Frame

/-- A frame of which nothing has been read. -/
def start (negated : Bool) : Frame := ⟨negated, none, none⟩

/-- A condition after others. -/
def joined (join : Condition → Condition → Condition) (found : Option Condition)
    (next : Condition) : Condition :=
  found.elim next (join · next)

/-- A factor of the last alternative. -/
def add (frame : Frame) (factor : Condition) : Frame :=
  { frame with group := some (joined .and frame.group factor) }

/-- All alternatives. -/
def value (frame : Frame) : Option Condition :=
  frame.group.map (joined .or frame.alternatives)

/-- An `OR`. -/
def alternate (frame : Frame) : Frame :=
  { frame with
    alternatives := frame.value
    group := none }

/-- The condition in the parentheses. -/
def close (frame : Frame) : Option Condition :=
  frame.value.map fun condition => if frame.negated then .not condition else condition

end Frame

/-- What the reader expects next. -/
inductive Phase
  | operand
  | word (text : String)
  | comparison (field comparator : String)
  | operator

/-- A reader: what it expects, and the frames of the open parentheses. -/
structure Reader where
  phase : Phase
  frame : Frame
  outer : List Frame

/-- The comparisons. -/
def comparators : List String := ["=", "!=", ">", ">=", "<", "<=", "IN", "CONTAINS"]

/-- A parameter, with a dollar sign before its name. -/
def placeholder (name : String) : String := "$" ++ name

theorem isWord_comparator {comparator : String} (h : comparator ∈ comparators) :
    IsWord comparator := by
  simp only [comparators, List.mem_cons, List.not_mem_nil, or_false] at h
  rcases h with rfl | rfl | rfl | rfl | rfl | rfl | rfl | rfl <;>
    exact ⟨by decide, by simp [delimiter]⟩

namespace Reader

/-- Read a word or a parenthesis. A word before a comparison is a field, whatever it says. -/
def step (reader : Reader) (token : String) : Option Reader :=
  match reader.phase with
  | .operand =>
      if token = "(" then some ⟨.operand, .start false, reader.frame :: reader.outer⟩
      else if token = ")" then none
      else some { reader with phase := .word token }
  | .word text =>
      if token = "(" then
        if text = "NOT" then some ⟨.operand, .start true, reader.frame :: reader.outer⟩ else none
      else if token ∈ comparators then some { reader with phase := .comparison text token }
      else none
  | .comparison field comparator =>
      match token.toList with
      | '$' :: name =>
          some { reader with
            phase := .operator
            frame := reader.frame.add (.compare field comparator (.ofList name)) }
      | _ => none
  | .operator =>
      if token = "AND" then some { reader with phase := .operand }
      else if token = "OR" then
        some { reader with phase := .operand, frame := reader.frame.alternate }
      else if token = ")" then
        match reader.outer with
        | [] => none
        | frame :: outer =>
            reader.frame.close.map fun condition => ⟨.operator, frame.add condition, outer⟩
      else none

/-- Read all of them. -/
def run : Reader → List String → Option Reader
  | reader, [] => some reader
  | reader, token :: tokens => (reader.step token).bind fun next => run next tokens

/-- The condition, if all that was opened is closed. -/
def finish (reader : Reader) : Option Condition :=
  match reader.phase, reader.outer with
  | .operator, [] => reader.frame.close
  | _, _ => none

/-- Before the first word. -/
def start : Reader := ⟨.operand, .start false, []⟩

theorem run_append (reader : Reader) (first second : List String) :
    reader.run (first ++ second) = (reader.run first).bind fun next => next.run second := by
  induction first generalizing reader with
  | nil => rfl
  | cons token rest ih =>
      rw [List.cons_append, run, run]
      cases reader.step token with
      | none => rfl
      | some next => exact ih next

end Reader

/-- Read a text. -/
def read (text : String) : Option Condition := (Reader.start.run (lex text)).bind Reader.finish

section Readable

variable {tokens first second : List String} {meaning other : Truth → Bool}

/-- The words are factors of one alternative. -/
def Factors (tokens : List String) (meaning : Truth → Bool) : Prop :=
  ∀ frame outer, ∃ group,
    Reader.run ⟨.operand, frame, outer⟩ tokens =
      some ⟨.operator, { frame with group := some group }, outer⟩ ∧
    ∀ truth, group.holds truth = (frame.group.elim true (holds truth) && meaning truth)

/-- The words are alternatives. -/
def Alternatives (tokens : List String) (meaning : Truth → Bool) : Prop :=
  ∀ frame outer, frame.group = none → ∃ after value,
    Reader.run ⟨.operand, frame, outer⟩ tokens = some ⟨.operator, after, outer⟩ ∧
    after.negated = frame.negated ∧ after.value = some value ∧
    ∀ truth, value.holds truth = (frame.alternatives.elim false (holds truth) || meaning truth)

theorem holds_joined_and (truth : Truth) (found : Option Condition) (next : Condition) :
    (Frame.joined .and found next).holds truth =
      (found.elim true (holds truth) && next.holds truth) := by
  cases found <;> rfl

theorem holds_joined_or (truth : Truth) (found : Option Condition) (next : Condition) :
    (Frame.joined .or found next).holds truth =
      (found.elim false (holds truth) || next.holds truth) := by
  cases found <;> rfl

/-- A comparison. -/
theorem factors_compare {field comparator : String} (name : String) (hfield : IsWord field)
    (hcomparator : comparator ∈ comparators) :
    Factors [field, comparator, placeholder name]
      fun truth => truth field comparator name := by
  intro frame outer
  have hopen : field ≠ "(" := fun h => by
    have hword := hfield.2 '(' (by simp [h])
    cases hword
  have hclose : field ≠ ")" := fun h => by
    have hword := hfield.2 ')' (by simp [h])
    cases hword
  have hnot : comparator ≠ "(" := by
    rintro rfl
    revert hcomparator
    decide
  refine ⟨_, ?_, fun truth =>
    holds_joined_and truth frame.group (.compare field comparator name)⟩
  simp [Reader.run, Reader.step, hopen, hclose, hnot, hcomparator, placeholder, Frame.add]

/-- Factors after others. -/
theorem Factors.and (hfirst : Factors first meaning) (hsecond : Factors second other) :
    Factors (first ++ "AND" :: second) fun truth => meaning truth && other truth := by
  intro frame outer
  obtain ⟨group, hrun, hgroup⟩ := hfirst frame outer
  obtain ⟨all, hrest, hall⟩ := hsecond { frame with group := some group } outer
  refine ⟨all, ?_, ?_⟩
  · rw [Reader.run_append, hrun]
    exact hrest
  · intro truth
    rw [hall truth]
    change (group.holds truth && other truth) = _
    rw [hgroup truth, Bool.and_assoc]

/-- Factors are the first alternative. -/
theorem Factors.alternatives (h : Factors tokens meaning) : Alternatives tokens meaning := by
  intro frame outer hnone
  obtain ⟨group, hrun, hgroup⟩ := h frame outer
  refine ⟨_, _, hrun, rfl, rfl, ?_⟩
  intro truth
  rw [holds_joined_or, hgroup truth, hnone]
  rfl

/-- Alternatives after one. -/
theorem Factors.or (hfirst : Factors first meaning) (hsecond : Alternatives second other) :
    Alternatives (first ++ "OR" :: second) fun truth => meaning truth || other truth := by
  intro frame outer hnone
  obtain ⟨group, hrun, hgroup⟩ := hfirst frame outer
  obtain ⟨after, value, hrest, hnegated, hvalue, hholds⟩ :=
    hsecond (Frame.alternate { frame with group := some group }) outer rfl
  refine ⟨after, value, ?_, hnegated, hvalue, ?_⟩
  · rw [Reader.run_append, hrun]
    exact hrest
  · intro truth
    rw [hholds truth]
    change ((Frame.joined .or frame.alternatives group).holds truth || other truth) = _
    rw [holds_joined_or, hgroup truth, hnone, Bool.or_assoc]
    rfl

/-- Alternatives in parentheses are a factor. -/
theorem Alternatives.parenthesis (h : Alternatives tokens meaning) :
    Factors ("(" :: tokens ++ [")"]) meaning := by
  intro frame outer
  obtain ⟨after, value, hrun, hnegated, hvalue, hholds⟩ := h (.start false) (frame :: outer) rfl
  refine ⟨Frame.joined .and frame.group value, ?_, ?_⟩
  · change (Reader.run ⟨.operand, .start false, frame :: outer⟩ (tokens ++ [")"])) = _
    rw [Reader.run_append, hrun]
    have hclose : after.close = some value := by
      rw [Frame.close, hvalue, hnegated]
      rfl
    simp [Reader.run, Reader.step, hclose, Frame.add]
  · intro truth
    rw [holds_joined_and, hholds truth]
    rfl

/-- They are negated by a `NOT` before them. -/
theorem Alternatives.negation (h : Alternatives tokens meaning) :
    Factors ("NOT" :: "(" :: tokens ++ [")"]) fun truth => !meaning truth := by
  intro frame outer
  obtain ⟨after, value, hrun, hnegated, hvalue, hholds⟩ := h (.start true) (frame :: outer) rfl
  refine ⟨Frame.joined .and frame.group (.not value), ?_, ?_⟩
  · change (Reader.run ⟨.operand, .start true, frame :: outer⟩ (tokens ++ [")"])) = _
    rw [Reader.run_append, hrun]
    have hclose : after.close = some (.not value) := by
      rw [Frame.close, hvalue, hnegated]
      rfl
    simp [Reader.run, Reader.step, hclose, Frame.add]
  · intro truth
    rw [holds_joined_and]
    change (_ && !value.holds truth) = _
    rw [hholds truth]
    rfl

/-- A text of alternatives is a condition. -/
theorem Alternatives.read {text : String} (h : Alternatives (lex text) meaning) :
    ∃ condition, read text = some condition ∧ ∀ truth, condition.holds truth = meaning truth := by
  obtain ⟨after, value, hrun, hnegated, hvalue, hholds⟩ := h (.start false) [] rfl
  refine ⟨value, ?_, hholds⟩
  rw [Condition.read, Reader.start, hrun]
  change after.close = _
  rw [Frame.close, hvalue, hnegated]
  rfl

end Readable

/-! ## Pieces of text that cannot be read -/

namespace Reader

/-- Read the words, and finish. -/
def complete (reader : Reader) (tokens : List String) : Option Condition :=
  (reader.run tokens).bind finish

theorem complete_append {reader next : Reader} {first second : List String}
    (h : reader.run first = some next) :
    reader.complete (first ++ second) = next.complete second := by
  rw [complete, run_append, h]
  rfl

theorem complete_cons {reader next : Reader} {token : String} {tokens : List String}
    (h : reader.step token = some next) :
    reader.complete (token :: tokens) = next.complete tokens := by
  rw [complete, run, h]
  rfl

theorem complete_cons_none {reader : Reader} {token : String} {tokens : List String}
    (h : reader.step token = none) : reader.complete (token :: tokens) = none := by
  rw [complete, run, h]
  rfl

end Reader

section Unreadable

variable {tokens first second rest : List String} {meaning : Truth → Bool} {word : String}

/-- The words that join pieces. -/
def IsJoin (word : String) : Prop := word = "AND" ∨ word = "OR"

theorem IsJoin.step_operand (h : IsJoin word) (frame : Frame) (outer : List Frame) :
    Reader.step ⟨.operand, frame, outer⟩ word = some ⟨.word word, frame, outer⟩ := by
  rcases h with rfl | rfl <;> rfl

theorem IsJoin.step_operator (h : IsJoin word) (frame : Frame) (outer : List Frame) :
    ∃ after, Reader.step ⟨.operator, frame, outer⟩ word = some ⟨.operand, after, outer⟩ := by
  rcases h with rfl | rfl
  · exact ⟨frame, rfl⟩
  · exact ⟨frame.alternate, rfl⟩

/-- The words do not make a comparison of a joining word. -/
def Barren (tokens : List String) : Prop :=
  ∀ word frame outer, IsJoin word → Reader.complete ⟨.word word, frame, outer⟩ tokens = none

/-- What follows a piece: nothing, the end of its parentheses, or a joining word. -/
inductive Follows : List String → Prop
  | nil : Follows []
  | close (rest : List String) : Follows (")" :: rest)
  | join {word : String} {rest : List String} (hword : IsJoin word) (hrest : Barren rest) :
      Follows (word :: rest)

/-- Words that cannot be read as an operand, whatever follows. -/
def Unreadable (tokens : List String) : Prop :=
  ∀ frame outer rest, Follows rest →
    Reader.complete ⟨.operand, frame, outer⟩ (tokens ++ rest) = none

/-- Words that do not continue a comparison of a joining word, whatever follows. -/
def Opens (tokens : List String) : Prop := ∀ rest, Follows rest → Barren (tokens ++ rest)

theorem barren_of_not_comparator {token : String} (htoken : token ∉ comparators)
    (rest : List String) : Barren (token :: rest) := by
  intro word frame outer hword
  refine Reader.complete_cons_none ?_
  have hnot : word ≠ "NOT" := by rcases hword with rfl | rfl <;> decide
  simp [Reader.step, hnot, htoken]

theorem barren_comparison (field : String) {comparator : String}
    (hcomparator : comparator ∈ comparators) (rest : List String) :
    Barren (field :: comparator :: rest) := by
  intro word frame outer hword
  have hnot : word ≠ "NOT" := by rcases hword with rfl | rfl <;> decide
  by_cases hopen : field = "("
  · exact Reader.complete_cons_none (by simp [Reader.step, hopen, hnot])
  by_cases hfield : field ∈ comparators
  · have hstep : Reader.step ⟨.word word, frame, outer⟩ field =
        some ⟨.comparison word field, frame, outer⟩ := by simp [Reader.step, hopen, hfield]
    rw [Reader.complete_cons hstep]
    refine Reader.complete_cons_none ?_
    simp only [comparators, List.mem_cons, List.not_mem_nil, or_false] at hcomparator
    rcases hcomparator with rfl | rfl | rfl | rfl | rfl | rfl | rfl | rfl <;> rfl
  · exact Reader.complete_cons_none (by simp [Reader.step, hopen, hfield])

theorem Follows.barren (h : Follows rest) : Barren rest := by
  cases h with
  | nil => exact fun _ _ _ _ => rfl
  | close rest => exact barren_of_not_comparator (by decide) rest
  | join hword _ => exact barren_of_not_comparator (by rcases hword with rfl | rfl <;> decide) _

/-- Nothing cannot be read. -/
theorem unreadable_nil : Unreadable [] := by
  intro frame outer rest hrest
  cases hrest with
  | nil => rfl
  | close rest => exact Reader.complete_cons_none rfl
  | join hword hbarren =>
      rw [List.nil_append, Reader.complete_cons (hword.step_operand frame outer)]
      exact hbarren _ _ _ hword

theorem opens_nil : Opens [] := fun _ hrest => hrest.barren

/-- A piece and what is joined to it. -/
theorem Opens.join (hfirst : Opens first) (hword : IsJoin word) (hsecond : Opens second) :
    Opens (first ++ word :: second) := by
  intro rest hrest
  rw [List.append_assoc, List.cons_append]
  exact hfirst _ (.join hword (hsecond rest hrest))

/-- What cannot be read is not mended by what is joined to it. -/
theorem Unreadable.join (hfirst : Unreadable first) (hword : IsJoin word) (hsecond : Opens second) :
    Unreadable (first ++ word :: second) := by
  intro frame outer rest hrest
  rw [List.append_assoc, List.cons_append]
  exact hfirst frame outer _ (.join hword (hsecond rest hrest))

/-- Nor by what it is joined to. -/
theorem Factors.join_unreadable (hfirst : Factors first meaning) (hword : IsJoin word)
    (hsecond : Unreadable second) : Unreadable (first ++ word :: second) := by
  intro frame outer rest hrest
  obtain ⟨group, hrun, _⟩ := hfirst frame outer
  rw [List.append_assoc, Reader.complete_append hrun]
  obtain ⟨after, hstep⟩ := hword.step_operator { frame with group := some group } outer
  rw [List.cons_append, Reader.complete_cons hstep]
  exact hsecond _ _ rest hrest

/-- Nor by parentheses around it. -/
theorem Unreadable.parenthesis (h : Unreadable tokens) :
    Unreadable ("(" :: tokens ++ [")"]) := by
  intro frame outer rest _
  rw [List.append_assoc, List.cons_append]
  exact h (.start false) (frame :: outer) _ (.close rest)

theorem Unreadable.negation (h : Unreadable tokens) :
    Unreadable ("NOT" :: "(" :: tokens ++ [")"]) := by
  intro frame outer rest _
  rw [List.append_assoc, List.cons_append, List.cons_append]
  exact h (.start true) (frame :: outer) _ (.close rest)

theorem opens_parenthesis (tokens : List String) : Opens ("(" :: tokens) :=
  fun _ _ => barren_of_not_comparator (by decide) _

theorem opens_negation (tokens : List String) : Opens ("NOT" :: tokens) :=
  fun _ _ => barren_of_not_comparator (by decide) _

theorem opens_comparison (field : String) {comparator : String}
    (hcomparator : comparator ∈ comparators) (tokens : List String) :
    Opens (field :: comparator :: tokens) :=
  fun _ _ => barren_comparison field hcomparator _

theorem Unreadable.read {text : String} (h : Unreadable (lex text)) : read text = none := by
  have hcomplete := h (.start false) [] [] .nil
  rw [List.append_nil] at hcomplete
  exact hcomplete

end Unreadable

/-- How many parentheses are open after a word, if it does not close one that was not open. -/
def depthStep (depth : ℕ) (token : String) : Option ℕ :=
  if token = "(" then some (depth + 1)
  else if token = ")" then (if depth = 0 then none else some (depth - 1))
  else some depth

/-- How many are open after the words. -/
def depthAfter : ℕ → List String → Option ℕ
  | depth, [] => some depth
  | depth, token :: tokens => (depthStep depth token).bind (depthAfter · tokens)

/-- Every parenthesis is closed, and none before it was opened. -/
def Balanced (tokens : List String) : Prop := ∀ depth, depthAfter depth tokens = some depth

section Balanced

variable {tokens first second : List String}

theorem depthAfter_append (depth : ℕ) (first second : List String) :
    depthAfter depth (first ++ second) =
      (depthAfter depth first).bind (depthAfter · second) := by
  induction first generalizing depth with
  | nil => rfl
  | cons token rest ih =>
      rw [List.cons_append, depthAfter, depthAfter]
      cases depthStep depth token with
      | none => rfl
      | some next => exact ih next

theorem balanced_nil : Balanced [] := fun _ => rfl

theorem Balanced.append (hfirst : Balanced first) (hsecond : Balanced second) :
    Balanced (first ++ second) := by
  intro depth
  rw [depthAfter_append, hfirst depth]
  exact hsecond depth

theorem balanced_of_not_parenthesis {token : String} (hopen : token ≠ "(") (hclose : token ≠ ")")
    (h : Balanced tokens) : Balanced (token :: tokens) := by
  intro depth
  rw [depthAfter, depthStep, if_neg hopen, if_neg hclose]
  exact h depth

theorem Balanced.parenthesis (h : Balanced tokens) : Balanced ("(" :: tokens ++ [")"]) := by
  intro depth
  change depthAfter (depth + 1) (tokens ++ [")"]) = _
  rw [depthAfter_append, h]
  rfl

theorem outer_of_step {reader next : Reader} {token : String} {inner outer : List Frame}
    {depth : ℕ} (hstep : reader.step token = some next) (houter : reader.outer = inner ++ outer)
    (hdepth : depthStep inner.length token = some depth) :
    ∃ left, next.outer = left ++ outer ∧ left.length = depth := by
  obtain ⟨phase, frame, frames⟩ := reader
  subst houter
  unfold depthStep at hdepth
  split at hdepth
  case isTrue hopen =>
    subst hopen
    cases hdepth
    cases phase with
    | operand =>
        cases hstep
        exact ⟨frame :: inner, rfl, rfl⟩
    | word text =>
        by_cases htext : text = "NOT"
        · simp only [Reader.step, if_pos, htext] at hstep
          cases hstep
          exact ⟨frame :: inner, rfl, rfl⟩
        · simp [Reader.step, htext] at hstep
    | comparison field comparator => cases hstep
    | operator => cases hstep
  case isFalse hopen =>
    split at hdepth
    case isTrue hclose =>
      subst hclose
      cases phase with
      | operand => cases hstep
      | word text => cases hstep
      | comparison field comparator => cases hstep
      | operator =>
          cases inner with
          | nil => cases hdepth
          | cons popped inner =>
              cases hdepth
              obtain ⟨condition, _, rfl⟩ := Option.map_eq_some_iff.mp hstep
              exact ⟨inner, rfl, rfl⟩
    case isFalse hclose =>
      cases hdepth
      refine ⟨inner, ?_, rfl⟩
      cases phase with
      | operand =>
          simp only [Reader.step, if_neg hopen, if_neg hclose] at hstep
          cases hstep
          rfl
      | word text =>
          simp only [Reader.step, if_neg hopen] at hstep
          split at hstep
          · cases hstep
            rfl
          · cases hstep
      | comparison field comparator =>
          simp only [Reader.step] at hstep
          split at hstep
          · cases hstep
            rfl
          · cases hstep
      | operator =>
          simp only [Reader.step, if_neg hclose] at hstep
          split at hstep
          · cases hstep
            rfl
          · split at hstep
            · cases hstep
              rfl
            · cases hstep

/-- The frames outside are left alone. -/
theorem outer_of_run {reader after : Reader} {inner outer : List Frame} {depth : ℕ}
    (hrun : reader.run tokens = some after) (houter : reader.outer = inner ++ outer)
    (hdepth : depthAfter inner.length tokens = some depth) :
    ∃ left, after.outer = left ++ outer ∧ left.length = depth := by
  induction tokens generalizing reader inner with
  | nil =>
      cases hrun
      cases hdepth
      exact ⟨inner, houter, rfl⟩
  | cons token rest ih =>
      rw [Reader.run] at hrun
      obtain ⟨next, hstep, hrest⟩ := Option.bind_eq_some_iff.mp hrun
      obtain ⟨middle, hmiddle, hleft⟩ := Option.bind_eq_some_iff.mp hdepth
      obtain ⟨left, hnext, rfl⟩ := outer_of_step hstep houter hmiddle
      exact ih hrest hnext hleft

/-- A condition with more conditions joined to it by `AND`, in parentheses. -/
def conjoined (tokens : List String) (clauses : List (List String)) : List String :=
  tokens ++ clauses.flatMap fun clause => "AND" :: "(" :: clause ++ [")"]

theorem conjoined_cons (tokens clause : List String) (clauses : List (List String)) :
    conjoined tokens (clause :: clauses) =
      conjoined (tokens ++ "AND" :: ("(" :: clause ++ [")"])) clauses := by
  rw [conjoined, conjoined, List.flatMap_cons, List.append_assoc tokens]
  rfl

/-- Conditions joined to factors are factors. -/
theorem Factors.conjoined {meaning : Truth → Bool} {clauses : List (List String)}
    {meanings : List (Truth → Bool)} (h : Factors tokens meaning)
    (hclauses : List.Forall₂ Alternatives clauses meanings) :
    Factors (conjoined tokens clauses) fun truth => meaning truth && meanings.all (· truth) := by
  induction hclauses generalizing tokens meaning with
  | nil =>
      rw [Condition.conjoined, List.flatMap_nil, List.append_nil]
      simpa using h
  | cons hclause _ ih =>
      rw [conjoined_cons]
      have hjoined := ih (h.and hclause.parenthesis)
      simpa only [List.all_cons, Bool.and_assoc] using hjoined

theorem Unreadable.conjoined (h : Unreadable tokens) (clauses : List (List String)) :
    Unreadable (conjoined tokens clauses) := by
  induction clauses generalizing tokens with
  | nil =>
      rw [Condition.conjoined, List.flatMap_nil, List.append_nil]
      exact h
  | cons clause rest ih =>
      rw [conjoined_cons]
      exact ih (h.join (.inl rfl) (opens_parenthesis _))

/-- A condition that cannot be read is not mended by what it is joined to. -/
theorem Factors.conjoined_unreadable {meaning : Truth → Bool} {clause : List String}
    (h : Factors tokens meaning) (hclause : Unreadable clause) (clauses : List (List String)) :
    Unreadable (Condition.conjoined tokens (clause :: clauses)) := by
  rw [conjoined_cons]
  exact (h.join_unreadable (.inl rfl) hclause.parenthesis).conjoined clauses

/-- Whatever is joined to a factor in parentheses, what is read implies the factor. -/
theorem holds_of_conjoined {clauses : List (List String)}
    (hclauses : ∀ clause ∈ clauses, Balanced clause) {group condition : Condition}
    (h : Reader.complete ⟨.operator, ⟨false, none, some group⟩, []⟩ (conjoined [] clauses) =
      some condition) {truth : Truth} (hholds : condition.holds truth = true) :
    group.holds truth = true := by
  induction clauses generalizing group with
  | nil =>
      cases h
      exact hholds
  | cons clause rest ih =>
      have hbalanced := hclauses clause List.mem_cons_self
      change Reader.complete ⟨.operand, .start false, [⟨false, none, some group⟩]⟩
        ((clause ++ [")"]) ++ conjoined [] rest) = _ at h
      rw [List.append_assoc, Reader.complete, Reader.run_append, Option.bind_assoc] at h
      obtain ⟨reader, hrun, h⟩ := Option.bind_eq_some_iff.mp h
      have hopened : ([⟨false, none, some group⟩] : List Frame) =
          [] ++ [⟨false, none, some group⟩] := rfl
      obtain ⟨left, houter, hlength⟩ := outer_of_run hrun hopened (hbalanced 0)
      obtain ⟨phase, frame, outer⟩ := reader
      obtain rfl := List.eq_nil_of_length_eq_zero hlength
      cases houter
      change Reader.complete _ (")" :: conjoined [] rest) = _ at h
      cases phase with
      | operand => cases h
      | word text => cases h
      | comparison field comparator => cases h
      | operator =>
          cases hclose : frame.close with
          | none =>
              rw [Reader.complete_cons_none (by simp [Reader.step, hclose])] at h
              cases h
          | some inner =>
              have hstep : Reader.step ⟨.operator, frame, [⟨false, none, some group⟩]⟩ ")" =
                  some ⟨.operator, ⟨false, none, some (.and group inner)⟩, []⟩ := by
                simp [Reader.step, hclose, Frame.add, Frame.joined]
              rw [Reader.complete_cons hstep] at h
              have hrest := fun later hlater => hclauses later (List.mem_cons_of_mem _ hlater)
              have hboth := ih hrest h
              exact (Bool.and_eq_true_iff.mp hboth).1

end Balanced

end Condition

end Soulbase.Foundation
