/-
# The tenant condition of `select`

Whatever the filter and the sorts are, the statement of `select` keeps the condition on the
tenant in front: everything else is joined to it by `AND` in balanced parentheses, and is made
of validated identifiers, comparators and placeholders. The placeholders of the filter are
numbered, so no two of them share a parameter, and none takes the name of another parameter.
-/

import Soulbase.Storage.SurrealSelect

namespace Soulbase.Storage

open Soulbase.Foundation

namespace Mapper

open Condition

/-- A comparison of a filter. -/
structure FilterComparison where
  field : String
  comparator : String
  operand : Json.Value

/-- The comparisons of a field. -/
def fieldComparisons (field : String) : Json.Value → List FilterComparison
  | .object entries =>
      entries.map fun entry => ⟨field, (operatorOf entry.1).elim "" Prod.fst, entry.2⟩
  | value => [⟨field, "=", value⟩]

mutual

/-- The comparisons of a filter, in the order of its entries. -/
def comparisons : Json.Value → List FilterComparison
  | .object entries => entryComparisons entries
  | _ => []

/-- The comparisons of entries. -/
def entryComparisons : List (String × Json.Value) → List FilterComparison
  | [] => []
  | (key, value) :: rest =>
      (if isOp key "and" || isOp key "or" then
        match value with
        | .array items => itemComparisons items
        | _ => []
      else if isOp key "not" then comparisons value
      else fieldComparisons key value) ++ entryComparisons rest

/-- The comparisons of items. -/
def itemComparisons : List Json.Value → List FilterComparison
  | [] => []
  | item :: items => comparisons item ++ itemComparisons items

end

/-- The comparisons of a source. -/
def Source.comparisons : Source → List FilterComparison
  | .filter value => Mapper.comparisons value
  | .entries list => entryComparisons list
  | .items list => itemComparisons list

/-- A comparison in the text of a clause. -/
structure TextComparison where
  field : String
  comparator : String
  param : String
  deriving DecidableEq

/-- Comparisons with parameters that are numbered from a number on. -/
def numbered (label : String) : ℕ → List FilterComparison → List TextComparison
  | _, [] => []
  | number, comparison :: rest =>
      ⟨comparison.field, comparison.comparator, paramName label number⟩ ::
        numbered label (number + 1) rest

section Numbered

variable {label : String}

theorem numbered_append (number : ℕ) (first second : List FilterComparison) :
    numbered label number (first ++ second) =
      numbered label number first ++ numbered label (number + first.length) second := by
  induction first generalizing number with
  | nil => rfl
  | cons comparison rest ih =>
      rw [List.cons_append, numbered, numbered, ih, List.cons_append, List.length_cons,
        Nat.add_assoc, Nat.add_comm 1]

theorem params_numbered (number : ℕ) (list : List FilterComparison) :
    (numbered label number list).map (·.param) =
      (List.range' number list.length).map (paramName label) := by
  induction list generalizing number with
  | nil => rfl
  | cons comparison rest ih =>
      rw [numbered, List.map_cons, ih]
      rfl

theorem fieldOperands_eq (field : String) (value : Json.Value) :
    fieldOperands value = (fieldComparisons field value).map (·.operand) := by
  cases value with
  | object entries =>
      rw [fieldOperands, fieldComparisons, List.map_map]
      rfl
  | _ => rfl

mutual

theorem operands_eq (value : Json.Value) :
    operands value = (comparisons value).map (·.operand) := by
  match value with
  | .object entries =>
      rw [operands, comparisons]
      exact entryOperands_eq entries
  | .null | .bool _ | .number _ | .string _ | .array _ => rfl

theorem entryOperands_eq (entries : List (String × Json.Value)) :
    entryOperands entries = (entryComparisons entries).map (·.operand) := by
  match entries with
  | [] => rfl
  | (key, value) :: rest =>
      rw [entryOperands.eq_def, entryComparisons.eq_def]
      dsimp only
      rw [List.map_append, ← entryOperands_eq rest]
      congr 1
      split_ifs
      · match value with
        | .array items => exact itemOperands_eq items
        | .null | .bool _ | .number _ | .string _ | .object _ => rfl
      · exact operands_eq value
      · exact fieldOperands_eq key value

theorem itemOperands_eq (items : List Json.Value) :
    itemOperands items = (itemComparisons items).map (·.operand) := by
  match items with
  | [] => rfl
  | item :: items =>
      rw [itemOperands, itemComparisons, List.map_append, operands_eq item,
        itemOperands_eq items]

end

/-- There is an operand for each comparison. -/
theorem Source.operands_eq (source : Source) :
    source.operands = source.comparisons.map (·.operand) := by
  cases source with
  | filter value => exact Mapper.operands_eq value
  | entries list => exact entryOperands_eq list
  | items list => exact itemOperands_eq list

end Numbered

/-- Texts of comparisons, composed by `AND`, `OR`, `NOT` and parentheses, with the comparisons
in their order. -/
inductive Composed : String → List TextComparison → Prop
  | empty : Composed "" []
  | comparison {field comparator param : String} (hfield : validateIdentifier field = .ok ())
      (hcomparator : comparator ∈ comparators) (hparam : IsWord (placeholder param)) :
      Composed (comparisonText field comparator param) [⟨field, comparator, param⟩]
  | and {first second : String} {found later : List TextComparison}
      (hfirst : Composed first found) (hsecond : Composed second later) :
      Composed (first ++ " AND " ++ second) (found ++ later)
  | or {first second : String} {found later : List TextComparison}
      (hfirst : Composed first found) (hsecond : Composed second later) :
      Composed (first ++ " OR " ++ second) (found ++ later)
  | parenthesis {text : String} {found : List TextComparison} (h : Composed text found) :
      Composed ("(" ++ text ++ ")") found
  | not {text : String} {found : List TextComparison} (h : Composed text found) :
      Composed ("NOT (" ++ text ++ ")") found

/-- A word of a clause: a word or comparator of the language, a parenthesis, a validated
identifier, or the placeholder of one of the parameters. -/
inductive ClauseWord (params : List String) : String → Prop
  | keyword {word : String} (h : word ∈ ["AND", "OR", "NOT"]) : ClauseWord params word
  | parenthesis {word : String} (h : word ∈ ["(", ")"]) : ClauseWord params word
  | comparator {word : String} (h : word ∈ comparators) : ClauseWord params word
  | identifier {word : String} (h : validateIdentifier word = .ok ()) : ClauseWord params word
  | placeholder {name : String} (h : name ∈ params) :
      ClauseWord params (Condition.placeholder name)

section Composed

variable {text label : String} {found : List TextComparison} {texts : List String}
variable {founds : List (List TextComparison)}

theorem ClauseWord.mono {params others : List String} {word : String}
    (h : ClauseWord params word) (hsubset : params ⊆ others) : ClauseWord others word := by
  cases h with
  | keyword h => exact .keyword h
  | parenthesis h => exact .parenthesis h
  | comparator h => exact .comparator h
  | identifier h => exact .identifier h
  | placeholder h => exact .placeholder (hsubset h)

/-- Only the empty text has nothing to be seen. -/
theorem Composed.visible (h : Composed text found) :
    (text = "" ∧ found = []) ∨ ∃ c ∈ text.toList, Text.isWhitespace c = false := by
  cases h with
  | empty => exact .inl ⟨rfl, rfl⟩
  | comparison => exact .inr ⟨'$', by simp [comparisonText, placeholder], by decide⟩
  | and => exact .inr ⟨'A', by simp, by decide⟩
  | or => exact .inr ⟨'O', by simp, by decide⟩
  | parenthesis => exact .inr ⟨'(', by simp, by decide⟩
  | not => exact .inr ⟨'(', by simp, by decide⟩

theorem Composed.eq_nil (h : Composed "" found) : found = [] := by
  rcases h.visible with ⟨_, hfound⟩ | ⟨c, hc, _⟩
  · exact hfound
  · simp at hc

/-- Every parenthesis of a clause is closed. -/
theorem Composed.balanced (h : Composed text found) : Balanced (lex text) := by
  induction h with
  | empty => exact balanced_nil
  | comparison hfield hcomparator hparam =>
      rw [lex_comparison hfield hcomparator hparam]
      have hword : ∀ {word : String}, IsWord word → word ≠ "(" ∧ word ≠ ")" := by
        rintro word ⟨_, hplain⟩
        constructor
        · rintro rfl
          exact absurd (hplain '(' (by simp)) (by decide)
        · rintro rfl
          exact absurd (hplain ')' (by simp)) (by decide)
      have hfield := hword (isWord_of_valid hfield)
      have hcomparator := hword (isWord_comparator hcomparator)
      have hparam := hword hparam
      exact balanced_of_not_parenthesis hfield.1 hfield.2
        (balanced_of_not_parenthesis hcomparator.1 hcomparator.2
          (balanced_of_not_parenthesis hparam.1 hparam.2 balanced_nil))
  | and _ _ ihfirst ihsecond =>
      rw [lex_and]
      exact ihfirst.append (balanced_of_not_parenthesis (by decide) (by decide) ihsecond)
  | or _ _ ihfirst ihsecond =>
      rw [lex_or]
      exact ihfirst.append (balanced_of_not_parenthesis (by decide) (by decide) ihsecond)
  | parenthesis _ ih =>
      rw [lex_parenthesis]
      exact ih.parenthesis
  | not _ ih =>
      rw [lex_not]
      exact balanced_of_not_parenthesis (by decide) (by decide) ih.parenthesis

/-- A clause is made of its words. -/
theorem Composed.words (h : Composed text found) :
    ∀ word ∈ lex text, ClauseWord (found.map (·.param)) word := by
  have hjoined : ∀ {first second : List String} {found later : List TextComparison}
      {join : String}, join ∈ ["AND", "OR", "NOT"] →
      (∀ word ∈ first, ClauseWord (found.map (·.param)) word) →
      (∀ word ∈ second, ClauseWord (later.map (·.param)) word) →
      ∀ word ∈ first ++ join :: second, ClauseWord ((found ++ later).map (·.param)) word := by
    intro first second found later join hjoin hfirst hsecond word hword
    rw [List.map_append]
    rcases List.mem_append.mp hword with hword | hword
    · exact (hfirst word hword).mono (List.subset_append_left _ _)
    · rcases List.mem_cons.mp hword with rfl | hword
      · exact .keyword hjoin
      · exact (hsecond word hword).mono (List.subset_append_right _ _)
  have hclosed : ∀ {tokens : List String} {params : List String},
      (∀ word ∈ tokens, ClauseWord params word) →
      ∀ word ∈ "(" :: tokens ++ [")"], ClauseWord params word := by
    intro tokens params htokens word hword
    rcases List.mem_append.mp hword with hword | hword
    · rcases List.mem_cons.mp hword with rfl | hword
      · exact .parenthesis (by decide)
      · exact htokens word hword
    · rw [List.mem_singleton] at hword
      subst hword
      exact .parenthesis (by decide)
  induction h with
  | empty => exact nofun
  | comparison hfield hcomparator hparam =>
      rw [lex_comparison hfield hcomparator hparam]
      intro word hword
      simp only [List.mem_cons, List.not_mem_nil, or_false] at hword
      rcases hword with rfl | rfl | rfl
      · exact .identifier hfield
      · exact .comparator hcomparator
      · exact .placeholder List.mem_cons_self
  | and _ _ ihfirst ihsecond =>
      rw [lex_and]
      exact hjoined (by decide) ihfirst ihsecond
  | or _ _ ihfirst ihsecond =>
      rw [lex_or]
      exact hjoined (by decide) ihfirst ihsecond
  | parenthesis _ ih =>
      rw [lex_parenthesis]
      exact hclosed ih
  | not _ ih =>
      rw [lex_not]
      intro word hword
      rcases List.mem_cons.mp hword with rfl | hword
      · exact .keyword (by decide)
      · exact hclosed ih word hword

/-- Texts with a separator between them. -/
theorem composed_intercalate {separator : String}
    (hjoin : ∀ {first second : String} {found later : List TextComparison},
      Composed first found → Composed second later →
        Composed (first ++ separator ++ second) (found ++ later))
    (h : List.Forall₂ Composed texts founds) :
    Composed (separator.intercalate texts) founds.flatten := by
  induction h with
  | nil => exact .empty
  | cons hfirst hrest ih =>
      cases hrest with
      | nil => simpa using hfirst
      | cons _ _ =>
          rw [String.intercalate_cons_cons, List.flatten_cons]
          exact hjoin hfirst ih

theorem composed_grouped {separator : String}
    (hjoin : ∀ {first second : String} {found later : List TextComparison},
      Composed first found → Composed second later →
        Composed (first ++ separator ++ second) (found ++ later))
    (h : List.Forall₂ Composed texts founds) :
    ∃ kept, List.Forall₂ Composed (grouped separator texts) kept ∧
      kept.flatten = founds.flatten := by
  have hfilter : ∃ kept, List.Forall₂ Composed (texts.filter (· ≠ "")) kept ∧
      kept.flatten = founds.flatten := by
    induction h with
    | nil => exact ⟨[], .nil, rfl⟩
    | @cons text found texts founds hfirst _ ih =>
        obtain ⟨kept, hkept, hflatten⟩ := ih
        by_cases hempty : text = ""
        · subst hempty
          refine ⟨kept, ?_, ?_⟩
          · rw [List.filter_cons_of_neg (by simp)]
            exact hkept
          · rw [hflatten, List.flatten_cons, hfirst.eq_nil, List.nil_append]
        · refine ⟨found :: kept, ?_, ?_⟩
          · rw [List.filter_cons_of_pos (by simp [hempty])]
            exact .cons hfirst hkept
          · rw [List.flatten_cons, List.flatten_cons, hflatten]
  obtain ⟨kept, hkept, hflatten⟩ := hfilter
  unfold grouped
  by_cases hnone : texts.filter (· ≠ "") = []
  · rw [hnone] at hkept
    cases hkept
    refine ⟨[], ?_, hflatten⟩
    dsimp only
    rw [if_pos hnone]
    exact .nil
  · refine ⟨[kept.flatten], ?_, by simpa using hflatten⟩
    dsimp only
    rw [if_neg hnone]
    exact .cons (.parenthesis (composed_intercalate hjoin hkept)) .nil

theorem composed_negated (h : Composed text found) :
    ∃ kept, List.Forall₂ Composed (negated text) kept ∧ kept.flatten = found := by
  unfold negated
  split
  case isTrue hempty =>
    subst hempty
    exact ⟨[], .nil, h.eq_nil.symm⟩
  case isFalse => exact ⟨[found], .cons (.not h) .nil, List.flatten_singleton⟩

/-- The operators of a field. -/
theorem composed_operators {field : String} {entries : Json.Map} {number : ℕ}
    (hlabel : PlainLabel label) (hfield : validateIdentifier field = .ok ())
    (hoperators : ∀ entry ∈ entries, (operatorOf entry.1).isSome = true) :
    ∃ founds, List.Forall₂ Composed (operatorTexts label field entries number) founds ∧
      founds.flatten = numbered label number (fieldComparisons field (.object entries)) := by
  induction entries generalizing number with
  | nil => exact ⟨[], .nil, rfl⟩
  | cons entry rest ih =>
      obtain ⟨op, operand⟩ := entry
      obtain ⟨⟨comparator, denied⟩, hop⟩ := Option.isSome_iff_exists.mp
        (hoperators (op, operand) List.mem_cons_self)
      obtain ⟨founds, hfounds, hflatten⟩ := @ih (number + 1)
        fun entry hentry => hoperators entry (List.mem_cons_of_mem _ hentry)
      have hcomparison := Composed.comparison hfield (comparator_of_operatorOf hop)
        (isWord_placeholder hlabel number)
      refine ⟨[⟨field, comparator, paramName label number⟩] :: founds, ?_, ?_⟩
      · rw [operatorTexts, hop]
        refine .cons ?_ hfounds
        change Composed (operatorText field comparator (paramName label number) denied) _
        cases denied with
        | false => exact hcomparison
        | true => exact .not hcomparison
      · change operatorOf op = _ at hop
        rw [List.flatten_cons, hflatten]
        change _ = numbered label number (⟨field, (operatorOf op).elim "" Prod.fst, operand⟩ ::
          fieldComparisons field (.object rest))
        rw [hop]
        rfl

theorem BuildsField.composed {field : String} {value : Json.Value} {before after : Bindings}
    (h : BuildsField label field value before text after) (hlabel : PlainLabel label)
    (hfield : validateIdentifier field = .ok ()) :
    Composed text (numbered label before.counter (fieldComparisons field value)) := by
  cases h with
  | none => exact .empty
  | operators _ hoperators =>
      obtain ⟨founds, hfounds, hflatten⟩ := composed_operators hlabel hfield hoperators
      rw [← hflatten]
      exact composed_intercalate .and hfounds
  | value hvalue =>
      have hcomparison : Composed (comparisonText field "=" (paramName label before.counter)) _ :=
        .comparison hfield (by decide) (isWord_placeholder hlabel before.counter)
      cases value with
      | object entries => cases hvalue
      | _ => exact hcomparison

theorem entryComparisons_junction {key : String} (hkey : key = "$and" ∨ key = "$or")
    (items : List Json.Value) (rest : List (String × Json.Value)) :
    entryComparisons ((key, .array items) :: rest) =
      itemComparisons items ++ entryComparisons rest := by
  rw [entryComparisons, if_pos]
  rcases hkey with rfl | rfl <;> decide

theorem entryComparisons_not (value : Json.Value) (rest : List (String × Json.Value)) :
    entryComparisons (("$not", value) :: rest) = comparisons value ++ entryComparisons rest := by
  rw [entryComparisons.eq_def]
  dsimp only
  rw [if_neg (by decide), if_pos (by decide)]

theorem entryComparisons_field {field : String} (h : validateIdentifier field = .ok ())
    (value : Json.Value) (rest : List (String × Json.Value)) :
    entryComparisons ((field, value) :: rest) =
      fieldComparisons field value ++ entryComparisons rest := by
  rw [entryComparisons.eq_def]
  dsimp only
  rw [if_neg (by simp [isOp_of_valid h]), if_neg (by simp [isOp_of_valid h])]

/-- The clauses of a source are composed of its comparisons, in their order. -/
theorem Builds.composed {source : Source} {before after : Bindings}
    (h : Builds label source before texts after) (hlabel : PlainLabel label) :
    ∃ founds, List.Forall₂ Composed texts founds ∧
      founds.flatten = numbered label before.counter source.comparisons := by
  have happend : ∀ {source : Source} {before middle : Bindings} {texts : List String},
      Builds label source before texts middle → ∀ later : List FilterComparison,
        numbered label before.counter (source.comparisons ++ later) =
          numbered label before.counter source.comparisons ++
            numbered label middle.counter later := by
    intro source before middle texts hbuilds later
    rw [numbered_append, hbuilds.counter_after, source.operands_eq, List.length_map]
  induction h with
  | empty => exact ⟨[[]], .cons .empty .nil, rfl⟩
  | object _ ih =>
      obtain ⟨founds, hfounds, hflatten⟩ := ih
      refine ⟨[founds.flatten], .cons (composed_intercalate .and hfounds) .nil, ?_⟩
      rw [List.flatten_singleton, hflatten]
      rfl
  | noEntries => exact ⟨[], .nil, rfl⟩
  | all hclauses _ ih ihrest =>
      obtain ⟨founds, hfounds, hflatten⟩ := ih
      obtain ⟨later, hlater, hrest⟩ := ihrest
      obtain ⟨kept, hkept, hsame⟩ := composed_grouped .and hfounds
      refine ⟨kept ++ later, List.rel_append hkept hlater, ?_⟩
      rw [Source.comparisons, entryComparisons_junction (.inl rfl), List.flatten_append, hsame,
        hflatten, hrest]
      exact (happend hclauses _).symm
  | any hclauses _ ih ihrest =>
      obtain ⟨founds, hfounds, hflatten⟩ := ih
      obtain ⟨later, hlater, hrest⟩ := ihrest
      obtain ⟨kept, hkept, hsame⟩ := composed_grouped .or hfounds
      refine ⟨kept ++ later, List.rel_append hkept hlater, ?_⟩
      rw [Source.comparisons, entryComparisons_junction (.inr rfl), List.flatten_append, hsame,
        hflatten, hrest]
      exact (happend hclauses _).symm
  | not hclause _ ih ihrest =>
      obtain ⟨founds, hfounds, hflatten⟩ := ih
      obtain ⟨later, hlater, hrest⟩ := ihrest
      cases hfounds with
      | cons hfound hnil =>
          cases hnil
          obtain ⟨kept, hkept, hsame⟩ := composed_negated hfound
          refine ⟨kept ++ later, List.rel_append hkept hlater, ?_⟩
          rw [List.flatten_singleton] at hflatten
          rw [Source.comparisons, entryComparisons_not, List.flatten_append, hsame, hflatten, hrest]
          exact (happend hclause _).symm
  | @field field value rest before middle after clause parts hfield hclause _ ihrest =>
      obtain ⟨later, hlater, hrest⟩ := ihrest
      refine ⟨_ :: later, .cons (hclause.composed hlabel hfield) hlater, ?_⟩
      rw [Source.comparisons, entryComparisons_field hfield, List.flatten_cons, hrest,
        numbered_append, hclause.after_eq, counter_boundAll, fieldOperands_eq field,
        List.length_map]
      rfl
  | noItems => exact ⟨[], .nil, rfl⟩
  | item hclause _ ih ihclauses =>
      obtain ⟨founds, hfounds, hflatten⟩ := ih
      obtain ⟨later, hlater, hrest⟩ := ihclauses
      refine ⟨founds ++ later, List.rel_append hfounds hlater, ?_⟩
      rw [Source.comparisons, itemComparisons, List.flatten_append, hflatten, hrest]
      exact (happend hclause _).symm

theorem exists_composed (h : List.Forall₂ Composed texts founds) (htext : text ∈ texts) :
    ∃ found ∈ founds, Composed text found := by
  induction h with
  | nil => simp at htext
  | cons hfirst _ ih =>
      rcases List.mem_cons.mp htext with rfl | htext
      · exact ⟨_, List.mem_cons_self, hfirst⟩
      · obtain ⟨found, hfound, hcomposed⟩ := ih htext
        exact ⟨found, List.mem_cons_of_mem _ hfound, hcomposed⟩

/-- The clause of a filter is composed of its comparisons. -/
theorem composed_filterClause {filter : Json.Value} {params args : NamedArgs} {clause : String}
    (h : buildFilterClause filter params label = .ok (clause, args)) :
    Composed clause (numbered (sanitizePrefix label) 0 (comparisons filter)) ∧
      args = (boundAll (sanitizePrefix label) (operands filter) ⟨params, 0⟩).params := by
  unfold buildFilterClause at h
  split at h
  case h_1 =>
    cases h
    exact ⟨.empty, rfl⟩
  case h_2 =>
    obtain ⟨⟨text, bindings⟩, hbuild, h⟩ := except_do_eq_ok_iff.mp h
    cases h
    have hbuilds := builds_filter _ _ hbuild
    obtain ⟨founds, hfounds, hflatten⟩ := hbuilds.composed (plainLabel_sanitizePrefix label)
    refine ⟨?_, congrArg Bindings.params hbuilds.after_eq⟩
    cases hfounds with
    | cons hfound hnil =>
        cases hnil
        rw [List.flatten_singleton] at hflatten
        exact hflatten ▸ hfound

end Composed

/-! ## Sorts -/

/-- The text of a sort. -/
def sortText (key : SortKey) : String := key.field ++ " " ++ direction key.asc

/-- The clause of sorts. -/
def orderText (keys : List SortKey) : String :=
  if keys = [] then "" else " ORDER BY " ++ ", ".intercalate (keys.map sortText)

/-- The sorts, without white space around their fields. -/
def trimmed (sorts : List SortKey) : List SortKey :=
  sorts.map fun sort => { sort with field := Text.trim sort.field }

/-- The clause of sorts has their fields, which are identifiers. -/
theorem buildSortClause_eq_ok_iff {sorts : List SortKey} {text : String} :
    buildSortClause sorts = .ok text ↔
      text = orderText (trimmed sorts) ∧
        ∀ key ∈ trimmed sorts, validateIdentifier key.field = .ok () := by
  have hmapM : ∀ (sorts : List SortKey) (clauses : List String),
      (sorts.mapM fun sort => (do
        let field := Text.trim sort.field
        validateIdentifier field
        return field ++ " " ++ direction sort.asc : StorageResult String)) = .ok clauses ↔
      clauses = (trimmed sorts).map sortText ∧
        ∀ key ∈ trimmed sorts, validateIdentifier key.field = .ok () := by
    intro sorts
    induction sorts with
    | nil =>
        intro clauses
        simp [trimmed, eq_comm, pure, Except.pure]
    | cons sort rest ih =>
        intro clauses
        rw [List.mapM_cons, except_do_eq_ok_iff]
        constructor
        · rintro ⟨first, hfirst, h⟩
          obtain ⟨later, hlater, h⟩ := except_do_eq_ok_iff.mp h
          obtain ⟨⟨⟩, hvalid, hfirst⟩ := except_do_eq_ok_iff.mp hfirst
          cases hfirst
          cases h
          obtain ⟨rfl, hrest⟩ := (ih later).mp hlater
          exact ⟨rfl, List.forall_mem_cons.mpr ⟨hvalid, hrest⟩⟩
        · rintro ⟨rfl, hall⟩
          obtain ⟨hvalid, hrest⟩ := List.forall_mem_cons.mp hall
          exact ⟨_, except_do_eq_ok_iff.mpr ⟨(), hvalid, rfl⟩,
            except_do_eq_ok_iff.mpr ⟨_, (ih _).mpr ⟨rfl, hrest⟩, rfl⟩⟩
  unfold buildSortClause
  by_cases hsorts : sorts = []
  · subst hsorts
    simp [trimmed, orderText, eq_comm]
  · rw [if_neg hsorts, except_do_eq_ok_iff]
    have htrimmed : trimmed sorts ≠ [] := by simpa [trimmed] using hsorts
    rw [orderText, if_neg htrimmed]
    constructor
    · rintro ⟨clauses, hclauses, h⟩
      cases h
      obtain ⟨rfl, hall⟩ := (hmapM sorts clauses).mp hclauses
      exact ⟨rfl, hall⟩
    · rintro ⟨rfl, hall⟩
      exact ⟨_, (hmapM sorts _).mpr ⟨rfl, hall⟩, rfl⟩

end Mapper

namespace SurrealRepository

open Condition Mapper

/-- The condition on the tenant, with clauses joined to it. -/
def tenantWhere (clauses : List String) : String :=
  clauses.foldl (fun text clause => text ++ " AND (" ++ clause ++ ")") "tenant = $tenant"

/-- The condition on the tenant, with the clause of the filter. -/
def filterWhere (clause : String) : String :=
  if clause = "" then "tenant = $tenant" else appendWhere "tenant = $tenant" clause

/-- The clauses of a statement: of the filter, and of the cursor. -/
def whereClauses (clause : String) (cursor : Option String) : List String :=
  (if clause = "" then [] else [clause]) ++ cursor.toList.map fun _ => "id > $cursor"

/-- The comparisons of a statement. -/
def whereComparisons (filter : Json.Value) (cursor : Option String) : List TextComparison :=
  numbered "select" 0 (comparisons filter) ++ cursor.toList.map fun _ => ⟨"id", ">", "cursor"⟩

section Statement

variable {table : String} {tenant : TenantId} {filter : Json.Value}
variable {sorts : Option (List SortKey)} {limit : UInt64} {cursor : Option String}
variable {query : SelectQuery} {params args : NamedArgs} {clause : String}

theorem appendWhere_eq {target : String} {found : List TextComparison} {c : Char}
    (htarget : c ∈ target.toList) (hvisible : Text.isWhitespace c = false)
    (hclause : Composed clause found) (hne : clause ≠ "") :
    appendWhere target clause = target ++ " AND (" ++ clause ++ ")" := by
  obtain ⟨shown, hshown, hc⟩ := hclause.visible.resolve_left fun h => hne h.1
  rw [appendWhere, if_neg (Text.trim_ne_empty hshown hc),
    if_neg (Text.trim_ne_empty htarget hvisible), show " AND (" = " AND " ++ "(" from rfl]
  simp only [String.append_assoc]

theorem composed_cursor : Composed "id > $cursor" [⟨"id", ">", "cursor"⟩] := by
  have hid : validateIdentifier "id" = .ok () := by rfl
  have hcursor : Composed (comparisonText "id" ">" "cursor") [⟨"id", ">", "cursor"⟩] :=
    .comparison hid (by decide) ⟨by decide, by simp [placeholder, delimiter]⟩
  exact hcursor

/-- The clauses are joined to the condition on the tenant. -/
theorem whereClause_eq {found : List TextComparison} (hclause : Composed clause found) :
    cursor.elim (filterWhere clause) (fun _ => appendWhere (filterWhere clause) "id > $cursor") =
      tenantWhere (whereClauses clause cursor) := by
  have hid : 't' ∈ "tenant = $tenant".toList := by decide
  have hjoined : ∀ target : String, 't' ∈ target.toList →
      (cursor.elim target fun _ => appendWhere target "id > $cursor") =
        (cursor.toList.map fun _ => "id > $cursor").foldl
          (fun text clause => text ++ " AND (" ++ clause ++ ")") target := by
    intro target htarget
    cases cursor with
    | none => rfl
    | some _ => exact appendWhere_eq htarget (by decide) composed_cursor (by decide)
  rw [tenantWhere, whereClauses, List.foldl_append, filterWhere]
  by_cases hempty : clause = ""
  · rw [if_pos hempty, if_pos hempty]
    exact hjoined _ hid
  · rw [if_neg hempty, if_neg hempty, appendWhere_eq hid (by decide) hclause hempty]
    exact hjoined _ (by simp)

/-- The names of the parameters before those of the filter are not among them. -/
theorem ne_paramName {name : String} (hname : name.toList.head? ≠ some 's') (number : ℕ) :
    name ≠ paramName "select" number := by
  rintro rfl
  exact hname (by simp [paramName])

/-- `bind_tenant` accepts the tenant that is bound already. -/
theorem bindTenant_eq (h : params.get "tenant" = some (.string tenant.asStr)) :
    bindTenant params tenant = .ok (params.put "tenant" (.string tenant.asStr)) := by
  unfold bindTenant
  rw [h]
  exact if_pos rfl

/-- The parameters of a statement, before the tenant is bound once more. -/
def queryParams (table : String) (tenant : TenantId) (filter : Json.Value) (limit : UInt64)
    (cursor : Option String) : NamedArgs :=
  let params := (boundAll "select" (operands filter) ⟨selectParams table tenant limit, 0⟩).params
  cursor.elim params fun cursor => params.put "cursor" (.string cursor)

/-- The parameters of a statement. -/
def queryArgs (table : String) (tenant : TenantId) (filter : Json.Value) (limit : UInt64)
    (cursor : Option String) : NamedArgs :=
  (queryParams table tenant filter limit cursor).put "tenant" (.string tenant.asStr)

theorem get_selectParams (table : String) (tenant : TenantId) (limit : UInt64) (name : String) :
    (selectParams table tenant limit).get name =
      if name = "limit" then some (.number (.posInt limit))
      else if name = "__kind" then some (.string "read")
      else if name = "table" then some (.string table)
      else if name = "tenant" then some (.string tenant.asStr)
      else none := by
  simp only [selectParams, baseParams, HashMap.get_put, HashMap.get_empty]

/-- What is bound: the operands of the filter, the cursor, and what was bound before. -/
theorem get_queryParams (name : String) :
    (∀ number operand, (operands filter)[number]? = some operand →
      name = paramName "select" number →
        (queryParams table tenant filter limit cursor).get name = some operand) ∧
    (name.toList.head? ≠ some 's' →
      (queryParams table tenant filter limit cursor).get name =
        if name = "cursor" then cursor.map .string
        else (selectParams table tenant limit).get name) := by
  obtain ⟨hbound, hkept⟩ := get_boundAll "select" (operands filter)
    ⟨selectParams table tenant limit, 0⟩ name
  have hcursor : (queryParams table tenant filter limit cursor).get name =
      if name = "cursor" then
        (cursor.map Json.Value.string).or
          ((boundAll "select" (operands filter)
            ⟨selectParams table tenant limit, 0⟩).params.get name)
      else (boundAll "select" (operands filter)
        ⟨selectParams table tenant limit, 0⟩).params.get name := by
    rw [queryParams]
    cases cursor with
    | none => simp
    | some cursor =>
        rw [Option.elim_some, HashMap.get_put]
        simp
  constructor
  · intro number operand hoperand hname
    have hother : name ≠ "cursor" := fun h =>
      ne_paramName (by decide) number (h.symm.trans hname)
    rw [hcursor, if_neg hother]
    exact hbound number operand hoperand (by rw [hname, Nat.zero_add])
  · intro hhead
    rw [hcursor, hkept fun index _ => ne_paramName hhead _]
    by_cases hname : name = "cursor"
    · rw [if_pos hname, if_pos hname, hname, get_selectParams]
      simp
    · rw [if_neg hname, if_neg hname]

theorem get_queryParams_tenant :
    (queryParams table tenant filter limit cursor).get "tenant" =
      some (.string tenant.asStr) := by
  rw [(get_queryParams "tenant").2 (by decide), get_selectParams]
  simp

/-- The tenant is bound to what it is bound to already. -/
theorem get_queryArgs (name : String) :
    (queryArgs table tenant filter limit cursor).get name =
      (queryParams table tenant filter limit cursor).get name := by
  rw [queryArgs, HashMap.get_put]
  by_cases hname : name = "tenant"
  · rw [if_pos hname, hname, get_queryParams_tenant]
  · rw [if_neg hname]

/-- What the statement of `select` is after the clause of the filter. -/
theorem queryOf_eq_ok_iff {found : List TextComparison} (hclause : Composed clause found)
    (hargs : (cursor.elim params fun cursor => params.put "cursor" (.string cursor)) = args)
    (htenant : args.get "tenant" = some (.string tenant.asStr)) :
    queryOf tenant sorts cursor clause params = .ok query ↔
      (∀ key ∈ trimmed (sorts.getD []), validateIdentifier key.field = .ok ()) ∧
        query = ⟨tenantWhere (whereClauses clause cursor), orderText (trimmed (sorts.getD [])),
          args.put "tenant" (.string tenant.asStr)⟩ := by
  have hsorts : ∀ text, sorts.elim (.ok "") buildSortClause = .ok text ↔
      text = orderText (trimmed (sorts.getD [])) ∧
        ∀ key ∈ trimmed (sorts.getD []), validateIdentifier key.field = .ok () := by
    intro text
    cases sorts with
    | some sorts => exact buildSortClause_eq_ok_iff
    | none => simp [trimmed, orderText, eq_comm]
  have hquery : queryOf tenant sorts cursor clause params = (do
      let text ← sorts.elim (.ok "") buildSortClause
      return ⟨tenantWhere (whereClauses clause cursor), text,
        args.put "tenant" (.string tenant.asStr)⟩ : StorageResult SelectQuery) := by
    rw [← whereClause_eq hclause]
    subst hargs
    cases cursor with
    | none =>
        have hbind : bindTenant params tenant = _ := bindTenant_eq htenant
        simp only [queryOf, hbind]
        rfl
    | some cursor =>
        have hbind : bindTenant (params.put "cursor" (.string cursor)) tenant = _ :=
          bindTenant_eq htenant
        simp only [queryOf, hbind]
        rfl
  rw [hquery, except_do_eq_ok_iff]
  constructor
  · rintro ⟨text, htext, h⟩
    obtain ⟨rfl, hvalid⟩ := (hsorts text).mp htext
    cases h
    exact ⟨hvalid, rfl⟩
  · rintro ⟨hvalid, rfl⟩
    exact ⟨_, (hsorts _).mpr ⟨rfl, hvalid⟩, rfl⟩

/-- What the statement of `select` is. -/
theorem selectQuery_eq_ok_iff :
    selectQuery table tenant filter sorts limit cursor = .ok query ↔
      ∃ clause args, buildFilterClause filter (selectParams table tenant limit) "select" =
          .ok (clause, args) ∧
        (∀ key ∈ trimmed (sorts.getD []), validateIdentifier key.field = .ok ()) ∧
        query = ⟨tenantWhere (whereClauses clause cursor), orderText (trimmed (sorts.getD [])),
          queryArgs table tenant filter limit cursor⟩ := by
  have hqueryOf : ∀ {clause args},
      buildFilterClause filter (selectParams table tenant limit) "select" = .ok (clause, args) →
        (queryOf tenant sorts cursor clause args = .ok query ↔
          (∀ key ∈ trimmed (sorts.getD []), validateIdentifier key.field = .ok ()) ∧
            query = ⟨tenantWhere (whereClauses clause cursor),
              orderText (trimmed (sorts.getD [])),
              queryArgs table tenant filter limit cursor⟩) := by
    intro clause args hbuild
    obtain ⟨hcomposed, hparams⟩ := composed_filterClause hbuild
    subst hparams
    exact queryOf_eq_ok_iff hcomposed rfl get_queryParams_tenant
  unfold selectQuery
  rw [except_do_eq_ok_iff]
  constructor
  · rintro ⟨⟨clause, args⟩, hbuild, h⟩
    exact ⟨clause, args, hbuild, (hqueryOf hbuild).mp h⟩
  · rintro ⟨clause, args, hbuild, h⟩
    exact ⟨(clause, args), hbuild, (hqueryOf hbuild).mpr h⟩

/-- The words of a condition with clauses joined to it. -/
theorem lex_tenantWhere (clauses : List String) :
    lex (tenantWhere clauses) = conjoined ["tenant", "=", "$tenant"] (clauses.map lex) := by
  have hfrom : ∀ text : String,
      lex (clauses.foldl (fun text clause => text ++ " AND (" ++ clause ++ ")") text) =
        conjoined (lex text) (clauses.map lex) := by
    induction clauses with
    | nil =>
        intro text
        exact (List.append_nil _).symm
    | cons clause rest ih =>
        intro text
        have hjoined : text ++ " AND (" ++ clause ++ ")" =
            text ++ " AND " ++ ("(" ++ clause ++ ")") := by
          rw [show " AND (" = " AND " ++ "(" from rfl]
          simp only [String.append_assoc]
        rw [List.foldl_cons, ih, hjoined, lex_and, lex_parenthesis, conjoined, conjoined,
          List.map_cons, List.flatMap_cons, List.append_assoc]
        rfl
  exact hfrom _

/-- What is read of it implies the condition on the tenant. -/
theorem holds_of_tenantWhere {clauses : List String} {condition : Condition}
    (hclauses : ∀ clause ∈ clauses, Balanced (lex clause))
    (hread : Condition.read (tenantWhere clauses) = some condition) {truth : Truth}
    (hholds : condition.holds truth = true) : truth "tenant" "=" "tenant" = true := by
  rw [Condition.read, lex_tenantWhere] at hread
  have hrun : Reader.start.run ["tenant", "=", "$tenant"] =
      some ⟨.operator, ⟨false, none, some (.compare "tenant" "=" "tenant")⟩, []⟩ := by rfl
  have hrest := (Reader.complete_append hrun).symm.trans hread
  have hbalanced : ∀ tokens ∈ clauses.map lex, Balanced tokens := by
    intro tokens htokens
    obtain ⟨clause, hclause, rfl⟩ := List.mem_map.mp htokens
    exact hclauses clause hclause
  exact holds_of_conjoined hbalanced hrest hholds

end Statement

/-- The parameters of the placeholders in a statement, besides that of the tenant. -/
def placeholders (filter : Json.Value) (cursor : Option String) : List String :=
  (whereComparisons filter cursor).map (·.param)

/-- Nothing in a statement escapes from the condition on the tenant. -/
structure Confined (table : String) (tenant : TenantId) (filter : Json.Value) (limit : UInt64)
    (cursor : Option String) (query : SelectQuery) (clauses : List String) : Prop where
  /-- The condition is the one on the tenant, with clauses joined to it. -/
  whereClause : query.whereClause = tenantWhere clauses
  /-- Every parenthesis of a clause is closed in it. -/
  balanced : ∀ clause ∈ clauses, Balanced (lex clause)
  /-- The clauses have no other words than those of the language. -/
  words : ∀ clause ∈ clauses, ∀ word ∈ lex clause,
    ClauseWord (placeholders filter cursor) word
  /-- They are composed of the comparisons of the filter, in their order, and of that of the
  cursor. -/
  composed : ∃ founds, List.Forall₂ Composed clauses founds ∧
    founds.flatten = whereComparisons filter cursor
  /-- The sorts are identifiers and directions. -/
  order : ∃ keys : List SortKey, query.orderClause = orderText keys ∧
    ∀ key ∈ keys, validateIdentifier key.field = .ok ()
  /-- No two placeholders share a parameter, and none has one that was bound before. -/
  distinct : (placeholders filter cursor ++ ["tenant", "table", "limit", "__kind"]).Nodup
  /-- The placeholder of a comparison of the filter is bound to its operand. -/
  bound : ∀ number comparison, (comparisons filter)[number]? = some comparison →
    query.args.get (paramName "select" number) = some comparison.operand
  /-- What was bound before is left alone. -/
  kept : ∀ name value, (selectParams table tenant limit).get name = some value →
    query.args.get name = some value
  cursor : query.args.get "cursor" = cursor.map .string
  /-- Whatever the text reads like implies the condition on the tenant. -/
  implied : ∀ condition truth, Condition.read query.whereClause = some condition →
    condition.holds truth = true → truth "tenant" "=" "tenant" = true

section Confined

variable {filter : Json.Value} {cursor : Option String} {clause : String}

/-- The clauses of a statement are composed of its comparisons. -/
theorem composed_whereClauses (cursor : Option String)
    (hclause : Composed clause (numbered "select" 0 (comparisons filter))) :
    ∃ founds, List.Forall₂ Composed (whereClauses clause cursor) founds ∧
      founds.flatten = whereComparisons filter cursor := by
  have hfilter : ∃ founds, List.Forall₂ Composed (if clause = "" then [] else [clause]) founds ∧
      founds.flatten = numbered "select" 0 (comparisons filter) := by
    by_cases hempty : clause = ""
    · subst hempty
      rw [hclause.eq_nil]
      exact ⟨[], .nil, rfl⟩
    · rw [if_neg hempty]
      exact ⟨[_], .cons hclause .nil, List.flatten_singleton⟩
  obtain ⟨founds, hfounds, hflatten⟩ := hfilter
  rw [whereClauses, whereComparisons]
  cases cursor with
  | none => exact ⟨founds ++ [], List.rel_append hfounds .nil, by simp [hflatten]⟩
  | some _ =>
      refine ⟨founds ++ [_], List.rel_append hfounds (.cons composed_cursor .nil), ?_⟩
      simp [hflatten]

theorem nodup_placeholders :
    (placeholders filter cursor ++ ["tenant", "table", "limit", "__kind"]).Nodup := by
  have hothers : (cursor.toList.map (fun _ => "cursor") ++
      ["tenant", "table", "limit", "__kind"]).Nodup := by
    cases cursor <;> simp
  have hnames : ∀ name ∈ cursor.toList.map (fun _ => "cursor") ++
      ["tenant", "table", "limit", "__kind"], name.toList.head? ≠ some 's' := by
    cases cursor <;> simp
  rw [placeholders, whereComparisons, List.map_append, params_numbered, List.map_map,
    List.append_assoc]
  refine List.nodup_append.mpr ⟨?_, hothers, ?_⟩
  · exact (List.nodup_range' (h := by decide)).map fun _ _ hsame => paramName_inj.mp hsame
  · rintro name hname other hother rfl
    obtain ⟨number, _, rfl⟩ := List.mem_map.mp hname
    exact ne_paramName (hnames _ hother) number rfl

end Confined

/-- The statement of `select` does not escape from the condition on the tenant. -/
theorem selectQuery_confined (table : String) (tenant : TenantId) (filter : Json.Value)
    (sorts : Option (List SortKey)) (limit : UInt64) (cursor : Option String) (query : SelectQuery)
    (h : selectQuery table tenant filter sorts limit cursor = .ok query) :
    ∃ clauses, Confined table tenant filter limit cursor query clauses := by
  obtain ⟨clause, args, hbuild, hvalid, rfl⟩ := selectQuery_eq_ok_iff.mp h
  obtain ⟨hclause, _⟩ := composed_filterClause hbuild
  obtain ⟨founds, hfounds, hflatten⟩ := composed_whereClauses cursor hclause
  have hcomposed : ∀ text ∈ whereClauses clause cursor, ∃ found ∈ founds, Composed text found :=
    fun _ => exists_composed hfounds
  have hbalanced : ∀ text ∈ whereClauses clause cursor, Balanced (lex text) := by
    intro text htext
    obtain ⟨found, _, hfound⟩ := hcomposed text htext
    exact hfound.balanced
  refine ⟨whereClauses clause cursor, ⟨rfl, hbalanced, ?_, ⟨founds, hfounds, hflatten⟩,
    ⟨_, rfl, hvalid⟩, nodup_placeholders, ?_, ?_, ?_, ?_⟩⟩
  · intro text htext word hword
    obtain ⟨found, hfound, hcomposed⟩ := hcomposed text htext
    refine (hcomposed.words word hword).mono ?_
    rw [placeholders, ← hflatten]
    exact List.map_subset _ (List.sublist_flatten_of_mem hfound).subset
  · intro number comparison hcomparison
    dsimp only
    rw [get_queryArgs]
    refine (get_queryParams _).1 number _ ?_ rfl
    rw [operands_eq, List.getElem?_map, hcomparison]
    rfl
  · intro name value hvalue
    dsimp only
    have hhead : name.toList.head? ≠ some 's' ∧ name ≠ "cursor" := by
      rw [get_selectParams] at hvalue
      split_ifs at hvalue with hlimit hkind htable htenant <;> subst name <;> decide
    rw [get_queryArgs, (get_queryParams _).2 hhead.1, if_neg hhead.2]
    exact hvalue
  · dsimp only
    rw [get_queryArgs, (get_queryParams _).2 (by decide)]
    rfl
  · intro condition truth hread hholds
    exact holds_of_tenantWhere hbalanced hread hholds

namespace OpenOrFailed

/-- What is open, or has failed often. -/
def filter : Json.Value :=
  .object [("$or", .array [.object [("status", .string "open")],
    .object [("failures", .object [("$gte", .number (.posInt 3))])]])]

def query : SelectQuery where
  whereClause :=
    "tenant = $tenant AND ((status = $select_0 OR failures >= $select_1)) AND (id > $cursor)"
  orderClause := " ORDER BY status DESC"
  args := queryArgs "jobs" ⟨"acme"⟩ filter 20 (some "j7")

theorem selectQuery_eq :
    selectQuery "jobs" ⟨"acme"⟩ filter (some [⟨"status ", false⟩]) 20 (some "j7") = .ok query := by
  rfl

end OpenOrFailed

open OpenOrFailed in
theorem selectQuery_confined_openOrFailed :
    ∃ clauses, Confined "jobs" ⟨"acme"⟩ filter 20 (some "j7") query clauses :=
  selectQuery_confined "jobs" ⟨"acme"⟩ filter (some [⟨"status ", false⟩]) 20 (some "j7") query
    selectQuery_eq

end SurrealRepository

end Soulbase.Storage
