/-
# What a clause says of a document

A filter is a condition on documents: an object is the conjunction of its entries, `$and` is
all, `$or` is some, `$not` is negation. The clause that is built for it says this too, except
for what has no comparisons: that is left out, which is the same as true where clauses are
joined by `AND`, but not where they are joined by `OR` or negated; and a field without
operators leaves an empty piece next to an `AND`, which cannot be read.
-/

import Soulbase.Storage.Filter

namespace Soulbase.Storage

open Soulbase.Foundation

/-- A document, as comparisons see it: whether a field compares with an operand. -/
abbrev Document := String → String → Json.Value → Bool

namespace Mapper

/-- An operator of a field. -/
def operatorHolds (document : Document) (field op : String) (operand : Json.Value) : Bool :=
  (operatorOf op).any fun (comparator, denied) => document field comparator operand != denied

/-- The value of a field in a filter: all of its operators, or equality. -/
def fieldHolds (document : Document) (field : String) : Json.Value → Bool
  | .object entries => entries.all fun entry => operatorHolds document field entry.1 entry.2
  | value => document field "=" value

mutual

/-- Whether a filter holds of a document. -/
def holds (document : Document) : Json.Value → Bool
  | .object entries => entriesHold document entries
  | _ => true

/-- Whether all entries hold. -/
def entriesHold (document : Document) : List (String × Json.Value) → Bool
  | [] => true
  | (key, value) :: rest =>
      (if isOp key "and" then
        match value with
        | .array items => (itemsHold document items).all id
        | _ => false
      else if isOp key "or" then
        match value with
        | .array items => (itemsHold document items).any id
        | _ => false
      else if isOp key "not" then !holds document value
      else fieldHolds document key value) && entriesHold document rest

/-- Which items hold. -/
def itemsHold (document : Document) : List Json.Value → List Bool
  | [] => []
  | item :: items => holds document item :: itemsHold document items

end

/-- What is left of a filter without the pieces that have no comparisons: nothing, a condition
that holds or not, or a text with an empty piece in it. -/
inductive Remnant
  | nothing
  | condition (holds : Bool)
  | broken
  deriving DecidableEq

namespace Remnant

/-- Nothing is true, and what is broken is neither true nor false. -/
def truth : Remnant → Option Bool
  | nothing => some true
  | condition holds => some holds
  | broken => none

theorem truth_eq_none_iff {remnant : Remnant} : remnant.truth = none ↔ remnant = broken := by
  cases remnant <;> simp [truth]

/-- Whether it is a condition, and holds. -/
def asCondition : Remnant → Option Bool
  | condition holds => some holds
  | _ => none

/-- Conditions, of which all or some hold. -/
def combined (join : List Bool → Bool) (remnants : List Remnant) : Remnant :=
  ((remnants.mapM asCondition).map join).elim broken condition

/-- What is left of the parts of an object. -/
def joined : List Remnant → Remnant
  | [] => nothing
  | [remnant] => remnant
  | remnants => combined (·.all id) remnants

/-- What is left of the clauses of an array. -/
def grouped (join : List Bool → Bool) (remnants : List Remnant) : List Remnant :=
  let kept := remnants.filter (· ≠ nothing)
  if kept = [] then [] else [combined join kept]

/-- What is left of a negation. -/
def negated : Remnant → List Remnant
  | nothing => []
  | condition holds => [condition !holds]
  | broken => [broken]

end Remnant

/-- What is left of a field: nothing without operators. -/
def fieldRemnant (document : Document) (field : String) (value : Json.Value) : Remnant :=
  match value with
  | .object [] => .nothing
  | value => .condition (fieldHolds document field value)

mutual

/-- What is left of a filter. -/
def remnant (document : Document) : Json.Value → Remnant
  | .object entries => .joined (partRemnants document entries)
  | _ => .nothing

/-- What is left of entries. -/
def partRemnants (document : Document) : List (String × Json.Value) → List Remnant
  | [] => []
  | (key, value) :: rest =>
      (if isOp key "and" then
        match value with
        | .array items => Remnant.grouped (·.all id) (itemRemnants document items)
        | _ => []
      else if isOp key "or" then
        match value with
        | .array items => Remnant.grouped (·.any id) (itemRemnants document items)
        | _ => []
      else if isOp key "not" then (remnant document value).negated
      else [fieldRemnant document key value]) ++ partRemnants document rest

/-- What is left of items. -/
def itemRemnants (document : Document) : List Json.Value → List Remnant
  | [] => []
  | item :: items => remnant document item :: itemRemnants document items

end

/-- What is left of a source. -/
def Source.remnants (document : Document) : Source → List Remnant
  | .filter value => [remnant document value]
  | .entries list => partRemnants document list
  | .items list => itemRemnants document list

/-- Which comparisons are true of a document, with the operands of the parameters. -/
def truthOf (document : Document) (params : NamedArgs) : Condition.Truth :=
  fun field comparator param => (params.get param).any (document field comparator)

/-- A clause says that something is true of a document or not: it is empty, which is true, or a
condition that holds or not. -/
def Says (document : Document) (params : NamedArgs) (clause : String) (holds : Bool) : Prop :=
  clause = "" ∧ holds = true ∨
    ∃ condition, Condition.read clause = some condition ∧
      condition.holds (truthOf document params) = holds

section Reads

open Condition

variable {document : Document} {params : NamedArgs} {label : String} {truth : Truth}

/-- A text says what is left. -/
inductive Reads (truth : Truth) : String → Remnant → Prop
  | nothing : Reads truth "" .nothing
  | condition {text : String} {meaning : Truth → Bool} (hne : text ≠ "")
      (hfactors : Factors (lex text) meaning) (hopens : Opens (lex text)) :
      Reads truth text (.condition (meaning truth))
  | broken {text : String} (hne : text ≠ "") (hunreadable : Unreadable (lex text))
      (hopens : Opens (lex text)) : Reads truth text .broken

theorem Reads.opens {text : String} {remnant : Remnant} (h : Reads truth text remnant) :
    Opens (lex text) := by
  cases h with
  | nothing => exact opens_nil
  | condition _ _ hopens => exact hopens
  | broken _ _ hopens => exact hopens

/-- The words are factors that hold or not, or cannot be read. -/
def FactorsAs (truth : Truth) (tokens : List String) : Option Bool → Prop
  | some holds => ∃ meaning, Factors tokens meaning ∧ meaning truth = holds
  | none => Unreadable tokens

/-- They are alternatives, or cannot be read. -/
def AlternativesAs (truth : Truth) (tokens : List String) : Option Bool → Prop
  | some holds => ∃ meaning, Alternatives tokens meaning ∧ meaning truth = holds
  | none => Unreadable tokens

theorem FactorsAs.alternatives {tokens : List String} {holds : Option Bool}
    (h : FactorsAs truth tokens holds) : AlternativesAs truth tokens holds := by
  cases holds with
  | none => exact h
  | some holds =>
      obtain ⟨meaning, hfactors, hmeaning⟩ := h
      exact ⟨meaning, hfactors.alternatives, hmeaning⟩

/-- What is no condition cannot be read. -/
theorem Reads.factors {text : String} {remnant : Remnant} (h : Reads truth text remnant) :
    FactorsAs truth (lex text) remnant.asCondition := by
  cases h with
  | nothing => exact unreadable_nil
  | condition _ hfactors _ => exact ⟨_, hfactors, rfl⟩
  | broken _ hunreadable _ => exact hunreadable

/-- A text that is not empty says what it can be read as. -/
theorem reads_of_factors {text : String} {holds : Option Bool} (hne : text ≠ "")
    (h : FactorsAs truth (lex text) holds) (hopens : Opens (lex text)) :
    Reads truth text (holds.elim .broken .condition) := by
  cases holds with
  | none => exact .broken hne h hopens
  | some holds =>
      obtain ⟨meaning, hfactors, rfl⟩ := h
      exact .condition hne hfactors hopens

theorem FactorsAs.and {first second : List String} {holds : Option Bool} {others : Option Bool}
    (hfirst : FactorsAs truth first holds) (hopens : Opens second)
    (hsecond : FactorsAs truth second others) :
    FactorsAs truth (first ++ "AND" :: second)
      (holds.bind fun holds => others.map (holds && ·)) := by
  cases holds with
  | none => exact hfirst.join (.inl rfl) hopens
  | some holds =>
      obtain ⟨meaning, hfactors, rfl⟩ := hfirst
      cases others with
      | none => exact hfactors.join_unreadable (.inl rfl) hsecond
      | some others =>
          obtain ⟨other, hothers, rfl⟩ := hsecond
          exact ⟨_, hfactors.and hothers, rfl⟩

theorem FactorsAs.or {first second : List String} {holds : Option Bool} {others : Option Bool}
    (hfirst : FactorsAs truth first holds) (hopens : Opens second)
    (hsecond : AlternativesAs truth second others) :
    AlternativesAs truth (first ++ "OR" :: second)
      (holds.bind fun holds => others.map (holds || ·)) := by
  cases holds with
  | none => exact hfirst.join (.inr rfl) hopens
  | some holds =>
      obtain ⟨meaning, hfactors, rfl⟩ := hfirst
      cases others with
      | none => exact hfactors.join_unreadable (.inr rfl) hsecond
      | some others =>
          obtain ⟨other, hothers, rfl⟩ := hsecond
          exact ⟨_, hfactors.or hothers, rfl⟩

/-- Texts joined by `AND`, at least one. -/
theorem reads_all {text : String} {texts : List String} {remnant : Remnant}
    {remnants : List Remnant} (hfirst : Reads truth text remnant)
    (hrest : List.Forall₂ (Reads truth) texts remnants) :
    Opens (lex (" AND ".intercalate (text :: texts))) ∧
      FactorsAs truth (lex (" AND ".intercalate (text :: texts)))
        (((remnant :: remnants).mapM Remnant.asCondition).map (·.all id)) := by
  induction hrest generalizing text remnant with
  | nil =>
      rw [String.intercalate_singleton]
      refine ⟨hfirst.opens, ?_⟩
      have hfactors := hfirst.factors
      cases hcondition : remnant.asCondition <;> simpa [hcondition] using hfactors
  | cons hnext hlater ih =>
      obtain ⟨hopens, hreads⟩ := ih hnext
      rw [String.intercalate_cons_cons, lex_and, List.mapM_cons]
      refine ⟨hfirst.opens.join (.inl rfl) hopens, ?_⟩
      have hjoined := hfirst.factors.and hopens hreads
      cases hcondition : remnant.asCondition with
      | none => simpa [hcondition] using hjoined
      | some holds =>
          generalize List.mapM Remnant.asCondition _ = conditions at hjoined ⊢
          cases conditions <;> simpa [hcondition] using hjoined

/-- Texts joined by `OR`, at least one. -/
theorem reads_any {text : String} {texts : List String} {remnant : Remnant}
    {remnants : List Remnant} (hfirst : Reads truth text remnant)
    (hrest : List.Forall₂ (Reads truth) texts remnants) :
    Opens (lex (" OR ".intercalate (text :: texts))) ∧
      AlternativesAs truth (lex (" OR ".intercalate (text :: texts)))
        (((remnant :: remnants).mapM Remnant.asCondition).map (·.any id)) := by
  induction hrest generalizing text remnant with
  | nil =>
      rw [String.intercalate_singleton]
      refine ⟨hfirst.opens, ?_⟩
      have hfactors := hfirst.factors.alternatives
      cases hcondition : remnant.asCondition <;> simpa [hcondition] using hfactors
  | cons hnext hlater ih =>
      obtain ⟨hopens, hreads⟩ := ih hnext
      rw [String.intercalate_cons_cons, lex_or, List.mapM_cons]
      refine ⟨hfirst.opens.join (.inr rfl) hopens, ?_⟩
      have hjoined := hfirst.factors.or hopens hreads
      cases hcondition : remnant.asCondition with
      | none => simpa [hcondition] using hjoined
      | some holds =>
          generalize List.mapM Remnant.asCondition _ = conditions at hjoined ⊢
          cases conditions <;> simpa [hcondition] using hjoined

theorem intercalate_ne_empty (separator first second : String) (rest : List String)
    (hseparator : separator ≠ "") : separator.intercalate (first :: second :: rest) ≠ "" := by
  rw [String.intercalate_cons_cons]
  intro h
  have hlist := congrArg String.toList h
  simp only [String.toList_append, String.toList_empty, List.append_eq_nil_iff] at hlist
  exact hseparator (String.toList_eq_nil_iff.mp hlist.1.2)

/-- The parts of an object, joined. -/
theorem reads_joined {texts : List String} {remnants : List Remnant}
    (h : List.Forall₂ (Reads truth) texts remnants) :
    Reads truth (" AND ".intercalate texts) (.joined remnants) := by
  cases h with
  | nil => exact .nothing
  | cons hfirst hrest =>
      cases hrest with
      | nil => exact hfirst
      | cons hnext hlater =>
          obtain ⟨hopens, hreads⟩ := reads_all hfirst (.cons hnext hlater)
          exact reads_of_factors (intercalate_ne_empty _ _ _ _ (by decide)) hreads hopens

theorem Reads.eq_empty_iff {text : String} {remnant : Remnant} (h : Reads truth text remnant) :
    text = "" ↔ remnant = .nothing := by
  cases h with
  | nothing => exact iff_of_true rfl rfl
  | condition hne _ _ => exact iff_of_false hne nofun
  | broken hne _ _ => exact iff_of_false hne nofun

/-- What is left out of the texts is what has nothing left. -/
theorem reads_filter {texts : List String} {remnants : List Remnant}
    (h : List.Forall₂ (Reads truth) texts remnants) :
    List.Forall₂ (Reads truth) (texts.filter (· ≠ "")) (remnants.filter (· ≠ .nothing)) := by
  induction h with
  | nil => exact .nil
  | @cons text remnant texts remnants hfirst hrest ih =>
      by_cases hempty : text = ""
      · rw [List.filter_cons_of_neg (by simp [hempty]),
          List.filter_cons_of_neg (by simp [hfirst.eq_empty_iff.mp hempty])]
        exact ih
      · rw [List.filter_cons_of_pos (by simp [hempty]),
          List.filter_cons_of_pos (by simp [mt hfirst.eq_empty_iff.mpr hempty])]
        exact .cons hfirst ih

theorem append_close_ne_empty (text : String) : text ++ ")" ≠ "" := by
  intro hempty
  have hlist := congrArg String.toList hempty
  simp at hlist

/-- Alternatives in parentheses. -/
theorem reads_parenthesis {text : String} {holds : Option Bool}
    (h : AlternativesAs truth (lex text) holds) :
    Reads truth ("(" ++ text ++ ")") (holds.elim .broken .condition) := by
  refine reads_of_factors (append_close_ne_empty _) ?_ ?_
  · rw [lex_parenthesis]
    cases holds with
    | none => exact Unreadable.parenthesis h
    | some holds =>
        obtain ⟨meaning, halternatives, hmeaning⟩ := h
        exact ⟨meaning, halternatives.parenthesis, hmeaning⟩
  · rw [lex_parenthesis]
    exact opens_parenthesis _

/-- They are negated by a `NOT`. -/
theorem reads_not {text : String} {holds : Option Bool}
    (h : AlternativesAs truth (lex text) holds) :
    Reads truth ("NOT (" ++ text ++ ")") ((holds.map (!·)).elim .broken .condition) := by
  refine reads_of_factors (append_close_ne_empty _) ?_ ?_
  · rw [lex_not]
    cases holds with
    | none => exact Unreadable.negation h
    | some holds =>
        obtain ⟨meaning, halternatives, rfl⟩ := h
        exact ⟨_, halternatives.negation, rfl⟩
  · rw [lex_not]
    exact opens_negation _

/-- The clauses of an array, all of which hold. -/
theorem reads_grouped_all {texts : List String} {remnants : List Remnant}
    (h : List.Forall₂ (Reads truth) texts remnants) :
    List.Forall₂ (Reads truth) (grouped " AND " texts) (Remnant.grouped (·.all id) remnants) := by
  have hkept := reads_filter h
  unfold grouped Remnant.grouped
  generalize texts.filter (· ≠ "") = kept at hkept ⊢
  generalize remnants.filter (· ≠ .nothing) = keptRemnants at hkept ⊢
  cases hkept with
  | nil => exact .nil
  | cons hfirst hrest =>
      exact .cons (reads_parenthesis (reads_all hfirst hrest).2.alternatives) .nil

/-- The clauses of an array, some of which hold. -/
theorem reads_grouped_any {texts : List String} {remnants : List Remnant}
    (h : List.Forall₂ (Reads truth) texts remnants) :
    List.Forall₂ (Reads truth) (grouped " OR " texts) (Remnant.grouped (·.any id) remnants) := by
  have hkept := reads_filter h
  unfold grouped Remnant.grouped
  generalize texts.filter (· ≠ "") = kept at hkept ⊢
  generalize remnants.filter (· ≠ .nothing) = keptRemnants at hkept ⊢
  cases hkept with
  | nil => exact .nil
  | cons hfirst hrest => exact .cons (reads_parenthesis (reads_any hfirst hrest).2) .nil

/-- A clause that is negated. -/
theorem reads_negated {text : String} {remnant : Remnant} (h : Reads truth text remnant) :
    List.Forall₂ (Reads truth) (negated text) remnant.negated := by
  have hnot := reads_not h.factors.alternatives
  cases h with
  | nothing => exact .nil
  | condition hne _ _ =>
      rw [negated, if_neg hne]
      exact .cons hnot .nil
  | broken hne _ _ =>
      rw [negated, if_neg hne]
      exact .cons hnot .nil

/-! ## The texts of fields -/

/-- A comparison. -/
theorem reads_comparison {field comparator name : String}
    (hfield : validateIdentifier field = .ok ()) (hcomparator : comparator ∈ comparators)
    (hname : IsWord (placeholder name)) :
    Reads truth (comparisonText field comparator name)
      (.condition (truth field comparator name)) := by
  have hlex := lex_comparison hfield hcomparator hname
  have hne : comparisonText field comparator name ≠ "" := by
    intro hempty
    have hlist := congrArg String.toList hempty
    simp [comparisonText] at hlist
  have hfactors : FactorsAs truth (lex (comparisonText field comparator name))
      (some (truth field comparator name)) := by
    rw [hlex]
    exact ⟨_, factors_compare name (isWord_of_valid hfield) hcomparator, rfl⟩
  refine reads_of_factors hne hfactors ?_
  rw [hlex]
  exact opens_comparison field hcomparator _

/-- An operator of a field, whose parameter is bound to the operand. -/
theorem reads_operator {field op comparator name : String} {denied : Bool} {operand : Json.Value}
    (hfield : validateIdentifier field = .ok ())
    (hop : operatorOf op = some (comparator, denied)) (hname : IsWord (placeholder name))
    (hbound : params.get name = some operand) :
    Reads (truthOf document params) (operatorText field comparator name denied)
      (.condition (operatorHolds document field op operand)) := by
  have htruth : truthOf document params field comparator name =
      document field comparator operand := by
    rw [truthOf, hbound]
    rfl
  have hcomparison : Reads (truthOf document params) (comparisonText field comparator name)
      (.condition (document field comparator operand)) := by
    rw [← htruth]
    exact reads_comparison hfield (comparator_of_operatorOf hop) hname
  rw [operatorHolds, hop]
  cases denied with
  | false =>
      have hholds : (document field comparator operand != false) =
          document field comparator operand := by simp
      simpa [operatorText, hholds] using hcomparison
  | true =>
      have hnot := reads_not hcomparison.factors.alternatives
      have hholds : (document field comparator operand != true) =
          !document field comparator operand := by simp
      change Reads _ _ (.condition (document field comparator operand != true))
      rw [hholds]
      exact hnot

/-- The operators of a field. -/
theorem reads_operators {field : String} {entries : Json.Map} {number : ℕ}
    (hlabel : PlainLabel label) (hfield : validateIdentifier field = .ok ())
    (hoperators : ∀ entry ∈ entries, (operatorOf entry.1).isSome = true)
    (hbinds : Binds params label number (entries.map (·.2))) :
    List.Forall₂ (Reads (truthOf document params)) (operatorTexts label field entries number)
      (entries.map fun entry => .condition (operatorHolds document field entry.1 entry.2)) := by
  induction entries generalizing number with
  | nil => exact .nil
  | cons entry rest ih =>
      obtain ⟨op, operand⟩ := entry
      obtain ⟨⟨comparator, denied⟩, hop⟩ := Option.isSome_iff_exists.mp
        (hoperators (op, operand) List.mem_cons_self)
      have hrest : Binds params label (number + 1) (rest.map (·.2)) :=
        (show Binds params label number ([operand] ++ rest.map (·.2)) from hbinds).append.2
      refine .cons ?_ (ih (fun entry hentry => hoperators entry (List.mem_cons_of_mem _ hentry))
        hrest)
      rw [hop]
      exact reads_operator hfield hop (isWord_placeholder hlabel number)
        (hbinds 0 operand rfl)

theorem joined_conditions {holds : List Bool} (h : holds ≠ []) :
    Remnant.joined (holds.map .condition) = .condition (holds.all id) := by
  have hmapM : (holds.map Remnant.condition).mapM Remnant.asCondition = some holds := by
    induction holds with
    | nil => rfl
    | cons first rest ih =>
        cases rest with
        | nil => rfl
        | cons second rest =>
            rw [List.map_cons, List.mapM_cons, ih (List.cons_ne_nil _ _)]
            rfl
  match holds with
  | [] => exact absurd rfl h
  | [first] => simp [Remnant.joined]
  | first :: second :: rest =>
      change Remnant.combined (·.all id) ((first :: second :: rest).map .condition) = _
      rw [Remnant.combined, hmapM]
      rfl

/-- The clause of a field. -/
theorem BuildsField.reads {field text : String} {value : Json.Value} {before after : Bindings}
    (h : BuildsField label field value before text after) (hlabel : PlainLabel label)
    (hfield : validateIdentifier field = .ok ())
    (hbinds : Binds params label before.counter (fieldOperands value)) :
    Reads (truthOf document params) text (fieldRemnant document field value) := by
  cases h with
  | none bindings => exact .nothing
  | @operators entries bindings hentries hoperators =>
      have hreads : Reads (truthOf document params) _ _ :=
        reads_joined (reads_operators hlabel hfield hoperators hbinds)
      have hconditions : (entries.map fun entry => Remnant.condition
          (operatorHolds document field entry.1 entry.2)) =
            (entries.map fun entry => operatorHolds document field entry.1 entry.2).map
              .condition := by
        rw [List.map_map]
        rfl
      rw [hconditions, joined_conditions (by simpa using hentries)] at hreads
      cases entries with
      | nil => exact absurd rfl hentries
      | cons entry rest => simpa [fieldRemnant, fieldHolds, Function.comp_def] using hreads
  | value hvalue bindings =>
      have hbound : params.get (paramName label before.counter) = some value := by
        refine hbinds 0 value ?_
        cases value with
        | object entries => cases hvalue
        | _ => rfl
      have htruth : truthOf document params field "=" (paramName label before.counter) =
          document field "=" value := by
        rw [truthOf, hbound]
        rfl
      have hremnant : fieldRemnant document field value =
          .condition (truthOf document params field "=" (paramName label before.counter)) := by
        rw [htruth]
        cases value with
        | object entries => cases hvalue
        | _ => rfl
      rw [hremnant]
      exact reads_comparison hfield (by decide) (isWord_placeholder hlabel _)

theorem partRemnants_all (items : List Json.Value) (rest : List (String × Json.Value)) :
    partRemnants document (("$and", .array items) :: rest) =
      Remnant.grouped (·.all id) (itemRemnants document items) ++ partRemnants document rest := by
  rw [partRemnants, if_pos (by decide)]

theorem partRemnants_any (items : List Json.Value) (rest : List (String × Json.Value)) :
    partRemnants document (("$or", .array items) :: rest) =
      Remnant.grouped (·.any id) (itemRemnants document items) ++ partRemnants document rest := by
  rw [partRemnants, if_neg (by decide), if_pos (by decide)]

theorem partRemnants_not (value : Json.Value) (rest : List (String × Json.Value)) :
    partRemnants document (("$not", value) :: rest) =
      (remnant document value).negated ++ partRemnants document rest := by
  rw [partRemnants.eq_def]
  dsimp only
  rw [if_neg (by decide), if_neg (by decide), if_pos (by decide)]

theorem partRemnants_field {field : String} (h : validateIdentifier field = .ok ())
    (value : Json.Value) (rest : List (String × Json.Value)) :
    partRemnants document ((field, value) :: rest) =
      fieldRemnant document field value :: partRemnants document rest := by
  rw [partRemnants.eq_def]
  dsimp only
  rw [if_neg (by simp [isOp_of_valid h]), if_neg (by simp [isOp_of_valid h]),
    if_neg (by simp [isOp_of_valid h])]
  rfl

/-- What is built says what is left of its source. -/
theorem Builds.reads {source : Source} {before after : Bindings} {texts : List String}
    (h : Builds label source before texts after) (hlabel : PlainLabel label)
    (hbinds : Binds params label before.counter source.operands) :
    List.Forall₂ (Reads (truthOf document params)) texts (source.remnants document) := by
  induction h with
  | empty bindings => exact .cons .nothing .nil
  | object hparts ih => exact .cons (reads_joined (ih hbinds)) .nil
  | noEntries bindings => exact .nil
  | all hclauses hrest ih ihrest =>
      rw [Source.operands, entryOperands_junction (.inl rfl)] at hbinds
      obtain ⟨hitems, hentries⟩ := hbinds.append
      rw [Source.remnants, partRemnants_all]
      refine List.rel_append (reads_grouped_all (ih hitems)) (ihrest ?_)
      rw [hclauses.counter_after]
      exact hentries
  | any hclauses hrest ih ihrest =>
      rw [Source.operands, entryOperands_junction (.inr rfl)] at hbinds
      obtain ⟨hitems, hentries⟩ := hbinds.append
      rw [Source.remnants, partRemnants_any]
      refine List.rel_append (reads_grouped_any (ih hitems)) (ihrest ?_)
      rw [hclauses.counter_after]
      exact hentries
  | not hclause hrest ih ihrest =>
      rw [Source.operands, entryOperands_not] at hbinds
      obtain ⟨hvalue, hentries⟩ := hbinds.append
      rw [Source.remnants, partRemnants_not]
      cases ih hvalue with
      | cons hreads _ =>
          refine List.rel_append (reads_negated hreads) (ihrest ?_)
          rw [hclause.counter_after]
          exact hentries
  | field hfield hclause hrest ihrest =>
      rw [Source.operands, entryOperands_field hfield] at hbinds
      obtain ⟨hvalue, hentries⟩ := hbinds.append
      rw [Source.remnants, partRemnants_field hfield]
      refine .cons (hclause.reads hlabel hfield hvalue) (ihrest ?_)
      rw [hclause.after_eq, counter_boundAll]
      exact hentries
  | noItems bindings => exact .nil
  | item hclause hclauses ih ihclauses =>
      rw [Source.operands, itemOperands] at hbinds
      obtain ⟨hitem, hitems⟩ := hbinds.append
      cases ih hitem with
      | cons hreads _ =>
          refine .cons hreads (ihclauses ?_)
          rw [hclause.counter_after]
          exact hitems

/-- A text says what is left, and nothing else. -/
theorem Reads.says_iff {clause : String} {remnant : Remnant} {held : Bool}
    (h : Reads (truthOf document params) clause remnant) :
    Says document params clause held ↔ remnant.truth = some held := by
  cases h with
  | nothing =>
      have hread : read "" = none := Unreadable.read (by rw [lex_empty]; exact unreadable_nil)
      constructor
      · rintro (⟨_, rfl⟩ | ⟨condition, hcondition, _⟩)
        · rfl
        · exact absurd (hread.symm.trans hcondition) nofun
      · intro hheld
        exact .inl ⟨rfl, (Option.some.inj hheld).symm⟩
  | condition hne hfactors _ =>
      obtain ⟨condition, hread, hholds⟩ := hfactors.alternatives.read
      constructor
      · rintro (⟨hempty, _⟩ | ⟨found, hfound, rfl⟩)
        · exact absurd hempty hne
        · obtain rfl := Option.some.inj (hread.symm.trans hfound)
          exact congrArg some (hholds _).symm
      · intro hheld
        exact .inr ⟨condition, hread, (hholds _).trans (Option.some.inj hheld)⟩
  | broken hne hunreadable _ =>
      refine iff_of_false ?_ nofun
      rintro (⟨hempty, _⟩ | ⟨condition, hcondition, _⟩)
      · exact hne hempty
      · exact absurd (hunreadable.read.symm.trans hcondition) nofun

end Reads

/-- The clause of a filter says what is left of the filter, where its operands are bound. -/
theorem reads_of_binds (document : Document) {filter : Json.Value} {params args others : NamedArgs}
    {label clause : String} (h : buildFilterClause filter params label = .ok (clause, args))
    (hbinds : Binds others (sanitizePrefix label) 0 (operands filter)) :
    Reads (truthOf document others) clause (remnant document filter) := by
  unfold buildFilterClause at h
  split at h
  case h_1 =>
    cases h
    exact .nothing
  case h_2 =>
    obtain ⟨⟨text, bindings⟩, hbuild, h⟩ := except_do_eq_ok_iff.mp h
    cases h
    cases (builds_filter _ _ hbuild).reads (plainLabel_sanitizePrefix label) hbinds with
    | cons hclause _ => exact hclause

/-- They are bound by the call. -/
theorem binds_filterClause {filter : Json.Value} {params args : NamedArgs} {label clause : String}
    (h : buildFilterClause filter params label = .ok (clause, args)) :
    Binds args (sanitizePrefix label) 0 (operands filter) := by
  unfold buildFilterClause at h
  split at h
  case h_1 => exact nofun
  case h_2 =>
    obtain ⟨⟨text, bindings⟩, hbuild, h⟩ := except_do_eq_ok_iff.mp h
    cases h
    have hbinds := binds_boundAll (sanitizePrefix label) (operands filter) ⟨params, 0⟩
    rwa [← show bindings = boundAll (sanitizePrefix label) (operands filter) ⟨params, 0⟩ from
      (builds_filter _ _ hbuild).after_eq] at hbinds

theorem reads_filterClause (document : Document) {filter : Json.Value} {params args : NamedArgs}
    {label clause : String} (h : buildFilterClause filter params label = .ok (clause, args)) :
    Reads (truthOf document args) clause (remnant document filter) :=
  reads_of_binds document h (binds_filterClause h)

/-- It says what the filter says if what is left of the filter does. -/
theorem says_iff_remnant (document : Document) (filter : Json.Value) (params args : NamedArgs)
    (label clause : String) (h : buildFilterClause filter params label = .ok (clause, args)) :
    Says document args clause (holds document filter) ↔
      (remnant document filter).truth = some (holds document filter) :=
  (reads_filterClause document h).says_iff

mutual

/-- Nothing in a filter is without comparisons. -/
def solid : Json.Value → Bool
  | .object entries => entries ≠ [] && solidEntries entries
  | _ => false

/-- Nor in entries. -/
def solidEntries : List (String × Json.Value) → Bool
  | [] => true
  | (key, value) :: rest =>
      (if isOp key "and" || isOp key "or" then
        match value with
        | .array items => items ≠ [] && solidItems items
        | _ => false
      else if isOp key "not" then solid value
      else
        match value with
        | .object [] => false
        | _ => true) && solidEntries rest

/-- Nor in items. -/
def solidItems : List Json.Value → Bool
  | [] => true
  | item :: items => solid item && solidItems items

end

theorem mapM_conditions (holds : List Bool) :
    (holds.map Remnant.condition).mapM Remnant.asCondition = some holds := by
  induction holds with
  | nil => rfl
  | cons first rest ih =>
      rw [List.map_cons, List.mapM_cons, ih]
      rfl

theorem grouped_conditions (join : List Bool → Bool) {holds : List Bool} (h : holds ≠ []) :
    Remnant.grouped join (holds.map .condition) = [.condition (join holds)] := by
  have hkept : (holds.map Remnant.condition).filter (· ≠ .nothing) = holds.map .condition := by
    rw [List.filter_eq_self]
    intro remnant hremnant
    obtain ⟨held, _, rfl⟩ := List.mem_map.mp hremnant
    rfl
  rw [Remnant.grouped, hkept, if_neg (by simpa using h), Remnant.combined, mapM_conditions]
  rfl

theorem itemsHold_ne_nil (document : Document) {items : List Json.Value} (h : items ≠ []) :
    itemsHold document items ≠ [] := by
  cases items with
  | nil => exact absurd rfl h
  | cons item items => exact List.cons_ne_nil _ _

mutual

theorem remnant_of_solid (document : Document) (filter : Json.Value) (h : solid filter = true) :
    remnant document filter = .condition (holds document filter) := by
  match filter with
  | .object entries =>
      rw [solid, Bool.and_eq_true, decide_eq_true_iff] at h
      obtain ⟨held, hparts, hlength, hall⟩ := partRemnants_of_solid document entries h.2
      have hne : held ≠ [] := by
        rintro rfl
        exact h.1 (List.eq_nil_of_length_eq_zero hlength.symm)
      rw [remnant, hparts, joined_conditions hne, hall]
      rfl
  | .null | .bool _ | .number _ | .string _ | .array _ => cases h

theorem partRemnants_of_solid (document : Document) (entries : List (String × Json.Value))
    (h : solidEntries entries = true) :
    ∃ held : List Bool, partRemnants document entries = held.map .condition ∧
      held.length = entries.length ∧ held.all id = entriesHold document entries := by
  match entries with
  | [] => exact ⟨[], rfl, rfl, rfl⟩
  | (key, value) :: rest =>
      rw [solidEntries.eq_def] at h
      dsimp only at h
      obtain ⟨hfirst, hrest⟩ := Bool.and_eq_true_iff.mp h
      obtain ⟨held, hparts, hlength, hall⟩ := partRemnants_of_solid document rest hrest
      suffices hcondition : ∃ first,
          partRemnants document ((key, value) :: rest) =
            [.condition first] ++ partRemnants document rest ∧
          entriesHold document ((key, value) :: rest) =
            (first && entriesHold document rest) by
        obtain ⟨first, hfirstPart, hfirstHolds⟩ := hcondition
        refine ⟨first :: held, ?_, congrArg (· + 1) hlength, ?_⟩
        · rw [hfirstPart, hparts]
          rfl
        · rw [hfirstHolds, ← hall]
          rfl
      rw [partRemnants.eq_def, entriesHold.eq_def]
      dsimp only
      by_cases hand : isOp key "and" = true
      · rw [if_pos (by simp [hand])] at hfirst
        rw [if_pos hand, if_pos hand]
        match value with
        | .array items =>
            obtain ⟨hne, hitems⟩ := Bool.and_eq_true_iff.mp hfirst
            have hholds := itemsHold_ne_nil document (of_decide_eq_true hne)
            dsimp only
            rw [itemRemnants_of_solid document items hitems, grouped_conditions _ hholds]
            exact ⟨_, rfl, rfl⟩
        | .null | .bool _ | .number _ | .string _ | .object _ => cases hfirst
      rw [if_neg hand, if_neg hand]
      by_cases hor : isOp key "or" = true
      · rw [if_pos (by simp [hor])] at hfirst
        rw [if_pos hor, if_pos hor]
        match value with
        | .array items =>
            obtain ⟨hne, hitems⟩ := Bool.and_eq_true_iff.mp hfirst
            have hholds := itemsHold_ne_nil document (of_decide_eq_true hne)
            dsimp only
            rw [itemRemnants_of_solid document items hitems, grouped_conditions _ hholds]
            exact ⟨_, rfl, rfl⟩
        | .null | .bool _ | .number _ | .string _ | .object _ => cases hfirst
      rw [if_neg (by simp [hand, hor])] at hfirst
      rw [if_neg hor, if_neg hor]
      by_cases hnot : isOp key "not" = true
      · rw [if_pos hnot] at hfirst
        rw [if_pos hnot, if_pos hnot, remnant_of_solid document value hfirst]
        exact ⟨_, rfl, rfl⟩
      · rw [if_neg hnot] at hfirst
        rw [if_neg hnot, if_neg hnot]
        match value with
        | .object [] => cases hfirst
        | .object (_ :: _) | .null | .bool _ | .number _ | .string _ | .array _ =>
            exact ⟨_, rfl, rfl⟩

theorem itemRemnants_of_solid (document : Document) (items : List Json.Value)
    (h : solidItems items = true) :
    itemRemnants document items = (itemsHold document items).map .condition := by
  match items with
  | [] => rfl
  | item :: items =>
      rw [solidItems, Bool.and_eq_true] at h
      rw [itemRemnants, itemsHold, remnant_of_solid document item h.1,
        itemRemnants_of_solid document items h.2]
      rfl

end

/-- The clause of a filter without empty pieces means what the filter means. -/
theorem says_of_solid (document : Document) {filter : Json.Value} {params args : NamedArgs}
    {label clause : String} (h : buildFilterClause filter params label = .ok (clause, args))
    (hsolid : solid filter = true) : Says document args clause (holds document filter) := by
  rw [(reads_filterClause document h).says_iff, remnant_of_solid document filter hsolid]
  rfl

namespace EmptyPiece

/-- Everything, or those that are open. -/
def filter : Json.Value :=
  .object [("$or", .array [.object [], .object [("status", .string "open")]])]

/-- A document that is not open. -/
def document : Document := fun _ _ _ => false

def clause : String := "(status = $select_0)"

def args : NamedArgs := HashMap.put ∅ "select_0" (.string "open")

theorem build_filter : buildFilterClause filter ∅ "select" = .ok (clause, args) := by
  rfl

end EmptyPiece

open EmptyPiece in
theorem says_emptyPiece :
    buildFilterClause filter ∅ "select" = .ok (clause, args) ∧
      (Says document args clause (holds document filter) ↔
        (remnant document filter).truth = some (holds document filter)) :=
  ⟨build_filter, says_iff_remnant document filter ∅ args "select" clause build_filter⟩

open EmptyPiece in
/-- The document is everything, but the clause does not hold of it. -/
theorem not_says_emptyPiece :
    buildFilterClause filter ∅ "select" = .ok (clause, args) ∧
      ¬Says document args clause (holds document filter) := by
  refine ⟨build_filter, ?_⟩
  rw [(reads_filterClause document build_filter).says_iff]
  decide

end Mapper

end Soulbase.Storage
