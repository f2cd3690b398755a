/-
# Filters

`build_filter_clause` turns a JSON filter into the text of a condition whose operands are
parameters. The parameters of a call are numbered by one counter, which all parts of the
filter share, and are bound as they are named. The clause of an object joins the clauses of
its entries; `$and`, `$or` and `$not` leave out clauses that are empty.
-/

import Soulbase.Foundation.Condition
import Soulbase.Foundation.FiniteMap
import Soulbase.Foundation.Program
import Soulbase.Storage.Repository

namespace Soulbase.Storage

open Soulbase.Foundation

/-- `NamedArgs`. -/
abbrev NamedArgs := HashMap String Json.Value

/-- The parameters that are bound, and the counter. -/
structure Bindings where
  params : NamedArgs
  counter : ℕ

/-- What builds a part of a clause. -/
abbrev Build := StateT Bindings (Except StorageError)

namespace Mapper

/-- `DEFAULT_PREFIX`. -/
def defaultPrefix : String := "filter"

/-- `char::is_ascii_alphanumeric`. -/
def isAsciiAlphanumeric (c : Char) : Bool :=
  ('0' ≤ c && c ≤ '9') || ('a' ≤ c && c ≤ 'z') || ('A' ≤ c && c ≤ 'Z')

/-- `sanitize_prefix`. -/
def sanitizePrefix (label : String) : String :=
  let label := if Text.trim label = "" then defaultPrefix else label
  .ofList (label.toList.map fun c => if isAsciiAlphanumeric c then c else '_')

/-- The name of the parameter with a number. -/
def paramName (label : String) (number : ℕ) : String := label ++ "_" ++ toString number

/-- The bindings with one for the parameter with the next number. -/
def bound (label : String) (operand : Json.Value) (bindings : Bindings) : Bindings where
  params := bindings.params.put (paramName label bindings.counter) operand
  counter := bindings.counter + 1

/-- `next_param`, and the binding of the parameter. -/
def bindNext (label : String) (operand : Json.Value) : Build String := fun bindings =>
  .ok (paramName label bindings.counter, bound label operand bindings)

/-- `validate_identifier`. -/
def validateIdentifier (input : String) : StorageResult Unit :=
  if input = "" || !input.toList.all fun c => isAsciiAlphanumeric c || c = '_' || c = '.' then
    .error (.schema ("invalid field identifier '" ++ input ++ "'"))
  else .ok ()

/-- `is_op`. -/
def isOp (actual expected : String) : Bool := actual = "$" ++ expected

/-- `build_simple_compare`. -/
def buildSimpleCompare (field op : String) (operand : Json.Value) (label : String) :
    Build String := do
  let param ← bindNext label operand
  return field ++ " " ++ op ++ " " ++ Condition.placeholder param

/-- `build_in_clause`. -/
def buildInClause (field : String) (operand : Json.Value) (label : String) : Build String := do
  if operand.asArray.isNone then throw (.schema "$in operand must be an array")
  let param ← bindNext label operand
  return field ++ " IN " ++ Condition.placeholder param

/-- `build_contains_clause`. -/
def buildContainsClause (field : String) (operand : Json.Value) (label : String) :
    Build String := do
  let param ← bindNext label operand
  return field ++ " CONTAINS " ++ Condition.placeholder param

/-- The clause of an operator and its operand. -/
def buildComparison (field op : String) (operand : Json.Value) (label : String) : Build String :=
  if isOp op "eq" then buildSimpleCompare field "=" operand label
  else if isOp op "ne" then buildSimpleCompare field "!=" operand label
  else if isOp op "gt" then buildSimpleCompare field ">" operand label
  else if isOp op "gte" then buildSimpleCompare field ">=" operand label
  else if isOp op "lt" then buildSimpleCompare field "<" operand label
  else if isOp op "lte" then buildSimpleCompare field "<=" operand label
  else if isOp op "in" then buildInClause field operand label
  else if isOp op "nin" then do
    let inner ← buildInClause field operand label
    return "NOT (" ++ inner ++ ")"
  else if isOp op "contains" then buildContainsClause field operand label
  else throw (.schema ("unsupported filter operator '" ++ op ++ "'"))

/-- The loop of `build_field_clause`. -/
def buildFragments (field label : String) : Json.Map → Build (List String)
  | [] => return []
  | (op, operand) :: rest => do
      let clause ← buildComparison field op operand label
      let fragments ← buildFragments field label rest
      return if clause = "" then fragments else clause :: fragments

/-- `build_field_clause`. -/
def buildFieldClause (field : String) (value : Json.Value) (label : String) : Build String := do
  StateT.lift (validateIdentifier field)
  match value with
  | .object [] => return ""
  | .object entries =>
      let fragments ← buildFragments field label entries
      return " AND ".intercalate fragments
  | _ => buildSimpleCompare field "=" value label

/-- The clauses that are not empty, in parentheses, if there are any. -/
def grouped (separator : String) (clauses : List String) : List String :=
  let clauses := clauses.filter (· ≠ "")
  if clauses = [] then [] else ["(" ++ separator.intercalate clauses ++ ")"]

/-- A clause that is not empty, negated. -/
def negated (clause : String) : List String :=
  if clause = "" then [] else ["NOT (" ++ clause ++ ")"]

mutual

/-- `build_filter_recursive`. -/
def buildFilterRecursive (label : String) : Json.Value → Build String
  | .object entries =>
      match entries with
      | [] => return ""
      | entry :: rest => do
          let parts ← buildParts label (entry :: rest)
          return " AND ".intercalate parts
  | _ => throw (.schema "repository filter must be a JSON object")

/-- The loop of `build_filter_recursive`. -/
def buildParts (label : String) : List (String × Json.Value) → Build (List String)
  | [] => return []
  | (key, value) :: rest => do
      let part ←
        if isOp key "and" then
          match value with
          | .array items => (grouped " AND " ·) <$> buildAll label items
          | _ => throw (.schema "$and operator expects an array")
        else if isOp key "or" then
          match value with
          | .array items => (grouped " OR " ·) <$> buildAll label items
          | _ => throw (.schema "$or operator expects an array")
        else if isOp key "not" then negated <$> buildFilterRecursive label value
        else ([·]) <$> buildFieldClause key value label
      let parts ← buildParts label rest
      return part ++ parts

/-- The clauses of the items of an array. -/
def buildAll (label : String) : List Json.Value → Build (List String)
  | [] => return []
  | item :: items => do
      let clause ← buildFilterRecursive label item
      let clauses ← buildAll label items
      return clause :: clauses

end

/-- `build_filter_clause`. -/
def buildFilterClause (filter : Json.Value) (params : NamedArgs) (label : String) :
    StorageResult (String × NamedArgs) :=
  match filter with
  | .null => .ok ("", params)
  | _ => do
      let (clause, bindings) ←
        (buildFilterRecursive (sanitizePrefix label) filter).run ⟨params, 0⟩
      return (clause, bindings.params)

/-- `append_where`. -/
def appendWhere (target clause : String) : String :=
  if Text.trim clause = "" then target
  else (if Text.trim target = "" then target else target ++ " AND ") ++ "(" ++ clause ++ ")"

/-- The direction of a sort. -/
def direction (asc : Bool) : String := if asc then "ASC" else "DESC"

/-- `build_sort_clause`. -/
def buildSortClause (sorts : List SortKey) : StorageResult String :=
  if sorts = [] then .ok ""
  else do
    let clauses ← sorts.mapM fun sort => do
      let field := Text.trim sort.field
      validateIdentifier field
      return field ++ " " ++ direction sort.asc
    return " ORDER BY " ++ ", ".intercalate clauses

/-- The comparator of an operator, and whether the operator denies the comparison. -/
def operatorOf (op : String) : Option (String × Bool) :=
  if isOp op "eq" then some ("=", false)
  else if isOp op "ne" then some ("!=", false)
  else if isOp op "gt" then some (">", false)
  else if isOp op "gte" then some (">=", false)
  else if isOp op "lt" then some ("<", false)
  else if isOp op "lte" then some ("<=", false)
  else if isOp op "in" then some ("IN", false)
  else if isOp op "nin" then some ("IN", true)
  else if isOp op "contains" then some ("CONTAINS", false)
  else none

/-- The text of a comparison. -/
def comparisonText (field comparator param : String) : String :=
  field ++ " " ++ comparator ++ " " ++ Condition.placeholder param

/-- The text of a comparison, or of its denial. -/
def operatorText (field comparator param : String) (denied : Bool) : String :=
  if denied then "NOT (" ++ comparisonText field comparator param ++ ")"
  else comparisonText field comparator param

/-- The texts of the operators of a field, whose parameters are numbered from a number on. -/
def operatorTexts (label field : String) : Json.Map → ℕ → List String
  | [], _ => []
  | (op, _) :: rest, number =>
      ((operatorOf op).elim "" fun (comparator, denied) =>
        operatorText field comparator (paramName label number) denied) ::
          operatorTexts label field rest (number + 1)

/-- Parameters bound one after the other. -/
def boundAll (label : String) (operands : List Json.Value) (bindings : Bindings) : Bindings :=
  operands.foldl (fun bindings operand => bound label operand bindings) bindings

/-- A clause, or an entry or item of it, of which the clauses are built. -/
inductive Source
  | filter (value : Json.Value)
  | entries (entries : List (String × Json.Value))
  | items (items : List Json.Value)

/-- The clause of a field. -/
inductive BuildsField (label field : String) :
    Json.Value → Bindings → String → Bindings → Prop
  | none (bindings : Bindings) : BuildsField label field (.object []) bindings "" bindings
  | operators {entries : Json.Map} {bindings : Bindings} (hentries : entries ≠ [])
      (hoperators : ∀ entry ∈ entries, (operatorOf entry.1).isSome = true) :
      BuildsField label field (.object entries) bindings
        (" AND ".intercalate (operatorTexts label field entries bindings.counter))
        (boundAll label (entries.map (·.2)) bindings)
  | value {value : Json.Value} (hvalue : value.asObject = .none) (bindings : Bindings) :
      BuildsField label field value bindings
        (comparisonText field "=" (paramName label bindings.counter)) (bound label value bindings)

/-- How the clauses of a source are built. -/
inductive Builds (label : String) : Source → Bindings → List String → Bindings → Prop
  | empty (bindings : Bindings) : Builds label (.filter (.object [])) bindings [""] bindings
  | object {entry : String × Json.Value} {rest : List (String × Json.Value)}
      {before after : Bindings} {parts : List String}
      (hparts : Builds label (.entries (entry :: rest)) before parts after) :
      Builds label (.filter (.object (entry :: rest))) before [" AND ".intercalate parts] after
  | noEntries (bindings : Bindings) : Builds label (.entries []) bindings [] bindings
  | all {items : List Json.Value} {rest : List (String × Json.Value)}
      {before middle after : Bindings} {clauses parts : List String}
      (hclauses : Builds label (.items items) before clauses middle)
      (hrest : Builds label (.entries rest) middle parts after) :
      Builds label (.entries (("$and", .array items) :: rest)) before
        (grouped " AND " clauses ++ parts) after
  | any {items : List Json.Value} {rest : List (String × Json.Value)}
      {before middle after : Bindings} {clauses parts : List String}
      (hclauses : Builds label (.items items) before clauses middle)
      (hrest : Builds label (.entries rest) middle parts after) :
      Builds label (.entries (("$or", .array items) :: rest)) before
        (grouped " OR " clauses ++ parts) after
  | not {value : Json.Value} {rest : List (String × Json.Value)}
      {before middle after : Bindings} {clause : String} {parts : List String}
      (hclause : Builds label (.filter value) before [clause] middle)
      (hrest : Builds label (.entries rest) middle parts after) :
      Builds label (.entries (("$not", value) :: rest)) before (negated clause ++ parts) after
  | field {field : String} {value : Json.Value} {rest : List (String × Json.Value)}
      {before middle after : Bindings} {clause : String} {parts : List String}
      (hfield : validateIdentifier field = .ok ())
      (hclause : BuildsField label field value before clause middle)
      (hrest : Builds label (.entries rest) middle parts after) :
      Builds label (.entries ((field, value) :: rest)) before (clause :: parts) after
  | noItems (bindings : Bindings) : Builds label (.items []) bindings [] bindings
  | item {item : Json.Value} {items : List Json.Value} {before middle after : Bindings}
      {clause : String} {clauses : List String}
      (hclause : Builds label (.filter item) before [clause] middle)
      (hclauses : Builds label (.items items) middle clauses after) :
      Builds label (.items (item :: items)) before (clause :: clauses) after

section Builds

variable {label field op text : String} {operand value : Json.Value} {before after : Bindings}

theorem buildInClause_eq_ok (h : buildInClause field operand label before = .ok (text, after)) :
    text = comparisonText field "IN" (paramName label before.counter) ∧
      after = bound label operand before := by
  unfold buildInClause at h
  split at h
  case isTrue => cases h
  case isFalse =>
    cases h
    refine ⟨?_, rfl⟩
    change field ++ (" " ++ "IN" ++ " ") ++ _ = _
    simp only [comparisonText, String.append_assoc]

theorem buildComparison_eq_ok
    (h : buildComparison field op operand label before = .ok (text, after)) :
    ∃ comparator denied, operatorOf op = some (comparator, denied) ∧
      text = operatorText field comparator (paramName label before.counter) denied ∧
        after = bound label operand before := by
  unfold buildComparison at h
  split_ifs at h with heq hne hgt hgte hlt hlte hin hnin hcontains
  · cases h
    exact ⟨"=", false, by simp [operatorOf, heq], rfl, rfl⟩
  · cases h
    exact ⟨"!=", false, by simp [operatorOf, heq, hne], rfl, rfl⟩
  · cases h
    exact ⟨">", false, by simp [operatorOf, heq, hne, hgt], rfl, rfl⟩
  · cases h
    exact ⟨">=", false, by simp [operatorOf, heq, hne, hgt, hgte], rfl, rfl⟩
  · cases h
    exact ⟨"<", false, by simp [operatorOf, heq, hne, hgt, hgte, hlt], rfl, rfl⟩
  · cases h
    exact ⟨"<=", false, by simp [operatorOf, heq, hne, hgt, hgte, hlt, hlte], rfl, rfl⟩
  · obtain ⟨rfl, rfl⟩ := buildInClause_eq_ok h
    exact ⟨"IN", false, by simp [operatorOf, heq, hne, hgt, hgte, hlt, hlte, hin], rfl, rfl⟩
  · obtain ⟨inner, middle, hinner, h⟩ := stateT_bind_eq_ok_iff.mp h
    obtain ⟨rfl, rfl⟩ := buildInClause_eq_ok hinner
    cases h
    exact ⟨"IN", true, by simp [operatorOf, heq, hne, hgt, hgte, hlt, hlte, hin, hnin], rfl, rfl⟩
  · cases h
    refine ⟨"CONTAINS", false,
      by simp [operatorOf, heq, hne, hgt, hgte, hlt, hlte, hin, hnin, hcontains], ?_, rfl⟩
    change field ++ (" " ++ "CONTAINS" ++ " ") ++ _ = comparisonText _ _ _
    simp only [comparisonText, String.append_assoc]
  · cases h

theorem operatorText_ne_empty (field comparator param : String) (denied : Bool) :
    operatorText field comparator param denied ≠ "" := by
  intro h
  have hlist := congrArg String.toList h
  cases denied <;> simp [operatorText, comparisonText] at hlist

theorem buildFragments_eq_ok {entries : Json.Map} {fragments : List String}
    (h : buildFragments field label entries before = .ok (fragments, after)) :
    (∀ entry ∈ entries, (operatorOf entry.1).isSome = true) ∧
      fragments = operatorTexts label field entries before.counter ∧
        after = boundAll label (entries.map (·.2)) before := by
  induction entries generalizing before after fragments with
  | nil =>
      cases h
      exact ⟨nofun, rfl, rfl⟩
  | cons entry rest ih =>
      obtain ⟨op, operand⟩ := entry
      obtain ⟨clause, middle, hclause, h⟩ := stateT_bind_eq_ok_iff.mp h
      obtain ⟨comparator, denied, hop, rfl, rfl⟩ := buildComparison_eq_ok hclause
      obtain ⟨later, last, hlater, h⟩ := stateT_bind_eq_ok_iff.mp h
      obtain ⟨hrest, rfl, rfl⟩ := ih hlater
      rw [if_neg (operatorText_ne_empty _ _ _ _)] at h
      cases h
      refine ⟨?_, ?_, rfl⟩
      · intro entry hentry
        rcases List.mem_cons.mp hentry with rfl | hentry
        · rw [hop]
          rfl
        · exact hrest entry hentry
      · rw [operatorTexts, hop]
        rfl

theorem buildFieldClause_eq_ok
    (h : buildFieldClause field value label before = .ok (text, after)) :
    validateIdentifier field = .ok () ∧ BuildsField label field value before text after := by
  obtain ⟨_, middle, hvalid, h⟩ := stateT_bind_eq_ok_iff.mp h
  cases hfield : validateIdentifier field with
  | error err =>
      change (do let _ ← validateIdentifier field; _) = _ at hvalid
      rw [hfield] at hvalid
      cases hvalid
  | ok _ =>
      change (do let _ ← validateIdentifier field; _) = _ at hvalid
      rw [hfield] at hvalid
      cases hvalid
      refine ⟨rfl, ?_⟩
      cases value with
      | object entries =>
          cases entries with
          | nil =>
              cases h
              exact .none _
          | cons entry rest =>
              obtain ⟨fragments, last, hfragments, h⟩ := stateT_bind_eq_ok_iff.mp h
              obtain ⟨hoperators, rfl, rfl⟩ := buildFragments_eq_ok hfragments
              cases h
              exact .operators (List.cons_ne_nil _ _) hoperators
      | _ =>
          cases h
          exact .value rfl _

/-- The clauses of an entry, and those of the entries after it. -/
theorem appended_eq_ok {first second : Build (List String)} {parts : List String}
    (h : (do
      let part ← first
      let rest ← second
      return part ++ rest : Build (List String)) before = .ok (parts, after)) :
    ∃ part middle rest, first before = .ok (part, middle) ∧
      second middle = .ok (rest, after) ∧ parts = part ++ rest := by
  obtain ⟨part, middle, hpart, h⟩ := stateT_bind_eq_ok_iff.mp h
  obtain ⟨rest, last, hrest, h⟩ := stateT_bind_eq_ok_iff.mp h
  cases h
  exact ⟨part, middle, rest, hpart, hrest, rfl⟩

mutual

theorem builds_filter (label : String) (value : Json.Value) {before after : Bindings}
    {text : String} (h : buildFilterRecursive label value before = .ok (text, after)) :
    Builds label (.filter value) before [text] after := by
  match value with
  | .object [] =>
      cases h
      exact .empty _
  | .object (entry :: rest) =>
      obtain ⟨parts, middle, hparts, h⟩ := stateT_bind_eq_ok_iff.mp h
      cases h
      exact .object (builds_entries label (entry :: rest) hparts)
  | .null | .bool _ | .number _ | .string _ | .array _ => cases h

theorem builds_entries (label : String) (entries : List (String × Json.Value))
    {before after : Bindings} {parts : List String}
    (h : buildParts label entries before = .ok (parts, after)) :
    Builds label (.entries entries) before parts after := by
  match entries with
  | [] =>
      cases h
      exact .noEntries _
  | (key, value) :: rest =>
      unfold buildParts at h
      split_ifs at h with hand hor hnot
      · obtain rfl : key = "$and" := of_decide_eq_true hand
        match value with
        | .array items =>
            obtain ⟨part, middle, parts, hpart, hparts, rfl⟩ := appended_eq_ok h
            obtain ⟨clauses, hclauses, rfl⟩ := stateT_map_eq_ok_iff.mp hpart
            exact .all (builds_items label items hclauses) (builds_entries label rest hparts)
        | .null | .bool _ | .number _ | .string _ | .object _ => cases h
      · obtain rfl : key = "$or" := of_decide_eq_true hor
        match value with
        | .array items =>
            obtain ⟨part, middle, parts, hpart, hparts, rfl⟩ := appended_eq_ok h
            obtain ⟨clauses, hclauses, rfl⟩ := stateT_map_eq_ok_iff.mp hpart
            exact .any (builds_items label items hclauses) (builds_entries label rest hparts)
        | .null | .bool _ | .number _ | .string _ | .object _ => cases h
      · obtain rfl : key = "$not" := of_decide_eq_true hnot
        obtain ⟨part, middle, parts, hpart, hparts, rfl⟩ := appended_eq_ok h
        obtain ⟨clause, hclause, rfl⟩ := stateT_map_eq_ok_iff.mp hpart
        exact .not (builds_filter label value hclause) (builds_entries label rest hparts)
      · obtain ⟨part, middle, parts, hpart, hparts, rfl⟩ := appended_eq_ok h
        obtain ⟨clause, hclause, rfl⟩ := stateT_map_eq_ok_iff.mp hpart
        obtain ⟨hfield, hbuilds⟩ := buildFieldClause_eq_ok hclause
        exact .field hfield hbuilds (builds_entries label rest hparts)

theorem builds_items (label : String) (items : List Json.Value) {before after : Bindings}
    {clauses : List String} (h : buildAll label items before = .ok (clauses, after)) :
    Builds label (.items items) before clauses after := by
  match items with
  | [] =>
      cases h
      exact .noItems _
  | item :: items =>
      obtain ⟨clause, middle, hclause, h⟩ := stateT_bind_eq_ok_iff.mp h
      obtain ⟨clauses, last, hclauses, h⟩ := stateT_bind_eq_ok_iff.mp h
      cases h
      exact .item (builds_filter label item hclause) (builds_items label items hclauses)

end

end Builds

/-! ## What is bound -/

/-- The operands of a field. -/
def fieldOperands : Json.Value → List Json.Value
  | .object entries => entries.map (·.2)
  | value => [value]

mutual

/-- The operands of a filter, in the order of the clause. -/
def operands : Json.Value → List Json.Value
  | .object entries => entryOperands entries
  | _ => []

/-- The operands of entries. -/
def entryOperands : List (String × Json.Value) → List Json.Value
  | [] => []
  | (key, value) :: rest =>
      (if isOp key "and" || isOp key "or" then
        match value with
        | .array items => itemOperands items
        | _ => []
      else if isOp key "not" then operands value
      else fieldOperands value) ++ entryOperands rest

/-- The operands of items. -/
def itemOperands : List Json.Value → List Json.Value
  | [] => []
  | item :: items => operands item ++ itemOperands items

end

/-- The operands of a source. -/
def Source.operands : Source → List Json.Value
  | .filter value => Mapper.operands value
  | .entries list => entryOperands list
  | .items list => itemOperands list

section Bound

variable {label field text : String} {source : Source} {value : Json.Value}
variable {before after : Bindings} {texts : List String}

theorem paramName_inj {number other : ℕ} :
    paramName label number = paramName label other ↔ number = other := by
  constructor
  · intro h
    have hdigits : Nat.toDigits 10 number = Nat.toDigits 10 other := by
      rw [← Nat.toList_repr, ← Nat.toList_repr]
      exact congrArg String.toList ((String.append_right_inj _).mp h)
    rw [← Nat.ofDigitChars_ten_toDigits (n := number), hdigits, Nat.ofDigitChars_ten_toDigits]
  · rintro rfl
    rfl

theorem boundAll_append (label : String) (first second : List Json.Value) (bindings : Bindings) :
    boundAll label (first ++ second) bindings =
      boundAll label second (boundAll label first bindings) :=
  List.foldl_append

theorem counter_boundAll (label : String) (operands : List Json.Value) (bindings : Bindings) :
    (boundAll label operands bindings).counter = bindings.counter + operands.length := by
  induction operands generalizing bindings with
  | nil => rfl
  | cons operand rest ih =>
      change (boundAll label rest (bound label operand bindings)).counter = _
      rw [ih, List.length_cons]
      change bindings.counter + 1 + rest.length = _
      omega

/-- The parameters that are bound, and those that are left alone. -/
theorem get_boundAll (label : String) (operands : List Json.Value) (bindings : Bindings)
    (name : String) :
    (∀ index operand, operands[index]? = some operand →
      name = paramName label (bindings.counter + index) →
        (boundAll label operands bindings).params.get name = some operand) ∧
    ((∀ index < operands.length, name ≠ paramName label (bindings.counter + index)) →
      (boundAll label operands bindings).params.get name = bindings.params.get name) := by
  induction operands generalizing bindings with
  | nil => exact ⟨nofun, fun _ => rfl⟩
  | cons first rest ih =>
      obtain ⟨hbound, hkept⟩ := ih (bound label first bindings)
      change _ ∧ (_ → (boundAll label rest (bound label first bindings)).params.get name = _)
      have hfirst : name ≠ paramName label bindings.counter →
          (bound label first bindings).params.get name = bindings.params.get name :=
        fun hne => (HashMap.get_put _ _ _ _).trans (if_neg hne)
      constructor
      · intro index operand hoperand hname
        cases index with
        | zero =>
            cases hoperand
            refine (hkept ?_).trans ?_
            · intro later _ hsame
              rw [hname, paramName_inj] at hsame
              change bindings.counter + 0 = bindings.counter + 1 + later at hsame
              omega
            · rw [hname]
              exact HashMap.get_put_self _ _ _
        | succ index =>
            refine hbound index operand hoperand ?_
            rw [hname]
            change paramName label (bindings.counter + (index + 1)) =
              paramName label (bindings.counter + 1 + index)
            rw [Nat.add_assoc bindings.counter 1 index, Nat.add_comm 1 index]
      · intro hothers
        refine (hkept ?_).trans (hfirst ?_)
        · intro index hindex hsame
          refine hothers (index + 1) (Nat.succ_lt_succ hindex) (hsame.trans ?_)
          change paramName label (bindings.counter + 1 + index) = _
          rw [Nat.add_assoc bindings.counter 1 index, Nat.add_comm 1 index]
        · exact hothers 0 (Nat.succ_pos _)

theorem validateIdentifier_eq_ok_iff {input : String} :
    validateIdentifier input = .ok () ↔
      input ≠ "" ∧ ∀ c ∈ input.toList, (isAsciiAlphanumeric c || c = '_' || c = '.') = true := by
  unfold validateIdentifier
  by_cases hempty : input = ""
  · simp [hempty]
  · rw [← List.all_eq_true]
    cases hall : input.toList.all fun c => isAsciiAlphanumeric c || c = '_' || c = '.' with
    | true => simp [hempty]
    | false => simp [hempty]

/-- A field is no operator. -/
theorem isOp_of_valid (h : validateIdentifier field = .ok ()) (op : String) :
    isOp field op = false := by
  refine decide_eq_false ?_
  rintro rfl
  have hdollar := (validateIdentifier_eq_ok_iff.mp h).2 '$' (by simp)
  exact absurd hdollar (by decide)

theorem BuildsField.after_eq (h : BuildsField label field value before text after) :
    after = boundAll label (fieldOperands value) before := by
  cases h with
  | none bindings => rfl
  | operators hentries _ => rfl
  | value hvalue bindings =>
      cases value with
      | object entries => cases hvalue
      | _ => rfl

theorem entryOperands_junction {key : String} (hkey : key = "$and" ∨ key = "$or")
    (items : List Json.Value) (rest : List (String × Json.Value)) :
    entryOperands ((key, .array items) :: rest) = itemOperands items ++ entryOperands rest := by
  rw [entryOperands, if_pos]
  rcases hkey with rfl | rfl <;> decide

theorem entryOperands_not (value : Json.Value) (rest : List (String × Json.Value)) :
    entryOperands (("$not", value) :: rest) = operands value ++ entryOperands rest := by
  rw [entryOperands.eq_def]
  dsimp only
  rw [if_neg (by decide), if_pos (by decide)]

theorem entryOperands_field (h : validateIdentifier field = .ok ()) (value : Json.Value)
    (rest : List (String × Json.Value)) :
    entryOperands ((field, value) :: rest) = fieldOperands value ++ entryOperands rest := by
  rw [entryOperands.eq_def]
  dsimp only
  rw [if_neg (by simp [isOp_of_valid h]), if_neg (by simp [isOp_of_valid h])]

/-- Every operand is bound, in the order of the clause. -/
theorem Builds.after_eq (h : Builds label source before texts after) :
    after = boundAll label source.operands before := by
  induction h with
  | empty bindings => rfl
  | object hparts ih => exact ih
  | noEntries bindings => rfl
  | all hclauses hrest ih ihrest =>
      rw [Source.operands, entryOperands_junction (.inl rfl), boundAll_append, ihrest, ih]
      rfl
  | any hclauses hrest ih ihrest =>
      rw [Source.operands, entryOperands_junction (.inr rfl), boundAll_append, ihrest, ih]
      rfl
  | not hclause hrest ih ihrest =>
      rw [Source.operands, entryOperands_not, boundAll_append, ihrest, ih]
      rfl
  | field hfield hclause hrest ihrest =>
      rw [Source.operands, entryOperands_field hfield, boundAll_append, ihrest, hclause.after_eq]
      rfl
  | noItems bindings => rfl
  | item hclause hclauses ih ihclauses =>
      rw [Source.operands, itemOperands, boundAll_append, ihclauses, ih]
      rfl

/-- Operands are bound to the parameters from a number on. -/
def Binds (params : NamedArgs) (label : String) (number : ℕ) (operands : List Json.Value) : Prop :=
  ∀ index operand, operands[index]? = some operand →
    params.get (paramName label (number + index)) = some operand

theorem Binds.append {params : NamedArgs} {number : ℕ} {first second : List Json.Value}
    (h : Binds params label number (first ++ second)) :
    Binds params label number first ∧ Binds params label (number + first.length) second := by
  constructor
  · intro index operand hoperand
    refine h index operand ?_
    rw [List.getElem?_append_left (List.getElem?_eq_some_iff.mp hoperand).1]
    exact hoperand
  · intro index operand hoperand
    rw [Nat.add_assoc]
    refine h (first.length + index) operand ?_
    rw [List.getElem?_append_right (Nat.le_add_right _ _), Nat.add_sub_cancel_left]
    exact hoperand

theorem binds_boundAll (label : String) (operands : List Json.Value) (bindings : Bindings) :
    Binds (boundAll label operands bindings).params label bindings.counter operands :=
  fun index operand hoperand =>
    (get_boundAll label operands bindings _).1 index operand hoperand rfl

/-- The counter after the clauses of a source. -/
theorem Builds.counter_after (h : Builds label source before texts after) :
    after.counter = before.counter + source.operands.length := by
  rw [h.after_eq, counter_boundAll]

end Bound

section Words

open Condition

variable {label : String}

theorem delimiter_of_alphanumeric {c : Char}
    (h : (isAsciiAlphanumeric c || c = '_' || c = '.') = true) : delimiter c = none := by
  have hne : ∀ other : Char, (isAsciiAlphanumeric other || other = '_' || other = '.') = false →
      c ≠ other := by
    rintro other hother rfl
    exact Bool.false_ne_true (hother.symm.trans h)
  rw [delimiter, if_neg (hne ' ' (by decide)), if_neg (hne '(' (by decide)),
    if_neg (hne ')' (by decide))]

theorem isWord_of_valid {field : String} (h : validateIdentifier field = .ok ()) :
    IsWord field := by
  obtain ⟨hne, hall⟩ := validateIdentifier_eq_ok_iff.mp h
  exact ⟨hne, fun c hc => delimiter_of_alphanumeric (hall c hc)⟩

/-- Nothing in a label ends a word. -/
def PlainLabel (label : String) : Prop := ∀ c ∈ label.toList, delimiter c = none

theorem plainLabel_sanitizePrefix (label : String) : PlainLabel (sanitizePrefix label) := by
  intro c hc
  rw [sanitizePrefix, String.toList_ofList] at hc
  obtain ⟨original, _, rfl⟩ := List.mem_map.mp hc
  apply delimiter_of_alphanumeric
  split
  case isTrue halphanumeric => simp [halphanumeric]
  case isFalse => rfl

theorem isWord_placeholder (hlabel : PlainLabel label) (number : ℕ) :
    IsWord (placeholder (paramName label number)) := by
  constructor
  · intro h
    have hlist := congrArg String.toList h
    simp [placeholder] at hlist
  · intro c hc
    have hchars : (placeholder (paramName label number)).toList =
        '$' :: (label.toList ++ '_' :: Nat.toDigits 10 number) := by
      simp [placeholder, paramName, Nat.toString_eq_repr, Nat.toList_repr]
    rw [hchars, List.mem_cons, List.mem_append, List.mem_cons] at hc
    rcases hc with rfl | hc | rfl | hc
    · rfl
    · exact hlabel c hc
    · rfl
    · apply delimiter_of_alphanumeric
      have hdigit : ('0' ≤ c && c ≤ '9') = true :=
        Nat.isDigit_of_mem_toDigits (by decide) (by decide) hc
      rw [isAsciiAlphanumeric, hdigit]
      rfl

theorem comparator_of_operatorOf {op comparator : String} {denied : Bool}
    (h : operatorOf op = some (comparator, denied)) : comparator ∈ comparators := by
  unfold operatorOf at h
  split_ifs at h <;> cases h <;> decide

theorem lex_comparison {field comparator name : String}
    (hfield : validateIdentifier field = .ok ()) (hcomparator : comparator ∈ comparators)
    (hname : IsWord (placeholder name)) :
    lex (comparisonText field comparator name) = [field, comparator, placeholder name] := by
  rw [comparisonText, lex_append_space, lex_append_space, lex_word (isWord_of_valid hfield),
    lex_word (isWord_comparator hcomparator), lex_word hname]
  rfl

end Words

end Mapper

end Soulbase.Storage
