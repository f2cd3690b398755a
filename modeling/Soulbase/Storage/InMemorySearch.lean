/-
# The in-memory search

`InMemorySearch` looks through the documents of a table for those of a tenant whose title, or else
whose name, contains the query. It reads every document that matches as an entity before it cuts
the list to the limit, so one that cannot be read fails the search, wherever it stands.
-/

import Soulbase.Foundation.Text
import Soulbase.Storage.InMemoryGraph

namespace Soulbase.Storage.InMemorySearch

open Soulbase.Foundation InMemoryGraph

variable {T : Type}

/-- The text that is searched. A title that is no text hides the name. -/
def textOf (value : Json.Value) : String :=
  (((value.get "title").or (value.get "name")).bind Json.Value.asStr).getD ""

/-- The loop of `search`. -/
def gather (entity : Entity T) (tenant : TenantId) (query : String) :
    List T → List Json.Value → StorageResult (List T)
  | found, [] => .ok found
  | found, value :: rest =>
      if isOf tenant value then
        if Text.contains (textOf value) query then do
          let doc ← entity.deserialize value
          gather entity tenant query (found ++ [doc]) rest
        else gather entity tenant query found rest
      else gather entity tenant query found rest

/-- `InMemorySearch::search`, for an order in which the table yields its documents. -/
def search (entity : Entity T) (documents : Documents) (order : List String) (tenant : TenantId)
    (query : String) (limit : ℕ) : StorageResult (Page T) :=
  if Text.trim query = "" then .ok { items := [], next := none }
  else do
    let found ← gather entity tenant query [] (documents.valuesIn order)
    return { items := found.take limit, next := none }

/-- Whether a document is found. -/
def matched (tenant : TenantId) (query : String) (value : Json.Value) : Bool :=
  isOf tenant value && Text.contains (textOf value) query

/-- The loop reads the documents that match, in their order. -/
theorem gather_eq (entity : Entity T) (tenant : TenantId) (query : String) (found : List T)
    (values : List Json.Value) :
    gather entity tenant query found values =
      ((values.filter (matched tenant query)).mapM entity.deserialize).map (found ++ ·) := by
  induction values generalizing found with
  | nil => simp [gather, Except.map, pure, Except.pure]
  | cons value rest ih =>
      rw [gather]
      by_cases hmatched : matched tenant query value = true
      · rw [List.filter_cons_of_pos hmatched, List.mapM_cons]
        obtain ⟨hof, hcontains⟩ := Bool.and_eq_true_iff.mp hmatched
        rw [if_pos hof, if_pos hcontains]
        cases entity.deserialize value with
        | error err => rfl
        | ok doc =>
            show gather entity tenant query (found ++ [doc]) rest = _
            rw [ih]
            cases (rest.filter (matched tenant query)).mapM entity.deserialize with
            | error err => rfl
            | ok docs => exact congrArg Except.ok (List.append_assoc _ _ _)
      · rw [List.filter_cons_of_neg hmatched, ih found]
        split
        case isTrue hof =>
          rw [if_neg fun hcontains => hmatched (Bool.and_eq_true_iff.mpr ⟨hof, hcontains⟩)]
        case isFalse => rfl

end Soulbase.Storage.InMemorySearch
