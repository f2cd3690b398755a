/-
# Masked bodies

The obligations of a decision mask and remove what is at the dotted paths they name and write a
watermark at the top of the body. Each is an edit at one place, and the stage stops at the first
that fails, so where it succeeds its obligations are edits one after the other. What is at a
masked or removed path makes no difference then, and nothing apart from the paths and the watermark
is changed.
-/

import Soulbase.Interceptors.ResponseStages
import Soulbase.Json.Places

namespace Soulbase.Interceptors

open Soulbase.Foundation Soulbase.Errors
open Soulbase.Auth (Obligation)
open Soulbase.Json (nesting)

/-- Some obligation to mask or to redact names the path. -/
def Names (obligations : List Obligation) (path : List String) : Prop :=
  ∃ obligation ∈ obligations,
    (obligation.kind = "mask" ∨ obligation.kind = "redact") ∧
      pathSegments obligation "path" = .ok path

/-- The places that an obligation edits. -/
def editedPlaces (obligation : Obligation) : List (List String) :=
  match obligation.kind with
  | "mask" | "redact" => (pathSegments obligation "path").toOption.toList
  | "watermark" => [["__watermark"]]
  | _ => []

variable {obligations : List Obligation} {obligation : Obligation} {path place : List String}
variable {body edited : Json.Value}

theorem mem_editedPlaces_of_names (h : Names obligations path) :
    path ∈ obligations.flatMap editedPlaces := by
  obtain ⟨obligation, hmem, hkind, hpath⟩ := h
  refine List.mem_flatMap.mpr ⟨obligation, hmem, ?_⟩
  rcases hkind with hkind | hkind <;> simp [editedPlaces, hkind, hpath, Except.toOption]

theorem names_or_eq_of_mem_editedPlaces (h : place ∈ obligations.flatMap editedPlaces) :
    Names obligations place ∨ place = ["__watermark"] := by
  obtain ⟨obligation, hmem, hplace⟩ := List.mem_flatMap.mp h
  have hpath : place ∈ (pathSegments obligation "path").toOption.toList →
      pathSegments obligation "path" = .ok place := by
    cases pathSegments obligation "path" with
    | error error => simp [Except.toOption]
    | ok path => simp [Except.toOption, eq_comm]
  unfold editedPlaces at hplace
  split at hplace
  case h_1 hkind => exact .inl ⟨obligation, hmem, .inl hkind, hpath hplace⟩
  case h_2 hkind => exact .inl ⟨obligation, hmem, .inr hkind, hpath hplace⟩
  case h_3 => exact .inr (List.mem_singleton.mp hplace)
  case h_4 => cases hplace

theorem rewrites_mask (replacement : String) (path : List String) :
    nesting.Rewrites Json.Value.Ordered [path]
      (Json.descendMut (fun _ => .string replacement) path) :=
  (Nesting.editsAt_replace Json.hereditary_ordered (.string replacement) path).rewrites.of_imp
    Json.replace_of_descendMut

theorem rewrites_redact (path : List String) :
    nesting.Rewrites Json.Value.Ordered [path] (Json.removePath path) := by
  rcases List.eq_nil_or_concat path with rfl | ⟨front, key, rfl⟩
  · refine (Nesting.editsAt_replace Json.hereditary_ordered .null []).rewrites.of_imp ?_
    intro body edited h
    rw [Json.removePath_nil] at h
    cases h
  · rw [List.concat_eq_append]
    have hedits := (Json.actsUnder_removeUnder key).editsAt.along Json.hereditary_ordered front
    exact hedits.rewrites.of_imp Json.edit_of_removePath

theorem rewrites_watermark (mark : String) :
    nesting.Rewrites Json.Value.Ordered [["__watermark"]]
      (Json.insertUnder "__watermark" (.string mark)) :=
  (Json.actsUnder_insertUnder "__watermark" (.string mark)).editsAt.rewrites

/-- An edit at the path that an obligation names. -/
theorem rewrites_at_path {act : List String → Json.Value → Option Json.Value}
    (hact : ∀ path, nesting.Rewrites Json.Value.Ordered [path] (act path))
    (obligation : Obligation) :
    nesting.Rewrites Json.Value.Ordered (pathSegments obligation "path").toOption.toList
      fun body => (pathSegments obligation "path").toOption.bind (act · body) := by
  cases pathSegments obligation "path" with
  | error error => exact Nesting.Rewrites.skip.of_imp fun h => by cases h
  | ok path => exact hact path

theorem toOption_mask (hkind : obligation.kind = "mask") (body : Json.Value) :
    (applyObligation body obligation).toOption =
      (pathSegments obligation "path").toOption.bind
        (Json.descendMut (fun _ => .string (replacement obligation)) · body) := by
  simp only [applyObligation, hkind]
  cases pathSegments obligation "path" with
  | error error => rfl
  | ok path =>
      change _ = Json.descendMut (fun _ => .string (replacement obligation)) path body
      dsimp only
      cases Json.descendMut (fun _ => .string (replacement obligation)) path body with
      | none => rfl
      | some edited => rfl

theorem toOption_redact (hkind : obligation.kind = "redact") (body : Json.Value) :
    (applyObligation body obligation).toOption =
      (pathSegments obligation "path").toOption.bind (Json.removePath · body) := by
  simp only [applyObligation, hkind]
  cases pathSegments obligation "path" with
  | error error => rfl
  | ok path =>
      change _ = Json.removePath path body
      dsimp only
      cases Json.removePath path body with
      | none => rfl
      | some edited => rfl

theorem toOption_watermark (hkind : obligation.kind = "watermark") (body : Json.Value) :
    (applyObligation body obligation).toOption =
      Json.insertUnder "__watermark"
        (.string (((obligation.params.get "value").bind (·.asStr)).getD "watermark")) body := by
  simp only [applyObligation, hkind]
  cases body <;> rfl

theorem rewrites_applyObligation (obligation : Obligation) :
    nesting.Rewrites Json.Value.Ordered (editedPlaces obligation) fun body =>
      (applyObligation body obligation).toOption := by
  by_cases hmask : obligation.kind = "mask"
  · simp only [toOption_mask hmask, editedPlaces, hmask]
    exact rewrites_at_path (rewrites_mask _) obligation
  · by_cases hredact : obligation.kind = "redact"
    · simp only [toOption_redact hredact, editedPlaces, hredact]
      exact rewrites_at_path rewrites_redact obligation
    · by_cases hwatermark : obligation.kind = "watermark"
      · simp only [toOption_watermark hwatermark, editedPlaces, hwatermark]
        exact rewrites_watermark _
      · have hplaces : editedPlaces obligation = [] := by
          unfold editedPlaces
          split <;> first | contradiction | rfl
        have hkept : ∀ body, applyObligation body obligation = .ok body := by
          intro body
          unfold applyObligation
          split <;> first | contradiction | rfl
        simp only [hplaces, hkept]
        exact Nesting.Rewrites.skip

/-- The obligations edit one after the other. -/
theorem rewrites_applyObligations (obligations : List Obligation) :
    nesting.Rewrites Json.Value.Ordered (obligations.flatMap editedPlaces) fun body =>
      (applyObligations obligations body).toOption := by
  induction obligations with
  | nil => exact Nesting.Rewrites.skip
  | cons obligation obligations ih =>
      refine ((rewrites_applyObligation obligation).andThen ih).of_imp fun {body edited} h => ?_
      rw [applyObligations] at h
      cases happly : applyObligation body obligation with
      | error error =>
          rw [happly] at h
          cases h
      | ok next =>
          rw [happly] at h
          exact h

namespace ObligationsStage

/-- The stage succeeds on a body and leaves another one. -/
inductive Edits (obligations : List Obligation) (body edited : Json.Value) : Prop
  | intro {cx after : InterceptContext} :
      cx.obligations = obligations → cx.responseBody.getD .null = body →
        handleResponse cx = .done (.ok (), after) →
          after.responseBody.getD .null = edited → Edits obligations body edited

theorem applyObligations_of_applyEach {cx after : InterceptContext}
    (h : applyEach obligations cx = (.ok (), after)) :
    applyObligations obligations (cx.responseBody.getD .null) =
      .ok (after.responseBody.getD .null) := by
  induction obligations generalizing cx with
  | nil =>
      cases h
      rfl
  | cons obligation obligations ih =>
      rw [applyEach] at h
      rw [applyObligations]
      cases happly : applyObligation (cx.responseBody.getD .null) obligation with
      | error error =>
          rw [happly] at h
          cases h
      | ok edited =>
          rw [happly] at h
          exact ih h

theorem Edits.applyObligations (h : Edits obligations body edited) :
    applyObligations obligations body = .ok edited := by
  obtain @⟨cx, after, rfl, rfl, hrun, rfl⟩ := h
  have heach : applyEach cx.obligations cx = (.ok (), after) := Program.done.inj hrun
  exact applyObligations_of_applyEach heach

/-- Where the stage succeeds on two bodies that differ at a path of its obligations only, it
leaves the same, and what is apart from the paths and the watermark stays as it is. -/
theorem hides (obligations : List Obligation) :
    (∀ path first second left right, Names obligations path → first.Ordered → second.Ordered →
      nesting.DiffersAt path first second → Edits obligations first left →
        Edits obligations second right → left = right) ∧
    ∀ body edited, Edits obligations body edited →
      ∀ place, (∀ path, Names obligations path → Elsewhere place path) →
        Elsewhere place ["__watermark"] → nesting.find place edited = nesting.find place body := by
  have hrewrites := rewrites_applyObligations obligations
  constructor
  · intro path first second left right hnames hfirst hsecond hdiff hleft hright
    refine hrewrites.hides hfirst hsecond (mem_editedPlaces_of_names hnames) hdiff ?_ ?_
    · rw [hleft.applyObligations]
      rfl
    · rw [hright.applyObligations]
      rfl
  · intro body edited hedits place hpaths hwatermark
    refine hrewrites.frame (fun other hother => ?_) (by rw [hedits.applyObligations]; rfl)
    rcases names_or_eq_of_mem_editedPlaces hother with hnames | rfl
    · exact hpaths other hnames
    · exact hwatermark

end ObligationsStage

end Soulbase.Interceptors
