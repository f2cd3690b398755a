/-
# Masked outputs

The obligations to mask and to drop fields overwrite what is at the pointers that they list. A
pointer that finds nothing is passed over, and one obligation may overwrite what another would
have found. Every list of obligations is a list of places to overwrite, so what is at a listed
place makes no difference, and nothing apart from the listed places is changed.
-/

import Soulbase.Json.Places
import Soulbase.Tools.Invoker

namespace Soulbase.Tools

open Soulbase.Foundation
open Soulbase.Auth (Obligation)
open Soulbase.Json (nesting pointerPlace)

/-- Some obligation to mask or to drop fields lists the pointer. -/
def Lists (obligations : List Obligation) (pointer : String) : Prop :=
  ∃ obligation ∈ obligations,
    (obligation.kind = "mask_fields" ∨ obligation.kind = "drop_fields") ∧
      pointer ∈ obligationPaths obligation

/-- What an obligation writes over the fields that it lists. -/
def fieldCover (obligation : Obligation) : Option Json.Value :=
  match obligation.kind with
  | "mask_fields" => some (.string "***")
  | "drop_fields" => some .null
  | _ => none

/-- The places that an obligation overwrites, with what it writes there. -/
def overwrites (obligation : Obligation) : List (List String × Json.Value) :=
  (fieldCover obligation).toList.flatMap fun cover =>
    (obligationPaths obligation).filterMap fun pointer => (pointerPlace pointer).map (·, cover)

variable {obligations : List Obligation} {obligation : Obligation} {place : List String}

theorem fieldCover_isSome_iff :
    (fieldCover obligation).isSome ↔
      obligation.kind = "mask_fields" ∨ obligation.kind = "drop_fields" := by
  unfold fieldCover
  split <;> simp_all

theorem mem_overwrites_iff :
    place ∈ (obligations.flatMap overwrites).map (·.1) ↔
      ∃ pointer, Lists obligations pointer ∧ pointerPlace pointer = some place := by
  simp only [overwrites, Lists, ← fieldCover_isSome_iff, List.mem_map, List.mem_flatMap,
    List.mem_filterMap, Option.mem_toList, Option.map_eq_some_iff, Option.isSome_iff_exists]
  constructor
  · rintro ⟨_, ⟨obligation, hmem, cover, hcover, pointer, hpointer, place, hplace, rfl⟩, rfl⟩
    exact ⟨pointer, ⟨obligation, hmem, ⟨cover, hcover⟩, hpointer⟩, hplace⟩
  · rintro ⟨pointer, ⟨obligation, hmem, ⟨cover, hcover⟩, hpointer⟩, hplace⟩
    exact ⟨(place, cover),
      ⟨obligation, hmem, cover, hcover, pointer, hpointer, place, hplace, rfl⟩, rfl⟩

theorem assignAll_eq (assigned value : Json.Value) (pointers : List String) :
    assignAll assigned value pointers =
      nesting.overwriteAll
        (pointers.filterMap fun pointer => (pointerPlace pointer).map (·, assigned)) value := by
  induction pointers generalizing value with
  | nil => rfl
  | cons pointer pointers ih =>
      have hrest : assignAll assigned value (pointer :: pointers) =
          assignAll assigned (Json.assignAt value pointer assigned) pointers := rfl
      rw [hrest, ih, Json.assignAt_eq]
      cases hplace : pointerPlace pointer with
      | none => rw [List.filterMap_cons_none (by rw [hplace]; rfl), Option.bind_none]; rfl
      | some place =>
          rw [List.filterMap_cons_some (by rw [hplace]; rfl), Option.bind_some]
          rfl

theorem applyObligation_eq (value : Json.Value) (obligation : Obligation) :
    applyObligation value obligation = nesting.overwriteAll (overwrites obligation) value := by
  have hcover : ∀ cover, fieldCover obligation = some cover →
      nesting.overwriteAll (overwrites obligation) value =
        assignAll cover value (obligationPaths obligation) := by
    intro cover hcover
    rw [assignAll_eq, overwrites, hcover, Option.toList_some, List.flatMap_singleton]
  unfold applyObligation
  split
  case h_1 hkind => exact (hcover _ (by simp [fieldCover, hkind])).symm
  case h_2 hkind => exact (hcover _ (by simp [fieldCover, hkind])).symm
  case h_3 hmask hdrop =>
    have hnone : fieldCover obligation = none := by
      unfold fieldCover
      split <;> simp_all
    rw [overwrites, hnone]
    rfl

theorem foldl_applyObligation (value : Json.Value) (obligations : List Obligation) :
    obligations.foldl applyObligation value =
      nesting.overwriteAll (obligations.flatMap overwrites) value := by
  induction obligations generalizing value with
  | nil => rfl
  | cons obligation obligations ih =>
      rw [List.foldl_cons, ih, applyObligation_eq, List.flatMap_cons, Nesting.overwriteAll,
        Nesting.overwriteAll, Nesting.overwriteAll, List.foldl_append]

theorem applyObligations_eq (value : Json.Value) (obligations : List Obligation) :
    applyObligations value obligations =
      .ok (nesting.overwriteAll (obligations.flatMap overwrites) value) :=
  congrArg Except.ok (foldl_applyObligation value obligations)

/-- Two outputs that differ at a listed pointer only become the same, nothing is changed apart
from the listed pointers, and once is enough. -/
theorem applyObligations_hides (obligations : List Obligation) :
    (∀ pointer place first second, Lists obligations pointer →
      pointerPlace pointer = some place → nesting.DiffersAt place first second →
        ∃ edited, applyObligations first obligations = .ok edited ∧
          applyObligations second obligations = .ok edited) ∧
    ∀ output edited, applyObligations output obligations = .ok edited →
      (∀ place, (∀ pointer listed, Lists obligations pointer →
          pointerPlace pointer = some listed → Elsewhere place listed) →
        nesting.find place edited = nesting.find place output) ∧
      applyObligations edited obligations = .ok edited := by
  constructor
  · intro pointer place first second hlists hplace hdiff
    refine ⟨_, applyObligations_eq first obligations, ?_⟩
    rw [applyObligations_eq,
      Nesting.overwriteAll_eq (mem_overwrites_iff.mpr ⟨pointer, hlists, hplace⟩) hdiff]
  · intro output edited h
    rw [applyObligations_eq] at h
    obtain rfl := Except.ok.inj h
    constructor
    · intro place hapart
      refine (nesting.rewrites_overwriteAll (obligations.flatMap overwrites)).frame ?_ rfl
      intro listed hlisted
      obtain ⟨pointer, hlists, hpointer⟩ := mem_overwrites_iff.mp hlisted
      exact hapart pointer listed hlists hpointer
    · rw [applyObligations_eq, Nesting.overwriteAll_overwriteAll]

end Soulbase.Tools
