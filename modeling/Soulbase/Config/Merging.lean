/-
# Layers of sources

`merge_maps` descends where both maps have an object under a key, and replaces the value where one
has not. A load folds it over the maps of its sources, in their order.

`mergeSources_layered` says what the fold leaves at a path: the leaf of the last source that has
anything at the path, unless a later one has a leaf above it, and an object where some source has
one and no later source has a leaf there or above.
-/

import Soulbase.Config.ChangedKeys

namespace Soulbase.Config

open Soulbase.Json (Value)
open Soulbase.Json.Value (find leafAt)

/-- `SourceSnapshot`, without its provenance. -/
structure SourceSnapshot where
  map : ConfigMap
  ordered : (Value.object map).Ordered

mutual

/-- `merge_maps`. -/
def mergeMaps : ConfigMap → List (String × ConfigValue) → ConfigMap
  | base, [] => base
  | base, (key, value) :: overlay =>
      mergeMaps (Json.Map.insert base key (mergeEntry (Json.Map.get base key) value)) overlay

/-- What the loop of `merge_maps` leaves under a key. -/
def mergeEntry : Option ConfigValue → ConfigValue → ConfigValue
  | some (.object baseObj), .object overlayObj => .object (mergeMaps baseObj overlayObj)
  | _, value => value

end

/-- The loop of `Loader::load_with_prev` over what its sources have answered. -/
def mergeSources (sources : List SourceSnapshot) : ConfigMap :=
  sources.foldl (fun merged snap => mergeMaps merged snap.map) []

/-- The value at a path of keys. The map itself is no value. -/
def valueAt (map : ConfigMap) : List String → Option ConfigValue
  | [] => none
  | key :: path => (Json.Map.get map key).bind (find path)

/-- A value at the path that is no object. -/
def HasLeaf (map : ConfigMap) (path : List String) : Prop :=
  ∃ leaf, valueAt map path = some leaf ∧ leaf.isObject = false

/-- An object at the path. -/
def HasObject (map : ConfigMap) (path : List String) : Prop :=
  ∃ child, valueAt map path = some (.object child)

/-- Some value at the path, or a leaf above it. -/
def Overrides (map : ConfigMap) (path : List String) : Prop :=
  (valueAt map path).isSome ∨ ∃ front, front <+: path ∧ front ≠ path ∧ HasLeaf map front

/-- A leaf at the path or above it. -/
def Ends (map : ConfigMap) (path : List String) : Prop :=
  ∃ front, front <+: path ∧ HasLeaf map front

/-- At every path there is the leaf of a source that no later one overrides, or an object of a
source that no later one ends. -/
structure Layered (sources : List SourceSnapshot) (merged : ConfigMap) : Prop where
  leaf : ∀ path leaf, leaf.isObject = false → (valueAt merged path = some leaf ↔
    ∃ earlier snap later, sources = earlier ++ snap :: later ∧
      valueAt snap.map path = some leaf ∧ ∀ other ∈ later, ¬Overrides other.map path)
  object : ∀ path, HasObject merged path ↔
    ∃ earlier snap later, sources = earlier ++ snap :: later ∧
      HasObject snap.map path ∧ ∀ other ∈ later, ¬Ends other.map path

section Keys

variable {base overlay : ConfigMap}

theorem mergeEntry_none (value : ConfigValue) : mergeEntry none value = value := by
  cases value <;> rfl

/-- What a merge leaves under a key. -/
theorem get_mergeMaps (h : Json.Map.Sorted overlay) (base : ConfigMap) (key : String) :
    Json.Map.get (mergeMaps base overlay) key =
      ((Json.Map.get overlay key).map (mergeEntry (Json.Map.get base key))).or
        (Json.Map.get base key) := by
  induction overlay generalizing base with
  | nil => rfl
  | cons entry rest ih =>
      obtain ⟨name, value⟩ := entry
      rw [mergeMaps, ih h.of_cons, Json.Map.get, Json.Map.get_insert]
      by_cases hname : name = key
      · subst hname
        rw [h.get_rest, if_pos rfl, if_pos rfl]
        rfl
      · rw [if_neg hname, if_neg (Ne.symm hname)]

end Keys

section Paths

variable {held value merged leaf : ConfigValue} {map : ConfigMap} {path : List String}
variable {key : String}

/-- A leaf at the path or above it. -/
def Stops (value : ConfigValue) (path : List String) : Prop :=
  ∃ front, front <+: path ∧ (leafAt front value).isSome

theorem stops_of_leaf (h : value.isObject = false) (path : List String) : Stops value path := by
  refine ⟨[], List.nil_prefix, ?_⟩
  rw [Value.leafAt_nil, h]
  rfl

theorem stops_of_leafAt (h : (leafAt path value).isSome) : Stops value path :=
  ⟨path, List.prefix_rfl, h⟩

theorem not_stops_nil : ¬Stops (.object map) [] := by
  rintro ⟨front, hle, hleaf⟩
  rw [List.prefix_nil.mp hle, Value.leafAt_nil] at hleaf
  cases hleaf

theorem stops_cons_iff : Stops (.object map) (key :: path) ↔
    ∃ value, Json.Map.get map key = some value ∧ Stops value path := by
  constructor
  · rintro ⟨front, hle, hleaf⟩
    rcases List.prefix_cons_iff.mp hle with rfl | ⟨rest, rfl, hrest⟩
    · rw [Value.leafAt_nil] at hleaf
      cases hleaf
    · rw [Value.leafAt_cons_object, Option.isSome_iff_exists] at hleaf
      obtain ⟨leaf, hleaf⟩ := hleaf
      obtain ⟨value, hget, hvalue⟩ := Option.bind_eq_some_iff.mp hleaf
      exact ⟨value, hget, rest, hrest, Option.isSome_of_eq_some hvalue⟩
  · rintro ⟨value, hget, front, hle, hleaf⟩
    refine ⟨key :: front, List.cons_prefix_cons.mpr ⟨rfl, hle⟩, ?_⟩
    rw [Value.leafAt_cons_object, hget]
    exact hleaf

/-- What is at a path of a merge: what the upper value has, where it stops there or above, an
object, where it has one, and else what the lower value has. -/
inductive MergedAt (held value merged : ConfigValue) (path : List String) : Prop
  | upper : Stops value path → find path merged = find path value → MergedAt held value merged path
  | both : ¬Stops value path → (∃ child, find path value = some (.object child)) →
      (∃ child, find path merged = some (.object child)) → MergedAt held value merged path
  | lower : ¬Stops value path → find path value = none → find path merged = find path held →
      MergedAt held value merged path

/-- Where the upper value is left as it is, nothing is there of the lower one. -/
theorem MergedAt.of_same (hmerged : find path merged = find path value)
    (hheld : find path held = none) : MergedAt held value merged path := by
  by_cases hstops : Stops value path
  · exact .upper hstops hmerged
  · cases hvalue : find path value with
    | none => exact .lower hstops hvalue (by rw [hmerged, hvalue, hheld])
    | some found =>
        cases hobject : found.isObject with
        | false =>
            have hleaf := Value.leafAt_eq_some_iff.mpr ⟨hvalue, hobject⟩
            exact absurd (stops_of_leafAt (Option.isSome_of_eq_some hleaf)) hstops
        | true =>
            cases found with
            | object child => exact .both hstops ⟨child, hvalue⟩ ⟨child, hmerged.trans hvalue⟩
            | _ => cases hobject

theorem mergeEntry_of_leaf (h : value.isObject = false) (held : Option ConfigValue) :
    mergeEntry held value = value := by
  cases held with
  | none => exact mergeEntry_none value
  | some held =>
      cases value with
      | object map => cases h
      | _ => cases held <;> rfl

theorem mergeEntry_of_held_leaf (h : held.isObject = false) (value : ConfigValue) :
    mergeEntry (some held) value = value := by
  cases held with
  | object map => cases h
  | _ => cases value <;> rfl

/-- Under a key that both have, the values there are merged. -/
theorem mergedAt_cons {base overlay : ConfigMap} (h : (Value.object overlay).Ordered)
    (ih : ∀ {value : ConfigValue}, value.Ordered → ∀ held,
      MergedAt held value (mergeEntry (some held) value) path) :
    MergedAt (.object base) (.object overlay)
      (mergeEntry (some (.object base)) (.object overlay)) (key :: path) := by
  have hget : find (key :: path) (mergeEntry (some (.object base)) (.object overlay)) =
      (((Json.Map.get overlay key).map (mergeEntry (Json.Map.get base key))).or
        (Json.Map.get base key)).bind (find path) := by
    cases h with
    | object hsorted _ => rw [← get_mergeMaps hsorted base key]; rfl
  cases hover : Json.Map.get overlay key with
  | none =>
      refine .lower ?_ ?_ ?_
      · rw [stops_cons_iff, hover]
        rintro ⟨value, hnone, -⟩
        cases hnone
      · rw [find, hover]
        rfl
      · rw [hget, hover]
        rfl
  | some value =>
      have hvalue : find (key :: path) (.object overlay) = find path value := by
        rw [find, hover]
        rfl
      cases hbase : Json.Map.get base key with
      | none =>
          apply MergedAt.of_same
          · rw [hget, hover, hbase, hvalue, Option.map_some, mergeEntry_none]
            rfl
          · rw [find, hbase]
            rfl
      | some held =>
          have hstops : Stops (.object overlay) (key :: path) ↔ Stops value path := by
            rw [stops_cons_iff, hover]
            simp
          have hheld : find (key :: path) (.object base) = find path held := by
            rw [find, hbase]
            rfl
          have hmerged : find (key :: path) (mergeEntry (some (.object base)) (.object overlay)) =
              find path (mergeEntry (some held) value) := by
            rw [hget, hover, hbase]
            rfl
          cases ih (h.of_get hover) held with
          | upper hat heq =>
              exact .upper (hstops.mpr hat) (by rw [hmerged, hvalue, heq])
          | both hnot hchild hboth =>
              exact .both (mt hstops.mp hnot) (by rwa [hvalue]) (by rwa [hmerged])
          | lower hnot hnone heq =>
              exact .lower (mt hstops.mp hnot) (by rwa [hvalue]) (by rw [hmerged, hheld, heq])

/-- So it is at every path. -/
theorem mergedAt_mergeEntry (h : value.Ordered) (held : ConfigValue) (path : List String) :
    MergedAt held value (mergeEntry (some held) value) path := by
  induction path generalizing held value with
  | nil =>
      cases hobject : value.isObject with
      | false => exact .upper (stops_of_leaf hobject _) (by rw [mergeEntry_of_leaf hobject])
      | true =>
          cases value with
          | object overlay =>
              refine .both not_stops_nil ⟨overlay, rfl⟩ ?_
              cases held with
              | object base => exact ⟨mergeMaps base overlay, rfl⟩
              | _ => exact ⟨overlay, congrArg some (mergeEntry_of_held_leaf rfl _)⟩
          | _ => cases hobject
  | cons key path ih =>
      cases hobject : value.isObject with
      | false => exact .upper (stops_of_leaf hobject _) (by rw [mergeEntry_of_leaf hobject])
      | true =>
          cases hheld : held.isObject with
          | false =>
              rw [mergeEntry_of_held_leaf hheld]
              exact .of_same rfl (Value.find_of_not_isObject hheld)
          | true =>
              cases value with
              | object overlay =>
                  cases held with
                  | object base => exact mergedAt_cons h ih
                  | _ => cases hheld
              | _ => cases hobject

end Paths

/-! ## The last layer that counts -/

/-- Where every layer brings something, bars what is below it, or does neither, it is there in the
end iff some layer brings it and no later one bars it. -/
theorem foldl_iff_last {α β : Type*} {step : β → α → β} {start : β} (holds : β → Prop)
    (brings bars : α → Prop) {layers : List α} (hstart : ¬holds start)
    (hstep : ∀ merged, ∀ layer ∈ layers,
      holds (step merged layer) ↔ brings layer ∨ holds merged ∧ ¬bars layer) :
    holds (layers.foldl step start) ↔ ∃ earlier layer later,
      layers = earlier ++ layer :: later ∧ brings layer ∧ ∀ other ∈ later, ¬bars other := by
  induction layers using List.reverseRecOn with
  | nil => simp [hstart]
  | append_singleton layers last ih =>
      have hlayers := ih fun merged layer hlayer =>
        hstep merged layer (List.mem_append_left _ hlayer)
      rw [List.foldl_append, List.foldl_cons, List.foldl_nil, hstep _ last (by simp), hlayers]
      constructor
      · rintro (hbrings | ⟨⟨earlier, layer, later, rfl, hbrings, hlater⟩, hlast⟩)
        · exact ⟨layers, last, [], rfl, hbrings, fun _ h => absurd h List.not_mem_nil⟩
        · refine ⟨earlier, layer, later ++ [last], by simp, hbrings, fun other hother => ?_⟩
          rcases List.mem_append.mp hother with hother | hother
          · exact hlater other hother
          · rwa [List.mem_singleton.mp hother]
      · rintro ⟨earlier, layer, later, heq, hbrings, hlater⟩
        rcases List.eq_nil_or_concat later with rfl | ⟨front, other, rfl⟩
        · obtain ⟨-, heq⟩ := List.append_inj' heq rfl
          rw [List.singleton_inj.mp heq]
          exact .inl hbrings
        · rw [List.concat_eq_append, ← List.cons_append, ← List.append_assoc] at heq
          obtain ⟨rfl, hother⟩ := List.append_inj' heq rfl
          rw [List.concat_eq_append] at hlater
          refine .inr ⟨⟨earlier, layer, front, rfl, hbrings, fun between hmem => ?_⟩, ?_⟩
          · exact hlater between (List.mem_append_left _ hmem)
          · rw [List.singleton_inj.mp hother]
            exact hlater other (by simp)

section Layers

variable {map base : ConfigMap} {path : List String}

theorem valueAt_eq_find (hne : path ≠ []) : valueAt map path = find path (.object map) := by
  cases path with
  | nil => exact absurd rfl hne
  | cons key path => rfl

theorem hasLeaf_iff : HasLeaf map path ↔ (leafAt path (.object map)).isSome := by
  rw [Option.isSome_iff_exists]
  simp only [HasLeaf, Value.leafAt_eq_some_iff]
  cases path with
  | nil =>
      constructor
      · rintro ⟨leaf, hnone, -⟩
        cases hnone
      · rintro ⟨leaf, hroot, hobject⟩
        obtain rfl := Option.some.inj hroot
        cases hobject
  | cons key path => exact Iff.rfl

theorem ends_iff : Ends map path ↔ Stops (.object map) path := by
  simp only [Ends, Stops, hasLeaf_iff]

theorem overrides_iff (hne : path ≠ []) :
    Overrides map path ↔ (find path (.object map)).isSome ∨ Stops (.object map) path := by
  rw [Overrides, valueAt_eq_find hne]
  constructor
  · rintro (hsome | ⟨front, hle, -, hleaf⟩)
    · exact .inl hsome
    · exact .inr ⟨front, hle, hasLeaf_iff.mp hleaf⟩
  · rintro (hsome | ⟨front, hle, hleaf⟩)
    · exact .inl hsome
    · by_cases hfront : front = path
      · subst hfront
        obtain ⟨leaf, hleaf⟩ := Option.isSome_iff_exists.mp hleaf
        exact .inl (Option.isSome_of_eq_some (Value.leafAt_eq_some_iff.mp hleaf).1)
      · exact .inr ⟨front, hle, hfront, hasLeaf_iff.mpr hleaf⟩

/-- The leaves after one more layer. -/
theorem valueAt_mergeMaps_iff (base : ConfigMap) (snap : SourceSnapshot) {leaf : ConfigValue}
    (hleaf : leaf.isObject = false) (path : List String) :
    valueAt (mergeMaps base snap.map) path = some leaf ↔
      valueAt snap.map path = some leaf ∨
        valueAt base path = some leaf ∧ ¬Overrides snap.map path := by
  by_cases hne : path = []
  · subst hne
    simp [valueAt]
  · rw [overrides_iff hne, valueAt_eq_find hne, valueAt_eq_find hne, valueAt_eq_find hne]
    change find path (mergeEntry (some (.object base)) (.object snap.map)) = some leaf ↔ _
    cases mergedAt_mergeEntry snap.ordered (.object base) path with
    | upper hstops heq => simp [heq, hstops]
    | both hnot hchild hboth =>
        obtain ⟨child, hchild⟩ := hchild
        obtain ⟨merged, hmerged⟩ := hboth
        have hobject : ∀ map, some (Value.object map) ≠ some leaf := by
          rintro map hmap
          rw [← Option.some.inj hmap] at hleaf
          cases hleaf
        simp [hmerged, hchild, hobject]
    | lower hnot hnone heq => simp [heq, hnone, hnot]

/-- The objects after one more layer. -/
theorem hasObject_mergeMaps_iff (base : ConfigMap) (snap : SourceSnapshot) (path : List String) :
    HasObject (mergeMaps base snap.map) path ↔
      HasObject snap.map path ∨ HasObject base path ∧ ¬Ends snap.map path := by
  by_cases hne : path = []
  · subst hne
    simp [HasObject, valueAt]
  · rw [ends_iff]
    simp only [HasObject, valueAt_eq_find hne]
    change (∃ child, find path (mergeEntry (some (.object base)) (.object snap.map)) = _) ↔ _
    cases mergedAt_mergeEntry snap.ordered (.object base) path with
    | upper hstops heq => simp [heq, hstops]
    | both hnot hchild hboth => exact iff_of_true hboth (.inl hchild)
    | lower hnot hnone heq => simp [heq, hnone, hnot]

theorem layered_mergeSources (sources : List SourceSnapshot) :
    Layered sources (mergeSources sources) where
  leaf path leaf hleaf := by
    refine foldl_iff_last (fun merged => valueAt merged path = some leaf)
      (fun snap : SourceSnapshot => valueAt snap.map path = some leaf)
      (fun snap => Overrides snap.map path) ?_
      fun merged snap _ => valueAt_mergeMaps_iff merged snap hleaf path
    cases path <;> simp [valueAt, Json.Map.get]
  object path := by
    refine foldl_iff_last (fun merged => HasObject merged path)
      (fun snap : SourceSnapshot => HasObject snap.map path) (fun snap => Ends snap.map path) ?_
      fun merged snap _ => hasObject_mergeMaps_iff merged snap path
    cases path <;> simp [HasObject, valueAt, Json.Map.get]

end Layers

section Same

variable {base overlay : ConfigMap}

theorem ordered_mergeMaps_of_forall (hbase : (Value.object base).Ordered)
    (h : ∀ entry ∈ overlay, entry.2.Ordered ∧
      ∀ held : ConfigValue, held.Ordered → (mergeEntry (some held) entry.2).Ordered) :
    (Value.object (mergeMaps base overlay)).Ordered := by
  induction overlay generalizing base with
  | nil => exact hbase
  | cons entry rest ih =>
      obtain ⟨key, value⟩ := entry
      obtain ⟨⟨hvalue, hentry⟩, hrest⟩ := List.forall_mem_cons.mp h
      rw [mergeMaps]
      refine ih (hbase.insert ?_) hrest
      cases hget : Json.Map.get base key with
      | none => rwa [mergeEntry_none]
      | some held => exact hentry held (hbase.of_get hget)

theorem ordered_mergeEntry {value : ConfigValue} (h : value.Ordered) {held : ConfigValue}
    (hheld : held.Ordered) : (mergeEntry (some held) value).Ordered := by
  induction h generalizing held with
  | @object overlay hsorted hentries ih =>
      cases held with
      | object base =>
          exact ordered_mergeMaps_of_forall hheld fun entry hmem =>
            ⟨hentries entry hmem, fun other hother => ih entry hmem hother⟩
      | _ =>
          rw [mergeEntry_of_held_leaf rfl]
          exact .object hsorted hentries
  | array hitems =>
      rw [mergeEntry_of_leaf rfl]
      exact .array hitems
  | _ =>
      rw [mergeEntry_of_leaf rfl]
      constructor

/-- A merge of ordered maps is ordered. -/
theorem ordered_mergeMaps (hbase : (Value.object base).Ordered)
    (hoverlay : (Value.object overlay).Ordered) : (Value.object (mergeMaps base overlay)).Ordered :=
  ordered_mergeEntry hoverlay hbase

/-- A map that is merged into itself is left as it is. -/
theorem mergeMaps_self (snap : SourceSnapshot) : mergeMaps snap.map snap.map = snap.map := by
  have halike : Value.Alike (.object (mergeMaps snap.map snap.map)) (.object snap.map) := by
    intro path
    cases mergedAt_mergeEntry snap.ordered (.object snap.map) path with
    | upper _ heq => exact .inl heq
    | both _ hchild hboth => exact .inr ⟨hboth, hchild⟩
    | lower _ _ heq => exact .inl heq
  have hsame := (ordered_mergeMaps snap.ordered snap.ordered).eq_of_alike snap.ordered halike
  injection hsame

/-- Merged into the empty map it is left as it is, too. -/
theorem mergeMaps_nil (snap : SourceSnapshot) : mergeMaps [] snap.map = snap.map := by
  cases ordered_mergeMaps Value.ordered_nil snap.ordered with
  | object hmerged _ =>
      cases snap.ordered with
      | object hsnap _ =>
          refine hmerged.ext hsnap fun key => ?_
          rw [get_mergeMaps hsnap, Json.Map.get]
          cases Json.Map.get snap.map key with
          | none => rfl
          | some value => exact congrArg some (mergeEntry_none value)

end Same

/-- Sources are merged in layers, and a map into itself without a change. -/
theorem mergeSources_layered (sources : List SourceSnapshot) :
    Layered sources (mergeSources sources) ∧
      ∀ snap : SourceSnapshot, mergeMaps snap.map snap.map = snap.map :=
  ⟨layered_mergeSources sources, mergeMaps_self⟩

end Soulbase.Config
