/-
# Defaults of registered fields

`apply_defaults` visits the registered fields and inserts the default of each whose path has no
value yet. The test for a value and the insertion walk the same dotted path, but treat a value on
the way that is no object in different ways: to the test there is nothing below it, and the
insertion replaces it by an object. `defaulted_iff` says that this is the only way in which a
configured value is lost.
-/

import Soulbase.Config.ChangedKeys
import Soulbase.Foundation.Nesting

namespace Soulbase.Config

open Soulbase.Foundation
open Soulbase.Json (Value)
open Soulbase.Json.Value (find leafAt)

/-- The segments of a dotted path. -/
def segments (path : String) : List String :=
  ((path.toList.splitOn '.').filter (· ≠ [])).map String.ofList

/-- The loop of `path_exists`. -/
def existsAt : List String → ConfigMap → Bool
  | [], _ => false
  | [segment], cursor => (Json.Map.get cursor segment).isSome
  | segment :: rest, cursor =>
      match Json.Map.get cursor segment with
      | some (.object child) => existsAt rest child
      | _ => false

/-- `path_exists`. -/
def pathExists (map : ConfigMap) (path : String) : Bool := existsAt (segments path) map

/-- The object under a name, or an empty one where there is none. -/
def childOf (root : ConfigMap) (segment : String) : ConfigMap :=
  match Json.Map.get root segment with
  | some (.object map) => map
  | _ => []

/-- `insert_segments`. It is not called without segments. -/
def insertSegments : ConfigMap → List String → ConfigValue → ConfigMap
  | root, [], _ => root
  | root, [segment], value => Json.Map.insert root segment value
  | root, segment :: rest, value =>
      Json.Map.insert root segment (.object (insertSegments (childOf root segment) rest value))

/-- `merge_value`. -/
def mergeValue (target : ConfigMap) (key : String) (value : ConfigValue) : ConfigMap :=
  if segments key = [] then target else insertSegments target (segments key) value

/-- `NamespaceId`. -/
abbrev NamespaceId := String

/-- `KeyPath`. -/
abbrev KeyPath := String

/-- `ReloadClass`. -/
inductive ReloadClass
  | bootOnly
  | hotReloadSafe
  | hotReloadRisky
  deriving DecidableEq

/-- `FieldMeta`, without what only a reader looks at. -/
structure FieldMeta where
  reload : ReloadClass
  defaultValue : Option ConfigValue
  ordered : ∀ value, defaultValue = some value → value.Ordered

theorem ordered_of_none (value : ConfigValue) (h : none = some value) : value.Ordered := nomatch h

/-- `NamespaceView`, without its schema. -/
structure NamespaceView where
  fields : HashMap KeyPath FieldMeta

/-- `InMemorySchemaRegistry`. -/
structure InMemorySchemaRegistry where
  inner : HashMap NamespaceId NamespaceView

namespace InMemorySchemaRegistry

/-- `InMemorySchemaRegistry::get_namespace`. -/
def getNamespace (registry : InMemorySchemaRegistry) (ns : NamespaceId) : Option NamespaceView :=
  registry.inner.get ns

/-- `InMemorySchemaRegistry::field_meta`. -/
def fieldMeta (registry : InMemorySchemaRegistry) (ns : NamespaceId) (key : KeyPath) :
    Option FieldMeta :=
  (registry.getNamespace ns).bind fun view => view.fields.get key

/-- The orders in which a registry yields its namespaces and the fields of each. -/
structure Visiting (registry : InMemorySchemaRegistry) where
  namespaces : List NamespaceId
  fields : NamespaceId → List KeyPath
  enumerates : registry.inner.Enumerates namespaces
  enumerates_fields : ∀ ns view, registry.getNamespace ns = some view →
    view.fields.Enumerates (fields ns)

end InMemorySchemaRegistry

/-- `compose_full_path`. -/
def composeFullPath (ns : NamespaceId) (key : KeyPath) : String :=
  if key = "" then ns else ns ++ "." ++ key

/-- The default of a field, where the path of the field has no value. -/
def applyDefault (map : ConfigMap) (full : String) (default : ConfigValue) : ConfigMap :=
  if pathExists map full then map else mergeValue map full default

/-- The loop of `apply_defaults` over the fields of a namespace. -/
def applyFieldDefaults (map : ConfigMap) (ns : NamespaceId) (view : NamespaceView)
    (fields : List KeyPath) : ConfigMap :=
  fields.foldl (fun map key =>
    match (view.fields.get key).bind (·.defaultValue) with
    | some default => applyDefault map (composeFullPath ns key) default
    | none => map) map

/-- `apply_defaults`. -/
def applyDefaults (map : ConfigMap) (registry : InMemorySchemaRegistry)
    (visiting : registry.Visiting) : ConfigMap :=
  visiting.namespaces.foldl (fun map ns =>
    match registry.getNamespace ns with
    | some view => applyFieldDefaults map ns view (visiting.fields ns)
    | none => map) map

section Insertion

variable {root : ConfigMap} {path front rest : List String} {value : ConfigValue}
variable {segment : String}

theorem find_cons_insert (root : ConfigMap) (segment : String) (value : ConfigValue)
    (path : List String) :
    find (segment :: path) (.object (Json.Map.insert root segment value)) = find path value := by
  rw [find, Json.Map.get_insert, if_pos rfl, Option.bind_some]

theorem find_cons_insert_of_ne {other : String} (h : other ≠ segment) :
    find (other :: path) (.object (Json.Map.insert root segment value)) =
      find (other :: path) (.object root) := by
  rw [find, find, Json.Map.get_insert, if_neg h]

/-- Below a name there is what its child has. -/
theorem find_childOf (h : path ≠ []) :
    find path (.object (childOf root segment)) = find (segment :: path) (.object root) := by
  rw [find, childOf]
  cases path with
  | nil => exact absurd rfl h
  | cons first path =>
      cases Json.Map.get root segment with
      | none => rfl
      | some held => cases held <;> rfl

theorem insertSegments_cons (root : ConfigMap) (segment : String) (value : ConfigValue)
    (h : rest ≠ []) :
    insertSegments root (segment :: rest) value =
      Json.Map.insert root segment
        (.object (insertSegments (childOf root segment) rest value)) := by
  cases rest with
  | nil => exact absurd rfl h
  | cons next rest => rfl

/-- At the path and below it there is what was inserted. -/
theorem find_insertSegments_below (root : ConfigMap) (h : path ≠ []) (rest : List String)
    (value : ConfigValue) :
    find (path ++ rest) (.object (insertSegments root path value)) = find rest value := by
  induction path generalizing root with
  | nil => exact absurd rfl h
  | cons segment path ih =>
      by_cases hpath : path = []
      · subst hpath
        exact find_cons_insert root segment value rest
      · rw [insertSegments_cons root segment value hpath, List.cons_append, find_cons_insert]
        exact ih _ hpath

/-- Above the path there are objects. -/
theorem find_insertSegments_above (root : ConfigMap) (hle : front <+: path) (hne : front ≠ path)
    (value : ConfigValue) :
    ∃ child, find front (.object (insertSegments root path value)) = some (.object child) := by
  induction path generalizing root front with
  | nil => exact absurd (List.prefix_nil.mp hle) hne
  | cons segment path ih =>
      cases front with
      | nil => exact ⟨_, rfl⟩
      | cons first front =>
          obtain ⟨rfl, habove⟩ := List.cons_prefix_cons.mp hle
          have hfront : front ≠ path := fun h => hne (congrArg _ h)
          have hpath : path ≠ [] := by
            rintro rfl
            exact hfront (List.prefix_nil.mp habove)
          rw [insertSegments_cons root first value hpath, find_cons_insert]
          exact ih _ habove hfront

/-- Apart from the path nothing is changed. -/
theorem find_insertSegments_elsewhere (root : ConfigMap) (h : Elsewhere front path)
    (value : ConfigValue) :
    find front (.object (insertSegments root path value)) = find front (.object root) := by
  induction path generalizing root front with
  | nil => exact absurd h not_elsewhere_nil
  | cons segment path ih =>
      cases front with
      | nil => exact absurd List.nil_prefix h.1
      | cons first front =>
          by_cases hfirst : first = segment
          · subst hfirst
            have hrest : Elsewhere front path := elsewhere_cons_iff.mp h rfl
            have hfront : front ≠ [] := by
              rintro rfl
              exact hrest.1 List.nil_prefix
            have hpath : path ≠ [] := by
              rintro rfl
              exact not_elsewhere_nil hrest
            rw [insertSegments_cons root first value hpath, find_cons_insert, ih _ hrest,
              find_childOf hfront]
          · by_cases hpath : path = []
            · subst hpath
              exact find_cons_insert_of_ne hfirst
            · rw [insertSegments_cons root segment value hpath]
              exact find_cons_insert_of_ne hfirst

/-- Where a leaf is inserted, new values are on the way to it only. -/
theorem prefix_or_of_find_insertSegments (hne : path ≠ []) (hvalue : value.isObject = false)
    (h : (find front (.object (insertSegments root path value))).isSome) :
    front <+: path ∨ (find front (.object root)).isSome := by
  by_cases hbelow : path <+: front
  · obtain ⟨rest, rfl⟩ := hbelow
    rw [find_insertSegments_below root hne] at h
    cases rest with
    | nil => exact .inl (by rw [List.append_nil])
    | cons name rest =>
        rw [Value.find_of_not_isObject hvalue] at h
        cases h
  · by_cases habove : front <+: path
    · exact .inl habove
    · rw [find_insertSegments_elsewhere root ⟨habove, hbelow⟩] at h
      exact .inr h

theorem existsAt_eq (root : ConfigMap) (h : path ≠ []) :
    existsAt path root = (find path (.object root)).isSome := by
  induction path generalizing root with
  | nil => exact absurd rfl h
  | cons segment path ih =>
      by_cases hpath : path = []
      · subst hpath
        rw [existsAt, find]
        cases Json.Map.get root segment <;> rfl
      · rw [existsAt.eq_3 _ _ _ hpath, find]
        cases Json.Map.get root segment with
        | none => rfl
        | some held =>
            cases held with
            | object child => exact ih child hpath
            | _ =>
                cases path with
                | nil => exact absurd rfl hpath
                | cons next path => rfl

end Insertion

/-! ## The defaults in a row -/

/-- The path of a field with a default, and the default. -/
abbrev FieldDefault := List String × ConfigValue

/-- Insert the default of a field, unless its path is empty or has a value. -/
def insertDefault (map : ConfigMap) (field : FieldDefault) : ConfigMap :=
  if field.1 = [] ∨ (find field.1 (.object map)).isSome then map
  else insertSegments map field.1 field.2

/-- The default of a field. -/
def defaultOf (registry : InMemorySchemaRegistry) (ns : NamespaceId) (key : KeyPath) :
    Option FieldDefault :=
  ((registry.fieldMeta ns key).bind (·.defaultValue)).map (segments (composeFullPath ns key), ·)

/-- The defaults in the order in which they are visited. -/
def defaultsIn (registry : InMemorySchemaRegistry) (visiting : registry.Visiting) :
    List FieldDefault :=
  visiting.namespaces.flatMap fun ns => (visiting.fields ns).filterMap (defaultOf registry ns)

/-- Some field is registered at the path, with the default. -/
def HasDefault (registry : InMemorySchemaRegistry) (field : FieldDefault) : Prop :=
  ∃ ns key, defaultOf registry ns key = some field

section Row

variable {registry : InMemorySchemaRegistry} {visiting : registry.Visiting}

theorem applyDefault_eq (map : ConfigMap) (full : String) (default : ConfigValue) :
    applyDefault map full default = insertDefault map (segments full, default) := by
  rw [applyDefault, mergeValue, pathExists, insertDefault]
  by_cases hempty : segments full = []
  · rw [if_pos hempty, ite_self, if_pos (.inl hempty)]
  · rw [if_neg hempty, existsAt_eq map hempty]
    simp only [hempty, false_or]

theorem applyFieldDefaults_eq {ns : NamespaceId} {view : NamespaceView}
    (h : registry.getNamespace ns = some view) (map : ConfigMap) (fields : List KeyPath) :
    applyFieldDefaults map ns view fields =
      (fields.filterMap (defaultOf registry ns)).foldl insertDefault map := by
  rw [applyFieldDefaults]
  induction fields generalizing map with
  | nil => rfl
  | cons key fields ih =>
      have hmeta : (registry.fieldMeta ns key).bind (·.defaultValue) =
          (view.fields.get key).bind (·.defaultValue) := by
        rw [InMemorySchemaRegistry.fieldMeta, h, Option.bind_some]
      rw [List.foldl_cons, ih]
      cases hdefault : (view.fields.get key).bind (·.defaultValue) with
      | none =>
          rw [List.filterMap_cons_none (by rw [defaultOf, hmeta, hdefault]; rfl)]
      | some default =>
          dsimp only
          rw [List.filterMap_cons_some (by rw [defaultOf, hmeta, hdefault]; rfl),
            List.foldl_cons, applyDefault_eq]

theorem applyDefaults_eq (map : ConfigMap) (visiting : registry.Visiting) :
    applyDefaults map registry visiting =
      (defaultsIn registry visiting).foldl insertDefault map := by
  rw [applyDefaults, defaultsIn]
  induction visiting.namespaces generalizing map with
  | nil => rfl
  | cons ns namespaces ih =>
      rw [List.foldl_cons, ih, List.flatMap_cons, List.foldl_append]
      cases h : registry.getNamespace ns with
      | none =>
          have hnone : defaultOf registry ns = fun _ => none := by
            funext key
            rw [defaultOf, InMemorySchemaRegistry.fieldMeta, h]
            rfl
          rw [hnone, List.filterMap_none]
          rfl
      | some view =>
          dsimp only
          rw [applyFieldDefaults_eq h]

/-- A field with a default is visited. -/
theorem visits_of_defaultOf {ns : NamespaceId} {key : KeyPath} {field : FieldDefault}
    (visiting : registry.Visiting) (h : defaultOf registry ns key = some field) :
    ns ∈ visiting.namespaces ∧ key ∈ visiting.fields ns := by
  rw [defaultOf, InMemorySchemaRegistry.fieldMeta] at h
  cases hview : registry.getNamespace ns with
  | none =>
      rw [hview] at h
      cases h
  | some view =>
      rw [hview, Option.bind_some] at h
      cases hmeta : view.fields.get key with
      | none =>
          rw [hmeta] at h
          cases h
      | some found =>
          constructor
          · exact visiting.enumerates.mem_iff.mpr
              (AList.lookup_isSome.mp (Option.isSome_of_eq_some hview))
          · exact (visiting.enumerates_fields ns view hview).mem_iff.mpr
              (AList.lookup_isSome.mp (Option.isSome_of_eq_some hmeta))

/-- Whatever the order, the defaults are those of the registered fields. -/
theorem mem_defaultsIn (visiting : registry.Visiting) {field : FieldDefault} :
    field ∈ defaultsIn registry visiting ↔ HasDefault registry field := by
  simp only [defaultsIn, HasDefault, List.mem_flatMap, List.mem_filterMap]
  constructor
  · rintro ⟨ns, -, key, -, h⟩
    exact ⟨ns, key, h⟩
  · rintro ⟨ns, key, h⟩
    obtain ⟨hns, hkey⟩ := visits_of_defaultOf visiting h
    exact ⟨ns, hns, key, hkey, h⟩

end Row

section Insert

variable {map : ConfigMap} {field : FieldDefault} {fields : List FieldDefault}
variable {path front : List String} {leaf : ConfigValue} {child : ConfigMap}

theorem insertDefault_of_none (h : find field.1 (.object map) = none) :
    insertDefault map field = insertSegments map field.1 field.2 := by
  have hne : field.1 ≠ [] := by
    intro hnil
    rw [hnil] at h
    cases h
  rw [insertDefault, h]
  simp [hne]

theorem insertDefault_of_some (h : (find field.1 (.object map)).isSome) :
    insertDefault map field = map := by
  rw [insertDefault, if_pos (.inr h)]

/-- What the insertion of a default can do at a path: nothing, or the field has no value, and the
path is at it or below, or above it and has an object. -/
theorem find_insertDefault_cases (map : ConfigMap) (field : FieldDefault) (path : List String) :
    find path (.object (insertDefault map field)) = find path (.object map) ∨
      find field.1 (.object map) = none ∧
        ((∃ rest, path = field.1 ++ rest ∧
            find path (.object (insertDefault map field)) = find rest field.2) ∨
          path <+: field.1 ∧ path ≠ field.1 ∧
            ∃ child, find path (.object (insertDefault map field)) = some (.object child)) := by
  cases hfield : find field.1 (.object map) with
  | some value =>
      left
      rw [insertDefault_of_some (Option.isSome_of_eq_some hfield)]
  | none =>
      have hne : field.1 ≠ [] := by
        intro hnil
        rw [hnil] at hfield
        cases hfield
      rw [insertDefault_of_none hfield]
      by_cases hbelow : field.1 <+: path
      · obtain ⟨rest, rfl⟩ := hbelow
        exact .inr ⟨rfl, .inl ⟨rest, rfl, find_insertSegments_below map hne rest field.2⟩⟩
      · by_cases habove : path <+: field.1
        · have hpath : path ≠ field.1 := fun h => hbelow (h ▸ List.prefix_rfl)
          exact .inr ⟨rfl, .inr ⟨habove, hpath,
            find_insertSegments_above map habove hpath field.2⟩⟩
        · exact .inl (find_insertSegments_elsewhere map ⟨habove, hbelow⟩ field.2)

/-- A path that has a value does not lead through a field that has none. -/
theorem ne_append_of_find_eq_none (hfield : find field.1 (.object map) = none)
    (hpath : (find path (.object map)).isSome) (rest : List String) : path ≠ field.1 ++ rest := by
  rintro rfl
  rw [Value.find_append, hfield] at hpath
  cases hpath

/-- A path with a value keeps one. -/
theorem isSome_find_insertDefault (h : (find path (.object map)).isSome) :
    (find path (.object (insertDefault map field))).isSome := by
  rcases find_insertDefault_cases map field path with heq | ⟨hfield, hcase⟩
  · rwa [heq]
  · rcases hcase with ⟨rest, hpath, -⟩ | ⟨-, -, child, hchild⟩
    · exact absurd hpath (ne_append_of_find_eq_none hfield h rest)
    · rw [hchild]
      rfl

/-- A path with an object keeps one. -/
theorem object_insertDefault (h : ∃ child, find path (.object map) = some (.object child)) :
    ∃ child, find path (.object (insertDefault map field)) = some (.object child) := by
  rcases find_insertDefault_cases map field path with heq | ⟨hfield, hcase⟩
  · rwa [heq]
  · rcases hcase with ⟨rest, hpath, -⟩ | ⟨-, -, hchild⟩
    · obtain ⟨child, hchild⟩ := h
      exact absurd hpath
        (ne_append_of_find_eq_none hfield (Option.isSome_of_eq_some hchild) rest)
    · exact hchild

/-- A path that leads on has an object. -/
theorem object_of_find_append {rest : List String} (hne : rest ≠ [])
    (h : (find (path ++ rest) (.object map)).isSome) :
    ∃ child, find path (.object map) = some (.object child) := by
  rw [Value.find_append] at h
  cases hpath : find path (.object map) with
  | none =>
      rw [hpath] at h
      cases h
  | some held =>
      rw [hpath, Option.bind_some] at h
      cases held with
      | object child => exact ⟨child, rfl⟩
      | _ =>
          cases rest with
          | nil => exact absurd rfl hne
          | cons key rest => cases h

/-- Above a field that was visited there are objects. -/
theorem object_above_insertDefault (map : ConfigMap) (habove : path <+: field.1)
    (hne : path ≠ field.1) :
    ∃ child, find path (.object (insertDefault map field)) = some (.object child) := by
  cases hfield : find field.1 (.object map) with
  | none =>
      rw [insertDefault_of_none hfield]
      exact find_insertSegments_above map habove hne field.2
  | some value =>
      rw [insertDefault_of_some (Option.isSome_of_eq_some hfield)]
      obtain ⟨rest, hrest⟩ := habove
      have hnil : rest ≠ [] := by
        rintro rfl
        exact hne (by rw [← hrest, List.append_nil])
      have hsome : (find (path ++ rest) (.object map)).isSome := by
        rw [hrest, hfield]
        rfl
      exact object_of_find_append hnil hsome

theorem isSome_find_foldl_insertDefault (fields : List FieldDefault)
    (h : (find path (.object map)).isSome) :
    (find path (.object (fields.foldl insertDefault map))).isSome := by
  induction fields generalizing map with
  | nil => exact h
  | cons field fields ih => exact ih (isSome_find_insertDefault h)

theorem object_foldl_insertDefault (h : ∃ child, find path (.object map) = some (.object child)) :
    ∃ child, find path (.object (fields.foldl insertDefault map)) = some (.object child) := by
  induction fields generalizing map with
  | nil => exact h
  | cons field fields ih => exact ih (object_insertDefault h)

/-- Above the fields that were visited there are objects. -/
theorem object_above_foldl (map : ConfigMap) (hmem : field ∈ fields) (habove : path <+: field.1)
    (hne : path ≠ field.1) :
    ∃ child, find path (.object (fields.foldl insertDefault map)) = some (.object child) := by
  obtain ⟨before, after, rfl⟩ := List.append_of_mem hmem
  rw [List.foldl_append, List.foldl_cons]
  exact object_foldl_insertDefault (object_above_insertDefault _ habove hne)

end Insert

/-- Configured values are kept, and what is added is at a field that had none or below it, or it is
an object that leads there. -/
structure Defaulted (registry : InMemorySchemaRegistry) (before after : ConfigMap) : Prop where
  keeps : ∀ path leaf, leafAt path (.object before) = some leaf →
    leafAt path (.object after) = some leaf
  adds : ∀ path value, find path (.object after) = some value →
    (find path (.object before)).isSome ∨
      ∃ field, HasDefault registry field ∧ find field.1 (.object before) = none ∧
        (field.1 <+: path ∨ path <+: field.1 ∧ value.isObject = true)

/-- No path of a field with a default leads through a leaf. -/
def Unobstructed (registry : InMemorySchemaRegistry) (map : ConfigMap) : Prop :=
  ∀ field, HasDefault registry field → ∀ front, front <+: field.1 → front ≠ field.1 →
    leafAt front (.object map) = none

section Configured

variable {registry : InMemorySchemaRegistry} {before map : ConfigMap} {fields : List FieldDefault}

/-- What is there of the defaults that were visited. -/
theorem adds_foldl (hfields : ∀ field ∈ fields, HasDefault registry field) (path : List String)
    (value : ConfigValue)
    (hvalue : find path (.object (fields.foldl insertDefault before)) = some value) :
    (find path (.object before)).isSome ∨
      ∃ field, HasDefault registry field ∧ find field.1 (.object before) = none ∧
        (field.1 <+: path ∨ path <+: field.1 ∧ value.isObject = true) := by
  induction fields using List.reverseRecOn generalizing value with
  | nil => exact .inl (Option.isSome_of_eq_some hvalue)
  | append_singleton fields field ih =>
      have hearlier : ∀ other ∈ fields, HasDefault registry other := fun other hother =>
        hfields other (List.mem_append_left _ hother)
      rw [List.foldl_append, List.foldl_cons, List.foldl_nil] at hvalue
      rcases find_insertDefault_cases (fields.foldl insertDefault before) field path with
        heq | ⟨hfield, hcase⟩
      · exact ih hearlier value (heq ▸ hvalue)
      · right
        have hnone : find field.1 (.object before) = none := by
          by_contra hsome
          have hkept := isSome_find_foldl_insertDefault fields
            (Option.isSome_iff_ne_none.mpr hsome)
          rw [hfield] at hkept
          cases hkept
        refine ⟨field, hfields field (by simp), hnone, ?_⟩
        rcases hcase with ⟨rest, rfl, -⟩ | ⟨habove, -, child, hchild⟩
        · exact .inl (List.prefix_append _ _)
        · rw [hchild] at hvalue
          exact .inr ⟨habove, by rw [← Option.some.inj hvalue]; rfl⟩

/-- A leaf is kept where no field leads through it. -/
theorem keeps_foldl (hfields : ∀ field ∈ fields, HasDefault registry field)
    (hfree : Unobstructed registry before) {path : List String} {leaf : ConfigValue}
    (hleaf : leafAt path (.object before) = some leaf) :
    leafAt path (.object (fields.foldl insertDefault before)) = some leaf := by
  refine List.foldlRecOn (motive := fun map => leafAt path (.object map) = some leaf)
    fields insertDefault hleaf fun map hmap field hmem => ?_
  obtain ⟨hfind, -⟩ := Value.leafAt_eq_some_iff.mp hmap
  rcases find_insertDefault_cases map field path with heq | ⟨hnone, hcase⟩
  · rwa [leafAt, heq]
  · rcases hcase with ⟨rest, hpath, -⟩ | ⟨habove, hne, -⟩
    · exact absurd hpath (ne_append_of_find_eq_none hnone (Option.isSome_of_eq_some hfind) rest)
    · rw [hfree field (hfields field hmem) path habove hne] at hleaf
      cases hleaf

/-- Defaults override no configured value exactly where no field with a default is to be inserted
through one. -/
theorem defaulted_iff (registry : InMemorySchemaRegistry) (map : ConfigMap)
    (visiting : registry.Visiting) :
    Defaulted registry map (applyDefaults map registry visiting) ↔ Unobstructed registry map := by
  rw [applyDefaults_eq]
  constructor
  · intro h field hfield front habove hne
    by_contra hleaf
    obtain ⟨leaf, hleaf⟩ := Option.ne_none_iff_exists'.mp hleaf
    obtain ⟨child, hchild⟩ :=
      object_above_foldl map ((mem_defaultsIn visiting).mpr hfield) habove hne
    have hkept := h.keeps front leaf hleaf
    rw [leafAt, hchild] at hkept
    cases hkept
  · intro h
    have hfields : ∀ field ∈ defaultsIn registry visiting, HasDefault registry field :=
      fun _ => (mem_defaultsIn visiting).mp
    exact ⟨fun _ _ hleaf => keeps_foldl hfields h hleaf, adds_foldl hfields⟩

end Configured

namespace ScalarNamespace

/-- A field with a default, in a namespace. -/
def registry : InMemorySchemaRegistry :=
  ⟨HashMap.put ∅ "app" ⟨HashMap.put ∅ "name"
    ⟨.hotReloadSafe, some (.string "Soulseed"), fun _ h => Option.some.inj h ▸ .string _⟩⟩⟩

/-- The one order there is. -/
def visiting : registry.Visiting where
  namespaces := ["app"]
  fields _ := ["name"]
  enumerates := by decide
  enumerates_fields := by
    intro ns view h
    have hns : registry.getNamespace ns = if ns = "app" then _ else none :=
      HashMap.get_put ∅ "app" ns _
    rw [hns] at h
    obtain ⟨-, hview⟩ := Option.ite_none_right_eq_some.mp h
    rw [← Option.some.inj hview]
    decide

end ScalarNamespace

/-- A scalar in the place of a namespace is overridden. -/
theorem not_defaulted_scalarNamespace :
    ¬ ∀ (registry : InMemorySchemaRegistry) (map : ConfigMap) (visiting : registry.Visiting),
        Defaulted registry map (applyDefaults map registry visiting) := by
  intro h
  have hkept := (h ScalarNamespace.registry [("app", .string "x")] ScalarNamespace.visiting).keeps
    ["app"] (.string "x") rfl
  have hlost : leafAt ["app"] (.object (applyDefaults [("app", .string "x")]
      ScalarNamespace.registry ScalarNamespace.visiting)) = none := rfl
  rw [hlost] at hkept
  cases hkept

end Soulbase.Config
