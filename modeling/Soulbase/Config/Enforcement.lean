/-
# Registered keys

`enforce_schema` collects the dotted names of all values of a map, of the objects on the way to
its leaves as well, and looks each of them up: the text before the first dot has to be a
registered namespace, and what follows it, if anything does, a registered field of that.

`enforces_iff` says how this differs from accepting exactly the registered fields. The objects on
the way to a field with a dotted key are looked up like fields, and a value in the place of a
namespace is not looked up at all.
-/

import Soulbase.Config.Defaults
import Soulbase.Errors
import Soulbase.Foundation.Program
import Soulbase.Foundation.Text

namespace Soulbase.Config

open Soulbase.Errors Soulbase.Foundation
open Soulbase.Json (Value)
open Soulbase.Json.Value (find leafAt)

/-- `ConfigError`. -/
structure ConfigError where
  inner : FullErrorObj
  deriving DecidableEq

/-- The error of a schema with the messages to the user and to the developer. -/
def ConfigError.schema (user dev : String) : ConfigError :=
  ⟨((FullErrorObj.new codes.schemaValidationFailed).userMsg user).devMsg dev⟩

mutual

/-- `collect_keys`. -/
def collectKeys (start : String) : List (String × ConfigValue) → List String → List String
  | [], out => out
  | (key, value) :: rest, out =>
      let next := joined start key
      collectKeys start rest (collectEntry next value (out ++ [next]))

/-- What is collected below an entry. -/
def collectEntry (next : String) : ConfigValue → List String → List String
  | .object child, out => collectKeys next child out
  | _, out => out

end

/-- `split_namespace`. -/
def splitNamespace (path : String) : Except ConfigError (String × String) :=
  let parts := (Text.splitOnce '.' path).getD (path, "")
  if parts.1 = "" then
    .error (.schema "Configuration key missing namespace prefix." s!"invalid key: {path}")
  else .ok parts

/-- The lookup of a key after it was split. -/
def enforceParts (registry : InMemorySchemaRegistry) (key : String) (parts : String × String) :
    Except ConfigError Unit :=
  match registry.getNamespace parts.1 with
  | none =>
      .error (.schema "Configuration namespace not registered." s!"unknown namespace: {parts.1}")
  | some view =>
      if parts.2 = "" then .ok ()
      else if (view.fields.get parts.2).isSome then .ok ()
      else .error (.schema "Configuration contains unknown key." s!"unknown key: {key}")

/-- The body of the loop of `enforce_schema`. -/
def enforceKey (registry : InMemorySchemaRegistry) (key : String) : Except ConfigError Unit := do
  enforceParts registry key (← splitNamespace key)

/-- `enforce_schema`. -/
def enforceSchema (map : ConfigMap) (registry : InMemorySchemaRegistry) :
    Except ConfigError Unit :=
  forM (collectKeys "" map []) (enforceKey registry)

/-- The full path of a registered field. -/
def IsFullPath (registry : InMemorySchemaRegistry) (path : String) : Prop :=
  ∃ ns key, (registry.fieldMeta ns key).isSome ∧ path = composeFullPath ns key

/-- A map that was built by giving values to registered fields. -/
inductive Built (registry : InMemorySchemaRegistry) : ConfigMap → Prop
  | empty : Built registry []
  | merge {map : ConfigMap} {path : String} {value : ConfigValue} :
      Built registry map → IsFullPath registry path → value.isObject = false →
        Built registry (mergeValue map path value)

/-- Maps built from registered fields are accepted, and those with a leaf elsewhere are not. -/
structure Enforces (registry : InMemorySchemaRegistry) (map : ConfigMap) : Prop where
  accepts : Built registry map → enforceSchema map registry = .ok ()
  rejects : ∀ path leaf, leafAt path (.object map) = some leaf →
    ¬IsFullPath registry (keyPath path) → ∃ error, enforceSchema map registry = .error error

/-- A namespace, or a namespace with one of its fields. -/
inductive IsRegistered (registry : InMemorySchemaRegistry) : String → Prop
  | name {ns : NamespaceId} : Plain ns → (registry.getNamespace ns).isSome →
      IsRegistered registry ns
  | field {ns : NamespaceId} {key : KeyPath} : Plain ns → (registry.getNamespace ns).isSome →
      key = "" ∨ (registry.fieldMeta ns key).isSome → IsRegistered registry (ns ++ "." ++ key)

section Keys

variable {map : ConfigMap} {value : ConfigValue}

/-- The name of some value at or below an entry. -/
def IsNameUnder (next : String) (value : ConfigValue) (key : String) : Prop :=
  ∃ path, (find path value).isSome ∧ path.foldl joined next = key

theorem mem_collectKeys (start : String) (out : List String) (key : String)
    (h : ∀ entry ∈ map, ∀ next out key, key ∈ collectEntry next entry.2 (out ++ [next]) ↔
      key ∈ out ∨ IsNameUnder next entry.2 key) :
    key ∈ collectKeys start map out ↔
      key ∈ out ∨ ∃ entry ∈ map, IsNameUnder (joined start entry.1) entry.2 key := by
  induction map generalizing out with
  | nil => simp [collectKeys]
  | cons entry rest ih =>
      obtain ⟨name, value⟩ := entry
      obtain ⟨hentry, hrest⟩ := List.forall_mem_cons.mp h
      rw [collectKeys, ih _ hrest, hentry, List.exists_mem_cons_iff, or_assoc]

/-- The names under the entries of a map are those of the paths in it. -/
theorem exists_entry_iff (h : Json.Map.Sorted map) {start key : String} :
    (∃ entry ∈ map, IsNameUnder (joined start entry.1) entry.2 key) ↔
      ∃ path, path ≠ [] ∧ (find path (.object map)).isSome ∧ path.foldl joined start = key := by
  constructor
  · rintro ⟨entry, hmem, path, hsome, rfl⟩
    refine ⟨entry.1 :: path, List.cons_ne_nil _ _, ?_, rfl⟩
    rw [find, h.get_of_mem hmem]
    exact hsome
  · rintro ⟨path, hne, hsome, rfl⟩
    cases path with
    | nil => exact absurd rfl hne
    | cons name path =>
        rw [find] at hsome
        cases hget : Json.Map.get map name with
        | none =>
            rw [hget] at hsome
            cases hsome
        | some held =>
            rw [hget] at hsome
            exact ⟨(name, held), Json.Map.mem_of_get hget, path, hsome, rfl⟩

theorem isNameUnder_object (h : Json.Map.Sorted map) {next key : String} :
    IsNameUnder next (.object map) key ↔
      key = next ∨ ∃ entry ∈ map, IsNameUnder (joined next entry.1) entry.2 key := by
  rw [exists_entry_iff h]
  constructor
  · rintro ⟨path, hsome, hname⟩
    cases path with
    | nil => exact .inl hname.symm
    | cons name path => exact .inr ⟨name :: path, List.cons_ne_nil _ _, hsome, hname⟩
  · rintro (rfl | ⟨path, -, hpath⟩)
    · exact ⟨[], rfl, rfl⟩
    · exact ⟨path, hpath⟩

theorem isNameUnder_of_not_isObject (h : value.isObject = false) {next key : String} :
    IsNameUnder next value key ↔ key = next := by
  constructor
  · rintro ⟨path, hsome, rfl⟩
    cases path with
    | nil => rfl
    | cons name path =>
        rw [Value.find_of_not_isObject h] at hsome
        cases hsome
  · rintro rfl
    exact ⟨[], rfl, rfl⟩

/-- Below an entry the names of all values there are collected. -/
theorem mem_collectEntry (h : value.Ordered) (next : String) (out : List String) (key : String) :
    key ∈ collectEntry next value (out ++ [next]) ↔ key ∈ out ∨ IsNameUnder next value key := by
  induction h generalizing next out key with
  | @object map hsorted _ ih =>
      rw [collectEntry, mem_collectKeys next _ key ih, isNameUnder_object hsorted,
        List.mem_append, List.mem_singleton, or_assoc]
  | _ =>
      rw [collectEntry, isNameUnder_of_not_isObject rfl, List.mem_append, List.mem_singleton]
      intro _ hmap
      cases hmap

/-- The names of all values of a map are collected. -/
theorem mem_collectKeys_iff (h : (Value.object map).Ordered) (key : String) :
    key ∈ collectKeys "" map [] ↔
      ∃ path, path ≠ [] ∧ (find path (.object map)).isSome ∧ keyPath path = key := by
  cases h with
  | object hsorted hentries =>
      rw [mem_collectKeys "" [] key fun entry hmem => mem_collectEntry (hentries entry hmem),
        exists_entry_iff hsorted]
      simp [keyPath]

end Keys

section Lookup

variable {registry : InMemorySchemaRegistry} {ns key : String}

theorem splitNamespace_name (h : Plain ns) : splitNamespace ns = .ok (ns, "") := by
  rw [splitNamespace, Text.splitOnce_eq_none h.2]
  exact if_neg h.1

theorem splitNamespace_field (h : Plain ns) (key : String) :
    splitNamespace (ns ++ "." ++ key) = .ok (ns, key) := by
  have htext : (ns ++ "." ++ key).toList = ns.toList ++ '.' :: key.toList := by simp
  rw [splitNamespace, Text.splitOnce_eq_some h.2 htext]
  exact if_neg h.1

/-- A key that can be split begins with a plain name. -/
theorem splitNamespace_cases {parts : String × String} (h : splitNamespace key = .ok parts) :
    Plain parts.1 ∧ (key = parts.1 ∨ key = parts.1 ++ "." ++ parts.2) := by
  by_cases hdot : '.' ∈ key.toList
  · obtain ⟨front, rest, hlist, hfront⟩ := List.eq_append_cons_of_mem hdot
    have hkey : key = .ofList front ++ "." ++ .ofList rest := by
      rw [← String.toList_inj, hlist]
      simp
    have hsplit : Text.splitOnce '.' key = some (.ofList front, .ofList rest) := by
      apply Text.splitOnce_eq_some
      · rwa [String.toList_ofList]
      · rw [hlist, String.toList_ofList, String.toList_ofList]
    rw [splitNamespace, hsplit] at h
    dsimp only [Option.getD_some] at h
    split at h
    case isTrue => cases h
    case isFalse hne =>
      obtain rfl := Except.ok.inj h
      exact ⟨⟨hne, by rwa [String.toList_ofList]⟩, .inr hkey⟩
  · rw [splitNamespace, Text.splitOnce_eq_none hdot] at h
    dsimp only [Option.getD_none] at h
    split at h
    case isTrue => cases h
    case isFalse hne =>
      obtain rfl := Except.ok.inj h
      exact ⟨⟨hne, hdot⟩, .inl rfl⟩

theorem enforceParts_eq_ok_iff {parts : String × String} :
    enforceParts registry key parts = .ok () ↔
      (registry.getNamespace parts.1).isSome ∧
        (parts.2 = "" ∨ (registry.fieldMeta parts.1 parts.2).isSome) := by
  unfold enforceParts InMemorySchemaRegistry.fieldMeta
  cases registry.getNamespace parts.1 with
  | none => simp
  | some view =>
      by_cases hempty : parts.2 = "" <;> simp [hempty, Option.isSome_iff_ne_none]

theorem enforceKey_eq_ok_iff : enforceKey registry key = .ok () ↔ IsRegistered registry key := by
  rw [enforceKey, except_do_eq_ok_iff]
  constructor
  · rintro ⟨parts, hparts, hok⟩
    obtain ⟨hplain, hkey⟩ := splitNamespace_cases hparts
    obtain ⟨hns, hfield⟩ := enforceParts_eq_ok_iff.mp hok
    rcases hkey with rfl | hkey
    · exact .name hplain hns
    · exact hkey ▸ .field hplain hns hfield
  · rintro (⟨hplain, hns⟩ | ⟨hplain, hns, hfield⟩)
    · exact ⟨_, splitNamespace_name hplain, enforceParts_eq_ok_iff.mpr ⟨hns, .inl rfl⟩⟩
    · exact ⟨_, splitNamespace_field hplain _, enforceParts_eq_ok_iff.mpr ⟨hns, hfield⟩⟩

/-- A map is accepted iff the names of all its values are registered. -/
theorem enforceSchema_eq_ok_iff {map : ConfigMap} (h : (Value.object map).Ordered) :
    enforceSchema map registry = .ok () ↔ ∀ path, path ≠ [] →
      (find path (.object map)).isSome → IsRegistered registry (keyPath path) := by
  rw [enforceSchema, except_forM_eq_ok_iff]
  simp only [enforceKey_eq_ok_iff]
  constructor
  · intro hkeys path hne hsome
    exact hkeys _ ((mem_collectKeys_iff h _).mpr ⟨path, hne, hsome, rfl⟩)
  · intro hpaths key hkey
    obtain ⟨path, hne, hsome, rfl⟩ := (mem_collectKeys_iff h _).mp hkey
    exact hpaths path hne hsome

end Lookup

/-! ## Plain paths -/

section Paths

variable {registry : InMemorySchemaRegistry} {ns : NamespaceId} {rest : List String}

theorem plain_of_mem_segments {path name : String} (h : name ∈ segments path) : Plain name := by
  rw [segments, List.mem_map] at h
  obtain ⟨part, hpart, rfl⟩ := h
  obtain ⟨hmem, hne⟩ := List.mem_filter.mp hpart
  refine ⟨?_, ?_⟩
  · rw [Ne, ← String.toList_eq_nil_iff, String.toList_ofList]
    simpa using hne
  · rw [String.toList_ofList]
    exact not_mem_of_mem_splitOn hmem

/-- Two plain names are the segments of the path that joins them. -/
theorem segments_of_plain {key : KeyPath} (hns : Plain ns) (hkey : Plain key) :
    segments (ns ++ "." ++ key) = [ns, key] := by
  have htext : (ns ++ "." ++ key).toList = ['.'].intercalate [ns.toList, key.toList] := by
    simp [List.intercalate_cons_cons]
  have hsplit : (ns ++ "." ++ key).toList.splitOn '.' = [ns.toList, key.toList] := by
    rw [htext]
    apply List.splitOn_intercalate
    · simpa using ⟨hns.2, hkey.2⟩
    · exact List.cons_ne_nil _ _
  have hne : ∀ {name : String}, Plain name → name.toList ≠ [] := fun h hnil =>
    h.1 (String.toList_eq_nil_iff.mp hnil)
  rw [segments, hsplit]
  simp [hne hns, hne hkey]

theorem keyPath_cons (h : ∀ name ∈ ns :: rest, Plain name) (hrest : rest ≠ []) :
    keyPath (ns :: rest) = ns ++ "." ++ keyPath rest := by
  obtain ⟨key, more, rfl⟩ := List.exists_cons_of_ne_nil hrest
  have hne : ∀ name ∈ ns :: key :: more, name ≠ "" := fun name hmem => (h name hmem).1
  rw [List.forall_mem_cons, List.forall_mem_cons] at hne
  obtain ⟨hns, hkey, hmore⟩ := hne
  rw [← String.toList_inj, keyPath_cons_eq_foldl,
    toList_foldl_joined hns (List.forall_mem_cons.mpr ⟨hkey, hmore⟩), List.map_cons,
    List.intercalate_cons_cons, String.toList_append, keyPath_cons_eq_foldl,
    toList_foldl_joined hkey hmore]
  simp

/-- The name of a plain path is registered iff its beginning is a namespace and what follows, if
anything does, a field of that. -/
theorem isRegistered_keyPath_iff (h : ∀ name ∈ ns :: rest, Plain name) :
    IsRegistered registry (keyPath (ns :: rest)) ↔
      (registry.getNamespace ns).isSome ∧
        (rest = [] ∨ (registry.fieldMeta ns (keyPath rest)).isSome) := by
  obtain ⟨hns, hplain⟩ := List.forall_mem_cons.mp h
  cases rest with
  | nil =>
      rw [keyPath_cons_eq_foldl, List.foldl_nil, ← enforceKey_eq_ok_iff, enforceKey,
        splitNamespace_name hns]
      exact enforceParts_eq_ok_iff.trans (by simp)
  | cons key more =>
      rw [keyPath_cons h (List.cons_ne_nil _ _), ← enforceKey_eq_ok_iff, enforceKey,
        splitNamespace_field hns]
      exact enforceParts_eq_ok_iff.trans (by simp [keyPath_cons_ne hplain])

/-- A map that was built from registered fields has values only on the way to these. -/
theorem Built.exists_prefix {map : ConfigMap} (h : Built registry map) {path : List String}
    (hne : path ≠ []) (hsome : (find path (.object map)).isSome) :
    ∃ full, IsFullPath registry full ∧ path <+: segments full := by
  induction h generalizing path with
  | empty =>
      obtain ⟨name, path, rfl⟩ := List.exists_cons_of_ne_nil hne
      cases hsome
  | @merge map full value _ hfull hleaf ih =>
      rw [mergeValue] at hsome
      split at hsome
      case isTrue => exact ih hne hsome
      case isFalse hsegments =>
        rcases prefix_or_of_find_insertSegments hsegments hleaf hsome with hway | hbefore
        · exact ⟨full, hfull, hway⟩
        · exact ih hne hbefore

/-- So all its names are plain. -/
theorem Built.plain {map : ConfigMap} (h : Built registry map)
    (hsome : (find (ns :: rest) (.object map)).isSome) : ∀ name ∈ ns :: rest, Plain name := by
  obtain ⟨full, -, hway⟩ := h.exists_prefix (List.cons_ne_nil _ _) hsome
  exact fun name hmem => plain_of_mem_segments (hway.subset hmem)

end Paths

/-- All objects on the way to a registered field are registered like fields, and no value is in the
place of a namespace, unless something else in the map is unknown. -/
structure Enforceable (registry : InMemorySchemaRegistry) (map : ConfigMap) : Prop where
  ways : Built registry map → ∀ ns rest, (find (ns :: rest) (.object map)).isSome →
    (registry.getNamespace ns).isSome ∧
      (rest = [] ∨ (registry.fieldMeta ns (keyPath rest)).isSome)
  bare : (∀ path, path ≠ [] → (find path (.object map)).isSome →
      IsRegistered registry (keyPath path)) →
    ∀ ns path leaf, Plain ns → leafAt path (.object map) = some leaf →
      keyPath path = ns ∨ keyPath path = ns ++ "." → IsFullPath registry (keyPath path)

section Exact

variable {registry : InMemorySchemaRegistry}

/-- What is registered is the full path of a field, or a namespace alone. -/
theorem IsRegistered.isFullPath_or {key : String} (h : IsRegistered registry key) :
    IsFullPath registry key ∨ ∃ ns, Plain ns ∧ (key = ns ∨ key = ns ++ ".") := by
  cases h with
  | name hplain _ => exact .inr ⟨_, hplain, .inl rfl⟩
  | @field ns key hplain _ hfield =>
      by_cases hempty : key = ""
      · subst hempty
        exact .inr ⟨ns, hplain, .inr (by simp)⟩
      · exact .inl ⟨ns, key, hfield.resolve_left hempty, (if_neg hempty).symm⟩

/-- A schema is enforced exactly where the ways to registered fields are registered and nothing is
in the place of a namespace. -/
theorem enforces_iff (registry : InMemorySchemaRegistry) {map : ConfigMap}
    (hmap : (Value.object map).Ordered) : Enforces registry map ↔ Enforceable registry map := by
  constructor
  · intro h
    refine ⟨?_, ?_⟩
    · intro hbuilt ns rest hsome
      have hnames := (enforceSchema_eq_ok_iff hmap).mp (h.accepts hbuilt)
      exact (isRegistered_keyPath_iff (hbuilt.plain hsome)).mp
        (hnames (ns :: rest) (List.cons_ne_nil _ _) hsome)
    · intro hnames ns path leaf _ hleaf _
      by_contra hunknown
      obtain ⟨error, herror⟩ := h.rejects path leaf hleaf hunknown
      rw [(enforceSchema_eq_ok_iff hmap).mpr hnames] at herror
      cases herror
  · intro h
    refine ⟨?_, ?_⟩
    · intro hbuilt
      refine (enforceSchema_eq_ok_iff hmap).mpr fun path hne hsome => ?_
      obtain ⟨ns, rest, rfl⟩ := List.exists_cons_of_ne_nil hne
      exact (isRegistered_keyPath_iff (hbuilt.plain hsome)).mpr (h.ways hbuilt ns rest hsome)
    · intro path leaf hleaf hunknown
      cases henforce : enforceSchema map registry with
      | error error => exact ⟨error, rfl⟩
      | ok _ =>
          have hnames := (enforceSchema_eq_ok_iff hmap).mp henforce
          have hne : path ≠ [] := by
            rintro rfl
            rw [Value.leafAt_nil] at hleaf
            cases hleaf
          have hsome := Option.isSome_of_eq_some (Value.leafAt_eq_some_iff.mp hleaf).1
          rcases (hnames path hne hsome).isFullPath_or with hfull | ⟨ns, hplain, hname⟩
          · exact absurd hfull hunknown
          · exact absurd (h.bare hnames ns path leaf hplain hleaf hname) hunknown

/-- Where the keys of all fields are plain, whatever was built from them is accepted. -/
theorem enforceSchema_of_plain {map : ConfigMap} (hmap : (Value.object map).Ordered)
    (hplain : ∀ ns key, (registry.fieldMeta ns key).isSome → Plain ns ∧ Plain key)
    (hbuilt : Built registry map) : enforceSchema map registry = .ok () := by
  refine (enforceSchema_eq_ok_iff hmap).mpr fun path hne hsome => ?_
  obtain ⟨full, ⟨ns, key, hfield, rfl⟩, hway⟩ := hbuilt.exists_prefix hne hsome
  obtain ⟨hns, hkey⟩ := hplain ns key hfield
  have hview : (registry.getNamespace ns).isSome := by
    cases hget : registry.getNamespace ns with
    | none =>
        rw [InMemorySchemaRegistry.fieldMeta, hget] at hfield
        cases hfield
    | some view => rfl
  rw [composeFullPath, if_neg hkey.1, segments_of_plain hns hkey] at hway
  obtain ⟨first, path, rfl⟩ := List.exists_cons_of_ne_nil hne
  obtain ⟨rfl, hrest⟩ := List.cons_prefix_cons.mp hway
  refine (isRegistered_keyPath_iff (hbuilt.plain hsome)).mpr ⟨hview, ?_⟩
  cases path with
  | nil => exact .inl rfl
  | cons second path =>
      obtain ⟨rfl, hnil⟩ := List.cons_prefix_cons.mp hrest
      rw [List.prefix_nil.mp hnil, keyPath_cons_eq_foldl]
      exact .inr hfield

end Exact

namespace DottedKey

/-- A field with a dotted key. -/
def registry : InMemorySchemaRegistry :=
  ⟨HashMap.put ∅ "app" ⟨HashMap.put ∅ "pool.max" ⟨.hotReloadSafe, none, ordered_of_none⟩⟩⟩

/-- The map in which only this field has a value. -/
def map : ConfigMap := [("app", .object [("pool", .object [("max", .number (.posInt 10))])])]

theorem ordered : (Value.object map).Ordered := by
  have hmax : (Value.object [("max", .number (.posInt 10))]).Ordered :=
    .object (List.pairwise_singleton _ _) (by simpa using .number _)
  have hpool : (Value.object [("pool", .object [("max", .number (.posInt 10))])]).Ordered :=
    .object (List.pairwise_singleton _ _) (by simpa using hmax)
  exact .object (List.pairwise_singleton _ _) (by simpa [map] using hpool)

theorem built : Built registry map := by
  have hpath : IsFullPath registry "app.pool.max" := ⟨"app", "pool.max", by decide, by decide⟩
  have hmerged : Built registry (mergeValue [] "app.pool.max" (.number (.posInt 10))) :=
    .merge .empty hpath rfl
  exact hmerged

end DottedKey

/-- The object on the way to a field with a dotted key is rejected as unknown. -/
theorem not_enforces_dottedKey :
    ¬ ∀ (registry : InMemorySchemaRegistry) (map : ConfigMap),
        (Value.object map).Ordered → Enforces registry map := by
  intro h
  have haccepted := (h DottedKey.registry DottedKey.map DottedKey.ordered).accepts DottedKey.built
  have hrejected : enforceSchema DottedKey.map DottedKey.registry = .error
      (.schema "Configuration contains unknown key." "unknown key: app.pool") := by
    decide
  rw [hrejected] at haccepted
  cases haccepted

namespace PlainKey

/-- The name of an application. -/
def map : ConfigMap := [("app", .object [("name", .string "Soul")])]

theorem ordered : (Value.object map).Ordered := by
  have hname : (Value.object [("name", .string "Soul")]).Ordered :=
    .object (List.pairwise_singleton _ _) (by simpa using .string _)
  exact .object (List.pairwise_singleton _ _) (by simpa [map] using hname)

theorem path_cases {ns : NamespaceId} {rest : List String}
    (h : (find (ns :: rest) (.object map)).isSome) :
    ns = "app" ∧ (rest = [] ∨ rest = ["name"]) := by
  obtain ⟨rfl, hrest⟩ := Value.of_isSome_find_singleton h
  refine ⟨rfl, ?_⟩
  cases rest with
  | nil => exact .inl rfl
  | cons key more =>
      obtain ⟨rfl, hmore⟩ := Value.of_isSome_find_singleton hrest
      cases more with
      | nil => exact .inr rfl
      | cons other more => cases hmore

end PlainKey

/-- Where every field has a plain key there are no objects on the way to one. -/
theorem enforces_plainKey : Enforces ScalarNamespace.registry PlainKey.map := by
  refine (enforces_iff ScalarNamespace.registry PlainKey.ordered).mpr ⟨?_, ?_⟩
  · intro _ ns rest hsome
    obtain ⟨rfl, rfl | rfl⟩ := PlainKey.path_cases hsome
    · exact ⟨by decide, .inl rfl⟩
    · exact ⟨by decide, .inr (by decide)⟩
  · intro _ ns path leaf _ hleaf _
    obtain ⟨hfind, hobject⟩ := Value.leafAt_eq_some_iff.mp hleaf
    cases path with
    | nil =>
        obtain rfl := Option.some.inj hfind
        cases hobject
    | cons ns rest =>
        obtain ⟨rfl, rfl | rfl⟩ := PlainKey.path_cases (Option.isSome_of_eq_some hfind)
        · obtain rfl := Option.some.inj hfind
          cases hobject
        · exact ⟨"app", "name", by decide, by decide⟩

end Soulbase.Config
