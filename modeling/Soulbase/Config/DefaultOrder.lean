/-
# The order of defaults

A registry yields its namespaces and fields in no particular order, and every default that is
inserted is seen by the tests for the defaults after it. With a field and another one below it,
the default of the upper one is inserted only if it comes first.

`orderFree_iff_settled` says when the order makes no difference: the fields that count are the
lowest of those without a value, and the default of every field above them has to say nothing else.
-/

import Mathlib.Data.List.MinMax
import Soulbase.Config.Defaults

namespace Soulbase.Config

open Soulbase.Foundation
open Soulbase.Json (Value)
open Soulbase.Json.Value (find leafAt)

/-- The crates that are used of a snapshot. -/
structure ConfigCrates where
  /-- `serde_json::to_vec`. -/
  toVec : Json.Value → Option (List UInt8)
  /-- The digest by `Sha256`, in base64. -/
  sha256Base64 : List UInt8 → String

/-- `compute_checksum`. -/
def computeChecksum (crates : ConfigCrates) (map : ConfigMap) : String :=
  crates.sha256Base64 ((crates.toVec (.object map)).getD [])

/-- The maps are the same, with the same checksum and nothing that has changed. -/
structure SameSnapshot (crates : ConfigCrates) (first second : ConfigMap) : Prop where
  map_eq : first = second
  checksum_eq : computeChecksum crates first = computeChecksum crates second
  unchanged : ∀ (previous current : ConfigSnapshot)
    (visited : Visited (prevFlat (some previous)) (flattenSnapshot current)),
    previous.data = first → current.data = second →
      computeChangedKeys (some previous) current visited = []

theorem sameSnapshot_iff {crates : ConfigCrates} {first second : ConfigMap} :
    SameSnapshot crates first second ↔ first = second := by
  constructor
  · exact fun h => h.map_eq
  · rintro rfl
    refine ⟨rfl, rfl, fun previous current visited hprevious hcurrent => ?_⟩
    apply computeChangedKeys_of_sameLeaves
    rw [ConfigSnapshot.rootValue, ConfigSnapshot.rootValue, hprevious, hcurrent]
    exact .refl _

/-- Whatever the order, the defaults make the same snapshot. -/
def OrderFree (crates : ConfigCrates) (registry : InMemorySchemaRegistry) (map : ConfigMap) :
    Prop :=
  ∀ first second : registry.Visiting,
    SameSnapshot crates (applyDefaults map registry first) (applyDefaults map registry second)

/-- A field with a default whose path has no value. -/
def Missing (registry : InMemorySchemaRegistry) (map : ConfigMap) (field : FieldDefault) : Prop :=
  HasDefault registry field ∧ find field.1 (.object map) = none

/-- None of the fields without a value is below it. -/
def Lowest (registry : InMemorySchemaRegistry) (map : ConfigMap) (field : FieldDefault) : Prop :=
  Missing registry map field ∧
    ∀ other, Missing registry map other → field.1 <+: other.1 → other.1 = field.1

/-- The path is at, below or above a lowest field. -/
def Spoken (registry : InMemorySchemaRegistry) (map : ConfigMap) (path : List String) : Prop :=
  ∃ lowest, Lowest registry map lowest ∧ (lowest.1 <+: path ∨ path <+: lowest.1)

/-- The default of a field without a value says nothing but what the lowest fields say. -/
structure Settled (registry : InMemorySchemaRegistry) (map : ConfigMap) : Prop where
  agrees : ∀ field lowest, Missing registry map field → Lowest registry map lowest →
    ∀ rest, lowest.1 = field.1 ++ rest → ∀ value, find rest field.2 = some value →
      value = lowest.2
  covered : ∀ field, Missing registry map field → ∀ rest, (find rest field.2).isSome →
    Spoken registry map (field.1 ++ rest)

section Fields

variable {registry : InMemorySchemaRegistry} {map : ConfigMap} {field lowest : FieldDefault}
variable {fields : List FieldDefault} {path : List String}

/-- The registry as it is, in some order. -/
def InMemorySchemaRegistry.anyOrder (registry : InMemorySchemaRegistry) : registry.Visiting where
  namespaces := registry.inner.keys
  fields ns := ((registry.getNamespace ns).map (·.fields.keys)).getD []
  enumerates := .refl _
  enumerates_fields ns view h := by
    rw [h]
    exact .refl _

/-- Of some fields with defaults, one has the longest path. -/
theorem exists_longest {P : FieldDefault → Prop}
    (hP : ∀ other, P other → HasDefault registry other) (h : P field) :
    ∃ longest, P longest ∧ ∀ other, P other → other.1.length ≤ longest.1.length := by
  classical
  let chosen := (defaultsIn registry registry.anyOrder).filter P
  have hchosen : ∀ other, P other → other ∈ chosen := fun other hother =>
    List.mem_filter.mpr ⟨(mem_defaultsIn _).mpr (hP other hother), decide_eq_true hother⟩
  cases hmax : chosen.argmax (·.1.length) with
  | none =>
      have hfield := hchosen field h
      rw [List.argmax_eq_none.mp hmax] at hfield
      cases hfield
  | some longest =>
      refine ⟨longest, of_decide_eq_true (List.mem_filter.mp (List.argmax_mem hmax)).2, ?_⟩
      exact fun other hother => List.le_of_mem_argmax
        (f := fun other : FieldDefault => other.1.length) (hchosen other hother) hmax

/-- Below a field without a value there is a lowest one. -/
theorem exists_lowest (h : Missing registry map field) :
    ∃ lowest, Lowest registry map lowest ∧ field.1 <+: lowest.1 := by
  obtain ⟨lowest, ⟨hmissing, hle⟩, hlongest⟩ :=
    @exists_longest registry field (fun other => Missing registry map other ∧ field.1 <+: other.1)
      (fun _ hother => hother.1.1) ⟨h, List.prefix_rfl⟩
  refine ⟨lowest, ⟨hmissing, fun other hother habove => ?_⟩, hle⟩
  have hlength := hlongest other ⟨hother, hle.trans habove⟩
  exact (habove.eq_of_length_le hlength).symm

/-- The order that is changed to begin with a field. -/
def InMemorySchemaRegistry.Visiting.startingAt (visiting : registry.Visiting) {ns : NamespaceId}
    {key : KeyPath} (hns : ns ∈ visiting.namespaces) (hkey : key ∈ visiting.fields ns) :
    registry.Visiting where
  namespaces := ns :: visiting.namespaces.erase ns
  fields other :=
    if other = ns then key :: (visiting.fields ns).erase key else visiting.fields other
  enumerates := (List.perm_cons_erase hns).symm.trans visiting.enumerates
  enumerates_fields other view hview := by
    split
    case isTrue heq =>
      subst heq
      exact (List.perm_cons_erase hkey).symm.trans (visiting.enumerates_fields other view hview)
    case isFalse => exact visiting.enumerates_fields other view hview

/-- Any field with a default can be the first. -/
theorem exists_first (h : HasDefault registry field) :
    ∃ (visiting : registry.Visiting) (rest : List FieldDefault),
      defaultsIn registry visiting = field :: rest := by
  obtain ⟨ns, key, hdefault⟩ := h
  obtain ⟨hns, hkey⟩ := visits_of_defaultOf registry.anyOrder hdefault
  refine ⟨registry.anyOrder.startingAt hns hkey, List.head?_eq_some_iff.mp ?_⟩
  have hfields : (registry.anyOrder.startingAt hns hkey).fields ns =
      key :: (registry.anyOrder.fields ns).erase key := if_pos rfl
  change (((registry.anyOrder.startingAt hns hkey).fields ns).filterMap (defaultOf registry ns) ++
    _).head? = some field
  rw [hfields, List.filterMap_cons_some hdefault]
  rfl

end Fields

section Orders

variable {registry : InMemorySchemaRegistry} {before map : ConfigMap} {field lowest : FieldDefault}
variable {fields : List FieldDefault} {path : List String} {value : ConfigValue}

/-- What has a value still has one. -/
def Keeps (before map : ConfigMap) : Prop :=
  ∀ path, (find path (.object before)).isSome → (find path (.object map)).isSome

theorem Keeps.insertDefault (h : Keeps before map) (field : FieldDefault) :
    Keeps before (insertDefault map field) :=
  fun path hpath => isSome_find_insertDefault (h path hpath)

/-- A field that is inserted had no value from the start. -/
theorem Keeps.missing (h : Keeps before map) (hfield : HasDefault registry field)
    (hnone : find field.1 (.object map) = none) : Missing registry before field := by
  refine ⟨hfield, ?_⟩
  by_contra hsome
  have hkept := h field.1 (Option.isSome_iff_ne_none.mpr hsome)
  rw [hnone] at hkept
  cases hkept

/-- While defaults are inserted, the lowest fields have no value or theirs, and what is apart from
them is as it was. -/
structure Underway (registry : InMemorySchemaRegistry) (before map : ConfigMap) : Prop where
  kept : Keeps before map
  lowest : ∀ field, Lowest registry before field →
    find field.1 (.object map) = none ∨ find field.1 (.object map) = some field.2
  apart : ∀ path, ¬Spoken registry before path →
    find path (.object map) = find path (.object before)

theorem Underway.start (registry : InMemorySchemaRegistry) (before : ConfigMap) :
    Underway registry before before where
  kept _ h := h
  lowest _ h := .inl h.1.2
  apart _ _ := rfl

theorem Underway.insertDefault (hsettled : Settled registry before)
    (h : Underway registry before map) (hfield : HasDefault registry field) :
    Underway registry before (insertDefault map field) where
  kept := h.kept.insertDefault field
  lowest lowest hlowest := by
    rcases find_insertDefault_cases map field lowest.1 with heq | ⟨hnone, hcase⟩
    · rw [heq]
      exact h.lowest lowest hlowest
    · have hmissing := h.kept.missing hfield hnone
      rcases hcase with ⟨rest, hrest, heq⟩ | ⟨habove, hne, -⟩
      · rw [heq]
        cases hvalue : find rest field.2 with
        | none => exact .inl rfl
        | some value =>
            rw [hsettled.agrees field lowest hmissing hlowest rest hrest value hvalue]
            exact .inr rfl
      · exact absurd (hlowest.2 field hmissing habove).symm hne
  apart path hpath := by
    rcases find_insertDefault_cases map field path with heq | ⟨hnone, hcase⟩
    · rw [heq, h.apart path hpath]
    · have hmissing := h.kept.missing hfield hnone
      rcases hcase with ⟨rest, rfl, heq⟩ | ⟨habove, -, -⟩
      · have hsilent : find rest field.2 = none := by
          by_contra hsome
          exact hpath (hsettled.covered field hmissing rest (Option.isSome_iff_ne_none.mpr hsome))
        rw [heq, hsilent, Value.find_append, hmissing.2]
        rfl
      · obtain ⟨lowest, hlowest, hle⟩ := exists_lowest hmissing
        exact absurd ⟨lowest, hlowest, .inr (habove.trans hle)⟩ hpath

theorem Underway.foldl (hsettled : Settled registry before)
    (hfields : ∀ field ∈ fields, HasDefault registry field) :
    Underway registry before (fields.foldl Soulbase.Config.insertDefault before) :=
  List.foldlRecOn (motive := Underway registry before) fields _ (.start registry before)
    fun _ h field hmem => h.insertDefault hsettled (hfields field hmem)

/-- A field that was visited has a value. -/
theorem isSome_find_of_mem (before : ConfigMap) (hmem : field ∈ fields) :
    (find field.1 (.object (fields.foldl insertDefault before))).isSome := by
  obtain ⟨front, rest, rfl⟩ := List.append_of_mem hmem
  rw [List.foldl_append, List.foldl_cons]
  apply isSome_find_foldl_insertDefault _
  cases hfield : find field.1 (.object (front.foldl insertDefault before)) with
  | some value =>
      rw [insertDefault_of_some (Option.isSome_of_eq_some hfield), hfield]
      rfl
  | none =>
      have hne : field.1 ≠ [] := by
        intro hnil
        rw [hnil] at hfield
        cases hfield
      have hbelow := find_insertSegments_below (front.foldl insertDefault before) hne [] field.2
      rw [List.append_nil] at hbelow
      rw [insertDefault_of_none hfield, hbelow]
      rfl

theorem ordered_insertSegments (hmap : (Value.object map).Ordered) (hvalue : value.Ordered)
    (path : List String) : (Value.object (insertSegments map path value)).Ordered := by
  induction path generalizing map with
  | nil => exact hmap
  | cons segment path ih =>
      by_cases hpath : path = []
      · subst hpath
        exact hmap.insert hvalue
      · rw [insertSegments_cons map segment value hpath]
        refine hmap.insert (ih ?_)
        rw [childOf]
        split
        case h_1 child hchild => exact hmap.of_get hchild
        case h_2 => exact .object .nil fun _ h => absurd h List.not_mem_nil

theorem ordered_of_hasDefault (h : HasDefault registry field) : field.2.Ordered := by
  obtain ⟨ns, key, hdefault⟩ := h
  obtain ⟨default, hbind, rfl⟩ := Option.map_eq_some_iff.mp hdefault
  obtain ⟨found, -, hfound⟩ := Option.bind_eq_some_iff.mp hbind
  exact found.ordered default hfound

theorem ordered_foldl (hbefore : (Value.object before).Ordered)
    (hfields : ∀ field ∈ fields, HasDefault registry field) :
    (Value.object (fields.foldl insertDefault before)).Ordered := by
  refine List.foldlRecOn (motive := fun map => (Value.object map).Ordered) fields _ hbefore
    fun map hmap field hmem => ?_
  rw [insertDefault]
  split
  · exact hmap
  · exact ordered_insertSegments hmap (ordered_of_hasDefault (hfields field hmem)) field.1

/-- After all defaults a lowest field has its own. -/
theorem find_lowest (hsettled : Settled registry before) (visiting : registry.Visiting)
    (hlowest : Lowest registry before lowest) :
    find lowest.1 (.object ((defaultsIn registry visiting).foldl insertDefault before)) =
      some lowest.2 := by
  have h : Underway registry before ((defaultsIn registry visiting).foldl insertDefault before) :=
    .foldl hsettled fun _ => (mem_defaultsIn _).mp
  rcases h.lowest lowest hlowest with hnone | hsome
  · have hvisited := isSome_find_of_mem before
      ((mem_defaultsIn visiting).mpr hlowest.1.1)
    rw [hnone] at hvisited
    cases hvisited
  · exact hsome

/-- Two orders leave the same at every path, or objects. -/
theorem alike_applyDefaults (hsettled : Settled registry before)
    (first second : registry.Visiting) :
    Value.Alike (.object (applyDefaults before registry first))
      (.object (applyDefaults before registry second)) := by
  rw [applyDefaults_eq, applyDefaults_eq]
  intro path
  by_cases hspoken : Spoken registry before path
  · obtain ⟨lowest, hlowest, hle⟩ := hspoken
    by_cases hbelow : lowest.1 <+: path
    · obtain ⟨rest, rfl⟩ := hbelow
      left
      rw [Value.find_append, Value.find_append, find_lowest hsettled first hlowest,
        find_lowest hsettled second hlowest]
    · right
      have habove : path <+: lowest.1 := hle.resolve_left hbelow
      have hne : path ≠ lowest.1 := fun h => hbelow (h ▸ List.prefix_rfl)
      exact ⟨object_above_foldl before ((mem_defaultsIn _).mpr hlowest.1.1) habove hne,
        object_above_foldl before ((mem_defaultsIn _).mpr hlowest.1.1) habove hne⟩
  · left
    have hfirst :
        Underway registry before ((defaultsIn registry first).foldl insertDefault before) :=
      .foldl hsettled fun _ => (mem_defaultsIn _).mp
    have hsecond :
        Underway registry before ((defaultsIn registry second).foldl insertDefault before) :=
      .foldl hsettled fun _ => (mem_defaultsIn _).mp
    rw [hfirst.apart path hspoken, hsecond.apart path hspoken]

/-! ## Two orders that differ -/

/-- What is at a path stays there if no field without a value is below it. -/
theorem find_foldl_of_lowest (hfields : ∀ field ∈ fields, HasDefault registry field)
    (hpath : ∀ field, Missing registry before field → path <+: field.1 → field.1 = path)
    (hkept : Keeps before map) (hvalue : find path (.object map) = some value) :
    find path (.object (fields.foldl insertDefault map)) = some value := by
  induction fields generalizing map with
  | nil => exact hvalue
  | cons field fields ih =>
      have hrest : ∀ other ∈ fields, HasDefault registry other := fun other hother =>
        hfields other (List.mem_cons_of_mem _ hother)
      rw [List.foldl_cons]
      apply ih hrest (hkept.insertDefault field)
      rcases find_insertDefault_cases map field path with heq | ⟨hnone, hcase⟩
      · rwa [heq]
      · rcases hcase with ⟨rest, hrest, -⟩ | ⟨habove, hne, -⟩
        · exact absurd hrest
            (ne_append_of_find_eq_none hnone (Option.isSome_of_eq_some hvalue) rest)
        · have hmissing := hkept.missing (hfields field List.mem_cons_self) hnone
          exact absurd (hpath field hmissing habove).symm hne

/-- A field that comes first has its default. -/
theorem find_insertDefault_first (h : Missing registry before field) (rest : List String) :
    find (field.1 ++ rest) (.object (insertDefault before field)) = find rest field.2 := by
  have hne : field.1 ≠ [] := by
    intro hnil
    have hnone := h.2
    rw [hnil] at hnone
    cases hnone
  rw [insertDefault_of_none h.2, find_insertSegments_below before hne]

/-- What the field that comes first says of a lowest one is left there in the end. -/
theorem find_applyDefaults_of_first {visiting : registry.Visiting} {rest : List String}
    (hfirst : defaultsIn registry visiting = field :: fields)
    (h : Missing registry before field) (hlowest : Lowest registry before lowest)
    (hrest : lowest.1 = field.1 ++ rest) (hvalue : find rest field.2 = some value) :
    find lowest.1 (.object (applyDefaults before registry visiting)) = some value := by
  have hfields : ∀ other ∈ fields, HasDefault registry other := by
    intro other hother
    rw [← mem_defaultsIn visiting, hfirst]
    exact List.mem_cons_of_mem _ hother
  rw [applyDefaults_eq, hfirst, List.foldl_cons]
  refine find_foldl_of_lowest hfields hlowest.2
    (Keeps.insertDefault (fun _ h => h) field) ?_
  rw [hrest, find_insertDefault_first h, hvalue]

theorem isSome_find_of_prefix {front : List String} (hle : front <+: path)
    (h : (find path (.object map)).isSome) : (find front (.object map)).isSome := by
  obtain ⟨rest, rfl⟩ := hle
  rw [Value.find_append] at h
  cases hfront : find front (.object map) with
  | none =>
      rw [hfront] at h
      cases h
  | some held => rfl

/-- A path that no lowest field is at, below or above has no value in the end, if the fields above
it have values. -/
theorem find_foldl_of_not_spoken (hfields : ∀ field ∈ fields, HasDefault registry field)
    (hpath : ¬Spoken registry before path)
    (habove : ∀ field, Missing registry before field → field.1 <+: path →
      (find field.1 (.object map)).isSome)
    (hkept : Keeps before map) (hnone : find path (.object map) = none) :
    find path (.object (fields.foldl insertDefault map)) = none := by
  induction fields generalizing map with
  | nil => exact hnone
  | cons field fields ih =>
      have hrest : ∀ other ∈ fields, HasDefault registry other := fun other hother =>
        hfields other (List.mem_cons_of_mem _ hother)
      rw [List.foldl_cons]
      refine ih hrest (fun other hother hle => ?_) (hkept.insertDefault field) ?_
      · exact isSome_find_insertDefault (habove other hother hle)
      · rcases find_insertDefault_cases map field path with heq | ⟨hfield, hcase⟩
        · rwa [heq]
        · have hmissing := hkept.missing (hfields field List.mem_cons_self) hfield
          rcases hcase with ⟨rest, hrest, -⟩ | ⟨hle, -, -⟩
          · have hvalue := habove field hmissing (hrest ▸ List.prefix_append _ _)
            rw [hfield] at hvalue
            cases hvalue
          · obtain ⟨lowest, hlowest, hbelow⟩ := exists_lowest hmissing
            exact absurd ⟨lowest, hlowest, .inr (hle.trans hbelow)⟩ hpath

theorem settled_of_orderFree
    (h : ∀ first second : registry.Visiting,
      applyDefaults before registry first = applyDefaults before registry second) :
    Settled registry before where
  agrees field lowest hfield hlowest rest hrest value hvalue := by
    obtain ⟨first, others, hfirst⟩ := exists_first hfield.1
    obtain ⟨second, others', hsecond⟩ := exists_first hlowest.1.1
    have hleft := find_applyDefaults_of_first hfirst hfield hlowest hrest hvalue
    have hright := find_applyDefaults_of_first hsecond hlowest.1 hlowest
      (List.append_nil _).symm rfl
    rw [h first second, hright] at hleft
    exact (Option.some.inj hleft).symm
  covered field hfield rest hsome := by
    by_contra hpath
    -- The lowest field below the last one above the path makes the path unreachable.
    obtain ⟨last, ⟨hmissing, hle⟩, hlast⟩ :=
      @exists_longest registry field
        (fun other => Missing registry before other ∧ other.1 <+: field.1 ++ rest)
        (fun _ hother => hother.1.1) ⟨hfield, List.prefix_append _ _⟩
    obtain ⟨lowest, hlowest, hbelow⟩ := exists_lowest hmissing
    obtain ⟨first, others, hfirst⟩ := exists_first hfield.1
    obtain ⟨second, others', hsecond⟩ := exists_first hlowest.1.1
    have hleft :
        (find (field.1 ++ rest) (.object (applyDefaults before registry first))).isSome := by
      rw [applyDefaults_eq, hfirst, List.foldl_cons]
      apply isSome_find_foldl_insertDefault _
      rwa [find_insertDefault_first hfield]
    have hright :
        find (field.1 ++ rest) (.object (applyDefaults before registry second)) = none := by
      rw [applyDefaults_eq, hsecond, List.foldl_cons]
      refine find_foldl_of_not_spoken (fun other hother => ?_) hpath (fun other hother hway => ?_)
        (Keeps.insertDefault (fun _ h => h) lowest) ?_
      · rw [← mem_defaultsIn second, hsecond]
        exact List.mem_cons_of_mem _ hother
      · have habove : other.1 <+: last.1 :=
          List.prefix_of_prefix_length_le hway hle (hlast other ⟨hother, hway⟩)
        refine isSome_find_of_prefix (habove.trans hbelow) ?_
        have hvalue := find_insertDefault_first hlowest.1 []
        rw [List.append_nil] at hvalue
        rw [hvalue]
        rfl
      · have helsewhere : Elsewhere (field.1 ++ rest) lowest.1 :=
          ⟨fun h => hpath ⟨lowest, hlowest, .inr h⟩, fun h => hpath ⟨lowest, hlowest, .inl h⟩⟩
        rw [insertDefault_of_none hlowest.1.2, find_insertSegments_elsewhere before helsewhere,
          Value.find_append, hfield.2]
        rfl
    rw [h first second, hright] at hleft
    cases hleft

/-- The order of the defaults makes no difference exactly where the fields without a value are
settled by the lowest of them. -/
theorem orderFree_iff_settled (crates : ConfigCrates) (registry : InMemorySchemaRegistry)
    {map : ConfigMap} (hmap : (Value.object map).Ordered) :
    OrderFree crates registry map ↔ Settled registry map := by
  constructor
  · exact fun h => settled_of_orderFree fun first second => (h first second).map_eq
  · intro h first second
    have hordered : ∀ visiting : registry.Visiting,
        (Value.object (applyDefaults map registry visiting)).Ordered := by
      intro visiting
      rw [applyDefaults_eq]
      exact ordered_foldl hmap fun _ => (mem_defaultsIn _).mp
    have hsame :=
      (hordered first).eq_of_alike (hordered second) (alike_applyDefaults h first second)
    exact sameSnapshot_iff.mpr (Value.object.inj hsame)

end Orders

namespace PoolDefaults

/-- The default of a pool says how large it may be, and so does that of a field below. -/
def fields : HashMap KeyPath FieldMeta :=
  HashMap.put (HashMap.put ∅ "pool.max"
      ⟨.hotReloadSafe, some (.number (.posInt 10)), fun _ h => Option.some.inj h ▸ .number _⟩)
    "pool" ⟨.hotReloadSafe, some (.object [("max", .number (.posInt 1))]), fun _ h =>
      Option.some.inj h ▸ .object (List.pairwise_singleton _ _) (by simpa using .number _)⟩

def registry : InMemorySchemaRegistry := ⟨HashMap.put ∅ "db" ⟨fields⟩⟩

/-- The fields in one of their two orders. -/
def visiting (keys : List KeyPath) (hkeys : fields.Enumerates keys) : registry.Visiting where
  namespaces := ["db"]
  fields _ := keys
  enumerates := by decide
  enumerates_fields := by
    intro ns view h
    have hns : registry.getNamespace ns = if ns = "db" then some ⟨fields⟩ else none :=
      HashMap.get_put ∅ "db" ns _
    rw [hns] at h
    obtain ⟨-, hview⟩ := Option.ite_none_right_eq_some.mp h
    rw [← Option.some.inj hview]
    exact hkeys

end PoolDefaults

/-- The limit is that of the pool only if the pool comes first. -/
theorem not_orderFree_pool :
    ¬ ∀ (crates : ConfigCrates) (registry : InMemorySchemaRegistry) (map : ConfigMap),
        (Value.object map).Ordered → OrderFree crates registry map := by
  intro h
  have hsame := (h ⟨fun _ => none, fun _ => ""⟩ PoolDefaults.registry []
    (.object .nil fun _ hmem => absurd hmem List.not_mem_nil)
    (PoolDefaults.visiting ["pool", "pool.max"] (by decide))
    (PoolDefaults.visiting ["pool.max", "pool"] (by decide))).map_eq
  have hmax := congrArg (fun map => find ["db", "pool", "max"] (.object map)) hsame
  change some (Value.number (.posInt 1)) = some (Value.number (.posInt 10)) at hmax
  cases hmax

namespace PoolDefaults

/-- A pool is there, with no limit. -/
def given : ConfigMap :=
  [("db", .object [("pool", .object [("min", .number (.posInt 2))])])]

/-- The encoding and the digest of the one snapshot. -/
def crates : ConfigCrates where
  toVec _ :=
    some "\x7b\"db\":\x7b\"pool\":\x7b\"max\":10,\"min\":2\x7d\x7d\x7d".toUTF8.toList
  sha256Base64 _ := "pCYRYYNziJib5GdpdSZbjuUYXfOWRsLhhWTvm9C4uIs="

theorem ordered_given : (Value.object given).Ordered := by
  have hpool : (Value.object [("min", .number (.posInt 2))]).Ordered :=
    .object (List.pairwise_singleton _ _) (by simpa using .number _)
  have hdb : (Value.object [("pool", .object [("min", .number (.posInt 2))])]).Ordered :=
    .object (List.pairwise_singleton _ _) (by simpa using hpool)
  exact .object (List.pairwise_singleton _ _) (by simpa [given] using hdb)

/-- Only the limit is missing. -/
theorem eq_of_missing {field : FieldDefault} (h : Missing registry given field) :
    field = (["db", "pool", "max"], .number (.posInt 10)) := by
  obtain ⟨hdefault, hnone⟩ := h
  have hmem := (mem_defaultsIn (visiting ["pool", "pool.max"] (by decide))).mpr hdefault
  rcases List.mem_cons.mp hmem with rfl | hlast
  · cases hnone
  · exact List.mem_singleton.mp hlast

end PoolDefaults

/-- Where the pool is given, only its limit is a default, whichever field comes first. -/
theorem orderFree_poolGiven :
    OrderFree PoolDefaults.crates PoolDefaults.registry PoolDefaults.given := by
  refine (orderFree_iff_settled PoolDefaults.crates PoolDefaults.registry
    PoolDefaults.ordered_given).mpr ⟨?_, ?_⟩
  · intro field lowest hfield hlowest rest hrest value hvalue
    rw [PoolDefaults.eq_of_missing hlowest.1] at hrest ⊢
    rw [PoolDefaults.eq_of_missing hfield] at hrest hvalue
    obtain rfl : rest = [] := List.self_eq_append_right.mp hrest
    exact (Option.some.inj hvalue).symm
  · intro field hfield rest _
    refine ⟨field, ⟨hfield, fun other hother _ => ?_⟩, .inl (List.prefix_append _ _)⟩
    rw [PoolDefaults.eq_of_missing hother, PoolDefaults.eq_of_missing hfield]

end Soulbase.Config
