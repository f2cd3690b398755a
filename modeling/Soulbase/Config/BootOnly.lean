/-
# Fields that are read at boot only

A registered field has a reload class, and a load hands it on in the metadata of its snapshot.
Nothing looks at it: a reload gives a boot-only field the value that the sources have by then.

`keepsBootOnly_iff` says which loaders keep their boot-only fields nevertheless. A loader without
sources does, one that can load nothing, and one whose boot-only fields can have no value, since
the name of some object on the way to them is not registered.
-/

import Mathlib.Data.List.Dedup
import Soulbase.Config.Loader

namespace Soulbase.Config

open Soulbase.Foundation
open Soulbase.Json (Value)
open Soulbase.Json.Value (find leafAt)

/-- A field that is read at boot only is registered, with this full path. -/
def IsBootOnly (registry : InMemorySchemaRegistry) (full : KeyPath) : Prop :=
  ∃ ns key fieldMeta, registry.fieldMeta ns key = some fieldMeta ∧
    fieldMeta.reload = .bootOnly ∧ full = composeFullPath ns key

/-- A load after a snapshot of the loader gives the boot-only fields the values that they have
there, or none where they have none. -/
def Loader.KeepsBootOnly {Source : Type} (crates : ConfigCrates) (loader : Loader Source) : Prop :=
  ∀ previous, loader.Produced crates previous → ∀ around snapshot event,
    loader.loadWithPrev crates around (some previous) = .ok (snapshot, event) →
      ∀ full, IsBootOnly loader.schemaRegistry full →
        snapshot.getRaw full = previous.getRaw full

/-- The names of a path and of all objects on the way to it are registered. -/
def Passes (registry : InMemorySchemaRegistry) (path : List String) : Prop :=
  ∀ front, front <+: path → front ≠ [] → IsRegistered registry (keyPath front)

/-- The default of some field would be unknown to the schema. -/
def Unloadable (registry : InMemorySchemaRegistry) : Prop :=
  ∃ field, HasDefault registry field ∧ ¬Passes registry field.1

/-- No boot-only field can have a value. -/
def NeverSet (registry : InMemorySchemaRegistry) : Prop :=
  ∀ full, IsBootOnly registry full → segments full = [] ∨ ¬Passes registry (segments full)

section Accepted

variable {registry : InMemorySchemaRegistry} {map : ConfigMap} {path : List String}

/-- In an accepted map there are values only where the schema lets them pass. -/
theorem passes_of_accepted (hmap : (Value.object map).Ordered)
    (h : enforceSchema map registry = .ok ()) (hsome : (find path (.object map)).isSome) :
    Passes registry path := by
  rintro front ⟨rest, rfl⟩ hne
  refine (enforceSchema_eq_ok_iff hmap).mp h front hne ?_
  rw [Value.find_append] at hsome
  cases hfront : find front (.object map) with
  | some value => rfl
  | none =>
      rw [hfront] at hsome
      cases hsome

/-- With a default that is unknown, no map is accepted after the defaults. -/
theorem not_accepted_of_unloadable (h : Unloadable registry) {before : OrderedMap}
    (visiting : registry.Visiting) :
    enforceSchema (before.applyDefaults registry visiting).1 registry ≠ .ok () := by
  intro haccepted
  obtain ⟨field, hfield, hpasses⟩ := h
  refine hpasses (passes_of_accepted (before.applyDefaults registry visiting).2 haccepted ?_)
  change (find field.1 (.object (applyDefaults before.1 registry visiting))).isSome
  rw [applyDefaults_eq]
  exact isSome_find_of_mem before.1 ((mem_defaultsIn visiting).mpr hfield)

end Accepted

/-- The map with a leaf at a path and `null` at every field with a default that has no value. -/
def filledWith (registry : InMemorySchemaRegistry) (path : List String) (leaf : ConfigValue) :
    ConfigMap :=
  ((defaultsIn registry registry.anyOrder).map fun field => (field.1, Value.null)).foldl
    insertDefault (insertSegments [] path leaf)

section Filled

variable {registry : InMemorySchemaRegistry} {path front : List String} {leaf : ConfigValue}

theorem exists_default_of_mem {field : FieldDefault}
    (h : field ∈ (defaultsIn registry registry.anyOrder).map fun field => (field.1, Value.null)) :
    field.2 = .null ∧ ∃ given, HasDefault registry given ∧ given.1 = field.1 := by
  obtain ⟨given, hgiven, rfl⟩ := List.mem_map.mp h
  exact ⟨rfl, given, (mem_defaultsIn _).mp hgiven, rfl⟩

theorem ordered_filledWith (hleaf : leaf.Ordered) :
    (Value.object (filledWith registry path leaf)).Ordered := by
  refine List.foldlRecOn (motive := fun map => (Value.object map).Ordered) _ _
    (ordered_insertSegments Value.ordered_nil hleaf path) fun map hmap field hmem => ?_
  rw [insertDefault]
  split
  · exact hmap
  · rw [(exists_default_of_mem hmem).1]
    exact ordered_insertSegments hmap .null field.1

/-- The leaf stays where no default is below it. -/
theorem find_filledWith (hne : path ≠ [])
    (hlongest : ∀ field, HasDefault registry field → path <+: field.1 → path = field.1) :
    find path (.object (filledWith registry path leaf)) = some leaf := by
  have hstart := find_insertSegments_below [] hne [] leaf
  rw [List.append_nil] at hstart
  refine List.foldlRecOn (motive := fun map => find path (.object map) = some leaf) _ _ hstart
    fun map hmap field hmem => ?_
  obtain ⟨_, given, hgiven, hpath⟩ := exists_default_of_mem hmem
  rcases find_insertDefault_cases map field path with heq | ⟨hnone, hcase⟩
  · rw [heq, hmap]
  · rcases hcase with ⟨rest, hbelow, -⟩ | ⟨habove, hother, -⟩
    · exact absurd hbelow
        (ne_append_of_find_eq_none hnone (Option.isSome_of_eq_some hmap) rest)
    · rw [← hpath] at habove hother
      exact absurd (hlongest given hgiven habove) hother

/-- All that has a value in it is on the way to the leaf or to a default. -/
theorem way_of_find_filledWith (hleaf : leaf.isObject = false) (hne : path ≠ [])
    (hfront : front ≠ []) (h : (find front (.object (filledWith registry path leaf))).isSome) :
    front <+: path ∨ ∃ field, HasDefault registry field ∧ front <+: field.1 := by
  revert front
  refine List.foldlRecOn (motive := fun map => ∀ {front : List String}, front ≠ [] →
    (find front (.object map)).isSome →
      front <+: path ∨ ∃ field, HasDefault registry field ∧ front <+: field.1) _ _ ?_ ?_
  · intro front hfront hsome
    rcases prefix_or_of_find_insertSegments hne hleaf hsome with hway | hempty
    · exact .inl hway
    · obtain ⟨name, rest, rfl⟩ := List.exists_cons_of_ne_nil hfront
      cases hempty
  · intro map hmap field hmem front hfront hsome
    obtain ⟨hnull, given, hgiven, hpath⟩ := exists_default_of_mem hmem
    rw [insertDefault] at hsome
    split at hsome
    case isTrue => exact hmap hfront hsome
    case isFalse hfield =>
      have hvalue : field.2.isObject = false := by
        rw [hnull]
        rfl
      rcases prefix_or_of_find_insertSegments (not_or.mp hfield).1 hvalue hsome with hway | hbefore
      · exact .inr ⟨given, hgiven, hpath ▸ hway⟩
      · exact hmap hfront hbefore

/-- The defaults leave it as it is. -/
theorem applyDefaults_filledWith (visiting : registry.Visiting) :
    applyDefaults (filledWith registry path leaf) registry visiting =
      filledWith registry path leaf := by
  rw [applyDefaults_eq]
  refine List.foldlRecOn (motive := fun map => map = filledWith registry path leaf) _ _ rfl
    fun map hmap field hmem => ?_
  subst hmap
  apply insertDefault_of_some
  have hgiven : (field.1, Value.null) ∈
      (defaultsIn registry registry.anyOrder).map fun field => (field.1, Value.null) :=
    List.mem_map.mpr ⟨field, (mem_defaultsIn _).mpr ((mem_defaultsIn visiting).mp hmem), rfl⟩
  have hsome := isSome_find_of_mem (insertSegments [] path leaf) hgiven
  exact hsome

/-- It is accepted where the schema lets the path and all defaults pass. -/
theorem accepted_filledWith (hleaf : leaf.isObject = false) (hordered : leaf.Ordered)
    (hne : path ≠ []) (hpath : Passes registry path) (h : ¬Unloadable registry) :
    enforceSchema (filledWith registry path leaf) registry = .ok () := by
  refine (enforceSchema_eq_ok_iff (ordered_filledWith hordered)).mpr fun front hfront hsome => ?_
  rcases way_of_find_filledWith hleaf hne hfront hsome with hway | ⟨field, hfield, hway⟩
  · exact hpath front hway hfront
  · have hpasses : Passes registry field.1 := by
      by_contra hfails
      exact h ⟨field, hfield, hfails⟩
    exact hpasses front hway hfront

/-- Below a path there is one below which no default is, the path itself or that of a default. -/
theorem exists_lowest_path (registry : InMemorySchemaRegistry) (path : List String) :
    ∃ lowest, path <+: lowest ∧
      (lowest = path ∨ ∃ field, HasDefault registry field ∧ field.1 = lowest) ∧
        ∀ field, HasDefault registry field → lowest <+: field.1 → lowest = field.1 := by
  by_cases hbelow : ∃ field, HasDefault registry field ∧ path <+: field.1
  · obtain ⟨field, hfield⟩ := hbelow
    obtain ⟨longest, ⟨hlongest, hle⟩, hmax⟩ :=
      @exists_longest registry field (fun other => HasDefault registry other ∧ path <+: other.1)
        (fun _ hother => hother.1) hfield
    refine ⟨longest.1, hle, .inr ⟨longest, hlongest, rfl⟩, fun other hother habove => ?_⟩
    exact habove.eq_of_length_le (hmax other ⟨hother, hle.trans habove⟩)
  · refine ⟨path, List.prefix_rfl, .inl rfl, fun field hfield hle => ?_⟩
    exact absurd ⟨field, hfield, hle⟩ hbelow

end Filled

/-- All sources have the same. -/
def Surroundings.having {Source : Type} (snap : SourceSnapshot) : Surroundings Source where
  load _ := .ok snap
  issuedAtMs := 0
  visit first second := {
    keys := (first.keys ++ second.keys).dedup
    nodup := List.nodup_dedup _
    mem_iff := by
      intro key
      rw [List.mem_dedup, List.mem_append]
      exact or_congr AList.lookup_isSome.symm AList.lookup_isSome.symm }

section Loaders

variable {Source : Type} {crates : ConfigCrates} {loader : Loader Source}

/-- A loader that does nothing to accepted maps loads one with a leaf of choice. -/
theorem working_filledWith (hquiet : loader.Quiet) (hsources : loader.sources ≠ [])
    {path : List String} {leaf : ConfigValue} (hleaf : leaf.isObject = false)
    (hordered : leaf.Ordered) (hne : path ≠ []) (hpath : Passes loader.schemaRegistry path)
    (h : ¬Unloadable loader.schemaRegistry) :
    loader.working
        (.having ⟨filledWith loader.schemaRegistry path leaf, ordered_filledWith hordered⟩) =
      .ok ⟨filledWith loader.schemaRegistry path leaf, ordered_filledWith hordered⟩ := by
  have hdefaults : OrderedMap.applyDefaults
      ⟨filledWith loader.schemaRegistry path leaf, ordered_filledWith hordered⟩
      loader.schemaRegistry loader.visiting =
        ⟨filledWith loader.schemaRegistry path leaf, ordered_filledWith hordered⟩ :=
    Subtype.ext (applyDefaults_filledWith loader.visiting)
  refine hquiet.working_eq_ok_iff.mpr ⟨_, Loader.mergeLoaded_of_same hsources fun _ => rfl, ?_, ?_⟩
  · rw [hdefaults]
    exact accepted_filledWith hleaf hordered hne hpath h
  · exact hdefaults

/-- Two loads that differ at a boot-only field. -/
theorem not_keepsBootOnly (hquiet : loader.Quiet) (hsources : loader.sources ≠ [])
    (hloadable : ¬Unloadable loader.schemaRegistry) {full : KeyPath}
    (hboot : IsBootOnly loader.schemaRegistry full) (hne : segments full ≠ [])
    (hpasses : Passes loader.schemaRegistry (segments full)) : ¬loader.KeepsBootOnly crates := by
  intro hkeeps
  obtain ⟨lowest, hle, hlowest, hlongest⟩ :=
    exists_lowest_path loader.schemaRegistry (segments full)
  have hlowest_ne : lowest ≠ [] := by
    rintro rfl
    exact hne (List.prefix_nil.mp hle)
  have hlowest_passes : Passes loader.schemaRegistry lowest := by
    rcases hlowest with rfl | ⟨field, hfield, rfl⟩
    · exact hpasses
    · by_contra hfails
      exact hloadable ⟨field, hfield, hfails⟩
  have hload := fun {leaf : ConfigValue} (hleaf : leaf.isObject = false)
      (hordered : leaf.Ordered) =>
    working_filledWith hquiet hsources hleaf hordered hlowest_ne hlowest_passes hloadable
  obtain ⟨previous, _, hprevious, hbefore⟩ :=
    Loader.exists_loadWithPrev crates none (hload rfl .null)
  obtain ⟨snapshot, event, hsnapshot, hafter⟩ :=
    Loader.exists_loadWithPrev crates (some previous) (hload rfl (.bool true))
  have hsame := hkeeps previous ⟨_, _, _, hprevious⟩ _ _ _ hsnapshot full hboot
  rw [ConfigSnapshot.getRaw, ConfigSnapshot.getRaw, if_neg hne, if_neg hne,
    ConfigSnapshot.rootValue, ConfigSnapshot.rootValue, hbefore, hafter] at hsame
  obtain ⟨rest, rfl⟩ := hle
  have hnull := @find_filledWith loader.schemaRegistry _ .null hlowest_ne hlongest
  have hbool := @find_filledWith loader.schemaRegistry _ (.bool true) hlowest_ne hlongest
  rw [Value.find_append] at hnull hbool
  rw [hsame, hnull] at hbool
  cases hbool

/-- Without sources every load makes the same map, whatever the resolvers do. -/
theorem keepsBootOnly_of_no_sources (h : loader.sources = []) : loader.KeepsBootOnly crates := by
  rintro previous ⟨before, earlier, event, hprevious⟩ around snapshot event' hsnapshot full _
  obtain ⟨_, hbefore⟩ := Loader.data_of_loadWithPrev hprevious
  obtain ⟨_, hafter⟩ := Loader.data_of_loadWithPrev hsnapshot
  have hworking : loader.working around = loader.working before := by
    have hmerged : loader.mergeLoaded around = loader.mergeLoaded before := by
      rw [Loader.mergeLoaded, Loader.mergeLoaded, h]
      rfl
    rw [Loader.working, Loader.working, hmerged]
  rw [hworking, hbefore] at hafter
  have hdata : previous.data = snapshot.data := congrArg Subtype.val (Except.ok.inj hafter)
  rw [ConfigSnapshot.getRaw, ConfigSnapshot.getRaw, ConfigSnapshot.rootValue,
    ConfigSnapshot.rootValue, hdata]

/-- Where a default is unknown, nothing is loaded. -/
theorem keepsBootOnly_of_unloadable (h : Unloadable loader.schemaRegistry) :
    loader.KeepsBootOnly crates := by
  intro previous _ around snapshot event hsnapshot
  obtain ⟨_, hworking⟩ := Loader.data_of_loadWithPrev hsnapshot
  obtain ⟨merged, _, henforce, _⟩ := Loader.working_eq_ok_iff.mp hworking
  exact absurd henforce (not_accepted_of_unloadable h loader.visiting)

/-- A boot-only field whose path does not pass has no value in any snapshot. -/
theorem getRaw_eq_none (hquiet : loader.Quiet) {around : Surroundings Source}
    {previous : Option LoadedSnapshot} {snapshot : LoadedSnapshot} {event : ConfigUpdateEvent}
    (h : loader.loadWithPrev crates around previous = .ok (snapshot, event)) {full : KeyPath}
    (hfull : segments full = [] ∨ ¬Passes loader.schemaRegistry (segments full)) :
    snapshot.getRaw full = none := by
  rw [ConfigSnapshot.getRaw]
  split
  case isTrue => rfl
  case isFalse hne =>
    obtain ⟨hordered, hworking⟩ := Loader.data_of_loadWithPrev h
    obtain ⟨merged, _, henforce, hdata⟩ := hquiet.working_eq_ok_iff.mp hworking
    rw [hdata] at henforce
    by_contra hsome
    exact hfull.resolve_left hne
      (passes_of_accepted hordered henforce (Option.isSome_iff_ne_none.mpr hsome))

/-- A loader without sources, or one that can load nothing, keeps its boot-only fields. Where the
resolvers and the validator do nothing, only one that can give these fields no value does so
too. -/
theorem keepsBootOnly_iff (crates : ConfigCrates) (loader : Loader Source) :
    (loader.sources = [] ∨ Unloadable loader.schemaRegistry → loader.KeepsBootOnly crates) ∧
      (loader.Quiet → (loader.KeepsBootOnly crates ↔
        loader.sources = [] ∨ Unloadable loader.schemaRegistry ∨
          NeverSet loader.schemaRegistry)) := by
  refine ⟨?_, ?_⟩
  · rintro (hsources | hunloadable)
    · exact keepsBootOnly_of_no_sources hsources
    · exact keepsBootOnly_of_unloadable hunloadable
  · intro hquiet
    constructor
    · intro hkeeps
      by_contra hnot
      obtain ⟨hsources, hnot⟩ := not_or.mp hnot
      obtain ⟨hloadable, hset⟩ := not_or.mp hnot
      refine hset fun full hboot => ?_
      by_contra hfull
      obtain ⟨hne, hpasses⟩ := not_or.mp hfull
      exact not_keepsBootOnly hquiet hsources hloadable hboot hne (not_not.mp hpasses) hkeeps
    · rintro (hsources | hunloadable | hnever)
      · exact keepsBootOnly_of_no_sources hsources
      · exact keepsBootOnly_of_unloadable hunloadable
      · rintro previous ⟨_, _, _, hprevious⟩ around snapshot event hsnapshot full hboot
        rw [getRaw_eq_none hquiet hsnapshot (hnever full hboot),
          getRaw_eq_none hquiet hprevious (hnever full hboot)]

end Loaders

namespace MovingPort

/-- The port of a server, at boot only. -/
def registry : InMemorySchemaRegistry :=
  ⟨HashMap.put ∅ "server" ⟨HashMap.put ∅ "port" ⟨.bootOnly, none, ordered_of_none⟩⟩⟩

/-- A loader of one file. -/
def loader : Loader Unit :=
  ⟨[()], [noopSecretResolver], basicValidator, registry, registry.anyOrder⟩

/-- A file with a port. -/
def file (port : UInt64) : SourceSnapshot where
  map := [("server", .object [("port", .number (.posInt port))])]
  ordered := by
    have hport : (Value.object [("port", .number (.posInt port))]).Ordered :=
      .object (List.pairwise_singleton _ _) (by simpa using .number _)
    exact .object (List.pairwise_singleton _ _) (by simpa using hport)

/-- A load of the file makes a map with the port. -/
theorem working_file (port : UInt64) :
    loader.working (.having (file port)) = .ok ⟨(file port).map, (file port).ordered⟩ := by
  have hquiet : loader.Quiet := ⟨fun _ h => List.mem_singleton.mp h, rfl⟩
  refine hquiet.working_eq_ok_iff.mpr
    ⟨_, Loader.mergeLoaded_of_same (List.cons_ne_nil _ _) fun _ => rfl, ?_, Subtype.ext rfl⟩
  rfl

end MovingPort

open MovingPort in
/-- The port is moved by a reload. -/
theorem not_keepsBootOnly_movingPort :
    ¬ ∀ (crates : ConfigCrates) (loader : Loader Unit), loader.KeepsBootOnly crates := by
  intro h
  obtain ⟨previous, _, hprevious, hbefore⟩ :=
    Loader.exists_loadWithPrev ⟨fun _ => none, fun _ => ""⟩ none (working_file 8080)
  obtain ⟨snapshot, _, hsnapshot, hafter⟩ :=
    Loader.exists_loadWithPrev ⟨fun _ => none, fun _ => ""⟩ (some previous) (working_file 9090)
  have hboot : IsBootOnly registry "server.port" := ⟨"server", "port", _, rfl, rfl, rfl⟩
  have hsame := h _ loader previous ⟨_, _, _, hprevious⟩ _ _ _ hsnapshot "server.port" hboot
  rw [ConfigSnapshot.getRaw, ConfigSnapshot.getRaw, ConfigSnapshot.rootValue,
    ConfigSnapshot.rootValue, hbefore, hafter] at hsame
  have hpath : segments "server.port" = ["server", "port"] := by decide
  rw [hpath] at hsame
  have hports : some (Value.number (.posInt 9090)) = some (Value.number (.posInt 8080)) := hsame
  simp at hports

end Soulbase.Config
