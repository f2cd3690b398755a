/-
# Loads

A load merges what its sources answer, applies the defaults, enforces the schema, resolves the
secrets and validates the result. The next load does all of it again. Of the previous snapshot it
uses the version and the leaves, for the event that says what has changed, and nothing else.
-/

import Soulbase.Config.DefaultOrder
import Soulbase.Config.Enforcement
import Soulbase.Config.Merging

namespace Soulbase.Config

open Soulbase.Foundation
open Soulbase.Json (Value)
open Soulbase.Json.Value (find leafAt)

/-- A `ConfigMap` in the order of its names, as each is without `preserve_order`. -/
abbrev OrderedMap := { map : ConfigMap // (Value.object map).Ordered }

/-- `SecretResolver`. -/
structure SecretResolver where
  resolve : OrderedMap → Except ConfigError OrderedMap

/-- `NoopSecretResolver`. -/
def noopSecretResolver : SecretResolver := ⟨.ok⟩

/-- `Validator`. -/
structure Validator where
  validate : NamespaceId → ConfigMap → Except ConfigError Unit

/-- `BasicValidator`. -/
def basicValidator : Validator := ⟨fun _ _ => .ok ()⟩

/-- `Loader`, with the order in which its registry yields the fields. -/
structure Loader (Source : Type) where
  sources : List Source
  secrets : List SecretResolver
  validator : Validator
  schemaRegistry : InMemorySchemaRegistry
  visiting : schemaRegistry.Visiting

/-- `SnapshotMetadata`. -/
structure SnapshotMetadata where
  version : String
  checksum : String
  issuedAtEpochMs : Int64
  reloadSummary : HashMap KeyPath ReloadClass

/-- `ConfigSnapshot`, with its metadata. -/
structure LoadedSnapshot extends ConfigSnapshot where
  metadata : SnapshotMetadata

/-- `ConfigUpdateEvent`. -/
structure ConfigUpdateEvent where
  fromVersion : Option String
  toVersion : String
  checksum : String
  changedKeys : List KeyPath
  issuedAt : Timestamp

/-- What a load finds outside: the contents of the sources, the time, and the order in which the
keys of two snapshots are visited. -/
structure Surroundings (Source : Type) where
  load : Source → Except ConfigError SourceSnapshot
  issuedAtMs : Int64
  visit : ∀ first second : HashMap String ConfigValue, Visited first second

/-- `ConfigSnapshot::get_raw`. -/
def ConfigSnapshot.getRaw (snapshot : ConfigSnapshot) (path : KeyPath) : Option ConfigValue :=
  if segments path = [] then none else find (segments path) snapshot.rootValue

/-- `merge_maps` of what a source has answered. -/
def OrderedMap.merge (merged : OrderedMap) (snap : SourceSnapshot) : OrderedMap :=
  ⟨mergeMaps merged.1 snap.map, ordered_mergeMaps merged.2 snap.ordered⟩

/-- `apply_defaults`. -/
def OrderedMap.applyDefaults (merged : OrderedMap) (registry : InMemorySchemaRegistry)
    (visiting : registry.Visiting) : OrderedMap :=
  ⟨Config.applyDefaults merged.1 registry visiting, by
    rw [applyDefaults_eq]
    exact ordered_foldl merged.2 fun _ => (mem_defaultsIn visiting).mp⟩

/-- `build_reload_summary`. -/
def buildReloadSummary (registry : InMemorySchemaRegistry) (visiting : registry.Visiting) :
    HashMap KeyPath ReloadClass :=
  visiting.namespaces.foldl (fun summary ns =>
    match registry.getNamespace ns with
    | some view => (visiting.fields ns).foldl (fun summary key =>
        match view.fields.get key with
        | some fieldMeta => summary.put (composeFullPath ns key) fieldMeta.reload
        | none => summary) summary
    | none => summary) ∅

namespace Loader

variable {Source : Type}

/-- The loop of `load_with_prev` over the sources. -/
def mergeLoaded (loader : Loader Source) (around : Surroundings Source) :
    Except ConfigError OrderedMap :=
  loader.sources.foldlM (fun merged source => do
    let snap ← around.load source
    return merged.merge snap) ⟨[], Value.ordered_nil⟩

/-- The part of `load_with_prev` that makes the map of the snapshot. -/
def working (loader : Loader Source) (around : Surroundings Source) :
    Except ConfigError OrderedMap := do
  let merged ← loader.mergeLoaded around
  let merged := merged.applyDefaults loader.schemaRegistry loader.visiting
  enforceSchema merged.1 loader.schemaRegistry
  let working ← loader.secrets.foldlM (fun working resolver => resolver.resolve working) merged
  loader.validator.validate "root" working.1
  return working

variable (crates : ConfigCrates)

/-- The part of `load_with_prev` that makes the snapshot and the event of a map. -/
def publish (loader : Loader Source) (around : Surroundings Source)
    (previous : Option LoadedSnapshot) (working : OrderedMap) :
    LoadedSnapshot × ConfigUpdateEvent :=
  let checksum := computeChecksum crates working.1
  let metadata : SnapshotMetadata := {
    version := s!"v{around.issuedAtMs.toInt}"
    checksum := checksum
    issuedAtEpochMs := around.issuedAtMs
    reloadSummary := buildReloadSummary loader.schemaRegistry loader.visiting }
  let snapshot : LoadedSnapshot := { data := working.1, ordered := working.2, metadata := metadata }
  let changed := computeChangedKeys (previous.map (·.toConfigSnapshot)) snapshot.toConfigSnapshot
    (around.visit _ _)
  (snapshot, {
    fromVersion := previous.map (·.metadata.version)
    toVersion := metadata.version
    checksum := checksum
    changedKeys := changed
    issuedAt := ⟨around.issuedAtMs⟩ })

/-- `Loader::load_with_prev`. -/
def loadWithPrev (loader : Loader Source) (around : Surroundings Source)
    (previous : Option LoadedSnapshot) :
    Except ConfigError (LoadedSnapshot × ConfigUpdateEvent) := do
  let working ← loader.working around
  return loader.publish crates around previous working

/-- A snapshot that a load has returned. -/
def Produced (loader : Loader Source) (snapshot : LoadedSnapshot) : Prop :=
  ∃ around previous event, loader.loadWithPrev crates around previous = .ok (snapshot, event)

/-- The resolvers and the validator do nothing, as `NoopSecretResolver` and `BasicValidator`. -/
structure Quiet (loader : Loader Source) : Prop where
  secrets : ∀ resolver ∈ loader.secrets, resolver = noopSecretResolver
  validator : loader.validator = basicValidator

variable {crates} {loader : Loader Source} {around : Surroundings Source}
variable {previous : Option LoadedSnapshot} {snapshot : LoadedSnapshot} {event : ConfigUpdateEvent}
variable {result : OrderedMap}

/-- A load returns the map that it has made, whatever the previous snapshot is. -/
theorem data_of_loadWithPrev
    (h : loader.loadWithPrev crates around previous = .ok (snapshot, event)) :
    ∃ ordered, loader.working around = .ok ⟨snapshot.data, ordered⟩ := by
  obtain ⟨working, hworking, hpublish⟩ := except_do_eq_ok_iff.mp h
  cases hpublish
  exact ⟨working.2, hworking⟩

/-- A load that has made a map returns it. -/
theorem exists_loadWithPrev (crates : ConfigCrates) (previous : Option LoadedSnapshot)
    (h : loader.working around = .ok result) :
    ∃ snapshot event, loader.loadWithPrev crates around previous = .ok (snapshot, event) ∧
      snapshot.data = result.1 := by
  have hload : loader.loadWithPrev crates around previous =
      .ok (loader.publish crates around previous result) := by
    rw [loadWithPrev, h]
    rfl
  exact ⟨_, _, hload, rfl⟩

/-- The map of a load is what the resolvers and the validator let pass of one that the schema has
accepted. -/
theorem working_eq_ok_iff :
    loader.working around = .ok result ↔
      ∃ merged, loader.mergeLoaded around = .ok merged ∧
        enforceSchema (merged.applyDefaults loader.schemaRegistry loader.visiting).1
          loader.schemaRegistry = .ok () ∧
        loader.secrets.foldlM (fun working resolver => resolver.resolve working)
          (merged.applyDefaults loader.schemaRegistry loader.visiting) = .ok result ∧
        loader.validator.validate "root" result.1 = .ok () := by
  simp only [working, except_do_eq_ok_iff]
  constructor
  · rintro ⟨merged, hmerged, _, henforce, resolved, hresolved, _, hvalid, hresult⟩
    cases hresult
    exact ⟨merged, hmerged, henforce, hresolved, hvalid⟩
  · rintro ⟨merged, hmerged, henforce, hresolved, hvalid⟩
    exact ⟨merged, hmerged, (), henforce, result, hresolved, (), hvalid, rfl⟩

theorem Quiet.resolve_eq (h : loader.Quiet) (map : OrderedMap) :
    loader.secrets.foldlM (fun working resolver => resolver.resolve working) map = .ok map := by
  have hfold : ∀ secrets : List SecretResolver,
      (∀ resolver ∈ secrets, resolver = noopSecretResolver) →
        secrets.foldlM (fun working resolver => resolver.resolve working) map =
          (.ok map : Except ConfigError OrderedMap) := by
    intro secrets
    induction secrets with
    | nil => exact fun _ => rfl
    | cons resolver rest ih =>
        intro hsecrets
        obtain ⟨rfl, hrest⟩ := List.forall_mem_cons.mp hsecrets
        exact ih hrest
  exact hfold loader.secrets h.secrets

/-- Where they do nothing, it is the map that the schema has accepted. -/
theorem Quiet.working_eq_ok_iff (h : loader.Quiet) :
    loader.working around = .ok result ↔
      ∃ merged, loader.mergeLoaded around = .ok merged ∧
        enforceSchema (merged.applyDefaults loader.schemaRegistry loader.visiting).1
          loader.schemaRegistry = .ok () ∧
        merged.applyDefaults loader.schemaRegistry loader.visiting = result := by
  rw [Loader.working_eq_ok_iff]
  simp only [h.resolve_eq, h.validator]
  constructor
  · rintro ⟨merged, hmerged, henforce, hresult, _⟩
    exact ⟨merged, hmerged, henforce, Except.ok.inj hresult⟩
  · rintro ⟨merged, hmerged, henforce, hresult⟩
    exact ⟨merged, hmerged, henforce, congrArg Except.ok hresult, rfl⟩

/-- Where all sources have the same, so has their merge. -/
theorem mergeLoaded_of_same {snap : SourceSnapshot} (hsources : loader.sources ≠ [])
    (h : ∀ source, around.load source = .ok snap) :
    loader.mergeLoaded around = .ok ⟨snap.map, snap.ordered⟩ := by
  have hstep : ∀ (sources : List Source) (merged : OrderedMap), merged.1 = snap.map →
      sources.foldlM (fun (merged : OrderedMap) source => do
        let snap ← around.load source
        return merged.merge snap) merged = .ok ⟨snap.map, snap.ordered⟩ := by
    intro sources
    induction sources with
    | nil =>
        rintro merged hmerged
        exact congrArg Except.ok (Subtype.ext hmerged)
    | cons source rest ih =>
        rintro merged hmerged
        rw [List.foldlM_cons, h source]
        refine ih (merged.merge snap) ?_
        change mergeMaps merged.1 snap.map = snap.map
        rw [hmerged, mergeMaps_self]
  rw [mergeLoaded]
  cases hlist : loader.sources with
  | nil => exact absurd hlist hsources
  | cons source rest =>
      rw [List.foldlM_cons, h source]
      exact hstep rest _ (mergeMaps_nil snap)

end Loader

end Soulbase.Config
