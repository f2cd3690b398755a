/-
# What a configuration takes from its sources

A command line and an environment assign texts to dotted paths, one after the other, and a list of
files is merged object by object. A load then merges what each of its sources has made.

Within a source an assignment stands as long as no later one is made at its path, above it or
below. Between sources only what stands counts: an assignment that a later one of the same source
has replaced overrides nothing of an earlier source. `effectiveConfig` says what a load leaves at
every path, in terms of the arguments, the variables and the files alone.
-/

import Soulbase.Config.DefaultOrder
import Soulbase.Config.Loader

namespace Soulbase.Config

open Soulbase.Errors Soulbase.Foundation
open Soulbase.Json (Value)
open Soulbase.Json.Value (find leafAt)

/-- `io_provider_unavailable`. -/
def ConfigError.ioProviderUnavailable (phase detail : String) : ConfigError :=
  ⟨((FullErrorObj.new codes.providerUnavailable).userMsg
    "Configuration source is unavailable.").devMsg s!"{phase}: {detail}"⟩

/-- `io::Error`, as far as a source looks at it, with its text. -/
inductive IoError
  | notFound
  | other (text : String)

/-- What the sources read outside: the variables in their order, the files and what their text is
as a value, and the case of letters. -/
structure Machine where
  vars : List (String × String)
  readToString : String → Except IoError String
  fromStr : String → Option { value : ConfigValue // value.Ordered }
  upper : Char → List Char
  lower : String → String

/-- An insertion keeps the order of the names. -/
theorem ordered_mergeValue {map : ConfigMap} {value : ConfigValue}
    (hmap : (Value.object map).Ordered) (hvalue : value.Ordered) (key : String) :
    (Value.object (mergeValue map key value)).Ordered := by
  rw [mergeValue]
  split
  · exact hmap
  · exact ordered_insertSegments hmap hvalue _

/-- `merge_value` of a text. -/
def OrderedMap.assign (map : OrderedMap) (key text : String) : OrderedMap :=
  ⟨mergeValue map.1 key (.string text), ordered_mergeValue map.2 (.string text) key⟩

/-- A source's map before anything is read. -/
def OrderedMap.empty : OrderedMap := ⟨[], Value.ordered_nil⟩

theorem OrderedMap.ordered (map : OrderedMap) : (Value.object map.1).Ordered := map.2

/-- `SourceSnapshot` of a map. -/
def OrderedMap.snapshot (map : OrderedMap) : SourceSnapshot := ⟨map.1, map.ordered⟩

/-- `CliArgsSource`. -/
structure CliArgsSource where
  args : List String

/-- `CliArgsSource::load`. -/
def CliArgsSource.load (source : CliArgsSource) : OrderedMap :=
  source.args.foldl (fun map arg =>
    match Text.stripPrefix arg "--" with
    | some stripped =>
        match Text.splitOnce '=' stripped with
        | some (key, value) => map.assign key value
        | none => map
    | none =>
        match Text.splitOnce '=' arg with
        | some (key, value) => map.assign key value
        | none => map) .empty

/-- `EnvSource`. -/
structure EnvSource where
  start : String
  separator : String

/-- The path of a variable whose name begins with the prefix of the source, as one text. -/
def EnvSource.pathOf (source : EnvSource) (lower : String → String) (trimmed : String) : String :=
  ".".intercalate (((Text.split source.separator trimmed).filter (· ≠ "")).map lower)

/-- `EnvSource::load`. -/
def EnvSource.load (machine : Machine) (source : EnvSource) : OrderedMap :=
  let startUpper := Text.toUppercase machine.upper source.start
  machine.vars.foldl (fun map (key, value) =>
    if Text.startsWith key startUpper then
      let trimmed := Text.trimStartMatches (· = '_') (Text.trimStartText startUpper key)
      if trimmed = "" then map
      else map.assign (source.pathOf machine.lower trimmed) value
    else map) .empty

/-- `FileSource`. -/
structure FileSource where
  paths : List String

/-- `FileSource::load`. -/
def FileSource.load (machine : Machine) (source : FileSource) : Except ConfigError OrderedMap :=
  source.paths.foldlM (fun map path =>
    match machine.readToString path with
    | .ok content =>
        match machine.fromStr content with
        | some ⟨.object object, ordered⟩ => .ok (map.merge ⟨object, ordered⟩)
        | _ => .ok map
    | .error .notFound => .ok map
    | .error (.other err) => .error (.ioProviderUnavailable "file" err)) .empty

/-- The sources that there are. -/
inductive ConfigSource
  | file (source : FileSource)
  | env (source : EnvSource)
  | cli (source : CliArgsSource)

/-- `Source::load`. -/
def ConfigSource.load (machine : Machine) : ConfigSource → Except ConfigError SourceSnapshot
  | .file source => (source.load machine).map OrderedMap.snapshot
  | .env source => .ok (source.load machine).snapshot
  | .cli source => .ok source.load.snapshot

/-- What a load finds outside, on a machine. -/
def Machine.around (machine : Machine) (issuedAtMs : Int64)
    (visit : ∀ first second : HashMap String ConfigValue, Visited first second) :
    Surroundings ConfigSource :=
  { load := ConfigSource.load machine, issuedAtMs := issuedAtMs, visit := visit }

/-- A text that is assigned to a path of keys. -/
abbrev Assignment := List String × String

/-- The assignment of a text to a dotted path, unless the path is empty. -/
def assignment (key text : String) : Option Assignment :=
  if segments key = [] then none else some (segments key, text)

/-- The assignment of an argument. -/
def cliAssignment (arg : String) : Option Assignment :=
  (Text.splitOnce '=' ((Text.stripPrefix arg "--").getD arg)).bind fun (key, text) =>
    assignment key text

/-- The assignments of the arguments. -/
def CliArgsSource.assignments (source : CliArgsSource) : List Assignment :=
  source.args.filterMap cliAssignment

/-- The assignment of a variable. -/
def EnvSource.assignment (machine : Machine) (source : EnvSource) (key text : String) :
    Option Assignment :=
  let startUpper := Text.toUppercase machine.upper source.start
  let trimmed := Text.trimStartMatches (· = '_') (Text.trimStartText startUpper key)
  if Text.startsWith key startUpper ∧ trimmed ≠ "" then
    Config.assignment (source.pathOf machine.lower trimmed) text
  else none

/-- The assignments of the variables. -/
def EnvSource.assignments (machine : Machine) (source : EnvSource) : List Assignment :=
  machine.vars.filterMap fun (key, text) => source.assignment machine key text

/-- The object of a file that is there and holds one. -/
def Machine.objectOf (machine : Machine) (path : String) : Option SourceSnapshot :=
  match machine.readToString path with
  | .ok content =>
      match machine.fromStr content with
      | some ⟨.object object, ordered⟩ => some ⟨object, ordered⟩
      | _ => none
  | .error _ => none

/-- The error of a file that is there and cannot be read. -/
def Machine.failureOf (machine : Machine) (path : String) : Option ConfigError :=
  match machine.readToString path with
  | .error (.other err) => some (.ioProviderUnavailable "file" err)
  | _ => none

/-- The assignment of the text to the path is made, and none at the path, above it or below comes
later. -/
def Stands (assignments : List Assignment) (path : List String) (text : String) : Prop :=
  ∃ earlier later, assignments = earlier ++ (path, text) :: later ∧
    ∀ other ∈ later, Elsewhere path other.1

namespace ConfigSource

variable (machine : Machine)

/-- The leaf that a source has at a path. -/
def SaysLeaf : ConfigSource → List String → ConfigValue → Prop
  | .file source, path, leaf =>
      ∃ earlier snap later, source.paths.filterMap machine.objectOf = earlier ++ snap :: later ∧
        valueAt snap.map path = some leaf ∧ ∀ other ∈ later, ¬Overrides other.map path
  | .env source, path, leaf =>
      ∃ text, leaf = .string text ∧ Stands (source.assignments machine) path text
  | .cli source, path, leaf => ∃ text, leaf = .string text ∧ Stands source.assignments path text

/-- A source has an object at a path. -/
def SaysObject : ConfigSource → List String → Prop
  | .file source, path =>
      ∃ earlier snap later, source.paths.filterMap machine.objectOf = earlier ++ snap :: later ∧
        HasObject snap.map path ∧ ∀ other ∈ later, ¬Ends other.map path
  | .env source, path => ∃ rest text, rest ≠ [] ∧
      Stands (source.assignments machine) (path ++ rest) text
  | .cli source, path => ∃ rest text, rest ≠ [] ∧ Stands source.assignments (path ++ rest) text

/-- A source has a leaf at a path or above it. -/
def SaysEnd (source : ConfigSource) (path : List String) : Prop :=
  ∃ front leaf, front <+: path ∧ leaf.isObject = false ∧ source.SaysLeaf machine front leaf

/-- A source has something at a path, or a leaf above it. -/
def Speaks (source : ConfigSource) (path : List String) : Prop :=
  source.SaysObject machine path ∨ source.SaysEnd machine path

end ConfigSource

/-- At every path there is the leaf of the last source that speaks of it, or an object of a source
that no later one ends. -/
structure Effective (machine : Machine) (sources : List ConfigSource) (merged : ConfigMap) :
    Prop where
  leaf : ∀ path leaf, leaf.isObject = false → (valueAt merged path = some leaf ↔
    ∃ earlier source later, sources = earlier ++ source :: later ∧
      source.SaysLeaf machine path leaf ∧ ∀ other ∈ later, ¬other.Speaks machine path)
  object : ∀ path, path ≠ [] → (HasObject merged path ↔
    ∃ earlier source later, sources = earlier ++ source :: later ∧
      source.SaysObject machine path ∧ ∀ other ∈ later, ¬other.SaysEnd machine path)

/-- The files that the sources name, in their order. -/
def filePaths (sources : List ConfigSource) : List String :=
  sources.flatMap fun
    | .file source => source.paths
    | _ => []

section Assignments

variable {assignments : List Assignment} {path front : List String} {text : String}
variable {leaf : ConfigValue} {root : ConfigMap}

/-- The texts inserted at their paths. -/
def assignAll (assignments : List Assignment) : ConfigMap :=
  assignments.foldl (fun root assigned => insertSegments root assigned.1 (.string assigned.2)) []

theorem find_empty (hpath : path ≠ []) : find path (.object []) = none := by
  cases path with
  | nil => exact absurd rfl hpath
  | cons key path => rfl

/-- Apart from what is above there is nothing below. -/
theorem elsewhere_of_prefix {other : List String} (hle : path <+: front)
    (h : Elsewhere path other) : Elsewhere front other := by
  constructor
  · exact fun hfront => h.1 (hle.trans hfront)
  · intro hother
    rcases List.prefix_or_prefix_of_prefix hle hother with hpath | hpath
    · exact h.1 hpath
    · exact h.2 hpath

/-- A leaf after one more assignment. -/
theorem find_assign_iff (root : ConfigMap) {assigned : Assignment} (hne : assigned.1 ≠ [])
    (hleaf : leaf.isObject = false) :
    find path (.object (insertSegments root assigned.1 (.string assigned.2))) = some leaf ↔
      (assigned.1 = path ∧ leaf = .string assigned.2) ∨
        find path (.object root) = some leaf ∧ ¬¬Elsewhere path assigned.1 := by
  rw [not_not]
  by_cases hbelow : assigned.1 <+: path
  · obtain ⟨rest, rfl⟩ := hbelow
    have hnot : ¬Elsewhere (assigned.1 ++ rest) assigned.1 := fun h => h.2 (List.prefix_append _ _)
    simp only [hnot, and_false, or_false]
    rw [find_insertSegments_below root hne]
    cases rest with
    | nil => simp [find, eq_comm]
    | cons key rest => simp [find]
  · have hpath : assigned.1 ≠ path := fun h => hbelow (h ▸ List.prefix_rfl)
    by_cases habove : path <+: assigned.1
    · obtain ⟨child, hchild⟩ := find_insertSegments_above root habove (Ne.symm hpath)
        (.string assigned.2)
      have hnot : ¬Elsewhere path assigned.1 := fun h => h.1 habove
      have hobject : Value.object child ≠ leaf := by
        rintro rfl
        cases hleaf
      simp [hchild, hnot, hpath, hobject]
    · rw [find_insertSegments_elsewhere root ⟨habove, hbelow⟩]
      simp [hpath, show Elsewhere path assigned.1 from ⟨habove, hbelow⟩]

/-- An object after one more assignment. -/
theorem object_assign_iff (root : ConfigMap) {assigned : Assignment} (hne : assigned.1 ≠ []) :
    (∃ child, find path (.object (insertSegments root assigned.1 (.string assigned.2))) =
        some (.object child)) ↔
      (path <+: assigned.1 ∧ path ≠ assigned.1) ∨
        (∃ child, find path (.object root) = some (.object child)) ∧
          ¬¬Elsewhere path assigned.1 := by
  rw [not_not]
  by_cases hbelow : assigned.1 <+: path
  · have hnot : ¬Elsewhere path assigned.1 := fun h => h.2 hbelow
    refine iff_of_false ?_ ?_
    · obtain ⟨rest, rfl⟩ := hbelow
      rw [find_insertSegments_below root hne]
      cases rest <;> simp [find]
    · rintro (⟨habove, hpath⟩ | ⟨-, h⟩)
      · exact hpath (habove.eq_of_length_le hbelow.length_le)
      · exact hnot h
  · by_cases habove : path <+: assigned.1
    · have hpath : path ≠ assigned.1 := fun h => hbelow (h ▸ List.prefix_rfl)
      have hchild := find_insertSegments_above root habove hpath (.string assigned.2)
      exact iff_of_true hchild (.inl ⟨habove, hpath⟩)
    · rw [find_insertSegments_elsewhere root ⟨habove, hbelow⟩]
      simp [habove, show Elsewhere path assigned.1 from ⟨habove, hbelow⟩]

/-- The leaves are the texts that stand. -/
theorem find_assignAll_iff (hne : ∀ assigned ∈ assignments, assigned.1 ≠ []) (hpath : path ≠ [])
    (hleaf : leaf.isObject = false) :
    find path (.object (assignAll assignments)) = some leaf ↔
      ∃ text, leaf = .string text ∧ Stands assignments path text := by
  have hstart : find path (.object []) ≠ some leaf := by
    rw [find_empty hpath]
    exact nofun
  refine (foldl_iff_last (fun root => find path (.object root) = some leaf)
    (fun assigned : Assignment => assigned.1 = path ∧ leaf = .string assigned.2)
    (fun assigned => ¬Elsewhere path assigned.1) hstart
    fun root assigned hmem => find_assign_iff root (hne assigned hmem) hleaf).trans ?_
  constructor
  · rintro ⟨earlier, ⟨_, text⟩, later, hlist, ⟨rfl, hvalue⟩, hlater⟩
    exact ⟨text, hvalue, earlier, later, hlist, fun other hmem => not_not.mp (hlater other hmem)⟩
  · rintro ⟨text, hvalue, earlier, later, hlist, hlater⟩
    exact ⟨earlier, (path, text), later, hlist, ⟨rfl, hvalue⟩,
      fun other hmem => not_not.mpr (hlater other hmem)⟩

/-- The objects are above the texts that stand. -/
theorem object_assignAll_iff (hne : ∀ assigned ∈ assignments, assigned.1 ≠ []) (hpath : path ≠ []) :
    (∃ child, find path (.object (assignAll assignments)) = some (.object child)) ↔
      ∃ rest text, rest ≠ [] ∧ Stands assignments (path ++ rest) text := by
  constructor
  · intro hobject
    have hstart : ¬∃ child, find path (.object []) = some (.object child) := by
      rw [find_empty hpath]
      exact fun ⟨_, h⟩ => nomatch h
    obtain ⟨earlier, ⟨_, text⟩, later, hlist, ⟨⟨rest, rfl⟩, hnil⟩, hlater⟩ :=
      (foldl_iff_last (fun root => ∃ child, find path (.object root) = some (.object child))
        (fun assigned : Assignment => path <+: assigned.1 ∧ path ≠ assigned.1)
        (fun assigned => ¬Elsewhere path assigned.1) hstart
        fun root assigned hmem => object_assign_iff root (hne assigned hmem)).mp hobject
    refine ⟨rest, text, fun h => hnil (by rw [h, List.append_nil]), earlier, later, hlist, ?_⟩
    exact fun other hmem =>
      elsewhere_of_prefix (List.prefix_append _ _) (not_not.mp (hlater other hmem))
  · rintro ⟨rest, text, hrest, hstands⟩
    have hleaf := (find_assignAll_iff hne (List.append_ne_nil_of_left_ne_nil hpath rest) rfl).mpr
      ⟨text, rfl, hstands⟩
    exact object_of_find_append hrest (Option.isSome_of_eq_some hleaf)

end Assignments

/-! ## What a source makes -/

section Made

variable {machine : Machine} {path : List String} {leaf : ConfigValue}

theorem OrderedMap.assign_eq (map : OrderedMap) (key text : String) :
    (map.assign key text).1 =
      match assignment key text with
      | some assigned => insertSegments map.1 assigned.1 (.string assigned.2)
      | none => map.1 := by
  show mergeValue map.1 key (.string text) = _
  rw [mergeValue, assignment]
  split <;> rfl

/-- Texts are assigned one after the other, for the items that assign one. -/
theorem foldl_assign_eq {α : Type} {step : OrderedMap → α → OrderedMap}
    {read : α → Option Assignment} (items : List α)
    (h : ∀ map item, (step map item).1 =
      match read item with
      | some assigned => insertSegments map.1 assigned.1 (.string assigned.2)
      | none => map.1) :
    (items.foldl step .empty).1 = assignAll (items.filterMap read) := by
  rw [assignAll, List.foldl_filterMap]
  show _ = items.foldl _ OrderedMap.empty.1
  generalize OrderedMap.empty = map
  induction items generalizing map with
  | nil => rfl
  | cons item items ih =>
      rw [List.foldl_cons, List.foldl_cons, ih, h]
      cases read item <;> rfl

theorem CliArgsSource.load_eq (source : CliArgsSource) :
    source.load.1 = assignAll source.assignments := by
  refine foldl_assign_eq source.args fun map arg => ?_
  rw [cliAssignment]
  cases Text.stripPrefix arg "--" with
  | some stripped =>
      dsimp only [Option.getD_some]
      cases Text.splitOnce '=' stripped with
      | none => rfl
      | some parts => exact map.assign_eq parts.1 parts.2
  | none =>
      dsimp only [Option.getD_none]
      cases Text.splitOnce '=' arg with
      | none => rfl
      | some parts => exact map.assign_eq parts.1 parts.2

theorem EnvSource.load_eq (machine : Machine) (source : EnvSource) :
    (source.load machine).1 = assignAll (source.assignments machine) := by
  refine foldl_assign_eq machine.vars fun map ⟨key, value⟩ => ?_
  dsimp only
  rw [EnvSource.assignment]
  by_cases hstart : Text.startsWith key (Text.toUppercase machine.upper source.start) = true
  · rw [if_pos hstart]
    by_cases hempty : Text.trimStartMatches (· = '_')
        (Text.trimStartText (Text.toUppercase machine.upper source.start) key) = ""
    · simp [hempty]
    · simp only [hempty, if_false, hstart, ne_eq, not_false_iff, and_self, if_true]
      exact map.assign_eq _ _
  · simp [hstart]

theorem assignment_ne_nil {key text : String} {assigned : Assignment}
    (h : assignment key text = some assigned) : assigned.1 ≠ [] := by
  rw [assignment] at h
  split at h
  case isTrue => cases h
  case isFalse hne =>
    cases h
    exact hne

theorem CliArgsSource.assignments_ne_nil (source : CliArgsSource) {assigned : Assignment}
    (h : assigned ∈ source.assignments) : assigned.1 ≠ [] := by
  obtain ⟨arg, _, harg⟩ := List.mem_filterMap.mp h
  obtain ⟨parts, _, hparts⟩ := Option.bind_eq_some_iff.mp harg
  exact assignment_ne_nil hparts

theorem EnvSource.assignments_ne_nil (source : EnvSource) {assigned : Assignment}
    (h : assigned ∈ source.assignments machine) : assigned.1 ≠ [] := by
  obtain ⟨⟨key, text⟩, _, hread⟩ := List.mem_filterMap.mp h
  simp only [EnvSource.assignment] at hread
  split at hread
  case isTrue => exact assignment_ne_nil hread
  case isFalse => cases hread

end Made

namespace ConfigSource

variable {machine : Machine} {source : ConfigSource} {path : List String} {leaf : ConfigValue}

/-- The map of a source whose files can be read. -/
def made (machine : Machine) : ConfigSource → OrderedMap
  | .file source => (source.paths.filterMap machine.objectOf).foldl OrderedMap.merge .empty
  | .env source => source.load machine
  | .cli source => source.load

/-- The error of the first file that cannot be read. -/
def failure (machine : Machine) : ConfigSource → Option ConfigError
  | .file source => source.paths.findSome? machine.failureOf
  | _ => none

theorem load_eq (machine : Machine) (source : ConfigSource) :
    source.load machine =
      (source.failure machine).elim (.ok (source.made machine).snapshot) .error := by
  cases source with
  | env source => rfl
  | cli source => rfl
  | file source =>
      have hload : source.load machine = _ :=
        except_foldlM_eq machine.failureOf
          (fun map path => (machine.objectOf path).elim map map.merge) source.paths
          (fun map path => by
            rw [Machine.failureOf, Machine.objectOf]
            cases machine.readToString path with
            | error err => cases err <;> rfl
            | ok content =>
                dsimp only
                split <;> rfl) OrderedMap.empty
      have hmade : source.paths.foldl (fun map path => (machine.objectOf path).elim map map.merge)
          OrderedMap.empty = ((ConfigSource.file source).made machine) := by
        rw [made, List.foldl_filterMap]
        congr 1
        funext map path
        cases machine.objectOf path <;> rfl
      rw [load, hload, hmade, failure]
      cases source.paths.findSome? machine.failureOf <;> rfl

theorem made_file (source : FileSource) :
    ((ConfigSource.file source).made machine).1 =
      mergeSources (source.paths.filterMap machine.objectOf) := by
  rw [made, mergeSources]
  show _ = List.foldl _ OrderedMap.empty.1 _
  generalize OrderedMap.empty = map
  induction source.paths.filterMap machine.objectOf generalizing map with
  | nil => rfl
  | cons snap snaps ih => exact ih (map.merge snap)

/-- The leaves of the map that a source makes. -/
theorem valueAt_made_iff (hleaf : leaf.isObject = false) :
    valueAt (source.made machine).1 path = some leaf ↔ source.SaysLeaf machine path leaf := by
  have htexts : ∀ {assignments : List Assignment}, (∀ other ∈ assignments, other.1 ≠ []) →
      (valueAt (assignAll assignments) path = some leaf ↔
        ∃ text, leaf = .string text ∧ Stands assignments path text) := by
    intro assignments hne
    by_cases hpath : path = []
    · subst hpath
      refine iff_of_false (fun h => nomatch h) ?_
      rintro ⟨text, -, earlier, later, rfl, -⟩
      exact hne ([], text) (by simp) rfl
    · rw [valueAt_eq_find hpath, find_assignAll_iff hne hpath hleaf]
  cases source with
  | file source =>
      rw [made_file]
      exact (layered_mergeSources _).leaf path leaf hleaf
  | env source =>
      rw [made, source.load_eq machine]
      exact htexts fun _ => source.assignments_ne_nil
  | cli source =>
      rw [made, source.load_eq]
      exact htexts fun _ => source.assignments_ne_nil

/-- The objects of the map that a source makes. -/
theorem hasObject_made_iff (hpath : path ≠ []) :
    HasObject (source.made machine).1 path ↔ source.SaysObject machine path := by
  cases source with
  | file source =>
      rw [made_file]
      exact (layered_mergeSources _).object path
  | env source =>
      rw [made, source.load_eq machine, HasObject, valueAt_eq_find hpath]
      exact object_assignAll_iff (fun _ => source.assignments_ne_nil) hpath
  | cli source =>
      rw [made, source.load_eq, HasObject, valueAt_eq_find hpath]
      exact object_assignAll_iff (fun _ => source.assignments_ne_nil) hpath

theorem ends_made_iff :
    Ends (source.made machine).1 path ↔ source.SaysEnd machine path := by
  constructor
  · rintro ⟨front, hle, leaf, hvalue, hleaf⟩
    exact ⟨front, leaf, hle, hleaf, (valueAt_made_iff hleaf).mp hvalue⟩
  · rintro ⟨front, leaf, hle, hleaf, hsays⟩
    exact ⟨front, hle, leaf, (valueAt_made_iff hleaf).mpr hsays, hleaf⟩

theorem overrides_made_iff (hpath : path ≠ []) :
    Overrides (source.made machine).1 path ↔ source.Speaks machine path := by
  rw [Speaks, ← hasObject_made_iff hpath, ← ends_made_iff, Overrides]
  constructor
  · rintro (hsome | ⟨front, hle, -, hleaf⟩)
    · obtain ⟨value, hvalue⟩ := Option.isSome_iff_exists.mp hsome
      cases hobject : value.isObject with
      | false => exact .inr ⟨path, List.prefix_rfl, value, hvalue, hobject⟩
      | true =>
          cases value with
          | object child => exact .inl ⟨child, hvalue⟩
          | _ => cases hobject
    · exact .inr ⟨front, hle, hleaf⟩
  · rintro (⟨child, hchild⟩ | ⟨front, hle, hleaf⟩)
    · exact .inl (Option.isSome_of_eq_some hchild)
    · by_cases hfront : front = path
      · subst hfront
        obtain ⟨leaf, hvalue, -⟩ := hleaf
        exact .inl (Option.isSome_of_eq_some hvalue)
      · exact .inr ⟨front, hle, hfront, hleaf⟩

end ConfigSource

namespace Loader

variable {loader : Loader ConfigSource} {machine : Machine} {issuedAtMs : Int64}
variable {visit : ∀ first second : HashMap String ConfigValue, Visited first second}
variable {merged : OrderedMap} {path : List String} {leaf : ConfigValue}

/-- A load fails with the first file that cannot be read, and merges what its sources make where
there is none. -/
theorem mergeLoaded_eq (loader : Loader ConfigSource) (machine : Machine) (issuedAtMs : Int64)
    (visit : ∀ first second : HashMap String ConfigValue, Visited first second) :
    loader.mergeLoaded (machine.around issuedAtMs visit) =
      ((filePaths loader.sources).findSome? machine.failureOf).elim (.ok (loader.sources.foldl
        (fun merged source => merged.merge (source.made machine).snapshot) .empty)) .error := by
  have hfail : (filePaths loader.sources).findSome? machine.failureOf =
      loader.sources.findSome? (ConfigSource.failure machine) := by
    rw [filePaths]
    induction loader.sources with
    | nil => rfl
    | cons source sources ih =>
        rw [List.flatMap_cons, List.findSome?_append, ih, List.findSome?_cons]
        cases source with
        | file source =>
            rw [ConfigSource.failure]
            cases source.paths.findSome? machine.failureOf <;> rfl
        | env source => rfl
        | cli source => rfl
  rw [hfail]
  refine except_foldlM_eq (ConfigSource.failure machine)
    (fun merged source => OrderedMap.merge merged (source.made machine).snapshot) loader.sources
    (fun merged source => ?_) OrderedMap.empty
  show (source.load machine >>= _) = _
  rw [source.load_eq machine]
  cases source.failure machine <;> rfl

/-- What a load merges is in effect. -/
theorem effective_of_mergeLoaded
    (h : loader.mergeLoaded (machine.around issuedAtMs visit) = .ok merged) :
    Effective machine loader.sources merged.1 := by
  have hmerged : merged.1 = loader.sources.foldl
      (fun merged source => mergeMaps merged (source.made machine).1) [] := by
    rw [mergeLoaded_eq] at h
    cases hfail : (filePaths loader.sources).findSome? machine.failureOf with
    | some err =>
        rw [hfail] at h
        cases h
    | none =>
        rw [hfail, Option.elim_none] at h
        rw [← Except.ok.inj h]
        show _ = List.foldl _ OrderedMap.empty.1 _
        generalize OrderedMap.empty = map
        induction loader.sources generalizing map with
        | nil => rfl
        | cons source sources ih => exact ih (map.merge (source.made machine).snapshot)
  constructor
  · intro path leaf hleaf
    by_cases hpath : path = []
    · subst hpath
      refine iff_of_false (fun h => nomatch h) ?_
      rintro ⟨earlier, source, later, -, hsays, -⟩
      exact nomatch (ConfigSource.valueAt_made_iff hleaf).mpr hsays
    · simp only [hmerged, ← ConfigSource.valueAt_made_iff hleaf,
        ← ConfigSource.overrides_made_iff hpath]
      refine foldl_iff_last (fun merged => valueAt merged path = some leaf)
        (fun source : ConfigSource => valueAt (source.made machine).1 path = some leaf)
        (fun source => Overrides (source.made machine).1 path) ?_
        fun merged source _ =>
          valueAt_mergeMaps_iff merged (source.made machine).snapshot hleaf path
      cases path <;> simp [valueAt, Json.Map.get]
  · intro path hpath
    simp only [hmerged, ← ConfigSource.hasObject_made_iff hpath, ← ConfigSource.ends_made_iff]
    refine foldl_iff_last (fun merged => HasObject merged path)
      (fun source : ConfigSource => HasObject (source.made machine).1 path)
      (fun source => Ends (source.made machine).1 path) ?_
      fun merged source _ => hasObject_mergeMaps_iff merged (source.made machine).snapshot path
    cases path <;> simp [HasObject, valueAt, Json.Map.get]

/-- A value that no default is below is left by the insertion of defaults. -/
theorem find_foldl_insertDefault_of_forall {fields : List FieldDefault} {map : ConfigMap}
    (hfind : find path (.object map) = some leaf)
    (hbelow : ∀ field ∈ fields, path <+: field.1 → field.1 = path) :
    find path (.object (fields.foldl insertDefault map)) = some leaf := by
  induction fields generalizing map with
  | nil => exact hfind
  | cons field fields ih =>
      obtain ⟨hfield, hfields⟩ := List.forall_mem_cons.mp hbelow
      refine ih ?_ hfields
      rcases find_insertDefault_cases map field path with heq | ⟨hnone, ⟨rest, hpath, -⟩ | hcase⟩
      · rw [heq, hfind]
      · exact absurd hpath
          (ne_append_of_find_eq_none hnone (Option.isSome_of_eq_some hfind) rest)
      · exact absurd (hfield hcase.1).symm hcase.2.1

/-- What a snapshot has at a path that its sources give a value. -/
theorem getRaw_of_mergeLoaded {crates : ConfigCrates} {previous : Option LoadedSnapshot}
    {snapshot : LoadedSnapshot} {event : ConfigUpdateEvent} {key : KeyPath} (hquiet : loader.Quiet)
    (hload : loader.loadWithPrev crates (machine.around issuedAtMs visit) previous =
      .ok (snapshot, event))
    (hmerged : loader.mergeLoaded (machine.around issuedAtMs visit) = .ok merged)
    (hvalue : valueAt merged.1 (segments key) = some leaf)
    (hbelow : ∀ field, HasDefault loader.schemaRegistry field → segments key <+: field.1 →
      field.1 = segments key) :
    snapshot.getRaw key = some leaf := by
  obtain ⟨ordered, hworking⟩ := data_of_loadWithPrev hload
  obtain ⟨other, hother, -, hdata⟩ := hquiet.working_eq_ok_iff.mp hworking
  obtain rfl := Except.ok.inj (hmerged.symm.trans hother)
  have hkey : segments key ≠ [] := by
    intro hnil
    rw [hnil] at hvalue
    cases hvalue
  have hsnapshot : snapshot.data = Config.applyDefaults merged.1 loader.schemaRegistry
      loader.visiting := (congrArg Subtype.val hdata).symm
  rw [ConfigSnapshot.getRaw, if_neg hkey, ConfigSnapshot.rootValue, hsnapshot, applyDefaults_eq]
  rw [valueAt_eq_find hkey] at hvalue
  exact find_foldl_insertDefault_of_forall hvalue fun field hmem =>
    hbelow field ((mem_defaultsIn loader.visiting).mp hmem)

end Loader

/-- The sources fail exactly at the first file that is there and cannot be read, and the load with
them. What they merge is in effect at every path. And a value that they leave is what the snapshot
has, where nothing but the defaults comes after them and no field below has one. -/
theorem effectiveConfig (loader : Loader ConfigSource) (machine : Machine) (issuedAtMs : Int64)
    (visit : ∀ first second : HashMap String ConfigValue, Visited first second) :
    (∀ err, (loader.mergeLoaded (machine.around issuedAtMs visit) = .error err ↔
        (filePaths loader.sources).findSome? machine.failureOf = some err) ∧
      ((filePaths loader.sources).findSome? machine.failureOf = some err →
        ∀ crates previous, loader.loadWithPrev crates (machine.around issuedAtMs visit) previous =
          .error err)) ∧
    ∀ merged, loader.mergeLoaded (machine.around issuedAtMs visit) = .ok merged →
      Effective machine loader.sources merged.1 ∧
        (loader.Quiet → ∀ crates previous snapshot event,
          loader.loadWithPrev crates (machine.around issuedAtMs visit) previous =
            .ok (snapshot, event) →
          ∀ key value, valueAt merged.1 (segments key) = some value →
            (∀ field, HasDefault loader.schemaRegistry field → segments key <+: field.1 →
              field.1 = segments key) → snapshot.getRaw key = some value) := by
  refine ⟨fun err => ⟨?_, ?_⟩, fun merged hmerged => ⟨Loader.effective_of_mergeLoaded hmerged, ?_⟩⟩
  · rw [Loader.mergeLoaded_eq]
    cases (filePaths loader.sources).findSome? machine.failureOf with
    | none => simp
    | some first => simp
  · intro hfail crates previous
    rw [Loader.loadWithPrev, Loader.working, Loader.mergeLoaded_eq, hfail]
    rfl
  · intro hquiet crates previous snapshot event hload key value hvalue hbelow
    exact Loader.getRaw_of_mergeLoaded hquiet hload hmerged hvalue hbelow

end Soulbase.Config
