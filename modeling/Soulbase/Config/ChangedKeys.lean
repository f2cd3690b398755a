/-
# The keys that a reload has changed

A reload says which keys have changed. Both snapshots are flattened to the leaves of their
objects, each under the names that lead to it joined by a dot, and the flat maps are compared.

Flattening loses what it cannot name: an empty object has no leaf, and of the leaves whose joined
names are the same only the last one is kept. `exact_iff_revealing` says for which snapshots the
keys are exact nevertheless.
-/

import Mathlib.Data.List.Lex
import Mathlib.Data.List.Sort
import Soulbase.Foundation.FiniteMap
import Soulbase.Json.Equality

namespace Soulbase.Config

open Soulbase.Foundation
open Soulbase.Json (Value Agree)
open Soulbase.Json.Value (leafAt find)

/-- `ConfigValue`. -/
abbrev ConfigValue := Json.Value

/-- `ConfigMap`. -/
abbrev ConfigMap := Json.Map

/-- `ConfigSnapshot`, without its metadata. -/
structure ConfigSnapshot where
  data : ConfigMap
  ordered : (Value.object data).Ordered

/-- `ConfigSnapshot::root_value`. -/
def ConfigSnapshot.rootValue (snapshot : ConfigSnapshot) : ConfigValue := .object snapshot.data

theorem ConfigSnapshot.ordered_rootValue (snapshot : ConfigSnapshot) :
    snapshot.rootValue.Ordered :=
  snapshot.ordered

/-- The name of an entry below a name. -/
def joined (start key : String) : String := if start = "" then key else start ++ "." ++ key

mutual

/-- `flatten_map`. -/
def flattenMap (start : String) :
    List (String × ConfigValue) → HashMap String ConfigValue → HashMap String ConfigValue
  | [], out => out
  | (key, val) :: rest, out => flattenMap start rest (flattenEntry (joined start key) val out)

/-- The body of the loop of `flatten_map`. -/
def flattenEntry (next : String) :
    ConfigValue → HashMap String ConfigValue → HashMap String ConfigValue
  | .object child, out => flattenMap next child out
  | val, out => out.put next val

end

/-- `flatten_snapshot`. -/
def flattenSnapshot (snapshot : ConfigSnapshot) : HashMap String ConfigValue :=
  flattenMap "" snapshot.data ∅

/-- The keys of two maps in the order in which the set of them is visited. -/
structure Visited (first second : HashMap String ConfigValue) where
  keys : List String
  nodup : keys.Nodup
  mem_iff : ∀ key, key ∈ keys ↔ (first.get key).isSome ∨ (second.get key).isSome

/-- The previous snapshot, flattened. -/
def prevFlat (prev : Option ConfigSnapshot) : HashMap String ConfigValue :=
  (prev.map flattenSnapshot).getD ∅

/-- Whether a key is pushed to the changed ones. -/
def isChanged (first second : HashMap String ConfigValue) (key : String) : Bool :=
  match first.get key, second.get key with
  | some a, some b => !a.eq b
  | none, none => false
  | _, _ => true

/-- `compute_changed_keys`. -/
def computeChangedKeys (prev : Option ConfigSnapshot) (current : ConfigSnapshot)
    (visited : Visited (prevFlat prev) (flattenSnapshot current)) : List String :=
  let changed := visited.keys.filter (isChanged (prevFlat prev) (flattenSnapshot current))
  changed.insertionSort (· ≤ ·)

/-- The name that flattening gives to the end of a path. -/
def keyPath (path : List String) : String := path.foldl joined ""

/-- The keys are none iff the data is the same, they are in strict order, and they name every
path at which one snapshot has a leaf that the other does not have there. -/
structure Exact (prev current : ConfigSnapshot) (changed : List String) : Prop where
  empty : changed = [] ↔ prev.rootValue.eq current.rootValue = true
  sorted : changed.Pairwise (· < ·)
  complete : ∀ path, ¬Agree (leafAt path prev.rootValue) (leafAt path current.rootValue) →
    keyPath path ∈ changed

/-- The leaf that flattening keeps under its name: no later leaf has the same name. -/
def Kept (snapshot : ConfigSnapshot) (path : List String) (value : ConfigValue) : Prop :=
  leafAt path snapshot.rootValue = some value ∧
    ∀ later, path < later → keyPath later = keyPath path →
      leafAt later snapshot.rootValue = none

/-- The snapshots do not differ in empty objects only, and where they keep equal leaves under a
name, all their leaves of that name are the same. -/
structure Revealing (prev current : ConfigSnapshot) : Prop where
  hollows : prev.rootValue.SameLeaves current.rootValue →
    prev.rootValue.SameHollows current.rootValue
  names : ∀ path value path' value', Kept prev path value → Kept current path' value' →
    keyPath path = keyPath path' → value.eq value' = true →
      ∀ other, keyPath other = keyPath path →
        Agree (leafAt other prev.rootValue) (leafAt other current.rootValue)

mutual

/-- The leaves of an object, in the order of their paths. -/
def leavesOf : List (String × ConfigValue) → List (List String × ConfigValue)
  | [] => []
  | (key, val) :: rest =>
      (leavesUnder val).map (fun leaf => (key :: leaf.1, leaf.2)) ++ leavesOf rest

/-- The leaves of a value. -/
def leavesUnder : ConfigValue → List (List String × ConfigValue)
  | .object child => leavesOf child
  | val => [([], val)]

end

section Leaves

variable {map : ConfigMap} {value : ConfigValue}

theorem leavesUnder_of_not_isObject (h : value.isObject = false) :
    leavesUnder value = [([], value)] := by
  cases value with
  | object map => cases h
  | _ => rfl

theorem mem_leavesOf {leaf : List String × ConfigValue} :
    leaf ∈ leavesOf map ↔ ∃ entry ∈ map, ∃ below ∈ leavesUnder entry.2,
      leaf = (entry.1 :: below.1, below.2) := by
  induction map with
  | nil => simp [leavesOf]
  | cons entry rest ih =>
      obtain ⟨key, val⟩ := entry
      simp only [leavesOf, List.mem_append, List.mem_map, ih, List.exists_mem_cons_iff]
      exact or_congr_left (exists_congr fun _ => and_congr_right' eq_comm)

theorem mem_leaf_iff (h : value.isObject = false) (leaf : List String × ConfigValue) :
    leaf ∈ leavesUnder value ↔ leafAt leaf.1 value = some leaf.2 := by
  obtain ⟨path, leaf⟩ := leaf
  rw [leavesUnder_of_not_isObject h, List.mem_singleton, Prod.mk.injEq]
  cases path with
  | nil => simp [Value.leafAt_nil, h, eq_comm]
  | cons key path => simp [Value.leafAt_of_not_isObject h]

/-- The leaves are what is at the paths. -/
theorem mem_leavesUnder_iff (h : value.Ordered) (leaf : List String × ConfigValue) :
    leaf ∈ leavesUnder value ↔ leafAt leaf.1 value = some leaf.2 := by
  induction h generalizing leaf with
  | @object map hsorted _ ih =>
      obtain ⟨path, leaf⟩ := leaf
      rw [leavesUnder, mem_leavesOf]
      cases path with
      | nil => simp [Value.leafAt_nil, Value.isObject]
      | cons key path =>
          rw [Value.leafAt_cons_object, Option.bind_eq_some_iff]
          constructor
          · rintro ⟨entry, hentry, below, hbelow, heq⟩
            cases heq
            exact ⟨entry.2, hsorted.get_of_mem hentry, (ih entry hentry below).mp hbelow⟩
          · rintro ⟨val, hget, hleaf⟩
            have hmem := Json.Map.mem_of_get hget
            exact ⟨(key, val), hmem, (path, leaf), (ih _ hmem (path, leaf)).mpr hleaf, rfl⟩
  | _ => exact mem_leaf_iff rfl leaf

/-- They come in the order of their paths. -/
theorem pairwise_leavesUnder (h : value.Ordered) :
    (leavesUnder value).Pairwise fun first second => first.1 < second.1 := by
  induction h with
  | @object map hsorted hentries ih =>
      clear hentries
      rw [leavesUnder]
      induction map with
      | nil => exact .nil
      | cons entry rest ihrest =>
          obtain ⟨key, val⟩ := entry
          rw [leavesOf, List.pairwise_append]
          refine ⟨?_, ihrest hsorted.of_cons fun other hother => ih other (.tail _ hother), ?_⟩
          · exact List.pairwise_map.mpr ((ih (key, val) (.head _)).imp .cons)
          · intro first hfirst second hsecond
            obtain ⟨below, _, rfl⟩ := List.mem_map.mp hfirst
            obtain ⟨other, hother, below', _, rfl⟩ := mem_leavesOf.mp hsecond
            exact .rel (List.rel_of_pairwise_cons hsorted hother)
  | _ => exact List.pairwise_singleton _ _

/-- Flattening puts them one after the other. -/
theorem flattenEntry_eq (h : value.Ordered) (next : String) (out : HashMap String ConfigValue) :
    flattenEntry next value out =
      (leavesUnder value).foldl (fun out leaf => out.put (leaf.1.foldl joined next) leaf.2)
        out := by
  induction h generalizing next out with
  | @object map hsorted hentries ih =>
      clear hsorted hentries
      rw [leavesUnder, flattenEntry]
      induction map generalizing out with
      | nil => rfl
      | cons entry rest ihrest =>
          obtain ⟨key, val⟩ := entry
          rw [flattenMap, leavesOf, List.foldl_append, List.foldl_map,
            ih (key, val) (.head _)]
          exact ihrest (fun other hother => ih other (.tail _ hother)) _
  | _ => rfl

end Leaves

section Flat

variable {snapshot prev current : ConfigSnapshot} {path : List String} {value : ConfigValue}
variable {key : String}

theorem flattenSnapshot_eq :
    flattenSnapshot snapshot = (leavesUnder snapshot.rootValue).foldl
      (fun out leaf => out.put (keyPath leaf.1) leaf.2) ∅ :=
  flattenEntry_eq snapshot.ordered "" ∅

/-- Under a name the flat map has the leaf that is kept. -/
theorem get_flattenSnapshot :
    (flattenSnapshot snapshot).get key = some value ↔
      ∃ path, keyPath path = key ∧ Kept snapshot path value := by
  rw [flattenSnapshot_eq,
    HashMap.get_foldl_put_iff (pairwise_leavesUnder snapshot.ordered_rootValue)]
  refine exists_congr fun path => ?_
  rw [mem_leavesUnder_iff snapshot.ordered_rootValue, Kept]
  constructor
  · rintro ⟨hleaf, hname, hlater⟩
    refine ⟨hname, hleaf, ?_⟩
    intro later hlt hsame
    rw [Option.eq_none_iff_forall_ne_some]
    intro leaf hsome
    exact hlater (later, leaf)
      ((mem_leavesUnder_iff snapshot.ordered_rootValue (later, leaf)).mpr hsome)
      hlt (hsame.trans hname)
  · rintro ⟨hname, hleaf, hlater⟩
    refine ⟨hleaf, hname, ?_⟩
    intro later hmem hlt hsame
    have hnone := hlater later.1 hlt (hsame.trans hname.symm)
    rw [(mem_leavesUnder_iff snapshot.ordered_rootValue later).mp hmem] at hnone
    cases hnone

/-- Every leaf has something under its name. -/
theorem leafAt_eq_none_of_get (h : (flattenSnapshot snapshot).get (keyPath path) = none) :
    leafAt path snapshot.rootValue = none := by
  rw [Option.eq_none_iff_forall_ne_some]
  intro value hleaf
  have hmem := (mem_leavesUnder_iff snapshot.ordered_rootValue (path, value)).mpr hleaf
  have hsome := HashMap.isSome_get_foldl_put keyPath hmem ∅
  rw [← flattenSnapshot_eq, h] at hsome
  cases hsome

/-- The leaves of a name agree. -/
def AgreeAt (prev current : ConfigSnapshot) (key : String) : Prop :=
  ∀ path, keyPath path = key →
    Agree (leafAt path prev.rootValue) (leafAt path current.rootValue)

/-- Then the same leaf is kept. -/
theorem AgreeAt.kept_iff (h : AgreeAt prev current key) (hname : keyPath path = key) :
    (∃ value, Kept prev path value) ↔ ∃ value, Kept current path value := by
  constructor
  · rintro ⟨value, hleaf, hlater⟩
    have hagree := h path hname
    rw [hleaf] at hagree
    obtain ⟨other, hother, -⟩ := hagree.exists_right
    refine ⟨other, hother, fun later hlt hsame => ?_⟩
    exact (h later (hsame.trans hname)).isNone_iff.mp (hlater later hlt hsame)
  · rintro ⟨value, hleaf, hlater⟩
    have hagree := h path hname
    rw [hleaf] at hagree
    obtain ⟨other, hother, -⟩ := hagree.exists_left
    refine ⟨other, hother, fun later hlt hsame => ?_⟩
    exact (h later (hsame.trans hname)).isNone_iff.mpr (hlater later hlt hsame)

/-- So what the flat maps have under the name agrees. -/
theorem AgreeAt.agree_get (h : AgreeAt prev current key) :
    Agree ((flattenSnapshot prev).get key) ((flattenSnapshot current).get key) := by
  cases hprev : (flattenSnapshot prev).get key with
  | none =>
      cases hcurrent : (flattenSnapshot current).get key with
      | none => trivial
      | some other =>
          obtain ⟨path, hname, hkept⟩ := get_flattenSnapshot.mp hcurrent
          obtain ⟨value, hvalue⟩ := (h.kept_iff hname).mpr ⟨other, hkept⟩
          rw [get_flattenSnapshot.mpr ⟨path, hname, hvalue⟩] at hprev
          cases hprev
  | some value =>
      obtain ⟨path, hname, hkept⟩ := get_flattenSnapshot.mp hprev
      obtain ⟨other, hother⟩ := (h.kept_iff hname).mp ⟨value, hkept⟩
      have hagree := h path hname
      rw [hkept.1, hother.1] at hagree
      rw [get_flattenSnapshot.mpr ⟨path, hname, hother⟩]
      exact hagree

end Flat

/-! ## The changed keys -/

section Changed

variable {prev current : ConfigSnapshot}
variable {visited : Visited (prevFlat (some prev)) (flattenSnapshot current)}

theorem isChanged_iff {first second : HashMap String ConfigValue} {key : String} :
    isChanged first second key = true ↔ ¬Agree (first.get key) (second.get key) := by
  unfold isChanged
  cases first.get key <;> cases second.get key <;> simp [Agree]

/-- The changed keys are those under which the flat maps differ. -/
theorem mem_computeChangedKeys {key : String} :
    key ∈ computeChangedKeys (some prev) current visited ↔
      ¬Agree ((flattenSnapshot prev).get key) ((flattenSnapshot current).get key) := by
  rw [computeChangedKeys, List.mem_insertionSort, List.mem_filter, isChanged_iff]
  apply and_iff_right_of_imp
  intro hdiffer
  rw [visited.mem_iff]
  by_contra hnone
  rw [not_or, Option.not_isSome_iff_eq_none, Option.not_isSome_iff_eq_none] at hnone
  rw [hnone.1, hnone.2] at hdiffer
  exact hdiffer trivial

/-- They are in strict order. -/
theorem pairwise_computeChangedKeys :
    (computeChangedKeys (some prev) current visited).Pairwise (· < ·) := by
  have hsorted : (computeChangedKeys (some prev) current visited).Pairwise (· ≤ ·) :=
    List.pairwise_insertionSort _ _
  have hnodup : (computeChangedKeys (some prev) current visited).Nodup :=
    (List.perm_insertionSort _ _).nodup_iff.mpr (visited.nodup.filter _)
  exact (hsorted.and hnodup).imp fun h => lt_of_le_of_ne h.1 h.2

/-- Where all leaves are the same, no key has changed. -/
theorem computeChangedKeys_of_sameLeaves
    (h : prev.rootValue.SameLeaves current.rootValue) :
    computeChangedKeys (some prev) current visited = [] := by
  rw [List.eq_nil_iff_forall_not_mem]
  intro key hmem
  exact mem_computeChangedKeys.mp hmem (AgreeAt.agree_get fun path _ => h path)

/-- In revealing snapshots, the leaves of a name agree where what is kept of them does. -/
theorem Revealing.agree_of_agree_get (h : Revealing prev current) {key : String}
    (hsame : Agree ((flattenSnapshot prev).get key) ((flattenSnapshot current).get key)) :
    AgreeAt prev current key := by
  cases hprev : (flattenSnapshot prev).get key with
  | none =>
      rw [hprev] at hsame
      have hcurrent := hsame.isNone_iff.mp rfl
      rintro path rfl
      rw [leafAt_eq_none_of_get hprev, leafAt_eq_none_of_get hcurrent]
      trivial
  | some value =>
      rw [hprev] at hsame
      obtain ⟨other, hother, heq⟩ := hsame.exists_right
      obtain ⟨path, rfl, hkept⟩ := get_flattenSnapshot.mp hprev
      obtain ⟨path', hname, hkept'⟩ := get_flattenSnapshot.mp hother
      exact h.names path value path' other hkept hkept' hname.symm heq

/-- The changed keys are exact iff the snapshots are revealing. -/
theorem exact_iff_revealing :
    Exact prev current (computeChangedKeys (some prev) current visited) ↔
      Revealing prev current := by
  constructor
  · intro h
    refine ⟨?_, ?_⟩
    · intro hleaves
      have heq := h.empty.mp (computeChangedKeys_of_sameLeaves hleaves)
      exact ((Value.eq_iff_same prev.ordered_rootValue current.ordered_rootValue).mp heq).2
    · intro path value path' value' hkept hkept' hname heq
      have hsame : Agree ((flattenSnapshot prev).get (keyPath path))
          ((flattenSnapshot current).get (keyPath path)) := by
        rw [get_flattenSnapshot.mpr ⟨path, rfl, hkept⟩,
          get_flattenSnapshot.mpr ⟨path', hname.symm, hkept'⟩]
        exact heq
      intro other hother
      by_contra hdiffer
      exact mem_computeChangedKeys.mp (h.complete other hdiffer) (hother.symm ▸ hsame)
  · intro h
    have hcomplete : ∀ path,
        ¬Agree (leafAt path prev.rootValue) (leafAt path current.rootValue) →
          keyPath path ∈ computeChangedKeys (some prev) current visited := by
      intro path hdiffer
      rw [mem_computeChangedKeys]
      intro hsame
      exact hdiffer (h.agree_of_agree_get hsame path rfl)
    refine ⟨?_, pairwise_computeChangedKeys, hcomplete⟩
    constructor
    · intro hnone
      have hleaves : prev.rootValue.SameLeaves current.rootValue := by
        intro path
        by_contra hdiffer
        have hmem := hcomplete path hdiffer
        rw [hnone] at hmem
        cases hmem
      exact (Value.eq_iff_same prev.ordered_rootValue current.ordered_rootValue).mpr
        ⟨hleaves, h.hollows hleaves⟩
    · intro heq
      apply computeChangedKeys_of_sameLeaves
      exact ((Value.eq_iff_same prev.ordered_rootValue current.ordered_rootValue).mp heq).1

end Changed

/-- An application without settings. -/
def hollowSnapshot : ConfigSnapshot where
  data := [("app", .object [])]
  ordered := .object (List.pairwise_singleton _ _) (by simpa using .object .nil (by simp))

/-- No application at all. -/
def emptySnapshot : ConfigSnapshot where
  data := []
  ordered := .object .nil (by simp)

/-- Neither has a leaf, so there is no key to visit. -/
def noneVisited : Visited (prevFlat (some hollowSnapshot)) (flattenSnapshot emptySnapshot) where
  keys := []
  nodup := .nil
  mem_iff _ := by simp [prevFlat, flattenSnapshot, flattenMap, flattenEntry, hollowSnapshot,
    emptySnapshot]

/-- A change that only removes an empty object is not seen. -/
theorem not_exact_hollow :
    ¬ ∀ prev current visited,
        Exact prev current (computeChangedKeys (some prev) current visited) := by
  intro h
  have hempty := (h hollowSnapshot emptySnapshot noneVisited).empty.mp rfl
  cases hempty

/-- A name that is not empty and has no dot in it. -/
def Plain (key : String) : Prop := key ≠ "" ∧ '.' ∉ key.toList

section Plain

variable {path path' : List String} {start key : String} {prev current : ConfigSnapshot}

theorem joined_ne_empty (h : key ≠ "") : joined start key ≠ "" := by
  unfold joined
  split
  · exact h
  · intro hempty
    have hlist := congrArg String.toList hempty
    simp at hlist

theorem toList_foldl_joined (h : start ≠ "") (hpath : ∀ key ∈ path, key ≠ "") :
    (path.foldl joined start).toList =
      ['.'].intercalate (start.toList :: path.map String.toList) := by
  induction path generalizing start with
  | nil => simp
  | cons key rest ih =>
      obtain ⟨hkey, hrest⟩ := List.forall_mem_cons.mp hpath
      rw [List.foldl_cons, ih (joined_ne_empty hkey) hrest, joined, if_neg h, List.map_cons,
        List.intercalate_cons_cons]
      cases rest <;> simp [List.intercalate_cons_cons]

theorem keyPath_cons_eq_foldl (key : String) (path : List String) :
    keyPath (key :: path) = path.foldl joined key := by
  rw [keyPath, List.foldl_cons, joined, if_pos rfl]

/-- Plain names can be read off the name of a path. -/
theorem splitOn_keyPath (h : ∀ name ∈ key :: path, Plain name) :
    (keyPath (key :: path)).toList.splitOn '.' = (key :: path).map String.toList := by
  have hfirst := (h key List.mem_cons_self).1
  have hrest : ∀ name ∈ path, name ≠ "" := fun name hname => (h name (.tail _ hname)).1
  rw [keyPath_cons_eq_foldl, toList_foldl_joined hfirst hrest, List.map_cons]
  apply List.splitOn_intercalate
  · intro part hpart
    rw [← List.map_cons] at hpart
    obtain ⟨name, hmem, rfl⟩ := List.mem_map.mp hpart
    exact (h name hmem).2
  · exact List.cons_ne_nil _ _

theorem keyPath_cons_ne (h : ∀ name ∈ key :: path, Plain name) : keyPath (key :: path) ≠ "" := by
  intro hempty
  have hsplit := splitOn_keyPath h
  rw [hempty, List.map_cons] at hsplit
  exact (h key List.mem_cons_self).1 (String.toList_inj.mp (List.cons.inj hsplit).1.symm)

theorem keyPath_inj (h : ∀ name ∈ path, Plain name) (h' : ∀ name ∈ path', Plain name)
    (hsame : keyPath path = keyPath path') : path = path' := by
  cases path with
  | nil =>
      cases path' with
      | nil => rfl
      | cons key' rest' => exact absurd hsame.symm (keyPath_cons_ne h')
  | cons key rest =>
      cases path' with
      | nil => exact absurd hsame (keyPath_cons_ne h)
      | cons key' rest' =>
          have hmap := (splitOn_keyPath h).symm.trans (hsame ▸ splitOn_keyPath h')
          exact List.map_injective_iff.mpr (fun _ _ => String.toList_inj.mp) hmap

/-- Where all names on the way to a leaf are plain, only empty objects can be missed. -/
theorem revealing_of_plain
    (hplain : ∀ snapshot ∈ [prev, current], ∀ path value,
      leafAt path snapshot.rootValue = some value → ∀ name ∈ path, Plain name)
    (hhollows : prev.rootValue.SameLeaves current.rootValue →
      prev.rootValue.SameHollows current.rootValue) : Revealing prev current := by
  refine ⟨hhollows, ?_⟩
  rintro path value path' value' ⟨hleaf, -⟩ ⟨hleaf', -⟩ hname heq other hother
  have hprev := hplain prev (by simp)
  have hcurrent := hplain current (by simp)
  obtain rfl := keyPath_inj (hprev path value hleaf) (hcurrent path' value' hleaf') hname
  have hsame : ∀ held, leafAt other prev.rootValue = some held ∨
      leafAt other current.rootValue = some held → other = path := by
    rintro held (hheld | hheld)
    · exact keyPath_inj (hprev other held hheld) (hprev path value hleaf) hother
    · exact keyPath_inj (hcurrent other held hheld) (hprev path value hleaf) hother
  by_cases hpath : other = path
  · rw [hpath, hleaf, hleaf']
    exact heq
  · have hnone : leafAt other prev.rootValue = none :=
      Option.eq_none_iff_forall_ne_some.mpr fun held hheld => hpath (hsame held (.inl hheld))
    have hnone' : leafAt other current.rootValue = none :=
      Option.eq_none_iff_forall_ne_some.mpr fun held hheld => hpath (hsame held (.inr hheld))
    rw [hnone, hnone']
    trivial

end Plain

end Soulbase.Config
