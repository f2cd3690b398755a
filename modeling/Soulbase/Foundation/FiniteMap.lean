/-
# Finite maps with an unspecified iteration order

`HashMap` is a finite map read through `get`. The order in which a hash table
yields its entries is not part of its meaning and may change from one call to
the next, so code that iterates takes the order as an argument: any list that
holds each key once, `Enumerates`.

The carrier is Mathlib's `AList`; this file gives it the vocabulary of a hash
table and the equations of `get` that proofs rewrite with.
-/

import Mathlib.Data.List.AList
import Mathlib.Data.List.Induction
import Mathlib.Order.Defs.PartialOrder

namespace Soulbase.Foundation

universe u v

/-- A finite map from `K` to `V`. -/
abbrev HashMap (K : Type u) (V : Type v) := AList fun _ : K => V

namespace HashMap

variable {K : Type u} {V : Type v} [DecidableEq K]

/-- The value stored at a key. -/
def get (map : HashMap K V) (key : K) : Option V := map.lookup key

/-- Store a value at a key, replacing the value there if any. -/
def put (map : HashMap K V) (key : K) (value : V) : HashMap K V := map.insert key value

/-- Drop a key. -/
def remove (map : HashMap K V) (key : K) : HashMap K V := map.erase key

@[simp]
theorem get_empty (key : K) : get (∅ : HashMap K V) key = none :=
  AList.lookup_empty key

theorem get_put (map : HashMap K V) (key other : K) (value : V) :
    (map.put key value).get other = if other = key then some value else map.get other := by
  split
  case isTrue h =>
    subst h
    exact AList.lookup_insert map
  case isFalse h => exact AList.lookup_insert_ne h

@[simp]
theorem get_put_self (map : HashMap K V) (key : K) (value : V) :
    (map.put key value).get key = some value := by
  simp [get_put]

theorem get_remove (map : HashMap K V) (key other : K) :
    (map.remove key).get other = if other = key then none else map.get other := by
  split
  case isTrue h =>
    subst h
    exact AList.lookup_erase _ _
  case isFalse h => exact AList.lookup_erase_ne h

/-- Of entries that are put into a map in their order, the last of a name is kept. -/
theorem get_foldl_put_iff {I : Type*} [Preorder I] {name : I → K} {entries : List (I × V)}
    (h : entries.Pairwise fun first second => first.1 < second.1) {key : K} {value : V} :
    (entries.foldl (fun out entry => out.put (name entry.1) entry.2) (∅ : HashMap K V)).get
      key = some value ↔
      ∃ index, (index, value) ∈ entries ∧ name index = key ∧
        ∀ later ∈ entries, index < later.1 → name later.1 ≠ key := by
  induction entries using List.reverseRecOn with
  | nil => simp
  | append_singleton before last ih =>
      obtain ⟨hbefore, -, hlast⟩ := List.pairwise_append.mp h
      have hlast : ∀ entry ∈ before, entry.1 < last.1 := fun entry hentry =>
        hlast entry hentry last List.mem_cons_self
      rw [List.foldl_append, List.foldl_cons, List.foldl_nil, get_put]
      split
      case isTrue hkey =>
        constructor
        · intro hvalue
          refine ⟨last.1, ?_, hkey.symm, ?_⟩
          · rw [← Option.some.inj hvalue]
            exact List.mem_append_right _ List.mem_cons_self
          · intro later hlater hlt
            rcases List.mem_append.mp hlater with hbefore | hsame
            · exact absurd (lt_trans hlt (hlast later hbefore)) (lt_irrefl _)
            · rw [List.mem_singleton.mp hsame] at hlt
              exact absurd hlt (lt_irrefl _)
        · rintro ⟨index, hmem, hname, hlater⟩
          rcases List.mem_append.mp hmem with hbefore | hsame
          · exact absurd hkey.symm (hlater last (by simp) (hlast _ hbefore))
          · rw [← List.mem_singleton.mp hsame]
      case isFalse hkey =>
        rw [ih hbefore]
        constructor
        · rintro ⟨index, hmem, hname, hlater⟩
          refine ⟨index, List.mem_append_left _ hmem, hname, ?_⟩
          intro later hmem' hlt
          rcases List.mem_append.mp hmem' with hearlier | hsame
          · exact hlater later hearlier hlt
          · rw [List.mem_singleton.mp hsame]
            exact fun hname => hkey hname.symm
        · rintro ⟨index, hmem, hname, hlater⟩
          refine ⟨index, ?_, hname, fun later hmem' => hlater later (List.mem_append_left _ hmem')⟩
          rcases List.mem_append.mp hmem with hearlier | hsame
          · exact hearlier
          · cases List.mem_singleton.mp hsame
            exact absurd hname.symm hkey

/-- What is put under a name is there, or something that is put there later. -/
theorem isSome_get_foldl_put {I : Type*} (name : I → K) {entries : List (I × V)}
    {entry : I × V} (h : entry ∈ entries) (map : HashMap K V) :
    ((entries.foldl (fun out entry => out.put (name entry.1) entry.2) map).get
      (name entry.1)).isSome := by
  induction entries using List.reverseRecOn with
  | nil => cases h
  | append_singleton before last ih =>
      rw [List.foldl_append, List.foldl_cons, List.foldl_nil, get_put]
      split
      case isTrue => rfl
      case isFalse hname =>
        rcases List.mem_append.mp h with hbefore | hsame
        · exact ih hbefore
        · rw [List.mem_singleton.mp hsame] at hname
          exact absurd rfl hname

/-- Drop the keys that are not kept. -/
def retain (map : HashMap K V) (kept : K → Bool) : HashMap K V :=
  (map.keys.filter fun key => !kept key).foldl remove map

theorem get_foldl_remove (keys : List K) (map : HashMap K V) (key : K) :
    (keys.foldl remove map).get key = if key ∈ keys then none else map.get key := by
  induction keys generalizing map with
  | nil => simp
  | cons first rest ih =>
      rw [List.foldl_cons, ih, get_remove]
      by_cases hrest : key ∈ rest
      · simp [hrest]
      · by_cases hfirst : key = first <;> simp [hfirst, hrest]

theorem get_retain (map : HashMap K V) (kept : K → Bool) (key : K) :
    (map.retain kept).get key = if kept key then map.get key else none := by
  rw [retain, get_foldl_remove]
  cases hkept : kept key with
  | true => simp [hkept]
  | false =>
      cases hget : map.get key with
      | none => simp
      | some value =>
          have hkey : key ∈ map.keys := AList.lookup_isSome.mp (Option.isSome_of_eq_some hget)
          simp [hkept, hkey]

/-- Change every value. -/
def mapValues {W : Type*} (change : V → W) (map : HashMap K V) : HashMap K W where
  entries := map.entries.map (.map id fun _ => change)
  nodupKeys := map.nodupKeys.map₂ fun _ => change

theorem get_mapValues {W : Type*} (change : V → W) (map : HashMap K V) (key : K) :
    (map.mapValues change).get key = (map.get key).map change :=
  List.dlookup_map₂ key

/-- A map without values is empty. -/
theorem eq_empty_of_get {map : HashMap K V} (h : ∀ key, map.get key = none) : map = ∅ := by
  apply AList.ext
  rw [AList.empty_entries, List.eq_nil_iff_forall_not_mem]
  intro entry hentry
  have hkey : entry.1 ∈ map := List.mem_map_of_mem hentry
  exact AList.lookup_eq_none.mp (h entry.1) hkey

/-- An order in which the map may yield its keys: each of them, once. -/
def Enumerates (map : HashMap K V) (order : List K) : Prop := order.Perm map.keys

instance (map : HashMap K V) (order : List K) : Decidable (map.Enumerates order) :=
  inferInstanceAs (Decidable (order.Perm map.keys))

/-- The values, in the order of the given keys. -/
def valuesIn (map : HashMap K V) (order : List K) : List V := order.filterMap map.get

omit [DecidableEq K] in
theorem Enumerates.nodup {map : HashMap K V} {order : List K} (h : map.Enumerates order) :
    order.Nodup :=
  h.nodup_iff.mpr map.keys_nodup

theorem mem_valuesIn {map : HashMap K V} {order : List K} {value : V} :
    value ∈ map.valuesIn order ↔ ∃ key ∈ order, map.get key = some value :=
  List.mem_filterMap

/-- The values of all keys are the values of the map. -/
theorem Enumerates.mem_valuesIn {map : HashMap K V} {order : List K} (h : map.Enumerates order)
    {value : V} : value ∈ map.valuesIn order ↔ ∃ key, map.get key = some value := by
  rw [HashMap.mem_valuesIn]
  constructor
  · rintro ⟨key, _, hget⟩
    exact ⟨key, hget⟩
  · rintro ⟨key, hget⟩
    have hkey : key ∈ map.keys := AList.lookup_isSome.mp (Option.isSome_of_eq_some hget)
    exact ⟨key, h.mem_iff.mpr hkey, hget⟩

/-- There are no more values than keys. -/
theorem Enumerates.length_valuesIn_le {map : HashMap K V} {order : List K}
    (h : map.Enumerates order) : (map.valuesIn order).length ≤ map.keys.length := by
  rw [← h.length_eq]
  exact List.length_filterMap_le _ _

/-- Where values know their keys, the keys of the values in an order are in that order. -/
theorem map_valuesIn_sublist {map : HashMap K V} {keyOf : V → K}
    (h : ∀ key value, map.get key = some value → keyOf value = key) (order : List K) :
    ((map.valuesIn order).map keyOf).Sublist order := by
  induction order with
  | nil => exact .slnil
  | cons key rest ih =>
      rw [valuesIn, List.filterMap_cons]
      cases hget : map.get key with
      | none => exact ih.cons _
      | some value =>
          rw [List.map_cons, h key value hget]
          exact ih.cons_cons key

end HashMap

end Soulbase.Foundation
