/-
# Ordered objects

The entries of a `serde_json::Map` are in the strict order of their names, in every object of a
value, unless the build turns `preserve_order` on, as one with the feature `surreal` does.

An object in order is determined by what it has under each name, and so are the two readings of a
value along a path of names: what it has there, and the leaf that it has there.
-/

import Mathlib.Data.List.Pairwise
import Mathlib.Data.String.Basic
import Soulbase.Json

namespace Soulbase.Json

/-- The names are in strict order. -/
def Map.Sorted (map : Map) : Prop := map.Pairwise fun first second => first.1 < second.1

/-- The objects in a value have their names in strict order. -/
inductive Value.Ordered : Value → Prop
  | null : Ordered .null
  | bool (value : Bool) : Ordered (.bool value)
  | number (value : Number) : Ordered (.number value)
  | string (value : String) : Ordered (.string value)
  | array {items : List Value} : (∀ item ∈ items, item.Ordered) → Ordered (.array items)
  | object {map : Map} : map.Sorted → (∀ entry ∈ map, entry.2.Ordered) → Ordered (.object map)

theorem Value.ordered_nil : (Value.object []).Ordered :=
  .object .nil fun _ h => absurd h List.not_mem_nil

namespace Map

variable {map other : Map} {key name : String} {value : Value}

theorem get_eq_none_of_forall_ne (h : ∀ entry ∈ map, entry.1 ≠ key) : map.get key = none := by
  induction map with
  | nil => rfl
  | cons entry rest ih =>
      rw [get, if_neg (h entry List.mem_cons_self)]
      exact ih fun other hother => h other (List.mem_cons_of_mem _ hother)

/-- An object without values is empty. -/
theorem eq_nil_iff : map = [] ↔ ∀ key, map.get key = none := by
  constructor
  · rintro rfl key
    rfl
  · intro h
    cases map with
    | nil => rfl
    | cons entry rest =>
        have hfirst := h entry.1
        rw [get, if_pos rfl] at hfirst
        cases hfirst

theorem mem_of_get (h : map.get key = some value) : (key, value) ∈ map := by
  induction map with
  | nil => cases h
  | cons entry rest ih =>
      obtain ⟨name, held⟩ := entry
      rw [get] at h
      split at h
      case isTrue hname =>
        obtain rfl := Option.some.inj h
        rw [hname]
        exact List.mem_cons_self
      case isFalse => exact List.mem_cons_of_mem _ (ih h)

/-- The rest of a map has nothing under the first name. -/
theorem Sorted.get_rest (h : Sorted ((name, value) :: map)) : map.get name = none :=
  get_eq_none_of_forall_ne fun _ hentry => (List.rel_of_pairwise_cons h hentry).ne'

/-- Nor under a smaller one. -/
theorem Sorted.get_of_lt (h : Sorted ((name, value) :: map)) (hkey : key < name) :
    get ((name, value) :: map) key = none := by
  apply get_eq_none_of_forall_ne
  intro entry hentry
  rcases List.mem_cons.mp hentry with rfl | hrest
  · exact hkey.ne'
  · exact (hkey.trans (List.rel_of_pairwise_cons h hrest)).ne'

theorem Sorted.get_of_mem (h : map.Sorted) (hmem : (key, value) ∈ map) :
    map.get key = some value := by
  induction map with
  | nil => cases hmem
  | cons entry rest ih =>
      obtain ⟨name, held⟩ := entry
      rw [get]
      rcases List.mem_cons.mp hmem with hfirst | hrest
      · cases hfirst
        rw [if_pos rfl]
      · rw [if_neg (List.rel_of_pairwise_cons h hrest).ne]
        exact ih (List.Pairwise.of_cons h) hrest

theorem Sorted.get_eq_some_iff (h : map.Sorted) :
    map.get key = some value ↔ (key, value) ∈ map :=
  ⟨mem_of_get, h.get_of_mem⟩

/-- Maps with the same values under the same names are the same. -/
theorem Sorted.ext (h : map.Sorted) (h' : other.Sorted)
    (hget : ∀ key, map.get key = other.get key) : map = other := by
  have hmem : ∀ entry, entry ∈ map ↔ entry ∈ other := by
    intro entry
    rw [← h.get_eq_some_iff, ← h'.get_eq_some_iff, hget]
  have hnodup : ∀ {entries : Map}, entries.Sorted → entries.Nodup := fun hsorted =>
    List.Pairwise.imp (fun hlt heq => absurd (congrArg Prod.fst heq) hlt.ne) hsorted
  have hperm : map.Perm other := (List.perm_ext_iff_of_nodup (hnodup h) (hnodup h')).mpr hmem
  exact hperm.eq_of_pairwise (fun _ _ _ _ hlt hgt => absurd hlt hgt.not_gt) h h'

theorem mem_of_mem_insert {entry : String × Value} (h : entry ∈ map.insert key value) :
    entry = (key, value) ∨ entry ∈ map := by
  induction map with
  | nil => exact .inl (List.mem_singleton.mp h)
  | cons first rest ih =>
      obtain ⟨name, held⟩ := first
      rw [insert] at h
      split at h
      case isTrue =>
        exact (List.mem_cons.mp h).imp_right (List.mem_cons_of_mem _)
      case isFalse =>
        split at h
        case isTrue => exact List.mem_cons.mp h
        case isFalse =>
          rcases List.mem_cons.mp h with rfl | hrest
          · exact .inr List.mem_cons_self
          · exact (ih hrest).imp_right (List.mem_cons_of_mem _)

theorem Sorted.insert (h : map.Sorted) (key : String) (value : Value) :
    (map.insert key value).Sorted := by
  induction map with
  | nil => exact List.pairwise_singleton _ _
  | cons first rest ih =>
      obtain ⟨name, held⟩ := first
      obtain ⟨hfirst, hrest⟩ := List.pairwise_cons.mp h
      rw [Map.insert]
      split
      case isTrue hname =>
        subst hname
        exact List.pairwise_cons.mpr ⟨hfirst, hrest⟩
      case isFalse hname =>
        split
        case isTrue hlt =>
          refine List.pairwise_cons.mpr ⟨fun entry hentry => ?_, h⟩
          rcases List.mem_cons.mp hentry with rfl | hentry
          · exact hlt
          · exact hlt.trans (hfirst entry hentry)
        case isFalse hlt =>
          refine List.pairwise_cons.mpr ⟨fun entry hentry => ?_, ih hrest⟩
          rcases mem_of_mem_insert hentry with rfl | hentry
          · exact lt_of_le_of_ne (not_lt.mp hlt) hname
          · exact hfirst entry hentry

theorem Sorted.remove (h : map.Sorted) (key : String) : (map.remove key).Sorted := h.filter _

theorem get_remove_of_ne (map : Map) (h : name ≠ key) :
    (map.remove key).get name = map.get name := by
  induction map with
  | nil => rfl
  | cons first rest ih =>
      obtain ⟨other, held⟩ := first
      by_cases hother : other = key
      · subst hother
        rw [remove, List.filter_cons_of_neg (by simp), get, if_neg h.symm]
        exact ih
      · rw [remove, List.filter_cons_of_pos (by simpa using hother), get, get]
        exact if_congr Iff.rfl rfl ih

/-- What was written under a name is removed with the rest. -/
theorem remove_insert (map : Map) (key : String) (value : Value) :
    (map.insert key value).remove key = map.remove key := by
  induction map with
  | nil => simp [insert, remove]
  | cons first rest ih =>
      obtain ⟨other, held⟩ := first
      rw [insert]
      split
      case isTrue hother => simp [remove, hother]
      case isFalse hother =>
        split
        case isTrue => simp [remove]
        case isFalse =>
          rw [remove, List.filter_cons_of_pos (by simpa using hother), remove,
            List.filter_cons_of_pos (by simpa using hother)]
          exact congrArg _ ih

theorem insert_of_forall_lt (h : ∀ entry ∈ map, key < entry.1) :
    map.insert key value = (key, value) :: map := by
  cases map with
  | nil => rfl
  | cons first rest =>
      have hfirst := h first List.mem_cons_self
      rw [insert, if_neg hfirst.ne', if_pos hfirst]

/-- Removing under one name and writing under another can be exchanged. -/
theorem Sorted.remove_insert_comm (h : map.Sorted) (value : Value) (hne : name ≠ key) :
    (map.insert name value).remove key = (map.remove key).insert name value := by
  induction map with
  | nil => simp [Map.insert, Map.remove, hne]
  | cons first rest ih =>
      obtain ⟨other, held⟩ := first
      obtain ⟨hfirst, hrest⟩ := List.pairwise_cons.mp h
      by_cases hother : other = key
      · subst hother
        have hremoved : Map.remove ((other, held) :: rest) other = Map.remove rest other :=
          List.filter_cons_of_neg (by simp)
        rw [hremoved, Map.insert, if_neg hne.symm]
        split
        case isTrue hlt =>
          have hafter : ∀ entry ∈ Map.remove rest other, name < entry.1 := fun entry hentry =>
            hlt.trans (hfirst entry (List.mem_of_mem_filter hentry))
          rw [insert_of_forall_lt hafter]
          simp [Map.remove, hne]
        case isFalse =>
          rw [← ih hrest]
          exact List.filter_cons_of_neg (by simp)
      · have hkept :
            Map.remove ((other, held) :: rest) key = (other, held) :: Map.remove rest key :=
          List.filter_cons_of_pos (by simpa using hother)
        rw [hkept, Map.insert, Map.insert]
        split
        case isTrue => exact List.filter_cons_of_pos (by simpa using hne)
        case isFalse =>
          split
          case isTrue => simp [Map.remove, hne, hother]
          case isFalse =>
            rw [← ih hrest]
            exact List.filter_cons_of_pos (by simpa using hother)

end Map

namespace Value

/-- Whether it is an object. -/
def isObject : Value → Bool
  | object _ => true
  | _ => false

/-- The value at the end of a path of names. -/
def find : List String → Value → Option Value
  | [], value => some value
  | key :: path, object map => (Map.get map key).bind (find path)
  | _ :: _, _ => none

/-- The value at the end of a path of names, if that is no object. -/
def leafAt (path : List String) (value : Value) : Option Value :=
  (find path value).filter (!·.isObject)

variable {map : Map} {key : String} {path : List String} {value leaf : Value}

theorem Ordered.of_get (h : (Value.object map).Ordered) (hget : Map.get map key = some value) :
    value.Ordered := by
  cases h with
  | object _ hentries => exact hentries _ (Map.mem_of_get hget)

theorem find_append (front path : List String) (value : Value) :
    find (front ++ path) value = (find front value).bind (find path) := by
  induction front generalizing value with
  | nil => rfl
  | cons key front ih =>
      cases value with
      | object map =>
          rw [List.cons_append, find, find]
          cases Map.get map key with
          | none => rfl
          | some held => exact ih held
      | _ => rfl

theorem of_isSome_find_singleton {name : String}
    (h : (find (key :: path) (.object [(name, value)])).isSome) :
    key = name ∧ (find path value).isSome := by
  rw [find, Map.get] at h
  split at h
  case isTrue hname => exact ⟨hname.symm, h⟩
  case isFalse => cases h

theorem Ordered.insert (h : (Value.object map).Ordered) (hvalue : value.Ordered) :
    (Value.object (Map.insert map key value)).Ordered := by
  cases h with
  | object hsorted hentries =>
      refine .object (hsorted.insert key value) fun entry hentry => ?_
      rcases Map.mem_of_mem_insert hentry with rfl | hentry
      · exact hvalue
      · exact hentries entry hentry

/-- The same is at every path, or objects are. -/
def Alike (value other : Value) : Prop :=
  ∀ path, find path value = find path other ∨
    (∃ map, find path value = some (object map)) ∧ ∃ map, find path other = some (object map)

/-- Objects that are alike have values under the same names, which are alike. -/
theorem Alike.get {map' : Map} (h : Alike (object map) (object map')) (key : String) :
    Map.get map key = none ∧ Map.get map' key = none ∨
      ∃ held held', Map.get map key = some held ∧ Map.get map' key = some held' ∧
        Alike held held' := by
  have hunder : ∀ path, (Map.get map key).bind (find path) = (Map.get map' key).bind (find path) ∨
      (∃ child, (Map.get map key).bind (find path) = some (object child)) ∧
        ∃ child, (Map.get map' key).bind (find path) = some (object child) :=
    fun path => h (key :: path)
  cases hget : Map.get map key with
  | none =>
      cases hget' : Map.get map' key with
      | none => exact .inl ⟨rfl, rfl⟩
      | some held' =>
          rw [hget, hget'] at hunder
          rcases hunder [] with heq | ⟨⟨_, hnone⟩, -⟩
          · cases heq
          · cases hnone
  | some held =>
      cases hget' : Map.get map' key with
      | none =>
          rw [hget, hget'] at hunder
          rcases hunder [] with heq | ⟨-, _, hnone⟩
          · cases heq
          · cases hnone
      | some held' =>
          rw [hget, hget'] at hunder
          exact .inr ⟨held, held', rfl, rfl, hunder⟩

/-- Ordered values that are alike are the same. -/
theorem Ordered.eq_of_alike {other : Value} (h : value.Ordered) (h' : other.Ordered)
    (halike : Alike value other) : value = other := by
  induction h generalizing other with
  | @object map hsorted hentries ih =>
      rcases halike [] with heq | ⟨-, map', hmap'⟩
      · exact Option.some.inj heq
      · obtain rfl := Option.some.inj hmap'
        have hother := h'
        cases h' with
        | object hsorted' _ =>
            congr 1
            refine hsorted.ext hsorted' fun key => ?_
            rcases halike.get key with ⟨hget, hget'⟩ | ⟨held, held', hget, hget', hheld⟩
            · rw [hget, hget']
            · have heq : held = held' :=
                ih _ (Map.mem_of_get hget) (hother.of_get hget') hheld
              rw [hget, hget', heq]
  | _ =>
      rcases halike [] with heq | ⟨⟨map, hmap⟩, -⟩
      · exact Option.some.inj heq
      · cases hmap

theorem leafAt_nil : leafAt [] value = if value.isObject then none else some value := by
  cases h : value.isObject <;> simp [leafAt, find, h]

theorem leafAt_cons_object :
    leafAt (key :: path) (object map) = (Map.get map key).bind (leafAt path) := by
  rw [leafAt, find]
  cases Map.get map key <;> rfl

theorem leafAt_eq_some_iff :
    leafAt path value = some leaf ↔ find path value = some leaf ∧ leaf.isObject = false := by
  rw [leafAt, Option.filter_eq_some_iff, Bool.not_eq_true']

theorem find_of_not_isObject (h : value.isObject = false) :
    find (key :: path) value = none := by
  cases value with
  | object map => cases h
  | _ => rfl

theorem leafAt_of_not_isObject (h : value.isObject = false) :
    leafAt (key :: path) value = none := by
  rw [leafAt, find_of_not_isObject h, Option.filter_none]

/-- Every value has a leaf or an empty object somewhere. -/
theorem Ordered.exists_end (h : value.Ordered) :
    ∃ path, (leafAt path value).isSome ∨ find path value = some (.object []) := by
  induction h with
  | @object map hsorted _ ih =>
      cases map with
      | nil => exact ⟨[], .inr rfl⟩
      | cons entry rest =>
          obtain ⟨path, hpath⟩ := ih entry List.mem_cons_self
          refine ⟨entry.1 :: path, ?_⟩
          rw [leafAt_cons_object, find, Map.get, if_pos rfl]
          exact hpath
  | _ => exact ⟨[], .inl rfl⟩

end Value

end Soulbase.Json
