/-
# Equality of JSON values

`PartialEq` of `serde_json::Value`, which compares floats as numbers: the two zeros are equal.
Two values are equal iff they have equal leaves, and empty objects, at the same paths.
-/

import Soulbase.Json.Ordered

namespace Soulbase.Json

/-- `PartialEq` of a number. A float of it is finite, so that only the zeros are equal without
having the same bits. -/
def Number.eq : Number → Number → Bool
  | posInt value, posInt other => value = other
  | negInt value, negInt other => value = other
  | float bits, float other =>
      bits = other || ((bits = 0 || bits = 0x8000000000000000) &&
        (other = 0 || other = 0x8000000000000000))
  | _, _ => false

mutual

/-- `PartialEq` of a value. -/
def Value.eq : Value → Value → Bool
  | .null, .null => true
  | .bool value, .bool other => value = other
  | .number value, .number other => value.eq other
  | .string value, .string other => value = other
  | .array items, .array others => eqItems items others
  | .object map, .object other => eqEntries map other
  | _, _ => false

/-- `PartialEq` of arrays. -/
def eqItems : List Value → List Value → Bool
  | [], [] => true
  | item :: items, other :: others => item.eq other && eqItems items others
  | _, _ => false

/-- `PartialEq` of objects. -/
def eqEntries : List (String × Value) → List (String × Value) → Bool
  | [], [] => true
  | (key, value) :: rest, (name, other) :: others =>
      key = name && value.eq other && eqEntries rest others
  | _, _ => false

end

theorem Number.eq_self (value : Number) : value.eq value = true := by
  cases value <;> simp [Number.eq]

mutual

/-- A value is equal to itself. -/
theorem Value.eq_self : ∀ value : Value, value.eq value = true
  | .null => rfl
  | .bool _ | .string _ => decide_eq_true rfl
  | .number value => value.eq_self
  | .array items => eqItems_self items
  | .object map => eqEntries_self map

theorem eqItems_self : ∀ items : List Value, eqItems items items = true
  | [] => rfl
  | item :: items => by
      rw [eqItems, Value.eq_self item, eqItems_self items]
      rfl

theorem eqEntries_self : ∀ map : List (String × Value), eqEntries map map = true
  | [] => rfl
  | (key, value) :: rest => by
      rw [eqEntries, Value.eq_self value, eqEntries_self rest, decide_eq_true rfl]
      rfl

end

/-- Both are there and equal, or neither is there. -/
def Agree : Option Value → Option Value → Prop
  | none, none => True
  | some value, some other => value.eq other = true
  | _, _ => False

section Objects

variable {map other : Map} {value value' : Value}

theorem isObject_eq_of_eq (h : value.eq value' = true) : value.isObject = value'.isObject := by
  cases value <;> cases value' <;> first | rfl | simp [Value.eq] at h

theorem Agree.isNone_iff {value value' : Option Value} (h : Agree value value') :
    value = none ↔ value' = none := by
  cases value <;> cases value' <;> simp [Agree] at h ⊢

theorem Agree.exists_right {found : Option Value} (h : Agree (some value) found) :
    ∃ held, found = some held ∧ value.eq held = true := by
  cases found with
  | none => exact h.elim
  | some held => exact ⟨held, rfl, h⟩

theorem Agree.exists_left {found : Option Value} (h : Agree found (some value)) :
    ∃ held, found = some held ∧ held.eq value = true := by
  cases found with
  | none => exact h.elim
  | some held => exact ⟨held, rfl, h⟩

/-- Objects in order that agree begin with the same name. -/
theorem eq_of_agree {key name : String} (h : Map.Sorted ((key, value) :: map))
    (h' : Map.Sorted ((name, value') :: other))
    (hagree : ∀ key', Agree (Map.get ((key, value) :: map) key')
      (Map.get ((name, value') :: other) key')) : key = name := by
  rcases lt_trichotomy key name with hlt | heq | hlt
  · have hname := (hagree key).isNone_iff.mpr (h'.get_of_lt hlt)
    rw [Map.get, if_pos rfl] at hname
    cases hname
  · exact heq
  · have hname := (hagree name).isNone_iff.mp (h.get_of_lt hlt)
    rw [Map.get, if_pos rfl] at hname
    cases hname

/-- Objects in order are equal iff they have equal values under the same names. -/
theorem eqEntries_iff (h : map.Sorted) (h' : other.Sorted) :
    eqEntries map other = true ↔ ∀ key, Agree (map.get key) (other.get key) := by
  induction map generalizing other with
  | nil =>
      cases other with
      | nil => simp [eqEntries, Map.get, Agree]
      | cons entry others =>
          obtain ⟨name, held⟩ := entry
          simp only [eqEntries, Bool.false_eq_true, false_iff]
          intro hagree
          have hname := (hagree name).isNone_iff.mp rfl
          rw [Map.get, if_pos rfl] at hname
          cases hname
  | cons entry rest ih =>
      obtain ⟨key, value⟩ := entry
      cases other with
      | nil =>
          simp only [eqEntries, Bool.false_eq_true, false_iff]
          intro hagree
          have hname := (hagree key).isNone_iff.mpr rfl
          rw [Map.get, if_pos rfl] at hname
          cases hname
      | cons entry' others =>
          obtain ⟨name, held⟩ := entry'
          simp only [eqEntries, Bool.and_eq_true, decide_eq_true_eq, ih h.of_cons h'.of_cons]
          constructor
          · rintro ⟨⟨rfl, heq⟩, hrest⟩ other
            by_cases hother : key = other
            · rw [Map.get, Map.get, if_pos hother, if_pos hother]
              exact heq
            · rw [Map.get, Map.get, if_neg hother, if_neg hother]
              exact hrest other
          · intro hagree
            obtain rfl : key = name := eq_of_agree h h' hagree
            have heq := hagree key
            rw [Map.get, Map.get, if_pos rfl, if_pos rfl] at heq
            refine ⟨⟨rfl, heq⟩, ?_⟩
            intro other
            by_cases hother : key = other
            · rw [← hother, h.get_rest, h'.get_rest]
              trivial
            · have hrest := hagree other
              rwa [Map.get, Map.get, if_neg hother, if_neg hother] at hrest

end Objects

namespace Value

variable (value other : Value)

/-- They have equal leaves at the same paths. -/
def SameLeaves : Prop := ∀ path, Agree (leafAt path value) (leafAt path other)

/-- They have empty objects at the same paths. -/
def SameHollows : Prop :=
  ∀ path, find path value = some (.object []) ↔ find path other = some (.object [])

variable {value other}

theorem SameLeaves.refl (value : Value) : value.SameLeaves value := by
  intro path
  cases h : leafAt path value with
  | none => trivial
  | some leaf => exact leaf.eq_self

theorem not_hollow_of_leaf (h : value.isObject = false) (path : List String) :
    find path value ≠ some (.object []) := by
  cases path with
  | nil =>
      intro hvalue
      rw [Option.some.inj hvalue] at h
      cases h
  | cons key path =>
      rw [find_of_not_isObject h]
      exact Option.some_ne_none _ |>.symm

/-- A leaf is equal to what has the same leaves. -/
theorem eq_iff_same_of_leaf (h : value.isObject = false) :
    value.eq other = true ↔ value.SameLeaves other ∧ value.SameHollows other := by
  constructor
  · intro heq
    have hother : other.isObject = false := (isObject_eq_of_eq heq).symm.trans h
    refine ⟨?_, ?_⟩
    · intro path
      cases path with
      | nil =>
          rw [leafAt_nil, leafAt_nil, h, hother]
          exact heq
      | cons key path =>
          rw [leafAt_of_not_isObject h, leafAt_of_not_isObject hother]
          trivial
    · intro path
      exact iff_of_false (not_hollow_of_leaf h path) (not_hollow_of_leaf hother path)
  · rintro ⟨hleaves, -⟩
    have hroot := hleaves []
    rw [leafAt_nil, leafAt_nil, h] at hroot
    cases hother : other.isObject with
    | true =>
        rw [hother] at hroot
        exact hroot.elim
    | false =>
        rw [hother] at hroot
        exact hroot

section Objects

variable {map map' : Map}

/-- Two values under a name, or none, have the same leaves and empty objects. -/
def SameUnder (value other : Option Value) : Prop :=
  (∀ path, Agree (value.bind (leafAt path)) (other.bind (leafAt path))) ∧
    ∀ path, value.bind (find path) = some (.object []) ↔
      other.bind (find path) = some (.object [])

/-- A value does not have the leaves and empty objects of none. -/
theorem Ordered.not_sameUnder (h : value.Ordered) :
    ¬SameUnder (some value) none ∧ ¬SameUnder none (some value) := by
  obtain ⟨path, hleaf | hhollow⟩ := h.exists_end
  · obtain ⟨leaf, hleaf⟩ := Option.isSome_iff_exists.mp hleaf
    constructor <;> rintro ⟨hleaves, -⟩ <;> have hpath := hleaves path <;>
      rw [Option.bind_some, Option.bind_none, hleaf] at hpath <;> exact hpath
  · constructor <;> rintro ⟨-, hhollows⟩ <;> have hpath := hhollows path <;>
      rw [Option.bind_some, Option.bind_none, hhollow] at hpath <;> simp at hpath

/-- Where equality is having the same leaves and empty objects, agreement is. -/
theorem agree_iff_sameUnder {under under' : Option Value}
    (h : ∀ value, under = some value → value.Ordered ∧ ∀ other : Value, other.Ordered →
      (value.eq other = true ↔ value.SameLeaves other ∧ value.SameHollows other))
    (h' : ∀ value, under' = some value → value.Ordered) :
    Agree under under' ↔ SameUnder under under' := by
  cases under with
  | none =>
      cases under' with
      | none => simp [Agree, SameUnder]
      | some other => exact iff_of_false id (h' other rfl).not_sameUnder.2
  | some value =>
      cases under' with
      | none => exact iff_of_false id (h value rfl).1.not_sameUnder.1
      | some other => exact (h value rfl).2 other (h' other rfl)

/-- The leaves and empty objects of an object that agrees with another one under all names. -/
theorem same_object_iff
    (h : ∀ key, Agree (map.get key) (map'.get key) ↔ SameUnder (map.get key) (map'.get key)) :
    (∀ key, Agree (map.get key) (map'.get key)) ↔
      (object map).SameLeaves (.object map') ∧ (object map).SameHollows (.object map') := by
  constructor
  · intro hagree
    have hempty : map = [] ↔ map' = [] := by
      rw [Map.eq_nil_iff, Map.eq_nil_iff]
      exact forall_congr' fun key => (hagree key).isNone_iff
    refine ⟨?_, ?_⟩
    · intro path
      cases path with
      | nil => trivial
      | cons key path =>
          rw [leafAt_cons_object, leafAt_cons_object]
          exact ((h key).mp (hagree key)).1 path
    · intro path
      cases path with
      | nil => simpa [find] using hempty
      | cons key path => exact ((h key).mp (hagree key)).2 path
  · rintro ⟨hleaves, hhollows⟩ key
    refine (h key).mpr ⟨?_, ?_⟩
    · intro path
      have hpath := hleaves (key :: path)
      rwa [leafAt_cons_object, leafAt_cons_object] at hpath
    · exact fun path => hhollows (key :: path)

end Objects

/-- Values are equal iff they have equal leaves, and empty objects, at the same paths. -/
theorem eq_iff_same (h : value.Ordered) (h' : other.Ordered) :
    value.eq other = true ↔ value.SameLeaves other ∧ value.SameHollows other := by
  induction h generalizing other with
  | @object map hsorted hentries ih =>
      cases h' with
      | @object map' hsorted' hentries' =>
          rw [eq, eqEntries_iff hsorted hsorted']
          apply same_object_iff
          intro key
          apply agree_iff_sameUnder
          · intro value hget
            have hmem := Map.mem_of_get hget
            exact ⟨hentries _ hmem, fun _ => ih _ hmem⟩
          · exact fun value hget => hentries' _ (Map.mem_of_get hget)
      | _ =>
          refine iff_of_false (by simp [eq]) ?_
          rintro ⟨hleaves, -⟩
          exact (hleaves []).elim
  | _ => exact eq_iff_same_of_leaf rfl

end Value

end Soulbase.Json
