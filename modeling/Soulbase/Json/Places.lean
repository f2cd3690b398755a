/-
# Places in a value

A JSON value holds values under the tokens of a pointer: an object under its names, and an array
under its indices, which have one token each as they are written without zeros in front. So it
is a `Nesting`, and `pointer_mut` finds the place whose tokens are those of the pointer.
-/

import Mathlib.Data.String.Basic
import Soulbase.Foundation.Digits
import Soulbase.Foundation.Nesting
import Soulbase.Json.Ordered

namespace Soulbase.Json

open Soulbase.Foundation

namespace Map

variable {map : Map} {key other : String}

/-- The later of two writes under a name is the one that counts. -/
theorem insert_insert (map : Map) (key : String) (first second : Value) :
    (map.insert key first).insert key second = map.insert key second := by
  induction map with
  | nil => simp [insert]
  | cons entry rest ih =>
      obtain ⟨name, old⟩ := entry
      rw [insert]
      split
      case isTrue hname => simp [insert, hname]
      case isFalse hname =>
        split
        case isTrue hlt => simp [insert, hname, hlt]
        case isFalse hlt => simp [insert, hname, hlt, ih]

theorem insert_comm_of_lt (map : Map) (first second : Value) (h : other < key) :
    (map.insert key first).insert other second = (map.insert other second).insert key first := by
  have hne : key ≠ other := h.ne'
  have hnlt : ¬key < other := h.not_gt
  induction map with
  | nil => simp [insert, h, hne, hne.symm, hnlt]
  | cons entry rest ih =>
      obtain ⟨name, old⟩ := entry
      by_cases hkey : name = key
      · subst hkey
        simp [insert, h, hne, hne.symm, hnlt]
      · by_cases hlt : key < name
        · simp [insert, h, hne, hne.symm, hnlt, hkey, hlt, h.trans hlt, (h.trans hlt).ne']
        · by_cases hother : name = other
          · subst hother
            simp [insert, hne.symm, hnlt]
          · by_cases hbefore : other < name
            · simp [insert, hne.symm, hnlt, hkey, hlt, hother, hbefore]
            · simp [insert, hkey, hlt, hother, hbefore, ih]

/-- Writes under two names can be exchanged. -/
theorem insert_comm (map : Map) (first second : Value) (h : other ≠ key) :
    (map.insert key first).insert other second = (map.insert other second).insert key first := by
  rcases lt_or_gt_of_ne h with hlt | hlt
  · exact insert_comm_of_lt map first second hlt
  · exact (insert_comm_of_lt map second first hlt).symm

end Map

/-- A token that is an index is how the index is written. -/
theorem toDigits_parseIndex {token : List Char} {index : ℕ} (h : parseIndex token = some index) :
    Nat.toDigits 10 index = token := by
  rw [parseIndex] at h
  split at h
  case isTrue => cases h
  case isFalse hfront =>
    split at h
    case isFalse => cases h
    case isTrue hdigits =>
      obtain ⟨-, hindex⟩ := Option.ite_none_right_eq_some.mp h
      obtain ⟨hne, hall⟩ : token ≠ [] ∧ ∀ c ∈ token, c.isDigit = true := by simpa using hdigits
      obtain ⟨-, hzero⟩ : token.head? ≠ some '+' ∧
          (token.head? = some '0' → token.length = 1) := by simpa using hfront
      rw [← Option.some.inj hindex]
      exact toDigits_ofDigitChars hall hne hzero

theorem parseIndex_inj {token other : List Char} {index : ℕ} (h : parseIndex token = some index)
    (hother : parseIndex other = some index) : token = other := by
  rw [← toDigits_parseIndex h, toDigits_parseIndex hother]

namespace Value

/-- What a value holds under a token. -/
def under (value : Value) (token : String) : Option Value :=
  match value with
  | object map => Map.get map token
  | array items => (parseIndex token.toList).bind (items[·]?)
  | _ => none

/-- The value, with another one under a token. -/
def setUnder (value : Value) (token : String) (held : Value) : Value :=
  match value with
  | object map => object (Map.insert map token held)
  | array items =>
      match parseIndex token.toList with
      | some index => array (items.set index held)
      | none => array items
  | _ => value

end Value

/-- A value with what it holds under the tokens. -/
def nesting : Nesting Value String where
  get := Value.under
  set := Value.setUnder
  get_set {value token held} other h := by
    cases value with
    | object map => exact (Map.get_insert map token token other).trans (if_pos rfl)
    | array items =>
        obtain ⟨index, hindex, hheld⟩ := Option.bind_eq_some_iff.mp h
        obtain ⟨hlt, -⟩ := List.getElem?_eq_some_iff.mp hheld
        simp [Value.under, Value.setUnder, hindex, hlt]
    | _ => cases h
  get_set_of_ne {value token other} held h := by
    cases value with
    | object map => exact (Map.get_insert map token other held).trans (if_neg h)
    | array items =>
        cases hindex : parseIndex token.toList with
        | none => simp [Value.setUnder, hindex]
        | some index =>
            cases hother : parseIndex other.toList with
            | none => simp [Value.under, Value.setUnder, hindex, hother]
            | some second =>
                have hne : index ≠ second := by
                  rintro rfl
                  exact h (String.toList_injective (parseIndex_inj hother hindex))
                simp [Value.under, Value.setUnder, hindex, hother, List.getElem?_set_ne hne]
    | _ => rfl
  set_set value token first second := by
    cases value with
    | object map => exact congrArg Value.object (Map.insert_insert map token first second)
    | array items => cases h : parseIndex token.toList <;> simp [Value.setUnder, h]
    | _ => rfl
  set_comm {value token other} first second h := by
    cases value with
    | object map => exact congrArg Value.object (Map.insert_comm map first second h)
    | array items =>
        cases hindex : parseIndex token.toList with
        | none => cases hother : parseIndex other.toList <;> simp [Value.setUnder, hindex, hother]
        | some index =>
            cases hother : parseIndex other.toList with
            | none => simp [Value.setUnder, hindex, hother]
            | some second =>
                have hne : index ≠ second := by
                  rintro rfl
                  exact h (String.toList_injective (parseIndex_inj hother hindex))
                simp [Value.setUnder, hindex, hother, List.set_comm _ _ hne]
    | _ => rfl

/-- The place that a pointer names. -/
def pointerPlace (pointer : String) : Option (List String) :=
  (pointerTokens pointer).map (·.map String.ofList)

theorem editAt_eq_replace (assigned value : Value) (tokens : List (List Char)) :
    editAt (fun _ => assigned) tokens value =
      nesting.replace assigned (tokens.map String.ofList) value := by
  induction tokens generalizing value with
  | nil => rfl
  | cons token tokens ih =>
      have hedit : editAt (fun _ => assigned) tokens =
          nesting.edit (fun _ => some assigned) (tokens.map String.ofList) := funext ih
      cases value with
      | object map =>
          rw [editAt, hedit]
          rfl
      | array items =>
          have hget : nesting.get (.array items) (String.ofList token) =
              (parseIndex token).bind (items[·]?) := by
            simp [nesting, Value.under]
          rw [editAt, hedit, List.map_cons, Nesting.replace, Nesting.edit, hget]
          cases hindex : parseIndex token with
          | none => rfl
          | some index =>
              have hset : nesting.set (.array items) (String.ofList token) =
                  fun edited => .array (items.set index edited) := by
                funext edited
                simp [nesting, Value.setUnder, hindex]
              rw [hset, Option.bind_some, Option.bind_some]
      | _ => rfl

theorem assignAt_eq (value : Value) (pointer : String) (assigned : Value) :
    assignAt value pointer assigned =
      ((pointerPlace pointer).bind fun place => nesting.replace assigned place value).getD
        value := by
  rw [assignAt, pointerPlace]
  cases pointerTokens pointer with
  | none => rfl
  | some tokens => exact congrArg (·.getD value) (editAt_eq_replace assigned value tokens)

theorem replace_of_descendMut {assigned value edited : Value} {path : List String}
    (h : descendMut (fun _ => assigned) path value = some edited) :
    nesting.replace assigned path value = some edited := by
  induction path generalizing value edited with
  | nil => exact h
  | cons key path ih =>
      cases value with
      | object map =>
          obtain ⟨next, hnext, hmap⟩ := Option.bind_eq_some_iff.mp h
          obtain ⟨inner, hinner, rfl⟩ := Option.map_eq_some_iff.mp hmap
          exact Option.bind_eq_some_iff.mpr ⟨next, hnext, Option.map_eq_some_iff.mpr
            ⟨inner, ih hinner, rfl⟩⟩
      | _ => cases h

/-- What is done to an object, and to nothing else. -/
def onObject (act : Map → Option Map) : Value → Option Value
  | .object map => (act map).map .object
  | _ => none

/-- `Map::remove`, where it removes something. -/
def removeUnder (key : String) : Value → Option Value :=
  onObject fun map => (map.get key).map fun _ => map.remove key

/-- `Map::insert`. -/
def insertUnder (key : String) (value : Value) : Value → Option Value :=
  onObject fun map => some (map.insert key value)

theorem removePath_nil {value : Value} : removePath [] value = none := by
  cases value <;> rfl

theorem edit_of_removePath {key : String} {value edited : Value} {front : List String}
    (h : removePath (front ++ [key]) value = some edited) :
    nesting.edit (removeUnder key) front value = some edited := by
  induction front generalizing value edited with
  | nil =>
      cases value with
      | object map =>
          obtain ⟨old, hold, rfl⟩ := Option.map_eq_some_iff.mp h
          change ((Map.get map key).map _).map _ = _
          rw [hold]
          rfl
      | _ => cases h
  | cons name front ih =>
      cases value with
      | object map =>
          have hlong : front ++ [key] ≠ [] := List.append_ne_nil_of_right_ne_nil _ (by simp)
          rw [List.cons_append, removePath.eq_3 _ _ _ hlong] at h
          obtain ⟨next, hnext, hmap⟩ := Option.bind_eq_some_iff.mp h
          obtain ⟨inner, hinner, rfl⟩ := Option.map_eq_some_iff.mp hmap
          exact Option.bind_eq_some_iff.mpr ⟨next, hnext, Option.map_eq_some_iff.mpr
            ⟨inner, ih hinner, rfl⟩⟩
      | _ => cases front <;> cases h

theorem hereditary_ordered : nesting.Hereditary Value.Ordered where
  get {value held token} h hget := by
    cases h with
    | @object map hsorted hentries => exact hentries _ (Map.mem_of_get hget)
    | @array items hitems =>
        obtain ⟨index, -, hheld⟩ := Option.bind_eq_some_iff.mp hget
        exact hitems held (List.mem_of_getElem? hheld)
    | _ => cases hget
  set {value held} token h hheld := by
    cases h with
    | @object map hsorted hentries => exact Value.Ordered.insert (.object hsorted hentries) hheld
    | @array items hitems =>
        change (Value.setUnder (.array items) token held).Ordered
        rw [Value.setUnder]
        split
        case h_1 index hindex =>
          refine .array fun item hitem => ?_
          rcases List.mem_or_eq_of_mem_set hitem with hitem | rfl
          · exact hitems item hitem
          · exact hheld
        case h_2 => exact .array hitems
    | null => exact .null
    | bool value => exact .bool value
    | number value => exact .number value
    | string value => exact .string value

/-- An action on the entry of one name is an action on what is held under it. -/
theorem actsUnder_onObject {key : String} {act : Map → Option Map}
    (hover : ∀ {map held} (other), Map.get map key = some held →
      act (map.insert key other) = act map)
    (hbeside : ∀ {map name held} (changed), map.Sorted → name ≠ key → Map.get map name = some held →
      act (map.insert name changed) = (act map).map fun acted => acted.insert name changed)
    (hframe : ∀ {map acted name}, name ≠ key → act map = some acted → acted.get name = map.get name)
    (hkeeps : ∀ {map acted}, (Value.object map).Ordered → act map = some acted →
      (Value.object acted).Ordered) :
    nesting.ActsUnder Value.Ordered key (onObject act) where
  absorb {value held} other h := by
    cases value with
    | object map => exact congrArg (Option.map Value.object) (hover other h)
    | array items =>
        change onObject act (Value.setUnder (.array items) key other) = none
        rw [Value.setUnder]
        split <;> rfl
    | _ => rfl
  beside {value held name} changed hvalue hname h := by
    cases hvalue with
    | @object map hsorted _ =>
        change (act (Map.insert map name changed)).map Value.object =
          ((act map).map Value.object).map fun acted => nesting.set acted name changed
        rw [hbeside changed hsorted hname h, Option.map_map, Option.map_map]
        rfl
    | @array items _ =>
        change onObject act (Value.setUnder (.array items) name changed) = none
        rw [Value.setUnder]
        split <;> rfl
    | _ => rfl
  frame {value acted name} hname h := by
    cases value with
    | object map =>
        obtain ⟨entries, hentries, rfl⟩ := Option.map_eq_some_iff.mp h
        exact hframe hname hentries
    | _ => cases h
  keeps {value acted} hvalue h := by
    cases value with
    | object map =>
        obtain ⟨entries, hentries, rfl⟩ := Option.map_eq_some_iff.mp h
        exact hkeeps hvalue hentries
    | _ => cases h

theorem actsUnder_removeUnder (key : String) :
    nesting.ActsUnder Value.Ordered key (removeUnder key) := by
  apply actsUnder_onObject
  case hover =>
    intro map held other h
    rw [Map.get_insert, if_pos rfl, h, Map.remove_insert]
    rfl
  case hbeside =>
    intro map name held changed hsorted hname _
    rw [Map.get_insert, if_neg hname.symm, Option.map_map]
    congr 1
    funext old
    exact hsorted.remove_insert_comm changed hname
  case hframe =>
    intro map acted name hname h
    obtain ⟨old, -, rfl⟩ := Option.map_eq_some_iff.mp h
    exact Map.get_remove_of_ne map hname
  case hkeeps =>
    intro map acted hmap h
    obtain ⟨old, -, rfl⟩ := Option.map_eq_some_iff.mp h
    cases hmap with
    | object hsorted hentries =>
        exact .object (hsorted.remove key) fun entry hentry =>
          hentries entry (List.mem_of_mem_filter hentry)

theorem actsUnder_insertUnder (key : String) {value : Value} (hvalue : value.Ordered) :
    nesting.ActsUnder Value.Ordered key (insertUnder key value) := by
  apply actsUnder_onObject
  case hover =>
    intro map held other _
    rw [Map.insert_insert]
  case hbeside =>
    intro map name held changed _ hname _
    exact congrArg some (Map.insert_comm map changed value hname.symm)
  case hframe =>
    intro map acted name hname h
    rw [← Option.some.inj h, Map.get_insert, if_neg hname]
  case hkeeps =>
    intro map acted hmap h
    obtain rfl := Option.some.inj h
    exact hereditary_ordered.set key hmap hvalue

end Soulbase.Json
