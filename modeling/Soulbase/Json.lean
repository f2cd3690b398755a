/-
# JSON objects and paths

The operations of `serde_json::Map` that the code uses, without `preserve_order`: entries are
kept in the order of their names. A build with the feature `surreal` takes in the client of the
database, which turns `preserve_order` on for all crates, and entries are then kept in the order
in which they came: what follows is about the other builds.

Over the operations, the two descents along a path of names that edit the value at its end or
drop it.
-/

import Mathlib.Algebra.Group.Nat.Defs
import Soulbase.Types

namespace Soulbase.Json

/-- `serde_json::Map`. -/
abbrev Map := List (String × Value)

namespace Map

/-- `Map::get`. -/
def get (map : Map) (key : String) : Option Value :=
  match map with
  | [] => none
  | (name, value) :: rest => if name = key then some value else get rest key

/-- `Map::insert`. -/
def insert (map : Map) (key : String) (value : Value) : Map :=
  match map with
  | [] => [(key, value)]
  | (name, old) :: rest =>
      if name = key then (key, value) :: rest
      else if key < name then (key, value) :: (name, old) :: rest
      else (name, old) :: insert rest key value

/-- `Map::remove`, without the value. -/
def remove (map : Map) (key : String) : Map := map.filter (·.1 ≠ key)

/-- Insert all entries of another object, one after the other. -/
def insertAll (map entries : Map) : Map :=
  entries.foldl (fun map entry => map.insert entry.1 entry.2) map

theorem get_insert (map : Map) (key other : String) (value : Value) :
    (map.insert key value).get other = if other = key then some value else map.get other := by
  induction map with
  | nil => simp [insert, get, eq_comm]
  | cons entry rest ih =>
      obtain ⟨name, old⟩ := entry
      unfold insert
      split
      case isTrue hname =>
        subst hname
        simp only [get, eq_comm]
        split <;> rfl
      case isFalse hname =>
        split
        case isTrue => simp only [get, eq_comm]
        case isFalse =>
          change (if name = other then some old else (insert rest key value).get other) =
            if other = key then some value else if name = other then some old else get rest other
          rw [ih]
          by_cases hother : other = key
          · subst hother
            rw [if_neg hname, if_pos rfl, if_pos rfl]
          · rw [if_neg hother, if_neg hother]

/-- The value that inserting the entries leaves under a name, if there is one. No map has
two entries of one name; of a list that has, it is the last. -/
def written (entries : Map) (key : String) : Option Value :=
  match entries with
  | [] => none
  | (name, value) :: rest => (written rest key).or (if name = key then some value else none)

theorem get_insertAll (map entries : Map) (key : String) :
    (map.insertAll entries).get key = (entries.written key).or (map.get key) := by
  induction entries generalizing map with
  | nil => rfl
  | cons entry rest ih =>
      obtain ⟨name, value⟩ := entry
      change ((map.insert name value).insertAll rest).get key = _
      rw [ih, get_insert, written, Option.or_assoc]
      by_cases hname : key = name
      · rw [if_pos hname, if_pos hname.symm, Option.some_or]
      · rw [if_neg hname, if_neg (Ne.symm hname), Option.none_or]

end Map

namespace Value

/-- `Value::from`, for an `i64`. -/
def ofInt64 (value : Int64) : Value :=
  number (if value < 0 then .negInt value else .posInt value.toUInt64)

/-- `Value::as_str`. -/
def asStr : Value → Option String
  | string value => some value
  | _ => none

/-- `Value::as_u64`. -/
def asU64 : Value → Option UInt64
  | number (.posInt value) => some value
  | _ => none

/-- `Value::as_bool`. -/
def asBool : Value → Option Bool
  | bool value => some value
  | _ => none

/-- `Value::as_object`. -/
def asObject : Value → Option Map
  | object map => some map
  | _ => none

/-- `Value::as_array`. -/
def asArray : Value → Option (List Value)
  | array items => some items
  | _ => none

/-- `Value::get` with a name. -/
def get (value : Value) (key : String) : Option Value :=
  match value with
  | object map => Map.get map key
  | _ => none

end Value

/-- `descend_mut`, and the edit of the value that it finds. -/
def descendMut (update : Value → Value) : List String → Value → Option Value
  | [], value => some (update value)
  | key :: path, .object map =>
      (Map.get map key).bind fun next =>
        (descendMut update path next).map fun edited => .object (Map.insert map key edited)
  | _ :: _, _ => none

/-- `remove_path`. It is `none` where the source returns false. -/
def removePath : List String → Value → Option Value
  | [], _ => none
  | [key], .object map => (Map.get map key).map fun _ => .object (Map.remove map key)
  | key :: path, .object map =>
      (Map.get map key).bind fun next =>
        (removePath path next).map fun edited => .object (Map.insert map key edited)
  | _ :: _, _ => none

/-- `replace("~1", "/").replace("~0", "~")`, for a part of a pointer. -/
def unescapeToken : List Char → List Char
  | '~' :: '1' :: rest => '/' :: unescapeToken rest
  | '~' :: '0' :: rest => '~' :: unescapeToken rest
  | c :: rest => c :: unescapeToken rest
  | [] => []

/-- `parse_index`. -/
def parseIndex (token : List Char) : Option ℕ :=
  if token.head? = some '+' || (token.head? = some '0' && token.length ≠ 1) then none
  else if token ≠ [] && token.all Char.isDigit then
    let index := token.foldl (fun index digit => 10 * index + (digit.toNat - '0'.toNat)) 0
    if index < 2 ^ 64 then some index else none
  else none

/-- The tokens of a pointer: none for the empty text, and none at all where it does not begin
with a slash. -/
def pointerTokens (pointer : String) : Option (List (List Char)) :=
  match pointer.toList.splitOn '/' with
  | [] => some []
  | [] :: tokens => some (tokens.map unescapeToken)
  | _ :: _ => none

/-- The descent of `Value::pointer_mut`, and the edit of what it finds. -/
def editAt (update : Value → Value) : List (List Char) → Value → Option Value
  | [], value => some (update value)
  | token :: tokens, .object map =>
      let key := String.ofList token
      (Map.get map key).bind fun next =>
        (editAt update tokens next).map fun edited => .object (Map.insert map key edited)
  | token :: tokens, .array items =>
      (parseIndex token).bind fun index => items[index]?.bind fun next =>
        (editAt update tokens next).map fun edited => .array (items.set index edited)
  | _ :: _, _ => none

/-- `if let Some(target) = value.pointer_mut(pointer)`, and the assignment to the target. -/
def assignAt (value : Value) (pointer : String) (assigned : Value) : Value :=
  ((pointerTokens pointer).bind fun tokens => editAt (fun _ => assigned) tokens value).getD value

end Soulbase.Json
