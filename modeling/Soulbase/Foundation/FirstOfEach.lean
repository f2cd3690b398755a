/-
# The first of each key

A list without the elements whose key an element before them has. Elements without a key stay.
A loop that remembers the keys it has seen computes it (`filter_unseen_cons`), and so does one
that stops after a number of elements, of which `take_firstOfEach_append` says what a list that is
cut off leaves out.
-/

import Mathlib.Data.List.Induction

namespace Soulbase.Foundation

variable {α β : Type*} {key : α → Option β}

/-- Two elements have a key, and the same one. -/
def SameKey (key : α → Option β) (first second : α) : Prop :=
  ∃ found, key first = some found ∧ key second = some found

theorem sameKey_iff {first second : α} :
    SameKey key first second ↔ (key first).isSome ∧ key second = key first := by
  unfold SameKey
  cases key first <;> simp

instance [DecidableEq β] : DecidableRel (SameKey key) :=
  fun _ _ => decidable_of_iff _ sameKey_iff.symm

theorem SameKey.trans {first second third : α} (h : SameKey key first second)
    (hnext : SameKey key second third) : SameKey key first third := by
  obtain ⟨found, hfirst, hsecond⟩ := h
  obtain ⟨other, hsecond', hthird⟩ := hnext
  obtain rfl := Option.some.inj (hsecond.symm.trans hsecond')
  exact ⟨found, hfirst, hthird⟩

variable [DecidableEq β]

/-- The elements that have the key of no element before them. -/
def firstOfEach (key : α → Option β) : List α → List α
  | [] => []
  | first :: rest => first :: (firstOfEach key rest).filter fun later => ¬SameKey key first later

/-- No element of a list has the key of an element. -/
def Unseen (key : α → Option β) (before : List α) (element : α) : Prop :=
  ∀ earlier ∈ before, ¬SameKey key earlier element

instance (before : List α) : DecidablePred (Unseen key before) :=
  fun _ => List.decidableBAll _ _

theorem firstOfEach_sublist (list : List α) : (firstOfEach key list).Sublist list := by
  induction list with
  | nil => exact List.nil_sublist _
  | cons first rest ih => exact (List.filter_sublist.trans ih).cons_cons first

/-- What a loop that has seen some elements makes of the next one. -/
theorem filter_unseen_cons (before : List α) (first : α) (rest : List α) :
    (firstOfEach key (first :: rest)).filter (Unseen key before) =
      if Unseen key before first then
        first :: (firstOfEach key rest).filter (Unseen key (first :: before))
      else (firstOfEach key rest).filter (Unseen key before) := by
  rw [firstOfEach, List.filter_cons, List.filter_filter]
  by_cases hunseen : Unseen key before first
  · rw [if_pos (by simpa using hunseen), if_pos hunseen]
    congr 1
    apply List.filter_congr
    intro later _
    simp [Unseen, Bool.and_comm]
  · rw [if_neg (by simpa using hunseen), if_neg hunseen]
    apply List.filter_congr
    intro later _
    simp only [Bool.and_eq_left_iff_imp, decide_eq_true_eq]
    intro hlater hsame
    apply hunseen
    intro earlier hearlier hfirst
    exact hlater earlier hearlier (hfirst.trans hsame)

/-- Of two lists, the second adds the first elements of new keys. -/
theorem firstOfEach_append (front back : List α) :
    firstOfEach key (front ++ back) =
      firstOfEach key front ++ (firstOfEach key back).filter (Unseen key front) := by
  induction front with
  | nil => exact (List.filter_eq_self.mpr fun _ _ => by simp [Unseen]).symm
  | cons first rest ih =>
      rw [List.cons_append, firstOfEach, ih, firstOfEach, List.filter_append, List.cons_append,
        List.filter_filter]
      congr 2
      apply List.filter_congr
      intro later _
      simp [Unseen]

/-- Every element has its key from a first one. -/
theorem exists_firstOfEach {element : α} {list : List α} (h : element ∈ list) :
    element ∈ firstOfEach key list ∨
      ∃ first ∈ firstOfEach key list, SameKey key first element := by
  induction list with
  | nil => cases h
  | cons head rest ih =>
      rcases List.mem_cons.mp h with rfl | hrest
      · exact .inl List.mem_cons_self
      by_cases hsame : SameKey key head element
      · exact .inr ⟨head, List.mem_cons_self, hsame⟩
      rcases ih hrest with hmem | ⟨first, hfirst, hkey⟩
      · exact .inl (List.mem_cons_of_mem _ (List.mem_filter.mpr ⟨hmem, by simpa using hsame⟩))
      · refine .inr ⟨first, List.mem_cons_of_mem _ (List.mem_filter.mpr ⟨hfirst, ?_⟩), hkey⟩
        have hother : ¬SameKey key head first := fun h => hsame (h.trans hkey)
        simpa using hother

theorem unseen_firstOfEach {list : List α} {element : α} :
    Unseen key (firstOfEach key list) element ↔ Unseen key list element := by
  constructor
  · intro h earlier hearlier hsame
    rcases @exists_firstOfEach α β key _ _ _ hearlier with hmem | ⟨first, hfirst, hkey⟩
    · exact h earlier hmem hsame
    · exact h first hfirst (hkey.trans hsame)
  · exact fun h earlier hearlier => h earlier ((firstOfEach_sublist list).subset hearlier)

/-- The second list adds nothing if and only if all of its elements have keys of the first. -/
theorem filter_unseen_eq_nil_iff {front back : List α} :
    (firstOfEach key back).filter (Unseen key front) = [] ↔
      ∀ element ∈ back, ¬Unseen key front element := by
  rw [List.filter_eq_nil_iff]
  simp only [decide_eq_true_eq]
  constructor
  · intro h element helement hunseen
    rcases @exists_firstOfEach α β key _ _ _ helement with hmem | ⟨first, hfirst, hkey⟩
    · exact h element hmem hunseen
    · exact h first hfirst fun earlier hearlier hsame =>
        hunseen earlier hearlier (hsame.trans hkey)
  · exact fun h element helement => h element ((firstOfEach_sublist back).subset helement)

theorem take_eq_take_append_iff {number : ℕ} {front added : List α} :
    front.take number = (front ++ added).take number ↔ number ≤ front.length ∨ added = [] := by
  rw [List.take_append]
  constructor
  · intro h
    have hnone := List.append_right_eq_self.mp h.symm
    rw [List.take_eq_nil_iff] at hnone
    exact hnone.imp Nat.le_of_sub_eq_zero id
  · rintro (hroom | rfl)
    · rw [Nat.sub_eq_zero_of_le hroom, List.take_zero, List.append_nil]
    · rw [List.take_nil, List.append_nil]

/-- A list that is cut off has the same first elements, up to a number, if and only if there are
so many before the cut, or only their keys after it. -/
theorem take_firstOfEach_append (number : ℕ) (front back : List α) :
    (firstOfEach key front).take number = (firstOfEach key (front ++ back)).take number ↔
      number ≤ (firstOfEach key front).length ∨ ∀ element ∈ back, ¬Unseen key front element := by
  rw [firstOfEach_append, take_eq_take_append_iff, filter_unseen_eq_nil_iff]

theorem firstOfEach_concat (front : List α) (last : α) :
    firstOfEach key (front ++ [last]) =
      firstOfEach key front ++ if Unseen key front last then [last] else [] := by
  rw [firstOfEach_append]
  congr 1
  by_cases h : Unseen key front last <;> simp [firstOfEach, h]

/-- The first elements up to a number have a property if and only if every element without it
has the key of an element before it, or so many of them before it. -/
theorem forall_mem_take_firstOfEach_iff {holds : α → Prop} {number : ℕ} {list : List α} :
    (∀ element ∈ (firstOfEach key list).take number, holds element) ↔
      ∀ before element after, list = before ++ element :: after → ¬holds element →
        Unseen key before element → number ≤ (firstOfEach key before).length := by
  constructor
  · rintro h before element after rfl hnot hunseen
    by_contra hroom
    apply hnot
    apply h
    obtain ⟨more, hmore⟩ :=
      Nat.exists_eq_succ_of_ne_zero (Nat.sub_ne_zero_of_lt (Nat.lt_of_not_le hroom))
    rw [List.append_cons, firstOfEach_append, firstOfEach_concat, if_pos hunseen,
      List.append_assoc, List.take_append, hmore]
    exact List.mem_append_right _ List.mem_cons_self
  · intro h element helement
    induction list using List.reverseRecOn with
    | nil => simp [firstOfEach] at helement
    | append_singleton front last ih =>
        rw [firstOfEach_concat, List.take_append, List.mem_append] at helement
        rcases helement with hfront | hlast
        · exact ih (fun before other after hsplit =>
            h before other (after ++ [last]) (by rw [hsplit]; simp)) hfront
        · split at hlast
          case isFalse => simp at hlast
          case isTrue hunseen =>
            obtain rfl : element = last := by simpa using List.mem_of_mem_take hlast
            by_contra hnot
            have hfull := h front element [] rfl hnot hunseen
            rw [Nat.sub_eq_zero_of_le hfull] at hlast
            cases hlast

/-- If the first elements up to a number have a property, they are those of the elements that
have it. -/
theorem take_firstOfEach_filter {holds : α → Prop} [DecidablePred holds] {number : ℕ}
    {list : List α} (h : ∀ element ∈ (firstOfEach key list).take number, holds element) :
    (firstOfEach key (list.filter holds)).take number = (firstOfEach key list).take number := by
  induction list using List.reverseRecOn with
  | nil => rfl
  | append_singleton front last ih =>
      rw [firstOfEach_concat, List.take_append] at h
      have hfront := ih fun element helement => h element (List.mem_append_left _ helement)
      rw [List.filter_append, firstOfEach_concat, List.take_append]
      by_cases hfull : number ≤ (firstOfEach key front).length
      case pos =>
        have hlength := congrArg List.length hfront
        rw [List.length_take, List.length_take, Nat.min_eq_left hfull] at hlength
        rw [Nat.sub_eq_zero_of_le hfull, List.take_zero, List.append_nil, firstOfEach_append,
          List.take_append_of_le_length (by omega), hfront]
      case neg =>
        have hlast : Unseen key front last → holds last := by
          intro hunseen
          apply h
          rw [if_pos hunseen]
          refine List.mem_append_right _ ?_
          rw [List.take_of_length_le (by simp; omega)]
          exact List.mem_singleton_self last
        rw [List.take_of_length_le (Nat.le_of_not_le hfull)] at hfront
        have hsame : firstOfEach key (front.filter holds) = firstOfEach key front := by
          rw [← hfront, List.take_of_length_le]
          have hlength := congrArg List.length hfront
          rw [List.length_take] at hlength
          omega
        by_cases hholds : holds last
        · rw [List.filter_cons_of_pos (by simpa using hholds), List.filter_nil,
            firstOfEach_concat, hsame, List.take_append]
          have hunseen : Unseen key (front.filter holds) last ↔ Unseen key front last := by
            rw [← unseen_firstOfEach, hsame, unseen_firstOfEach]
          simp only [hunseen]
        · rw [List.filter_cons_of_neg (by simpa using hholds), List.filter_nil, List.append_nil,
            if_neg fun hunseen => hholds (hlast hunseen), List.take_nil, List.append_nil, hsame]

end Soulbase.Foundation
