/-
# Pages after a cursor

Rows are asked for in pages: the first rows, in their order, whose keys are after the key of
the last row of the page before. Whether the pages are the rows, one after the other, depends
on the order: at the end of every full page, the rows so far must be those with keys up to the
last one.
-/

import Mathlib.Data.List.Nodup
import Mathlib.Order.Lattice

namespace Soulbase.Foundation.Paging

section Definitions

variable {α K : Type*} [LinearOrder K] (key : α → K) (rows : List α) (limit : ℕ)

/-- The rows after a cursor. -/
def after (cursor : Option K) : List α :=
  rows.filter fun row => cursor.all fun last => decide (last < key row)

/-- The page after a cursor. -/
def page (cursor : Option K) : List α := (after key rows cursor).take limit

/-- The cursor after a page: none unless the page is full. -/
def next (items : List α) : Option K :=
  if items.length = limit ∧ 0 < limit then items.getLast?.map key else none

/-- The pages after a cursor, one after the other, until there is no cursor. -/
inductive Visits : Option K → List α → Prop
  | last {cursor : Option K} (h : next key limit (page key rows limit cursor) = none) :
      Visits cursor (page key rows limit cursor)
  | more {cursor : Option K} {last : K} {visited : List α}
      (h : next key limit (page key rows limit cursor) = some last)
      (hrest : Visits (some last) visited) : Visits cursor (page key rows limit cursor ++ visited)

/-- The cursor after some rows. -/
def cursorAfter (cursor : Option K) (visited : List α) : Option K :=
  (visited.getLast?.map key).or cursor

/-- At the end of every full page of a list, what is next of the list is the next page. -/
def Continues (cursor : Option K) (visited : List α) : Prop :=
  ∀ full, full * limit ≤ visited.length →
    page key rows limit (cursorAfter key cursor (visited.take (full * limit))) =
      (visited.drop (full * limit)).take limit

/-- The rows before a position have keys up to the last one, and those after it greater ones. -/
def SplitsAt (position : ℕ) : Prop :=
  ∀ last ∈ (rows.take position).getLast?,
    (∀ row ∈ rows.take position, key row ≤ key last) ∧
      ∀ row ∈ rows.drop position, key last < key row

/-- The rows split at the end of every full page. -/
def Splits : Prop :=
  ∀ full, 0 < full → full * limit ≤ rows.length → SplitsAt key rows (full * limit)

end Definitions

section Visits

variable {α K : Type*} [LinearOrder K] {key : α → K} {rows visited : List α} {limit : ℕ}
variable {cursor : Option K} {last : K}

omit [LinearOrder K] in
theorem next_eq_some_iff {items : List α} :
    next key limit items = some last ↔
      items.length = limit ∧ ∃ row ∈ items.getLast?, key row = last := by
  unfold next
  split
  case isTrue h => simp [h.1]
  case isFalse h =>
    refine iff_of_false nofun ?_
    rintro ⟨hlength, row, hrow, _⟩
    have hne : items ≠ [] := by
      rintro rfl
      cases hrow
    exact h ⟨hlength, hlength ▸ List.length_pos_iff.mpr hne⟩

theorem exists_getLast? {position : ℕ} (hpositive : 0 < position)
    (hposition : position ≤ rows.length) : ∃ row, (rows.take position).getLast? = some row := by
  have hne : rows.take position ≠ [] := by
    rw [← List.length_pos_iff, List.length_take]
    omega
  exact ⟨_, List.getLast?_eq_some_getLast hne⟩

theorem length_page_le : (page key rows limit cursor).length ≤ limit := by
  rw [page, List.length_take]
  exact Nat.min_le_left _ _

/-- What is visited goes on where each page ends. -/
theorem Visits.continues (h : Visits key rows limit cursor visited) (hlimit : 0 < limit) :
    Continues key rows limit cursor visited := by
  induction h with
  | @last cursor h =>
      intro full hfull
      have hshort : (page key rows limit cursor).length < limit := by
        refine Nat.lt_of_le_of_ne length_page_le fun hlength => ?_
        rw [next, if_pos ⟨hlength, hlimit⟩, Option.map_eq_none_iff,
          List.getLast?_eq_none_iff] at h
        rw [h] at hlength
        exact Nat.ne_of_lt hlimit hlength
      cases full with
      | zero => simp [cursorAfter, List.take_of_length_le (Nat.le_of_lt hshort)]
      | succ full =>
          rw [Nat.succ_mul] at hfull
          omega
  | @more cursor last visited h _ ih =>
      obtain ⟨hlength, row, hrow, rfl⟩ := next_eq_some_iff.mp h
      intro full hfull
      cases full with
      | zero => simp [cursorAfter, hlength]
      | succ full =>
          rw [List.length_append, hlength, Nat.succ_mul] at hfull
          have hposition : (full + 1) * limit =
              (page key rows limit cursor).length + full * limit := by
            rw [hlength, Nat.succ_mul, Nat.add_comm]
          have hrest := ih full (by omega)
          rw [hposition, List.drop_length_add_append, ← hrest, List.take_length_add_append,
            cursorAfter, cursorAfter, List.getLast?_append, hrow]
          cases (visited.take (full * limit)).getLast? <;> rfl

/-- What goes on where each page ends is visited. -/
theorem visits_of_continues (hlimit : 0 < limit) (h : Continues key rows limit cursor visited) :
    Visits key rows limit cursor visited := by
  induction hlength : visited.length using Nat.strongRecOn generalizing cursor visited with
  | _ length ih =>
      subst hlength
      have hfirst : page key rows limit cursor = visited.take limit := by
        have hzero := h 0 (by omega)
        simpa [cursorAfter] using hzero
      by_cases hfull : limit ≤ visited.length
      case neg =>
        have hwhole : visited.take limit = visited := List.take_of_length_le (by omega)
        rw [hwhole] at hfirst
        rw [← hfirst]
        refine .last ?_
        rw [hfirst, next, if_neg]
        rintro ⟨hlength, _⟩
        omega
      case pos =>
        have hlength : (visited.take limit).length = limit := by
          rw [List.length_take]
          omega
        obtain ⟨row, hrow⟩ := exists_getLast? hlimit hfull
        have hnext : next key limit (page key rows limit cursor) = some (key row) := by
          rw [hfirst, next_eq_some_iff]
          exact ⟨hlength, row, hrow, rfl⟩
        have hrest : Continues key rows limit (some (key row)) (visited.drop limit) := by
          intro full hbound
          rw [List.length_drop] at hbound
          have hlater := h (full + 1) (by rw [Nat.succ_mul]; omega)
          have hposition : (full + 1) * limit = limit + full * limit := by
            rw [Nat.succ_mul, Nat.add_comm]
          rw [hposition, ← List.drop_drop] at hlater
          rw [← hlater, List.take_add, cursorAfter, cursorAfter, List.getLast?_append, hrow]
          cases ((visited.drop limit).take (full * limit)).getLast? <;> rfl
        have hvisits := Visits.more hnext (ih _ (by rw [List.length_drop]; omega) hrest rfl)
        rw [hfirst, List.take_append_drop] at hvisits
        exact hvisits

/-- The pages come to an end. -/
theorem exists_visits (key : α → K) (rows : List α) (limit : ℕ) (cursor : Option K) :
    ∃ visited, Visits key rows limit cursor visited := by
  induction hlength : (after key rows cursor).length using Nat.strongRecOn
    generalizing cursor with
  | _ length ih =>
      subst hlength
      cases hnext : next key limit (page key rows limit cursor) with
      | none => exact ⟨_, .last hnext⟩
      | some last =>
          obtain ⟨_, row, hrow, rfl⟩ := next_eq_some_iff.mp hnext
          have hmem : row ∈ after key rows cursor :=
            List.mem_of_mem_take (List.mem_of_getLast? hrow)
          have hcursor := (List.mem_filter.mp hmem).2
          have hafter : after key rows (some (key row)) =
              (after key rows cursor).filter fun other => decide (key row < key other) := by
            rw [after, after, List.filter_filter]
            refine List.filter_congr fun other _ => ?_
            rw [Option.all_some, eq_comm, Bool.and_eq_left_iff_imp]
            intro hless
            cases cursor with
            | none => rfl
            | some last =>
                rw [Option.all_some, decide_eq_true_iff] at hcursor ⊢
                exact hcursor.trans (of_decide_eq_true hless)
          obtain ⟨visited, hvisited⟩ := ih _ (by
            rw [hafter]
            exact List.length_filter_lt_length_iff_exists.mpr ⟨row, hmem, by simp⟩) _ rfl
          exact ⟨_, .more hnext hvisited⟩

end Visits

section Splits

variable {α K : Type*} [LinearOrder K] {key : α → K} {rows : List α} {limit : ℕ}

/-- If the rows split, those after the last row are the rest. -/
theorem SplitsAt.after_eq {position : ℕ} {last : α} (h : SplitsAt key rows position)
    (hlast : (rows.take position).getLast? = some last) :
    after key rows (some (key last)) = rows.drop position := by
  obtain ⟨hbefore, hrest⟩ := h last hlast
  conv_lhs => rw [after, ← List.take_append_drop position rows]
  rw [List.filter_append, List.filter_eq_nil_iff.mpr, List.filter_eq_self.mpr, List.nil_append]
  · intro row hrow
    simpa using hrest row hrow
  · intro row hrow
    simpa using hbefore row hrow

theorem Splits.continues (h : Splits key rows limit) (hlimit : 0 < limit) :
    Continues key rows limit none rows := by
  intro full hfull
  cases full with
  | zero =>
      have hall : after key rows none = rows := List.filter_eq_self.mpr fun _ _ => rfl
      simp [cursorAfter, page, hall]
  | succ full =>
      have hpositive : 0 < (full + 1) * limit := Nat.mul_pos (Nat.succ_pos _) hlimit
      obtain ⟨last, hlast⟩ := exists_getLast? hpositive hfull
      rw [cursorAfter, hlast, page]
      exact congrArg _ ((h (full + 1) (Nat.succ_pos _) hfull).after_eq hlast)

/-- The page after a row, if the rows go on there. -/
theorem Continues.page_eq (h : Continues key rows limit none rows) {full : ℕ} {last : α}
    (hfull : full * limit ≤ rows.length)
    (hlast : (rows.take (full * limit)).getLast? = some last) :
    (after key rows (some (key last))).take limit = (rows.drop (full * limit)).take limit := by
  have hpage := h full hfull
  rw [cursorAfter, hlast] at hpage
  exact hpage

/-- The last row before a position. -/
theorem getLast?_take {position : ℕ} (hposition : position < rows.length) :
    (rows.take (position + 1)).getLast? = some rows[position] := by
  rw [List.getLast?_take]
  simp [hposition]

/-- Rows with different keys that go on where each page ends split there. -/
theorem Continues.splits (h : Continues key rows limit none rows) (hlimit : 0 < limit)
    (hkeys : (rows.map key).Nodup) : Splits key rows limit := by
  -- The rows of the next page have greater keys.
  have hnext : ∀ full last, full * limit ≤ rows.length →
      (rows.take (full * limit)).getLast? = some last →
        ∀ row ∈ (rows.drop (full * limit)).take limit, key last < key row := by
    intro full last hfull hlast row hrow
    rw [← h.page_eq hfull hlast] at hrow
    simpa using (List.mem_filter.mp (List.mem_of_mem_take hrow)).2
  -- So have those of all later pages, since each page begins after the last row of another.
  have hlater : ∀ full last, 0 < full → full * limit ≤ rows.length →
      (rows.take (full * limit)).getLast? = some last →
        ∀ position (hposition : position < rows.length), full * limit ≤ position →
          key last < key rows[position] := by
    intro full last hpositive hfull hlast position
    induction position using Nat.strongRecOn with
    | _ position ih =>
        intro hposition hle
        have hdivide := Nat.div_add_mod position limit
        have hmod := Nat.mod_lt position hlimit
        rw [Nat.mul_comm] at hdivide
        generalize position / limit = pages at hdivide
        have hpages : full ≤ pages := by
          by_contra hless
          have hmul := Nat.mul_le_mul_right limit (Nat.succ_le_of_lt (Nat.lt_of_not_le hless))
          rw [Nat.succ_mul] at hmul
          omega
        have hsome : 0 < pages * limit :=
          Nat.mul_pos (Nat.lt_of_lt_of_le hpositive hpages) hlimit
        obtain ⟨before, hbefore⟩ := exists_getLast? hsome
          (show pages * limit ≤ rows.length by omega)
        have hrow : rows[position] ∈ (rows.drop (pages * limit)).take limit := by
          rw [List.mem_take_iff_getElem]
          refine ⟨position - pages * limit, ?_, ?_⟩
          · rw [List.length_drop]
            omega
          · simp only [List.getElem_drop]
            congr 1
            omega
        have hstep := hnext pages before (by omega) hbefore _ hrow
        by_cases hsame : pages = full
        · subst hsame
          cases hbefore.symm.trans hlast
          exact hstep
        · have hmul := Nat.mul_le_mul_right limit (Nat.succ_le_of_lt (Nat.lt_of_le_of_ne hpages
            (Ne.symm hsame)))
          rw [Nat.succ_mul] at hmul
          have hlast : pages * limit - 1 < rows.length := by omega
          have hsucc : pages * limit - 1 + 1 = pages * limit := by omega
          have hget := getLast?_take hlast
          rw [hsucc, hbefore] at hget
          cases hget
          exact (ih _ (by omega) hlast (by omega)).trans hstep
  intro full hpositive hfull last hlast
  rw [Option.mem_def] at hlast
  constructor
  · -- Otherwise the next page begins with a row that is before it.
    intro row hrow
    by_contra hgreater
    have hkept : row ∈ (rows.take (full * limit)).filter fun other =>
        (some (key last)).all fun last => decide (last < key other) :=
      List.mem_filter.mpr ⟨hrow, by simpa using hgreater⟩
    have hafter : after key rows (some (key last)) =
        ((rows.take (full * limit)).filter fun other =>
          (some (key last)).all fun last => decide (last < key other)) ++
        (rows.drop (full * limit)).filter fun other =>
          (some (key last)).all fun last => decide (last < key other) := by
      rw [← List.filter_append, List.take_append_drop]
      rfl
    have hpage := h.page_eq hfull hlast
    rw [hafter] at hpage
    generalize hfirst : (rows.take (full * limit)).filter _ = before at hkept hpage
    cases before with
    | nil => simp at hkept
    | cons first before =>
        have hbefore : first ∈ rows.take (full * limit) := by
          have hmem : first ∈ first :: before := List.mem_cons_self
          rw [← hfirst] at hmem
          exact (List.mem_filter.mp hmem).1
        have hbehind : first ∈ rows.drop (full * limit) := by
          refine List.mem_of_mem_take (i := limit) ?_
          rw [← hpage, List.cons_append]
          obtain ⟨count, rfl⟩ := Nat.exists_eq_succ_of_ne_zero (Nat.ne_of_gt hlimit)
          exact List.mem_cons_self
        exact List.disjoint_take_drop (List.Nodup.of_map key hkeys) (Nat.le_refl _) hbefore hbehind
  · intro row hrow
    obtain ⟨index, hindex, rfl⟩ := List.mem_iff_getElem.mp hrow
    rw [List.length_drop] at hindex
    rw [List.getElem_drop]
    exact hlater full last hpositive hfull hlast _ _ (Nat.le_add_right _ _)

/-- Rows in the order of their keys split everywhere. -/
theorem splits_of_pairwise (h : rows.Pairwise fun first second => key first < key second)
    (limit : ℕ) : Splits key rows limit := by
  intro full _ _ last hlast
  rw [Option.mem_def, List.getLast?_eq_some_iff] at hlast
  obtain ⟨before, hbefore⟩ := hlast
  rw [← List.take_append_drop (full * limit) rows, List.pairwise_append] at h
  obtain ⟨hfirst, _, hsecond⟩ := h
  constructor
  · intro row hrow
    rw [hbefore] at hrow hfirst
    rcases List.mem_append.mp hrow with hrow | hrow
    · exact le_of_lt ((List.pairwise_append.mp hfirst).2.2 row hrow last List.mem_cons_self)
    · rw [List.mem_singleton.mp hrow]
  · intro row hrow
    exact hsecond last (by simp [hbefore]) row hrow

end Splits

end Soulbase.Foundation.Paging
