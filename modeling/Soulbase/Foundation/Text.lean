/-
# Text and its parts

The tests that string types offer, as computable functions on characters, and
text that is read as parts between separators. A test on the characters of two texts
and a comparison of their parts differ exactly at the separator: the parts of a text
are the first parts of another one iff the two are equal or the separator follows,
`splitOn_prefix_iff`, and likewise for the last parts.
-/

import Mathlib.Data.List.Infix
import Mathlib.Data.List.TakeWhile
import Mathlib.Logic.Function.Iterate

namespace Soulbase.Foundation

namespace Text

/-- Whether the text begins with another one. -/
def startsWith (text start : String) : Bool := start.toList.isPrefixOf text.toList

/-- Whether the text ends with another one. -/
def endsWith (text tail : String) : Bool := tail.toList.isSuffixOf text.toList

/-- Whether the text has another one as a part. -/
def contains (text part : String) : Bool := text.toList.tails.any part.toList.isPrefixOf

/-- Equality up to the case of ASCII letters. -/
def eqIgnoreAsciiCase (first second : String) : Bool :=
  first.toList.map Char.toLower = second.toList.map Char.toLower

/-- Upper case, for what each character becomes. -/
def toUppercase (upper : Char → List Char) (text : String) : String :=
  .ofList (text.toList.flatMap upper)

/-- The text after another one with which it begins. -/
def stripPrefix (text start : String) : Option String :=
  if startsWith text start then some (.ofList (text.toList.drop start.toList.length)) else none

/-- White space, as Unicode has it. -/
def isWhitespace (c : Char) : Bool :=
  (0x9 ≤ c.toNat && c.toNat ≤ 0xD) || c.toNat = 0x20 || c.toNat = 0x85 || c.toNat = 0xA0 ||
    c.toNat = 0x1680 || (0x2000 ≤ c.toNat && c.toNat ≤ 0x200A) || c.toNat = 0x2028 ||
    c.toNat = 0x2029 || c.toNat = 0x202F || c.toNat = 0x205F || c.toNat = 0x3000

/-- The text without the characters of a kind at its beginning. -/
def trimStartMatches (kind : Char → Bool) (text : String) : String :=
  .ofList (text.toList.dropWhile kind)

/-- The text without white space around it. -/
def trim (text : String) : String :=
  .ofList (((text.toList.dropWhile isWhitespace).reverse.dropWhile isWhitespace).reverse)

/-- The text without the characters of a kind around it. -/
def trimMatches (kind : Char → Bool) (text : String) : String :=
  .ofList (((text.toList.dropWhile kind).reverse.dropWhile kind).reverse)

/-- The text without another one at its beginning, removed as often as it is there. -/
def trimStartText (start text : String) : String :=
  (fun rest => (stripPrefix rest start).getD rest)^[text.length] text

/-- The characters between separators, after the given number of characters. -/
def splitFrom (separator : List Char) : ℕ → List Char → List (List Char)
  | _, [] => [[]]
  | skipped + 1, _ :: rest => splitFrom separator skipped rest
  | 0, c :: rest =>
      if separator.isPrefixOf (c :: rest) then
        [] :: splitFrom separator (separator.length - 1) rest
      else (splitFrom separator 0 rest).modifyHead (c :: ·)

/-- The texts between separators. An empty separator is around every character. -/
def split (separator text : String) : List String :=
  if separator = "" then "" :: text.toList.map String.singleton ++ [""]
  else (splitFrom separator.toList 0 text.toList).map String.ofList

/-- The texts before and after the first of a character. -/
def splitOnce (separator : Char) (text : String) : Option (String × String) :=
  match text.toList.dropWhile (· ≠ separator) with
  | [] => none
  | _ :: rest => some (.ofList (text.toList.takeWhile (· ≠ separator)), .ofList rest)

/-- The characters before the first of a separator. -/
def beforeFrom (separator : List Char) : List Char → List Char
  | [] => []
  | c :: rest =>
      if separator.isPrefixOf (c :: rest) then [] else c :: beforeFrom separator rest

/-- The text before the first of a separator. -/
def before (separator text : String) : String :=
  .ofList (beforeFrom separator.toList text.toList)

variable {text start tail middle : String}

theorem splitOnce_eq_none {separator : Char} (h : separator ∉ text.toList) :
    splitOnce separator text = none := by
  have hdrop : text.toList.dropWhile (· ≠ separator) = [] := by
    rw [List.dropWhile_eq_nil_iff]
    intro c hc
    simpa using fun heq : c = separator => h (heq ▸ hc)
  rw [splitOnce, hdrop]

/-- A text is split at its first separator. -/
theorem splitOnce_eq_some {separator : Char} (h : separator ∉ start.toList)
    (htext : text.toList = start.toList ++ separator :: tail.toList) :
    splitOnce separator text = some (start, tail) := by
  have hstart : ∀ c ∈ start.toList, decide (c ≠ separator) = true := fun c hc => by
    simpa using fun heq : c = separator => h (heq ▸ hc)
  have hdrop : text.toList.dropWhile (· ≠ separator) = separator :: tail.toList := by
    rw [htext, List.dropWhile_append_of_pos hstart, List.dropWhile_cons_of_neg (by simp)]
  have htake : text.toList.takeWhile (· ≠ separator) = start.toList := by
    rw [htext, List.takeWhile_append_of_pos hstart, List.takeWhile_cons_of_neg (by simp),
      List.append_nil]
  rw [splitOnce, hdrop]
  dsimp only
  rw [htake, String.ofList_toList, String.ofList_toList]

theorem startsWith_iff : startsWith text start = true ↔ start.toList <+: text.toList :=
  List.isPrefixOf_iff_prefix

theorem endsWith_iff : endsWith text tail = true ↔ tail.toList <:+ text.toList :=
  List.isSuffixOf_iff_suffix

theorem contains_iff {part : String} :
    contains text part = true ↔ ∃ first second, text = first ++ part ++ second := by
  rw [contains, List.any_eq_true]
  constructor
  · rintro ⟨suffix, hsuffix, hprefix⟩
    obtain ⟨first, hfirst⟩ := (List.mem_tails _ _).mp hsuffix
    obtain ⟨second, hsecond⟩ := List.isPrefixOf_iff_prefix.mp hprefix
    refine ⟨.ofList first, .ofList second, ?_⟩
    rw [← String.toList_inj, ← hfirst, ← hsecond]
    simp
  · rintro ⟨first, second, rfl⟩
    refine ⟨(part ++ second).toList, ?_, ?_⟩
    · simp only [String.toList_append, List.append_assoc, List.mem_tails]
      exact List.suffix_append _ _
    · rw [List.isPrefixOf_iff_prefix, String.toList_append]
      exact List.prefix_append _ _

theorem startsWith_trans (h : startsWith text middle = true)
    (h' : startsWith middle start = true) : startsWith text start = true :=
  startsWith_iff.mpr ((startsWith_iff.mp h').trans (startsWith_iff.mp h))

theorem beforeFrom_spec {separator first second : List Char} (hne : separator ≠ []) :
    ∃ rest, first ++ separator ++ second =
      beforeFrom separator (first ++ separator ++ second) ++ separator ++ rest := by
  have hcut : ∀ {c : Char} {chars : List Char}, separator.isPrefixOf (c :: chars) = true →
      ∃ rest, c :: chars = beforeFrom separator (c :: chars) ++ separator ++ rest := by
    intro c chars hprefix
    obtain ⟨rest, hrest⟩ := List.isPrefixOf_iff_prefix.mp hprefix
    refine ⟨rest, ?_⟩
    rw [beforeFrom, if_pos hprefix]
    exact hrest.symm
  induction first with
  | nil =>
      obtain ⟨c, chars, rfl⟩ := List.exists_cons_of_ne_nil hne
      have hprefix : (c :: chars) <+: c :: (chars ++ second) := List.prefix_append _ _
      exact hcut (List.isPrefixOf_iff_prefix.mpr hprefix)
  | cons c first ih =>
      by_cases hprefix : separator.isPrefixOf (c :: (first ++ separator ++ second)) = true
      · exact hcut hprefix
      · obtain ⟨rest, hrest⟩ := ih
        refine ⟨rest, ?_⟩
        change c :: (first ++ separator ++ second) =
          beforeFrom separator (c :: (first ++ separator ++ second)) ++ separator ++ rest
        rw [beforeFrom, if_neg hprefix, List.cons_append, List.cons_append, ← hrest]

/-- What comes before the first separator of a text in which there is one. -/
theorem before_spec {separator : String} (hne : separator ≠ "") (first second : String) :
    ∃ rest, first ++ separator ++ second =
      before separator (first ++ separator ++ second) ++ separator ++ rest := by
  have hlist : separator.toList ≠ [] := fun h => hne (String.toList_eq_nil_iff.mp h)
  obtain ⟨rest, hrest⟩ := @beforeFrom_spec _ first.toList second.toList hlist
  refine ⟨.ofList rest, ?_⟩
  rw [← String.toList_inj]
  simpa only [before, String.toList_append, String.toList_ofList] using hrest

/-- Something is left if there is something to be seen. -/
theorem trim_ne_empty {c : Char} (hc : c ∈ text.toList) (hvisible : isWhitespace c = false) :
    trim text ≠ "" := by
  intro hempty
  have hlist := congrArg String.toList hempty
  rw [trim, String.toList_ofList, String.toList_empty, List.reverse_eq_nil_iff,
    List.dropWhile_eq_nil_iff] at hlist
  have hkept : text.toList.dropWhile isWhitespace = [] := by
    cases hrest : text.toList.dropWhile isWhitespace with
    | nil => rfl
    | cons head rest =>
        have hne : text.toList.dropWhile isWhitespace ≠ [] := by simp [hrest]
        have hhead := List.head_dropWhile_not isWhitespace hne
        simp only [hrest, List.head_cons] at hhead
        exact absurd (hlist head (by simp [hrest])) (by simp [hhead])
  exact Bool.false_ne_true (hvisible.symm.trans (List.dropWhile_eq_nil_iff.mp hkept c hc))

end Text

section Parts

variable {α : Type*} {separator : α} {xs ys : List α}

theorem intercalate_append {first second : List (List α)} (hfirst : first ≠ [])
    (hsecond : second ≠ []) :
    [separator].intercalate (first ++ second) =
      [separator].intercalate first ++ separator :: [separator].intercalate second := by
  induction first with
  | nil => exact absurd rfl hfirst
  | cons head rest ih =>
      cases rest with
      | nil =>
          rw [List.intercalate_singleton, List.singleton_append,
            List.intercalate_cons_of_ne_nil hsecond, List.append_assoc]
          rfl
      | cons next rest =>
          rw [List.cons_append, List.intercalate_cons_of_ne_nil (by simp), ih (by simp),
            List.intercalate_cons_cons]
          simp only [List.append_assoc]

variable [BEq α] [LawfulBEq α]

/-- No part contains the separator. -/
theorem not_mem_of_mem_splitOn {part : List α} (h : part ∈ xs.splitOn separator) :
    separator ∉ part := by
  induction xs generalizing part with
  | nil =>
      rw [List.splitOn_nil, List.mem_singleton] at h
      simp [h]
  | cons head rest ih =>
      rw [List.splitOn_cons_eq_if_modifyHead] at h
      split at h
      case isTrue =>
        rcases List.mem_cons.mp h with rfl | hpart
        · simp
        · exact ih hpart
      case isFalse hhead =>
        cases hparts : rest.splitOn separator with
        | nil => exact absurd hparts (List.splitOn_ne_nil _ _)
        | cons first parts =>
            rw [hparts, List.modifyHead_cons] at h
            have hfirst : first ∈ rest.splitOn separator := by simp [hparts]
            rcases List.mem_cons.mp h with rfl | hpart
            · have hne : separator ≠ head := fun heq => hhead (by simp [heq])
              simp [hne, ih hfirst]
            · exact ih (by simp [hparts, hpart])

/-- The parts of a text come first in another one iff the texts are equal or the
separator follows. -/
theorem splitOn_prefix_iff :
    xs.splitOn separator <+: ys.splitOn separator ↔ xs = ys ∨ xs ++ [separator] <+: ys := by
  constructor
  · rintro ⟨rest, hrest⟩
    have hys : [separator].intercalate (ys.splitOn separator) = ys :=
      List.intercalate_splitOn separator
    rw [← hrest] at hys
    cases rest with
    | nil =>
        rw [List.append_nil, List.intercalate_splitOn] at hys
        exact .inl hys
    | cons head tail =>
        rw [intercalate_append (List.splitOn_ne_nil _ _) (by simp),
          List.intercalate_splitOn] at hys
        refine .inr ⟨[separator].intercalate (head :: tail), ?_⟩
        rw [List.append_assoc]
        exact hys
  · rintro (rfl | ⟨rest, rfl⟩)
    · exact List.prefix_rfl
    · rw [List.append_assoc, List.singleton_append, List.splitOn_append_cons_self]
      exact List.prefix_append _ _

/-- The parts of a text come last in another one iff the texts are equal or the
separator stands before. -/
theorem splitOn_suffix_iff :
    xs.splitOn separator <:+ ys.splitOn separator ↔ xs = ys ∨ separator :: xs <:+ ys := by
  constructor
  · rintro ⟨rest, hrest⟩
    have hys : [separator].intercalate (ys.splitOn separator) = ys :=
      List.intercalate_splitOn separator
    rw [← hrest] at hys
    cases rest with
    | nil =>
        rw [List.nil_append, List.intercalate_splitOn] at hys
        exact .inl hys
    | cons head tail =>
        rw [intercalate_append (by simp) (List.splitOn_ne_nil _ _),
          List.intercalate_splitOn] at hys
        exact .inr ⟨[separator].intercalate (head :: tail), hys⟩
  · rintro (rfl | ⟨rest, rfl⟩)
    · exact List.suffix_rfl
    · rw [List.splitOn_append_cons_self]
      exact List.suffix_append _ _

end Parts

/-- Two parts joined by a separator are not told apart by it: they may also be cut at
another separator. -/
theorem append_cons_eq_append_cons_iff {α : Type*} {separator : α} {xs ys xs' ys' : List α} :
    xs ++ separator :: ys = xs' ++ separator :: ys' ↔
      (xs = xs' ∧ ys = ys') ∨
        (∃ middle, xs' = xs ++ separator :: middle ∧ ys = middle ++ separator :: ys') ∨
          ∃ middle, xs = xs' ++ separator :: middle ∧ ys' = middle ++ separator :: ys := by
  rw [List.append_eq_append_iff]
  constructor
  · rintro (⟨between, rfl, hrest⟩ | ⟨between, rfl, hrest⟩)
    · cases between with
      | nil => exact .inl ⟨(List.append_nil _).symm, (List.cons.inj hrest).2⟩
      | cons head middle =>
          obtain ⟨rfl, hys⟩ := List.cons.inj hrest
          exact .inr (.inl ⟨middle, rfl, hys⟩)
    · cases between with
      | nil => exact .inl ⟨List.append_nil _, (List.cons.inj hrest).2.symm⟩
      | cons head middle =>
          obtain ⟨rfl, hys⟩ := List.cons.inj hrest
          exact .inr (.inr ⟨middle, rfl, hys⟩)
  · rintro (⟨rfl, rfl⟩ | ⟨middle, rfl, rfl⟩ | ⟨middle, rfl, rfl⟩)
    · exact .inl ⟨[], (List.append_nil _).symm, rfl⟩
    · exact .inl ⟨separator :: middle, rfl, rfl⟩
    · exact .inr ⟨separator :: middle, rfl, rfl⟩

/-- The same for texts. -/
theorem join_eq_join_iff {separator : Char} {text rest text' rest' : String} :
    text ++ .singleton separator ++ rest = text' ++ .singleton separator ++ rest' ↔
      (text = text' ∧ rest = rest') ∨
        (∃ middle, text' = text ++ .singleton separator ++ middle ∧
          rest = middle ++ .singleton separator ++ rest') ∨
          ∃ middle, text = text' ++ .singleton separator ++ middle ∧
            rest' = middle ++ .singleton separator ++ rest := by
  have hmiddle : ∀ p : List Char → Prop, (∃ middle, p middle) ↔
      ∃ middle : String, p middle.toList := by
    intro p
    exact ⟨fun ⟨middle, h⟩ => ⟨.ofList middle, by rwa [String.toList_ofList]⟩,
      fun ⟨middle, h⟩ => ⟨middle.toList, h⟩⟩
  simp only [← String.toList_inj, String.toList_append, String.toList_singleton,
    List.append_assoc, List.singleton_append, append_cons_eq_append_cons_iff, hmiddle]

end Soulbase.Foundation
