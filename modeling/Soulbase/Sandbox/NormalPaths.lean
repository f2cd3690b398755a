/-
# Normal paths

`normalize_path` keeps the root as an empty segment, which `..` can pop, and joins the segments
with a final test for the slash in front. `normalizePath_lexical` says that it is lexical
resolution from the root nevertheless: what it returns is the path of the names that are left when
`..` takes away the name before it, and resolving that again changes nothing.
-/

import Soulbase.Sandbox.Guard

namespace Soulbase.Sandbox

open Soulbase.Foundation
open LexicalPath (IsName pieces component? components isAbsolute)

/-- The names after one more piece of a path. An empty piece and a dot lead nowhere, and two dots
lead up, but not above the root. -/
def stepLexically (names : List String) (piece : String) : List String :=
  if piece = "" ∨ piece = "." then names
  else if piece = ".." then names.dropLast
  else names ++ [piece]

/-- The names to which a path leads from the root. -/
def resolveLexically (path : String) : List String := (pieces path).foldl stepLexically []

/-- A path from the root without idle pieces, dots and a slash at its end. -/
structure IsNormal (path : String) : Prop where
  rooted : Text.startsWith path "/" = true
  named : path ≠ "/" → ∀ piece ∈ (pieces path).tail,
    piece ≠ "" ∧ piece ≠ "." ∧ piece ≠ ".."
  noSlash : path ≠ "/" → Text.endsWith path "/" = false

section Pieces

variable {path : String} {names : List String}

theorem foldl_follow_filterMap (steps : List String) (names : List String) :
    (steps.filterMap component?).foldl LexicalPath.follow names =
      steps.foldl stepLexically names := by
  induction steps generalizing names with
  | nil => rfl
  | cons piece rest ih =>
      rw [List.foldl_cons, ← ih, stepLexically]
      by_cases hidle : piece = "" ∨ piece = "."
      · have hcomponent : component? piece = none := if_pos hidle
        rw [List.filterMap_cons_none hcomponent, if_pos hidle]
      · rw [if_neg hidle]
        by_cases hup : piece = ".."
        · have hcomponent : component? piece = some .parentDir := by
            rw [component?, if_neg hidle, if_pos hup]
          rw [List.filterMap_cons_some hcomponent, if_pos hup]
          rfl
        · have hcomponent : component? piece = some (.normal piece) := by
            rw [component?, if_neg hidle, if_neg hup]
          rw [List.filterMap_cons_some hcomponent, if_neg hup]
          rfl

/-- The components of a path lead where its pieces do. -/
theorem resolve_root_names : (Directory.root.resolve path).names = resolveLexically path := by
  change (components path).foldl LexicalPath.follow [] = _
  rw [components, List.foldl_append, foldl_follow_filterMap]
  split
  · rfl
  · split <;> rfl

/-- The pieces of a directory's text. -/
theorem pieces_text (hne : names ≠ []) (hnames : ∀ name ∈ names, IsName name) :
    pieces (LexicalPath.text names) = "" :: names := by
  rw [pieces, LexicalPath.splitOn_text hne hnames]
  simp [Function.comp_def]

/-- Names lead to themselves. -/
theorem foldl_stepLexically (hnames : ∀ name ∈ names, IsName name) (front : List String) :
    names.foldl stepLexically front = front ++ names := by
  induction names generalizing front with
  | nil => simp
  | cons name rest ih =>
      obtain ⟨hname, hrest⟩ := List.forall_mem_cons.mp hnames
      rw [List.foldl_cons, stepLexically, if_neg (by simp [hname.nonempty, hname.notHere]),
        if_neg hname.notUp, ih hrest, List.append_assoc]
      rfl

theorem resolveLexically_text (hnames : ∀ name ∈ names, IsName name) :
    resolveLexically (LexicalPath.text names) = names := by
  by_cases hne : names = []
  · subst hne
    decide
  · rw [resolveLexically, pieces_text hne hnames, List.foldl_cons]
    exact foldl_stepLexically hnames []

end Pieces

section Normal

variable {path : String} {names : List String}

theorem isName_resolveLexically (path : String) : ∀ name ∈ resolveLexically path, IsName name := by
  rw [← resolve_root_names]
  exact (Directory.root.resolve path).areNames

theorem normalizePath_eq (path : String) :
    normalizePath path = LexicalPath.text (resolveLexically path) := by
  rw [normalizePath_eq_text, Directory.text, resolve_root_names]

/-- The text of a directory does not end with a slash, unless it is the root. -/
theorem endsWith_text (hne : names ≠ []) (hnames : ∀ name ∈ names, IsName name) :
    Text.endsWith (LexicalPath.text names) "/" = false := by
  rw [Bool.eq_false_iff]
  intro hends
  have hsuffix : ([] : List Char).splitOn '/' <:+ (LexicalPath.text names).toList.splitOn '/' :=
    splitOn_suffix_iff.mpr (.inr (Text.endsWith_iff.mp hends))
  rw [LexicalPath.splitOn_text hne hnames, List.splitOn_nil] at hsuffix
  obtain ⟨front, hfront⟩ := hsuffix
  rcases List.eq_nil_or_concat names with rfl | ⟨others, last, rfl⟩
  · exact hne rfl
  · rw [List.concat_eq_append, List.map_append, ← List.cons_append] at hfront
    obtain ⟨-, hlast⟩ := List.append_inj' hfront rfl
    have hempty : last.toList = [] := (List.singleton_inj.mp hlast).symm
    exact (hnames last (by simp)).nonempty (String.toList_eq_nil_iff.mp hempty)

theorem isNormal_text (hnames : ∀ name ∈ names, IsName name) :
    IsNormal (LexicalPath.text names) where
  rooted := by
    rw [Text.startsWith_iff, LexicalPath.toList_text]
    exact List.prefix_append ['/'] _
  named hroot := by
    have hne : names ≠ [] := by
      rintro rfl
      exact hroot rfl
    rw [pieces_text hne hnames]
    exact fun name hname =>
      ⟨(hnames name hname).nonempty, (hnames name hname).notHere, (hnames name hname).notUp⟩
  noSlash hroot := by
    have hne : names ≠ [] := by
      rintro rfl
      exact hroot rfl
    exact endsWith_text hne hnames

/-- A normal path is the text of its names. -/
theorem IsNormal.eq_text (h : IsNormal path) :
    ∃ names, (∀ name ∈ names, IsName name) ∧ path = LexicalPath.text names := by
  by_cases hroot : path = "/"
  · exact ⟨[], fun _ hname => absurd hname List.not_mem_nil, hroot⟩
  · obtain ⟨rest, hrest⟩ := Text.startsWith_iff.mp h.rooted
    have hpath : path.toList = '/' :: rest := hrest.symm
    have hsplit : path.toList.splitOn '/' = [] :: rest.splitOn '/' := by
      rw [hpath, List.splitOn_cons_eq_if_modifyHead]
      simp
    have hpieces : (pieces path).tail = (rest.splitOn '/').map String.ofList := by
      rw [pieces, hsplit]
      rfl
    refine ⟨(pieces path).tail, fun name hname => ?_, ?_⟩
    · obtain ⟨hempty, hhere, hup⟩ := h.named hroot name hname
      refine ⟨hempty, hhere, hup, ?_⟩
      rw [hpieces] at hname
      obtain ⟨letters, hletters, rfl⟩ := List.mem_map.mp hname
      rw [String.toList_ofList]
      exact not_mem_of_mem_splitOn hletters
    · rw [← String.toList_inj, LexicalPath.toList_text, hpieces, hpath, List.map_map]
      simp [Function.comp_def, List.intercalate_splitOn]

/-- The paths that `normalize_path` leaves as they are. -/
theorem normalizePath_eq_self_iff : normalizePath path = path ↔ IsNormal path := by
  constructor
  · intro h
    rw [← h, normalizePath_eq]
    exact isNormal_text (isName_resolveLexically path)
  · intro h
    obtain ⟨names, hnames, rfl⟩ := h.eq_text
    rw [normalizePath_eq, resolveLexically_text hnames]

/-- `normalize_path` resolves a path lexically from the root. -/
theorem normalizePath_lexical (path : String) :
    normalizePath path = LexicalPath.text (resolveLexically path) ∧
      IsNormal (normalizePath path) ∧
      normalizePath (normalizePath path) = normalizePath path := by
  have hnormal : IsNormal (normalizePath path) := by
    rw [normalizePath_eq]
    exact isNormal_text (isName_resolveLexically path)
  exact ⟨normalizePath_eq path, hnormal, normalizePath_eq_self_iff.mpr hnormal⟩

end Normal

end Soulbase.Sandbox
