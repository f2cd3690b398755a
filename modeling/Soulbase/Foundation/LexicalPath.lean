/-
# Unix paths, resolved lexically

A path is text. It is read as components, and the components are followed from a
directory, which is the list of the names below the root. Following `..` goes up by
one name, and stays where it is at the root, so symbolic links play no role.

The text of a directory determines it, and one directory lies at or below another
iff its text continues the text of the other at a slash, `Directory.isBelow_iff`.
-/

import Soulbase.Foundation.Text

namespace Soulbase.Foundation

/-- `std::path::Component`, as there are on Unix. -/
inductive Component
  | rootDir
  | curDir
  | parentDir
  | normal (name : String)
  deriving DecidableEq

namespace LexicalPath

/-- Whether the path begins at the root. -/
def isAbsolute (path : String) : Bool := path.toList.head? = some '/'

/-- What stands between the slashes. -/
def pieces (path : String) : List String := (path.toList.splitOn '/').map String.ofList

/-- The component of a piece, if it has one. -/
def component? (piece : String) : Option Component :=
  if piece = "" ∨ piece = "." then none
  else if piece = ".." then some .parentDir
  else some (.normal piece)

/-- `Path::components`. A dot counts only where a relative path begins. -/
def components (path : String) : List Component :=
  let first :=
    if isAbsolute path then [Component.rootDir]
    else if (pieces path).head? = some "." then [.curDir]
    else []
  first ++ (pieces path).filterMap component?

/-- The directory that a component leads to. -/
def follow (names : List String) : Component → List String
  | .rootDir => []
  | .curDir => names
  | .parentDir => names.dropLast
  | .normal name => names ++ [name]

/-- The directory, or file, that a path leads to. -/
def resolve (base : List String) (path : String) : List String :=
  (components path).foldl follow base

/-- A path from the root. -/
def text (names : List String) : String := "/" ++ "/".intercalate names

/-- A name that a directory can have. -/
structure IsName (name : String) : Prop where
  nonempty : name ≠ ""
  notHere : name ≠ "."
  notUp : name ≠ ".."
  noSlash : '/' ∉ name.toList

variable {path name : String} {names base : List String}

theorem isName_of_mem_components (h : .normal name ∈ components path) : IsName name := by
  rcases List.mem_append.mp h with hfirst | hrest
  · split at hfirst
    · simp at hfirst
    · split at hfirst <;> simp at hfirst
  · obtain ⟨piece, hpiece, hcomponent⟩ := List.mem_filterMap.mp hrest
    unfold component? at hcomponent
    split at hcomponent
    case isTrue => cases hcomponent
    case isFalse hdots =>
      split at hcomponent
      case isTrue => cases hcomponent
      case isFalse hup =>
        cases hcomponent
        refine ⟨fun hempty => hdots (.inl hempty), fun hhere => hdots (.inr hhere), hup, ?_⟩
        obtain ⟨letters, hletters, rfl⟩ := List.mem_map.mp hpiece
        rw [String.toList_ofList]
        exact not_mem_of_mem_splitOn hletters

theorem follow_isName (hnames : ∀ name ∈ names, IsName name) {component : Component}
    (hcomponent : ∀ name, component = .normal name → IsName name) :
    ∀ name ∈ follow names component, IsName name := by
  intro name hname
  cases component with
  | rootDir => cases hname
  | curDir => exact hnames name hname
  | parentDir => exact hnames name (List.dropLast_subset _ hname)
  | normal added =>
      rcases List.mem_append.mp hname with hold | hnew
      · exact hnames name hold
      · cases List.mem_singleton.mp hnew
        exact hcomponent name rfl

theorem foldl_follow_isName {steps : List Component} (hnames : ∀ name ∈ names, IsName name)
    (hsteps : ∀ name, .normal name ∈ steps → IsName name) :
    ∀ name ∈ steps.foldl follow names, IsName name := by
  induction steps generalizing names with
  | nil => exact hnames
  | cons step rest ih =>
      apply ih
      · apply follow_isName hnames
        intro name hname
        exact hsteps name (by simp [hname])
      · intro name hname
        exact hsteps name (List.mem_cons_of_mem _ hname)

/-- A path leads from names to names. -/
theorem isName_of_mem_resolve (hbase : ∀ name ∈ base, IsName name) :
    ∀ name ∈ resolve base path, IsName name :=
  foldl_follow_isName hbase fun _ hname => isName_of_mem_components hname

/-- What comes behind the beginning of a text is nothing or goes on with a slash.
Behind the root, which is a slash itself, anything may come. -/
def stopsAtSlash (path start : String) : Bool :=
  start = "/" || (path.toList.drop start.toList.length).head?.all (· = '/')

theorem toList_text : (text names).toList = '/' :: ['/'].intercalate (names.map String.toList) := by
  rw [text, String.toList_append, String.toList_intercalate]
  rfl

/-- The pieces of the text of a directory are its names, behind an empty one. -/
theorem splitOn_text (hne : names ≠ []) (hnames : ∀ name ∈ names, IsName name) :
    (text names).toList.splitOn '/' = [] :: names.map String.toList := by
  have hmap : names.map String.toList ≠ [] := by simpa using hne
  have htext : (text names).toList = ['/'].intercalate ([] :: names.map String.toList) := by
    rw [toList_text, List.intercalate_cons_of_ne_nil hmap]
    rfl
  rw [htext]
  apply List.splitOn_intercalate
  · intro part hpart
    rcases List.mem_cons.mp hpart with rfl | hmem
    · simp
    · obtain ⟨name, hname, rfl⟩ := List.mem_map.mp hmem
      exact (hnames name hname).noSlash
  · simp

theorem text_ne_root (hne : names ≠ []) (hnames : ∀ name ∈ names, IsName name) :
    text names ≠ "/" := by
  intro hroot
  have hsplit := splitOn_text hne hnames
  rw [hroot] at hsplit
  obtain ⟨name, rest, rfl⟩ := List.exists_cons_of_ne_nil hne
  have hname : name.toList = [] := by
    have hsecond : [[], []] = [] :: name.toList :: rest.map String.toList := hsplit
    simp only [List.cons.injEq] at hsecond
    exact hsecond.2.1.symm
  exact (hnames name List.mem_cons_self).nonempty (by simpa using hname)

/-- What stands behind the beginning of a text. -/
theorem startsWith_and_stopsAtSlash_iff {start : String} (hstart : start ≠ "/") :
    (Text.startsWith path start = true ∧ stopsAtSlash path start = true) ↔
      start.toList = path.toList ∨ start.toList ++ ['/'] <+: path.toList := by
  rw [Text.startsWith_iff]
  constructor
  · rintro ⟨⟨rest, hrest⟩, hstops⟩
    rw [stopsAtSlash, ← hrest, List.drop_left] at hstops
    cases rest with
    | nil =>
        rw [List.append_nil] at hrest
        exact .inl hrest
    | cons letter rest =>
        have hletter : letter = '/' := by simpa [hstart] using hstops
        subst hletter
        refine .inr ⟨rest, ?_⟩
        rw [List.append_assoc]
        exact hrest
  · rintro (hequal | ⟨rest, hrest⟩)
    · rw [stopsAtSlash, ← hequal]
      simp
    · rw [List.append_assoc] at hrest
      rw [stopsAtSlash, ← hrest, List.drop_left]
      simp

/-- Names lie at or below others iff their text continues the text of the others at a
slash. -/
theorem prefix_iff_text {above below : List String} (habove : ∀ name ∈ above, IsName name)
    (hbelow : ∀ name ∈ below, IsName name) :
    above <+: below ↔
      Text.startsWith (text below) (text above) = true ∧
        stopsAtSlash (text below) (text above) = true := by
  by_cases hnone : above = []
  · subst hnone
    have hroot : text [] = "/" := rfl
    rw [hroot, Text.startsWith_iff, toList_text]
    simp [stopsAtSlash]
  rw [startsWith_and_stopsAtSlash_iff (text_ne_root hnone habove), ← splitOn_prefix_iff,
    splitOn_text hnone habove]
  by_cases hroot : below = []
  · subst hroot
    obtain ⟨name, rest, rfl⟩ := List.exists_cons_of_ne_nil hnone
    have hname := (habove name List.mem_cons_self).nonempty
    have hsplit : (text []).toList.splitOn '/' = [[], []] := by decide
    rw [hsplit]
    simp [hname]
  · rw [splitOn_text hroot hbelow, List.cons_prefix_cons]
    simp only [true_and]
    exact (List.prefix_map_iff_of_injective fun _ _ => String.toList_injective).symm

end LexicalPath

/-- A place in the file system: the names that lead to it from the root. -/
structure Directory where
  names : List String
  areNames : ∀ name ∈ names, LexicalPath.IsName name

namespace Directory

/-- The root. -/
def root : Directory := ⟨[], by simp⟩

/-- Where a path leads, when it is relative from a directory. -/
def resolve (base : Directory) (path : String) : Directory where
  names := LexicalPath.resolve base.names path
  areNames := LexicalPath.isName_of_mem_resolve base.areNames

/-- The path from the root. -/
def text (directory : Directory) : String := LexicalPath.text directory.names

/-- Name by name, the one directory is the other or lies below it. -/
def IsBelow (below above : Directory) : Prop := above.names <+: below.names

instance (below above : Directory) : Decidable (below.IsBelow above) :=
  inferInstanceAs (Decidable (above.names <+: below.names))

theorem isBelow_iff {below above : Directory} :
    below.IsBelow above ↔
      Text.startsWith below.text above.text = true ∧
        LexicalPath.stopsAtSlash below.text above.text = true :=
  LexicalPath.prefix_iff_text above.areNames below.areNames

end Directory

end Soulbase.Foundation
