/-
# Places in nested values

A value may hold others under tokens, as an object does under names and an array under indices.
A place in it is then a list of tokens. `Nesting` is what is needed of reading and writing what
a value holds under one token, and the edits at a place go by recursion on the place.

`EditsAt` is the contract of an edit at one place: two values that differ only in what an edit
overwrites become one, an edit within or beside a difference keeps it to its place, and nothing
changes that is apart from the place of the edit. `Rewrites` is the contract of edits that are
made one after the other. A difference at any of their places is gone in the end, and so a
second pass of overwriting changes nothing, `overwriteAll_overwriteAll`.
-/

import Mathlib.Data.List.Infix
import Mathlib.Data.Option.Basic
import Mathlib.Logic.Basic

namespace Soulbase.Foundation

universe u v

/-- Values that hold values under tokens. -/
structure Nesting (Node : Type u) (Token : Type v) where
  /-- What a value holds under a token. -/
  get : Node → Token → Option Node
  /-- The value, with another one under a token. -/
  set : Node → Token → Node → Node
  get_set {node : Node} {token : Token} {held : Node} (other : Node) :
    get node token = some held → get (set node token other) token = some other
  get_set_of_ne {node : Node} {token other : Token} (held : Node) :
    other ≠ token → get (set node token held) other = get node other
  set_set (node : Node) (token : Token) (first second : Node) :
    set (set node token first) token second = set node token second
  set_comm {node : Node} {token other : Token} (first second : Node) :
    other ≠ token →
      set (set node token first) other second = set (set node other second) token first

/-- Neither place is at or below the other. -/
def Elsewhere {Token : Type v} (first second : List Token) : Prop :=
  ¬first <+: second ∧ ¬second <+: first

theorem elsewhere_cons_iff {Token : Type v} {first second : Token} {left right : List Token} :
    Elsewhere (first :: left) (second :: right) ↔ (first = second → Elsewhere left right) := by
  rw [Elsewhere, Elsewhere, List.cons_prefix_cons, List.cons_prefix_cons]
  constructor
  · rintro ⟨hleft, hright⟩ rfl
    exact ⟨fun h => hleft ⟨rfl, h⟩, fun h => hright ⟨rfl, h⟩⟩
  · intro h
    exact ⟨fun hle => (h hle.1).1 hle.2, fun hle => (h hle.1.symm).2 hle.2⟩

theorem not_elsewhere_nil {Token : Type v} {place : List Token} : ¬Elsewhere place [] :=
  fun h => h.2 List.nil_prefix

namespace Nesting

variable {Node : Type u} {Token : Type v} (nest : Nesting Node Token)

/-- What is at a place. -/
def find : List Token → Node → Option Node
  | [], node => some node
  | token :: place, node => (nest.get node token).bind (find place)

/-- The edit of what is at a place. It fails where there is nothing. -/
def edit (act : Node → Option Node) : List Token → Node → Option Node
  | [], node => act node
  | token :: place, node =>
      (nest.get node token).bind fun held => (edit act place held).map (nest.set node token)

/-- Another value at a place. -/
def replace (value : Node) : List Token → Node → Option Node := nest.edit fun _ => some value

/-- The second value has something else at the place, and is the first apart from that. -/
def DiffersAt (place : List Token) (first second : Node) : Prop :=
  ∃ value, nest.replace value place first = some second

variable {nest}
variable {act run : Node → Option Node} {place other : List Token} {token : Token}
variable {node first second third held : Node}

theorem edit_append (path : List Token) :
    nest.edit act (path ++ place) = nest.edit (nest.edit act place) path := by
  induction path with
  | nil => rfl
  | cons token path ih =>
      funext node
      rw [List.cons_append, edit, edit, ih]

theorem differsAt_nil : nest.DiffersAt [] first second := ⟨second, rfl⟩

theorem differsAt_cons_iff :
    nest.DiffersAt (token :: place) first second ↔
      ∃ held other, nest.get first token = some held ∧ nest.DiffersAt place held other ∧
        second = nest.set first token other := by
  simp only [DiffersAt, replace, edit, Option.bind_eq_some_iff, Option.map_eq_some_iff]
  constructor
  · rintro ⟨value, held, hheld, other, hother, rfl⟩
    exact ⟨held, other, hheld, ⟨value, hother⟩, rfl⟩
  · rintro ⟨held, other, hheld, ⟨value, hother⟩, rfl⟩
    exact ⟨value, held, hheld, other, hother, rfl⟩

/-- The second value also has something at the place. -/
theorem DiffersAt.replace_eq (h : nest.DiffersAt place first second) (value : Node) :
    nest.replace value place second = nest.replace value place first := by
  induction place generalizing first second with
  | nil => rfl
  | cons token place ih =>
      obtain ⟨held, other, hheld, hother, rfl⟩ := differsAt_cons_iff.mp h
      have hrest : nest.edit (fun _ => some value) place other =
          nest.edit (fun _ => some value) place held := ih hother
      simp only [replace, edit, nest.get_set other hheld, hheld, Option.bind_some, hrest]
      congr 1
      funext next
      exact nest.set_set first token other next

theorem DiffersAt.trans (hfirst : nest.DiffersAt place first second)
    (hsecond : nest.DiffersAt place second third) : nest.DiffersAt place first third := by
  obtain ⟨value, hvalue⟩ := hsecond
  exact ⟨value, by rw [← hfirst.replace_eq, hvalue]⟩

/-- Two values that differ from one at a place differ from each other there. -/
theorem DiffersAt.between (hsecond : nest.DiffersAt place first second)
    (hthird : nest.DiffersAt place first third) : nest.DiffersAt place second third := by
  obtain ⟨value, hvalue⟩ := hthird
  exact ⟨value, by rw [hsecond.replace_eq, hvalue]⟩

/-- The contract of an edit at a place, for the values with some property. -/
structure EditsAt (nest : Nesting Node Token) (valid : Node → Prop) (place : List Token)
    (run : Node → Option Node) : Prop where
  /-- What the edit overwrites makes no difference. -/
  absorb {other : List Token} {first second : Node} :
    place <+: other → nest.DiffersAt other first second → run first = run second
  /-- An edit below a place changes what is there. -/
  inside {other : List Token} {first second : Node} :
    other <+: place → other ≠ place → run first = some second →
      nest.DiffersAt other first second
  /-- An edit beside a difference is the same on both sides of it. -/
  beside {other : List Token} {first second : Node} :
    valid first → Elsewhere other place → nest.DiffersAt other first second →
      Option.Rel (nest.DiffersAt other) (run first) (run second)
  /-- What is apart from the place stays as it is. -/
  frame {other : List Token} {first second : Node} :
    Elsewhere other place → run first = some second → nest.find other second = nest.find other first
  /-- The property is kept. -/
  keeps {first second : Node} : valid first → run first = some second → valid second

/-- A property that a value has together with all that it holds. -/
structure Hereditary (nest : Nesting Node Token) (valid : Node → Prop) : Prop where
  get {node held : Node} {token : Token} :
    valid node → nest.get node token = some held → valid held
  set {node held : Node} (token : Token) :
    valid node → valid held → valid (nest.set node token held)

variable {valid : Node → Prop}

theorem editsAt_nil (nest : Nesting Node Token) {value : Node} (hvalue : valid value) :
    nest.EditsAt valid [] fun _ => some value where
  absorb _ _ := rfl
  inside hle hne := absurd (List.prefix_nil.mp hle) hne
  beside _ hapart := absurd hapart not_elsewhere_nil
  frame hapart := absurd hapart not_elsewhere_nil
  keeps _ h := by
    obtain rfl := Option.some.inj h
    exact hvalue

/-- An edit of what is held under a token is an edit at a place that begins with the token. -/
theorem EditsAt.under (hedits : nest.EditsAt valid place run) (hvalid : nest.Hereditary valid)
    (token : Token) : nest.EditsAt valid (token :: place) (nest.edit run [token]) where
  absorb := by
    intro other first second hle hdiff
    cases other with
    | nil => cases List.prefix_nil.mp hle
    | cons next other =>
        obtain ⟨rfl, hbelow⟩ := List.cons_prefix_cons.mp hle
        obtain ⟨held, changed, hheld, hchanged, rfl⟩ := differsAt_cons_iff.mp hdiff
        simp only [edit, hheld, nest.get_set changed hheld, Option.bind_some,
          hedits.absorb hbelow hchanged]
        congr 1
        funext next
        exact (nest.set_set first token changed next).symm
  inside := by
    intro other first second hle hne hrun
    cases other with
    | nil => exact differsAt_nil
    | cons next other =>
        obtain ⟨rfl, habove⟩ := List.cons_prefix_cons.mp hle
        obtain ⟨held, hheld, hmap⟩ := Option.bind_eq_some_iff.mp hrun
        obtain ⟨edited, hedited, rfl⟩ := Option.map_eq_some_iff.mp hmap
        have hother : other ≠ place := fun h => hne (congrArg _ h)
        exact differsAt_cons_iff.mpr
          ⟨held, edited, hheld, hedits.inside habove hother hedited, rfl⟩
  beside := by
    intro other first second hfirst hapart hdiff
    cases other with
    | nil => exact absurd List.nil_prefix hapart.1
    | cons next other =>
        obtain ⟨held, changed, hheld, hchanged, rfl⟩ := differsAt_cons_iff.mp hdiff
        by_cases hnext : next = token
        · -- Both go down the same way.
          subst hnext
          have hrel := hedits.beside (hvalid.get hfirst hheld) (elsewhere_cons_iff.mp hapart rfl)
            hchanged
          simp only [edit, hheld, nest.get_set changed hheld, Option.bind_some]
          generalize run held = left, run changed = right at hrel
          cases hrel with
          | none => exact .none
          | @some left right hedited =>
              refine .some (differsAt_cons_iff.mpr
                ⟨left, right, nest.get_set left hheld, hedited, ?_⟩)
              rw [nest.set_set, nest.set_set]
        · -- The edit and the difference are under different tokens.
          have hget : nest.get (nest.set first next changed) token = nest.get first token :=
            nest.get_set_of_ne changed (Ne.symm hnext)
          simp only [edit, hget]
          cases nest.get first token with
          | none => exact .none
          | some kept =>
              rw [Option.bind_some, Option.bind_some]
              cases run kept with
              | none => exact .none
              | some edited =>
                  refine .some (differsAt_cons_iff.mpr ⟨held, changed, ?_, hchanged, ?_⟩)
                  · rw [nest.get_set_of_ne edited hnext, hheld]
                  · exact nest.set_comm changed edited (Ne.symm hnext)
  frame := by
    intro other first second hapart hrun
    obtain ⟨held, hheld, hmap⟩ := Option.bind_eq_some_iff.mp hrun
    obtain ⟨edited, hedited, rfl⟩ := Option.map_eq_some_iff.mp hmap
    cases other with
    | nil => exact absurd List.nil_prefix hapart.1
    | cons next other =>
        by_cases hnext : next = token
        · subst hnext
          rw [find, find, nest.get_set edited hheld, hheld]
          exact hedits.frame (elsewhere_cons_iff.mp hapart rfl) hedited
        · rw [find, find, nest.get_set_of_ne edited hnext]
  keeps := by
    intro first second hfirst hrun
    obtain ⟨held, hheld, hmap⟩ := Option.bind_eq_some_iff.mp hrun
    obtain ⟨edited, hedited, rfl⟩ := Option.map_eq_some_iff.mp hmap
    exact hvalid.set token hfirst (hedits.keeps (hvalid.get hfirst hheld) hedited)

/-- An edit at a place, of what is at the end of a path. -/
theorem EditsAt.along (hedits : nest.EditsAt valid place run) (hvalid : nest.Hereditary valid)
    (path : List Token) : nest.EditsAt valid (path ++ place) (nest.edit run path) := by
  induction path with
  | nil => exact hedits
  | cons token path ih =>
      have hone : nest.edit run (token :: path) = nest.edit (nest.edit run path) [token] :=
        edit_append [token]
      rw [hone]
      exact ih.under hvalid token

/-- Another value at a place is an edit there. -/
theorem editsAt_replace {value : Node} (hvalid : nest.Hereditary valid) (hvalue : valid value)
    (place : List Token) : nest.EditsAt valid place (nest.replace value place) := by
  have hedits := (nest.editsAt_nil hvalue).along hvalid place
  rwa [List.append_nil] at hedits

/-- An action on what a value holds under one token. -/
structure ActsUnder (nest : Nesting Node Token) (valid : Node → Prop) (token : Token)
    (act : Node → Option Node) : Prop where
  absorb {node held : Node} (other : Node) :
    nest.get node token = some held → act (nest.set node token other) = act node
  beside {node held : Node} {other : Token} (changed : Node) :
    valid node → other ≠ token → nest.get node other = some held →
      act (nest.set node other changed) = (act node).map fun acted => nest.set acted other changed
  frame {node acted : Node} {other : Token} :
    other ≠ token → act node = some acted → nest.get acted other = nest.get node other
  keeps {node acted : Node} : valid node → act node = some acted → valid acted

/-- It is an edit at the place of the one token. -/
theorem ActsUnder.editsAt (hacts : nest.ActsUnder valid token act) :
    nest.EditsAt valid [token] act where
  absorb := by
    intro other first second hle hdiff
    cases other with
    | nil => cases List.prefix_nil.mp hle
    | cons next other =>
        obtain ⟨rfl, -⟩ := List.cons_prefix_cons.mp hle
        obtain ⟨held, changed, hheld, -, rfl⟩ := differsAt_cons_iff.mp hdiff
        exact (hacts.absorb changed hheld).symm
  inside := by
    intro other first second hle hne _
    cases other with
    | nil => exact differsAt_nil
    | cons next other =>
        obtain ⟨rfl, hnil⟩ := List.cons_prefix_cons.mp hle
        exact absurd (by rw [List.prefix_nil.mp hnil]) hne
  beside := by
    intro other first second hfirst hapart hdiff
    cases other with
    | nil => exact absurd List.nil_prefix hapart.1
    | cons next other =>
        have hnext : next ≠ token := fun h => not_elsewhere_nil (elsewhere_cons_iff.mp hapart h)
        obtain ⟨held, changed, hheld, hchanged, rfl⟩ := differsAt_cons_iff.mp hdiff
        rw [hacts.beside changed hfirst hnext hheld]
        cases hact : act first with
        | none => exact .none
        | some acted =>
            refine .some (differsAt_cons_iff.mpr ⟨held, changed, ?_, hchanged, rfl⟩)
            rw [hacts.frame hnext hact, hheld]
  frame := by
    intro other first second hapart hact
    cases other with
    | nil => exact absurd List.nil_prefix hapart.1
    | cons next other =>
        have hnext : next ≠ token := fun h => not_elsewhere_nil (elsewhere_cons_iff.mp hapart h)
        rw [find, find, hacts.frame hnext hact]
  keeps := hacts.keeps

/-- A difference between two values is still at its place after an edit of both, or gone, if
the edit is made where it overwrites the difference. -/
theorem EditsAt.getD_or (hedits : nest.EditsAt valid place run) (hfirst : valid first)
    (hover : place <+: other → (run first).isSome) (hdiff : nest.DiffersAt other first second) :
    (run first).getD first = (run second).getD second ∨
      nest.DiffersAt other ((run first).getD first) ((run second).getD second) := by
  by_cases hbelow : place <+: other
  · left
    have heq : run first = run second := hedits.absorb hbelow hdiff
    obtain ⟨edited, hedited⟩ := Option.isSome_iff_exists.mp (hover hbelow)
    rw [← heq, hedited]
    rfl
  · right
    by_cases habove : other <+: place
    · have hne : other ≠ place := fun h => hbelow (h ▸ List.prefix_rfl)
      -- What either edit does stays at the place of the difference.
      have hright : nest.DiffersAt other first ((run second).getD second) := by
        cases hrun : run second with
        | none => exact hdiff
        | some edited => exact hdiff.trans (hedits.inside habove hne hrun)
      cases hrun : run first with
      | none => exact hright
      | some edited => exact (hedits.inside habove hne hrun).between hright
    · have hrel := hedits.beside hfirst ⟨habove, hbelow⟩ hdiff
      generalize run first = left, run second = right at hrel
      cases hrel with
      | none => exact hdiff
      | some hedited => exact hedited

/-! ## Edits one after the other -/

/-- The contract of edits at some places, for the values with some property. -/
structure Rewrites (nest : Nesting Node Token) (valid : Node → Prop) (places : List (List Token))
    (run : Node → Option Node) : Prop where
  /-- A difference at one of the places is gone. -/
  hides {place : List Token} {first second left right : Node} :
    valid first → valid second → place ∈ places → nest.DiffersAt place first second →
      run first = some left → run second = some right → left = right
  /-- A difference at any place is still there, or gone. -/
  related {place : List Token} {first second left right : Node} :
    valid first → valid second → nest.DiffersAt place first second →
      run first = some left → run second = some right →
        left = right ∨ nest.DiffersAt place left right
  /-- What is apart from the places stays as it is. -/
  frame {other : List Token} {first second : Node} :
    (∀ place ∈ places, Elsewhere other place) → run first = some second →
      nest.find other second = nest.find other first
  /-- The property is kept. -/
  keeps {first second : Node} : valid first → run first = some second → valid second

variable {places later : List (List Token)} {next : Node → Option Node}

theorem Rewrites.skip : nest.Rewrites valid [] some where
  hides _ _ hplace := absurd hplace List.not_mem_nil
  related _ _ hdiff hleft hright := by
    obtain rfl := Option.some.inj hleft
    obtain rfl := Option.some.inj hright
    exact .inr hdiff
  frame _ h := by rw [Option.some.inj h]
  keeps hvalid h := Option.some.inj h ▸ hvalid

theorem EditsAt.rewrites (hedits : nest.EditsAt valid place run) :
    nest.Rewrites valid [place] run where
  hides _ _ hplace hdiff hleft hright := by
    obtain rfl := List.mem_singleton.mp hplace
    rw [hedits.absorb List.prefix_rfl hdiff, hright] at hleft
    exact (Option.some.inj hleft).symm
  related hfirst _ hdiff hleft hright := by
    have hor := hedits.getD_or hfirst (fun _ => by rw [hleft]; rfl) hdiff
    rwa [hleft, hright] at hor
  frame hapart hrun := hedits.frame (hapart _ List.mem_cons_self) hrun
  keeps := hedits.keeps

/-- An edit that leaves the value as it is where it fails, if it succeeds on what differs at
its place or below. -/
theorem EditsAt.rewrites_getD (hedits : nest.EditsAt valid place run)
    (hover : ∀ {other first second}, place <+: other → nest.DiffersAt other first second →
      (run first).isSome) :
    nest.Rewrites valid [place] fun node => some ((run node).getD node) where
  hides _ _ hplace hdiff hleft hright := by
    obtain rfl := List.mem_singleton.mp hplace
    obtain ⟨edited, hedited⟩ := Option.isSome_iff_exists.mp (hover List.prefix_rfl hdiff)
    rw [← Option.some.inj hleft, ← Option.some.inj hright,
      ← hedits.absorb List.prefix_rfl hdiff, hedited]
    rfl
  related hfirst _ hdiff hleft hright := by
    rw [← Option.some.inj hleft, ← Option.some.inj hright]
    exact hedits.getD_or hfirst (fun hle => hover hle hdiff) hdiff
  frame {other first second} hapart hrun := by
    rw [← Option.some.inj hrun]
    cases hfirst : run first with
    | none => rfl
    | some edited => exact hedits.frame (hapart _ List.mem_cons_self) hfirst
  keeps {first second} hfirst hrun := by
    rw [← Option.some.inj hrun]
    cases hedited : run first with
    | none => exact hfirst
    | some edited => exact hedits.keeps hfirst hedited

theorem Rewrites.andThen (hrun : nest.Rewrites valid places run)
    (hnext : nest.Rewrites valid later next) :
    nest.Rewrites valid (places ++ later) fun node => (run node).bind next where
  hides {place first second last other} hfirst hsecond hplace hdiff hleft hright := by
    obtain ⟨left, hl, hleft⟩ := Option.bind_eq_some_iff.mp hleft
    obtain ⟨right, hr, hright⟩ := Option.bind_eq_some_iff.mp hright
    have hmiddle : left = right ∨ place ∈ later ∧ nest.DiffersAt place left right := by
      rcases List.mem_append.mp hplace with hplace | hplace
      · exact .inl (hrun.hides hfirst hsecond hplace hdiff hl hr)
      · exact (hrun.related hfirst hsecond hdiff hl hr).imp_right fun hdiff => ⟨hplace, hdiff⟩
    rcases hmiddle with rfl | ⟨hplace, hdiff⟩
    · rw [hleft] at hright
      exact Option.some.inj hright
    · exact hnext.hides (hrun.keeps hfirst hl) (hrun.keeps hsecond hr) hplace hdiff hleft hright
  related {place first second last other} hfirst hsecond hdiff hleft hright := by
    obtain ⟨left, hl, hleft⟩ := Option.bind_eq_some_iff.mp hleft
    obtain ⟨right, hr, hright⟩ := Option.bind_eq_some_iff.mp hright
    rcases hrun.related hfirst hsecond hdiff hl hr with rfl | hdiff
    · rw [hleft] at hright
      exact .inl (Option.some.inj hright)
    · exact hnext.related (hrun.keeps hfirst hl) (hrun.keeps hsecond hr) hdiff hleft hright
  frame hapart h := by
    obtain ⟨middle, hmiddle, hlast⟩ := Option.bind_eq_some_iff.mp h
    rw [hnext.frame (fun place hplace => hapart place (List.mem_append_right _ hplace)) hlast,
      hrun.frame (fun place hplace => hapart place (List.mem_append_left _ hplace)) hmiddle]
  keeps hvalid h := by
    obtain ⟨middle, hmiddle, hlast⟩ := Option.bind_eq_some_iff.mp h
    exact hnext.keeps (hrun.keeps hvalid hmiddle) hlast

/-- Edits that succeed less often. -/
theorem Rewrites.of_imp (hrun : nest.Rewrites valid places run)
    (himp : ∀ {first second}, next first = some second → run first = some second) :
    nest.Rewrites valid places next where
  hides hfirst hsecond hplace hdiff hleft hright :=
    hrun.hides hfirst hsecond hplace hdiff (himp hleft) (himp hright)
  related hfirst hsecond hdiff hleft hright :=
    hrun.related hfirst hsecond hdiff (himp hleft) (himp hright)
  frame hapart h := hrun.frame hapart (himp h)
  keeps hvalid h := hrun.keeps hvalid (himp h)

/-- Overwrite what is at the places, one after the other, where there is anything. -/
def overwriteAll (nest : Nesting Node Token) (edits : List (List Token × Node)) (node : Node) :
    Node :=
  edits.foldl (fun node edit => (nest.replace edit.2 edit.1 node).getD node) node

/-- Where two values differ there is something, and so there is above. -/
theorem DiffersAt.isSome_replace (hdiff : nest.DiffersAt other first second)
    (hle : place <+: other) (value : Node) : (nest.replace value place first).isSome := by
  induction place generalizing other first second with
  | nil => rfl
  | cons token place ih =>
      cases other with
      | nil => cases List.prefix_nil.mp hle
      | cons next other =>
          obtain ⟨rfl, hbelow⟩ := List.cons_prefix_cons.mp hle
          obtain ⟨held, changed, hheld, hchanged, -⟩ := differsAt_cons_iff.mp hdiff
          have hedit : (nest.edit (fun _ => some value) place held).isSome := ih hchanged hbelow
          rw [replace, edit, hheld, Option.bind_some, Option.isSome_map]
          exact hedit

theorem rewrites_overwriteAll (nest : Nesting Node Token) (edits : List (List Token × Node)) :
    nest.Rewrites (fun _ => True) (edits.map (·.1)) fun node =>
      some (nest.overwriteAll edits node) := by
  induction edits with
  | nil => exact Rewrites.skip
  | cons edit edits ih =>
      have hvalid : nest.Hereditary fun _ => True := ⟨fun _ _ => trivial, fun _ _ _ => trivial⟩
      have hedits : nest.EditsAt (fun _ => True) edit.1 (nest.replace edit.2 edit.1) :=
        editsAt_replace hvalid trivial edit.1
      have hone := hedits.rewrites_getD fun hle hdiff => hdiff.isSome_replace hle edit.2
      exact hone.andThen ih

/-- What is at an overwritten place makes no difference. -/
theorem overwriteAll_eq {edits : List (List Token × Node)} (hplace : place ∈ edits.map (·.1))
    (hdiff : nest.DiffersAt place first second) :
    nest.overwriteAll edits first = nest.overwriteAll edits second :=
  (nest.rewrites_overwriteAll edits).hides trivial trivial hplace hdiff rfl rfl

/-- A second pass changes nothing, as every edit of the first one is at a place where what
is there makes no difference. -/
theorem overwriteAll_overwriteAll (edits : List (List Token × Node)) (node : Node) :
    nest.overwriteAll edits (nest.overwriteAll edits node) = nest.overwriteAll edits node := by
  have hpart : ∀ part ⊆ edits,
      nest.overwriteAll edits (nest.overwriteAll part node) = nest.overwriteAll edits node := by
    intro part hpart
    induction part generalizing node with
    | nil => rfl
    | cons edit part ih =>
        have hmem : edit ∈ edits := hpart List.mem_cons_self
        have hrest := ih ((nest.replace edit.2 edit.1 node).getD node)
          (List.subset_of_cons_subset hpart)
        refine hrest.trans ?_
        cases hreplace : nest.replace edit.2 edit.1 node with
        | none => rfl
        | some edited =>
            exact (overwriteAll_eq (List.mem_map_of_mem hmem) ⟨edit.2, hreplace⟩).symm
  exact hpart edits (List.Subset.refl _)

end Nesting

end Soulbase.Foundation
