/-
# Merged whitelists

An item that is accepted under a merged whitelist has been accepted under each of the
two, wherever something is left of their lists: what is left is in both. Where nothing is
left of two lists of paths or of methods, the merged list is empty, and an empty list of
these lets everything through.
-/

import Mathlib.Data.List.Basic
import Soulbase.Sandbox.Exec.Net
import Soulbase.Sandbox.Profile

namespace Soulbase.Sandbox

open Soulbase.Foundation

/-- What a list of a whitelist is asked about. -/
inductive ListedItem
  | path (path : String)
  | method (method : String)
  | domain (domain : String)
  | tool (tool : String)

namespace ListedItem

/-- The list that is asked. -/
def list (lists : Whitelists) : ListedItem → List String
  | path _ => lists.paths
  | method _ => lists.methods
  | domain _ => lists.domains
  | tool _ => lists.tools

/-- The check of the list of a profile. -/
def check (crates : Crates) (profile : Profile) : ListedItem → SandboxResult Unit
  | path asked => validateListed (normalizePath asked) profile.whitelists.paths
  | method asked => NetExecutor.ensureMethodAllowed crates profile.whitelists.methods asked
  | domain asked => validateDomain asked profile
  | tool asked => validateTool asked profile

/-- Whether an item matches an entry. -/
def matchesEntry (crates : Crates) : ListedItem → String → Bool
  | path asked, entry => Text.startsWith (normalizePath asked) entry
  | method asked, entry => Text.eqIgnoreAsciiCase entry (Text.toUppercase crates.upper asked)
  | domain asked, entry => Text.endsWith asked entry
  | tool asked, entry => entry = asked

/-- Whether an empty list lets an item through. -/
def passesEmpty : ListedItem → Bool
  | path _ | method _ => true
  | domain _ | tool _ => false

/-- The item passes a list: it matches an entry, or the list is empty and that is
enough. -/
def Passes (crates : Crates) (item : ListedItem) (entries : List String) : Prop :=
  (item.passesEmpty = true ∧ entries = []) ∨
    ∃ entry ∈ entries, item.matchesEntry crates entry = true

variable {crates : Crates} {profile : Profile} {item : ListedItem}

theorem check_eq_ok_iff :
    item.check crates profile = .ok () ↔ item.Passes crates (item.list profile.whitelists) := by
  cases item with
  | path asked =>
      simp [check, Passes, passesEmpty, list, matchesEntry, validateListed_eq_ok_iff,
        or_iff_not_imp_left]
  | method asked =>
      simp [check, Passes, passesEmpty, list, matchesEntry, NetExecutor.ensureMethodAllowed,
        allowsMethod, or_iff_not_imp_left]
  | domain asked =>
      simp [check, Passes, passesEmpty, list, matchesEntry, validateDomain_eq_ok_iff]
  | tool asked =>
      simp [check, Passes, passesEmpty, list, matchesEntry, validateTool_eq_ok_iff]

theorem list_mergeWhitelists {manifest policy : Whitelists} :
    item.list (mergeWhitelists (some manifest) (some policy)) =
      intersectList (item.list manifest) (item.list policy) := by
  cases item <;> rfl

end ListedItem

/-- What an item that an empty list lets through asks of two lists with entries: that they
have a common entry, or that it matches an entry of each. -/
def MeetsBoth (crates : Crates) (item : ListedItem) (a b : List String) : Prop :=
  item.passesEmpty = true → a ≠ [] → b ≠ [] →
    (∃ entry ∈ a, entry ∈ b) ∨
      (∃ entry ∈ a, item.matchesEntry crates entry = true) ∧
        ∃ entry ∈ b, item.matchesEntry crates entry = true

section Merged

variable {crates : Crates} {item : ListedItem} {a b : List String}

/-- A list with entries passes an item for an entry. -/
theorem ListedItem.Passes.exists_match (h : item.Passes crates a) (ha : a ≠ []) :
    ∃ entry ∈ a, item.matchesEntry crates entry = true := by
  rcases h with ⟨_, hempty⟩ | hmatches
  · exact absurd hempty ha
  · exact hmatches

/-- What passes the intersection matches an entry of each of the lists. -/
theorem exists_match_both (hmeets : MeetsBoth crates item a b) (ha : a ≠ []) (hb : b ≠ [])
    (h : item.Passes crates (intersectList a b)) :
    (∃ entry ∈ a, item.matchesEntry crates entry = true) ∧
      ∃ entry ∈ b, item.matchesEntry crates entry = true := by
  rcases h with ⟨hpasses, hempty⟩ | ⟨entry, hentry, hmatches⟩
  · rcases hmeets hpasses ha hb with hcommon | hboth
    · exact absurd hcommon ((intersectList_eq_nil_iff ha hb).mp hempty)
    · exact hboth
  · obtain ⟨hleft, hright⟩ := (mem_intersectList_iff ha hb).mp hentry
    exact ⟨⟨entry, hleft, hmatches⟩, entry, hright, hmatches⟩

theorem passes_left (hmeets : MeetsBoth crates item a b) (ha : a ≠ [])
    (h : item.Passes crates (intersectList a b)) : item.Passes crates a := by
  by_cases hb : b = []
  · rw [hb, intersectList_nil_right] at h
    exact h
  · exact .inr (exists_match_both hmeets ha hb h).1

theorem passes_right (hmeets : MeetsBoth crates item a b) (hb : b ≠ [])
    (h : item.Passes crates (intersectList a b)) : item.Passes crates b := by
  by_cases ha : a = []
  · rw [ha, intersectList_nil_left] at h
    exact h
  · exact .inr (exists_match_both hmeets ha hb h).2

/-- Lists without a common entry pass everything together that an empty list does. -/
theorem meetsBoth_of_passes
    (h : item.Passes crates (intersectList a b) → a ≠ [] → b ≠ [] →
      item.Passes crates a ∧ item.Passes crates b) : MeetsBoth crates item a b := by
  intro hpasses ha hb
  by_cases hcommon : ∃ entry ∈ a, entry ∈ b
  · exact .inl hcommon
  · have hempty := (intersectList_eq_nil_iff ha hb).mpr hcommon
    obtain ⟨hleft, hright⟩ := h (.inl ⟨hpasses, hempty⟩) ha hb
    exact .inr ⟨hleft.exists_match ha, hright.exists_match hb⟩

end Merged

/-- The profile with another whitelist. -/
def Profile.withWhitelists (profile : Profile) (lists : Whitelists) : Profile :=
  { profile with whitelists := lists }

/-- If an item passes under the merged whitelist, it passes under each of the two that is
there and has entries for such items. -/
def MergeRestricts (crates : Crates) (profile : Profile) (manifest policy : Option Whitelists)
    (item : ListedItem) : Prop :=
  item.check crates (profile.withWhitelists (mergeWhitelists manifest policy)) = .ok () →
    ∀ lists, manifest = some lists ∨ policy = some lists → item.list lists ≠ [] →
      item.check crates (profile.withWhitelists lists) = .ok ()

/-- Merging restricts iff two whitelists that are both there have a common entry where an
empty list would do, or the item would pass under each of them. -/
theorem mergeRestricts_iff_meetsBoth (crates : Crates) (profile : Profile)
    (manifest policy : Option Whitelists) (item : ListedItem) :
    MergeRestricts crates profile manifest policy item ↔
      ∀ m p, manifest = some m → policy = some p →
        MeetsBoth crates item (item.list m) (item.list p) := by
  constructor
  · rintro h m p rfl rfl
    apply meetsBoth_of_passes
    intro hmerged hm hp
    have hcheck : item.check crates
        (profile.withWhitelists (mergeWhitelists (some m) (some p))) = .ok () := by
      rw [ListedItem.check_eq_ok_iff, Profile.withWhitelists, ListedItem.list_mergeWhitelists]
      exact hmerged
    exact ⟨ListedItem.check_eq_ok_iff.mp (h hcheck m (.inl rfl) hm),
      ListedItem.check_eq_ok_iff.mp (h hcheck p (.inr rfl) hp)⟩
  · intro h hcheck lists hgiven hlist
    cases manifest with
    | none =>
        rcases hgiven with hgiven | hgiven
        · cases hgiven
        · subst hgiven
          exact hcheck
    | some m =>
        cases policy with
        | none =>
            rcases hgiven with hgiven | hgiven
            · cases hgiven
              exact hcheck
            · cases hgiven
        | some p =>
            have hmeets := h m p rfl rfl
            rw [ListedItem.check_eq_ok_iff, Profile.withWhitelists,
              ListedItem.list_mergeWhitelists] at hcheck
            rw [ListedItem.check_eq_ok_iff]
            rcases hgiven with hgiven | hgiven
            · cases hgiven
              exact passes_left hmeets hlist hcheck
            · cases hgiven
              exact passes_right hmeets hlist hcheck

namespace DisjointPaths

/-- The manifest's whitelist. -/
def manifest : Whitelists := { paths := ["/data"] }

/-- The policy's whitelist. -/
def policy : Whitelists := { paths := ["/srv"] }

/-- A profile. -/
def profile : Profile := (Grant.forCall "reader" [.fsRead "/"]).profile

end DisjointPaths

/-- Neither whitelist lets `/etc/passwd` pass, and the merged one does. -/
theorem not_mergeRestricts_disjointPaths :
    ¬∀ (crates : Crates) (profile : Profile) (manifest policy : Option Whitelists)
      (item : ListedItem), MergeRestricts crates profile manifest policy item := by
  intro h
  have hpasses := h .ascii DisjointPaths.profile (some DisjointPaths.manifest)
    (some DisjointPaths.policy) (.path "/etc/passwd") (by decide) DisjointPaths.manifest
    (.inl rfl) (by decide)
  exact absurd hpasses (by decide)

end Soulbase.Sandbox
