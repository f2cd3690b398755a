/-
# Confinement of paths

The checks of the sandbox compare texts: the path of an operation has to begin like
that of the capability, and that one like the root and like an entry of the whitelist.
A name that goes on where the prefix ends passes, and the executor opens a relative path
from the working directory while the checks read it from the root.

`not_confined_sibling` is an operation of the first kind. `confined_iff_stopsAtNames`
says when the checks are enough: where the texts that they compare end at names, and
the path that is opened is the one that was checked.
-/

import Soulbase.Sandbox.Exec.Fs

namespace Soulbase.Sandbox

open Soulbase.Foundation

/-- What the executor opens for a path, `opens_own_path`, lies at or below the directory
of the capability, the root of the profile, and some path of the whitelist if there is
any. The directories of a profile are read from the root, as the guard reads them. -/
structure Confined (profile : Profile) (cwd : Directory) (capability : Capability)
    (path : String) : Prop where
  capability : ∀ dir, capability.path? = some dir →
    (cwd.resolve path).IsBelow (Directory.root.resolve dir)
  root : ∀ root, profile.mappings.rootFs = some root →
    (cwd.resolve path).IsBelow (Directory.root.resolve root)
  whitelist : profile.whitelists.paths ≠ [] → ∃ allowed ∈ profile.whitelists.paths,
    (cwd.resolve path).IsBelow (Directory.root.resolve allowed)

/-- The text that is opened goes on with a slash, or ends, where that of the directory
ends. If it is not the text that was checked, it begins with that of the directory. -/
structure StopsAt (cwd : Directory) (path dir : String) : Prop where
  begins : (cwd.resolve path).text ≠ normalizePath path →
    Text.startsWith (cwd.resolve path).text (normalizePath dir) = true
  stops : LexicalPath.stopsAtSlash (cwd.resolve path).text (normalizePath dir) = true

/-- The prefixes that the checks have compared end at names. The whitelist may have let
the capability pass for another entry than the one that covers the path. -/
structure StopsAtNames (profile : Profile) (cwd : Directory) (capability : Capability)
    (path : String) : Prop where
  capability : ∀ dir, capability.path? = some dir → StopsAt cwd path dir
  root : ∀ root, profile.mappings.rootFs = some root → StopsAt cwd path root
  whitelist : profile.whitelists.paths ≠ [] → ∃ allowed ∈ profile.whitelists.paths,
    Text.startsWith (cwd.resolve path).text (normalizePath allowed) = true ∧
      LexicalPath.stopsAtSlash (cwd.resolve path).text (normalizePath allowed) = true

section Texts

variable {cwd : Directory} {path dir : String}

theorem isBelow_iff_text :
    (cwd.resolve path).IsBelow (Directory.root.resolve dir) ↔
      Text.startsWith (cwd.resolve path).text (normalizePath dir) = true ∧
        LexicalPath.stopsAtSlash (cwd.resolve path).text (normalizePath dir) = true := by
  rw [Directory.isBelow_iff, normalizePath_eq_text]

/-- Where a check has found the prefix, it only matters where it stops. -/
theorem isBelow_iff_stopsAt
    (hchecked : Text.startsWith (normalizePath path) (normalizePath dir) = true) :
    (cwd.resolve path).IsBelow (Directory.root.resolve dir) ↔ StopsAt cwd path dir := by
  rw [isBelow_iff_text]
  constructor
  · rintro ⟨hbegins, hstops⟩
    exact ⟨fun _ => hbegins, hstops⟩
  · rintro ⟨hbegins, hstops⟩
    refine ⟨?_, hstops⟩
    by_cases hsame : (cwd.resolve path).text = normalizePath path
    · rw [hsame]
      exact hchecked
    · exact hbegins hsame

end Texts

section Checked

variable {crates : Crates} {profile : Profile} {op : ExecOp} {capability : Capability}
variable {path : String}

/-- The path begins with that of the capability, as texts. -/
theorem startsWith_of_selectCapability (hpath : op.path? = some path)
    (hselect : selectCapability crates profile op = .ok capability) {dir : String}
    (hdir : capability.path? = some dir) :
    Text.startsWith (normalizePath path) (normalizePath dir) = true := by
  have hcovers := coversPath_of_selectCapability hpath hselect
  rw [coversPath, hdir] at hcovers
  exact hcovers

/-- The path begins with the root, as texts: the capability does, and the path begins
with the capability. -/
theorem startsWith_root (hpath : op.path? = some path)
    (hselect : selectCapability crates profile op = .ok capability)
    (hguard : DefaultPolicyGuard.validate profile capability = .ok ()) {root : String}
    (hroot : profile.mappings.rootFs = some root) :
    Text.startsWith (normalizePath path) (normalizePath root) = true := by
  have hcovers := coversPath_of_selectCapability hpath hselect
  rw [coversPath, Option.any_eq_true] at hcovers
  obtain ⟨dir, hdir, hstarts⟩ := hcovers
  have hvalid := DefaultPolicyGuard.validatePath_of_validate hguard hdir
  have hrooted := validateRoot_eq_ok_iff.mp (validatePath_eq_ok_iff.mp hvalid).1 root hroot
  exact Text.startsWith_trans hstarts hrooted

theorem confined_of_stopsAtNames {cwd : Directory} (hpath : op.path? = some path)
    (hselect : selectCapability crates profile op = .ok capability)
    (hguard : DefaultPolicyGuard.validate profile capability = .ok ())
    (h : StopsAtNames profile cwd capability path) : Confined profile cwd capability path where
  capability := by
    intro dir hdir
    have hchecked := startsWith_of_selectCapability hpath hselect hdir
    exact (isBelow_iff_stopsAt hchecked).mpr (h.capability dir hdir)
  root := by
    intro root hroot
    have hchecked := startsWith_root hpath hselect hguard hroot
    exact (isBelow_iff_stopsAt hchecked).mpr (h.root root hroot)
  whitelist := by
    intro hlisted
    obtain ⟨allowed, hallowed, htext⟩ := h.whitelist hlisted
    exact ⟨allowed, hallowed, isBelow_iff_text.mpr htext⟩

theorem Confined.stopsAtNames {cwd : Directory} (hpath : op.path? = some path)
    (hselect : selectCapability crates profile op = .ok capability)
    (hguard : DefaultPolicyGuard.validate profile capability = .ok ())
    (h : Confined profile cwd capability path) : StopsAtNames profile cwd capability path where
  capability := by
    intro dir hdir
    have hchecked := startsWith_of_selectCapability hpath hselect hdir
    exact (isBelow_iff_stopsAt hchecked).mp (h.capability dir hdir)
  root := by
    intro root hroot
    have hchecked := startsWith_root hpath hselect hguard hroot
    exact (isBelow_iff_stopsAt hchecked).mp (h.root root hroot)
  whitelist := by
    intro hlisted
    obtain ⟨allowed, hallowed, hbelow⟩ := h.whitelist hlisted
    exact ⟨allowed, hallowed, isBelow_iff_text.mp hbelow⟩

/-- Then everything that the executor opens for the operation is confined. -/
theorem opened_confined {cwd : Directory} (hpath : op.path? = some path)
    (hselect : selectCapability crates profile op = .ok capability)
    (hguard : DefaultPolicyGuard.validate profile capability = .ok ())
    (h : StopsAtNames profile cwd capability path) {isCancelled : Bool}
    {calls : List (Sigma FsCall.Answer)} {result : SandboxResult ExecResult}
    (hruns : Runs (FsExecutor.execute crates profile.limits isCancelled op).run calls result) :
    ∀ call ∈ calls, ∀ opened, call.1.opens? = some opened →
      Confined profile cwd capability opened := by
  intro call hcall opened hopened
  rw [FsExecutor.opens_own_path hpath hruns call hcall opened hopened]
  exact confined_of_stopsAtNames hpath hselect hguard h

end Checked

/-- For an operation that the checks let pass, what is opened is confined iff the texts
that were compared end at names. -/
theorem confined_iff_stopsAtNames (crates : Crates) (profile : Profile) (cwd : Directory)
    (op : ExecOp) (path : String) (capability : Capability) (hpath : op.path? = some path)
    (hselect : selectCapability crates profile op = .ok capability)
    (hguard : DefaultPolicyGuard.validate profile capability = .ok ()) :
    Confined profile cwd capability path ↔ StopsAtNames profile cwd capability path :=
  ⟨fun h => h.stopsAtNames hpath hselect hguard,
    fun h => confined_of_stopsAtNames hpath hselect hguard h⟩

namespace Sibling

/-- Reading below `/data` is granted. -/
def capability : Capability := .fsRead "/data"

/-- The profile of that grant, without a root or a whitelist. -/
def profile : Profile := (Grant.forCall "reader" [capability]).profile

end Sibling

/-- A file below the directory. -/
theorem confined_iff_stopsAtNames_below :
    Confined Sibling.profile .root Sibling.capability "/data/report" ↔
      StopsAtNames Sibling.profile .root Sibling.capability "/data/report" :=
  confined_iff_stopsAtNames .ascii Sibling.profile .root
    (.fsRead "/data/report" none none) "/data/report" Sibling.capability rfl (by decide)
    (by decide)

/-- `/database/keys` begins with `/data`, and is not below it. -/
theorem not_confined_sibling :
    ¬∀ (crates : Crates) (profile : Profile) (cwd : Directory) (op : ExecOp) (path : String)
      (capability : Capability), op.path? = some path →
        selectCapability crates profile op = .ok capability →
          DefaultPolicyGuard.validate profile capability = .ok () →
            Confined profile cwd capability path := by
  intro h
  have hconfined := h .ascii Sibling.profile .root (.fsRead "/database/keys" none none)
    "/database/keys" Sibling.capability rfl (by decide) (by decide)
  exact absurd (hconfined.capability "/data" rfl) (by decide)

end Soulbase.Sandbox
