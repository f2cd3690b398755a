/-
# The sandbox as it comes

`DefaultProfileBuilder`, `DefaultPolicyGuard`, the built-in executors and
`NoopBudgetMeter`, which refuses nothing and keeps no account. A call of one of these is
answered by its code; the clock and the revocation watcher answer as they like.

Whatever the file system and the processes do, a result of a built-in executor keeps to
the limits of the profile, `BuiltinExecutor.withinLimits`.
-/

import Soulbase.Sandbox.Closing
import Soulbase.Sandbox.Exec.Browser
import Soulbase.Sandbox.Exec.Net
import Soulbase.Sandbox.Exec.Process
import Soulbase.Sandbox.Exec.Tmp
import Soulbase.Sandbox.Manager
import Soulbase.Sandbox.Profile

namespace Soulbase.Sandbox

open Soulbase.Foundation SandboxError

/-- `NoopBudgetMeter::reserve`. Its `commit` and `rollback` do nothing. -/
def NoopBudgetMeter.reserve (_request : Budget) : SandboxResult Unit := .ok ()

/-- The executors of the crate. -/
inductive BuiltinExecutor
  | fs
  | net
  | browser
  | process
  | tmp
  deriving DecidableEq

/-- What an executor can return. -/
def BuiltinExecutor.MayReturn (crates : Crates) (parseIp : String → Option IpAddr)
    (profile : Profile) (isCancelled : Bool) (op : ExecOp) (result : SandboxResult ExecResult) :
    BuiltinExecutor → Prop
  | .fs => ∃ calls, Runs (FsExecutor.execute crates profile.limits isCancelled op).run calls result
  | .net => result = NetExecutor.execute crates parseIp profile isCancelled op
  | .browser => result = BrowserExecutor.execute profile isCancelled op
  | .process =>
      ∃ calls, Runs (ProcessExecutor.execute crates profile isCancelled op).run calls result
  | .tmp => ∃ calls, Runs (TmpExecutor.execute profile isCancelled op).run calls result

/-- A sandbox with the default parts, and an executor of the crate for some kinds. -/
structure DefaultSandbox where
  crates : Crates
  hashing : Hashing
  /-- `str::parse::<IpAddr>`. -/
  parseIp : String → Option IpAddr
  /-- `with_executor`. -/
  executors : CapabilityKind → Option BuiltinExecutor

namespace DefaultSandbox

/-- A sandbox with a single executor. -/
def withExecutor (kind : CapabilityKind) (executor : BuiltinExecutor) : DefaultSandbox where
  crates := .ascii
  hashing := .none
  parseIp _ := none
  executors other := if other = kind then some executor else none

variable (host : DefaultSandbox)

/-- What the sandbox knows of its executors. -/
def sandbox : Sandbox where
  crates := host.crates
  registered kind := (host.executors kind).isSome

/-- What an executor can return, with a token that is never cancelled. -/
def Returns (profile : Profile) (op : ExecOp) (result : SandboxResult ExecResult)
    (executor : BuiltinExecutor) : Prop :=
  executor.MayReturn host.crates host.parseIp profile false op result

/-- The answer of a call that has one. -/
def Answers : SandboxCall → Prop
  | ⟨.build grant manifest policy, answer⟩ =>
      answer = DefaultProfileBuilder.build host.hashing grant manifest policy
  | ⟨.validate profile capability, answer⟩ =>
      answer = DefaultPolicyGuard.validate profile capability
  | ⟨.reserve request, answer⟩ => answer = NoopBudgetMeter.reserve request
  | ⟨.execute kind profile op, answer⟩ =>
      ∀ executor, host.executors kind = some executor → host.Returns profile op answer executor
  | ⟨.now, _⟩ | ⟨.isRevoked _, _⟩ | ⟨.commit _, _⟩ | ⟨.rollback _, _⟩ | ⟨.emit _, _⟩ => True

/-- The calls of a request, and its result. -/
structure Execution where
  request : ExecuteRequest
  calls : List SandboxCall
  result : SandboxResult ExecutionOutcome
  runs : Runs (host.sandbox.execute request).run calls result
  answered : ∀ call ∈ calls, host.Answers call

end DefaultSandbox

/-- The usage of the result is a single call. -/
def ExecResult.IsOneCall (result : ExecResult) : Prop := result.usage.calls = 1

/-- The usage of the result is a single call that keeps to the limits. -/
structure ExecResult.Reports (limits : Limits) (result : ExecResult) : Prop where
  oneCall : result.IsOneCall
  within : WithinLimits limits result.usage

section Reports

variable {crates : Crates} {limits : Limits} {profile : Profile} {op : ExecOp}
variable {isCancelled : Bool}

/-- An amount that is not used keeps to any limit. -/
theorem unused_le (limit : Option UInt64) : ∀ max, limit = some max → (0 : UInt64) ≤ max :=
  fun _ _ => UInt64.zero_le

theorem NetExecutor.reports {parseIp : String → Option IpAddr} {result : ExecResult}
    (h : NetExecutor.execute crates parseIp profile isCancelled op = .ok result) :
    result.Reports profile.limits := by
  obtain ⟨_, h⟩ := rejectIf_bind_eq_ok_iff.mp h
  cases op with
  | netHttp method url headers bodyB64 =>
      obtain ⟨parsed, _, h⟩ := bind_eq_ok_iff.mp h
      obtain ⟨_, h⟩ := rejectIf_bind_eq_ok_iff.mp h
      obtain ⟨host, _, h⟩ := bind_eq_ok_iff.mp h
      obtain ⟨_, _, h⟩ := bind_eq_ok_iff.mp h
      obtain ⟨_, h⟩ := rejectIf_bind_eq_ok_iff.mp h
      obtain ⟨body, _, h⟩ := bind_eq_ok_iff.mp h
      obtain ⟨hsent, h⟩ := rejectIf_bind_eq_ok_iff.mp h
      obtain ⟨_, h⟩ := rejectIf_bind_eq_ok_iff.mp h
      cases h
      exact ⟨rfl, unused_le _, any_exceeds_eq_false_iff.mp hsent, unused_le _⟩
  | fsRead _ _ _ | fsWrite _ _ _ | fsList _ | browserNav _ | browserScreenshot _ _
  | procExec _ _ _ | tmpAlloc _ => cases h

theorem BrowserExecutor.reports {result : ExecResult}
    (h : BrowserExecutor.execute profile isCancelled op = .ok result) :
    result.Reports profile.limits := by
  obtain ⟨_, h⟩ := rejectIf_bind_eq_ok_iff.mp h
  cases op with
  | browserNav url =>
      cases h
      exact ⟨rfl, unused_le _, unused_le _, unused_le _⟩
  | browserScreenshot selector fullPage =>
      obtain ⟨_, h⟩ := rejectIf_bind_eq_ok_iff.mp h
      cases h
      exact ⟨rfl, unused_le _, unused_le _, unused_le _⟩
  | fsRead _ _ _ | fsWrite _ _ _ | fsList _ | netHttp _ _ _ _ | procExec _ _ _ | tmpAlloc _ =>
      cases h

namespace FsExecutor

theorem returnsOnly_ofResult {α : Type} {holds : α → Prop} {result : SandboxResult α}
    (h : ∀ value, result = .ok value → holds value) :
    ReturnsOnly holds (FsComputation.ofResult result) := by
  cases result with
  | ok value => exact returnsOnly_done h
  | error error => exact returnsOnly_done h

theorem returnsOnly_ofResult_bind {α β : Type} {holds : β → Prop} {result : SandboxResult α}
    {second : α → FsComputation β}
    (h : ∀ value, result = .ok value → ReturnsOnly holds (second value)) :
    ReturnsOnly holds (FsComputation.ofResult result >>= second) :=
  returnsOnly_bind_of (returnsOnly_ofResult h) fun _ hsecond => hsecond

theorem reports_readResult {path : String} {buffer : List UInt8} {result : ExecResult}
    (h : readResult crates limits path buffer = .ok result) : result.Reports limits := by
  obtain ⟨hread, h⟩ := rejectIf_bind_eq_ok_iff.mp h
  cases h
  exact ⟨rfl, any_exceeds_eq_false_iff.mp hread, unused_le _, unused_le _⟩

theorem reports_listResult {path : String} {items : List Json.Value} {result : ExecResult}
    (h : listResult limits path items = .ok result) : result.Reports limits := by
  obtain ⟨hlisted, h⟩ := rejectIf_bind_eq_ok_iff.mp h
  cases h
  exact ⟨rfl, unused_le _, unused_le _, any_exceeds_eq_false_iff.mp hlisted⟩

/-- One file is written, and no limit for files is zero. -/
theorem reports_writeResult {path : String} {bytes : List UInt8}
    (h : checkWrite limits bytes = .ok ()) : (writeResult path bytes).Reports limits := by
  obtain ⟨hwritten, hfiles⟩ := rejectIf_bind_eq_ok_iff.mp h
  refine ⟨rfl, unused_le _, any_exceeds_eq_false_iff.mp hwritten, ?_⟩
  intro max hmax
  have hne : max ≠ 0 := by
    rintro rfl
    simp [hmax] at hfiles
  exact UInt64.le_iff_toNat_le.mpr (UInt64.lt_iff_toNat_lt.mp (UInt64.pos_iff_ne_zero.mpr hne))

theorem reports :
    ReturnsOnly (ExecResult.Reports limits) (execute crates limits isCancelled op) := by
  unfold execute
  split
  case isTrue => exact returnsOnly_done nofun
  case isFalse =>
    cases op with
    | fsRead path offset len =>
        apply returnsOnly_bind
        intro _
        apply returnsOnly_bind
        intro _
        apply returnsOnly_bind
        intro found
        apply returnsOnly_bind
        intro buffer
        exact returnsOnly_ofResult fun _ => reports_readResult
    | fsWrite path bytesB64 overwrite =>
        apply returnsOnly_bind
        intro bytes
        apply returnsOnly_ofResult_bind
        intro _ hchecked
        apply returnsOnly_bind
        intro found
        apply returnsOnly_bind
        intro _
        apply returnsOnly_bind
        intro _
        apply returnsOnly_bind
        intro _
        apply returnsOnly_bind
        intro _
        apply returnsOnly_done
        intro value hvalue
        cases hvalue
        exact reports_writeResult hchecked
    | fsList path =>
        apply returnsOnly_bind
        intro found
        apply returnsOnly_bind
        intro entries
        apply returnsOnly_bind
        intro items
        exact returnsOnly_ofResult fun _ => reports_listResult
    | netHttp _ _ _ _ | browserNav _ | browserScreenshot _ _ | procExec _ _ _ | tmpAlloc _ =>
        exact returnsOnly_done nofun

end FsExecutor

theorem TmpExecutor.reports :
    ReturnsOnly (ExecResult.Reports profile.limits)
      (TmpExecutor.execute profile isCancelled op) := by
  apply returnsOnly_bind
  intro _
  cases op with
  | tmpAlloc sizeBytes =>
      apply FsExecutor.returnsOnly_ofResult_bind
      intro _ hallowed
      apply returnsOnly_bind
      intro _
      apply returnsOnly_done
      intro value hvalue
      cases hvalue
      exact ⟨rfl, unused_le _, any_exceeds_eq_false_iff.mp (rejectIf_eq_ok_iff.mp hallowed),
        unused_le _⟩
  | fsRead _ _ _ | fsWrite _ _ _ | fsList _ | netHttp _ _ _ _ | browserNav _
  | browserScreenshot _ _ | procExec _ _ _ => exact returnsOnly_done nofun

theorem ProcessExecutor.reports :
    ReturnsOnly (ExecResult.Reports profile.limits)
      (ProcessExecutor.execute crates profile isCancelled op) := by
  apply returnsOnly_bind
  intro _
  cases op with
  | procExec tool args timeoutMs =>
      apply returnsOnly_bind
      intro _
      apply returnsOnly_bind
      intro _
      apply returnsOnly_bind
      intro found
      apply returnsOnly_bind
      intro output
      apply returnsOnly_bind
      intro elapsed
      apply returnsOnly_bind
      intro _
      apply returnsOnly_done
      intro value hvalue
      obtain ⟨hread, hresult⟩ := rejectIf_bind_eq_ok_iff.mp hvalue
      cases hresult
      exact ⟨rfl, any_exceeds_eq_false_iff.mp hread, unused_le _, unused_le _⟩
  | fsRead _ _ _ | fsWrite _ _ _ | fsList _ | netHttp _ _ _ _ | browserNav _
  | browserScreenshot _ _ | tmpAlloc _ => exact returnsOnly_done nofun

/-- Every executor of the crate reports one call that keeps to the limits. -/
theorem BuiltinExecutor.reports {parseIp : String → Option IpAddr} {executor : BuiltinExecutor}
    {result : ExecResult}
    (h : executor.MayReturn crates parseIp profile isCancelled op (.ok result)) :
    result.Reports profile.limits := by
  cases executor with
  | fs =>
      obtain ⟨calls, hruns⟩ := h
      exact FsExecutor.reports calls result hruns
  | net => exact NetExecutor.reports h.symm
  | browser => exact BrowserExecutor.reports h.symm
  | process =>
      obtain ⟨calls, hruns⟩ := h
      exact ProcessExecutor.reports calls result hruns
  | tmp =>
      obtain ⟨calls, hruns⟩ := h
      exact TmpExecutor.reports calls result hruns

end Reports

/-- What an executor of the crate returns keeps to the limits of the profile, and so passes
the check that follows. -/
theorem BuiltinExecutor.withinLimits (crates : Crates) (parseIp : String → Option IpAddr)
    (profile : Profile) (isCancelled : Bool) (op : ExecOp) (executor : BuiltinExecutor)
    (result : ExecResult)
    (h : executor.MayReturn crates parseIp profile isCancelled op (.ok result)) :
    WithinLimits profile.limits result.usage ∧
      ensureUsageWithinLimits profile result.usage = .ok () := by
  have hwithin := (executor.reports h).within
  exact ⟨hwithin, ensureUsageWithinLimits_eq_ok_iff.mpr hwithin⟩

namespace OneFile

/-- One file of ten bytes may be written. -/
def profile : Profile :=
  { (Grant.forCall "writer" [.fsWrite "/data" false]).profile with
    limits := { maxBytesOut := some 10, maxFiles := some 1 } }

/-- A payload stands for as many bytes as it has characters. -/
def crates : Crates :=
  { Crates.ascii with decodeBase64 := fun text => some (text.toList.map fun _ => 0) }

/-- No call of the file system fails. -/
def reply : (fsCall : FsCall) → fsCall.Answer
  | .openFile _ | .seek _ | .createDirAll _ | .createFile _ | .writeAll _ => true
  | .pathExists _ => false
  | .readToEnd _ => some []
  | .readDir _ => some []

end OneFile

/-- A file of four bytes. -/
theorem BuiltinExecutor.withinLimits_oneFile :
    WithinLimits OneFile.profile.limits
        (FsExecutor.writeResult "/data/report" [0, 0, 0, 0]).usage ∧
      ensureUsageWithinLimits OneFile.profile
        (FsExecutor.writeResult "/data/report" [0, 0, 0, 0]).usage = .ok () :=
  BuiltinExecutor.withinLimits OneFile.crates (fun _ => none) OneFile.profile false
    (.fsWrite "/data/report" "text" false) .fs _ ⟨_, runs_answered OneFile.reply _⟩

end Soulbase.Sandbox
