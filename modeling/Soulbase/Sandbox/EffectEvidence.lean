/-
# Evidence of effects

The end of the evidence lists the records of the executor's result, and none where the
executor has failed. A file may have been created by then, or a process have run, and
the directories that were made for a file have no record in either case.

`evidenced_iff_succeeded` says when every effect of the file system or of a process is
recorded: where there is none, or where nothing has failed after it and no directory
had to be made.
-/

import Soulbase.Json
import Soulbase.Sandbox.Defaults

namespace Soulbase.Sandbox

open Soulbase.Foundation SandboxError

/-- What an executor does to its surroundings. -/
inductive Effect
  /-- A directory is created, or several on the way to it. -/
  | directory (steps : List Component)
  /-- A file is created or truncated, and written. -/
  | file (path : String)
  /-- A process is run. -/
  | process (tool : String) (args : List String)

/-- Whether it is a directory. -/
def Effect.isDirectory : Effect → Bool
  | directory _ => true
  | file _ | process .. => false

/-- The effect that a call of the file system can have. What is written goes to the file
that was created. -/
def FsCall.effect? : FsCall → Option Effect
  | createDirAll parent => some (.directory parent)
  | createFile path => some (.file path)
  | openFile _ | seek _ | readToEnd _ | pathExists _ | writeAll _ | readDir _ => none

/-- Whether a call of the file system has failed. -/
def FsCall.failed : Sigma FsCall.Answer → Bool
  | ⟨openFile _, done⟩ | ⟨seek _, done⟩ | ⟨createDirAll _, done⟩ | ⟨createFile _, done⟩
  | ⟨writeAll _, done⟩ => !done
  | ⟨pathExists _, _⟩ => false
  | ⟨readToEnd _, found⟩ => found.isNone
  | ⟨readDir _, found⟩ => found.isNone

/-- The effect that a call of the process executor can have. -/
def ProcessCall.effect? : ProcessCall → Option Effect
  | output tool args _ => some (.process tool args)
  | elapsed => none

/-- The time that an operation may take, in milliseconds. -/
def ExecOp.timeout (profile : Profile) : ExecOp → UInt64
  | procExec _ _ timeoutMs => timeoutMs.getD profile.timeoutMs
  | fsRead .. | fsWrite .. | fsList _ | netHttp .. | browserNav _ | browserScreenshot ..
  | tmpAlloc _ => profile.timeoutMs

/-- Whether a process could not be run to its end, took too long or has written too
much. -/
def ProcessCall.failed (profile : Profile) (op : ExecOp) : Sigma ProcessCall.Answer → Bool
  | ⟨output .., none⟩ => true
  | ⟨output .., some found⟩ =>
      profile.limits.maxBytesIn.any
        (UInt64.ofNat found.stdout.length + UInt64.ofNat found.stderr.length > ·)
  | ⟨elapsed, nanoseconds⟩ => nanoseconds > (op.timeout profile).toNat * 1000000

/-- The calls that one of the two executors has made. -/
inductive ExecutorCalls
  | fs (calls : List (Sigma FsCall.Answer))
  | process (calls : List (Sigma ProcessCall.Answer))

namespace ExecutorCalls

/-- They are made for an operation, and have this result. -/
def Run (crates : Crates) (profile : Profile) (op : ExecOp) (result : SandboxResult ExecResult) :
    ExecutorCalls → Prop
  | fs calls => Runs (FsExecutor.execute crates profile.limits false op).run calls result
  | process calls => Runs (ProcessExecutor.execute crates profile false op).run calls result

/-- A call can have had the effect. -/
def Possible (effect : Effect) : ExecutorCalls → Prop
  | fs calls => ∃ call ∈ calls, call.1.effect? = some effect
  | process calls => ∃ call ∈ calls, call.1.effect? = some effect

/-- A call has had the effect: a file was opened for writing, or a process has run to its
end. -/
def Certain (effect : Effect) : ExecutorCalls → Prop
  | fs calls => ∃ path, ⟨.createFile path, true⟩ ∈ calls ∧ effect = .file path
  | process calls => ∃ tool args currentDir found,
      ⟨.output tool args currentDir, some found⟩ ∈ calls ∧ effect = .process tool args

/-- The calls have had these effects. A call that fails may have had its effect, and a
directory that is made may have been there. -/
structure HasEffects (executed : ExecutorCalls) (effects : Set Effect) : Prop where
  possible : ∀ effect ∈ effects, executed.Possible effect
  certain : ∀ effect, executed.Certain effect → effect ∈ effects

/-- No call has failed. -/
def Succeeded (profile : Profile) (op : ExecOp) : ExecutorCalls → Prop
  | fs calls => ∀ call ∈ calls, FsCall.failed call = false
  | process calls => ∀ call ∈ calls, ProcessCall.failed profile op call = false

end ExecutorCalls

/-- The record is one of the effect. -/
def SideEffectRecord.IsFor (record : SideEffectRecord) : Effect → Prop
  | .directory steps => ∃ path, record.metadata.get "path" = some (.string path) ∧
      LexicalPath.components path = steps
  | .file path => record.kind = .write ∧ record.metadata.get "path" = some (.string path)
  | .process tool args => record.kind = .process ∧
      record.metadata.get "tool" = some (.string tool) ∧
      record.metadata.get "args" = some (.array (args.map .string))

/-- The end of the evidence has a record of each effect. -/
def Evidenced (calls : List SandboxCall) (effects : Set Effect) : Prop :=
  ∀ effect ∈ effects, ∃ ended, ⟨.emit (.finish ended), ()⟩ ∈ calls ∧
    ∃ record ∈ ended.sideEffects, record.IsFor effect

/-- The calls have had no effect, or one has failed, or all is recorded but the
directories. -/
inductive ExecutorCourse (profile : Profile) (op : ExecOp) (executed : ExecutorCalls) :
    SandboxResult ExecResult → Prop
  | idle {result : SandboxResult ExecResult} (hnone : ∀ effect, ¬executed.Possible effect) :
      ExecutorCourse profile op executed result
  | failed (error : SandboxError) (hfailed : ¬executed.Succeeded profile op) :
      ExecutorCourse profile op executed (.error error)
  | recorded (execResult : ExecResult) (hsucceeded : executed.Succeeded profile op)
      (hrecords : ∀ effect, executed.Possible effect →
        ((∃ record ∈ execResult.sideEffects, record.IsFor effect) ↔
          effect.isDirectory = false)) :
      ExecutorCourse profile op executed (.ok execResult)

namespace FsComputation

variable {α β : Type} {calls : List (Sigma FsCall.Answer)} {result : SandboxResult β}

theorem runs_ofResult_bind {given : SandboxResult α} {second : α → FsComputation β}
    (h : Runs (ofResult given >>= second).run calls result) :
    (∃ error, calls = [] ∧ result = .error error) ∨
      ∃ value, given = .ok value ∧ Runs (second value).run calls result := by
  cases given with
  | error error => exact .inl ⟨error, runs_done_iff.mp h⟩
  | ok value => exact .inr ⟨value, rfl, h⟩

theorem runs_call_bind {fsCall : FsCall} {second : fsCall.Answer → FsComputation β}
    (h : Runs (call fsCall >>= second).run calls result) :
    ∃ answer rest, calls = ⟨fsCall, answer⟩ :: rest ∧ Runs (second answer).run rest result :=
  runs_call_iff.mp h

theorem runs_require {fsCall : FsCall} {ok : fsCall.Answer → Bool} {detail : String}
    {outcome : SandboxResult Unit} (h : Runs (require fsCall ok detail).run calls outcome) :
    ∃ answer, calls = [⟨fsCall, answer⟩] ∧
      ((ok answer = false ∧ ∃ error, outcome = .error error) ∨
        ok answer = true ∧ outcome = .ok ()) := by
  obtain ⟨answer, rest, rfl, hrest⟩ := runs_call_bind h
  refine ⟨answer, ?_⟩
  cases hok : ok answer with
  | false =>
      rw [hok] at hrest
      obtain ⟨rfl, rfl⟩ := runs_done_iff.mp hrest
      exact ⟨rfl, .inl ⟨rfl, _, rfl⟩⟩
  | true =>
      rw [hok] at hrest
      obtain ⟨rfl, rfl⟩ := runs_done_iff.mp hrest
      exact ⟨rfl, .inr ⟨rfl, rfl⟩⟩

/-- A call that has to succeed, and what follows it. -/
theorem runs_require_bind {fsCall : FsCall} {ok : fsCall.Answer → Bool} {detail : String}
    {second : Unit → FsComputation β}
    (h : Runs (require fsCall ok detail >>= second).run calls result) :
    (∃ answer error, calls = [⟨fsCall, answer⟩] ∧ ok answer = false ∧ result = .error error) ∨
      ∃ answer rest, calls = ⟨fsCall, answer⟩ :: rest ∧ ok answer = true ∧
        Runs (second ()).run rest result := by
  rcases runs_fallible_bind_iff.mp h with ⟨error, hfirst, rfl⟩ | ⟨_, _, rest, rfl, hfirst, hrest⟩
  · obtain ⟨answer, rfl, ⟨hanswer, _⟩ | ⟨_, hok⟩⟩ := runs_require hfirst
    · exact .inl ⟨answer, error, rfl, hanswer, rfl⟩
    · cases hok
  · obtain ⟨answer, rfl, ⟨_, _, herror⟩ | ⟨hanswer, _⟩⟩ := runs_require hfirst
    · cases herror
    · exact .inr ⟨answer, rest, rfl, hanswer, hrest⟩

end FsComputation

namespace FsExecutor

open FsComputation

variable {crates : Crates} {limits : Limits} {path dataB64 : String} {overwrite : Bool}
variable {calls : List (Sigma FsCall.Answer)} {result : SandboxResult ExecResult}

/-- The calls that create a file and write it. -/
theorem calls_of_create {bytes : List UInt8}
    (h : Runs (do
      require (.createFile path) id "failed to open file for write"
      require (.writeAll bytes) id "failed to write file"
      return writeResult path bytes : FsComputation ExecResult).run calls result) :
    (∃ error, result = .error error ∧ ∃ call ∈ calls, FsCall.failed call = true) ∨
      calls = [⟨.createFile path, true⟩, ⟨.writeAll bytes, true⟩] ∧
        result = .ok (writeResult path bytes) := by
  rcases runs_require_bind h with
    ⟨answer, error, rfl, hanswer, rfl⟩ | ⟨answer, rest, rfl, hcreated, h⟩
  · exact .inl ⟨error, rfl, _, List.mem_singleton_self _, by simpa [FsCall.failed] using hanswer⟩
  · rcases runs_require_bind h with
      ⟨answer', error, rfl, hanswer, rfl⟩ | ⟨answer', rest, rfl, hwritten, h⟩
    · refine .inl ⟨error, rfl, ⟨.writeAll bytes, answer'⟩, by simp, ?_⟩
      simpa [FsCall.failed] using hanswer
    · obtain ⟨rfl, rfl⟩ := runs_done_iff.mp h
      cases hcreated
      cases hwritten
      exact .inr ⟨rfl, rfl⟩

/-- A parent directory that is made is not where the path leads. -/
theorem calls_of_createParent {outcome : SandboxResult Unit}
    (h : Runs (createParent path).run calls outcome) :
    (∃ error, outcome = .error error ∧ ∃ call ∈ calls, FsCall.failed call = true) ∨
      outcome = .ok () ∧ ∀ call ∈ calls, FsCall.failed call = false ∧
        ∃ steps, call.1.effect? = some (.directory steps) ∧
          LexicalPath.components path ≠ steps := by
  unfold createParent at h
  dsimp only at h
  split at h
  case isTrue hroot =>
    obtain ⟨rfl, rfl⟩ := runs_done_iff.mp h
    exact .inr ⟨rfl, nofun⟩
  case isFalse hparent =>
    obtain ⟨answer, rfl, ⟨hanswer, error, rfl⟩ | ⟨hanswer, rfl⟩⟩ := runs_require h
    · exact .inl ⟨error, rfl, _, List.mem_singleton_self _, by simpa [FsCall.failed] using hanswer⟩
    · refine .inr ⟨rfl, ?_⟩
      intro call hcall
      obtain rfl := List.mem_singleton.mp hcall
      refine ⟨by simpa [FsCall.failed] using hanswer, _, rfl, ?_⟩
      intro hsame
      have hlength := congrArg List.length hsame
      have hpos : 0 < (LexicalPath.components path).length :=
        List.length_pos_of_ne_nil fun hnil => hparent (.inl hnil)
      rw [List.length_dropLast] at hlength
      omega

/-- The effects of a write, if there are any, end with a failed call or with the record
of the file. -/
theorem calls_of_writeFile
    (h : Runs (writeFile crates limits path dataB64 overwrite).run calls result) :
    (∀ call ∈ calls, call.1.effect? = none) ∨
      (∃ error, result = .error error ∧ ∃ call ∈ calls, FsCall.failed call = true) ∨
        ∃ bytes, result = .ok (writeResult path bytes) ∧ ∀ call ∈ calls,
          FsCall.failed call = false ∧ ∀ effect, call.1.effect? = some effect →
            effect = .file path ∨
              ∃ steps, effect = .directory steps ∧ LexicalPath.components path ≠ steps := by
  rcases runs_ofResult_bind h with ⟨_, rfl, _⟩ | ⟨bytes, _, h⟩
  · exact .inl nofun
  rcases runs_ofResult_bind h with ⟨_, rfl, _⟩ | ⟨_, _, h⟩
  · exact .inl nofun
  obtain ⟨found, rest, rfl, hlooked⟩ := runs_call_bind h
  rcases runs_ofResult_bind hlooked with ⟨_, rfl, _⟩ | ⟨_, _, hfree⟩
  · refine .inl fun call hcall => ?_
    obtain rfl := List.mem_singleton.mp hcall
    rfl
  right
  rcases runs_fallible_bind_iff.mp hfree with
    ⟨error, hparent, rfl⟩ | ⟨_, _, _, rfl, hparent, hcreate⟩
  · rcases calls_of_createParent hparent with ⟨_, _, call, hcall, hfailed⟩ | ⟨hok, _⟩
    · exact .inl ⟨error, rfl, call, List.mem_cons_of_mem _ hcall, hfailed⟩
    · cases hok
  · rcases calls_of_createParent hparent with ⟨_, herror, _⟩ | ⟨_, hmade⟩
    · cases herror
    · rcases calls_of_create hcreate with ⟨error, rfl, call, hcall, hfailed⟩ | ⟨rfl, rfl⟩
      · exact .inl ⟨error, rfl, call, by simp [hcall], hfailed⟩
      · refine .inr ⟨bytes, rfl, ?_⟩
        intro call hcall
        rcases List.mem_cons.mp hcall with rfl | hcall
        · exact ⟨rfl, nofun⟩
        rcases List.mem_append.mp hcall with hcall | hcall
        · obtain ⟨hdone, steps, hdirectory, hother⟩ := hmade call hcall
          refine ⟨hdone, fun effect heffect => .inr ⟨steps, ?_, hother⟩⟩
          rw [hdirectory] at heffect
          exact (Option.some.inj heffect).symm
        · simp only [List.mem_cons, List.not_mem_nil, or_false] at hcall
          rcases hcall with rfl | rfl
          · exact ⟨rfl, fun effect heffect => .inl (Option.some.inj heffect).symm⟩
          · exact ⟨rfl, nofun⟩

theorem quiet_readFile {offset len : Option UInt64} :
    (readFile crates limits path offset len).run.CallsOnly (·.effect? = none) := by
  apply callsOnly_fallible_bind
  · exact callsOnly_require rfl
  intro _
  apply callsOnly_fallible_bind
  · cases offset with
    | none => exact Program.callsOnly_done _
    | some off => exact callsOnly_require rfl
  intro _
  apply callsOnly_fallible_bind
  · exact callsOnly_call rfl
  intro found
  exact callsOnly_fallible_bind (callsOnly_ofResult _) fun _ => callsOnly_ofResult _

theorem quiet_listDir : (listDir limits path).run.CallsOnly (·.effect? = none) := by
  apply callsOnly_fallible_bind
  · exact callsOnly_call rfl
  intro found
  apply callsOnly_fallible_bind (callsOnly_ofResult _)
  intro entries
  exact callsOnly_fallible_bind (callsOnly_ofResult _) fun _ => callsOnly_ofResult _

theorem course_of_quiet {profile : Profile} {op : ExecOp}
    (h : ∀ call ∈ calls, call.1.effect? = none) :
    ExecutorCourse profile op (.fs calls) result := by
  apply ExecutorCourse.idle
  rintro effect ⟨call, hcall, heffect⟩
  rw [h call hcall] at heffect
  cases heffect

/-- The record of the file is the record of the file only. -/
theorem isFor_writeResult_iff {bytes : List UInt8} {effect : Effect}
    (heffect : effect = .file path ∨
      ∃ steps, effect = .directory steps ∧ LexicalPath.components path ≠ steps) :
    (∃ record ∈ (writeResult path bytes).sideEffects, record.IsFor effect) ↔
      effect.isDirectory = false := by
  have hrecord : ∀ record ∈ (writeResult path bytes).sideEffects, record.kind = .write ∧
      Json.Value.get record.metadata "path" = some (.string path) := by
    intro record hmem
    obtain rfl := List.mem_singleton.mp hmem
    exact ⟨rfl, by simp [Json.Value.get, Json.Map.get]⟩
  rcases heffect with rfl | ⟨steps, rfl, hother⟩
  · refine iff_of_true ⟨_, List.mem_singleton_self _, hrecord _ (List.mem_singleton_self _)⟩ rfl
  · refine iff_of_false ?_ (by simp [Effect.isDirectory])
    rintro ⟨record, hmem, found, hfound, hsteps⟩
    rw [(hrecord record hmem).2] at hfound
    cases hfound
    exact hother hsteps

theorem course_of_runs {profile : Profile} {op : ExecOp}
    (h : Runs (execute crates profile.limits false op).run calls result) :
    ExecutorCourse profile op (.fs calls) result := by
  cases op with
  | fsRead path offset len => exact course_of_quiet (quiet_readFile.of_runs h)
  | fsList path => exact course_of_quiet (quiet_listDir.of_runs h)
  | fsWrite path dataB64 overwrite =>
      rcases calls_of_writeFile h with
        hquiet | ⟨error, rfl, call, hcall, hfailed⟩ | ⟨bytes, rfl, hcalls⟩
      · exact course_of_quiet hquiet
      · apply ExecutorCourse.failed
        intro hsucceeded
        rw [hsucceeded call hcall] at hfailed
        cases hfailed
      · apply ExecutorCourse.recorded
        · exact fun call hcall => (hcalls call hcall).1
        · rintro effect ⟨call, hcall, heffect⟩
          exact isFor_writeResult_iff ((hcalls call hcall).2 effect heffect)
  | netHttp _ _ _ _ | browserNav _ | browserScreenshot _ _ | procExec _ _ _ | tmpAlloc _ =>
      obtain ⟨rfl, _⟩ := runs_done_iff.mp h
      exact course_of_quiet nofun

end FsExecutor

namespace ProcessComputation

variable {α β : Type} {calls : List (Sigma ProcessCall.Answer)} {result : SandboxResult β}

theorem runs_ofResult_bind {given : SandboxResult α} {second : α → ProcessComputation β}
    (h : Runs (ofResult given >>= second).run calls result) :
    (∃ error, given = .error error ∧ calls = [] ∧ result = .error error) ∨
      ∃ value, given = .ok value ∧ Runs (second value).run calls result := by
  cases given with
  | error error => exact .inl ⟨error, rfl, runs_done_iff.mp h⟩
  | ok value => exact .inr ⟨value, rfl, h⟩

theorem runs_call_bind {processCall : ProcessCall}
    {second : processCall.Answer → ProcessComputation β}
    (h : Runs (call processCall >>= second).run calls result) :
    ∃ answer rest, calls = ⟨processCall, answer⟩ :: rest ∧
      Runs (second answer).run rest result :=
  runs_call_iff.mp h

end ProcessComputation

namespace ProcessExecutor

open ProcessComputation

variable {crates : Crates} {profile : Profile} {op : ExecOp} {tool : String}
variable {args : List String} {timeoutMs : Option UInt64}
variable {calls : List (Sigma ProcessCall.Answer)} {result : SandboxResult ExecResult}

theorem course_of_nil {profile : Profile} {op : ExecOp} :
    ExecutorCourse profile op (.process []) result := by
  apply ExecutorCourse.idle
  rintro effect ⟨call, hcall, _⟩
  cases hcall

theorem not_succeeded {call : Sigma ProcessCall.Answer} (hcall : call ∈ calls)
    (hfailed : ProcessCall.failed profile op call = true) :
    ¬(ExecutorCalls.process calls).Succeeded profile op := by
  intro hsucceeded
  rw [hsucceeded call hcall] at hfailed
  cases hfailed

/-- The check of the output and the result. -/
theorem outputResult_cases {output : ProcessOutput}
    (h : result = outputResult crates profile.limits tool args output) :
    (∃ error, result = .error error ∧ profile.limits.maxBytesIn.any
        (UInt64.ofNat output.stdout.length + UInt64.ofNat output.stderr.length > ·) = true) ∨
      ∃ execResult, result = .ok execResult ∧ profile.limits.maxBytesIn.any
          (UInt64.ofNat output.stdout.length + UInt64.ofNat output.stderr.length > ·) = false ∧
        ∃ record ∈ execResult.sideEffects, record.IsFor (.process tool args) := by
  cases hany : profile.limits.maxBytesIn.any
      (UInt64.ofNat output.stdout.length + UInt64.ofNat output.stderr.length > ·) with
  | true =>
      rw [outputResult, hany] at h
      exact .inl ⟨_, h, rfl⟩
  | false =>
      rw [outputResult, hany] at h
      refine .inr ⟨_, h, rfl, _, List.mem_singleton_self _, ?_⟩
      simp [SideEffectRecord.IsFor, Json.Value.get, Json.Map.get]

theorem course_of_runTool
    (h : Runs (runTool crates profile tool args timeoutMs).run calls result) :
    ExecutorCourse profile (.procExec tool args timeoutMs) (.process calls) result := by
  rcases runs_ofResult_bind h with ⟨_, _, rfl, _⟩ | ⟨_, _, h⟩
  · exact course_of_nil
  rcases runs_ofResult_bind h with ⟨_, _, rfl, _⟩ | ⟨_, _, h⟩
  · exact course_of_nil
  obtain ⟨found, rest, rfl, hspawned⟩ := runs_call_bind h
  rcases runs_ofResult_bind hspawned with ⟨error, hnone, rfl, rfl⟩ | ⟨output, hsome, hended⟩
  · apply ExecutorCourse.failed
    cases found with
    | none => exact not_succeeded (List.mem_singleton_self _) rfl
    | some output => cases hnone
  obtain rfl := okOr_eq_ok_iff.mp hsome
  obtain ⟨elapsed, rest, rfl, htimed⟩ := runs_call_bind hended
  rcases runs_ofResult_bind htimed with ⟨error, hlate, rfl, rfl⟩ | ⟨_, hintime, hreturned⟩
  · apply ExecutorCourse.failed
    exact not_succeeded (List.mem_cons_of_mem _ (List.mem_singleton_self _))
      (condition_of_rejectIf_eq_error hlate)
  obtain ⟨rfl, hresult⟩ := runs_done_iff.mp hreturned
  rcases outputResult_cases hresult with
    ⟨error, rfl, hmuch⟩ | ⟨execResult, rfl, hwithin, hrecord⟩
  · exact .failed error (not_succeeded List.mem_cons_self hmuch)
  · apply ExecutorCourse.recorded
    · intro call hcall
      simp only [List.mem_cons, List.not_mem_nil, or_false] at hcall
      rcases hcall with rfl | rfl
      · exact hwithin
      · exact rejectIf_eq_ok_iff.mp hintime
    · rintro effect ⟨call, hcall, heffect⟩
      simp only [List.mem_cons, List.not_mem_nil, or_false] at hcall
      rcases hcall with rfl | rfl
      · obtain rfl := Option.some.inj heffect
        exact iff_of_true hrecord rfl
      · cases heffect

theorem course_of_runs (h : Runs (execute crates profile false op).run calls result) :
    ExecutorCourse profile op (.process calls) result := by
  rcases runs_ofResult_bind h with ⟨_, herror, _⟩ | ⟨_, _, h⟩
  · cases herror
  cases op with
  | procExec tool args timeoutMs => exact course_of_runTool h
  | fsRead _ _ _ | fsWrite _ _ _ | fsList _ | netHttp _ _ _ _ | browserNav _
  | browserScreenshot _ _ | tmpAlloc _ =>
      obtain ⟨rfl, _⟩ := runs_done_iff.mp h
      exact course_of_nil

end ProcessExecutor

namespace ExecutorCalls

variable {crates : Crates} {profile : Profile} {op : ExecOp} {executed : ExecutorCalls}
variable {result : SandboxResult ExecResult}

theorem course_of_run (h : executed.Run crates profile op result) :
    ExecutorCourse profile op executed result := by
  cases executed with
  | fs calls => exact FsExecutor.course_of_runs h
  | process calls => exact ProcessExecutor.course_of_runs h

/-- What the executor returns passes the check of the limits. -/
theorem withinLimits_of_run {execResult : ExecResult}
    (h : executed.Run crates profile op (.ok execResult)) :
    ensureUsageWithinLimits profile execResult.usage = .ok () := by
  apply ensureUsageWithinLimits_eq_ok_iff.mpr
  cases executed with
  | fs calls => exact (FsExecutor.reports calls execResult h).within
  | process calls => exact (ProcessExecutor.reports calls execResult h).within

end ExecutorCalls

/-! ## The end of the evidence -/

section Ended

variable {sandbox : Sandbox} {request : ExecuteRequest} {calls : List SandboxCall}
variable {result : SandboxResult ExecutionOutcome} {clearance : Clearance sandbox request}
variable {startedAt : DateTime} {kind : CapabilityKind} {profile : Profile} {op : ExecOp}
variable {answer other : SandboxResult ExecResult} {rest : List SandboxCall}

/-- No evidence is ended before the executor is called. -/
theorem finish_notMem_opening {ended : EndEvidence} :
    ⟨.emit (.finish ended), ()⟩ ∉ clearance.opening startedAt := by
  intro hmem
  rcases List.mem_append.mp hmem with hcheck | hopened
  · cases clearance.checks _ hcheck
  · simp [Clearance.opened, Clearance.beginEvent] at hopened

theorem mem_executed_iff {call : SandboxCall} (hcall : call.1.isExecute = true)
    (hrest : ∀ call ∈ rest, call.1.isExecute = false) :
    call ∈ clearance.opening startedAt ++ clearance.executed answer :: rest ↔
      call = clearance.executed answer := by
  constructor
  · intro hmem
    rcases List.mem_append.mp hmem with hopening | hmem
    · rw [clearance.opening_isExecute startedAt _ hopening] at hcall
      cases hcall
    · rcases List.mem_cons.mp hmem with hsame | hmem
      · exact hsame
      · rw [hrest _ hmem] at hcall
        cases hcall
  · rintro rfl
    simp

theorem mem_ended_iff {ended : EndEvidence} :
    ⟨.emit (.finish ended), ()⟩ ∈ clearance.opening startedAt ++ clearance.executed answer :: rest ↔
      ⟨.emit (.finish ended), ()⟩ ∈ rest := by
  rw [List.mem_append, List.mem_cons]
  constructor
  · rintro (hopening | hexecuted | hrest)
    · cases finish_notMem_opening hopening
    · cases hexecuted
    · exact hrest
  · exact fun hrest => .inr (.inr hrest)

/-- The records of an answer. -/
def recordsOf : SandboxResult ExecResult → List SideEffectRecord
  | .ok execResult => execResult.sideEffects
  | .error _ => []

/-- Where an executor was called, and its result is within the limits, the evidence is
ended, with the records of the result. -/
theorem ended_of_course (hcourse : Course sandbox request calls result)
    (hexecute : ⟨.execute kind profile op, answer⟩ ∈ calls)
    (hwithin : ∀ execResult, answer = .ok execResult →
      ensureUsageWithinLimits profile execResult.usage = .ok ()) :
    (∃ ended, ⟨.emit (.finish ended), ()⟩ ∈ calls) ∧
      ∀ ended, ⟨.emit (.finish ended), ()⟩ ∈ calls → ended.sideEffects = recordsOf answer := by
  cases hcourse with
  | refused hchecks => cases hchecks _ hexecute
  | unreserved clearance error =>
      rcases List.mem_append.mp hexecute with hcheck | hreserve
      · cases clearance.checks _ hcheck
      · cases List.mem_singleton.mp hreserve
  | failed clearance startedAt finishedAt err =>
      cases (mem_executed_iff rfl (by simp [SandboxOp.isExecute])).mp hexecute
      simp only [mem_ended_iff]
      constructor
      · exact ⟨_, List.mem_cons_of_mem _ (List.mem_cons_of_mem _ List.mem_cons_self)⟩
      · intro ended hended
        simp only [List.mem_cons, List.not_mem_nil, or_false] at hended
        rcases hended with hended | hended | hended <;> cases hended
        rfl
  | overused clearance startedAt execResult error husage =>
      cases (mem_executed_iff rfl (by simp)).mp hexecute
      rw [hwithin execResult rfl] at husage
      cases husage
  | finished clearance startedAt finishedAt execResult husage =>
      cases (mem_executed_iff rfl (by simp [SandboxOp.isExecute])).mp hexecute
      simp only [mem_ended_iff]
      constructor
      · exact ⟨_, List.mem_cons_of_mem _ (List.mem_cons_of_mem _ List.mem_cons_self)⟩
      · intro ended hended
        simp only [List.mem_cons, List.not_mem_nil, or_false] at hended
        rcases hended with hended | hended | hended <;> cases hended
        rfl

end Ended

/-- Every effect of a file system executor or a process executor is recorded iff it has
had none, or no directory was made and none of its calls has failed. -/
theorem evidenced_iff_succeeded (sandbox : Sandbox) (request : ExecuteRequest)
    (calls : List SandboxCall) (result : SandboxResult ExecutionOutcome) (kind : CapabilityKind)
    (profile : Profile) (op : ExecOp) (answer : SandboxResult ExecResult)
    (executed : ExecutorCalls) (effects : Set Effect)
    (hruns : Runs (sandbox.execute request).run calls result)
    (hexecute : ⟨.execute kind profile op, answer⟩ ∈ calls)
    (hrun : executed.Run sandbox.crates profile op answer)
    (heffects : executed.HasEffects effects) :
    Evidenced calls effects ↔
      effects = ∅ ∨
        (∀ effect ∈ effects, effect.isDirectory = false) ∧ executed.Succeeded profile op := by
  obtain ⟨⟨ended, hended⟩, hrecords⟩ := ended_of_course (course_of_runs hruns) hexecute
    fun execResult hok => ExecutorCalls.withinLimits_of_run (hok ▸ hrun)
  have hevidenced : Evidenced calls effects ↔
      ∀ effect ∈ effects, ∃ record ∈ recordsOf answer, record.IsFor effect := by
    constructor
    · intro h effect heffect
      obtain ⟨given, hgiven, hrecord⟩ := h effect heffect
      rwa [hrecords given hgiven] at hrecord
    · intro h effect heffect
      refine ⟨ended, hended, ?_⟩
      rw [hrecords ended hended]
      exact h effect heffect
  rw [hevidenced]
  cases ExecutorCalls.course_of_run hrun with
  | idle hnone =>
      have hempty : effects = ∅ := by
        ext effect
        exact iff_of_false (fun hmem => hnone effect (heffects.possible effect hmem)) nofun
      exact iff_of_true (by simp [hempty]) (.inl hempty)
  | failed error hfailed =>
      constructor
      · intro h
        left
        ext effect
        refine iff_of_false (fun hmem => ?_) nofun
        obtain ⟨record, hrecord, _⟩ := h effect hmem
        cases hrecord
      · rintro (rfl | ⟨_, hsucceeded⟩)
        · exact nofun
        · exact absurd hsucceeded hfailed
  | recorded execResult hsucceeded hkept =>
      have hdirectories :
          (∀ effect ∈ effects, ∃ record ∈ execResult.sideEffects, record.IsFor effect) ↔
            ∀ effect ∈ effects, effect.isDirectory = false :=
        forall₂_congr fun effect hmem => hkept effect (heffects.possible effect hmem)
      constructor
      · exact fun h => .inr ⟨hdirectories.mp h, hsucceeded⟩
      · rintro (rfl | ⟨hnone, _⟩)
        · exact nofun
        · exact hdirectories.mpr hnone

namespace Chatty

/-- Running `cat` is granted, with a consent. -/
def grant : Grant :=
  { Grant.forCall "shell" [.procExec "cat"] with
    consent := some { scopes := [], expiresAt := none, purpose := none } }

/-- A profile under which a process may not write anything. -/
def profile : Profile :=
  { grant.profile with
    sideEffects := [.process]
    limits := { maxBytesIn := some 0 }
    whitelists := { tools := ["cat"] } }

/-- `cat` without arguments. -/
def op : ExecOp := .procExec "cat" [] none

/-- The request. -/
def request : ExecuteRequest := grant.request op

/-- A sandbox with the executor of processes. -/
def sandbox : Sandbox where
  crates := .ascii
  registered kind := kind = .procExec

variable (written : List UInt8)

/-- The process writes this at once. -/
def processReply : (processCall : ProcessCall) → processCall.Answer
  | .output .. => some { code := some 0, stdout := written, stderr := [] }
  | .elapsed => 0

/-- The calls of the executor and its answer. -/
def execution : List (Sigma ProcessCall.Answer) × SandboxResult ExecResult :=
  (ProcessExecutor.execute sandbox.crates profile false op).run.answered (processReply written)

/-- Nothing else fails. -/
def reply : (op : SandboxOp) → op.Answer
  | .now => ⟨0⟩
  | .isRevoked _ => .ok false
  | .build .. => .ok profile
  | .validate profile capability => DefaultPolicyGuard.validate profile capability
  | .reserve _ => .ok ()
  | .commit _ => ()
  | .rollback _ => ()
  | .emit _ => ()
  | .execute .. => (execution written).2

/-- The calls of the request and its result. -/
def run : List SandboxCall × SandboxResult ExecutionOutcome :=
  (sandbox.execute request).run.answered (reply written)

/-- The process was run. -/
def effects : Set Effect := {.process "cat" []}

theorem hasEffects :
    (ExecutorCalls.process (execution written).1).HasEffects effects where
  possible := by
    rintro effect rfl
    exact ⟨_, List.mem_cons_self, rfl⟩
  certain := by
    rintro effect ⟨tool, args, currentDir, found, hmem, rfl⟩
    rcases List.mem_cons.mp hmem with hcall | hmem
    · cases hcall
      rfl
    · cases List.mem_singleton.mp hmem

theorem mem_run : ⟨.execute .procExec profile op, (execution written).2⟩ ∈ (run written).1 :=
  List.mem_of_getElem? (i := 6) rfl

end Chatty

/-- A process that writes nothing. -/
theorem evidenced_iff_succeeded_silent :
    Evidenced (Chatty.run []).1 Chatty.effects ↔
      Chatty.effects = ∅ ∨ (∀ effect ∈ Chatty.effects, effect.isDirectory = false) ∧
        (ExecutorCalls.process (Chatty.execution []).1).Succeeded Chatty.profile Chatty.op :=
  evidenced_iff_succeeded Chatty.sandbox Chatty.request _ (Chatty.run []).2 _ _ _ _ _ _
    (runs_answered (Chatty.reply []) _) (Chatty.mem_run [])
    (runs_answered (Chatty.processReply []) _) (Chatty.hasEffects [])

/-- A process that has written a byte was run, and no record says so. -/
theorem not_evidenced_chatty :
    ¬∀ (sandbox : Sandbox) (request : ExecuteRequest) (calls : List SandboxCall)
      (result : SandboxResult ExecutionOutcome) (kind : CapabilityKind) (profile : Profile)
      (op : ExecOp) (answer : SandboxResult ExecResult) (executed : ExecutorCalls)
      (effects : Set Effect),
      Runs (sandbox.execute request).run calls result →
        ⟨.execute kind profile op, answer⟩ ∈ calls →
          executed.Run sandbox.crates profile op answer → executed.HasEffects effects →
            Evidenced calls effects := by
  intro h
  have hruns := runs_answered (Chatty.reply [7]) (Chatty.sandbox.execute Chatty.request).run
  have hexecuted := runs_answered (Chatty.processReply [7])
    (ProcessExecutor.execute Chatty.sandbox.crates Chatty.profile false Chatty.op).run
  have hevidenced := h Chatty.sandbox Chatty.request _ _ .procExec Chatty.profile Chatty.op
    (Chatty.execution [7]).2 (.process (Chatty.execution [7]).1) Chatty.effects hruns
    (Chatty.mem_run [7]) hexecuted (Chatty.hasEffects [7])
  obtain ⟨ended, hended, record, hrecord, _⟩ := hevidenced _ (Set.mem_singleton _)
  rw [(ended_of_course (course_of_runs hruns) (Chatty.mem_run [7]) nofun).2 ended hended]
    at hrecord
  cases hrecord

end Soulbase.Sandbox
