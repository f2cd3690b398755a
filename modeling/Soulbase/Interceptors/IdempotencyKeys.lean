/-
# Requests under one key

The key of the store joins the tenant, the method, the path and the key of the client with colons.
All but the method may contain colons, and a request without a tenant is filed under the text
`unknown`, which may also be the name of a tenant. So requests that have nothing to do with each
other may share a response: a path and a key are also a longer path and the rest of the key.
`keysApart_iff` says which requests are confused.
-/

import Soulbase.Interceptors.Service

namespace Soulbase.Interceptors

open Soulbase.Foundation

/-- The tenant of the header, or that of the subject, if there is one. -/
def InterceptContext.keyTenant (cx : InterceptContext) : Option String :=
  cx.tenantHeader.or (cx.subject.map (·.tenant.asStr))

/-- What a request is told apart by: its tenant, its method in upper case, its path and the
trimmed key of its client. -/
structure RequestIdentity where
  tenant : Option String
  method : String
  path : String
  key : String
  deriving DecidableEq

namespace RequestIdentity

/-- The text that stands for the tenant. -/
def tenantText (identity : RequestIdentity) : String := identity.tenant.getD "unknown"

/-- What follows the tenant in the key. -/
def rest (identity : RequestIdentity) : String :=
  identity.method ++ ":" ++ (identity.path ++ ":" ++ identity.key)

/-- The key of the store. -/
def storeKey (identity : RequestIdentity) : String := identity.tenantText ++ ":" ++ identity.rest

/-- A request that is confused with another one: it has no tenant where the other is of the tenant
`unknown`, or the path of the other continues after a colon with what the key begins with, or
the tenant of the other does with what the method, the path and the key begin with. -/
inductive RunsInto (identity other : RequestIdentity) : Prop
  | unnamed (htenant : identity.tenant = none) (hother : other.tenant = some "unknown")
      (hmethod : identity.method = other.method) (hpath : identity.path = other.path)
      (hkey : identity.key = other.key)
  | path (middle : String) (htenant : identity.tenantText = other.tenantText)
      (hmethod : identity.method = other.method)
      (hpath : other.path = identity.path ++ ":" ++ middle)
      (hkey : identity.key = middle ++ ":" ++ other.key)
  | tenant (middle : String) (htenant : other.tenantText = identity.tenantText ++ ":" ++ middle)
      (hrest : identity.rest = middle ++ ":" ++ other.rest)

end RequestIdentity

namespace IdempotencyStage

/-- The identity of a request that reaches the stage with a layer, one of the methods and a key
that is not blank. -/
def identity (crates : Crates) (stage : IdempotencyStage) (cx : InterceptContext)
    (req : ProtoRequest) : Option RequestIdentity :=
  let method := Text.toUppercase crates.upper req.method
  match stage.layer, req.header "Idempotency-Key" with
  | some _, some rawKey =>
      if method ∈ idempotentMethods ∧ Text.trim rawKey ≠ "" then
        some ⟨cx.keyTenant, method, req.path, Text.trim rawKey⟩
      else none
  | _, _ => none

/-- Requests that are looked up under one key are of one tenant, method, path and key. -/
def KeysApart (crates : Crates) (stage stage' : IdempotencyStage) (cx cx' : InterceptContext)
    (req req' : ProtoRequest) : Prop :=
  ∀ key, stage.lookupKey crates cx req = some key → stage'.lookupKey crates cx' req' = some key →
    stage.identity crates cx req = stage'.identity crates cx' req'

end IdempotencyStage

section Keys

variable {identity other : RequestIdentity}

/-- Texts that are joined with colons are the same if they are cut at different colons. -/
theorem join_colon_iff {text rest text' rest' : String} :
    text ++ ":" ++ rest = text' ++ ":" ++ rest' ↔
      (text = text' ∧ rest = rest') ∨
        (∃ middle, text' = text ++ ":" ++ middle ∧ rest = middle ++ ":" ++ rest') ∨
          ∃ middle, text = text' ++ ":" ++ middle ∧ rest' = middle ++ ":" ++ rest := by
  have hcolon : String.singleton ':' = ":" := rfl
  have hjoin := @join_eq_join_iff ':' text rest text' rest'
  rwa [hcolon] at hjoin

/-- A text does not go on after itself. -/
theorem ne_append_colon (text middle : String) : text ≠ text ++ ":" ++ middle := by
  intro h
  have hlength := congrArg String.length h
  have hcolon : ":".length = 1 := rfl
  rw [String.length_append, String.length_append, hcolon] at hlength
  omega

namespace RequestIdentity

/-- A method, which has no colon, is read back. -/
theorem rest_eq_iff (hmethod : ':' ∉ identity.method.toList) (hother : ':' ∉ other.method.toList) :
    identity.rest = other.rest ↔ identity.method = other.method ∧
      identity.path ++ ":" ++ identity.key = other.path ++ ":" ++ other.key := by
  rw [rest, rest, join_colon_iff]
  constructor
  · rintro (hsame | ⟨middle, hlonger, _⟩ | ⟨middle, hlonger, _⟩)
    · exact hsame
    · exact absurd (by simp [hlonger]) hother
    · exact absurd (by simp [hlonger]) hmethod
  · exact .inl

/-- Tenants that have one text are the same, unless there is none and the other is `unknown`. -/
theorem tenantText_eq_iff : identity.tenantText = other.tenantText ↔
    identity.tenant = other.tenant ∨
      (identity.tenant = none ∧ other.tenant = some "unknown") ∨
        (other.tenant = none ∧ identity.tenant = some "unknown") := by
  unfold tenantText
  cases identity.tenant <;> cases other.tenant <;> simp [eq_comm]

/-- A request that runs into another one has its key. -/
theorem RunsInto.storeKey_eq (h : identity.RunsInto other) :
    identity.storeKey = other.storeKey := by
  cases h with
  | unnamed htenant hother hmethod hpath hkey =>
      have htext : identity.tenantText = other.tenantText :=
        tenantText_eq_iff.mpr (.inr (.inl ⟨htenant, hother⟩))
      rw [storeKey, storeKey, rest, rest, htext, hmethod, hpath, hkey]
  | path middle htenant hmethod hpath hkey =>
      rw [storeKey, storeKey, rest, rest, htenant, hmethod, hpath, hkey]
      simp only [String.append_assoc]
  | tenant middle htenant hrest =>
      rw [storeKey, storeKey, htenant, hrest]
      simp only [String.append_assoc]

/-- It is another request. -/
theorem RunsInto.ne (h : identity.RunsInto other) : identity ≠ other := by
  rintro rfl
  cases h with
  | unnamed htenant hother _ _ _ => exact absurd (htenant.symm.trans hother) (by simp)
  | path middle _ _ hpath _ => exact ne_append_colon _ _ hpath
  | tenant middle htenant _ => exact ne_append_colon _ _ htenant

/-- Keys of the store are the same exactly if the requests are, or one runs into the other. -/
theorem storeKey_eq_iff (hmethod : ':' ∉ identity.method.toList)
    (hother : ':' ∉ other.method.toList) :
    identity.storeKey = other.storeKey ↔
      identity = other ∨ identity.RunsInto other ∨ other.RunsInto identity := by
  constructor
  · intro hkeys
    rw [storeKey, storeKey, join_colon_iff, rest_eq_iff hmethod hother, join_colon_iff] at hkeys
    rcases hkeys with ⟨htenant, hmethods, ⟨hpath, hkey⟩ | ⟨middle, hpath, hkey⟩ |
      ⟨middle, hpath, hkey⟩⟩ | ⟨middle, htenant, hrest⟩ | ⟨middle, htenant, hrest⟩
    · rcases tenantText_eq_iff.mp htenant with hsame | ⟨hnone, hunknown⟩ | ⟨hnone, hunknown⟩
      · obtain ⟨tenant, method, path, key⟩ := identity
        obtain rfl : tenant = other.tenant := hsame
        obtain rfl : method = other.method := hmethods
        obtain rfl : path = other.path := hpath
        obtain rfl : key = other.key := hkey
        exact .inl rfl
      · exact .inr (.inl (.unnamed hnone hunknown hmethods hpath hkey))
      · exact .inr (.inr (.unnamed hnone hunknown hmethods.symm hpath.symm hkey.symm))
    · exact .inr (.inl (.path middle htenant hmethods hpath hkey))
    · exact .inr (.inr (.path middle htenant.symm hmethods.symm hpath hkey))
    · exact .inr (.inl (.tenant middle htenant hrest))
    · exact .inr (.inr (.tenant middle htenant hrest))
  · rintro (rfl | hinto | hinto)
    · rfl
    · exact hinto.storeKey_eq
    · exact hinto.storeKey_eq.symm

end RequestIdentity

end Keys

namespace IdempotencyStage

section Requests

variable {crates : Crates} {stage stage' : IdempotencyStage} {cx cx' : InterceptContext}
variable {req req' : ProtoRequest} {found found' : RequestIdentity}

/-- The key of a request is that of its identity. -/
theorem lookupKey_eq : stage.lookupKey crates cx req =
    (stage.identity crates cx req).map RequestIdentity.storeKey := by
  unfold lookupKey identity
  cases stage.layer with
  | none => rfl
  | some layer =>
      cases req.header "Idempotency-Key" with
      | none => rfl
      | some rawKey =>
          dsimp only
          split
          · simp only [Option.map_some, RequestIdentity.storeKey, RequestIdentity.rest,
              RequestIdentity.tenantText, buildIdempotencyKey, InterceptContext.keyTenant,
              String.append_assoc]
          · rfl

/-- None of the methods has a colon. -/
theorem colon_not_mem_of_identity (h : stage.identity crates cx req = some found) :
    ':' ∉ found.method.toList := by
  have hmethods : ∀ method ∈ idempotentMethods, ':' ∉ method.toList := by decide
  unfold identity at h
  cases hlayer : stage.layer with
  | none => simp [hlayer] at h
  | some layer =>
      cases hheader : req.header "Idempotency-Key" with
      | none => simp [hlayer, hheader] at h
      | some rawKey =>
          simp only [hlayer, hheader] at h
          split at h
          case isFalse => cases h
          case isTrue hkeyed =>
            cases h
            exact hmethods _ hkeyed.1

end Requests

/-- Requests are told apart by their keys exactly if neither runs into the other. -/
theorem keysApart_iff (crates : Crates) (stage stage' : IdempotencyStage)
    (cx cx' : InterceptContext) (req req' : ProtoRequest) :
    KeysApart crates stage stage' cx cx' req req' ↔
      ∀ found ∈ stage.identity crates cx req, ∀ other ∈ stage'.identity crates cx' req',
        ¬found.RunsInto other ∧ ¬other.RunsInto found := by
  unfold KeysApart
  rw [lookupKey_eq, lookupKey_eq]
  cases hfound : stage.identity crates cx req with
  | none => simp
  | some found =>
      cases hother : stage'.identity crates cx' req' with
      | none => simp
      | some other =>
          have hkeys := RequestIdentity.storeKey_eq_iff (colon_not_mem_of_identity hfound)
            (colon_not_mem_of_identity hother)
          constructor
          · rintro h _ ⟨⟩ _ ⟨⟩
            have hsame : found.storeKey = other.storeKey → found = other :=
              fun hkey => Option.some.inj (h _ (congrArg some hkey) rfl)
            constructor
            · exact fun hinto => hinto.ne (hsame hinto.storeKey_eq)
            · exact fun hback => hback.ne (hsame hback.storeKey_eq.symm).symm
          · intro h key hkey hkey'
            obtain ⟨hinto, hback⟩ := h found rfl other rfl
            rcases hkeys.mp (Option.some.inj (hkey.trans hkey'.symm)) with rfl | hrun | hrun
            · rfl
            · exact absurd hrun hinto
            · exact absurd hrun hback

namespace ColonInPath

def stage : IdempotencyStage := ⟨some ⟨0, 0⟩⟩

/-- A request without tenant, for a path and with a key. -/
def request (path key : String) : ProtoRequest where
  method := "post"
  path := path
  header name := if name = "Idempotency-Key" then some key else none

end ColonInPath

/-- The task `a` with the key `b:c`, and the task `a:b` with the key `c`. -/
theorem not_keysApart_colonInPath :
    ¬∀ (crates : Crates) (stage stage' : IdempotencyStage) (cx cx' : InterceptContext)
      (req req' : ProtoRequest), KeysApart crates stage stage' cx cx' req req' := by
  intro h
  have hsame := h taskCrates ColonInPath.stage ColonInPath.stage .new .new
    (ColonInPath.request "/v1/tasks/a" "b:c") (ColonInPath.request "/v1/tasks/a:b" "c")
    "unknown:POST:/v1/tasks/a:b:c" (by decide) (by decide)
  revert hsame
  decide

end IdempotencyStage

end Soulbase.Interceptors
