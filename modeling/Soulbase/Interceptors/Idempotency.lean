/-
# Idempotency keys and the store of responses

`build_idempotency_key` and the in-memory store. An entry counts as long as its expiry is
ahead of the clock; a lookup that finds none drops what is there.
-/

import Soulbase.Foundation.FiniteMap
import Soulbase.Interceptors.Context

namespace Soulbase.Interceptors

open Soulbase.Foundation Soulbase.Errors

/-- `build_idempotency_key`. -/
def buildIdempotencyKey (cx : InterceptContext) (rawKey method path : String) : String :=
  let tenant := (cx.tenantHeader.or (cx.subject.map (·.tenant.asStr))).getD "unknown"
  tenant ++ ":" ++ method ++ ":" ++ path ++ ":" ++ rawKey

/-- `idempotency_error`. -/
def idempotencyError (message : String) : InterceptError :=
  ⟨((FullErrorObj.new codes.schemaValidationFailed).userMsg "请求的幂等键无效。").devMsg message⟩

/-- `oversized_body_error`. -/
def oversizedBodyError (size max : ℕ) : InterceptError :=
  ⟨((FullErrorObj.new codes.policyDenyTool).userMsg "响应体超出幂等缓存限制。").devMsg
    s!"size={size} max={max}"⟩

/-- `MemoryIdempotencyStore`. -/
structure MemoryIdempotencyStore where
  inner : HashMap String (Instant × StoredResponse)

namespace MemoryIdempotencyStore

/-- `MemoryIdempotencyStore::new`. -/
def new : MemoryIdempotencyStore := ⟨∅⟩

/-- The response at a key, unless it has expired. -/
def live (store : MemoryIdempotencyStore) (key : String) (now : Instant) :
    Option StoredResponse :=
  match store.inner.get key with
  | some (expiry, stored) => if now < expiry then some stored else none
  | none => none

/-- `MemoryIdempotencyStore::get`. -/
def get (store : MemoryIdempotencyStore) (key : String) (now : Instant) :
    Option StoredResponse × MemoryIdempotencyStore :=
  match store.live key now with
  | some stored => (some stored, store)
  | none => (none, ⟨store.inner.remove key⟩)

/-- `MemoryIdempotencyStore::put`. -/
def put (store : MemoryIdempotencyStore) (key : String) (response : StoredResponse)
    (ttl : Duration) (now : Instant) : MemoryIdempotencyStore :=
  ⟨store.inner.put key (now + ttl, response)⟩

variable {store : MemoryIdempotencyStore} {key other : String} {now later : Instant}

theorem live_eq_some_iff {response : StoredResponse} :
    store.live key now = some response ↔
      ∃ expiry, store.inner.get key = some (expiry, response) ∧ now < expiry := by
  unfold live
  cases store.inner.get key with
  | none => simp
  | some entry =>
      obtain ⟨expiry, stored⟩ := entry
      by_cases hexpiry : now < expiry <;> simp [hexpiry]

/-- What has expired stays so. -/
theorem live_eq_none_of_le (h : store.live key now = none) (hle : now ≤ later) :
    store.live key later = none := by
  cases hlater : store.live key later with
  | none => rfl
  | some response =>
      obtain ⟨expiry, hget, hlt⟩ := live_eq_some_iff.mp hlater
      have hnow := live_eq_some_iff.mpr ⟨expiry, hget, lt_of_le_of_lt hle hlt⟩
      rw [h] at hnow
      cases hnow

@[simp]
theorem live_new : new.live key now = none := by
  simp [live, new]

@[simp]
theorem get_fst : (store.get key now).1 = store.live key now := by
  unfold get
  cases store.live key now <;> rfl

/-- A lookup that finds a response leaves the store as it is. -/
theorem get_of_live {response : StoredResponse} (h : store.live key now = some response) :
    store.get key now = (some response, store) := by
  simp [get, h]

end MemoryIdempotencyStore

end Soulbase.Interceptors
