/-
# Storage

The part of `sb-storage` that stores are written against: its error type and
the ids of records.
-/

import Soulbase.Errors
import Soulbase.Types

namespace Soulbase.Storage

open Soulbase.Errors

/-- `StorageError`. -/
structure StorageError where
  /-- The wrapped error. -/
  inner : ErrorObj
  deriving DecidableEq

namespace StorageError

/-- `StorageError::to_public`. -/
def toPublic (error : StorageError) : PublicErrorView := error.inner.toPublic

/-- `StorageError::provider_unavailable`. -/
def providerUnavailable (msg : String) : StorageError :=
  ⟨{ code := codes.providerUnavailable
     messageUser := "storage provider unavailable"
     messageDev := some msg }⟩

/-- `StorageError::conflict`. -/
def conflict (msg : String) : StorageError :=
  ⟨{ code := codes.storageConflict
     messageUser := "storage conflict detected"
     messageDev := some msg }⟩

/-- `StorageError::not_found`. -/
def notFound (msg : String) : StorageError :=
  ⟨{ code := codes.storageNotFound
     messageUser := "storage entry not found"
     messageDev := some msg }⟩

/-- `StorageError::schema`. -/
def schema (msg : String) : StorageError :=
  ⟨{ code := codes.schemaValidationFailed
     messageUser := "storage schema validation failed"
     messageDev := some msg }⟩

/-- `StorageError::unknown`. -/
def unknown (msg : String) : StorageError :=
  ⟨{ code := codes.unknownInternal
     messageUser := "internal storage error"
     messageDev := some msg }⟩

end StorageError

/-- `StorageResult`. -/
abbrev StorageResult (α : Type) := Except StorageError α

/-- `ok_or_else`. -/
def okOr {α : Type} (error : StorageError) : Option α → StorageResult α
  | some value => .ok value
  | none => .error error

@[simp]
theorem okOr_eq_ok_iff {α : Type} {error : StorageError} {found : Option α} {value : α} :
    okOr error found = .ok value ↔ found = some value := by
  cases found <;> simp [okOr]

/-- `make_record_id`. -/
def makeRecordId (table : String) (tenant : TenantId) (suffix : String) : String :=
  table ++ ":" ++ tenant.asStr ++ "_" ++ suffix

end Soulbase.Storage
