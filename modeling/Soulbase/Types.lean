/-
# Shared types

Identifiers, JSON values, subjects and consents, from `sb-types` and `serde_json`, and
the clocks of `chrono` and of the standard library.
-/

import Mathlib.Data.Int.Notation
import Mathlib.Data.Nat.Notation
import Mathlib.Data.Option.Basic

namespace Soulbase

/-- `sb_types::Id`, a string of its own type. -/
structure Id where
  /-- `Id::as_str`. -/
  asStr : String
  deriving DecidableEq

/-- An id is its text. -/
theorem Id.asStr_inj {id other : Id} : id.asStr = other.asStr ↔ id = other := by
  cases id
  cases other
  exact (Id.mk.injEq _ _).symm.to_iff

/-- `sb_types::TenantId`. -/
@[ext]
structure TenantId where
  /-- `TenantId::as_str`. -/
  asStr : String
  deriving DecidableEq

namespace Json

/-- `serde_json::Number`. A float is kept as its bits; nothing here does
arithmetic on it. -/
inductive Number
  | posInt (value : UInt64)
  | negInt (value : Int64)
  | float (bits : UInt64)
  deriving DecidableEq

/-- `serde_json::Value`. -/
inductive Value
  | null
  | bool (value : Bool)
  | number (value : Number)
  | string (value : String)
  | array (items : List Value)
  | object (entries : List (String × Value))

end Json

/-- `sb_types::Timestamp`. -/
structure Timestamp where
  /-- `Timestamp::as_millis`. -/
  asMillis : Int64
  deriving DecidableEq

/-- `sb_types::Scope`. -/
structure Scope where
  resource : String
  action : String
  attrs : List (String × Json.Value)

/-- `sb_types::Consent`. -/
structure Consent where
  scopes : List Scope
  expiresAt : Option Timestamp
  purpose : Option String

/-- `sb_types::SubjectKind`. -/
inductive SubjectKind
  | user
  | service
  | agent
  deriving DecidableEq

/-- `sb_types::Subject`. -/
structure Subject where
  kind : SubjectKind
  subjectId : Id
  tenant : TenantId
  claims : List (String × Json.Value)

/-- `sb_types::TraceContext`, without its baggage. -/
structure TraceContext where
  traceId : Option String
  spanId : Option String

/-- `std::time::Instant`, in nanoseconds since some start. -/
abbrev Instant := ℕ

/-- `std::time::Duration`, in nanoseconds. -/
abbrev Duration := ℕ

/-- `chrono::DateTime<Utc>`: nanoseconds since the epoch. -/
structure DateTime where
  nanos : ℤ
  deriving DecidableEq

namespace DateTime

/-- `DateTime::timestamp_millis`, rounded down. -/
def timestampMillis (time : DateTime) : Int64 := .ofInt (time.nanos / 1000000)

/-- `signed_duration_since` and `num_milliseconds`, rounded towards zero. -/
def millisSince (time start : DateTime) : Int64 :=
  .ofInt ((time.nanos - start.nanos).tdiv 1000000)

end DateTime

end Soulbase
