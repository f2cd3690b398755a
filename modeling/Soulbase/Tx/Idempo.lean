/-
# Idempotency records

What the idempotency stores share: the record of a grant, the answer a later
caller gets from it, and its age. A record expires by its age, the time since
it was last written.
-/

import Soulbase.Foundation.MachineInt
import Soulbase.Tx.Model

namespace Soulbase.Tx

open Soulbase.Foundation

/-- `build_record`, with the reading of the clock that it makes. -/
def buildRecord (tenant : TenantId) (key hash : String) (ttlMs : UInt64) (now : Int64) :
    IdempoRecord where
  key := key
  tenant := tenant
  hash := hash
  status := .inFlight
  resultDigest := none
  lastError := none
  ttlMs := ttlMs
  createdAt := now
  updatedAt := now

/-- The last `match` of `check_and_put`, the same in every store: what a caller
with the hash of the record is told. -/
def IdempoRecord.answer (record : IdempoRecord) : TxResult (Option String) :=
  match record.status with
  | .inFlight => .error .idempoBusy
  | .succeeded => .ok record.resultDigest
  | .failed => .error .idempoFailed

/-- A result comes from a record that has succeeded with it. -/
theorem IdempoRecord.answer_eq_ok_iff {record : IdempoRecord} {result : Option String} :
    record.answer = .ok result ↔
      record.status = .succeeded ∧ record.resultDigest = result := by
  unfold IdempoRecord.answer
  cases record.status with
  | inFlight => simp
  | succeeded => simp
  | failed => simp

/-- `now.saturating_sub(since) as u64`. -/
def elapsedMs (now since : Int64) : UInt64 := (saturatingSub now since).toUInt64

/-- So much time has passed between two readings of a clock. -/
def Elapsed (ttlMs : UInt64) (since clock : Int64) : Prop :=
  (ttlMs.toNat : Int) ≤ clock.toInt - since.toInt

instance (ttlMs : UInt64) (since clock : Int64) : Decidable (Elapsed ttlMs since clock) :=
  inferInstanceAs (Decidable (_ ≤ _))

theorem Elapsed.mono {ttlMs : UInt64} {since clock later : Int64}
    (h : Elapsed ttlMs since clock) (hle : clock ≤ later) : Elapsed ttlMs since later := by
  have hclock : clock.toInt ≤ later.toInt := Int64.le_iff_toInt_le.mp hle
  unfold Elapsed at h ⊢
  omega

end Soulbase.Tx
