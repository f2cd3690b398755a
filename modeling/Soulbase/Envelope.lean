/-
# Envelopes

The validation of an `Envelope`. Its fields are looked at one after the other and the first that
is invalid is reported. The partition key is looked at last: it has to begin with the name of the
tenant of the actor, `Envelope.validate_eq_ok_iff`.
-/

import Soulbase.Foundation.Program
import Soulbase.Foundation.Text
import Soulbase.Types

namespace Soulbase

open Soulbase.Foundation

/-- `Envelope`, without what no check looks at. -/
structure Envelope (T : Type) where
  envelopeId : Id
  partitionKey : String
  actor : Subject
  consent : Option Consent
  schemaVer : String
  payload : T

/-- `ValidateError`. -/
inductive ValidateError
  | emptyField (name : String)
  | invalidSemVer (message : String)
  | tenantMismatch
  deriving DecidableEq

/-- `if condition { return Err(error); }`. -/
def ValidateError.when (error : ValidateError) (condition : Prop) [Decidable condition] :
    Except ValidateError Unit :=
  if condition then .error error else .ok ()

/-- `Validate for Subject`. -/
def Subject.validate (subject : Subject) : Except ValidateError Unit := do
  ValidateError.when (.emptyField "subject_id") (subject.subjectId.asStr = "")
  ValidateError.when (.emptyField "tenant") (subject.tenant.asStr = "")

/-- `Validate for Scope`. -/
def Scope.validate (scope : Scope) : Except ValidateError Unit := do
  ValidateError.when (.emptyField "scope.resource") (Text.trim scope.resource = "")
  ValidateError.when (.emptyField "scope.action") (Text.trim scope.action = "")

/-- `Validate for Consent`. -/
def Consent.validate (consent : Consent) : Except ValidateError Unit :=
  forM consent.scopes Scope.validate

/-- The check of a consent, if there is one. -/
def validateConsent : Option Consent → Except ValidateError Unit
  | some consent => consent.validate
  | none => .ok ()

/-- `ensure_tenant_partition`. -/
def ensureTenantPartition (tenant : TenantId) (partitionKey : String) :
    Except ValidateError Unit := do
  ValidateError.when (.emptyField "tenant") (tenant.asStr = "")
  ValidateError.when .tenantMismatch (Text.startsWith partitionKey tenant.asStr = false)

/-- `Validate for Envelope`, for what `semver::Version::parse` makes of a version. -/
def Envelope.validate {T : Type} (parse : String → Except String Unit) (envelope : Envelope T) :
    Except ValidateError Unit := do
  ValidateError.when (.emptyField "envelope_id") (envelope.envelopeId.asStr = "")
  ValidateError.when (.emptyField "partition_key") (Text.trim envelope.partitionKey = "")
  (parse envelope.schemaVer).mapError .invalidSemVer
  envelope.actor.validate
  validateConsent envelope.consent
  ensureTenantPartition envelope.actor.tenant envelope.partitionKey

section Valid

variable {T : Type} {parse : String → Except String Unit} {envelope : Envelope T}

theorem ValidateError.when_eq_ok_iff {error : ValidateError} {condition : Prop}
    [Decidable condition] : error.when condition = .ok () ↔ ¬condition := by
  unfold ValidateError.when
  split <;> simp_all

/-- A subject with an id and a tenant. -/
structure Subject.Valid (subject : Subject) : Prop where
  subjectId : subject.subjectId.asStr ≠ ""
  tenant : subject.tenant.asStr ≠ ""

/-- A scope with a resource and an action that are not blank. -/
structure Scope.Valid (scope : Scope) : Prop where
  resource : Text.trim scope.resource ≠ ""
  action : Text.trim scope.action ≠ ""

/-- All fields of the envelope are valid, apart from what the partition key says of the tenant. -/
structure Envelope.FieldsValid (parse : String → Except String Unit) (envelope : Envelope T) :
    Prop where
  envelopeId : envelope.envelopeId.asStr ≠ ""
  partitionKey : Text.trim envelope.partitionKey ≠ ""
  schemaVer : parse envelope.schemaVer = .ok ()
  actor : envelope.actor.Valid
  consent : ∀ consent, envelope.consent = some consent → ∀ scope ∈ consent.scopes, scope.Valid

theorem Subject.validate_eq_ok_iff {subject : Subject} :
    subject.validate = .ok () ↔ subject.Valid := by
  rw [Subject.validate, except_seq_eq_ok_iff, ValidateError.when_eq_ok_iff,
    ValidateError.when_eq_ok_iff]
  exact ⟨fun h => ⟨h.1, h.2⟩, fun h => ⟨h.subjectId, h.tenant⟩⟩

theorem Scope.validate_eq_ok_iff {scope : Scope} : scope.validate = .ok () ↔ scope.Valid := by
  rw [Scope.validate, except_seq_eq_ok_iff, ValidateError.when_eq_ok_iff,
    ValidateError.when_eq_ok_iff]
  exact ⟨fun h => ⟨h.1, h.2⟩, fun h => ⟨h.resource, h.action⟩⟩

theorem Consent.validate_eq_ok_iff {consent : Consent} :
    consent.validate = .ok () ↔ ∀ scope ∈ consent.scopes, scope.Valid := by
  rw [Consent.validate, except_forM_eq_ok_iff]
  simp only [Scope.validate_eq_ok_iff]

theorem validateConsent_eq_ok_iff {given : Option Consent} :
    validateConsent given = .ok () ↔
      ∀ consent, given = some consent → ∀ scope ∈ consent.scopes, scope.Valid := by
  cases given with
  | none => simp [validateConsent]
  | some consent =>
      rw [validateConsent, Consent.validate_eq_ok_iff]
      simp

theorem ensureTenantPartition_eq_ok_iff {tenant : TenantId} {partitionKey : String} :
    ensureTenantPartition tenant partitionKey = .ok () ↔
      tenant.asStr ≠ "" ∧ Text.startsWith partitionKey tenant.asStr = true := by
  rw [ensureTenantPartition, except_seq_eq_ok_iff, ValidateError.when_eq_ok_iff,
    ValidateError.when_eq_ok_iff, Bool.not_eq_false]

theorem mapError_eq_ok_iff {ε ε' : Type} {result : Except ε Unit} {wrap : ε → ε'} :
    result.mapError wrap = .ok () ↔ result = .ok () := by
  cases result <;> simp [Except.mapError]

/-- An envelope is valid iff its fields are and its partition key begins with its tenant. -/
theorem Envelope.validate_eq_ok_iff :
    envelope.validate parse = .ok () ↔ envelope.FieldsValid parse ∧
      Text.startsWith envelope.partitionKey envelope.actor.tenant.asStr = true := by
  simp only [Envelope.validate, except_seq_eq_ok_iff, ValidateError.when_eq_ok_iff,
    mapError_eq_ok_iff, Subject.validate_eq_ok_iff, validateConsent_eq_ok_iff,
    ensureTenantPartition_eq_ok_iff]
  constructor
  · rintro ⟨hid, hkey, hversion, hactor, hconsent, -, hstarts⟩
    exact ⟨⟨hid, hkey, hversion, hactor, hconsent⟩, hstarts⟩
  · rintro ⟨⟨hid, hkey, hversion, hactor, hconsent⟩, hstarts⟩
    exact ⟨hid, hkey, hversion, hactor, hconsent, hactor.tenant, hstarts⟩

end Valid

end Soulbase
