/-
# Partitions of tenants

`ContextInitStage` makes the partition key of an envelope: the tenant, a colon and the first
segment of the path. The validation of an envelope only asks whether the key begins with the
tenant of its actor, so it also accepts the keys of tenants whose names go on after that one.
`tenantPartitioned_iff` says which envelopes are the exceptions.
-/

import Soulbase.Envelope
import Soulbase.Interceptors.RequestStages

namespace Soulbase.Interceptors

open Soulbase.Foundation

/-- The stage makes the key for requests of the tenant. -/
def ProducedFor (tenant : TenantId) (key : String) : Prop :=
  ∃ (stage : ContextInitStage) (cx : InterceptContext) (req : ProtoRequest)
    (calls : List ChainCall) (cx' : InterceptContext),
    Runs (stage.handle cx req) calls (.ok .proceed, cx') ∧
      (req.header "X-Soul-Tenant").getD "unknown" = tenant.asStr ∧
      cx'.envelopeSeed.partitionKey = key

/-- The key is the tenant, or goes on after it with a colon. -/
def BelongsTo (tenant : TenantId) (key : String) : Prop :=
  key = tenant.asStr ∨ Text.startsWith key (tenant.asStr ++ ":") = true

/-- If the envelope is valid, its partition key belongs to its tenant and, where names have no
colons, was produced for no other tenant. -/
structure TenantPartitioned {T : Type} (parse : String → Except String Unit)
    (envelope : Envelope T) : Prop where
  own : envelope.validate parse = .ok () → BelongsTo envelope.actor.tenant envelope.partitionKey
  others : ∀ other, other ≠ envelope.actor.tenant → ':' ∉ other.asStr.toList →
    ':' ∉ envelope.actor.tenant.asStr.toList → ProducedFor other envelope.partitionKey →
      envelope.validate parse ≠ .ok ()

/-- After the name of the tenant the key does not go on, unless with a colon. -/
def StopsAtTenant (tenant : TenantId) (key : String) : Prop :=
  ∀ c rest, key.toList = tenant.asStr.toList ++ c :: rest → c = ':'

section Keys

variable {tenant other : TenantId} {key : String}

/-- The stage joins the tenant and the first segment with a colon. -/
theorem ContextInitStage.partitionKey_of_runs {stage : ContextInitStage}
    {cx cx' : InterceptContext} {req : ProtoRequest} {calls : List ChainCall}
    {result : Except InterceptError StageOutcome}
    (h : Runs (stage.handle cx req) calls (result, cx')) :
    cx'.envelopeSeed.partitionKey =
      (req.header "X-Soul-Tenant").getD "unknown" ++ ":" ++ firstSegment req.path := by
  obtain ⟨_, requestId, _, _, _, hrest⟩ := runs_bind_iff.mp h
  obtain ⟨_, snapshot, _, _, _, hlast⟩ := runs_bind_iff.mp hrest
  obtain ⟨producedAtMs, _, _, hdone⟩ := runs_call_bind_iff.mp hlast
  obtain ⟨_, heq⟩ := runs_done_iff.mp hdone
  obtain ⟨-, rfl⟩ := Prod.mk.inj heq
  rfl

theorem ProducedFor.exists_eq (h : ProducedFor tenant key) :
    ∃ segment, key = tenant.asStr ++ ":" ++ segment := by
  obtain ⟨stage, cx, req, calls, cx', hruns, htenant, hkey⟩ := h
  exact ⟨_, by rw [← hkey, ContextInitStage.partitionKey_of_runs hruns, htenant]⟩

theorem belongsTo_iff_toList : BelongsTo tenant key ↔
    key = tenant.asStr ∨ ∃ rest, key.toList = tenant.asStr.toList ++ ':' :: rest := by
  rw [BelongsTo, Text.startsWith_iff]
  refine or_congr_right (exists_congr fun rest => ?_)
  simp [eq_comm]

/-- A key that begins with the tenant belongs to it iff it does not run on. -/
theorem belongsTo_iff_stopsAtTenant (h : Text.startsWith key tenant.asStr = true) :
    BelongsTo tenant key ↔ StopsAtTenant tenant key := by
  rw [belongsTo_iff_toList]
  constructor
  · rintro (rfl | ⟨rest, hkey⟩) c more hmore
    · exact absurd (List.self_eq_append_right.mp hmore) (List.cons_ne_nil _ _)
    · rw [hkey] at hmore
      exact (List.cons.inj (List.append_cancel_left hmore)).1.symm
  · intro hstops
    obtain ⟨rest, hrest⟩ := Text.startsWith_iff.mp h
    cases rest with
    | nil =>
        rw [List.append_nil] at hrest
        exact .inl (String.toList_inj.mp hrest.symm)
    | cons c rest =>
        obtain rfl := hstops c rest hrest.symm
        exact .inr ⟨rest, hrest.symm⟩

/-- A key that was produced for a tenant belongs to no other, where names have no colons. -/
theorem eq_of_belongsTo (hother : ProducedFor other key) (h : BelongsTo tenant key)
    (hplain : ':' ∉ other.asStr.toList) (hplain' : ':' ∉ tenant.asStr.toList) :
    other = tenant := by
  obtain ⟨segment, hkey⟩ := hother.exists_eq
  have htext : key.toList = other.asStr.toList ++ ':' :: segment.toList := by simp [hkey]
  have hsplit := Text.splitOnce_eq_some hplain htext
  rcases belongsTo_iff_toList.mp h with rfl | ⟨rest, hrest⟩
  · exact absurd (by simp [htext]) hplain'
  · rw [← String.toList_ofList (l := rest)] at hrest
    have hsame := hsplit.symm.trans (Text.splitOnce_eq_some hplain' hrest)
    exact TenantId.ext (Prod.mk.inj (Option.some.inj hsame)).1

end Keys

/-- The partition keys of valid envelopes belong to their tenants exactly where they do not run on
after the name of the tenant. -/
theorem tenantPartitioned_iff {T : Type} (parse : String → Except String Unit)
    (envelope : Envelope T) :
    TenantPartitioned parse envelope ↔
      (envelope.FieldsValid parse → StopsAtTenant envelope.actor.tenant envelope.partitionKey) := by
  constructor
  · intro h hfields
    by_cases hstarts :
        Text.startsWith envelope.partitionKey envelope.actor.tenant.asStr = true
    · exact (belongsTo_iff_stopsAtTenant hstarts).mp
        (h.own (Envelope.validate_eq_ok_iff.mpr ⟨hfields, hstarts⟩))
    · intro c rest hkey
      exact absurd (Text.startsWith_iff.mpr ⟨c :: rest, hkey.symm⟩) hstarts
  · intro h
    have hown : envelope.validate parse = .ok () →
        BelongsTo envelope.actor.tenant envelope.partitionKey := by
      intro hvalid
      obtain ⟨hfields, hstarts⟩ := Envelope.validate_eq_ok_iff.mp hvalid
      exact (belongsTo_iff_stopsAtTenant hstarts).mpr (h hfields)
    refine ⟨hown, ?_⟩
    intro other hne hplain hplain' hproduced hvalid
    exact hne (eq_of_belongsTo hproduced (hown hvalid) hplain hplain')

/-- An envelope of one tenant in the partition of another, whose name begins with it. -/
def straying : Envelope Unit where
  envelopeId := ⟨"env"⟩
  partitionKey := "acme-eu:orders"
  actor := ⟨.user, ⟨"user"⟩, ⟨"acme"⟩, []⟩
  consent := none
  schemaVer := "1.0.0"
  payload := ()

/-- The key of `acme-eu` is accepted for `acme`. -/
theorem not_tenantPartitioned_straying :
    ¬ ∀ (parse : String → Except String Unit) (envelope : Envelope Unit),
        TenantPartitioned parse envelope := by
  intro h
  have hvalid : straying.validate (fun _ => .ok ()) = .ok () := by decide
  have hbelongs := (h (fun _ => .ok ()) straying).own hvalid
  revert hbelongs
  rw [BelongsTo]
  decide

end Soulbase.Interceptors
