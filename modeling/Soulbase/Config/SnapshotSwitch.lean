/-
# Switching snapshots

`SnapshotSwitch` holds the current snapshot, and one to go back to. A swap replaces the former
and leaves the latter as it was made, so a rollback goes back to the snapshot before the last
swap only if that is the first of all.
-/

import Mathlib.Init

namespace Soulbase.Config

variable {Snapshot : Type}

/-- `SnapshotSwitch`. -/
structure SnapshotSwitch (Snapshot : Type) where
  current : Snapshot
  lkg : Snapshot

namespace SnapshotSwitch

/-- `SnapshotSwitch::new`. -/
def new (initial : Snapshot) : SnapshotSwitch Snapshot := ⟨initial, initial⟩

/-- `SnapshotSwitch::get`. -/
def get (switch : SnapshotSwitch Snapshot) : Snapshot := switch.current

/-- `SnapshotSwitch::swap`. -/
def swap (switch : SnapshotSwitch Snapshot) (next : Snapshot) : SnapshotSwitch Snapshot :=
  { switch with current := next }

/-- `SnapshotSwitch::rollback`. -/
def rollback (switch : SnapshotSwitch Snapshot) : Snapshot × SnapshotSwitch Snapshot :=
  (switch.lkg, { switch with current := switch.lkg })

end SnapshotSwitch

/-- A call that changes the current snapshot. -/
inductive SwitchCall (Snapshot : Type)
  | swap (next : Snapshot)
  | rollback

namespace SnapshotSwitch

/-- What a call makes of the switch. -/
def apply (switch : SnapshotSwitch Snapshot) : SwitchCall Snapshot → SnapshotSwitch Snapshot
  | .swap next => switch.swap next
  | .rollback => switch.rollback.2

/-- The switch after calls. The latest of them is the first of the list. -/
def after (initial : Snapshot) : List (SwitchCall Snapshot) → SnapshotSwitch Snapshot
  | [] => new initial
  | call :: earlier => (after initial earlier).apply call

/-- The snapshot that was current immediately before the last swap, or the initial one. -/
def beforeLastSwap (initial : Snapshot) : List (SwitchCall Snapshot) → Snapshot
  | [] => initial
  | .swap _ :: earlier => (after initial earlier).get
  | .rollback :: earlier => beforeLastSwap initial earlier

/-- A rollback returns the snapshot before the last swap, and makes it current. -/
structure Restores (initial : Snapshot) (calls : List (SwitchCall Snapshot)) : Prop where
  returned : (after initial calls).rollback.1 = beforeLastSwap initial calls
  current : (after initial calls).rollback.2.get = beforeLastSwap initial calls

/-- If the last swap follows a swap directly, that one is to the initial snapshot. -/
def SwapsFromInitial (initial : Snapshot) : List (SwitchCall Snapshot) → Prop
  | [] => True
  | .swap _ :: .swap previous :: _ => previous = initial
  | .swap _ :: _ => True
  | .rollback :: earlier => SwapsFromInitial initial earlier

section Calls

variable {initial : Snapshot} {calls : List (SwitchCall Snapshot)}

theorem lkg_apply (switch : SnapshotSwitch Snapshot) (call : SwitchCall Snapshot) :
    (switch.apply call).lkg = switch.lkg := by
  cases call <;> rfl

/-- The snapshot to go back to is the initial one throughout. -/
theorem lkg_after : (after initial calls).lkg = initial := by
  induction calls with
  | nil => rfl
  | cons call earlier ih => exact (lkg_apply _ _).trans ih

theorem rollback_after :
    (after initial calls).rollback = (initial, ⟨initial, initial⟩) := by
  rw [rollback, lkg_after]

theorem restores_iff_beforeLastSwap :
    Restores initial calls ↔ beforeLastSwap initial calls = initial := by
  constructor
  · intro h
    rw [← h.returned, rollback_after]
  · intro h
    constructor <;> rw [rollback_after, h]
    rfl

theorem beforeLastSwap_eq_iff :
    beforeLastSwap initial calls = initial ↔ SwapsFromInitial initial calls := by
  induction calls with
  | nil => exact iff_of_true rfl trivial
  | cons call earlier ih =>
      cases call with
      | rollback => exact ih
      | swap next =>
          match earlier with
          | [] => exact iff_of_true rfl trivial
          | .rollback :: _ => exact iff_of_true lkg_after trivial
          | .swap previous :: _ => exact Iff.rfl

end Calls

/-- A rollback restores the snapshot before the last swap if and only if that swap does not follow
a swap to another snapshot than the initial one. -/
theorem restores_iff (initial : Snapshot) (calls : List (SwitchCall Snapshot)) :
    Restores initial calls ↔ SwapsFromInitial initial calls :=
  restores_iff_beforeLastSwap.trans beforeLastSwap_eq_iff

/-- After swaps to 1 and 2, a rollback goes back to 0. -/
theorem not_restores_twoSwaps : ¬ Restores 0 [.swap 2, .swap 1] :=
  fun h => absurd h.returned (by decide)

end SnapshotSwitch

end Soulbase.Config
