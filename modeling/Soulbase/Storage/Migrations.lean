/-
# Migrations

`SurrealMigrator` runs scripts in a transaction and records their versions in a table with a
unique index. It runs every script it is given and leaves it to the index to refuse a version that
is recorded already, when the script has been run. `InMemoryMigrator` keeps the versions in a
list, and looks there first. The two agree in a run if no version is applied that is there.
-/

import Mathlib.Data.List.Infix
import Mathlib.Data.Nat.Notation
import Soulbase.Storage

namespace Soulbase.Storage

/-- `MigrationScript`. -/
structure MigrationScript where
  version : String
  upSql : String
  downSql : String
  checksum : String

/-- A row of the table of migrations. Rows stand in the order of `applied_at`. -/
structure MigrationRow where
  version : String
  checksum : String

/-- What SurrealDB does with the statements of a migration. -/
structure MigrationDb where
  /-- How a script ends. -/
  runSql : String → StorageResult Unit
  /-- What the client makes of an `INSERT` that the index refuses. -/
  duplicate : String → StorageResult Unit
  /-- How a `COMMIT` ends after such an `INSERT`, and the rows that are left of those before the
  transaction and in it. -/
  commitFailed : List MigrationRow → List MigrationRow → StorageResult Unit × List MigrationRow
  /-- The rows that are left of a transaction that is neither committed nor cancelled. -/
  abandoned : List MigrationRow → List MigrationRow → List MigrationRow

namespace InMemoryMigrator

/-- `InMemoryMigrator::apply_up`. -/
def applyUp (migrations : List String) (scripts : List MigrationScript) : List String :=
  scripts.foldl (fun migrations script =>
    if script.version ∈ migrations then migrations else migrations ++ [script.version]) migrations

/-- `InMemoryMigrator::apply_down`. -/
def applyDown (migrations : List String) (scripts : List MigrationScript) : List String :=
  scripts.foldl (fun migrations script => migrations.filter (· ≠ script.version)) migrations

end InMemoryMigrator

namespace SurrealMigrator

/-- `SurrealMigrator::applied_versions`. -/
def appliedVersions (rows : List MigrationRow) : List String := rows.map (·.version)

/-- The run of an up script: its version, and those recorded at the time. -/
structure UpRun where
  version : String
  applied : List String

/-- A transaction: its rows, and whether a statement has failed in it. -/
structure Transaction where
  rows : List MigrationRow
  failed : Bool

/-- How the statements of a transaction end: with an error and the rows that it leaves, or before
the commit. -/
abbrev Statements := Except (StorageError × List MigrationRow) Transaction

section Calls

variable (db : MigrationDb) (before : List MigrationRow)

/-- The loop of `apply_up`, with the scripts that it runs. -/
def upLoop : Transaction → List MigrationScript → Statements × List UpRun
  | transaction, [] => (.ok transaction, [])
  | transaction, script :: rest =>
      let ran : UpRun := ⟨script.version, appliedVersions transaction.rows⟩
      match db.runSql script.upSql with
      | .error err => (.error (err, before), [ran])
      | .ok () =>
          if script.version ∈ appliedVersions transaction.rows then
            match db.duplicate script.version with
            | .error err => (.error (err, db.abandoned before transaction.rows), [ran])
            | .ok () =>
                let later := upLoop { transaction with failed := true } rest
                (later.1, ran :: later.2)
          else
            let row : MigrationRow := ⟨script.version, script.checksum⟩
            let later := upLoop { transaction with rows := transaction.rows ++ [row] } rest
            (later.1, ran :: later.2)

/-- The loop of `apply_down`. -/
def downLoop : List MigrationRow → List MigrationScript → Statements
  | rows, [] => .ok ⟨rows, false⟩
  | rows, script :: rest =>
      match db.runSql script.downSql with
      | .error err => .error (err, before)
      | .ok () => downLoop (rows.filter (·.version ≠ script.version)) rest

/-- `COMMIT TRANSACTION`, if the statements have come to it. -/
def commit : Statements → StorageResult Unit × List MigrationRow
  | .error (err, rows) => (.error err, rows)
  | .ok transaction =>
      if transaction.failed then db.commitFailed before transaction.rows
      else (.ok (), transaction.rows)

/-- `SurrealMigrator::apply_up`, with the scripts that it runs. -/
def applyUp (scripts : List MigrationScript) :
    (StorageResult Unit × List MigrationRow) × List UpRun :=
  if scripts = [] then ((.ok (), before), [])
  else
    let statements := upLoop db before ⟨before, false⟩ scripts
    (commit db before statements.1, statements.2)

/-- `SurrealMigrator::apply_down`. -/
def applyDown (scripts : List MigrationScript) : StorageResult Unit × List MigrationRow :=
  if scripts = [] then (.ok (), before) else commit db before (downLoop db before before scripts)

end Calls

end SurrealMigrator

/-- A call of a migrator. -/
inductive MigrationCall
  | up (scripts : List MigrationScript)
  | down (scripts : List MigrationScript)

namespace InMemoryMigrator

/-- What a call makes of the versions. -/
def apply (migrations : List String) : MigrationCall → List String
  | .up scripts => applyUp migrations scripts
  | .down scripts => applyDown migrations scripts

end InMemoryMigrator

namespace SurrealMigrator

/-- The table after calls, with the scripts that were run and what the calls returned. -/
structure History where
  rows : List MigrationRow
  ran : List UpRun
  results : List (StorageResult Unit)

/-- What a call makes of the table. -/
def apply (db : MigrationDb) (history : History) : MigrationCall → History
  | .up scripts =>
      let outcome := applyUp db history.rows scripts
      ⟨outcome.1.2, history.ran ++ outcome.2, history.results ++ [outcome.1.1]⟩
  | .down scripts =>
      let outcome := applyDown db history.rows scripts
      ⟨outcome.2, history.ran, history.results ++ [outcome.1]⟩

/-- The migrators agree: up scripts were run for versions that were not recorded, all calls
returned `Ok`, and the versions are the same. -/
structure Agrees (history : History) (migrations : List String) : Prop where
  fresh : ∀ ran ∈ history.ran, ran.version ∉ ran.applied
  ok : ∀ result ∈ history.results, result = .ok ()
  same : ∀ version, version ∈ appliedVersions history.rows ↔ version ∈ migrations

/-- The versions of scripts are different, and not applied. -/
def Fresh (migrations : List String) (scripts : List MigrationScript) : Prop :=
  (scripts.map (·.version)).Nodup ∧ ∀ script ∈ scripts, script.version ∉ migrations

/-- The scripts of a call of `apply_up` are so. -/
def FreshCall (migrations : List String) : MigrationCall → Prop
  | .up scripts => Fresh migrations scripts
  | .down _ => True

/-- All calls are so, each after those before it. -/
def AllFresh : List String → List MigrationCall → Prop
  | _, [] => True
  | migrations, call :: rest =>
      FreshCall migrations call ∧ AllFresh (InMemoryMigrator.apply migrations call) rest

/-! ## What the calls do -/

section Steps

variable {db : MigrationDb} {before rows : List MigrationRow} {transaction : Transaction}
variable {scripts : List MigrationScript} {migrations : List String} {history : History}
variable {version : String}

theorem fresh_cons {script : MigrationScript} :
    Fresh migrations (script :: scripts) ↔
      script.version ∉ migrations ∧ Fresh (migrations ++ [script.version]) scripts := by
  simp only [Fresh, List.map_cons, List.nodup_cons, List.forall_mem_cons, List.mem_append,
    List.mem_singleton, List.mem_map, not_or, not_exists, not_and]
  constructor
  · rintro ⟨⟨hrepeated, hnodup⟩, hfirst, hrest⟩
    exact ⟨hfirst, hnodup, fun later hlater => ⟨hrest later hlater, hrepeated later hlater⟩⟩
  · rintro ⟨hfirst, hnodup, hrest⟩
    exact ⟨⟨fun later hlater => (hrest later hlater).2, hnodup⟩, hfirst,
      fun later hlater => (hrest later hlater).1⟩

/-- Scripts that are fresh are recorded. -/
theorem upLoop_of_fresh (hsql : ∀ sql, db.runSql sql = .ok ())
    (h : Fresh (appliedVersions transaction.rows) scripts) :
    ∃ rows, (upLoop db before transaction scripts).1 = .ok ⟨rows, transaction.failed⟩ ∧
      appliedVersions rows = appliedVersions transaction.rows ++ scripts.map (·.version) ∧
      ∀ ran ∈ (upLoop db before transaction scripts).2, ran.version ∉ ran.applied := by
  induction scripts generalizing transaction with
  | nil => exact ⟨transaction.rows, rfl, (List.append_nil _).symm, nofun⟩
  | cons script rest ih =>
      obtain ⟨hfirst, hrest⟩ := fresh_cons.mp h
      have happlied : ∀ row : MigrationRow, appliedVersions (transaction.rows ++ [row]) =
          appliedVersions transaction.rows ++ [row.version] :=
        fun row => List.map_append
      obtain ⟨rows, hrows, hversions, hran⟩ :=
        @ih ⟨transaction.rows ++ [⟨script.version, script.checksum⟩], transaction.failed⟩
          (by rw [happlied]; exact hrest)
      rw [upLoop, hsql]
      dsimp only
      rw [if_neg hfirst]
      refine ⟨rows, hrows, ?_, List.forall_mem_cons.mpr ⟨hfirst, hran⟩⟩
      rw [hversions, happlied, List.append_assoc]
      rfl

/-- If no script was run for a version that is recorded, the scripts are fresh. -/
theorem fresh_of_upLoop (hsql : ∀ sql, db.runSql sql = .ok ())
    (h : ∀ ran ∈ (upLoop db before transaction scripts).2, ran.version ∉ ran.applied) :
    Fresh (appliedVersions transaction.rows) scripts := by
  induction scripts generalizing transaction with
  | nil => exact ⟨List.nodup_nil, nofun⟩
  | cons script rest ih =>
      rw [upLoop, hsql] at h
      dsimp only at h
      have hfirst : script.version ∉ appliedVersions transaction.rows := by
        intro hrecorded
        rw [if_pos hrecorded] at h
        cases hduplicate : db.duplicate script.version <;> rw [hduplicate] at h <;>
          exact h _ List.mem_cons_self hrecorded
      rw [if_neg hfirst] at h
      have hrest := ih fun ran hran => h ran (List.mem_cons_of_mem _ hran)
      have happlied : appliedVersions (transaction.rows ++ [⟨script.version, script.checksum⟩]) =
          appliedVersions transaction.rows ++ [script.version] := List.map_append
      rw [happlied] at hrest
      exact fresh_cons.mpr ⟨hfirst, hrest⟩

/-- The loop of `apply_down` drops versions like the other migrator does. -/
theorem downLoop_eq (hsql : ∀ sql, db.runSql sql = .ok ()) :
    ∃ left, downLoop db before rows scripts = .ok ⟨left, false⟩ ∧
      appliedVersions left = InMemoryMigrator.applyDown (appliedVersions rows) scripts := by
  induction scripts generalizing rows with
  | nil => exact ⟨rows, rfl, rfl⟩
  | cons script rest ih =>
      obtain ⟨left, hleft, hversions⟩ := @ih (rows.filter (·.version ≠ script.version))
      rw [downLoop, hsql]
      refine ⟨left, hleft, hversions.trans ?_⟩
      rw [InMemoryMigrator.applyDown, InMemoryMigrator.applyDown, List.foldl_cons, appliedVersions,
        appliedVersions, List.filter_map]
      rfl

theorem mem_applyUp :
    version ∈ InMemoryMigrator.applyUp migrations scripts ↔
      version ∈ migrations ∨ version ∈ scripts.map (·.version) := by
  induction scripts generalizing migrations with
  | nil => simp [InMemoryMigrator.applyUp]
  | cons script rest ih =>
      change version ∈ InMemoryMigrator.applyUp _ rest ↔ _
      rw [ih, List.map_cons, List.mem_cons]
      dsimp only
      split
      case isTrue hmem =>
        constructor
        · exact Or.imp_right .inr
        · rintro (hold | rfl | hlater)
          · exact .inl hold
          · exact .inl hmem
          · exact .inr hlater
      case isFalse => rw [List.mem_append, List.mem_singleton, or_assoc]

theorem mem_applyDown :
    version ∈ InMemoryMigrator.applyDown migrations scripts ↔
      version ∈ migrations ∧ version ∉ scripts.map (·.version) := by
  induction scripts generalizing migrations with
  | nil => simp [InMemoryMigrator.applyDown]
  | cons script rest ih =>
      change version ∈ InMemoryMigrator.applyDown _ rest ↔ _
      rw [ih, List.map_cons, List.mem_cons, List.mem_filter, decide_eq_true_iff, not_or, and_assoc]

theorem Fresh.congr (h : ∀ version, version ∈ appliedVersions rows ↔ version ∈ migrations) :
    Fresh (appliedVersions rows) scripts ↔ Fresh migrations scripts := by
  simp only [Fresh, h]

/-- A call with fresh scripts keeps the migrators in agreement. -/
theorem Agrees.apply (h : Agrees history migrations) (hsql : ∀ sql, db.runSql sql = .ok ())
    {call : MigrationCall} (hcall : FreshCall migrations call) :
    Agrees (SurrealMigrator.apply db history call) (InMemoryMigrator.apply migrations call) := by
  cases call with
  | up scripts =>
      have hfresh := (Fresh.congr h.same).mpr hcall
      obtain ⟨rows, hrows, hversions, hran⟩ :=
        @upLoop_of_fresh db history.rows ⟨history.rows, false⟩ scripts hsql hfresh
      have happly : ∃ rows ran, applyUp db history.rows scripts = ((.ok (), rows), ran) ∧
          appliedVersions rows = appliedVersions history.rows ++ scripts.map (·.version) ∧
          ∀ entry ∈ ran, entry.version ∉ entry.applied := by
        by_cases hnone : scripts = []
        · subst hnone
          exact ⟨history.rows, [], if_pos rfl, (List.append_nil _).symm, nofun⟩
        · refine ⟨rows, _, ?_, hversions, hran⟩
          simp only [applyUp, if_neg hnone, hrows]
          rfl
      obtain ⟨rows, ran, happly, hversions, hran⟩ := happly
      simp only [SurrealMigrator.apply, InMemoryMigrator.apply, happly]
      refine ⟨?_, ?_, ?_⟩
      · intro entry hentry
        exact (List.mem_append.mp hentry).elim (h.fresh entry) (hran entry)
      · intro result hresult
        exact (List.mem_append.mp hresult).elim (h.ok result) List.mem_singleton.mp
      · intro version
        rw [hversions, List.mem_append, mem_applyUp, h.same]
  | down scripts =>
      obtain ⟨left, hleft, hversions⟩ := @downLoop_eq db history.rows history.rows scripts hsql
      have happly : ∃ rows, applyDown db history.rows scripts = (.ok (), rows) ∧
          appliedVersions rows =
            InMemoryMigrator.applyDown (appliedVersions history.rows) scripts := by
        by_cases hnone : scripts = []
        · subst hnone
          exact ⟨history.rows, if_pos rfl, rfl⟩
        · refine ⟨left, ?_, hversions⟩
          rw [applyDown, if_neg hnone, hleft]
          rfl
      obtain ⟨rows, happly, hversions⟩ := happly
      simp only [SurrealMigrator.apply, InMemoryMigrator.apply, happly]
      refine ⟨h.fresh, ?_, ?_⟩
      · intro result hresult
        exact (List.mem_append.mp hresult).elim (h.ok result) List.mem_singleton.mp
      · intro version
        rw [hversions, mem_applyDown, mem_applyDown, h.same]

/-- If the migrators agree after a call, its scripts were fresh. -/
theorem Agrees.fresh_of_apply (h : Agrees history migrations)
    (hsql : ∀ sql, db.runSql sql = .ok ()) {others : List String}
    (hafter : Agrees (SurrealMigrator.apply db history (.up scripts)) others) :
    Fresh migrations scripts := by
  rw [← Fresh.congr h.same]
  by_cases hnone : scripts = []
  · subst hnone
    exact ⟨List.nodup_nil, nofun⟩
  · refine @fresh_of_upLoop db history.rows ⟨history.rows, false⟩ scripts hsql fun ran hran => ?_
    refine hafter.fresh ran (List.mem_append_right _ ?_)
    rw [applyUp, if_neg hnone]
    exact hran

theorem Agrees.along (h : Agrees history migrations) (hsql : ∀ sql, db.runSql sql = .ok ())
    (calls : List MigrationCall) :
    (∀ earlier, earlier <+: calls →
      Agrees (earlier.foldl (SurrealMigrator.apply db) history)
        (earlier.foldl InMemoryMigrator.apply migrations)) ↔ AllFresh migrations calls := by
  induction calls generalizing history migrations with
  | nil =>
      refine iff_of_true (fun earlier hearlier => ?_) trivial
      rw [List.prefix_nil.mp hearlier]
      exact h
  | cons call rest ih =>
      constructor
      · intro hall
        have hfirst := hall [call] (List.cons_prefix_cons.mpr ⟨rfl, List.nil_prefix⟩)
        refine ⟨?_, (ih hfirst).mp fun later hlater =>
          hall (call :: later) (List.cons_prefix_cons.mpr ⟨rfl, hlater⟩)⟩
        cases call with
        | up scripts => exact h.fresh_of_apply hsql hfirst
        | down scripts => trivial
      · rintro ⟨hcall, hrest⟩ earlier hearlier
        rcases List.prefix_cons_iff.mp hearlier with rfl | ⟨later, rfl, hlater⟩
        · exact h
        · exact (ih (h.apply hsql hcall)).mpr hrest later hlater

end Steps

/-- The migrators agree after all calls up to any point if and only if no call of `apply_up` has a
version twice or one that is applied. -/
theorem agrees_iff_allFresh (db : MigrationDb) (hsql : ∀ sql, db.runSql sql = .ok ())
    (calls : List MigrationCall) :
    (∀ earlier, earlier <+: calls →
      Agrees (earlier.foldl (apply db) ⟨[], [], []⟩)
        (earlier.foldl InMemoryMigrator.apply [])) ↔ AllFresh [] calls :=
  Agrees.along ⟨fun _ h => absurd h List.not_mem_nil, fun _ h => absurd h List.not_mem_nil,
    fun _ => Iff.rfl⟩ hsql calls

/-- The client says nothing of a refused `INSERT`, and a transaction without commit is undone. -/
private def quietDb : MigrationDb where
  runSql _ := .ok ()
  duplicate _ := .ok ()
  commitFailed before _ := (.ok (), before)
  abandoned before _ := before

private def addOwner : MigrationScript :=
  ⟨"v1", "UPDATE item SET owner = 'none'", "UPDATE item SET owner = NONE", ""⟩

/-- `apply_up` and `apply_down` of a script, twice, agree. -/
theorem agrees_upDownUp :
    (∀ sql, quietDb.runSql sql = .ok ()) ∧
      AllFresh [] [.up [addOwner], .down [addOwner], .up [addOwner]] ∧
      ∀ earlier, earlier <+: [MigrationCall.up [addOwner], .down [addOwner], .up [addOwner]] →
        Agrees (earlier.foldl (apply quietDb) ⟨[], [], []⟩)
          (earlier.foldl InMemoryMigrator.apply []) := by
  have hfresh : AllFresh [] [.up [addOwner], .down [addOwner], .up [addOwner]] := by
    refine ⟨⟨?_, ?_⟩, trivial, ⟨?_, ?_⟩, trivial⟩ <;> decide
  exact ⟨fun _ => rfl, hfresh, (agrees_iff_allFresh quietDb (fun _ => rfl) _).mpr hfresh⟩

/-- When `apply_up` is called twice with a script, the second call runs it although its version is
recorded. -/
theorem not_agrees_upUp :
    (∀ sql, quietDb.runSql sql = .ok ()) ∧
      ¬ Agrees ([.up [addOwner], .up [addOwner]].foldl (apply quietDb) ⟨[], [], []⟩)
        ([.up [addOwner], .up [addOwner]].foldl InMemoryMigrator.apply []) := by
  refine ⟨fun _ => rfl, fun h => ?_⟩
  have hran := h.fresh ⟨"v1", ["v1"]⟩ (by simp [apply, applyUp, upLoop, quietDb, addOwner,
    appliedVersions, commit])
  exact hran (List.mem_singleton.mpr rfl)

end SurrealMigrator

end Soulbase.Storage
