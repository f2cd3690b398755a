/-
# What goes past the sessions

`SurrealMigrator` and `apply_migrations` of the transaction stores hand their statements to
`SurrealPool::run_raw` themselves. No tenant is bound to them.
-/

import Soulbase.Storage.MigrationTransactions
import Soulbase.Storage.SurrealClient

namespace Soulbase.Storage

open Soulbase.Foundation SurrealComputation MigrationTransactions

/-- `MIGRATION_TABLE`. -/
def migrationTable : String := "__sb_migrations"

namespace MigrationTransactions

/-- The text of a statement. -/
def Statement.text : Statement → String
  | .defineTable =>
      "DEFINE TABLE IF NOT EXISTS " ++ migrationTable ++ " SCHEMAFULL;\n" ++
        "DEFINE FIELD version ON " ++ migrationTable ++
          " TYPE string ASSERT string::len(value) > 0;\n" ++
        "DEFINE FIELD checksum ON " ++ migrationTable ++ " TYPE string;\n" ++
        "DEFINE FIELD applied_at ON " ++ migrationTable ++ " TYPE datetime;\n" ++
        "DEFINE INDEX idx_" ++ migrationTable ++ "_version ON TABLE " ++ migrationTable ++
          " UNIQUE FIELDS version;"
  | .begin => "BEGIN TRANSACTION"
  | .script sql => sql
  | .record _ _ =>
      "INSERT INTO " ++ migrationTable ++
        " (version, checksum, applied_at) VALUES ($version, $checksum, time::now())"
  | .forget _ => "DELETE " ++ migrationTable ++ " WHERE version = $version"
  | .commit => "COMMIT TRANSACTION"
  | .cancel => "CANCEL TRANSACTION"

/-- Its parameters. -/
def Statement.params : Statement → NamedArgs
  | .script _ => (∅ : NamedArgs).put "__kind" (.string "migrate")
  | .record version checksum =>
      ((∅ : NamedArgs).put "version" (.string version)).put "checksum" (.string checksum)
  | .forget version => (∅ : NamedArgs).put "version" (.string version)
  | .defineTable | .begin | .commit | .cancel => ∅

end MigrationTransactions

namespace SurrealMigrator

variable {Response T F : Type} (reads : SurrealReads Response T F)

/-- A statement of a migration, over a pool. -/
def send (statement : Statement) : SurrealProgram Response T Answer := do
  let result ← perform (SurrealCall.runRaw statement.text statement.params)
  return result.map reads.ended

/-- A migration, over a pool. -/
def onPool (migration : Migration Unit) : SurrealComputation Response T Unit :=
  ExceptT.mk (migration.run.carryOut (send reads))

/-- A migration that is recorded where it is not empty and comes to its end. -/
def migrateWith (migration : Migration Unit) (scripts : List MigrationScript) :
    SurrealComputation Response T Unit := do
  onPool reads migration
  if scripts.isEmpty then return ()
  call (.recordRequest ⟨"__system__"⟩ migrationTable "migrate" scripts.length)

/-- `SurrealMigrator::apply_up`, over a pool. -/
def applyUpWith (scripts : List MigrationScript) : SurrealComputation Response T Unit :=
  migrateWith reads (MigrationTransactions.applyUp scripts) scripts

/-- `SurrealMigrator::apply_down`, over a pool. -/
def applyDownWith (scripts : List MigrationScript) : SurrealComputation Response T Unit :=
  migrateWith reads (MigrationTransactions.applyDown scripts) scripts

/-- The version in a row of the table. -/
def versionOf (row : Json.Value) : Option String := (row.get "version").bind Json.Value.asStr

/-- The statement of `current_version`. -/
def selectCurrent : String :=
  "SELECT version FROM " ++ migrationTable ++ " ORDER BY applied_at DESC LIMIT 1"

/-- The statement of `applied_versions`. -/
def selectApplied : String :=
  "SELECT version FROM " ++ migrationTable ++ " ORDER BY applied_at ASC"

/-- The rows that a statement answers, where there is a table. -/
def versionRows (statement : String) : SurrealComputation Response T (List Json.Value) := do
  onPool reads ensureTable
  let response ← runRaw statement ∅
  ofResult (reads.takeValues response)

/-- `SurrealMigrator::current_version`, over a pool. -/
def currentVersionWith : SurrealComputation Response T String := do
  let rows ← versionRows reads selectCurrent
  return (rows.head?.bind versionOf).getD "none"

/-- `SurrealMigrator::applied_versions`, over a pool. -/
def appliedVersionsWith : SurrealComputation Response T (List String) := do
  let rows ← versionRows reads selectApplied
  return rows.filterMap versionOf

end SurrealMigrator

/-- `apply_migrations`, with the texts of `migrations`. -/
def applyMigrations {Response T : Type} (migrations : List String) :
    SurrealComputation Response T Unit :=
  migrations.forM fun statement => do
    let _ ← runRaw statement ∅
    return ()

namespace MigrationTransactions

/-- What a migration of some scripts sends. -/
def IsOf (sql : MigrationScript → String) (bookkeeping : MigrationScript → Statement)
    (scripts : List MigrationScript) : Statement → Prop
  | .script text => ∃ script ∈ scripts, text = sql script
  | .record version checksum => ∃ script ∈ scripts, bookkeeping script = .record version checksum
  | .forget version => ∃ script ∈ scripts, bookkeeping script = .forget version
  | .defineTable | .begin | .commit | .cancel => True

/-- What a migration upwards sends. -/
def IsOfUp : List MigrationScript → Statement → Prop :=
  IsOf (·.upSql) fun script => .record script.version script.checksum

/-- What a migration downwards sends. -/
def IsOfDown : List MigrationScript → Statement → Prop :=
  IsOf (·.downSql) fun script => .forget script.version

theorem callsOnly_runRaw {permits : Statement → Prop} {statement : Statement}
    (h : permits statement) : (runRaw statement).run.CallsOnly permits := by
  refine Program.callsOnly_call h fun answer => ?_
  cases answer <;> exact Program.callsOnly_done _

section Loops

variable {sql : MigrationScript → String} {bookkeeping : MigrationScript → Statement}

theorem callsOnly_applyScripts (scripts : List MigrationScript)
    (hkept : ∀ script ∈ scripts, IsOf sql bookkeeping scripts (bookkeeping script)) :
    (applyScripts sql bookkeeping scripts).run.CallsOnly (IsOf sql bookkeeping scripts) := by
  refine callsOnly_fallible_bind (callsOnly_runRaw trivial) fun _ => ?_
  split
  case isTrue => exact Program.callsOnly_done _
  case isFalse =>
    refine callsOnly_fallible_bind (callsOnly_runRaw trivial) fun _ => ?_
    refine callsOnly_fallible_bind (callsOnly_forM ?_) fun _ => callsOnly_runRaw trivial
    intro script hscript
    refine Program.callsOnly_call ⟨script, hscript, rfl⟩ fun answer => ?_
    cases answer with
    | error err => exact Program.callsOnly_call trivial fun _ => Program.callsOnly_done _
    | ok results => exact callsOnly_runRaw (hkept script hscript)

end Loops

theorem callsOnly_applyUp (scripts : List MigrationScript) :
    (applyUp scripts).run.CallsOnly (IsOfUp scripts) :=
  callsOnly_applyScripts scripts fun script hscript => ⟨script, hscript, rfl⟩

theorem callsOnly_applyDown (scripts : List MigrationScript) :
    (applyDown scripts).run.CallsOnly (IsOfDown scripts) :=
  callsOnly_applyScripts scripts fun script hscript => ⟨script, hscript, rfl⟩

end MigrationTransactions

namespace SurrealMigrator

variable {Response T F : Type} {reads : SurrealReads Response T F}
variable {permits : SurrealCall → Prop} {own : Statement → Prop}

theorem callsOnly_onPool {migration : Migration Unit} (h : migration.run.CallsOnly own)
    (hpermits : ∀ statement, own statement → permits (.runRaw statement.text statement.params)) :
    (onPool reads migration : SurrealComputation Response T Unit).run.CallsOnly permits := by
  refine Program.callsOnly_carryOut h fun statement hown => ?_
  exact Program.callsOnly_call (hpermits statement hown) fun _ => Program.callsOnly_done _

theorem callsOnly_migrateWith {migration : Migration Unit} {scripts : List MigrationScript}
    (h : migration.run.CallsOnly own)
    (hpermits : ∀ statement, own statement → permits (.runRaw statement.text statement.params))
    (htell : permits (.aside
      (.recordRequest ⟨"__system__"⟩ migrationTable "migrate" scripts.length))) :
    (migrateWith reads migration scripts : SurrealComputation Response T Unit).run.CallsOnly
      permits := by
  refine callsOnly_fallible_bind (callsOnly_onPool h hpermits) fun _ => ?_
  split
  case isTrue => exact Program.callsOnly_done _
  case isFalse => exact Program.callsOnly_call htell fun _ => Program.callsOnly_done _

theorem callsOnly_versionRows {statement : String}
    (htable : permits (.runRaw Statement.defineTable.text ∅))
    (hselect : permits (.runRaw statement ∅)) :
    (versionRows reads statement : SurrealComputation Response T _).run.CallsOnly permits := by
  refine callsOnly_fallible_bind (callsOnly_onPool (callsOnly_runRaw rfl) ?_) fun _ => ?_
  · rintro _ rfl
    exact htable
  · refine callsOnly_fallible_bind (Program.callsOnly_perform hselect) fun response => ?_
    exact Program.callsOnly_done _

end SurrealMigrator

theorem callsOnly_applyMigrations {Response T : Type} {permits : SurrealCall → Prop}
    {migrations : List String} (h : ∀ statement ∈ migrations, permits (.runRaw statement ∅)) :
    (applyMigrations migrations : SurrealComputation Response T Unit).run.CallsOnly permits := by
  refine callsOnly_forM fun statement hstatement => ?_
  refine callsOnly_fallible_bind (Program.callsOnly_perform (h statement hstatement)) fun _ => ?_
  exact Program.callsOnly_done _

end Soulbase.Storage
