/-
# The transactions of the migrator

`SurrealMigrator` sends the statements of a migration one by one: `BEGIN TRANSACTION`, then each
script with the statement that keeps the table of migrations, then `COMMIT TRANSACTION`. Where a
script is answered with an error it sends `CANCEL TRANSACTION`; where the other statement is, it
only returns. An answer that lists failed statements is not looked at. So the transaction is closed
if a script has been answered with an error, or if nothing has failed, and else it is left open or
committed. On a connection to the database of the migrations, these statements come to what the
migrator comes to there.
-/

import Soulbase.Foundation.Program
import Soulbase.Storage.Migrations

namespace Soulbase.Storage.MigrationTransactions

open Soulbase.Foundation SurrealMigrator

/-- The statements that a migration sends with `run_raw`. -/
inductive Statement
  /-- `DEFINE TABLE` for the table of migrations, with its fields and its index. -/
  | defineTable
  /-- `BEGIN TRANSACTION`. -/
  | begin
  /-- A script, up or down. -/
  | script (sql : String)
  /-- `INSERT` of a version and its checksum into the table of migrations. -/
  | record (version checksum : String)
  /-- `DELETE` of a version from it. -/
  | forget (version : String)
  /-- `COMMIT TRANSACTION`. -/
  | commit
  /-- `CANCEL TRANSACTION`. -/
  | cancel

/-- What the client answers: an error, or how each statement of the text has ended. -/
abbrev Answer := StorageResult (List (StorageResult Unit))

/-- A migration, as the statements it sends. -/
abbrev Migration := ExceptT StorageError (Program Statement fun _ => Answer)

/-- A statement with its answer. -/
abbrev Sent := Sigma fun _ : Statement => Answer

/-- `SurrealPool::run_raw`, where its answer is only asked for errors. -/
def runRaw (statement : Statement) : Migration Unit := do
  let answer ← ExceptT.lift (perform statement)
  match answer with
  | .error err => throw err
  | .ok _ => return ()

/-- `SurrealMigrator::ensure_table`. -/
def ensureTable : Migration Unit := runRaw .defineTable

section Loops

variable (sql : MigrationScript → String) (bookkeeping : MigrationScript → Statement)

/-- A round of the loops. -/
def runScript (script : MigrationScript) : Migration Unit := do
  let answer ← ExceptT.lift (perform (.script (sql script)))
  match answer with
  | .error err => do
      let _ ← ExceptT.lift (perform .cancel)
      throw err
  | .ok _ => runRaw (bookkeeping script)

/-- What `apply_up` and `apply_down` have in common. -/
def applyScripts (scripts : List MigrationScript) : Migration Unit := do
  ensureTable
  if scripts.isEmpty then return ()
  runRaw .begin
  scripts.forM (runScript sql bookkeeping)
  runRaw .commit

end Loops

/-- `SurrealMigrator::apply_up`. -/
def applyUp (scripts : List MigrationScript) : Migration Unit :=
  applyScripts (·.upSql) (fun script => .record script.version script.checksum) scripts

/-- `SurrealMigrator::apply_down`. -/
def applyDown (scripts : List MigrationScript) : Migration Unit :=
  applyScripts (·.downSql) (fun script => .forget script.version) scripts

/-- The statements of the migration itself: a script, and what keeps the table of migrations. -/
def Statement.isWork : Statement → Bool
  | .script _ | .record _ _ | .forget _ => true
  | .defineTable | .begin | .commit | .cancel => false

/-- Whether a statement ends a transaction. -/
def Statement.isEnd : Statement → Bool
  | .commit | .cancel => true
  | .defineTable | .begin | .script _ | .record _ _ | .forget _ => false

/-- Whether a statement has failed: the client answers with an error, or with one of a statement
in the text. -/
def Failed : Answer → Prop
  | .error _ => True
  | .ok results => ∃ err, .error err ∈ results

/-- No statement of the migration itself has failed. -/
def NoneFailed (sent : List Sent) : Prop := ∀ call ∈ sent, call.1.isWork → ¬ Failed call.2

/-- After `BEGIN TRANSACTION` there is one `COMMIT TRANSACTION` or `CANCEL TRANSACTION`, and the
first only where nothing has failed. -/
def Closed : List Sent → Prop
  | [] => True
  | call :: rest =>
      (call.1 = .begin → rest.countP (·.1.isEnd) = 1 ∧
        ((∃ answer, ⟨.commit, answer⟩ ∈ rest) → NoneFailed rest)) ∧ Closed rest

/-- `BEGIN TRANSACTION` is not answered with an error. -/
def BeginAnswered (sent : List Sent) : Prop := ∀ err, ⟨.begin, .error err⟩ ∉ sent

/-- The client answers a script with an error. -/
def ScriptRefused (sent : List Sent) : Prop := ∃ sql err, ⟨.script sql, .error err⟩ ∈ sent

/-- Statements that are all answered, each of the migration itself. -/
def Answered (sent : List Sent) : Prop :=
  ∀ call ∈ sent, call.1.isWork ∧ ∃ results, call.2 = .ok results

/-- How the loops end: all is answered, or a script is not and the transaction is cancelled, or
what keeps the table is not. -/
inductive LoopEnds : List Sent → StorageResult Unit → Prop
  | passed {sent : List Sent} (h : Answered sent) : LoopEnds sent (.ok ())
  | cancelled {sent : List Sent} (h : Answered sent) (sql : String) (err : StorageError)
      (answer : Answer) :
      LoopEnds (sent ++ [⟨.script sql, .error err⟩, ⟨.cancel, answer⟩]) (.error err)
  | abandoned {sent : List Sent} (h : Answered sent) (statement : Statement) (err : StorageError)
      (hwork : statement.isWork) (hscript : ∀ sql, statement ≠ .script sql) :
      LoopEnds (sent ++ [⟨statement, .error err⟩]) (.error err)

/-- What a transaction sends after `BEGIN`, where that is answered. -/
inductive BodyEnds : List Sent → Prop
  | committed {loop : List Sent} (h : LoopEnds loop (.ok ())) (answer : Answer) :
      BodyEnds (loop ++ [⟨.commit, answer⟩])
  | returned {body : List Sent} {err : StorageError} (h : LoopEnds body (.error err)) :
      BodyEnds body

theorem runs_runRaw {statement : Statement} {sent : List Sent} {result : StorageResult Unit}
    (h : Runs (runRaw statement).run sent result) :
    (∃ err, sent = [⟨statement, .error err⟩] ∧ result = .error err) ∨
      ∃ results, sent = [⟨statement, .ok results⟩] ∧ result = .ok () := by
  obtain ⟨before, answer, after, rfl, hcall, hrest⟩ := runs_lift_bind_iff.mp h
  obtain ⟨_, _, rfl, hdone⟩ := runs_call_iff.mp hcall
  obtain ⟨rfl, rfl⟩ := runs_done_iff.mp hdone
  cases answer with
  | error err =>
      obtain ⟨rfl, rfl⟩ := runs_done_iff.mp hrest
      exact .inl ⟨err, rfl, rfl⟩
  | ok results =>
      obtain ⟨rfl, rfl⟩ := runs_done_iff.mp hrest
      exact .inr ⟨results, rfl, rfl⟩

theorem Answered.append {first second : List Sent} (hfirst : Answered first)
    (hsecond : Answered second) : Answered (first ++ second) :=
  fun call hcall => (List.mem_append.mp hcall).elim (hfirst call) (hsecond call)

theorem LoopEnds.after {first second : List Sent} {result : StorageResult Unit}
    (hfirst : Answered first) (h : LoopEnds second result) : LoopEnds (first ++ second) result := by
  cases h with
  | passed hsecond => exact .passed (hfirst.append hsecond)
  | cancelled hsecond sql err answer =>
      rw [← List.append_assoc]
      exact .cancelled (hfirst.append hsecond) sql err answer
  | abandoned hsecond statement err hwork hscript =>
      rw [← List.append_assoc]
      exact .abandoned (hfirst.append hsecond) statement err hwork hscript

section Loops

variable {sql : MigrationScript → String} {bookkeeping : MigrationScript → Statement}

theorem runs_runScript (hwork : ∀ script, (bookkeeping script).isWork)
    (hscript : ∀ script text, bookkeeping script ≠ .script text) {script : MigrationScript}
    {sent : List Sent} {result : StorageResult Unit}
    (h : Runs (runScript sql bookkeeping script).run sent result) : LoopEnds sent result := by
  obtain ⟨before, answer, after, rfl, hcall, hrest⟩ := runs_lift_bind_iff.mp h
  obtain ⟨_, _, rfl, hdone⟩ := runs_call_iff.mp hcall
  obtain ⟨rfl, rfl⟩ := runs_done_iff.mp hdone
  cases answer with
  | error err =>
      obtain ⟨_, _, _, rfl, hcancel, hthrow⟩ := runs_lift_bind_iff.mp hrest
      obtain ⟨_, _, rfl, hdone⟩ := runs_call_iff.mp hcancel
      obtain ⟨rfl, rfl⟩ := runs_done_iff.mp hdone
      obtain ⟨rfl, rfl⟩ := runs_done_iff.mp hthrow
      exact .cancelled (fun _ hcall => absurd hcall List.not_mem_nil) _ err _
  | ok results =>
      have hran : Answered [⟨.script (sql script), .ok results⟩] := by
        rintro call hcall
        obtain rfl := List.mem_singleton.mp hcall
        exact ⟨rfl, results, rfl⟩
      rcases runs_runRaw hrest with ⟨err, rfl, rfl⟩ | ⟨kept, rfl, rfl⟩
      · exact .abandoned hran _ err (hwork script) (hscript script)
      · refine .passed (hran.append ?_)
        rintro call hcall
        obtain rfl := List.mem_singleton.mp hcall
        exact ⟨hwork script, kept, rfl⟩

/-- By induction on the scripts. -/
theorem runs_loop (hwork : ∀ script, (bookkeeping script).isWork)
    (hscript : ∀ script text, bookkeeping script ≠ .script text) {scripts : List MigrationScript}
    {sent : List Sent} {result : StorageResult Unit}
    (h : Runs (scripts.forM (runScript sql bookkeeping)).run sent result) :
    LoopEnds sent result := by
  induction scripts generalizing sent with
  | nil =>
      obtain ⟨rfl, rfl⟩ := runs_done_iff.mp h
      exact .passed fun _ hcall => absurd hcall List.not_mem_nil
  | cons script rest ih =>
      rcases runs_fallible_bind_iff.mp h with
        ⟨err, hround, rfl⟩ | ⟨before, _, after, rfl, hround, hrest⟩
      · exact runs_runScript hwork hscript hround
      · cases runs_runScript hwork hscript hround with
        | passed hbefore => exact (ih hrest).after hbefore

/-- The transaction is not begun, or cannot be, or the loop runs in it, with `COMMIT` behind it if
it returns. -/
theorem runs_applyScripts (hwork : ∀ script, (bookkeeping script).isWork)
    (hscript : ∀ script text, bookkeeping script ≠ .script text) {scripts : List MigrationScript}
    {sent : List Sent} {result : StorageResult Unit}
    (h : Runs (applyScripts sql bookkeeping scripts).run sent result) :
    ∃ defined rest, sent = ⟨.defineTable, defined⟩ :: rest ∧
      (rest = [] ∨ (∃ err, rest = [⟨.begin, .error err⟩]) ∨
        ∃ results body, rest = ⟨.begin, .ok results⟩ :: body ∧ BodyEnds body) := by
  rcases runs_fallible_bind_iff.mp h with
    ⟨err, hdefine, rfl⟩ | ⟨before, _, after, rfl, hdefine, hrest⟩
  · rcases runs_runRaw hdefine with ⟨_, rfl, _⟩ | ⟨_, rfl, _⟩
    · exact ⟨_, _, rfl, .inl rfl⟩
    · exact ⟨_, _, rfl, .inl rfl⟩
  obtain ⟨defined, rfl⟩ : ∃ defined, before = [⟨.defineTable, defined⟩] := by
    rcases runs_runRaw hdefine with ⟨_, rfl, _⟩ | ⟨_, rfl, _⟩
    · exact ⟨_, rfl⟩
    · exact ⟨_, rfl⟩
  refine ⟨defined, after, rfl, ?_⟩
  split at hrest
  · obtain ⟨rfl, rfl⟩ := runs_done_iff.mp hrest
    exact .inl rfl
  right
  rcases runs_fallible_bind_iff.mp hrest with
    ⟨err, hbegin, rfl⟩ | ⟨before, _, after, rfl, hbegin, hbody⟩
  · rcases runs_runRaw hbegin with ⟨_, rfl, _⟩ | ⟨_, rfl, hok⟩
    · exact .inl ⟨_, rfl⟩
    · cases hok
  right
  rcases runs_runRaw hbegin with ⟨_, _, hok⟩ | ⟨results, rfl, _⟩
  · cases hok
  refine ⟨results, after, rfl, ?_⟩
  rcases runs_fallible_bind_iff.mp hbody with
    ⟨err, hloop, rfl⟩ | ⟨before, _, after, rfl, hloop, hcommit⟩
  · exact .returned (runs_loop hwork hscript hloop)
  · rcases runs_runRaw hcommit with ⟨_, rfl, _⟩ | ⟨_, rfl, _⟩
    · exact .committed (runs_loop hwork hscript hloop) _
    · exact .committed (runs_loop hwork hscript hloop) _

end Loops

/-! ## When it is closed -/

theorem closed_of_not_begin {sent : List Sent} (h : ∀ call ∈ sent, call.1 ≠ .begin) :
    Closed sent := by
  induction sent with
  | nil => trivial
  | cons call rest ih =>
      obtain ⟨hcall, hrest⟩ := List.forall_mem_cons.mp h
      exact ⟨fun hbegin => absurd hbegin hcall, ih hrest⟩

/-- The transaction that is begun first is the only one. -/
theorem closed_cons_begin {defined : Answer} {results : List (StorageResult Unit)}
    {rest : List Sent} (h : ∀ call ∈ rest, call.1 ≠ .begin) :
    Closed (⟨.defineTable, defined⟩ :: ⟨.begin, .ok results⟩ :: rest) ↔
      rest.countP (·.1.isEnd) = 1 ∧
        ((∃ answer, ⟨.commit, answer⟩ ∈ rest) → NoneFailed rest) := by
  constructor
  · rintro ⟨_, hbegin, _⟩
    exact hbegin rfl
  · intro hrest
    exact ⟨nofun, fun _ => hrest, closed_of_not_begin h⟩

theorem Answered.not_begin {sent : List Sent} (h : Answered sent) :
    ∀ call ∈ sent, call.1 ≠ .begin := by
  rintro call hcall hbegin
  have hwork := (h call hcall).1
  rw [hbegin] at hwork
  cases hwork

theorem Answered.countP_isEnd {sent : List Sent} (h : Answered sent) :
    sent.countP (·.1.isEnd) = 0 := by
  rw [List.countP_eq_zero]
  intro call hcall hend
  have hwork := (h call hcall).1
  cases hstatement : call.1 <;> simp [hstatement, Statement.isWork, Statement.isEnd] at hwork hend

theorem Answered.not_refused {sent : List Sent} (h : Answered sent) {statement : Statement}
    {err : StorageError} : ⟨statement, .error err⟩ ∉ sent := by
  intro hmem
  obtain ⟨_, hok⟩ := (h _ hmem).2
  cases hok

theorem BodyEnds.not_begin {body : List Sent} (h : BodyEnds body) :
    ∀ call ∈ body, call.1 ≠ .begin := by
  cases h with
  | committed h answer =>
      cases h with
      | passed hloop =>
          rintro call hcall
          rcases List.mem_append.mp hcall with hcall | hcall
          · exact hloop.not_begin call hcall
          · obtain rfl := List.mem_singleton.mp hcall
            exact nofun
  | returned h =>
      cases h with
      | cancelled hloop sql err answer =>
          rintro call hcall
          rcases List.mem_append.mp hcall with hcall | hcall
          · exact hloop.not_begin call hcall
          · rcases List.mem_cons.mp hcall with rfl | hcall
            · exact nofun
            · obtain rfl := List.mem_singleton.mp hcall
              exact nofun
      | abandoned hloop statement err hwork hscript =>
          rintro call hcall
          rcases List.mem_append.mp hcall with hcall | hcall
          · exact hloop.not_begin call hcall
          · obtain rfl := List.mem_singleton.mp hcall
            rintro rfl
            cases hwork

/-- The end of a body says whether its transaction is closed. -/
theorem BodyEnds.ended_iff {body : List Sent} (h : BodyEnds body) :
    (body.countP (·.1.isEnd) = 1 ∧ ((∃ answer, ⟨.commit, answer⟩ ∈ body) → NoneFailed body)) ↔
      ScriptRefused body ∨ NoneFailed body := by
  cases h with
  | @committed loop h answer =>
      cases h with
      | passed hloop =>
          have hcount : (loop ++ [(⟨.commit, answer⟩ : Sent)]).countP (·.1.isEnd) = 1 := by
            rw [List.countP_append, hloop.countP_isEnd]
            rfl
          constructor
          · rintro ⟨_, hcommit⟩
            exact .inr (hcommit ⟨answer, List.mem_append_right _ (List.mem_singleton_self _)⟩)
          · rintro (⟨sql, err, hrefused⟩ | hnone)
            · rcases List.mem_append.mp hrefused with hrefused | hrefused
              · exact absurd hrefused hloop.not_refused
              · cases List.mem_singleton.mp hrefused
            · exact ⟨hcount, fun _ => hnone⟩
  | @returned _ err h =>
      cases h with
      | cancelled hloop sql _ answer =>
          refine iff_of_true ⟨?_, ?_⟩ (.inl ⟨sql, err, ?_⟩)
          · rw [List.countP_append, hloop.countP_isEnd]
            rfl
          · rintro ⟨committed, hcommit⟩
            rcases List.mem_append.mp hcommit with hcommit | hcommit
            · cases (hloop _ hcommit).1
            · simp at hcommit
          · exact List.mem_append_right _ List.mem_cons_self
      | abandoned hloop statement _ hwork hscript =>
          have hend : statement.isEnd = false := by
            cases statement <;> first | rfl | cases hwork
          refine iff_of_false ?_ ?_
          · rintro ⟨hcount, _⟩
            rw [List.countP_append, hloop.countP_isEnd] at hcount
            simp [hend] at hcount
          · rintro (⟨sql, other, hrefused⟩ | hnone)
            · rcases List.mem_append.mp hrefused with hrefused | hrefused
              · exact hloop.not_refused hrefused
              · cases List.mem_singleton.mp hrefused
                exact hscript sql rfl
            · exact hnone _ (List.mem_append_right _ (List.mem_singleton_self _)) hwork trivial

section Statements

variable {defined : Answer} {results : List (StorageResult Unit)} {body : List Sent}

theorem scriptRefused_cons_begin :
    ScriptRefused (⟨.defineTable, defined⟩ :: ⟨.begin, .ok results⟩ :: body) ↔
      ScriptRefused body := by
  simp [ScriptRefused]

theorem noneFailed_cons_begin :
    NoneFailed (⟨.defineTable, defined⟩ :: ⟨.begin, .ok results⟩ :: body) ↔ NoneFailed body := by
  simp [NoneFailed, Statement.isWork]

theorem beginAnswered_cons_begin (h : ∀ call ∈ body, call.1 ≠ .begin) :
    BeginAnswered (⟨.defineTable, defined⟩ :: ⟨.begin, .ok results⟩ :: body) := by
  intro err hmem
  have hbody : ⟨.begin, .error err⟩ ∈ body := by simpa using hmem
  exact h _ hbody rfl

end Statements

theorem applyScripts_closed_iff {sql : MigrationScript → String}
    {bookkeeping : MigrationScript → Statement} (hwork : ∀ script, (bookkeeping script).isWork)
    (hscript : ∀ script text, bookkeeping script ≠ .script text) {scripts : List MigrationScript}
    {sent : List Sent} {result : StorageResult Unit}
    (h : Runs (applyScripts sql bookkeeping scripts).run sent result) :
    Closed sent ↔ BeginAnswered sent ∧ (ScriptRefused sent ∨ NoneFailed sent) := by
  obtain ⟨defined, rest, rfl, rfl | ⟨err, rfl⟩ | ⟨results, body, rfl, hbody⟩⟩ :=
    runs_applyScripts hwork hscript h
  · refine iff_of_true ⟨nofun, trivial⟩ ⟨by simp [BeginAnswered], .inr ?_⟩
    simp [NoneFailed, Statement.isWork]
  · refine iff_of_false ?_ ?_
    · rintro ⟨_, hbegin, _⟩
      cases (hbegin rfl).1
    · rintro ⟨hbegin, _⟩
      exact hbegin err (by simp)
  · rw [closed_cons_begin hbody.not_begin, hbody.ended_iff, scriptRefused_cons_begin,
      noneFailed_cons_begin]
    exact (and_iff_right (beginAnswered_cons_begin hbody.not_begin)).symm

/-- A migration leaves its transaction closed exactly where `BEGIN TRANSACTION` is answered, if it
is sent, and either a script is answered with an error or neither a script nor what keeps the table
of migrations has failed. -/
theorem transaction_closed_iff {scripts : List MigrationScript} {sent : List Sent}
    {result : StorageResult Unit}
    (h : Runs (applyUp scripts).run sent result ∨ Runs (applyDown scripts).run sent result) :
    Closed sent ↔ BeginAnswered sent ∧ (ScriptRefused sent ∨ NoneFailed sent) := by
  rcases h with h | h
  · exact applyScripts_closed_iff (fun _ => rfl) (fun _ _ hscript => by cases hscript) h
  · exact applyScripts_closed_iff (fun _ => rfl) (fun _ _ hscript => by cases hscript) h

/-- The answers to the statements of one script. -/
def oneScript (kept : Answer) (last : List Sent) : List Sent :=
  [⟨.defineTable, .ok []⟩, ⟨.begin, .ok []⟩, ⟨.script "DEFINE TABLE orders", .ok []⟩,
    ⟨.record "1" "abc", kept⟩] ++ last

def ordersScript : MigrationScript := ⟨"1", "DEFINE TABLE orders", "REMOVE TABLE orders", "abc"⟩

theorem runs_applyUp_orders :
    Runs (applyUp [ordersScript]).run (oneScript (.ok []) [⟨.commit, .ok []⟩]) (.ok ()) :=
  .call (.call (.call (.call (.call (.done _)))))

theorem transaction_closed_iff_orders :
    Closed (oneScript (.ok []) [⟨.commit, .ok []⟩]) ↔
      BeginAnswered (oneScript (.ok []) [⟨.commit, .ok []⟩]) ∧
        (ScriptRefused (oneScript (.ok []) [⟨.commit, .ok []⟩]) ∨
          NoneFailed (oneScript (.ok []) [⟨.commit, .ok []⟩])) :=
  transaction_closed_iff (.inl runs_applyUp_orders)

def timeout : StorageError := .providerUnavailable "timeout"

/-- The provider times out at the `INSERT`, and nothing follows. -/
theorem not_closed_unrecorded :
    Runs (applyUp [ordersScript]).run (oneScript (.error timeout) []) (.error timeout) ∧
      ¬ Closed (oneScript (.error timeout) []) := by
  refine ⟨.call (.call (.call (.call (.done _)))), ?_⟩
  rintro ⟨_, hbegin, _⟩
  cases (hbegin rfl).1

/-- A connection: the rows before the transaction that is open, if one is. -/
structure Connection where
  before : List MigrationRow
  transaction : Option Transaction

namespace Connection

/-- The rows that a statement sees. -/
def rows (connection : Connection) : List MigrationRow :=
  match connection.transaction with
  | none => connection.before
  | some transaction => transaction.rows

/-- A statement changes the transaction that is open, or is one of its own. -/
def write (connection : Connection) (change : Transaction → Transaction) : Connection :=
  match connection.transaction with
  | none => { connection with before := (change ⟨connection.before, false⟩).rows }
  | some transaction => { connection with transaction := some (change transaction) }

/-- The rows that are left when the call has returned. -/
def left (db : MigrationDb) (connection : Connection) : List MigrationRow :=
  match connection.transaction with
  | none => connection.before
  | some transaction => db.abandoned connection.before transaction.rows

end Connection

/-- The answer of a client that has returned so. -/
def answer (result : StorageResult Unit) : Answer := result.map fun _ => []

/-- What a statement does on a connection to the database. -/
def respond (db : MigrationDb) : Statement → Connection → Answer × Connection
  | .defineTable, connection => (.ok [], connection)
  | .begin, connection =>
      (.ok [], { connection with transaction := some ⟨connection.before, false⟩ })
  | .script sql, connection => (answer (db.runSql sql), connection)
  | .record version checksum, connection =>
      if version ∈ appliedVersions connection.rows then
        (answer (db.duplicate version), connection.write ({ · with failed := true }))
      else (.ok [], connection.write fun transaction =>
        { transaction with rows := transaction.rows ++ [⟨version, checksum⟩] })
  | .forget version, connection =>
      (.ok [], connection.write fun transaction =>
        { transaction with rows := transaction.rows.filter (·.version ≠ version) })
  | .commit, connection =>
      match connection.transaction with
      | none => (.ok [], connection)
      | some transaction =>
          if transaction.failed then
            let ended := db.commitFailed connection.before transaction.rows
            (answer ended.1, ⟨ended.2, none⟩)
          else (.ok [], ⟨transaction.rows, none⟩)
  | .cancel, connection => (.ok [], { connection with transaction := none })

/-- The statements of a transaction have ended so, on a connection. -/
def EndsAs (db : MigrationDb) (before : List MigrationRow)
    (ended : StorageResult Unit × Connection) : Statements → Prop
  | .ok transaction => ended = (.ok (), ⟨before, some transaction⟩)
  | .error (err, rows) => ended.1 = .error err ∧ ended.2.left db = rows

section Loops

variable {db : MigrationDb} {connection next : Connection} {before : List MigrationRow}

theorem runIn_runRaw {statement : Statement} {result : StorageResult Unit}
    (h : respond db statement connection = (answer result, next)) :
    (runRaw statement).run.runIn (respond db) connection = (result, next) := by
  have hcall : (runRaw statement).run.runIn (respond db) connection =
      ((respond db statement connection).1.map fun _ => (),
        (respond db statement connection).2) := by
    change Program.runIn _ (match (respond db statement connection).1 with
      | .error err => throw err
      | .ok _ => pure () : Migration Unit).run _ = _
    cases (respond db statement connection).1 <;> rfl
  rw [hcall, h]
  cases result <;> rfl

section Rounds

variable {sql : MigrationScript → String} {bookkeeping : MigrationScript → Statement}
variable {script : MigrationScript}

theorem runIn_runScript_error {err : StorageError} (hsql : db.runSql (sql script) = .error err) :
    (runScript sql bookkeeping script).run.runIn (respond db) connection =
      (.error err, { connection with transaction := none }) := by
  change Program.runIn _ (match answer (db.runSql (sql script)) with
    | .error err => do
        let _ ← ExceptT.lift (perform .cancel)
        throw err
    | .ok _ => runRaw (bookkeeping script) : Migration Unit).run _ = _
  rw [hsql]
  rfl

theorem runIn_runScript_ok {result : StorageResult Unit} (hsql : db.runSql (sql script) = .ok ())
    (h : respond db (bookkeeping script) connection = (answer result, next)) :
    (runScript sql bookkeeping script).run.runIn (respond db) connection = (result, next) := by
  change Program.runIn _ (match answer (db.runSql (sql script)) with
    | .error err => do
        let _ ← ExceptT.lift (perform .cancel)
        throw err
    | .ok _ => runRaw (bookkeeping script) : Migration Unit).run _ = _
  rw [hsql]
  exact runIn_runRaw h

end Rounds

/-- By induction on the scripts. -/
theorem endsAs_upLoop {scripts : List MigrationScript} {transaction : Transaction} :
    EndsAs db before
      ((scripts.forM (runScript (·.upSql)
        fun script => .record script.version script.checksum)).run.runIn (respond db)
          ⟨before, some transaction⟩)
      (upLoop db before transaction scripts).1 := by
  induction scripts generalizing transaction with
  | nil => rfl
  | cons script rest ih =>
      rw [List.forM]
      cases hsql : db.runSql script.upSql with
      | error err =>
          rw [runIn_bind_error (runIn_runScript_error hsql), upLoop, hsql]
          exact ⟨rfl, rfl⟩
      | ok =>
          by_cases happlied : script.version ∈ appliedVersions transaction.rows
          · have hrecord : respond db (.record script.version script.checksum)
                ⟨before, some transaction⟩ =
                (answer (db.duplicate script.version),
                  ⟨before, some { transaction with failed := true }⟩) := if_pos happlied
            cases hduplicate : db.duplicate script.version with
            | error err =>
                rw [hduplicate] at hrecord
                rw [runIn_bind_error (runIn_runScript_ok hsql hrecord)]
                simp only [upLoop, hsql, if_pos happlied, hduplicate]
                exact ⟨rfl, rfl⟩
            | ok =>
                rw [hduplicate] at hrecord
                rw [runIn_bind_ok (runIn_runScript_ok hsql hrecord)]
                simp only [upLoop, hsql, if_pos happlied, hduplicate]
                exact ih
          · have hrecord : respond db (.record script.version script.checksum)
                ⟨before, some transaction⟩ =
                (answer (.ok ()), ⟨before, some { transaction with
                  rows := transaction.rows ++ [⟨script.version, script.checksum⟩] }⟩) :=
              if_neg happlied
            rw [runIn_bind_ok (runIn_runScript_ok hsql hrecord)]
            simp only [upLoop, hsql, if_neg happlied]
            exact ih

theorem endsAs_downLoop {scripts : List MigrationScript} {rows : List MigrationRow} :
    EndsAs db before
      ((scripts.forM (runScript (·.downSql) fun script => .forget script.version)).run.runIn
        (respond db) ⟨before, some ⟨rows, false⟩⟩)
      (downLoop db before rows scripts) := by
  induction scripts generalizing rows with
  | nil => rfl
  | cons script rest ih =>
      rw [List.forM]
      cases hsql : db.runSql script.downSql with
      | error err =>
          rw [runIn_bind_error (runIn_runScript_error hsql), downLoop, hsql]
          exact ⟨rfl, rfl⟩
      | ok =>
          have hforget : respond db (.forget script.version) ⟨before, some ⟨rows, false⟩⟩ =
              (answer (.ok ()), ⟨before, some ⟨rows.filter (·.version ≠ script.version), false⟩⟩) :=
            rfl
          rw [runIn_bind_ok (runIn_runScript_ok hsql hforget), downLoop, hsql]
          exact ih

/-- A call returns what the statements end with, and leaves their rows. -/
theorem runIn_applyScripts {sql : MigrationScript → String}
    {bookkeeping : MigrationScript → Statement} {scripts : List MigrationScript}
    {statements : Statements}
    (hloop : EndsAs db before ((scripts.forM (runScript sql bookkeeping)).run.runIn (respond db)
      ⟨before, some ⟨before, false⟩⟩) statements) (hscripts : scripts ≠ []) :
    let ended := (applyScripts sql bookkeeping scripts).run.runIn (respond db) ⟨before, none⟩
    (ended.1, ended.2.left db) = commit db before statements := by
  have hrun : (applyScripts sql bookkeeping scripts).run.runIn (respond db) ⟨before, none⟩ =
      (scripts.forM (runScript sql bookkeeping) >>= fun _ => runRaw .commit).run.runIn
        (respond db) ⟨before, some ⟨before, false⟩⟩ := by
    cases scripts with
    | nil => exact absurd rfl hscripts
    | cons script rest => rfl
  rw [hrun]
  cases statements with
  | error ended =>
      obtain ⟨herr, hleft⟩ := hloop
      rw [runIn_bind_error (Prod.ext herr rfl)]
      exact Prod.ext rfl hleft
  | ok transaction =>
      rw [runIn_bind_ok hloop]
      by_cases hfailed : transaction.failed
      · have hcommit : respond db .commit ⟨before, some transaction⟩ =
            (answer (db.commitFailed before transaction.rows).1,
              ⟨(db.commitFailed before transaction.rows).2, none⟩) := if_pos hfailed
        rw [runIn_runRaw hcommit, commit, if_pos hfailed]
        rfl
      · have hcommit : respond db .commit ⟨before, some transaction⟩ =
            (answer (.ok ()), ⟨transaction.rows, none⟩) := if_neg hfailed
        rw [runIn_runRaw hcommit, commit, if_neg hfailed]
        rfl

/-- On a connection to the database, the statements of `apply_up` come to what the migrator comes
to there. -/
theorem runIn_applyUp {scripts : List MigrationScript} :
    let ended := (applyUp scripts).run.runIn (respond db) ⟨before, none⟩
    (ended.1, ended.2.left db) = (SurrealMigrator.applyUp db before scripts).1 := by
  by_cases hscripts : scripts = []
  · rw [hscripts]
    rfl
  · rw [SurrealMigrator.applyUp, if_neg hscripts]
    exact runIn_applyScripts endsAs_upLoop hscripts

/-- The same of `apply_down`. -/
theorem runIn_applyDown {scripts : List MigrationScript} :
    let ended := (applyDown scripts).run.runIn (respond db) ⟨before, none⟩
    (ended.1, ended.2.left db) = SurrealMigrator.applyDown db before scripts := by
  by_cases hscripts : scripts = []
  · rw [hscripts]
    rfl
  · rw [SurrealMigrator.applyDown, if_neg hscripts]
    exact runIn_applyScripts endsAs_downLoop hscripts

end Loops

end Soulbase.Storage.MigrationTransactions
