/-
# What reaches SurrealDB

All users of a `SurrealDatastore` share one client. Whatever they do at once, and whoever gives up
in the middle, there are never more queries under way than the pool has permits.

What a repository, the graph, the vectors or the search send for a tenant has `$tenant` bound to
it, whatever ids, patches, filters or properties they are given, and apart from `CREATE` and
`UPSERT` it is held to it. A session sends what it is given, and the tenant is who the parameters
say. The guard of `bind_tenant` never refuses there, since it compares the tenant with itself.

Whoever calls `run_raw` itself, as the migrations do, sends what it is given, for no tenant.

A transaction is one by its statements only. Its owner sends `BEGIN TRANSACTION` before anything
else and one end at most, and nothing after it.
-/

import Soulbase.Foundation.Permits
import Soulbase.Storage.RawStatements
import Soulbase.Storage.TenantCondition

namespace Soulbase.Storage

open Soulbase.Foundation SurrealComputation MigrationTransactions

/-- What a user of the pool does. -/
inductive SurrealTask (T F : Type)
  | query (statement : String) (params : NamedArgs)
  | queryJson (statement : String) (params : NamedArgs)
  | transaction (work : TxWork)
  | health
  /-- `run_raw` by anybody. -/
  | runRaw (statement : String) (params : NamedArgs)
  | currentVersion
  | appliedVersions
  | applyUp (scripts : List MigrationScript)
  | applyDown (scripts : List MigrationScript)
  | applyMigrations (migrations : List String)
  | get (kept : EntityTable T) (tenant : TenantId) (id : String)
  | create (kept : EntityTable T) (tenant : TenantId) (doc : T)
  | upsert (kept : EntityTable T) (tenant : TenantId) (id : String) (patch : Json.Value)
      (expectedVersion : Option UInt64)
  | upsertReturningNone (kept : EntityTable T) (tenant : TenantId) (id : String)
      (patch : Json.Value)
  | delete (kept : EntityTable T) (tenant : TenantId) (id : String)
  | select (kept : EntityTable T) (tenant : TenantId) (filter : Json.Value)
      (sorts : Option (List SortKey)) (limit : UInt64) (cursor : Option String)
  | relate (tenant : TenantId) (source edge target : String) (properties : Json.Value)
  | out (tenant : TenantId) (source edge : String) (limit : UInt64)
  | «in» (tenant : TenantId) (target edge : String) (limit : UInt64)
  | upsertVec (tenant : TenantId) (id : String) (embedding : List F)
  | removeVec (tenant : TenantId) (id : String)
  | knn (kept : EntityTable T) (tenant : TenantId) (query : List F) (k : UInt64)
      (withRepo : Bool)
  | search (kept : EntityTable T) (tenant : TenantId) (query : String) (limit : UInt64)

/-- A pool's users: how they read and write values, whether sessions are strict, and the text of
an error. -/
structure SurrealUsers (Response T F : Type) where
  reads : SurrealReads Response T F
  strict : Bool
  errText : StorageError → String

namespace SurrealTask

variable {Response T F : Type}

/-- A computation whose result is not looked at. -/
def ending {α : Type} (computation : SurrealComputation Response T α) :
    SurrealProgram Response T Unit := do
  let _ ← computation.run
  return ()

/-- What a task does. -/
def program (users : SurrealUsers Response T F) :
    SurrealTask T F → SurrealProgram Response T Unit
  | query statement params => ending (SurrealSession.query users.strict statement params)
  | queryJson statement params =>
      ending (SurrealSession.queryJson users.reads users.strict statement params)
  | transaction work => ending (ExceptT.mk (work.transaction users.strict))
  | health => ending (SurrealPool.health users.errText)
  | runRaw statement params => ending (SurrealComputation.runRaw statement params)
  | currentVersion => ending (SurrealMigrator.currentVersionWith users.reads)
  | appliedVersions => ending (SurrealMigrator.appliedVersionsWith users.reads)
  | applyUp scripts => ending (SurrealMigrator.applyUpWith users.reads scripts)
  | applyDown scripts => ending (SurrealMigrator.applyDownWith users.reads scripts)
  | applyMigrations migrations => ending (Storage.applyMigrations migrations)
  | get kept tenant id =>
      ending (SurrealRepository.getWith users.reads users.strict kept tenant id)
  | create kept tenant doc =>
      ending (SurrealRepository.createWith users.reads users.strict kept tenant doc)
  | upsert kept tenant id patch expectedVersion =>
      ending (SurrealRepository.upsertWith users.reads users.strict kept tenant id patch
        expectedVersion)
  | upsertReturningNone kept tenant id patch =>
      ending (SurrealRepository.upsertReturningNoneWith users.strict kept tenant id patch)
  | delete kept tenant id => ending (SurrealRepository.deleteWith users.strict kept tenant id)
  | select kept tenant filter sorts limit cursor =>
      ending (SurrealRepository.selectWith users.reads kept tenant filter sorts limit cursor)
  | relate tenant source edge target properties =>
      ending (SurrealGraph.relate tenant source edge target properties)
  | out tenant source edge limit =>
      ending (SurrealGraph.out users.reads tenant source edge limit)
  | «in» tenant target edge limit =>
      ending (SurrealGraph.in users.reads tenant target edge limit)
  | upsertVec tenant id embedding =>
      ending (SurrealVectorIndex.upsertVec users.reads tenant id embedding)
  | removeVec tenant id => ending (SurrealVectorIndex.removeVec tenant id)
  | knn kept tenant wanted k withRepo =>
      ending (SurrealVectorIndex.knn users.reads kept tenant wanted k withRepo)
  | search kept tenant wanted limit =>
      ending (SurrealSearch.search users.reads kept tenant wanted limit)

/-- The tenant that a task is for, unless its parameters say so. -/
def tenant? : SurrealTask T F → Option TenantId
  | query .. | queryJson .. | transaction _ | health | runRaw .. | currentVersion
  | appliedVersions | applyUp _ | applyDown _ | applyMigrations _ => none
  | get _ tenant _ | create _ tenant _ | upsert _ tenant _ _ _ | upsertReturningNone _ tenant _ _
  | delete _ tenant _ | select _ tenant _ _ _ _ | relate tenant _ _ _ _ | out tenant _ _ _
  | «in» tenant _ _ _ | upsertVec tenant _ _ | removeVec tenant _ | knn _ tenant _ _ _
  | search _ tenant _ _ => some tenant

end SurrealTask

/-- How a statement is held to the tenant that is bound. -/
inductive Held (tenant : TenantId) (statement : String) (bindings : NamedArgs) : Prop
  /-- It is about records of the tenant. -/
  | conditioned (h : Text.contains statement "tenant = $tenant" = true)
  /-- It writes the tenant into a new edge. -/
  | related (h : Text.startsWith statement "RELATE " = true) (entries : Json.Map)
      (hbound : bindings.get "properties" = some (.object entries))
      (hentry : Json.Map.get entries "tenant" = some (.string tenant.asStr))
  /-- It is not: the record of an id is created, or merged into without a condition. -/
  | unguarded (h : Text.startsWith statement "CREATE type::thing($table, $id)" = true ∨
      Text.startsWith statement "UPSERT type::thing($table, $id)" = true)

/-- What is sent for a tenant. -/
structure SentFor (tenant : TenantId) (statement : String) (bindings : NamedArgs) : Prop where
  bound : bindings.get "tenant" = some (.string tenant.asStr)
  held : Held tenant statement bindings

/-- What a session sends for its caller: the parameters, with the tenant that they name. -/
structure SentAs (strict : Bool) (params : NamedArgs) (bindings : NamedArgs) : Prop where
  bound : ∃ tenant, extractTenant params strict = .ok tenant ∧
    bindings.get "tenant" = some (.string tenant.asStr)
  rest : ∀ key, key ≠ "tenant" → Text.startsWith key "__" = false →
    bindings.get key = params.get key

/-- What is sent as it is given, apart from the hidden parameters. -/
def SentRaw (params : NamedArgs) (bindings : NamedArgs) : Prop :=
  ∀ key, Text.startsWith key "__" = false → bindings.get key = params.get key

/-- The owner of a transaction may execute a statement. -/
inductive TxWork.Executes : TxWork → String → NamedArgs → Prop
  | now {statement : String} {params : NamedArgs} {next : StorageResult QueryResult → TxWork} :
      Executes (.execute statement params next) statement params
  | later {statement other : String} {params others : NamedArgs}
      {next : StorageResult QueryResult → TxWork} {result : StorageResult QueryResult} :
      Executes (next result) other others → Executes (.execute statement params next) other others

namespace SurrealTask

variable {T F : Type}

/-- What a task sends. -/
def Sends (strict : Bool) (task : SurrealTask T F) (statement : String) (bindings : NamedArgs) :
    Prop :=
  match task with
  | query given params | queryJson given params => statement = given ∧ SentAs strict params bindings
  | transaction work =>
      ((statement = "BEGIN TRANSACTION" ∨ statement = "COMMIT TRANSACTION" ∨
          statement = "CANCEL TRANSACTION") ∧ ∀ key, bindings.get key = none) ∨
        ∃ params, work.Executes statement params ∧ SentAs strict params bindings
  | health => statement = "INFO FOR DB" ∧ ∀ key, bindings.get key = none
  | runRaw given params => statement = given ∧ SentRaw params bindings
  | currentVersion =>
      (statement = Statement.defineTable.text ∨ statement = SurrealMigrator.selectCurrent) ∧
        SentRaw ∅ bindings
  | appliedVersions =>
      (statement = Statement.defineTable.text ∨ statement = SurrealMigrator.selectApplied) ∧
        SentRaw ∅ bindings
  | applyUp scripts =>
      ∃ own, IsOfUp scripts own ∧ statement = own.text ∧ SentRaw own.params bindings
  | applyDown scripts =>
      ∃ own, IsOfDown scripts own ∧ statement = own.text ∧ SentRaw own.params bindings
  | applyMigrations migrations => statement ∈ migrations ∧ SentRaw ∅ bindings
  | task => ∀ tenant ∈ task.tenant?, SentFor tenant statement bindings

/-- What else it calls: nothing about another tenant. -/
def Tells (task : SurrealTask T F) : StorageAside → Prop
  | .recordRequest tenant _ _ _ | .repoGet tenant _ => ∀ own ∈ task.tenant?, tenant = own
  | .recordTxRollback _ => task.tenant? = none

/-- What a pool calls for a task. Parameters with a hidden name are not sent. -/
def Allows (strict : Bool) (task : SurrealTask T F) : SurrealOp → Prop
  | .query statement bindings =>
      task.Sends strict statement bindings ∧
        ∀ key, Text.startsWith key "__" = true → bindings.get key = none
  | .aside op => task.Tells op
  | .acquire | .release => True

end SurrealTask

/-- How far a transaction has come. -/
inductive TxStanding
  | fresh
  | opened (lastTenant : Option TenantId)
  | ended (lastTenant : Option TenantId) (cancelled : Bool)

/-- A transaction begins before it does anything, has one end at most, and does nothing more then.
A rollback is recorded once it was answered, for the tenant of the last statement. -/
def transacting (Response T : Type) :
    Discipline SurrealCall (SurrealCall.Answer Response T) TxStanding where
  permits
    | .fresh, .runRaw statement params => statement = "BEGIN TRANSACTION" ∧ params = ∅
    | .opened _, .runRaw statement params =>
        (params = ∅ ∧ (statement = "COMMIT TRANSACTION" ∨ statement = "CANCEL TRANSACTION")) ∨
          ∃ tenant, params.get "tenant" = some (.string tenant)
    | .opened last, .aside (.recordRequest tenant ..) => last = some tenant
    | .ended last true, .aside (.recordTxRollback tenant) => last = some tenant
    | _, _ => False
  ensures _ _ := True
  after
    | .fresh, .runRaw .., .ok _ => .opened none
    | .fresh, .runRaw .., .error _ => .ended none false
    | .opened last, .runRaw statement params, result =>
        match params.get "tenant" with
        | some value => .opened (value.asStr.map TenantId.mk)
        | none => .ended last (statement = "CANCEL TRANSACTION" && result.isOk)
    | standing, _, _ => standing

/-- How the calls of a pool use its semaphore. -/
def SurrealOp.permitUse (Response T : Type) :
    PermitUse SurrealOp (SurrealOp.Answer Response T) where
  taken
    | .acquire => some ()
    | .query .. | .release | .aside _ => none
  given
    | .release => some ()
    | .acquire | .query .. | .aside _ => none
  guarded
    | .query .. => true
    | .acquire | .release | .aside _ => false

/-- What a pool calls for a task, one after the other. -/
def SurrealTask.calls {Response T F : Type} (users : SurrealUsers Response T F)
    (task : SurrealTask T F) : Program SurrealOp (SurrealOp.Answer Response T) Unit :=
  (task.program users).carryOut SurrealPool.carriesOut

/-- Tasks on one pool. What the database and the others answer is left open. -/
def SurrealUsers.onPool {Response T F : Type} (users : SurrealUsers Response T F) (ι : Type)
    [DecidableEq ι] {Env Choice : Type}
    (H : Handler SurrealOp (SurrealOp.Answer Response T) Choice Env) (maxConnections : ℕ)
    (env : Env) :
    TransitionSystem (PermitPool ι SurrealOp (SurrealOp.Answer Response T) Unit Env)
      (PermitAction ι (SurrealTask T F) Choice) :=
  PermitPool.system (SurrealOp.permitUse Response T) H (SurrealTask.calls users) maxConnections env

section Bindings

variable {params args : NamedArgs} {tenant : TenantId} {strict : Bool} {statement : String}

theorem get_filteredBindings (params : NamedArgs) (key : String) :
    (filteredBindings params).get key =
      if Text.startsWith key "__" then none else params.get key := by
  rw [filteredBindings, HashMap.get_retain]
  cases Text.startsWith key "__" <;> rfl

theorem get_filteredBindings_of_shown {key : String} (h : Text.startsWith key "__" = false) :
    (filteredBindings params).get key = params.get key := by
  rw [get_filteredBindings, h]
  rfl

/-- What `bind_tenant` accepts is bound. -/
theorem bindTenant_eq_ok (h : bindTenant params tenant = .ok args) :
    args = params.put "tenant" (.string tenant.asStr) := by
  unfold bindTenant at h
  split at h
  case h_1 => exact (Except.ok.inj h).symm
  case h_2 =>
    split at h
    case isTrue => exact (Except.ok.inj h).symm
    case isFalse => cases h
  case h_3 => cases h

theorem extractTenant_of_bound (h : params.get "tenant" = some (.string tenant.asStr))
    (strict : Bool) : extractTenant params strict = .ok tenant := by
  rw [extractTenant, h]
  rfl

/-- The guard of a session compares the tenant with itself, and never refuses. -/
theorem bindTenant_of_extractTenant (h : extractTenant params strict = .ok tenant) :
    bindTenant params tenant = .ok (params.put "tenant" (.string tenant.asStr)) := by
  unfold extractTenant at h
  cases hget : params.get "tenant" with
  | none =>
      rw [bindTenant, hget]
  | some value =>
      rw [hget] at h
      cases value with
      | string text =>
          cases h
          exact SurrealRepository.bindTenant_eq hget
      | null | bool _ | number _ | array _ | object _ => cases h

theorem sentAs_put (h : extractTenant params strict = .ok tenant) :
    SentAs strict params (params.put "tenant" (.string tenant.asStr)) where
  bound := ⟨tenant, h, HashMap.get_put_self _ _ _⟩
  rest key hkey _ := by rw [HashMap.get_put, if_neg hkey]

/-- A statement that is held to the tenant by its text. -/
theorem sentFor_put (params : NamedArgs)
    (h : Held tenant statement (params.put "tenant" (.string tenant.asStr))) :
    SentFor tenant statement (params.put "tenant" (.string tenant.asStr)) where
  bound := HashMap.get_put_self _ _ _
  held := h

theorem SentAs.filtered (h : SentAs strict params args) :
    SentAs strict params (filteredBindings args) where
  bound := by
    obtain ⟨tenant, hextract, hbound⟩ := h.bound
    exact ⟨tenant, hextract, (get_filteredBindings_of_shown (by decide)).trans hbound⟩
  rest key hkey hshown := (get_filteredBindings_of_shown hshown).trans (h.rest key hkey hshown)

theorem Held.filtered (h : Held tenant statement args) :
    Held tenant statement (filteredBindings args) := by
  cases h with
  | conditioned htext => exact .conditioned htext
  | related htext entries hbound hentry =>
      exact .related htext entries ((get_filteredBindings_of_shown (by decide)).trans hbound)
        hentry
  | unguarded htext => exact .unguarded htext

theorem SentFor.filtered (h : SentFor tenant statement args) :
    SentFor tenant statement (filteredBindings args) where
  bound := (get_filteredBindings_of_shown (by decide)).trans h.bound
  held := h.held.filtered

theorem get_filteredBindings_of_none (h : ∀ key, params.get key = none) (key : String) :
    (filteredBindings params).get key = none := by
  rw [get_filteredBindings, h]
  exact ite_self _

theorem SentRaw.filtered (h : SentRaw params args) : SentRaw params (filteredBindings args) :=
  fun key hshown => (get_filteredBindings_of_shown hshown).trans (h key hshown)

theorem SentRaw.refl (params : NamedArgs) : SentRaw params params := fun _ _ => rfl

/-- What is not sent does not matter. -/
theorem SurrealTask.Sends.filtered {T F : Type} {task : SurrealTask T F}
    (h : task.Sends strict statement args) :
    task.Sends strict statement (filteredBindings args) := by
  cases task with
  | query | queryJson => exact ⟨h.1, h.2.filtered⟩
  | transaction work =>
      rcases h with ⟨htext, hnone⟩ | ⟨given, hexecutes, hsent⟩
      · exact .inl ⟨htext, get_filteredBindings_of_none hnone⟩
      · exact .inr ⟨given, hexecutes, hsent.filtered⟩
  | health => exact ⟨h.1, get_filteredBindings_of_none h.2⟩
  | runRaw | currentVersion | appliedVersions | applyMigrations => exact ⟨h.1, h.2.filtered⟩
  | applyUp | applyDown =>
      obtain ⟨own, hown, htext, hsent⟩ := h
      exact ⟨own, hown, htext, hsent.filtered⟩
  | get | create | upsert | upsertReturningNone | delete | select | relate | out | «in» | upsertVec
  | removeVec | knn | search =>
      intro tenant htenant
      exact (h tenant htenant).filtered

end Bindings

section Computations

variable {Response T F α β : Type} {permits : SurrealCall → Prop}

theorem callsOnly_ofResult_bind {result : StorageResult α}
    {next : α → SurrealComputation Response T β}
    (h : ∀ value, result = .ok value → (next value).run.CallsOnly permits) :
    (ofResult result >>= next).run.CallsOnly permits := by
  cases result with
  | error err => exact Program.callsOnly_done _
  | ok value => exact h value rfl

theorem callsOnly_runRaw_bind {statement : String} {params : NamedArgs}
    {next : Response → SurrealComputation Response T β}
    (hpermits : permits (.runRaw statement params))
    (h : ∀ response, (next response).run.CallsOnly permits) :
    (runRaw statement params >>= next).run.CallsOnly permits :=
  callsOnly_fallible_bind (Program.callsOnly_perform hpermits) h

theorem callsOnly_call {op : StorageAside} (hpermits : permits (.aside op)) :
    (call op : SurrealComputation Response T (op.Answer T)).run.CallsOnly permits :=
  Program.callsOnly_call hpermits fun _ => Program.callsOnly_done _

theorem callsOnly_call_bind {op : StorageAside}
    {next : op.Answer T → SurrealComputation Response T β} (hpermits : permits (.aside op))
    (h : ∀ answer, (next answer).run.CallsOnly permits) :
    (call op >>= next).run.CallsOnly permits :=
  callsOnly_fallible_bind (callsOnly_call hpermits) h

/-- The calls of a task. -/
def SurrealTask.Permits (strict : Bool) (task : SurrealTask T F) : SurrealCall → Prop
  | .runRaw statement params => task.Sends strict statement params
  | .aside op => task.Tells op

theorem callsOnly_ending {computation : SurrealComputation Response T α}
    (h : computation.run.CallsOnly permits) :
    (SurrealTask.ending computation).CallsOnly permits :=
  Program.callsOnly_bind h fun _ => Program.callsOnly_done _

/-- The calls for a tenant. -/
def PermitsFor (tenant : TenantId) : SurrealCall → Prop
  | .runRaw statement params => SentFor tenant statement params
  | .aside (.recordRequest other ..) | .aside (.repoGet other _) => other = tenant
  | .aside (.recordTxRollback _) => False

variable {tenant : TenantId}

/-- Records of requests are the tenant's. -/
theorem permitsFor_recordRequest (table kind : String) (rows : ℕ) :
    (call (.recordRequest tenant table kind rows) :
      SurrealComputation Response T Unit).run.CallsOnly (PermitsFor tenant) :=
  callsOnly_call (Eq.refl tenant)

theorem permitsFor_recordRequest_bind {table kind : String} {rows : ℕ}
    {next : Unit → SurrealComputation Response T β}
    (h : ∀ answer, (next answer).run.CallsOnly (PermitsFor tenant)) :
    (call (.recordRequest tenant table kind rows) >>= next).run.CallsOnly (PermitsFor tenant) :=
  callsOnly_call_bind (Eq.refl tenant) h

end Computations

section Tasks

variable {Response T F : Type} {reads : SurrealReads Response T F} {strict : Bool}
variable {tenant : TenantId} {statement : String} {params : NamedArgs} {kept : EntityTable T}

namespace SurrealSession

theorem callsOnly_query {permits : SurrealCall → Prop}
    (hsend : ∀ found, extractMeta params strict = .ok found →
      permits (.runRaw statement (params.put "tenant" (.string found.tenant.asStr))))
    (htell : ∀ found, extractMeta params strict = .ok found →
      ∀ rows, permits (.aside (.recordRequest found.tenant found.table found.kind rows))) :
    (query strict statement params : SurrealComputation Response T _).run.CallsOnly permits := by
  apply callsOnly_ofResult_bind
  intro found hfound
  apply callsOnly_ofResult_bind
  intro args hargs
  rw [bindTenant_eq_ok hargs]
  apply callsOnly_runRaw_bind (hsend found hfound)
  intro response
  exact callsOnly_call_bind (htell found hfound 0) fun _ => Program.callsOnly_done _

theorem callsOnly_queryJson {permits : SurrealCall → Prop}
    (hsend : ∀ found, extractMeta params strict = .ok found →
      permits (.runRaw statement (params.put "tenant" (.string found.tenant.asStr))))
    (htell : ∀ found, extractMeta params strict = .ok found →
      ∀ rows, permits (.aside (.recordRequest found.tenant found.table found.kind rows))) :
    (queryJson reads strict statement params).run.CallsOnly permits := by
  apply callsOnly_ofResult_bind
  intro found hfound
  apply callsOnly_ofResult_bind
  intro args hargs
  rw [bindTenant_eq_ok hargs]
  apply callsOnly_runRaw_bind (hsend found hfound)
  intro response
  apply callsOnly_ofResult_bind
  intro value _
  exact callsOnly_call_bind (htell found hfound _) fun _ => Program.callsOnly_done _

theorem tenant_of_extractMeta {found : SessionMeta} (h : extractMeta params strict = .ok found) :
    extractTenant params strict = .ok found.tenant := by
  obtain ⟨tenant, htenant, hfound⟩ := except_do_eq_ok_iff.mp h
  cases hfound
  exact htenant

/-- The session of a repository finds the tenant that the repository has put in. -/
theorem tenant_eq_of_bound {found : SessionMeta}
    (hbound : params.get "tenant" = some (.string tenant.asStr))
    (h : extractMeta params strict = .ok found) : found.tenant = tenant := by
  have htenant := tenant_of_extractMeta h
  rw [extractTenant_of_bound hbound] at htenant
  exact (Except.ok.inj htenant).symm

theorem permitsFor_query (hbound : params.get "tenant" = some (.string tenant.asStr))
    (hheld : Held tenant statement (params.put "tenant" (.string tenant.asStr))) :
    (query strict statement params : SurrealComputation Response T _).run.CallsOnly
      (PermitsFor tenant) := by
  apply callsOnly_query
  · intro found hfound
    rw [tenant_eq_of_bound hbound hfound]
    exact sentFor_put params hheld
  · intro found hfound rows
    exact tenant_eq_of_bound hbound hfound

theorem permitsFor_queryJson (hbound : params.get "tenant" = some (.string tenant.asStr))
    (hheld : Held tenant statement (params.put "tenant" (.string tenant.asStr))) :
    (queryJson reads strict statement params).run.CallsOnly (PermitsFor tenant) := by
  apply callsOnly_queryJson
  · intro found hfound
    rw [tenant_eq_of_bound hbound hfound]
    exact sentFor_put params hheld
  · intro found hfound rows
    exact tenant_eq_of_bound hbound hfound

end SurrealSession

namespace SurrealRepository

theorem get_recordParams_tenant (kept : EntityTable T) (tenant : TenantId) (id kind : String) :
    (recordParams kept tenant id kind).get "tenant" = some (.string tenant.asStr) := by
  simp [recordParams, baseParams, HashMap.get_put]

/-- Another parameter is put beside the tenant. -/
theorem get_put_tenant {name : String} {value : Json.Value}
    (h : params.get "tenant" = some (.string tenant.asStr)) (hname : name ≠ "tenant") :
    (params.put name value).get "tenant" = some (.string tenant.asStr) := by
  rw [HashMap.get_put, if_neg hname.symm, h]

theorem permitsFor_getWith (id : String) :
    (getWith reads strict kept tenant id).run.CallsOnly (PermitsFor tenant) := by
  refine callsOnly_fallible_bind (SurrealSession.permitsFor_queryJson
    (get_recordParams_tenant _ _ _ _) (.conditioned (by decide))) ?_
  intro raw
  cases raw with
  | none => exact Program.callsOnly_done _
  | some value => exact callsOnly_ofResult_bind fun _ _ => Program.callsOnly_done _

theorem permitsFor_createWith (doc : T) :
    (createWith reads strict kept tenant doc).run.CallsOnly (PermitsFor tenant) := by
  apply callsOnly_ofResult_bind
  intro value _
  refine callsOnly_fallible_bind (SurrealSession.permitsFor_queryJson
    (get_put_tenant (get_recordParams_tenant _ _ _ _) (by decide))
    (.unguarded (.inl (by decide)))) ?_
  intro raw
  apply callsOnly_ofResult_bind
  intro created _
  exact Program.callsOnly_done _

theorem permitsFor_upsertWith (id : String) (patch : Json.Value)
    (expectedVersion : Option UInt64) :
    (upsertWith reads strict kept tenant id patch expectedVersion).run.CallsOnly
      (PermitsFor tenant) := by
  have hpatch : ((recordParams kept tenant id "write").put "patch" patch).get "tenant" =
      some (.string tenant.asStr) :=
    get_put_tenant (get_recordParams_tenant _ _ _ _) (by decide)
  cases expectedVersion with
  | some version =>
      refine callsOnly_fallible_bind (SurrealSession.permitsFor_queryJson
        (get_put_tenant hpatch (by decide)) (.conditioned (by decide))) ?_
      intro raw
      exact callsOnly_ofResult_bind fun _ _ => Program.callsOnly_done _
  | none =>
      refine callsOnly_fallible_bind (SurrealSession.permitsFor_queryJson hpatch
        (.unguarded (.inr (by decide)))) ?_
      intro raw
      exact callsOnly_ofResult_bind fun _ _ => Program.callsOnly_done _

theorem permitsFor_upsertReturningNoneWith (id : String) (patch : Json.Value) :
    (upsertReturningNoneWith strict kept tenant id patch :
      SurrealComputation Response T Unit).run.CallsOnly (PermitsFor tenant) :=
  callsOnly_fallible_bind (SurrealSession.permitsFor_query
    (get_put_tenant (get_recordParams_tenant _ _ _ _) (by decide))
    (.unguarded (.inr (by decide)))) fun _ => Program.callsOnly_done _

theorem permitsFor_deleteWith (id : String) :
    (deleteWith strict kept tenant id : SurrealComputation Response T Unit).run.CallsOnly
      (PermitsFor tenant) :=
  callsOnly_fallible_bind (SurrealSession.permitsFor_query
    (get_recordParams_tenant _ _ _ _) (.conditioned (by decide))) fun _ => Program.callsOnly_done _

theorem contains_append_right {first second part : String}
    (h : Text.contains second part = true) : Text.contains (first ++ second) part = true := by
  obtain ⟨before, after, rfl⟩ := Text.contains_iff.mp h
  exact Text.contains_iff.mpr ⟨first ++ before, after, by simp only [String.append_assoc]⟩

theorem contains_append_left {first second part : String}
    (h : Text.contains first part = true) : Text.contains (first ++ second) part = true := by
  obtain ⟨before, after, rfl⟩ := Text.contains_iff.mp h
  exact Text.contains_iff.mpr ⟨before, after ++ second, by simp only [String.append_assoc]⟩

/-- Clauses are joined behind the condition on the tenant. -/
theorem contains_tenantWhere (clauses : List String) :
    Text.contains (tenantWhere clauses) "tenant = $tenant" = true := by
  have hjoined : ∀ text, Text.contains text "tenant = $tenant" = true →
      Text.contains (clauses.foldl (fun text clause => text ++ " AND (" ++ clause ++ ")") text)
        "tenant = $tenant" = true := by
    induction clauses with
    | nil => exact fun _ htext => htext
    | cons clause rest ih =>
        intro text htext
        exact ih _ (contains_append_left (contains_append_left (contains_append_left htext)))
  exact hjoined _ (by decide)

/-- The statement of `select` is held to the tenant, whatever the filter and the sorts are. -/
theorem sentFor_selectQuery {table : String} {filter : Json.Value}
    {sorts : Option (List SortKey)} {limit : UInt64} {cursor : Option String}
    {query : SelectQuery}
    (h : selectQuery table tenant filter sorts limit cursor = .ok query) :
    SentFor tenant (query.statement table) query.args := by
  obtain ⟨clause, args, _, _, hquery⟩ := selectQuery_eq_ok_iff.mp h
  have hargs : query.args = queryArgs table tenant filter limit cursor :=
    congrArg SelectQuery.args hquery
  have hwhere : query.whereClause = tenantWhere (whereClauses clause cursor) :=
    congrArg SelectQuery.whereClause hquery
  have htenant := contains_tenantWhere (whereClauses clause cursor)
  rw [← hwhere] at htenant
  refine ⟨?_, .conditioned ?_⟩
  · rw [hargs, get_queryArgs, get_queryParams_tenant]
  · exact contains_append_left (contains_append_left (contains_append_right htenant))

theorem permitsFor_selectWith (filter : Json.Value) (sorts : Option (List SortKey))
    (limit : UInt64) (cursor : Option String) :
    (selectWith reads kept tenant filter sorts limit cursor).run.CallsOnly
      (PermitsFor tenant) := by
  apply callsOnly_ofResult_bind
  intro query hquery
  apply callsOnly_runRaw_bind (sentFor_selectQuery hquery)
  intro response
  apply callsOnly_ofResult_bind
  intro items _
  exact permitsFor_recordRequest_bind fun _ => Program.callsOnly_done _

end SurrealRepository

/-! ## Graph, vectors and search -/

open SurrealRepository

namespace SurrealGraph

/-- New edges carry the tenant, whatever their properties say. -/
theorem entry_of_ensureProperties {properties owned : Json.Value}
    (h : ensureProperties tenant properties = .ok owned) :
    ∃ entries, owned = .object entries ∧
      Json.Map.get entries "tenant" = some (.string tenant.asStr) := by
  cases properties with
  | object entries =>
      cases h
      exact ⟨_, rfl, by rw [Json.Map.get_insert, if_pos rfl]⟩
  | null =>
      cases h
      exact ⟨_, rfl, by rw [Json.Map.get_insert, if_pos rfl]⟩
  | bool _ | number _ | string _ | array _ => cases h

theorem permitsFor_relate (source edge target : String) (properties : Json.Value) :
    (relate tenant source edge target properties :
      SurrealComputation Response T Unit).run.CallsOnly (PermitsFor tenant) := by
  apply callsOnly_ofResult_bind
  rintro ⟨⟩ _
  apply callsOnly_ofResult_bind
  intro owned howned
  obtain ⟨entries, rfl, hentry⟩ := entry_of_ensureProperties howned
  apply callsOnly_ofResult_bind
  intro args hargs
  rw [bindTenant_eq_ok hargs]
  apply callsOnly_runRaw_bind
  · refine sentFor_put _ (.related ?_ entries ?_ hentry)
    · rw [Text.startsWith_iff]
      simp only [String.toList_append, List.append_assoc]
      have hstart : "RELATE ".toList <+: "RELATE type::thing($from) -> ".toList := by decide
      exact hstart.trans (List.prefix_append _ _)
    · simp [HashMap.get_put]
  · intro response
    exact permitsFor_recordRequest _ _ _

theorem permitsFor_follow {given : String} (id edge : String) (limit : UInt64)
    (htext : Text.contains statement "tenant = $tenant" = true) :
    (follow reads tenant given id edge limit statement).run.CallsOnly (PermitsFor tenant) := by
  apply callsOnly_ofResult_bind
  rintro ⟨⟩ _
  apply callsOnly_ofResult_bind
  intro args hargs
  rw [bindTenant_eq_ok hargs]
  apply callsOnly_runRaw_bind (sentFor_put _ (.conditioned htext))
  intro response
  apply callsOnly_ofResult_bind
  intro items _
  exact permitsFor_recordRequest_bind fun _ => Program.callsOnly_done _

theorem permitsFor_out (source edge : String) (limit : UInt64) :
    (out reads tenant source edge limit).run.CallsOnly (PermitsFor tenant) :=
  permitsFor_follow source edge limit (contains_append_right (by decide))

theorem permitsFor_in (target edge : String) (limit : UInt64) :
    («in» reads tenant target edge limit).run.CallsOnly (PermitsFor tenant) :=
  permitsFor_follow target edge limit (contains_append_right (by decide))

end SurrealGraph

namespace SurrealVectorIndex

theorem permitsFor_upsertVec (id : String) (embedding : List F) :
    (upsertVec reads tenant id embedding).run.CallsOnly (PermitsFor tenant) := by
  apply callsOnly_ofResult_bind
  intro args hargs
  rw [bindTenant_eq_ok hargs]
  apply callsOnly_runRaw_bind (sentFor_put _ (.conditioned (by decide)))
  intro response
  exact permitsFor_recordRequest _ _ _

theorem permitsFor_removeVec (id : String) :
    (removeVec tenant id : SurrealComputation Response T Unit).run.CallsOnly
      (PermitsFor tenant) := by
  apply callsOnly_ofResult_bind
  intro args hargs
  rw [bindTenant_eq_ok hargs]
  apply callsOnly_runRaw_bind (sentFor_put _ (.conditioned (by decide)))
  intro response
  exact permitsFor_recordRequest _ _ _

theorem permitsFor_neighbour (withRepo : Bool) (row : Json.Value) :
    (neighbour reads kept tenant withRepo row).run.CallsOnly (PermitsFor tenant) := by
  apply callsOnly_ofResult_bind
  intro id _
  cases withRepo with
  | true =>
      rw [if_pos rfl]
      refine callsOnly_call_bind (Eq.refl tenant) ?_
      intro answer
      exact callsOnly_ofResult_bind fun _ _ => Program.callsOnly_done _
  | false =>
      rw [if_neg Bool.false_ne_true]
      exact callsOnly_ofResult_bind fun _ _ => Program.callsOnly_done _

theorem permitsFor_neighbours (withRepo : Bool) (rows : List Json.Value) :
    (neighbours reads kept tenant withRepo rows).run.CallsOnly (PermitsFor tenant) := by
  induction rows with
  | nil => exact Program.callsOnly_done _
  | cons row rest ih =>
      refine callsOnly_fallible_bind (permitsFor_neighbour withRepo row) ?_
      intro found
      exact callsOnly_fallible_bind ih fun _ => Program.callsOnly_done _

theorem permitsFor_knn (query : List F) (k : UInt64) (withRepo : Bool) :
    (knn reads kept tenant query k withRepo).run.CallsOnly (PermitsFor tenant) := by
  unfold knn
  split
  case isTrue => exact Program.callsOnly_done _
  case isFalse =>
    apply callsOnly_ofResult_bind
    intro args hargs
    rw [bindTenant_eq_ok hargs]
    apply callsOnly_runRaw_bind
    · refine sentFor_put _ (.conditioned ?_)
      exact contains_append_left (contains_append_right (by decide))
    · intro response
      apply callsOnly_ofResult_bind
      intro rows _
      exact permitsFor_recordRequest_bind fun _ => permitsFor_neighbours withRepo rows

end SurrealVectorIndex

theorem SurrealSearch.permitsFor_search (query : String) (limit : UInt64) :
    (search reads kept tenant query limit).run.CallsOnly (PermitsFor tenant) := by
  unfold search
  split
  case isTrue => exact Program.callsOnly_done _
  case isFalse =>
    apply callsOnly_ofResult_bind
    intro args hargs
    rw [bindTenant_eq_ok hargs]
    apply callsOnly_runRaw_bind
    · refine sentFor_put _ (.conditioned ?_)
      exact contains_append_left (contains_append_left (contains_append_right (by decide)))
    · intro response
      apply callsOnly_ofResult_bind
      intro rows _
      apply permitsFor_recordRequest_bind
      intro _
      exact callsOnly_ofResult_bind fun _ _ => Program.callsOnly_done _

namespace TxWork

variable {tx : SurrealTx}

/-- What the work on a transaction calls. -/
theorem callsOnly_run {permits : SurrealCall → Prop} (work : TxWork)
    (hends : ∀ statement, statement = "COMMIT TRANSACTION" ∨ statement = "CANCEL TRANSACTION" →
      permits (.runRaw statement ∅))
    (hexecutes : ∀ statement params args, work.Executes statement params →
      SentAs strict params args → permits (.runRaw statement args))
    (htells : ∀ op, permits (.aside op)) :
    (work.run strict tx : SurrealProgram Response T _).CallsOnly permits := by
  induction work generalizing tx with
  | execute statement params next ih =>
      apply Program.callsOnly_bind
      · unfold SurrealTx.execute
        split
        case h_1 => exact Program.callsOnly_done _
        case h_2 found hfound =>
          split
          case h_1 => exact Program.callsOnly_done _
          case h_2 args hargs =>
            rw [bindTenant_eq_ok hargs]
            refine Program.callsOnly_bind ?_ fun _ => Program.callsOnly_done _
            apply callsOnly_runRaw_bind
            · exact hexecutes _ _ _ .now
                (sentAs_put (SurrealSession.tenant_of_extractMeta hfound))
            · intro response
              exact callsOnly_call_bind (htells _) fun _ => Program.callsOnly_done _
      · rintro ⟨result, tx⟩
        exact ih result fun other others args hother => hexecutes other others args (.later hother)
  | commit =>
      unfold run SurrealTx.commit
      split
      case isTrue =>
        exact callsOnly_runRaw_bind (hends _ (.inl rfl)) fun _ => Program.callsOnly_done _
      case isFalse => exact Program.callsOnly_done _
  | rollback =>
      unfold run SurrealTx.rollback
      split
      case isTrue =>
        apply callsOnly_runRaw_bind (hends _ (.inr rfl))
        intro response
        cases tx.lastTenant with
        | none => exact Program.callsOnly_done _
        | some tenant => exact callsOnly_call (htells _)
      case isFalse => exact Program.callsOnly_done _
  | drop => exact Program.callsOnly_done _

/-- A statement of the owner keeps the transaction open, for the tenant of the statement. -/
theorem follows_execute (statement : String) (params : NamedArgs) :
    (tx.execute strict statement params : SurrealProgram Response T _).Follows
      (transacting Response T)
      (fun outcome standing => standing = .opened outcome.2.lastTenant ∧
        outcome.2.active = tx.active) (.opened tx.lastTenant) := by
  unfold SurrealTx.execute
  split
  case h_1 => exact ⟨rfl, rfl⟩
  case h_2 found hfound =>
    split
    case h_1 => exact ⟨rfl, rfl⟩
    case h_2 args hargs =>
      have hargs := bindTenant_eq_ok hargs
      have hget : args.get "tenant" = some (.string found.tenant.asStr) := by
        rw [hargs, HashMap.get_put_self]
      have hafter : ∀ result : StorageResult Response,
          (transacting Response T).after (.opened tx.lastTenant) (.runRaw statement args) result =
            .opened (some found.tenant) := by
        intro result
        simp only [transacting, hget]
        rfl
      refine ⟨.inr ⟨found.tenant.asStr, hget⟩, ?_⟩
      intro result _
      rw [hafter]
      cases result with
      | error err => exact ⟨rfl, rfl⟩
      | ok response => exact ⟨rfl, fun _ _ => ⟨rfl, rfl⟩⟩

theorem follows_run (work : TxWork) (hactive : tx.active = true) :
    (work.run strict tx : SurrealProgram Response T _).Follows (transacting Response T)
      (fun _ _ => True) (.opened tx.lastTenant) := by
  induction work generalizing tx with
  | execute statement params next ih =>
      refine (follows_execute statement params).bind ?_
      rintro ⟨result, after⟩ _ ⟨rfl, hafter⟩
      exact ih result (hafter.trans hactive)
  | commit =>
      unfold run SurrealTx.commit
      rw [if_pos hactive]
      refine ⟨.inl ⟨rfl, .inl rfl⟩, ?_⟩
      intro result _
      cases result with
      | error err => trivial
      | ok response => trivial
  | rollback =>
      unfold run SurrealTx.rollback
      rw [if_pos hactive]
      refine ⟨.inl ⟨rfl, .inr rfl⟩, ?_⟩
      intro result _
      cases result with
      | error err => trivial
      | ok response =>
          cases hlast : tx.lastTenant with
          | none => trivial
          | some tenant => exact ⟨rfl, fun _ _ => trivial⟩
  | drop => trivial

theorem follows_transaction (work : TxWork) :
    (work.transaction strict : SurrealProgram Response T _).Follows (transacting Response T)
      (fun _ _ => True) .fresh := by
  refine ⟨⟨rfl, rfl⟩, ?_⟩
  intro result _
  cases result with
  | error err => trivial
  | ok response =>
      have hactive : (SurrealTx.mk true none).active = true := rfl
      exact follows_run work hactive

end TxWork

namespace SurrealTask

variable {task : SurrealTask T F} {users : SurrealUsers Response T F}

/-- What is called for the tenant of a task may be called for the task. -/
theorem permits_of_permitsFor {call : SurrealCall} (htenant : task.tenant? = some tenant)
    (h : PermitsFor tenant call) : task.Permits strict call := by
  cases call with
  | runRaw statement params =>
      cases task with
      | query | queryJson | transaction | health | runRaw | currentVersion | appliedVersions
      | applyUp | applyDown | applyMigrations => cases htenant
      | get | create | upsert | upsertReturningNone | delete | select | relate | out | «in»
      | upsertVec | removeVec | knn | search =>
          cases htenant
          rintro _ ⟨⟩
          exact h
  | aside op =>
      cases op with
      | recordTxRollback => exact h.elim
      | recordRequest other | repoGet other =>
          cases h
          intro own hown
          rw [htenant, Option.mem_some_iff] at hown
          exact hown

theorem callsOnly_of_permitsFor {α : Type} {computation : SurrealComputation Response T α}
    (htenant : task.tenant? = some tenant) (h : computation.run.CallsOnly (PermitsFor tenant)) :
    (ending computation).CallsOnly (task.Permits strict) :=
  callsOnly_ending (h.mono fun _ hcall => permits_of_permitsFor htenant hcall)

/-- Whoever has no tenant of its own may tell of any. -/
theorem tells_of_none (task : SurrealTask T F) (htenant : task.tenant? = none)
    (op : StorageAside) : task.Tells op := by
  cases op with
  | recordTxRollback => exact htenant
  | recordRequest | repoGet =>
      intro own hown
      rw [htenant] at hown
      cases hown

theorem callsOnly_program (users : SurrealUsers Response T F) (task : SurrealTask T F) :
    (task.program users).CallsOnly (task.Permits users.strict) := by
  cases task with
  | query statement params =>
      apply callsOnly_ending
      apply SurrealSession.callsOnly_query
      · intro found hfound
        exact ⟨rfl, sentAs_put (SurrealSession.tenant_of_extractMeta hfound)⟩
      · intro found _ rows
        exact tells_of_none (.query statement params) rfl
          (.recordRequest found.tenant found.table found.kind rows)
  | queryJson statement params =>
      apply callsOnly_ending
      apply SurrealSession.callsOnly_queryJson
      · intro found hfound
        exact ⟨rfl, sentAs_put (SurrealSession.tenant_of_extractMeta hfound)⟩
      · intro found _ rows
        exact tells_of_none (.queryJson statement params) rfl
          (.recordRequest found.tenant found.table found.kind rows)
  | transaction work =>
      have htells := tells_of_none (.transaction work : SurrealTask T F) rfl
      apply callsOnly_ending
      refine ⟨.inl ⟨.inl rfl, HashMap.get_empty⟩, ?_⟩
      intro result _
      cases result with
      | error err => trivial
      | ok response =>
          refine TxWork.callsOnly_run work ?_ ?_ htells
          · intro statement hstatement
            exact .inl ⟨.inr hstatement, HashMap.get_empty⟩
          · intro statement params args hexecutes hsent
            exact .inr ⟨params, hexecutes, hsent⟩
  | health =>
      apply callsOnly_ending
      refine ⟨⟨rfl, HashMap.get_empty⟩, ?_⟩
      intro result _
      cases result with
      | error err => trivial
      | ok response => trivial
  | runRaw statement params =>
      exact callsOnly_ending (Program.callsOnly_perform ⟨rfl, .refl params⟩)
  | currentVersion =>
      apply callsOnly_ending
      refine callsOnly_fallible_bind (SurrealMigrator.callsOnly_versionRows ?_ ?_) fun _ =>
        Program.callsOnly_done _
      · exact ⟨.inl rfl, .refl ∅⟩
      · exact ⟨.inr rfl, .refl ∅⟩
  | appliedVersions =>
      apply callsOnly_ending
      refine callsOnly_fallible_bind (SurrealMigrator.callsOnly_versionRows ?_ ?_) fun _ =>
        Program.callsOnly_done _
      · exact ⟨.inl rfl, .refl ∅⟩
      · exact ⟨.inr rfl, .refl ∅⟩
  | applyUp scripts =>
      apply callsOnly_ending
      refine SurrealMigrator.callsOnly_migrateWith (callsOnly_applyUp scripts) ?_
        (tells_of_none (.applyUp scripts : SurrealTask T F) rfl
          (.recordRequest ⟨"__system__"⟩ migrationTable "migrate" scripts.length))
      exact fun own hown => ⟨own, hown, rfl, .refl own.params⟩
  | applyDown scripts =>
      apply callsOnly_ending
      refine SurrealMigrator.callsOnly_migrateWith (callsOnly_applyDown scripts) ?_
        (tells_of_none (.applyDown scripts : SurrealTask T F) rfl
          (.recordRequest ⟨"__system__"⟩ migrationTable "migrate" scripts.length))
      exact fun own hown => ⟨own, hown, rfl, .refl own.params⟩
  | applyMigrations migrations =>
      apply callsOnly_ending
      exact callsOnly_applyMigrations fun statement hstatement => ⟨hstatement, .refl ∅⟩
  | get kept tenant id =>
      exact callsOnly_of_permitsFor rfl (SurrealRepository.permitsFor_getWith id)
  | create kept tenant doc =>
      exact callsOnly_of_permitsFor rfl (SurrealRepository.permitsFor_createWith doc)
  | upsert kept tenant id patch expectedVersion =>
      exact callsOnly_of_permitsFor rfl
        (SurrealRepository.permitsFor_upsertWith id patch expectedVersion)
  | upsertReturningNone kept tenant id patch =>
      exact callsOnly_of_permitsFor rfl
        (SurrealRepository.permitsFor_upsertReturningNoneWith id patch)
  | delete kept tenant id =>
      exact callsOnly_of_permitsFor rfl (SurrealRepository.permitsFor_deleteWith id)
  | select kept tenant filter sorts limit cursor =>
      exact callsOnly_of_permitsFor rfl
        (SurrealRepository.permitsFor_selectWith filter sorts limit cursor)
  | relate tenant source edge target properties =>
      exact callsOnly_of_permitsFor rfl
        (SurrealGraph.permitsFor_relate source edge target properties)
  | out tenant source edge limit =>
      exact callsOnly_of_permitsFor rfl (SurrealGraph.permitsFor_out source edge limit)
  | «in» tenant target edge limit =>
      exact callsOnly_of_permitsFor rfl (SurrealGraph.permitsFor_in target edge limit)
  | upsertVec tenant id embedding =>
      exact callsOnly_of_permitsFor rfl (SurrealVectorIndex.permitsFor_upsertVec id embedding)
  | removeVec tenant id =>
      exact callsOnly_of_permitsFor rfl (SurrealVectorIndex.permitsFor_removeVec id)
  | knn kept tenant wanted k withRepo =>
      exact callsOnly_of_permitsFor rfl (SurrealVectorIndex.permitsFor_knn wanted k withRepo)
  | search kept tenant wanted limit =>
      exact callsOnly_of_permitsFor rfl (SurrealSearch.permitsFor_search wanted limit)

/-- The pool sends what its users want sent, without the hidden parameters. -/
theorem callsOnly_calls (users : SurrealUsers Response T F) (task : SurrealTask T F) :
    (task.calls users).CallsOnly (task.Allows users.strict) := by
  refine Program.callsOnly_carryOut (callsOnly_program users task) ?_
  intro call hcall
  cases call with
  | runRaw statement params =>
      refine ⟨trivial, fun _ _ => ⟨⟨hcall.filtered, ?_⟩, fun _ _ => ⟨trivial, fun _ _ => trivial⟩⟩⟩
      intro key hhidden
      rw [get_filteredBindings, if_pos hhidden]
  | aside op => exact Program.callsOnly_perform hcall

/-- A query is made with a permit, and the permit is put back. -/
theorem follows_carriesOut (call : SurrealCall) :
    (SurrealPool.carriesOut call : Program SurrealOp (SurrealOp.Answer Response T) _).Follows
      (SurrealOp.permitUse Response T).discipline (fun _ held => held = false) false := by
  cases call with
  | runRaw statement params =>
      refine ⟨by simp [PermitUse.discipline, SurrealOp.permitUse], fun _ _ => ?_⟩
      refine ⟨by simp [PermitUse.discipline, PermitUse.after, SurrealOp.permitUse], fun _ _ => ?_⟩
      exact ⟨by simp [PermitUse.discipline, PermitUse.after, SurrealOp.permitUse], fun _ _ => rfl⟩
  | aside op =>
      exact ⟨by simp [PermitUse.discipline, SurrealOp.permitUse], fun _ _ => rfl⟩

theorem disciplined_calls (users : SurrealUsers Response T F) (task : SurrealTask T F) :
    (SurrealOp.permitUse Response T).Disciplined (task.calls users) :=
  (Program.follows_carryOut follows_carriesOut (task.program users)).mono fun _ _ _ => trivial

end SurrealTask

end Tasks

/-- In every interleaving of tasks, given up at any call, queries are limited and permits come
back; where there is a permit at all and the calls are answered, whoever holds one can go on until
it is back.
What a task sends is for its tenant, and a transaction is begun and ended by its owner. -/
theorem surrealTraffic {Response T F : Type} (users : SurrealUsers Response T F) (ι : Type)
    [DecidableEq ι] {Env Choice : Type}
    (H : Handler SurrealOp (SurrealOp.Answer Response T) Choice Env) (maxConnections : ℕ)
    (env : Env) :
    (∀ pool, (users.onPool ι H maxConnections env).Reachable pool →
      pool.Sound (SurrealOp.permitUse Response T) maxConnections) ∧
      (0 < maxConnections → (∀ env op, ∃ choice outcome, H env choice op = some outcome) →
        ∀ pool i, (users.onPool ι H maxConnections env).Reachable pool →
          pool.Waits (SurrealOp.permitUse Response T) i →
            pool.holders ≠ [] ∧ ∀ j ∈ pool.holders, ∃ actions after,
              ((users.onPool ι H maxConnections env).restrict (·.GoesOn j)).Run pool
                actions after ∧ 0 < after.available) ∧
      (∀ task : SurrealTask T F, (task.calls users).CallsOnly (task.Allows users.strict)) ∧
      ∀ work : TxWork, (work.transaction users.strict).Follows (transacting Response T)
        (fun _ _ => True) .fresh :=
  ⟨fun _ hpool => PermitPool.sound (SurrealTask.disciplined_calls users) hpool,
    fun hlimit hanswers _ _ hpool hwaits =>
      PermitPool.exists_freed (SurrealTask.disciplined_calls users) hlimit hanswers hpool hwaits,
    SurrealTask.callsOnly_calls users, TxWork.follows_transaction⟩

end Soulbase.Storage
