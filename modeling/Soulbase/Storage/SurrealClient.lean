/-
# The client of SurrealDB

Sessions, transactions, repositories, the graph, the vectors and the search of `SurrealDatastore`
are programs that call `SurrealPool::run_raw`. It hands a statement to the one client that all of
them share, with the parameters whose names do not begin with `__`, while it holds a permit of the
pool.
-/

import Soulbase.Foundation.Layers
import Soulbase.Storage.FailedWrites
import Soulbase.Storage.SurrealSelect

namespace Soulbase.Storage

open Soulbase.Foundation

/-- What is called besides the database. -/
inductive StorageAside
  /-- `StorageMetrics::record_request`. -/
  | recordRequest (tenant : TenantId) (table kind : String) (rows : ℕ)
  /-- `StorageMetrics::record_tx_rollback`. -/
  | recordTxRollback (tenant : TenantId)
  /-- `Repository::get`, of the repository that `knn` is given. -/
  | repoGet (tenant : TenantId) (id : String)

/-- What such a call returns. -/
abbrev StorageAside.Answer (T : Type) : StorageAside → Type
  | recordRequest .. | recordTxRollback _ => Unit
  | repoGet .. => StorageResult (Option T)

/-- What the users of a pool call. -/
inductive SurrealCall
  /-- `SurrealPool::run_raw`. -/
  | runRaw (statement : String) (params : NamedArgs)
  | aside (op : StorageAside)

/-- What `run_raw` and the others return. -/
abbrev SurrealCall.Answer (Response T : Type) : SurrealCall → Type
  | runRaw .. => StorageResult Response
  | aside op => op.Answer T

/-- What a pool calls. -/
inductive SurrealOp
  /-- `Semaphore::acquire`. -/
  | acquire
  /-- `query` and `bind` of the client, with `map_surreal_error` of its error. -/
  | query (statement : String) (bindings : NamedArgs)
  /-- The permit is dropped. -/
  | release
  | aside (op : StorageAside)

/-- What these return. -/
abbrev SurrealOp.Answer (Response T : Type) : SurrealOp → Type
  | acquire | release => Unit
  | query .. => StorageResult Response
  | aside op => op.Answer T

/-- `filtered_bindings`. -/
def filteredBindings (params : NamedArgs) : NamedArgs :=
  params.retain fun key => !Text.startsWith key "__"

section Calls

variable {Response T : Type}

/-- A computation over a pool. -/
abbrev SurrealProgram (Response T : Type) := Program SurrealCall (SurrealCall.Answer Response T)

/-- A computation over a pool that ends at the first error. -/
abbrev SurrealComputation (Response T : Type) := ExceptT StorageError (SurrealProgram Response T)

namespace SurrealPool

/-- `SurrealPool::run_raw`. -/
def runRaw (statement : String) (params : NamedArgs) :
    Program SurrealOp (SurrealOp.Answer Response T) (StorageResult Response) := do
  perform SurrealOp.acquire
  let result ← perform (SurrealOp.query statement (filteredBindings params))
  perform SurrealOp.release
  return result

/-- How a pool carries out what its users call. -/
def carriesOut : (call : SurrealCall) →
    Program SurrealOp (SurrealOp.Answer Response T) (SurrealCall.Answer Response T call)
  | .runRaw statement params => runRaw statement params
  | .aside op => perform (SurrealOp.aside op)

end SurrealPool

namespace SurrealComputation

/-- `run_raw`, with the question mark operator. -/
def runRaw (statement : String) (params : NamedArgs) : SurrealComputation Response T Response :=
  ExceptT.mk (perform (SurrealCall.runRaw statement params))

/-- Another call. -/
def call (op : StorageAside) : SurrealComputation Response T (op.Answer T) :=
  ExceptT.lift (perform (SurrealCall.aside op))

/-- The question mark operator. -/
def ofResult {α : Type} (result : StorageResult α) : SurrealComputation Response T α :=
  ExceptT.mk (.done result)

end SurrealComputation

end Calls

/-- What is read from responses and written into parameters. -/
structure SurrealReads (Response T F : Type) where
  /-- `take::<Option<Value>>(0)`. -/
  takeOption : Response → StorageResult (Option Json.Value)
  /-- `take::<Vec<Value>>(0)`. -/
  takeValues : Response → StorageResult (List Json.Value)
  /-- `take::<Vec<T>>(0)`. -/
  takeItems : Response → StorageResult (List T)
  /-- How the statements of a response have ended. -/
  ended : Response → List (StorageResult Unit)
  /-- `json!` of an embedding. -/
  embeddingValue : List F → Json.Value
  /-- A score, as it was found. -/
  scoreOf : Option Json.Value → F

/-- `QueryResult`, without the meta data, which are always null. -/
structure QueryResult where
  rows : UInt64
  bytes : UInt64

/-- A number of `serde_json`, of a `usize`. -/
def sizeValue (size : UInt64) : Json.Value := .number (.posInt size)

/-- What `extract_meta` reads from the parameters. -/
structure SessionMeta where
  tenant : TenantId
  table : String
  kind : String

/-- A text among the parameters. -/
def textParam (params : NamedArgs) (name : String) : Option String :=
  (params.get name).bind Json.Value.asStr

/-- The tenant of `extract_meta`. -/
def extractTenant (params : NamedArgs) (strict : Bool) : StorageResult TenantId :=
  match params.get "tenant" with
  | some value =>
      match value.asStr with
      | some text => .ok ⟨text⟩
      | none => .error (.schema "tenant parameter must be a string")
  | none =>
      if strict then .error (.schema "missing tenant parameter for strict Surreal session")
      else .ok ⟨"__system__"⟩

/-- `extract_meta`. -/
def extractMeta (params : NamedArgs) (strict : Bool) : StorageResult SessionMeta := do
  let tenant ← extractTenant params strict
  return {
    tenant := tenant
    table := (textParam params "table").getD "__raw__"
    kind := (textParam params "__kind").getD "read" }

open SurrealComputation

section Users

variable {Response T F : Type} (reads : SurrealReads Response T F) (strict : Bool)

namespace SurrealSession

/-- The number of rows that `query_json` records. -/
def rowsOf : Option Json.Value → ℕ
  | some (.array items) => items.length
  | some _ => 1
  | none => 0

/-- `SurrealSession::query`. -/
def query (statement : String) (params : NamedArgs) :
    SurrealComputation Response T QueryResult := do
  let found ← ofResult (extractMeta params strict)
  let args ← ofResult (bindTenant params found.tenant)
  let _ ← runRaw statement args
  call (.recordRequest found.tenant found.table found.kind 0)
  return { rows := 0, bytes := 0 }

/-- `SurrealSession::query_json`. -/
def queryJson (statement : String) (params : NamedArgs) :
    SurrealComputation Response T (Option Json.Value) := do
  let found ← ofResult (extractMeta params strict)
  let args ← ofResult (bindTenant params found.tenant)
  let response ← runRaw statement args
  let value ← ofResult (reads.takeOption response)
  call (.recordRequest found.tenant found.table found.kind (rowsOf value))
  return value

end SurrealSession

/-- `SurrealTx`. -/
structure SurrealTx where
  active : Bool
  lastTenant : Option TenantId

namespace SurrealTx

/-- `SurrealTx::begin`, with `start`. -/
def begin : SurrealComputation Response T SurrealTx := do
  let _ ← runRaw "BEGIN TRANSACTION" ∅
  return { active := true, lastTenant := none }

/-- The part of `SurrealTx::execute` after the tenant is known. -/
def executeAs (found : SessionMeta) (statement : String) (args : NamedArgs) :
    SurrealComputation Response T QueryResult := do
  let _ ← runRaw statement args
  call (.recordRequest found.tenant found.table found.kind 0)
  return { rows := 0, bytes := 0 }

/-- `SurrealTx::execute`. The tenant is kept before the statement is sent. -/
def execute (tx : SurrealTx) (statement : String) (params : NamedArgs) :
    SurrealProgram Response T (StorageResult QueryResult × SurrealTx) :=
  match extractMeta params strict with
  | .error err => return (.error err, tx)
  | .ok found =>
      match bindTenant params found.tenant with
      | .error err => return (.error err, tx)
      | .ok args => do
          let result ← (executeAs found statement args).run
          return (result, { tx with lastTenant := some found.tenant })

/-- `SurrealTx::commit`. -/
def commit (tx : SurrealTx) : SurrealComputation Response T Unit :=
  if tx.active then do
    let _ ← runRaw "COMMIT TRANSACTION" ∅
    return ()
  else return ()

/-- `SurrealTx::rollback`. -/
def rollback (tx : SurrealTx) : SurrealComputation Response T Unit :=
  if tx.active then do
    let _ ← runRaw "CANCEL TRANSACTION" ∅
    match tx.lastTenant with
    | some tenant => call (.recordTxRollback tenant)
    | none => return ()
  else return ()

end SurrealTx

/-- What the owner of a transaction does with it. An end takes the transaction away from it. -/
inductive TxWork
  | execute (statement : String) (params : NamedArgs) (next : StorageResult QueryResult → TxWork)
  | commit
  | rollback
  /-- The transaction is dropped. -/
  | drop

/-- The work on a transaction that was begun. -/
def TxWork.run (tx : SurrealTx) : TxWork → SurrealProgram Response T (StorageResult Unit)
  | .execute statement params next => do
      let (result, tx) ← tx.execute strict statement params
      (next result).run tx
  | .commit => tx.commit.run
  | .rollback => tx.rollback.run
  | .drop => return .ok ()

/-- `SurrealSession::begin`, and the work on the transaction. -/
def TxWork.transaction (work : TxWork) : SurrealProgram Response T (StorageResult Unit) := do
  match ← SurrealTx.begin.run with
  | .error err => return .error err
  | .ok tx => work.run strict tx

/-- `HealthInfo`. -/
structure HealthInfo where
  ok : Bool
  message : String

/-- `SurrealPool::health`. -/
def SurrealPool.health (errText : StorageError → String) :
    SurrealComputation Response T HealthInfo := do
  match ← ExceptT.lift (perform (SurrealCall.runRaw "INFO FOR DB" ∅)) with
  | .ok _ => return { ok := true, message := "ok" }
  | .error err => return { ok := false, message := errText err }

/-! ## Repositories -/

namespace SurrealRepository

variable (kept : EntityTable T)

/-- The parameters of a statement on the record of an id. -/
def recordParams (tenant : TenantId) (id kind : String) : NamedArgs :=
  ((baseParams kept.table tenant).put "id" (.string id)).put "__kind" (.string kind)

/-- `SurrealRepository::get`, over a pool. -/
def getWith (tenant : TenantId) (id : String) : SurrealComputation Response T (Option T) := do
  let raw ← SurrealSession.queryJson reads strict
    "SELECT * FROM type::thing($table, $id) WHERE tenant = $tenant LIMIT 1"
    (recordParams kept tenant id "read")
  match raw with
  | some value => do
      let doc ← ofResult (kept.entity.deserialize value)
      return some doc
  | none => return none

/-- `SurrealRepository::create`, over a pool. -/
def createWith (tenant : TenantId) (doc : T) : SurrealComputation Response T T := do
  let value ← ofResult (kept.entity.serialize doc)
  let raw ← SurrealSession.queryJson reads strict
    "CREATE type::thing($table, $id) CONTENT $data RETURN AFTER"
    ((recordParams kept tenant (kept.entity.id doc) "write").put "data" value)
  let created ← ofResult (okOr (.unknown "failed to create record") raw)
  ofResult (kept.entity.deserialize created)

/-- `SurrealRepository::upsert`, over a pool. -/
def upsertWith (tenant : TenantId) (id : String) (patch : Json.Value)
    (expectedVersion : Option UInt64) : SurrealComputation Response T T := do
  let params := (recordParams kept tenant id "write").put "patch" patch
  let found ← match expectedVersion with
    | some version => do
        let raw ← SurrealSession.queryJson reads strict
          ("UPDATE type::thing($table, $id) MERGE $patch " ++
            "WHERE tenant = $tenant AND ver = $expected_ver RETURN AFTER")
          (params.put "expected_ver" (sizeValue version))
        ofResult (okOr (.notFound "record not found") raw)
    | none => do
        let raw ← SurrealSession.queryJson reads strict
          "UPSERT type::thing($table, $id) MERGE $patch RETURN AFTER" params
        ofResult (okOr (.unknown "upsert returned no record") raw)
  ofResult (kept.entity.deserialize found)

/-- `SurrealRepository::upsert_returning_none`, over a pool. -/
def upsertReturningNoneWith (tenant : TenantId) (id : String) (patch : Json.Value) :
    SurrealComputation Response T Unit := do
  let _ ← SurrealSession.query strict "UPSERT type::thing($table, $id) MERGE $patch RETURN NONE"
    ((recordParams kept tenant id "write").put "patch" patch)
  return ()

/-- `SurrealRepository::delete`, over a pool. -/
def deleteWith (tenant : TenantId) (id : String) : SurrealComputation Response T Unit := do
  let _ ← SurrealSession.query strict "DELETE type::thing($table, $id) WHERE tenant = $tenant"
    (recordParams kept tenant id "write")
  return ()

/-- `SurrealRepository::select`, over a pool. -/
def selectWith (tenant : TenantId) (filter : Json.Value) (sorts : Option (List SortKey))
    (limit : UInt64) (cursor : Option String) : SurrealComputation Response T (Page T) := do
  let query ← ofResult (selectQuery kept.table tenant filter sorts limit cursor)
  let response ← runRaw (query.statement kept.table) query.args
  let items ← ofResult (reads.takeItems response)
  call (.recordRequest tenant kept.table "read" items.length)
  return {
    items := items
    next :=
      if items.length = limit.toNat ∧ 0 < limit then items.getLast?.map kept.entity.id else none }

end SurrealRepository

namespace SurrealGraph

/-- `SurrealGraph::validate_edge`. -/
def validateEdge (edge : String) : StorageResult Unit :=
  if edge = "" || !edge.toList.all fun c => Mapper.isAsciiAlphanumeric c || c = '_' || c = '-' then
    .error (.schema ("invalid graph edge identifier '" ++ edge ++ "'"))
  else .ok ()

/-- `SurrealGraph::ensure_properties`. -/
def ensureProperties (tenant : TenantId) : Json.Value → StorageResult Json.Value
  | .object entries => .ok (.object (Json.Map.insert entries "tenant" (.string tenant.asStr)))
  | .null => .ok (.object (Json.Map.insert [] "tenant" (.string tenant.asStr)))
  | _ => .error (.schema "graph properties must be a JSON object")

/-- `SurrealGraph::relate`. -/
def relate (tenant : TenantId) (source edge target : String) (properties : Json.Value) :
    SurrealComputation Response T Unit := do
  ofResult (validateEdge edge)
  let owned ← ofResult (ensureProperties tenant properties)
  let params : NamedArgs := HashMap.put ∅ "tenant" (.string tenant.asStr)
    |>.put "from" (.string source)
    |>.put "to" (.string target)
    |>.put "__kind" (.string "graph")
    |>.put "properties" owned
  let args ← ofResult (bindTenant params tenant)
  let _ ← runRaw ("RELATE type::thing($from) -> " ++ edge ++
    " -> type::thing($to) CONTENT $properties") args
  call (.recordRequest tenant edge "graph" 0)

/-- What `out` and `in` have in common: the end that is given, and the text that follows an edge. -/
def follow (tenant : TenantId) (given id edge : String) (limit : UInt64)
    (statement : String) : SurrealComputation Response T (List T) := do
  ofResult (validateEdge edge)
  let params : NamedArgs := HashMap.put ∅ "tenant" (.string tenant.asStr)
    |>.put given (.string id)
    |>.put "limit" (sizeValue limit)
    |>.put "__kind" (.string "graph")
  let args ← ofResult (bindTenant params tenant)
  let response ← runRaw statement args
  let items ← ofResult (reads.takeItems response)
  call (.recordRequest tenant edge "graph" items.length)
  return items

/-- `SurrealGraph::out`. -/
def out (tenant : TenantId) (source edge : String) (limit : UInt64) :
    SurrealComputation Response T (List T) :=
  follow reads tenant "from" source edge limit
    ("SELECT out.* FROM type::thing($from) -> " ++ edge ++
      " WHERE tenant = $tenant LIMIT $limit")

/-- `SurrealGraph::in`. -/
def «in» (tenant : TenantId) (target edge : String) (limit : UInt64) :
    SurrealComputation Response T (List T) :=
  follow reads tenant "to" target edge limit
    ("SELECT in.* FROM type::thing($to) <- " ++ edge ++ " WHERE tenant = $tenant LIMIT $limit")

end SurrealGraph

/-- A row, without its score. -/
def withoutScore : Json.Value → Json.Value
  | .object entries => .object (Json.Map.remove entries "score")
  | value => value

namespace SurrealVectorIndex

/-- The parameters of a statement on the vector of an id. -/
def vectorParams (tenant : TenantId) (id : String) : NamedArgs :=
  HashMap.put ∅ "tenant" (.string tenant.asStr)
    |>.put "id" (.string id)
    |>.put "__kind" (.string "vector")

/-- `SurrealVectorIndex::upsert_vec`. -/
def upsertVec (tenant : TenantId) (id : String) (embedding : List F) :
    SurrealComputation Response T Unit := do
  let params := (vectorParams tenant id).put "vector" (reads.embeddingValue embedding)
  let args ← ofResult (bindTenant params tenant)
  let _ ← runRaw "UPDATE type::thing($id) SET vector = $vector WHERE tenant = $tenant RETURN AFTER"
    args
  call (.recordRequest tenant "vector" "write" 0)

/-- `SurrealVectorIndex::remove_vec`. -/
def removeVec (tenant : TenantId) (id : String) : SurrealComputation Response T Unit := do
  let args ← ofResult (bindTenant (vectorParams tenant id) tenant)
  let _ ← runRaw "UPDATE type::thing($id) REMOVE vector WHERE tenant = $tenant" args
  call (.recordRequest tenant "vector" "write" 0)

/-- The body of the loop of `knn`. -/
def neighbour (kept : EntityTable T) (tenant : TenantId) (withRepo : Bool) (row : Json.Value) :
    SurrealComputation Response T (Option (T × F)) := do
  let score := reads.scoreOf (row.get "score")
  let id ← ofResult (okOr (.schema "vector query missing id")
    ((row.get "id").bind Json.Value.asStr))
  if withRepo then do
    let found ← ofResult (← call (.repoGet tenant id))
    return found.map (·, score)
  else do
    let doc ← ofResult (kept.entity.deserialize (withoutScore row))
    return some (doc, score)

/-- The loop of `knn`. -/
def neighbours (kept : EntityTable T) (tenant : TenantId) (withRepo : Bool) :
    List Json.Value → SurrealComputation Response T (List (T × F))
  | [] => return []
  | row :: rest => do
      let found ← neighbour reads kept tenant withRepo row
      let later ← neighbours kept tenant withRepo rest
      return found.toList ++ later

/-- `SurrealVectorIndex::knn`. -/
def knn (kept : EntityTable T) (tenant : TenantId) (query : List F) (k : UInt64)
    (withRepo : Bool) : SurrealComputation Response T (List (T × F)) :=
  if k = 0 || query.isEmpty then return []
  else do
    let params : NamedArgs := HashMap.put ∅ "tenant" (.string tenant.asStr)
      |>.put "limit" (sizeValue k)
      |>.put "query_vec" (reads.embeddingValue query)
      |>.put "__kind" (.string "vector")
    let args ← ofResult (bindTenant params tenant)
    let response ← runRaw ("SELECT *, SIMILARITY::COSINE(vector, $query_vec) AS score FROM " ++
      kept.table ++ " WHERE tenant = $tenant AND vector IS NOT NONE " ++
        "ORDER BY score DESC LIMIT $limit") args
    let rows ← ofResult (reads.takeValues response)
    call (.recordRequest tenant kept.table "vector" rows.length)
    neighbours reads kept tenant withRepo rows

end SurrealVectorIndex

/-- `SurrealSearch::search`. The cursor is not looked at. -/
def SurrealSearch.search (kept : EntityTable T) (tenant : TenantId) (query : String)
    (limit : UInt64) : SurrealComputation Response T (Page T) :=
  if Text.trim query = "" then return { items := [], next := none }
  else do
    let params : NamedArgs := HashMap.put ∅ "tenant" (.string tenant.asStr)
      |>.put "limit" (sizeValue limit)
      |>.put "query" (.string query)
      |>.put "__kind" (.string "search")
    let args ← ofResult (bindTenant params tenant)
    let response ← runRaw ("SELECT *, SEARCH::SCORE(" ++ kept.table ++ ", $query) AS score FROM " ++
      kept.table ++ " WHERE tenant = $tenant AND SEARCH::SCORE(" ++ kept.table ++
        ", $query) > 0 ORDER BY score DESC LIMIT $limit") args
    let rows ← ofResult (reads.takeValues response)
    call (.recordRequest tenant kept.table "search" rows.length)
    let items ← ofResult (rows.mapM fun row => kept.entity.deserialize (withoutScore row))
    return { items := items, next := none }

end Users

end Soulbase.Storage
