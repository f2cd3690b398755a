/-
# The statement of `select`

`SurrealRepository::select` puts a statement together: the condition on the tenant, the clause
of the filter and the condition on the cursor, and the clause of the sorts. All values go into
one map of parameters.
-/

import Soulbase.Storage.Filter

namespace Soulbase.Storage

open Soulbase.Foundation

/-- `bind_tenant`. -/
def bindTenant (params : NamedArgs) (tenant : TenantId) : StorageResult NamedArgs :=
  match params.get "tenant" with
  | none => .ok (params.put "tenant" (.string tenant.asStr))
  | some (.string value) =>
      if value = tenant.asStr then .ok (params.put "tenant" (.string tenant.asStr))
      else .error (.schema ("tenant guard mismatch: expected '" ++ tenant.asStr ++ "', got '" ++
        value ++ "'"))
  | some _ => .error (.schema "tenant parameter must be a string value")

/-- The texts and the parameters of a statement. -/
structure SelectQuery where
  whereClause : String
  orderClause : String
  args : NamedArgs

/-- The text of the statement. -/
def SelectQuery.statement (query : SelectQuery) (table : String) : String :=
  "SELECT * FROM " ++ table ++ " WHERE " ++ query.whereClause ++ query.orderClause ++
    " LIMIT $limit"

namespace SurrealRepository

/-- `SurrealRepository::base_params`. -/
def baseParams (table : String) (tenant : TenantId) : NamedArgs :=
  (HashMap.put ∅ "tenant" (.string tenant.asStr)).put "table" (.string table)

/-- The parameters of `select` before those of the filter. -/
def selectParams (table : String) (tenant : TenantId) (limit : UInt64) : NamedArgs :=
  ((baseParams table tenant).put "__kind" (.string "read")).put "limit" (.number (.posInt limit))

/-- The part of `select` after the clause of the filter. -/
def queryOf (tenant : TenantId) (sorts : Option (List SortKey)) (cursor : Option String)
    (filterClause : String) (params : NamedArgs) : StorageResult SelectQuery := do
  let whereClause :=
    if filterClause = "" then "tenant = $tenant"
    else Mapper.appendWhere "tenant = $tenant" filterClause
  let (whereClause, params) := match cursor with
    | some cursor =>
        (Mapper.appendWhere whereClause "id > $cursor", params.put "cursor" (.string cursor))
    | none => (whereClause, params)
  let orderClause ← sorts.elim (.ok "") Mapper.buildSortClause
  let args ← bindTenant params tenant
  return { whereClause := whereClause, orderClause := orderClause, args := args }

/-- The statement of `SurrealRepository::select`. -/
def selectQuery (table : String) (tenant : TenantId) (filter : Json.Value)
    (sorts : Option (List SortKey)) (limit : UInt64) (cursor : Option String) :
    StorageResult SelectQuery := do
  let (filterClause, params) ←
    Mapper.buildFilterClause filter (selectParams table tenant limit) "select"
  queryOf tenant sorts cursor filterClause params

end SurrealRepository

end Soulbase.Storage
