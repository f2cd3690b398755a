/-
# Requests and responses over HTTP

`AxumRequest` and `AxumResponse`. A request keeps its body once it has been read as JSON. A
response has a status, headers and a body; what the `http` crate does not take for a status, a name
or a value is dropped.
-/

import Soulbase.Interceptors.Context
import Soulbase.Foundation.FiniteMap

namespace Soulbase.Interceptors

open Soulbase.Foundation Soulbase.Errors

/-- What comes from other crates. -/
structure HttpCrates where
  /-- `HeaderName::try_from`: the name in lower case, if it is one. -/
  headerName : String → Option String
  /-- `HeaderValue::from_str` takes the value. -/
  headerValue : String → Bool
  /-- `serde_json::from_slice`. -/
  fromSlice : List UInt8 → Option Json.Value
  /-- `serde_json::to_vec`, and nothing where it fails. -/
  toVec : Json.Value → List UInt8

/-- `AxumRequest`. -/
structure AxumRequest where
  inner : ProtoRequest
  cachedJson : Option Json.Value

namespace AxumRequest

/-- `AxumRequest::new`. -/
def new (inner : ProtoRequest) : AxumRequest where
  inner := inner
  cachedJson := none

/-- `AxumRequest::read_json`, where `bytes` is what `body::to_bytes` returns if it is asked. -/
def readJson (http : HttpCrates) (request : AxumRequest) (bytes : Option (List UInt8)) :
    Except InterceptError Json.Value × AxumRequest :=
  match request.cachedJson, bytes with
  | some value, _ => (.ok value, request)
  | none, none => (.error (.fromPublic codes.schemaValidationFailed "无法读取请求体。"), request)
  | none, some [] => (.ok .null, { request with cachedJson := some .null })
  | none, some bytes =>
      match http.fromSlice bytes with
      | none => (.error (.fromPublic codes.schemaValidationFailed "请求体不是 JSON。"), request)
      | some value => (.ok value, { request with cachedJson := some value })

end AxumRequest

/-- `Response<Body>`, as it is sent. -/
structure HttpResponse where
  status : UInt16
  headers : HashMap String String
  body : List UInt8

/-- `AxumResponse`. -/
structure AxumResponse where
  status : UInt16
  headers : HashMap String String
  body : Option Json.Value

namespace AxumResponse

/-- `AxumResponse::new`. -/
def new : AxumResponse where
  status := 200
  headers := ∅
  body := none

/-- `AxumResponse::set_status`. `StatusCode::try_from` takes what has three digits. -/
def setStatus (response : AxumResponse) (code : UInt16) : AxumResponse :=
  if 100 ≤ code ∧ code ≤ 999 then { response with status := code } else response

/-- `AxumResponse::insert_header`. -/
def insertHeader (http : HttpCrates) (response : AxumResponse) (name value : String) :
    AxumResponse :=
  match http.headerName name with
  | some name =>
      if http.headerValue value then { response with headers := response.headers.put name value }
      else response
  | none => response

/-- `AxumResponse::write_json`. -/
def writeJson (response : AxumResponse) (body : Json.Value) : AxumResponse :=
  { response with body := some body }

/-- `AxumResponse::into_response`. -/
def intoResponse (http : HttpCrates) (response : AxumResponse) : HttpResponse where
  status := response.status
  headers :=
    if response.body.isSome then response.headers.put "content-type" "application/json"
    else response.headers
  body := (response.body.map http.toVec).getD []

end AxumResponse

end Soulbase.Interceptors
