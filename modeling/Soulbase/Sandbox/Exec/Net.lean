/-
# The executor of the network

`NetExecutor` does not send anything. It checks the URL, the host and the method
against the profile, and says what it would have sent.
-/

import Soulbase.Sandbox.Select

namespace Soulbase.Sandbox

open Soulbase.Foundation SandboxError

/-- `std::net::IpAddr`: the octets, or the segments. -/
inductive IpAddr
  | v4 (first second third fourth : UInt8)
  | v6 (segments : Vector UInt16 8)

/-- `is_private_ipv4`. -/
def isPrivateIpv4 (first second : UInt8) : Bool :=
  first = 10 || (first = 172 && 16 ≤ second && second ≤ 31) || (first = 192 && second = 168) ||
    first = 127 || (first = 169 && second = 254)

/-- `is_private_ipv6`: the loopback address, the unique local ones and the unspecified
one. -/
def isPrivateIpv6 (segments : Vector UInt16 8) : Bool :=
  segments = #v[0, 0, 0, 0, 0, 0, 0, 1] || segments[0] &&& 0xfe00 = 0xfc00 ||
    segments = #v[0, 0, 0, 0, 0, 0, 0, 0]

/-- `is_private_host`, for what `str::parse` makes of an address. -/
def isPrivateHost (parseIp : String → Option IpAddr) (host : String) : Bool :=
  if Text.eqIgnoreAsciiCase host "localhost" then true
  else
    match parseIp host with
    | some (.v4 first second _ _) => isPrivateIpv4 first second
    | some (.v6 segments) => isPrivateIpv6 segments
    | none => false

namespace NetExecutor

/-- `ensure_domain_allowed`. -/
def ensureDomainAllowed (parseIp : String → Option IpAddr) (profile : Profile)
    (host : String) : SandboxResult Unit := do
  rejectIf (isPrivateHost parseIp host) (policyViolation "host resolves to private network")
  rejectIf profile.whitelists.domains.isEmpty (policyViolation "network domains not declared")
  rejectIf (!profile.whitelists.domains.any (Text.endsWith host ·))
    (policyViolation "domain not in whitelist")

/-- `ensure_method_allowed`. -/
def ensureMethodAllowed (crates : Crates) (methods : List String) (method : String) :
    SandboxResult Unit :=
  rejectIf (!allowsMethod crates methods method) (policyViolation "http method not allowed")

/-- The body that `execute_http` would send. -/
def bodyBytes (crates : Crates) : Option String → SandboxResult (List UInt8)
  | some payload => okOr (policyViolation "invalid request body") (crates.decodeBase64 payload)
  | none => .ok []

/-- `execute_http`. -/
def executeHttp (crates : Crates) (parseIp : String → Option IpAddr) (profile : Profile)
    (method url : String) (headers : Json.Value) (bodyB64 : Option String) :
    SandboxResult ExecResult := do
  let parsed ← okOr (policyViolation "invalid url") (crates.parseUrl url)
  rejectIf (parsed.scheme ≠ "https" && parsed.scheme ≠ "http")
    (policyViolation "unsupported scheme")
  let host ← okOr (policyViolation "missing host") parsed.hostStr
  ensureDomainAllowed parseIp profile host
  ensureMethodAllowed crates profile.whitelists.methods method
  let body ← bodyBytes crates bodyB64
  let sent := UInt64.ofNat body.length
  rejectIf (profile.limits.maxBytesOut.any (sent > ·))
    (policyViolation "request body exceeds limit")
  rejectIf (profile.limits.maxBytesIn = some 0) (policyViolation "network response forbidden")
  return .success
    (.object [("headers", headers), ("method", .string method),
      ("request_body_present", .bool (!body.isEmpty)), ("status", .string "simulated"),
      ("url", .string url)])
    { calls := 1, bytesOut := sent }
    [{ kind := .network
       metadata := .object [("method", .string method),
         ("request_bytes", ExecOp.numberValue sent), ("url", .string url)] }]

/-- `NetExecutor::execute`, for a token that says whether the call is cancelled. -/
def execute (crates : Crates) (parseIp : String → Option IpAddr) (profile : Profile)
    (isCancelled : Bool) (op : ExecOp) : SandboxResult ExecResult := do
  rejectIf isCancelled (policyViolation "execution cancelled")
  match op with
  | .netHttp method url headers bodyB64 =>
      executeHttp crates parseIp profile method url headers bodyB64
  | .fsRead .. | .fsWrite .. | .fsList _ | .browserNav _ | .browserScreenshot ..
  | .procExec .. | .tmpAlloc _ =>
      .error (policyViolation "operation not supported by NetExecutor")

variable {crates : Crates} {parseIp : String → Option IpAddr} {profile : Profile}
variable {host method url : String}

theorem ensureDomainAllowed_eq_ok_iff :
    ensureDomainAllowed parseIp profile host = .ok () ↔
      isPrivateHost parseIp host = false ∧
        ∃ allowed ∈ profile.whitelists.domains, Text.endsWith host allowed = true := by
  simp only [ensureDomainAllowed, rejectIf_bind_eq_ok_iff, rejectIf_eq_ok_iff,
    Bool.not_eq_false', List.any_eq_true]
  constructor
  · exact fun h => ⟨h.1, h.2.2⟩
  · rintro ⟨hpublic, allowed, hallowed, hends⟩
    exact ⟨hpublic, by simp [List.ne_nil_of_mem hallowed], allowed, hallowed, hends⟩

/-- A request that passes has a host that ends like a domain of the whitelist, and one of
the two schemes. -/
theorem url_of_execute {headers : Json.Value} {bodyB64 : Option String} {isCancelled : Bool}
    {result : ExecResult}
    (h : execute crates parseIp profile isCancelled (.netHttp method url headers bodyB64) =
      .ok result) :
    ∃ parsed host, crates.parseUrl url = some parsed ∧ parsed.hostStr = some host ∧
      (parsed.scheme = "https" ∨ parsed.scheme = "http") ∧
        ∃ allowed ∈ profile.whitelists.domains, Text.endsWith host allowed = true := by
  obtain ⟨parsed, hparsed, h⟩ := bind_eq_ok_iff.mp (rejectIf_bind_eq_ok_iff.mp h).2
  obtain ⟨hscheme, h⟩ := rejectIf_bind_eq_ok_iff.mp h
  obtain ⟨host, hhost, h⟩ := bind_eq_ok_iff.mp h
  obtain ⟨_, hdomain, _⟩ := bind_eq_ok_iff.mp h
  refine ⟨parsed, host, okOr_eq_ok_iff.mp hparsed, okOr_eq_ok_iff.mp hhost, ?_,
    (ensureDomainAllowed_eq_ok_iff.mp hdomain).2⟩
  by_cases hhttps : parsed.scheme = "https"
  · exact .inl hhttps
  · exact .inr (by simpa [hhttps] using hscheme)

end NetExecutor

end Soulbase.Sandbox
