/-
# Confinement of requests

The method, the scheme and the port of a request satisfy the capability that was
chosen. Its host ends like that of the capability and like a domain of the whitelist,
as texts, which is less than being one of their subdomains: `notexample.com` ends like
`example.com`.

`not_netConfined_lookalike` is such a request. `netConfined_iff_startsAtLabels` says when
the comparison is enough: where what stands before the common end is nothing or ends
with a dot.
-/

import Soulbase.Sandbox.Exec.Net

namespace Soulbase.Sandbox

open Soulbase.Foundation

/-- The labels of a host. -/
def labels (host : String) : List (List Char) := host.toList.splitOn '.'

/-- The host is the domain or a subdomain of it: its last labels are those of the
domain. -/
def IsSubdomain (host domain : String) : Prop := labels domain <:+ labels host

instance (host domain : String) : Decidable (IsSubdomain host domain) :=
  inferInstanceAs (Decidable (labels domain <:+ labels host))

/-- The port that a scheme stands for. -/
def defaultPort (scheme : String) : Option UInt16 :=
  match scheme with
  | "http" | "ws" => some 80
  | "https" | "wss" => some 443
  | "ftp" => some 21
  | _ => none

/-- The port that a URL leads to. -/
def Url.effectivePort (url : Url) : Option UInt16 := url.port.or (defaultPort url.scheme)

/-- What a capability of the network restricts besides the host. The URL leads to some
port. -/
structure MeetsRestrictions (crates : Crates) (parsed : Url) (method : String)
    (port : Option UInt16) (scheme : Option String) (methods : List String) : Prop where
  method : methods = [] ∨ ∃ allowed ∈ methods,
    Text.eqIgnoreAsciiCase allowed (Text.toUppercase crates.upper method) = true
  scheme : ∀ allowed, scheme = some allowed →
    Text.eqIgnoreAsciiCase allowed parsed.scheme = true
  port : ∃ effective, parsed.effectivePort = some effective ∧
    ∀ allowed, port = some allowed → allowed = effective

/-- The request stays within the capability and the whitelist. -/
def NetConfined (crates : Crates) (profile : Profile) (capability : Capability)
    (url method : String) : Prop :=
  ∃ parsed host allowedHost port scheme methods,
    crates.parseUrl url = some parsed ∧ parsed.hostStr = some host ∧
      capability = .netHttp allowedHost port scheme methods ∧ IsSubdomain host allowedHost ∧
        (∃ domain ∈ profile.whitelists.domains, IsSubdomain host domain) ∧
          MeetsRestrictions crates parsed method port scheme methods

/-- What stands in the host before the end of this length is nothing or ends with a
dot. -/
def startsAtLabel (host domain : String) : Bool :=
  (host.toList.take (host.toList.length - domain.toList.length)).getLast?.all (· = '.')

/-- The host of a URL. -/
def urlHost (crates : Crates) (url : String) : Option String :=
  (crates.parseUrl url).bind (·.hostStr)

/-- The common ends of the host with the capability and with a domain of the whitelist
start at labels. -/
structure StartsAtLabels (crates : Crates) (profile : Profile) (capability : Capability)
    (url : String) : Prop where
  capability : ∀ host allowedHost port scheme methods, urlHost crates url = some host →
    capability = .netHttp allowedHost port scheme methods →
      startsAtLabel host allowedHost = true
  whitelist : ∀ host, urlHost crates url = some host →
    ∃ domain ∈ profile.whitelists.domains,
      Text.endsWith host domain = true ∧ startsAtLabel host domain = true

theorem isSubdomain_iff {host domain : String} :
    IsSubdomain host domain ↔
      Text.endsWith host domain = true ∧ startsAtLabel host domain = true := by
  rw [IsSubdomain, labels, labels, splitOn_suffix_iff, Text.endsWith_iff, startsAtLabel]
  constructor
  · rintro (hequal | ⟨before, hbefore⟩)
    · rw [hequal]
      simp
    · rw [← hbefore]
      refine ⟨⟨before ++ ['.'], by simp⟩, ?_⟩
      have hsplit : before ++ '.' :: domain.toList = (before ++ ['.']) ++ domain.toList := by simp
      rw [hsplit, List.length_append, Nat.add_sub_cancel, List.take_left]
      simp
  · rintro ⟨⟨before, hbefore⟩, hstarts⟩
    rw [← hbefore, List.length_append, Nat.add_sub_cancel, List.take_left] at hstarts
    rcases List.eq_nil_or_concat before with rfl | ⟨rest, letter, rfl⟩
    · exact .inl hbefore
    · have hdot : letter = '.' := by simpa using hstarts
      subst hdot
      refine .inr ⟨rest, ?_⟩
      rw [← hbefore]
      simp

section Checked

variable {crates : Crates} {parsed : Url} {host allowedHost method : String}
variable {port : Option UInt16} {scheme : Option String} {methods : List String}

/-- A scheme that the executor takes has a default port. -/
theorem exists_effectivePort (h : parsed.scheme = "https" ∨ parsed.scheme = "http") :
    ∃ effective, parsed.effectivePort = some effective := by
  rw [Url.effectivePort]
  cases parsed.port with
  | some given => exact ⟨given, rfl⟩
  | none =>
      rcases h with hscheme | hscheme
      · exact ⟨443, by rw [hscheme]; rfl⟩
      · exact ⟨80, by rw [hscheme]; rfl⟩

/-- A capability that covers a URL has a host that ends the other one, and its
restrictions are met. -/
theorem endsWith_and_meets_of_coversUrl
    (h : coversUrl crates parsed host method (.netHttp allowedHost port scheme methods) = true)
    (hscheme : parsed.scheme = "https" ∨ parsed.scheme = "http") :
    Text.endsWith host allowedHost = true ∧
      MeetsRestrictions crates parsed method port scheme methods := by
  simp only [coversUrl, allowsMethod, Bool.and_eq_true, Bool.or_eq_true, List.isEmpty_iff,
    List.any_eq_true, Option.all_eq_true, decide_eq_true_eq] at h
  obtain ⟨⟨⟨hmethod, hallowed⟩, hport⟩, hends⟩ := h
  obtain ⟨effective, heffective⟩ := exists_effectivePort hscheme
  refine ⟨hends, hmethod, hallowed, effective, heffective, ?_⟩
  intro allowed hsome
  rw [Url.effectivePort, ← hport allowed hsome] at heffective
  exact Option.some.inj heffective

/-- The chosen capability covers the host that the URL has. -/
theorem covered_of_findNetCapability {profile : Profile} {capability : Capability}
    {url : String} (h : findNetCapability crates profile url method = .ok capability)
    (hscheme : ∀ parsed, crates.parseUrl url = some parsed →
      parsed.scheme = "https" ∨ parsed.scheme = "http") :
    ∃ parsed host allowedHost port scheme methods,
      crates.parseUrl url = some parsed ∧ parsed.hostStr = some host ∧
        capability = .netHttp allowedHost port scheme methods ∧
          Text.endsWith host allowedHost = true ∧
            MeetsRestrictions crates parsed method port scheme methods := by
  obtain ⟨parsed, host, hparsed, hhost, _, hcovers⟩ := findNetCapability_eq_ok h
  cases capability with
  | netHttp allowedHost port scheme methods =>
      obtain ⟨hends, hmeets⟩ := endsWith_and_meets_of_coversUrl hcovers (hscheme parsed hparsed)
      exact ⟨parsed, host, allowedHost, port, scheme, methods, hparsed, hhost, rfl, hends, hmeets⟩
  | fsRead _ | fsWrite _ _ | fsList _ | browserUse _ | procExec _ | tmpUse | sysGpu _ =>
      cases hcovers

theorem urlHost_eq_some {url : String} (hparsed : crates.parseUrl url = some parsed)
    (hhost : parsed.hostStr = some host) : urlHost crates url = some host := by
  rw [urlHost, hparsed]
  exact hhost

end Checked

/-- For a request that the checks let pass, it is confined iff the ends that were
compared start at labels. -/
theorem netConfined_iff_startsAtLabels (crates : Crates) (parseIp : String → Option IpAddr)
    (profile : Profile) (capability : Capability) (method url : String) (headers : Json.Value)
    (bodyB64 : Option String) (isCancelled : Bool) (result : ExecResult)
    (hselect : findNetCapability crates profile url method = .ok capability)
    (hguard : DefaultPolicyGuard.validate profile capability = .ok ())
    (hexecute : NetExecutor.execute crates parseIp profile isCancelled
      (.netHttp method url headers bodyB64) = .ok result) :
    NetConfined crates profile capability url method ↔
      StartsAtLabels crates profile capability url := by
  have hscheme : ∀ parsed, crates.parseUrl url = some parsed →
      parsed.scheme = "https" ∨ parsed.scheme = "http" := by
    intro parsed hparsed
    obtain ⟨found, _, hfound, _, hscheme, _⟩ := NetExecutor.url_of_execute hexecute
    cases hparsed.symm.trans hfound
    exact hscheme
  obtain ⟨parsed, host, allowedHost, port, scheme, methods, hparsed, hhost, rfl, hends, hmeets⟩ :=
    covered_of_findNetCapability hselect hscheme
  have hurl := urlHost_eq_some hparsed hhost
  constructor
  · rintro ⟨parsed', host', allowedHost', port', scheme', methods', hparsed', hhost', hcapability,
      hsubdomain, ⟨domain, hdomain, hbelow⟩, _⟩
    have hsame := hurl.symm.trans (urlHost_eq_some hparsed' hhost')
    cases hsame
    cases hcapability
    constructor
    case capability =>
      intro found allowed _ _ _ hfound hnet
      cases hurl.symm.trans hfound
      cases hnet
      exact (isSubdomain_iff.mp hsubdomain).2
    case whitelist =>
      intro found hfound
      cases hurl.symm.trans hfound
      exact ⟨domain, hdomain, isSubdomain_iff.mp hbelow⟩
  · intro h
    obtain ⟨domain, hdomain, hlabel⟩ := h.whitelist host hurl
    have hallowed := h.capability host allowedHost port scheme methods hurl rfl
    exact ⟨parsed, host, allowedHost, port, scheme, methods, hparsed, hhost, rfl,
      isSubdomain_iff.mpr ⟨hends, hallowed⟩, ⟨domain, hdomain, isSubdomain_iff.mpr hlabel⟩,
      hmeets⟩

namespace Lookalike

/-- Requests to `example.com` are granted. -/
def capability : Capability := .netHttp "example.com" none none []

/-- The profile of that grant. -/
def profile : Profile :=
  { (Grant.forCall "fetcher" [capability]).profile with
    whitelists := { domains := ["example.com"] } }

/-- What the crates make of the two URLs. -/
def crates : Crates :=
  { Crates.ascii with
    parseUrl := fun url =>
      if url = "https://api.example.com/" then
        some { scheme := "https", hostStr := some "api.example.com", port := none }
      else if url = "https://notexample.com/" then
        some { scheme := "https", hostStr := some "notexample.com", port := none }
      else none }

/-- No host here is an address. -/
def parseIp (_ : String) : Option IpAddr := none

end Lookalike

/-- A subdomain. -/
theorem netConfined_iff_startsAtLabels_subdomain :
    NetConfined Lookalike.crates Lookalike.profile Lookalike.capability
        "https://api.example.com/" "get" ↔
      StartsAtLabels Lookalike.crates Lookalike.profile Lookalike.capability
        "https://api.example.com/" :=
  netConfined_iff_startsAtLabels Lookalike.crates Lookalike.parseIp Lookalike.profile
    Lookalike.capability "get" "https://api.example.com/" .null none false _ (by decide)
    (by decide) rfl

/-- `notexample.com` is another domain. -/
theorem not_netConfined_lookalike :
    ¬∀ (crates : Crates) (parseIp : String → Option IpAddr) (profile : Profile)
      (capability : Capability) (method url : String) (headers : Json.Value)
      (bodyB64 : Option String) (isCancelled : Bool) (result : ExecResult),
      findNetCapability crates profile url method = .ok capability →
        DefaultPolicyGuard.validate profile capability = .ok () →
          NetExecutor.execute crates parseIp profile isCancelled
              (.netHttp method url headers bodyB64) = .ok result →
            NetConfined crates profile capability url method := by
  intro h
  have hconfined := h Lookalike.crates Lookalike.parseIp Lookalike.profile Lookalike.capability
    "get" "https://notexample.com/" .null none false _ (by decide) (by decide) rfl
  obtain ⟨parsed, host, allowedHost, _, _, _, hparsed, hhost, hcapability, hsubdomain, _⟩ :=
    hconfined
  cases hparsed
  cases hhost
  cases hcapability
  exact absurd hsubdomain (by decide)

end Soulbase.Sandbox
