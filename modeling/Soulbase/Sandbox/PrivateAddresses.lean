/-
# Requests to private addresses

A private address is one in a block of addresses: the loopback block, those of private
networks, the local ones, the unspecified address, and the IPv6 forms of these. The
executor has a table of its own, and looks at the host as the text that the URL has.

An IPv6 address stands in brackets there, so it is read as no address at all and every
one passes, and `0.0.0.0` is not in the table of IPv4 addresses.
`refuses_iff_recognised` says that every other private host is refused, and these only
where another check refuses the request.
-/

import Soulbase.Sandbox.Addresses

namespace Soulbase.Sandbox

open Soulbase.Foundation SandboxError

/-- The addresses that have the first bits of an address, as many as the length says. -/
structure Network where
  address : Nat
  length : Nat

/-- Whether an address of so many bits is in the block. -/
def Network.contains (network : Network) (width address : Nat) : Bool :=
  address / 2 ^ (width - network.length) = network.address / 2 ^ (width - network.length)

/-- The number that four octets write. -/
def octetsNumber (first second third fourth : UInt8) : Nat :=
  ((first.toNat * 256 + second.toNat) * 256 + third.toNat) * 256 + fourth.toNat

/-- The number that eight segments write. -/
def segmentsNumber (segments : Vector UInt16 8) : Nat :=
  segments.toList.foldl (fun number segment => number * 65536 + segment.toNat) 0

/-- The loopback block, the three blocks of private networks, the block of local
addresses and the unspecified address. -/
def privateIpv4Networks : List Network :=
  [⟨octetsNumber 127 0 0 0, 8⟩, ⟨octetsNumber 10 0 0 0, 8⟩, ⟨octetsNumber 172 16 0 0, 12⟩,
    ⟨octetsNumber 192 168 0 0, 16⟩, ⟨octetsNumber 169 254 0 0, 16⟩, ⟨octetsNumber 0 0 0 0, 32⟩]

/-- The segments of an IPv6 address, with zeros between the first and the last. -/
def outerSegments (first last : UInt16) : Vector UInt16 8 := #v[first, 0, 0, 0, 0, 0, 0, last]

/-- The same for IPv6: loopback, unique local, link-local and unspecified. -/
def privateIpv6Networks : List Network :=
  [⟨segmentsNumber (outerSegments 0 1), 128⟩, ⟨segmentsNumber (outerSegments 0xfc00 0), 7⟩,
    ⟨segmentsNumber (outerSegments 0xfe80 0), 10⟩, ⟨segmentsNumber (outerSegments 0 0), 128⟩]

/-- The IPv6 addresses that stand for IPv4 addresses. -/
def mappedNetwork : Network := ⟨segmentsNumber #v[0, 0, 0, 0, 0, 0xffff, 0, 0], 96⟩

/-- Whether an address is in a private block. A mapped address is the IPv4 address that
its last bits write. -/
def IpAddr.inPrivateNetwork : IpAddr → Bool
  | v4 first second third fourth =>
      privateIpv4Networks.any (·.contains 32 (octetsNumber first second third fourth))
  | v6 segments =>
      privateIpv6Networks.any (·.contains 128 (segmentsNumber segments)) ||
        mappedNetwork.contains 128 (segmentsNumber segments) &&
          privateIpv4Networks.any (·.contains 32 (segmentsNumber segments % 2 ^ 32))

/-- What the host of a URL is. -/
inductive UrlHost
  | domain (name : String)
  | ip (addr : IpAddr)

namespace UrlHost

/-- The text of the host, once the URL was parsed, for how the segments of an address
are displayed. -/
def text (showSegments : Vector UInt16 8 → String) : UrlHost → String
  | domain name => name
  | ip (.v4 first second third fourth) => showOctets first second third fourth
  | ip (.v6 segments) => "[" ++ (showSegments segments ++ "]")

/-- Whether requests to the host stay in the internal network. -/
def isPrivate : UrlHost → Bool
  | domain name => name = "localhost"
  | ip addr => addr.inPrivateNetwork

/-- Whether it is a name or an IPv4 address other than the unspecified one. -/
def isRecognised : UrlHost → Bool
  | domain _ => true
  | ip (.v4 first second third fourth) =>
      !(first = 0 && second = 0 && third = 0 && fourth = 0)
  | ip (.v6 _) => false

end UrlHost

/-- The body that a request would send. -/
def sentBody (crates : Crates) (bodyB64 : Option String) : Option (List UInt8) :=
  bodyB64.elim (some []) crates.decodeBase64

/-- What is checked besides the kind of host. -/
structure PassesOtherChecks (crates : Crates) (profile : Profile) (isCancelled : Bool)
    (scheme host method : String) (bodyB64 : Option String) : Prop where
  live : isCancelled = false
  scheme : scheme = "https" ∨ scheme = "http"
  whitelisted : ∃ allowed ∈ profile.whitelists.domains, Text.endsWith host allowed = true
  method : allowsMethod crates profile.whitelists.methods method = true
  body : ∃ body, sentBody crates bodyB64 = some body ∧
    ∀ limit, profile.limits.maxBytesOut = some limit → UInt64.ofNat body.length ≤ limit
  answer : profile.limits.maxBytesIn ≠ some 0

theorem octetsNumber_div (first second third fourth : UInt8) :
    octetsNumber first second third fourth / 2 ^ 24 = first.toNat ∧
      octetsNumber first second third fourth / 2 ^ 20 =
        first.toNat * 16 + second.toNat / 16 ∧
      octetsNumber first second third fourth / 2 ^ 16 = first.toNat * 256 + second.toNat := by
  have hsecond : second.toNat < 256 := second.toNat_lt
  have hthird : third.toNat < 256 := third.toNat_lt
  have hfourth : fourth.toNat < 256 := fourth.toNat_lt
  rw [octetsNumber]
  omega

theorem octetsNumber_eq_zero_iff {first second third fourth : UInt8} :
    octetsNumber first second third fourth = 0 ↔
      first = 0 ∧ second = 0 ∧ third = 0 ∧ fourth = 0 := by
  simp only [octetsNumber, ← UInt8.toNat_inj, UInt8.toNat_zero]
  omega

theorem isPrivateIpv4_iff {first second : UInt8} :
    isPrivateIpv4 first second = true ↔
      first.toNat = 10 ∨ (first.toNat = 172 ∧ 16 ≤ second.toNat ∧ second.toNat ≤ 31) ∨
        (first.toNat = 192 ∧ second.toNat = 168) ∨ first.toNat = 127 ∨
        (first.toNat = 169 ∧ second.toNat = 254) := by
  simp [isPrivateIpv4, ← UInt8.toNat_inj, UInt8.le_iff_toNat_le, or_assoc, and_assoc]

/-- The table has the private IPv4 addresses but the unspecified one. -/
theorem inPrivateNetwork_v4_iff {first second third fourth : UInt8} :
    (IpAddr.v4 first second third fourth).inPrivateNetwork = true ↔
      isPrivateIpv4 first second = true ∨
        first = 0 ∧ second = 0 ∧ third = 0 ∧ fourth = 0 := by
  obtain ⟨height, htwelve, hsixteen⟩ := octetsNumber_div first second third fourth
  have hsecond : second.toNat < 256 := second.toNat_lt
  have hzero : octetsNumber 0 0 0 0 = 0 := rfl
  simp only [IpAddr.inPrivateNetwork, privateIpv4Networks, Network.contains, List.any_cons,
    List.any_nil, Bool.or_false, Bool.or_eq_true, decide_eq_true_eq, isPrivateIpv4_iff,
    ← octetsNumber_eq_zero_iff]
  simp only [Nat.reduceSub, height, htwelve, hsixteen, (octetsNumber_div 127 0 0 0).1,
    (octetsNumber_div 10 0 0 0).1, (octetsNumber_div 172 16 0 0).2.1,
    (octetsNumber_div 192 168 0 0).2.2, (octetsNumber_div 169 254 0 0).2.2]
  have hlocal : first.toNat * 256 + second.toNat = 169 * 256 + 254 ↔
      first.toNat = 169 ∧ second.toNat = 254 := by omega
  have hhome : first.toNat * 256 + second.toNat = 192 * 256 + 168 ↔
      first.toNat = 192 ∧ second.toNat = 168 := by omega
  have hmiddle : first.toNat * 16 + second.toNat / 16 = 172 * 16 + 16 / 16 ↔
      first.toNat = 172 ∧ 16 ≤ second.toNat ∧ second.toNat ≤ 31 := by omega
  simp only [UInt8.reduceToNat, Nat.pow_zero, Nat.div_one, hzero, hlocal, hhome, hmiddle]
  simp only [or_assoc, or_left_comm, or_comm]

/-- A text in brackets is not `localhost`. -/
theorem not_eqIgnoreAsciiCase_bracketed (text : String) :
    Text.eqIgnoreAsciiCase ("[" ++ text) "localhost" = false := by
  have hchars : ("[" ++ text).toList = '[' :: text.toList := by
    rw [String.toList_append]
    rfl
  have hfirst : ('[').toLower ≠ 'l' := by decide
  have hlocal : "localhost".toList.map Char.toLower = 'l' :: "ocalhost".toList := by decide
  rw [Text.eqIgnoreAsciiCase, hchars, hlocal, List.map_cons, decide_eq_false_iff_not]
  intro h
  exact hfirst (List.cons.inj h).1

/-- A private host is taken for one iff it is recognised. -/
theorem isPrivateHost_text {host : UrlHost} (showSegments : Vector UInt16 8 → String)
    (h : host.isPrivate = true) :
    isPrivateHost parseIp (host.text showSegments) = host.isRecognised := by
  match host, h with
  | .domain name, h =>
      have hname : name = "localhost" := by simpa [UrlHost.isPrivate] using h
      have hsame : Text.eqIgnoreAsciiCase "localhost" "localhost" = true := by
        simp [Text.eqIgnoreAsciiCase]
      rw [hname, UrlHost.text, isPrivateHost, if_pos hsame]
      rfl
  | .ip (.v6 segments), _ =>
      simp only [isPrivateHost, UrlHost.text, not_eqIgnoreAsciiCase_bracketed,
        parseIp_bracketed, Bool.false_eq_true, if_false]
      rfl
  | .ip (.v4 first second third fourth), h =>
      rcases inPrivateNetwork_v4_iff.mp h with htable | ⟨rfl, rfl, rfl, rfl⟩
      · have hrecognised :
            (UrlHost.ip (.v4 first second third fourth)).isRecognised = true := by
          by_contra hzero
          obtain ⟨⟨⟨rfl, rfl⟩, rfl⟩, rfl⟩ :
              ((first = 0 ∧ second = 0) ∧ third = 0) ∧ fourth = 0 := by
            simpa [UrlHost.isRecognised] using hzero
          exact absurd htable (by decide)
        simp only [isPrivateHost, UrlHost.text, parseIp_showOctets, htable, hrecognised, ite_self]
      · have hother : Text.eqIgnoreAsciiCase (showOctets 0 0 0 0) "localhost" = false := by
          decide
        rw [UrlHost.text, isPrivateHost, hother, parseIp_showOctets]
        decide +revert

section Refused

variable {crates : Crates} {profile : Profile} {isCancelled : Bool} {parsed : Url}
variable {method url hostText : String} {headers : Json.Value} {bodyB64 : Option String}

theorem bodyBytes_eq_ok_iff {body : List UInt8} :
    NetExecutor.bodyBytes crates bodyB64 = .ok body ↔ sentBody crates bodyB64 = some body := by
  cases bodyB64 with
  | none => simp [NetExecutor.bodyBytes, sentBody]
  | some payload => exact okOr_eq_ok_iff

theorem ok_bind {α β : Type} {value : α} {next : α → SandboxResult β} :
    ((.ok value : SandboxResult α) >>= next) = next value := rfl

/-- A request passes iff its host is not taken for a private one and all else is in
order. -/
theorem exists_execute_eq_ok_iff (hurl : crates.parseUrl url = some parsed)
    (hhost : parsed.hostStr = some hostText) :
    (∃ result, NetExecutor.execute crates parseIp profile isCancelled
        (.netHttp method url headers bodyB64) = .ok result) ↔
      isPrivateHost parseIp hostText = false ∧
        PassesOtherChecks crates profile isCancelled parsed.scheme hostText method bodyB64 := by
  have hdomain : NetExecutor.ensureDomainAllowed parseIp profile hostText = .ok () ↔ _ :=
    NetExecutor.ensureDomainAllowed_eq_ok_iff
  constructor
  · rintro ⟨result, h⟩
    obtain ⟨hlive, h⟩ := rejectIf_bind_eq_ok_iff.mp h
    obtain ⟨found, hfound, h⟩ := bind_eq_ok_iff.mp h
    cases hurl.symm.trans (okOr_eq_ok_iff.mp hfound)
    obtain ⟨hscheme, h⟩ := rejectIf_bind_eq_ok_iff.mp h
    obtain ⟨host, hfound, h⟩ := bind_eq_ok_iff.mp h
    cases hhost.symm.trans (okOr_eq_ok_iff.mp hfound)
    obtain ⟨_, hallowed, h⟩ := bind_eq_ok_iff.mp h
    obtain ⟨_, hmethod, h⟩ := bind_eq_ok_iff.mp h
    obtain ⟨body, hbody, h⟩ := bind_eq_ok_iff.mp h
    obtain ⟨hout, h⟩ := rejectIf_bind_eq_ok_iff.mp h
    obtain ⟨hin, _⟩ := rejectIf_bind_eq_ok_iff.mp h
    obtain ⟨hpublic, hwhitelisted⟩ := hdomain.mp hallowed
    refine ⟨hpublic, hlive, ?_, hwhitelisted, ?_, ⟨body, bodyBytes_eq_ok_iff.mp hbody, ?_⟩, ?_⟩
    · by_cases hhttps : parsed.scheme = "https"
      · exact .inl hhttps
      · exact .inr (by simpa [hhttps] using hscheme)
    · simpa [NetExecutor.ensureMethodAllowed] using hmethod
    · intro limit hlimit
      simpa using (Option.any_eq_false _ _).mp hout limit hlimit
    · simpa using hin
  · rintro ⟨hpublic, hpass⟩
    obtain ⟨body, hbody, hout⟩ := hpass.body
    have hscheme : (parsed.scheme ≠ "https" && parsed.scheme ≠ "http") = false := by
      rcases hpass.scheme with h | h <;> simp [h]
    have hwithin : profile.limits.maxBytesOut.any (UInt64.ofNat body.length > ·) = false :=
      (Option.any_eq_false _ _).mpr fun limit hlimit => by simpa using hout limit hlimit
    have hallowed := hdomain.mpr ⟨hpublic, hpass.whitelisted⟩
    have hmethod : NetExecutor.ensureMethodAllowed crates profile.whitelists.methods method =
        .ok () := by
      simp [NetExecutor.ensureMethodAllowed, hpass.method]
    have hsent := bodyBytes_eq_ok_iff.mpr hbody
    have hanswer : decide (profile.limits.maxBytesIn = some 0) = false := by
      simpa using hpass.answer
    simp only [NetExecutor.execute, NetExecutor.executeHttp, hpass.live, hurl, hhost, hscheme,
      hallowed, hmethod, hsent, hwithin, hanswer, rejectIf, okOr, ok_bind, Bool.false_eq_true,
      if_false]
    exact ⟨_, rfl⟩

theorem exists_error_iff {α : Type} {outcome : SandboxResult α} :
    (∃ error, outcome = .error error) ↔ ¬∃ value, outcome = .ok value := by
  cases outcome with
  | error error => simp
  | ok value => simp

end Refused

/-- A request to a private host is refused iff the host is a name or an IPv4 address
other than the unspecified one, or another check does not pass. -/
theorem refuses_iff_recognised (crates : Crates) (showSegments : Vector UInt16 8 → String)
    (profile : Profile) (isCancelled : Bool) (method url : String) (headers : Json.Value)
    (bodyB64 : Option String) (parsed : Url) (host : UrlHost)
    (hurl : crates.parseUrl url = some parsed)
    (hhost : parsed.hostStr = some (host.text showSegments))
    (hprivate : host.isPrivate = true) :
    (∃ error, NetExecutor.execute crates parseIp profile isCancelled
        (.netHttp method url headers bodyB64) = .error error) ↔
      host.isRecognised = true ∨
        ¬PassesOtherChecks crates profile isCancelled parsed.scheme (host.text showSegments)
          method bodyB64 := by
  rw [exists_error_iff, exists_execute_eq_ok_iff hurl hhost,
    isPrivateHost_text showSegments hprivate, not_and_or, Bool.not_eq_false]

namespace Loopback

/-- The loopback address of IPv6. -/
def host : UrlHost := .ip (.v6 (outerSegments 0 1))

/-- How the address is displayed. -/
def showSegments (_ : Vector UInt16 8) : String := "::1"

/-- A profile that has the text of the host as one of its domains. -/
def profile : Profile :=
  { (Grant.forCall "fetcher" [.netHttp "[::1]" none none []]).profile with
    whitelists := { domains := ["[::1]"] } }

/-- `http://[::1]/`. -/
def parsed : Url where
  scheme := "http"
  hostStr := some (host.text showSegments)
  port := none

/-- Any URL leads to the host. -/
def crates : Crates := { Crates.ascii with parseUrl := fun _ => some parsed }

end Loopback

/-- The loopback address is not recognised. -/
theorem refuses_iff_recognised_loopback :
    (∃ error, NetExecutor.execute Loopback.crates parseIp Loopback.profile false
        (.netHttp "get" "http://[::1]/" .null none) = .error error) ↔
      Loopback.host.isRecognised = true ∨
        ¬PassesOtherChecks Loopback.crates Loopback.profile false "http" "[::1]" "get" none :=
  refuses_iff_recognised Loopback.crates Loopback.showSegments Loopback.profile false "get"
    "http://[::1]/" .null none Loopback.parsed Loopback.host rfl rfl (by decide)

/-- A request to `http://[::1]/` passes. -/
theorem not_refuses_loopback :
    ¬∀ (crates : Crates) (showSegments : Vector UInt16 8 → String) (profile : Profile)
      (isCancelled : Bool) (method url : String) (headers : Json.Value)
      (bodyB64 : Option String) (parsed : Url) (host : UrlHost),
      crates.parseUrl url = some parsed → parsed.hostStr = some (host.text showSegments) →
        host.isPrivate = true →
          ∃ error, NetExecutor.execute crates parseIp profile isCancelled
            (.netHttp method url headers bodyB64) = .error error := by
  intro h
  obtain ⟨error, herror⟩ := h Loopback.crates Loopback.showSegments Loopback.profile false
    "get" "http://[::1]/" .null none Loopback.parsed Loopback.host rfl rfl (by decide)
  have hurl : Loopback.crates.parseUrl "http://[::1]/" = some Loopback.parsed := rfl
  have hhost : Loopback.parsed.hostStr = some "[::1]" := rfl
  have hpass : PassesOtherChecks Loopback.crates Loopback.profile false Loopback.parsed.scheme
      "[::1]" "get" none :=
    { live := rfl
      scheme := .inr rfl
      whitelisted := ⟨"[::1]", List.mem_singleton.mpr rfl, by decide⟩
      method := by decide
      body := ⟨[], rfl, fun limit hlimit => nomatch hlimit⟩
      answer := nofun }
  have hpublic : isPrivateHost parseIp "[::1]" = false :=
    @isPrivateHost_text Loopback.host Loopback.showSegments (by decide)
  obtain ⟨result, hok⟩ := (exists_execute_eq_ok_iff hurl hhost).mpr ⟨hpublic, hpass⟩
  exact nomatch herror.symm.trans hok

end Soulbase.Sandbox
