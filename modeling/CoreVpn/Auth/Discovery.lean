import CoreVpn.Auth.Errors
import CoreVpn.Core.Networks
import CoreVpn.Lib.Computation
import CoreVpn.Lib.Text

namespace CoreVpn.Auth.Discovery

open Lib.Computation Lib.Text Core.Networks Errors

inductive Host where
  | domain (domain : String)
  | ipv4 (ip : Ipv4Addr)
  | ipv6 (ip : Ipv6Addr)
  deriving DecidableEq

structure Url where
  scheme : String
  host : Option Host
  deriving DecidableEq

/-- The parser of a URL, which gives its reason when it refuses one. -/
abbrev UrlParser := String → Except String Url

structure OidcMetadata where
  issuer : String
  authorizationEndpoint : String
  tokenEndpoint : String
  userinfoEndpoint : Option String
  deviceAuthorizationEndpoint : Option String
  jwksUri : String
  scopesSupported : List String
  responseTypesSupported : List String
  grantTypesSupported : List String
  deriving DecidableEq

inductive Response where
  | unreachable
  | unsuccessful
  | malformed
  | document (metadata : OidcMetadata)
  deriving DecidableEq

structure ProviderConfig where
  issuerUrl : String
  authorizationEndpoint : Option String
  tokenEndpoint : Option String
  userinfoEndpoint : Option String
  deviceAuthorizationEndpoint : Option String
  jwksUri : Option String
  deriving DecidableEq

structure OAuthProvider where
  config : ProviderConfig
  metadata : Option OidcMetadata
  deriving DecidableEq

def firstSegment (ip : Ipv6Addr) : BitVec 16 := ip.extractLsb' 112 16

def isPrivateIp : IpAddr → Bool
  | .v4 ip =>
    octet ip 0 == 10 || (octet ip 0 == 172 && octet ip 1 ≥ 16 && octet ip 1 ≤ 31) ||
      (octet ip 0 == 192 && octet ip 1 == 168) || octet ip 0 == 127 ||
      (octet ip 0 == 169 && octet ip 1 == 254) || octet ip 0 == 0
  | .v6 ip =>
    -- Loopback, link-local and unique local addresses.
    ip == 1 || (firstSegment ip &&& 0xffc0) == 0xfe80 || (firstSegment ip &&& 0xfe00) == 0xfc00

def validateHost : Option Host → Outcome AuthError Unit
  | some (.domain domain) =>
    if domain == "localhost" || endsWith domain ".localhost" then
      .error (.error (.configError "localhost URLs are not allowed"))
    else if endsWith domain ".local" then
      .error (.error (.configError ".local domains are not allowed"))
    else .ok ()
  | some (.ipv4 ip) =>
    if isPrivateIp (.v4 ip) then .error (.error (.configError "Private IP addresses are not allowed"))
    else .ok ()
  | some (.ipv6 ip) =>
    if isPrivateIp (.v6 ip) then .error (.error (.configError "Private IP addresses are not allowed"))
    else .ok ()
  | none => .ok ()

def validateUrlForSsrf (parse : UrlParser) (urlStr : String) : Outcome AuthError Unit :=
  match parse urlStr with
  | .error e => .error (.error (.configError s!"Invalid URL: {e}"))
  | .ok url =>
    if url.scheme ≠ "https" then
      .error (.error (.configError "Only HTTPS URLs are allowed for security"))
    else validateHost url.host

def validateOptional (parse : UrlParser) : Option String → Outcome AuthError Unit
  | some uri => validateUrlForSsrf parse uri
  | none => .ok ()

def ProviderConfig.discoveryUrl (config : ProviderConfig) : String :=
  s!"{config.issuerUrl}/.well-known/openid-configuration"

def OAuthProvider.store (metadata : OidcMetadata) (self : OAuthProvider) : OAuthProvider where
  config := { self.config with
    authorizationEndpoint := some metadata.authorizationEndpoint
    tokenEndpoint := some metadata.tokenEndpoint
    userinfoEndpoint := metadata.userinfoEndpoint
    deviceAuthorizationEndpoint := metadata.deviceAuthorizationEndpoint
    jwksUri := some metadata.jwksUri }
  metadata := some metadata

def discover (parse : UrlParser) (fetch : String → Response) : Program OAuthProvider AuthError Unit := do
  let self ← get
  lift (validateUrlForSsrf parse self.config.discoveryUrl)
  match fetch self.config.discoveryUrl with
  | .unreachable => fail (.discoveryFailed "Failed to connect to provider")
  | .unsuccessful => fail (.discoveryFailed "Provider discovery failed")
  | .malformed => fail (.discoveryFailed "Invalid provider response")
  | .document metadata =>
    lift (validateUrlForSsrf parse metadata.authorizationEndpoint)
    lift (validateUrlForSsrf parse metadata.tokenEndpoint)
    lift (validateUrlForSsrf parse metadata.jwksUri)
    lift (validateOptional parse metadata.userinfoEndpoint)
    modify (OAuthProvider.store metadata)

section Addresses

/-- The loopback, private and link-local networks, and the unspecified address. -/
def internalV4 : List Ipv4Net :=
  [.block (ofOctets 127 0 0 0) 8, .block (ofOctets 10 0 0 0) 8, .block (ofOctets 172 16 0 0) 12,
    .block (ofOctets 192 168 0 0) 16, .block (ofOctets 169 254 0 0) 16, .block (ofOctets 0 0 0 0) 32]

def internalV6 : List Ipv6Net :=
  [.block 1 128, .block (0xfc00#16 ++ 0#112) 7, .block (0xfe80#16 ++ 0#112) 10, .block 0 128]

def InternalV4 (ip : Ipv4Addr) : Prop := ∃ net ∈ internalV4, net.contains ip = true

def toIpv6Mapped (ip : Ipv4Addr) : Ipv6Addr := 0xffff#96 ++ ip

/-- The hosts that a provider on the internet has no business to name. -/
def Host.Internal : Host → Prop
  | .domain name => name = "localhost" ∨ endsWith name ".localhost" = true ∨ endsWith name ".local" = true
  | .ipv4 ip => InternalV4 ip
  | .ipv6 ip => (∃ net ∈ internalV6, net.contains ip = true) ∨ ∃ v4, ip = toIpv6Mapped v4 ∧ InternalV4 v4

/-- The internal hosts that the filter does not know: the unspecified IPv6
address, and the internal IPv4 addresses in IPv6 form. -/
def Host.Embedded : Host → Prop
  | .ipv6 ip => ip = 0 ∨ ∃ v4, ip = toIpv6Mapped v4 ∧ InternalV4 v4
  | _ => False

theorem octet_eq (ip : Ipv4Addr) :
    octet ip 0 = ip.toNat / 16777216 ∧ octet ip 1 = ip.toNat / 65536 % 256 := by
  have hlt := ip.isLt
  norm_num [octet, BitVec.toNat_ushiftRight, Nat.shiftRight_eq_div_pow]
  omega

theorem isPrivateIp_of_internalV4 {ip : Ipv4Addr} (h : InternalV4 ip) : isPrivateIp (.v4 ip) = true := by
  obtain ⟨h0, h1⟩ := octet_eq ip
  obtain ⟨net, hnet, hin⟩ := h
  rw [IpNet.contains_iff] at hin
  simp only [isPrivateIp, h0, h1, Bool.or_eq_true, Bool.and_eq_true, beq_iff_eq, decide_eq_true_eq, ge_iff_le]
  simp only [internalV4, List.mem_cons, List.not_mem_nil, or_false] at hnet
  rcases hnet with rfl | rfl | rfl | rfl | rfl | rfl
  all_goals
    simp [IpNet.block, ofOctets] at hin
    omega

theorem toNat_firstSegment (ip : Ipv6Addr) : (firstSegment ip).toNat = ip.toNat / 2 ^ 112 := by
  have hlt := ip.isLt
  rw [firstSegment, BitVec.extractLsb'_toNat, Nat.shiftRight_eq_div_pow]
  omega

/-- Of IPv6 the filter refuses all that is internal but what it does not know. -/
theorem isPrivateIp_v6_iff (ip : Ipv6Addr) :
    isPrivateIp (.v6 ip) = true ∨ ip = 0 ↔ ∃ net ∈ internalV6, net.contains ip = true := by
  have hlocal : firstSegment ip &&& 0xffc0 = 0xfe80 ↔ ip.toNat / 2 ^ 118 = 0x3fa := by
    have h := IpNet.and_netmask_eq_iff (.block 0xfe80#16 10) (firstSegment ip)
    rw [toNat_firstSegment, Nat.div_div_eq_div_mul] at h
    exact h
  have hunique : firstSegment ip &&& 0xfe00 = 0xfc00 ↔ ip.toNat / 2 ^ 121 = 0x7e := by
    have h := IpNet.and_netmask_eq_iff (.block 0xfc00#16 7) (firstSegment ip)
    rw [toNat_firstSegment, Nat.div_div_eq_div_mul] at h
    exact h
  have hone : ip = 1 ↔ ip.toNat = 1 := BitVec.toNat_inj.symm
  have hzero : ip = 0 ↔ ip.toNat = 0 := BitVec.toNat_inj.symm
  simp only [isPrivateIp, internalV6, List.mem_cons, List.not_mem_nil, or_false, exists_eq_or_imp,
    exists_eq_left, IpNet.contains_iff, Bool.or_eq_true, beq_iff_eq, hlocal, hunique, hone, hzero]
  norm_num [IpNet.block]
  tauto

end Addresses

section Filter

variable {parse : UrlParser} {fetch : String → Response} {url : String} {p : OAuthProvider}

/-- A URL that a provider may name: over https, and at no internal host. -/
def External (parse : UrlParser) (url : String) : Prop :=
  ∃ u, parse url = .ok u ∧ u.scheme = "https" ∧ ∀ host ∈ u.host, ¬ host.Internal

def EmbedsInternal (parse : UrlParser) (url : String) : Prop :=
  ∃ u, parse url = .ok u ∧ ∃ host ∈ u.host, host.Embedded

theorem Host.Embedded.internal {host : Host} (h : host.Embedded) : host.Internal := by
  match host, h with
  | .ipv6 ip, .inl hzero => exact .inl ((isPrivateIp_v6_iff ip).mp (.inr hzero))
  | .ipv6 ip, .inr hmapped => exact .inr hmapped

theorem embedded_of_internal {host : Host} (hvalid : validateHost (some host) = .ok ())
    (h : host.Internal) : host.Embedded := by
  cases host with
  | domain name =>
    rcases h with rfl | hlocalhost | hlocal
    · cases hvalid
    · simp [validateHost, hlocalhost] at hvalid
    · rw [validateHost, hlocal] at hvalid
      split at hvalid <;> cases hvalid
  | ipv4 ip => simp [validateHost, isPrivateIp_of_internalV4 h] at hvalid
  | ipv6 ip =>
    rcases h with hnet | hmapped
    · rcases (isPrivateIp_v6_iff ip).mpr hnet with hprivate | hzero
      · simp [validateHost, hprivate] at hvalid
      · exact .inl hzero
    · exact .inr hmapped

theorem validateUrlForSsrf_eq_ok_iff :
    validateUrlForSsrf parse url = .ok () ↔
      ∃ u, parse url = .ok u ∧ u.scheme = "https" ∧ validateHost u.host = .ok () := by
  unfold validateUrlForSsrf
  cases parse url with
  | error e => simp
  | ok u => by_cases hscheme : u.scheme = "https" <;> simp [hscheme]

theorem external_iff_of_valid (h : validateUrlForSsrf parse url = .ok ()) :
    External parse url ↔ ¬ EmbedsInternal parse url := by
  obtain ⟨u, hparse, hscheme, hvalid⟩ := validateUrlForSsrf_eq_ok_iff.mp h
  constructor
  · rintro ⟨v, hv, -, hexternal⟩ ⟨w, hw, host, hhost, hembedded⟩
    obtain rfl := Except.ok.inj (hv.symm.trans hw)
    exact hexternal host hhost hembedded.internal
  · intro hclean
    refine ⟨u, hparse, hscheme, fun host hhost hinternal => hclean ⟨u, hparse, host, hhost, ?_⟩⟩
    rw [Option.mem_def.mp hhost] at hvalid
    exact embedded_of_internal hvalid hinternal

end Filter

section Discovery

variable {parse : UrlParser} {fetch : String → Response} {p q : OAuthProvider} {metadata : OidcMetadata}

def OidcMetadata.checked (metadata : OidcMetadata) : List String :=
  [metadata.authorizationEndpoint, metadata.tokenEndpoint, metadata.jwksUri] ++ metadata.userinfoEndpoint.toList

def ProviderConfig.endpoints (config : ProviderConfig) : List String :=
  config.authorizationEndpoint.toList ++ config.tokenEndpoint.toList ++ config.userinfoEndpoint.toList ++
    config.deviceAuthorizationEndpoint.toList ++ config.jwksUri.toList

structure Accepted (parse : UrlParser) (fetch : String → Response) (p : OAuthProvider)
    (metadata : OidcMetadata) : Prop where
  url : validateUrlForSsrf parse p.config.discoveryUrl = .ok ()
  response : fetch p.config.discoveryUrl = .document metadata
  checked : ∀ url ∈ metadata.checked, validateUrlForSsrf parse url = .ok ()

theorem mem_endpoints_store {url : String} :
    url ∈ (p.store metadata).config.endpoints ↔
      url ∈ metadata.checked ∨ url ∈ metadata.deviceAuthorizationEndpoint := by
  simp [OAuthProvider.store, ProviderConfig.endpoints, OidcMetadata.checked]
  tauto

theorem forall_checked_iff :
    (∀ url ∈ metadata.checked, validateUrlForSsrf parse url = .ok ()) ↔
      validateUrlForSsrf parse metadata.authorizationEndpoint = .ok () ∧
      validateUrlForSsrf parse metadata.tokenEndpoint = .ok () ∧
      validateUrlForSsrf parse metadata.jwksUri = .ok () ∧
      validateOptional parse metadata.userinfoEndpoint = .ok () := by
  cases huserinfo : metadata.userinfoEndpoint <;> simp [OidcMetadata.checked, validateOptional, huserinfo]

theorem discover_accepted (h : Accepted parse fetch p metadata) :
    discover parse fetch p = (.ok (), p.store metadata) := by
  obtain ⟨hauthorization, htoken, hjwks, huserinfo⟩ := forall_checked_iff.mp h.checked
  simp only [discover, bind_apply, get_apply, lift_apply, h.url, h.response, hauthorization, htoken, hjwks,
    huserinfo, modify_apply]

theorem accepted_of_discover (h : discover parse fetch p = (.ok (), q)) :
    ∃ metadata, Accepted parse fetch p metadata ∧ q = p.store metadata := by
  obtain ⟨_, _, hget, h⟩ := bind_eq_ok h
  cases hget
  obtain ⟨_, hvalid, h⟩ := lift_bind_eq_ok h
  cases hresponse : fetch p.config.discoveryUrl with
  | unreachable | unsuccessful | malformed =>
    rw [hresponse] at h
    cases h
  | document metadata =>
    rw [hresponse] at h
    obtain ⟨_, hauthorization, h⟩ := lift_bind_eq_ok h
    obtain ⟨_, htoken, h⟩ := lift_bind_eq_ok h
    obtain ⟨_, hjwks, h⟩ := lift_bind_eq_ok h
    obtain ⟨_, huserinfo, h⟩ := lift_bind_eq_ok h
    refine ⟨metadata, ⟨hvalid, hresponse, ?_⟩, (Prod.mk.inj h).2.symm⟩
    exact forall_checked_iff.mpr ⟨hauthorization, htoken, hjwks, huserinfo⟩

/-- Nothing is stored before the last check. -/
theorem atomic_discover (parse : UrlParser) (fetch : String → Response) (p : OAuthProvider) :
    Atomic (discover parse fetch) p := by
  refine atomic_get_bind (atomic_lift_bind fun _ _ => ?_)
  split
  · exact atomic_of_result rfl
  · exact atomic_of_result rfl
  · exact atomic_of_result rfl
  · refine atomic_lift_bind fun _ _ => atomic_lift_bind fun _ _ => atomic_lift_bind fun _ _ => ?_
    exact atomic_lift_bind fun _ _ => Succeeds.atomic ⟨_, _, rfl⟩

/-- A discovery that succeeds has stored no endpoint at an internal host, and
one that fails has changed nothing. -/
structure DiscoverySafe (parse : UrlParser) (fetch : String → Response) (p : OAuthProvider) : Prop where
  endpoints : ∀ q, discover parse fetch p = (.ok (), q) → ∀ url ∈ q.config.endpoints, External parse url
  unchanged : ∀ fault q, discover parse fetch p = (.error fault, q) → q.config = p.config

/-- The device authorization endpoint is stored without a check, and the check
of the others does not know every IPv6 form of an internal address. Whether a
discovery is safe thus depends on the metadata it accepts. -/
theorem discovery_safe_iff (parse : UrlParser) (fetch : String → Response) (p : OAuthProvider) :
    DiscoverySafe parse fetch p ↔ ∀ metadata, Accepted parse fetch p metadata →
      (∀ url ∈ metadata.deviceAuthorizationEndpoint, External parse url) ∧
        ∀ url ∈ metadata.checked, ¬ EmbedsInternal parse url := by
  constructor
  · intro hsafe metadata haccepted
    have hstored := hsafe.endpoints _ (discover_accepted haccepted)
    refine ⟨fun url hurl => hstored url (mem_endpoints_store.mpr (.inr hurl)), fun url hurl => ?_⟩
    have hexternal := hstored url (mem_endpoints_store.mpr (.inl hurl))
    exact (external_iff_of_valid (haccepted.checked url hurl)).mp hexternal
  · intro hclean
    refine ⟨fun q hrun url hurl => ?_, fun fault q hrun => ?_⟩
    · obtain ⟨metadata, haccepted, rfl⟩ := accepted_of_discover hrun
      obtain ⟨hdevice, hchecked⟩ := hclean metadata haccepted
      rcases mem_endpoints_store.mp hurl with hmem | hmem
      · exact (external_iff_of_valid (haccepted.checked url hmem)).mpr (hchecked url hmem)
      · exact hdevice url hmem
    · rw [atomic_discover parse fetch p fault q hrun]

/-- A parser for two documents: in the first the device endpoint is plain http
to a link-local address, in the second the keys are at `::ffff:127.0.0.1`. -/
def sampleParse (url : String) : Except String Url :=
  if url = "http://169.254.169.254/device" then .ok ⟨"http", some (.ipv4 (ofOctets 169 254 169 254))⟩
  else if url = "https://[::ffff:127.0.0.1]/keys" then
    .ok ⟨"https", some (.ipv6 (toIpv6Mapped (ofOctets 127 0 0 1)))⟩
  else .ok ⟨"https", some (.domain "idp.example")⟩

def sampleProvider : OAuthProvider := ⟨⟨"https://idp.example", none, none, none, none, none⟩, none⟩

def sampleMetadata (device : Option String) (jwks : String) : OidcMetadata :=
  ⟨"https://idp.example", "https://idp.example/auth", "https://idp.example/token", none, device, jwks, [], [], []⟩

theorem discovery_plants_internal_endpoints :
    let unchecked := sampleMetadata (some "http://169.254.169.254/device") "https://idp.example/keys"
    let mapped := sampleMetadata none "https://[::ffff:127.0.0.1]/keys"
    discover sampleParse (fun _ => .document unchecked) sampleProvider = (.ok (), sampleProvider.store unchecked) ∧
      "http://169.254.169.254/device" ∈ (sampleProvider.store unchecked).config.endpoints ∧
      ¬ External sampleParse "http://169.254.169.254/device" ∧
      discover sampleParse (fun _ => .document mapped) sampleProvider = (.ok (), sampleProvider.store mapped) ∧
      "https://[::ffff:127.0.0.1]/keys" ∈ (sampleProvider.store mapped).config.endpoints ∧
      ¬ External sampleParse "https://[::ffff:127.0.0.1]/keys" := by
  intro unchecked mapped
  refine ⟨by decide +kernel, by decide +kernel, ?_, by decide +kernel, by decide +kernel, ?_⟩
  · rintro ⟨u, hparse, hscheme, -⟩
    obtain rfl := Except.ok.inj hparse
    exact absurd hscheme (by decide)
  · rintro ⟨u, hparse, -, hexternal⟩
    obtain rfl := Except.ok.inj hparse
    exact hexternal _ rfl (.inr ⟨_, rfl, _, List.mem_cons_self, by decide⟩)

end Discovery

end CoreVpn.Auth.Discovery
