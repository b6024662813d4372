import PxxlEdge.Common.Types
import PxxlEdge.Lib.Url

/-!
Which upstream URLs are accepted: when a route is configured, when it comes in
through the API, and again when a request is forwarded.

The URL parser, the environment and the name resolver are parameters.
-/

namespace PxxlEdge

open RustStd

abbrev EnvVars := Text → Option Text

abbrev Resolver := Text → ℕ → Option (List IpAddr)

def envFlag (vars : EnvVars) (name : Text) : Bool :=
  match vars name with
  | some value => ["1", "true", "yes", "on"].any fun yes => value.toAsciiLowercase == yes.toList
  | none => false

def privateUpstreamsAllowed (vars : EnvVars) : Bool := envFlag vars "PXXL_ALLOW_PRIVATE_UPSTREAMS"

def hostGatewayUpstreamsAllowed (vars : EnvVars) : Bool :=
  envFlag vars "PXXL_ALLOW_HOST_GATEWAY_UPSTREAMS"

def reservedHostGateway (host : Text) : Bool :=
  host == "host.docker.internal" || host == "gateway.docker.internal"

def ipAllowedForUpstream : IpAddr → Bool
  | .v4 ip =>
    !(ip.isPrivate || ip.isLoopback || ip.isLinkLocal || ip.isMulticast || ip.isBroadcast ||
      ip.isUnspecified || ip == ⟨169, 254, 169, 254⟩)
  | .v6 ip =>
    !(ip.isLoopback || ip.isMulticast || ip.isUnspecified || ip.s₀ &&& 0xfe00 == 0xfc00 ||
      ip.s₀ &&& 0xffc0 == 0xfe80)

/-! ### The checks of a configured URL -/

def hasBlankOrControl (t : Text) : Bool := t.asBytes.any fun byte => byte ≤ 0x20 || byte == 0x7f

def validateUpstreamHost (vars : EnvVars) (host : Text) : Except Text Unit :=
  let host := UrlParser.normalHost host
  if host = [] then .error "upstream host is required"
  else if host = "localhost" ∨ Text.endsWith host ".localhost" then
    .error "loopback upstream host is not allowed"
  else if hasBlankOrControl host then .error "upstream host contains invalid characters"
  else
    match parseIp host with
    | some ip =>
      if ¬ privateUpstreamsAllowed vars ∧ ¬ ipAllowedForUpstream ip then
        .error <| "private, loopback, link-local, multicast, or unspecified upstream IP "
          ++ "is not allowed"
      else .ok ()
    | none => .ok ()

def validateUpstreamUrl (U : UrlParser) (vars : EnvVars) (raw : Text) : Except Text Unit :=
  if 2048 < raw.len then .error "upstream URL is too long"
  else if hasBlankOrControl raw then
    .error "upstream URL contains control or whitespace characters"
  else
    match U.parse raw with
    | .error e => .error ("invalid upstream URL: " ++ e)
    | .ok parsed =>
      if ¬ (parsed.scheme = "http" ∨ parsed.scheme = "https") then
        .error "upstream URL scheme must be http or https"
      else if parsed.username ≠ [] ∨ parsed.password.isSome then
        .error "upstream URL must not contain credentials"
      else if parsed.fragment.isSome then
        .error "upstream URL must not contain a fragment"
      else
        match U.hostStr parsed with
        | none => .error "upstream URL needs a host"
        | some host => validateUpstreamHost vars host

def reservedControlPlaneHosts : List Text :=
  ["redis", "postgres", "clickhouse", "prometheus", "grafana", "loki", "promtail",
    "pxxl-proxy-edge", "edge"]

def validateDynamicUpstreamUrl (U : UrlParser) (vars : EnvVars) (raw : Text) :
    Except Text Unit := do
  validateUpstreamUrl U vars raw
  match U.parse raw with
  | .error e => .error ("invalid upstream URL: " ++ e)
  | .ok parsed =>
    match U.hostStr parsed with
    | none => .error "upstream URL needs a host"
    | some host =>
      let host := UrlParser.normalHost host
      if reservedControlPlaneHosts.contains host then
        .error ("reserved control-plane upstream host is not allowed: " ++ host)
      else .ok ()

/-! ### The checks that resolve names -/

inductive NetworkRefusal where
  | invalidUrl (error : Text)
  | noHost
  | hostGateway (host : Text)
  | unsafeIp
  | noPort
  | resolvesToUnsafeIp (ip : IpAddr)
deriving DecidableEq, Repr

def hostVerdict (vars : EnvVars) (lookup : Resolver) (port : Option ℕ) (host : Text) :
    Except NetworkRefusal Unit :=
  if reservedHostGateway host then
    if hostGatewayUpstreamsAllowed vars then .ok () else .error (.hostGateway host)
  else if privateUpstreamsAllowed vars then .ok ()
  else
    match parseIp host with
    | some ip => if ipAllowedForUpstream ip then .ok () else .error .unsafeIp
    | none =>
      match port with
      | none => .error .noPort
      | some port =>
        match lookup host port with
        | none => .ok ()
        | some addresses =>
          match addresses.find? fun ip => !ipAllowedForUpstream ip with
          | some ip => .error (.resolvesToUnsafeIp ip)
          | none => .ok ()

def networkVerdict (U : UrlParser) (vars : EnvVars) (lookup : Resolver) (raw : Text) :
    Except NetworkRefusal Unit :=
  match U.parse raw with
  | .error e => .error (.invalidUrl e)
  | .ok parsed =>
    match U.hostStr parsed with
    | none => .error .noHost
    | some host =>
      hostVerdict vars lookup parsed.portOrKnownDefault (UrlParser.normalHost host)

def runtimeUpstreamNetworkAllowed (U : UrlParser) (vars : EnvVars) (lookup : Resolver)
    (raw : Text) : Bool :=
  (networkVerdict U vars lookup raw).isOk

def NetworkRefusal.message : NetworkRefusal → Text
  | invalidUrl error => "invalid upstream URL: " ++ error
  | noHost => "upstream URL needs a host"
  | hostGateway host => "reserved host-gateway upstream is not allowed: " ++ host
  | unsafeIp => "unsafe upstream IP is not allowed"
  | noPort => "upstream URL needs a port or known scheme default"
  | resolvesToUnsafeIp ip => "upstream host resolves to unsafe IP: " ++ ip.display

def validateApiUpstreamNetworkSafety (U : UrlParser) (vars : EnvVars) (lookup : Resolver)
    (raw : Text) : Except Text Unit :=
  (networkVerdict U vars lookup raw).mapError NetworkRefusal.message

/-! ### Address literals -/

def unsafeV4 (ip : Ipv4Addr) : Bool :=
  ip.isLoopback || ip.isPrivate || ip.isLinkLocal || ip.isMulticast || ip.isUnspecified

def unsafeV6 (ip : Ipv6Addr) : Bool :=
  ip.isLoopback || ip.s₀ &&& 0xfe00 == 0xfc00 || ip.s₀ &&& 0xffc0 == 0xfe80 || ip.isMulticast ||
    ip.isUnspecified || ip.toIpv4Mapped.any unsafeV4

def unsafeLiteral : Host → Bool
  | .domain _ => false
  | .ipv4 ip => unsafeV4 ip
  | .ipv6 ip => unsafeV6 ip

structure LiteralsChecked (U : UrlParser) (vars : EnvVars) (lookup : Resolver) (raw : Text) :
    Prop where
  accepted : validateDynamicUpstreamUrl U vars raw = .ok () →
    ∀ u host, U.parse raw = .ok u → u.host = some host → unsafeLiteral host = false
  runtime : ∀ u host, U.parse raw = .ok u → u.host = some host → unsafeLiteral host = true →
    runtimeUpstreamNetworkAllowed U vars lookup raw = false

lemma ipAllowed_of_unsafeV4 {ip : Ipv4Addr} (h : unsafeV4 ip = true) :
    ipAllowedForUpstream (.v4 ip) = false := by
  simp only [unsafeV4, Bool.or_eq_true] at h
  simp only [ipAllowedForUpstream, Bool.not_eq_false', Bool.or_eq_true]
  tauto

section Checks

variable {U : UrlParser} {vars : EnvVars} {lookup : Resolver} {raw : Text} {u : Url}

lemma validateUpstreamUrl_ok (h : validateUpstreamUrl U vars raw = .ok ()) :
    ∃ u host, U.parse raw = .ok u ∧ (u.scheme = "http" ∨ u.scheme = "https") ∧
      u.fragment = none ∧ U.hostStr u = some host ∧ validateUpstreamHost vars host = .ok () := by
  rw [validateUpstreamUrl] at h
  split at h
  · cases h
  split at h
  · cases h
  cases hparse : U.parse raw with
  | error e => simp [hparse] at h
  | ok u =>
    simp only [hparse] at h
    split at h
    · cases h
    · next hscheme =>
      split at h
      · cases h
      split at h
      · cases h
      · next hfragment =>
        cases hhost : U.hostStr u with
        | none => simp [hhost] at h
        | some host =>
          rw [hhost] at h
          exact ⟨u, host, rfl, not_not.mp hscheme, by simpa using hfragment, hhost, h⟩

lemma validateDynamicUpstreamUrl_ok (h : validateDynamicUpstreamUrl U vars raw = .ok ()) :
    validateUpstreamUrl U vars raw = .ok () := by
  rw [validateDynamicUpstreamUrl] at h
  cases hurl : validateUpstreamUrl U vars raw with
  | error e => simp [hurl, bind, Except.bind] at h
  | ok x => rfl

lemma validateUpstreamHost_ipv4 (hpriv : privateUpstreamsAllowed vars = false) {ip : Ipv4Addr}
    (h : validateUpstreamHost vars ip.display = .ok ()) : ipAllowedForUpstream (.v4 ip) = true := by
  rw [validateUpstreamHost] at h
  simp only [parseIp_normalHost_ipv4, hpriv] at h
  split at h
  · cases h
  split at h
  · cases h
  split at h
  · cases h
  by_contra hno
  simp [hno] at h

lemma runtimeAllowed_ipv4 (hpriv : privateUpstreamsAllowed vars = false)
    (hparse : U.parse raw = .ok u) {ip : Ipv4Addr} (hhost : u.host = some (.ipv4 ip)) :
    runtimeUpstreamNetworkAllowed U vars lookup raw = ipAllowedForUpstream (.v4 ip) := by
  have hstr : U.hostStr u = some ip.display := by simp [UrlParser.hostStr, hhost]
  have hip := parseIp_normalHost_ipv4 ip
  have hgate : reservedHostGateway (UrlParser.normalHost ip.display) = false := by
    -- neither gateway name is the text of an address
    by_contra hno
    simp only [reservedHostGateway, Bool.not_eq_false, Bool.or_eq_true, beq_iff_eq] at hno
    rcases hno with hno | hno
    · rw [hno, show parseIp "host.docker.internal" = none by decide] at hip
      cases hip
    · rw [hno, show parseIp "gateway.docker.internal" = none by decide] at hip
      cases hip
  rw [runtimeUpstreamNetworkAllowed, networkVerdict, hparse]
  simp only [hstr, hostVerdict, hgate, hpriv, hip]
  cases ipAllowedForUpstream (.v4 ip) <;> rfl

lemma runtimeAllowed_ipv6 (hpriv : privateUpstreamsAllowed vars = false)
    (hlookup : ∀ t port, lookup ('[' :: t) port = none) (hparse : U.parse raw = .ok u)
    {ip : Ipv6Addr} (hhost : u.host = some (.ipv6 ip)) :
    runtimeUpstreamNetworkAllowed U vars lookup raw = u.portOrKnownDefault.isSome := by
  have hstr : U.hostStr u = some ('[' :: U.ipv6Text ip ++ "]") := by
    simp [UrlParser.hostStr, hhost]
  have hnone := parseIp_normalHost_ipv6 (U.ipv6Text ip)
  rw [runtimeUpstreamNetworkAllowed, networkVerdict, hparse]
  simp only [hstr, hostVerdict]
  rw [normalHost_bracket, List.cons_append] at hnone ⊢
  have hgate : reservedHostGateway
      ('[' :: (Text.toAsciiLowercase (U.ipv6Text ip) ++ "]")) = false := by
    simp [reservedHostGateway]
  rw [hgate, hpriv, hnone]
  cases u.portOrKnownDefault with
  | none => rfl
  | some port => simp [hlookup, Except.isOk, Except.toBool]

/-- **Unsafe address literals.**  An unsafe literal is refused, both from the control
plane and at run time, exactly when it is not an IPv6 literal with a port. -/
theorem unsafe_literal_rejected_iff (hpriv : privateUpstreamsAllowed vars = false)
    (hlookup : ∀ t port, lookup ('[' :: t) port = none) :
    LiteralsChecked U vars lookup raw ↔
      ∀ u ip, U.parse raw = .ok u → u.host = some (.ipv6 ip) → unsafeV6 ip = true →
        u.portOrKnownDefault = none := by
  constructor
  · intro h u ip hparse hhost hunsafe
    have hrun := h.runtime u _ hparse hhost hunsafe
    rw [runtimeAllowed_ipv6 hpriv hlookup hparse hhost] at hrun
    exact Option.not_isSome_iff_eq_none.mp (by simp [hrun])
  · intro h
    refine ⟨fun hok u host hparse hhost => ?_, fun u host hparse hhost hunsafe => ?_⟩
    · obtain ⟨u', t, hparse', hscheme, -, hstr, hvalid⟩ :=
        validateUpstreamUrl_ok (validateDynamicUpstreamUrl_ok hok)
      obtain rfl : u' = u := Except.ok.inj (hparse'.symm.trans hparse)
      cases host with
      | domain name => rfl
      | ipv4 ip =>
        obtain rfl : ip.display = t := by simpa [UrlParser.hostStr, hhost] using hstr
        have hallowed := validateUpstreamHost_ipv4 hpriv hvalid
        by_contra hunsafe
        rw [ipAllowed_of_unsafeV4 (by simpa [unsafeLiteral] using hunsafe)] at hallowed
        cases hallowed
      | ipv6 ip =>
        -- an accepted URL has one of the two schemes with a known port
        by_contra hunsafe
        have hport := h u' ip hparse hhost (by simpa [unsafeLiteral] using hunsafe)
        rcases hscheme with hs | hs <;> simp [Url.portOrKnownDefault, hs] at hport
    · cases host with
      | domain name => simp [unsafeLiteral] at hunsafe
      | ipv4 ip =>
        rw [runtimeAllowed_ipv4 hpriv hparse hhost]
        exact ipAllowed_of_unsafeV4 hunsafe
      | ipv6 ip =>
        rw [runtimeAllowed_ipv6 hpriv hlookup hparse hhost, h u ip hparse hhost hunsafe]
        rfl

end Checks

/-- A private IPv4 literal is refused. -/
theorem unsafe_literal_rejected_private_v4 :
    privateUpstreamsAllowed (fun _ => none) = false ∧
      LiteralsChecked .basic (fun _ => none) (fun _ _ => none) "http://10.0.0.1:80/" := by
  refine ⟨rfl, (unsafe_literal_rejected_iff rfl fun _ _ => rfl).mpr fun u ip hparse hhost _ => ?_⟩
  have hbasic : UrlParser.basic.parse "http://10.0.0.1:80/" =
      .ok { scheme := "http", host := some (.ipv4 ⟨10, 0, 0, 1⟩), port := some 80 } := by
    decide
  rw [hbasic] at hparse
  cases hparse
  cases hhost

/-- The loopback address gets through both checks as an IPv6 literal. -/
theorem loopback_v6_accepted :
    privateUpstreamsAllowed (fun _ => none) = false ∧
      UrlParser.basic.parse "http://[::1]:8080" =
        .ok { scheme := "http", host := some (.ipv6 ⟨0, 0, 0, 0, 0, 0, 0, 1⟩), port := some 8080 } ∧
      unsafeV6 ⟨0, 0, 0, 0, 0, 0, 0, 1⟩ = true ∧
      validateDynamicUpstreamUrl .basic (fun _ => none) "http://[::1]:8080" = .ok () ∧
      runtimeUpstreamNetworkAllowed .basic (fun _ => none) (fun _ _ => none)
        "http://[::1]:8080" = true := by
  decide

end PxxlEdge
