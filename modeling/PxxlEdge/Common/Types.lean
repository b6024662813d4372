import PxxlEdge.Lib.Map
import PxxlEdge.Lib.IpAddr

/-!
The route model shared by every part of the edge: upstreams, path routes, the
rules of a domain with their defaults, and routes.

A field's default is the one of the record's `Default` instance, and where it
has none the one the field is deserialised with.  Counters and limits are
natural numbers: none of them is computed with at its bound.  Equality of rules
(`==`) compares maps without regard to the order of their entries.
-/

namespace PxxlEdge

open RustStd

/-! ### Upstreams and paths -/

inductive RouteSource where
  | static | docker | podman | api
deriving DecidableEq, Repr

inductive LoadBalancingAlgorithm where
  | roundRobin | leastConnections | ipHash | weightedRoundRobin
  | ewmaLatency | p2c | hrw | latencyAware
deriving DecidableEq, Repr

structure UpstreamTransport where
  serverName : Option Text := none
  insecureSkipVerify : Bool := false
  caRoots : List Text := []
  mtlsCertPath : Option Text := none
  mtlsKeyPath : Option Text := none
deriving DecidableEq, Repr

structure Upstream where
  url : Text
  weight : Nat := 1
  healthy : Bool := true
  backup : Bool := false
  transport : UpstreamTransport := {}
deriving DecidableEq, Repr

structure PathRoute where
  pathPrefix : Text
  upstreams : List Upstream
  middlewares : List Text := []
deriving DecidableEq, Repr

structure GeoLocation where
  countryCode : Option Text := none
  countryName : Option Text := none
  continentCode : Option Text := none
  continentName : Option Text := none
  region : Option Text := none
  city : Option Text := none
  source : Text := "unknown"
deriving DecidableEq, Repr

/-! ### Middleware -/

structure BasicAuthConfig where
  enabled : Bool := true
  realm : Text := "Pxxl"
  users : Map Text Text := ∅
deriving BEq

structure DigestAuthConfig where
  enabled : Bool := false
  realm : Text := "Pxxl"
  users : Map Text Text := ∅
deriving BEq

structure ForwardAuthConfig where
  enabled : Bool := false
  url : Text
  requestHeaders : List Text := []
  responseHeaders : List Text := []
deriving DecidableEq, Repr

structure BufferingConfig where
  enabled : Bool := false
  maxRequestBytes : Nat := 16 * 1024 * 1024
  maxResponseBytes : Nat := 32 * 1024 * 1024
deriving DecidableEq, Repr

structure CompressionConfig where
  enabled : Bool := false
  minBytes : Nat := 1024
  contentTypes : List Text := []
deriving DecidableEq, Repr

structure ContentTypeAutoDetectConfig where
  enabled : Bool := false
deriving DecidableEq, Repr

structure RetryConfig where
  enabled : Bool := false
  attempts : Nat := 2
  backoffMs : Nat := 50
  retryStatuses : List Nat := [502, 503, 504]
deriving DecidableEq, Repr

structure CircuitBreakerConfig where
  enabled : Bool := false
  failureThreshold : Nat := 5
  openSeconds : Nat := 30
deriving DecidableEq, Repr

inductive InFlightLimitScope where
  | route | domain | upstream
deriving DecidableEq, Repr

structure InFlightLimitConfig where
  enabled : Bool := false
  max : Option Nat := none
  scope : InFlightLimitScope := .route
deriving DecidableEq, Repr

structure ClientCertForwardingConfig where
  enabled : Bool := false
  headerName : Text := []
deriving DecidableEq, Repr

structure MiddlewareDefinition where
  chain : List Text := []
  basicAuth : Option BasicAuthConfig := none
  digestAuth : Option DigestAuthConfig := none
  forwardAuth : Option ForwardAuthConfig := none
  requestBuffering : Option BufferingConfig := none
  responseBuffering : Option BufferingConfig := none
  compression : Option CompressionConfig := none
  contentTypeAutodetect : Option ContentTypeAutoDetectConfig := none
  retry : Option RetryConfig := none
  circuitBreaker : Option CircuitBreakerConfig := none
  inFlightLimit : Option InFlightLimitConfig := none
  passTlsClientCert : Option ClientCertForwardingConfig := none
deriving BEq

/-! ### The rules of a domain -/

structure StickySessionConfig where
  enabled : Bool := false
  cookieName : Text := "pxxl_upstream"
  httpOnly : Bool := true
  secure : Bool := false
  sameSite : Option Text := none
  maxAgeSeconds : Option Nat := none
deriving DecidableEq, Repr

structure PassiveHealthConfig where
  enabled : Bool := false
  failureThreshold : Nat := 3
  recoverySeconds : Nat := 30
  failureStatuses : List Nat := [500, 502, 503, 504]
deriving DecidableEq, Repr

structure TrafficMirrorConfig where
  enabled : Bool := false
  upstreams : List Upstream := []
  percent : Nat := 0
deriving DecidableEq, Repr

structure WeightedServiceTarget where
  service : Text
  weight : Nat := 1
deriving DecidableEq, Repr

structure ServiceDefinition where
  upstreams : List Upstream := []
  weighted : List WeightedServiceTarget := []
deriving DecidableEq, Repr

structure ClientAuthConfig where
  required : Bool := false
  caRoots : List Text := []
deriving DecidableEq, Repr

structure RouterTlsOptions where
  minVersion : Option Text := none
  cipherSuites : List Text := []
  clientAuth : ClientAuthConfig := {}
deriving DecidableEq, Repr

inductive AcmeChallenge where
  | http01 | dns01 | tlsAlpn01
deriving DecidableEq, Repr

structure AcmeConfig where
  enabled : Bool := false
  email : Option Text := none
  directoryUrl : Option Text := none
  challenge : AcmeChallenge := .http01
  dnsProvider : Option Text := none
  wildcard : Bool := false
deriving DecidableEq, Repr

structure TcpRoutingConfig where
  enabled : Bool := false
  hostSni : List Text := []
  tlsPassthrough : Bool := false
deriving DecidableEq, Repr

structure UdpRoutingConfig where
  enabled : Bool := false
deriving DecidableEq, Repr

structure Http3Config where
  enabled : Bool := false
deriving DecidableEq, Repr

structure LocationRouteRule where
  name : Option Text := none
  countries : List Text := []
  continents : List Text := []
  upstreams : List Upstream := []
deriving DecidableEq, Repr

structure TrafficSplitRule where
  name : Option Text := none
  weight : Nat := 1
  countries : List Text := []
  continents : List Text := []
  upstreams : List Upstream := []
deriving DecidableEq, Repr

structure DomainWafRules where
  enabled : Bool := false
  blockPathTraversal : Bool := true
  blockSqlInjection : Bool := true
  blockXss : Bool := true
  blockBadBots : Bool := false
  blockedUserAgents : List Text := []
  blockedPathPatterns : List Text := []
  blockedQueryPatterns : List Text := []
deriving DecidableEq, Repr

structure RequiredHeaderRule where
  name : Text
  value : Option Text := none
deriving DecidableEq, Repr

inductive RateLimitScope where
  | perIp | perDomain | perIpPath
deriving DecidableEq, Repr

structure DomainRateLimit where
  enabled : Bool := true
  requestsPerSecond : Option Nat := none
  requestsPerMinute : Option Nat := none
  burst : Nat := 240
  scope : RateLimitScope := .perIp
  statusCode : Nat := 429
  retryAfterSeconds : Option Nat := none
deriving DecidableEq, Repr

structure BandwidthLimit where
  enabled : Bool := true
  maxBytesPerMonth : Option Nat := none
  maxBytesPerDay : Option Nat := none
  resetDayOfMonth : Nat := 1
  exceededErrorPage : Option Text := none
  exceededStatusCode : Option Nat := some 509
deriving DecidableEq, Repr

inductive ProxyMode where
  | direct
  | external (proxyUrl : Text) (maxConnections : Option Nat) (authToken : Option Text)
      (forwardClientIp : Bool)
deriving DecidableEq, Repr

structure DomainRules where
  wwwAlias : Bool := false
  redirectWwwToApex : Bool := false
  allowWebsocket : Bool := true
  requireHttps : Bool := false
  redirectHttpToHttps : Bool := false
  allowedMethods : List Text := []
  blockedMethods : List Text := []
  allowedHeaders : List Text := []
  blockedHeaders : List Text := []
  requiredHeaders : List RequiredHeaderRule := []
  stripRequestHeaders : List Text := []
  addRequestHeaders : Map Text Text := ∅
  responseHeaders : Map Text Text := ∅
  ipAllowlist : List IpNet := []
  ipBlocklist : List IpNet := []
  countryAllowlist : List Text := []
  countryBlocklist : List Text := []
  continentAllowlist : List Text := []
  continentBlocklist : List Text := []
  locationRoutes : List LocationRouteRule := []
  trafficSplits : List TrafficSplitRule := []
  waf : DomainWafRules := {}
  rateLimit : Option DomainRateLimit := none
  maxBodyBytes : Option Nat := none
  maxUriLength : Option Nat := none
  allowedContentTypes : List Text := []
  maintenanceMode : Bool := false
  maintenanceStatusCode : Option Nat := none
  preserveHostHeader : Bool := false
  addSecurityHeaders : Bool := false
  corsAllowedOrigins : List Text := []
  corsAllowCredentials : Bool := false
  corsAllowedMethods : List Text := []
  corsAllowedHeaders : List Text := []
  corsPreflightEnabled : Bool := true
  middlewares : Map Text MiddlewareDefinition := ∅
  middlewareChains : Map Text (List Text) := ∅
  requestBuffering : BufferingConfig := {}
  responseBuffering : BufferingConfig := {}
  compression : CompressionConfig := {}
  contentTypeAutodetect : ContentTypeAutoDetectConfig := {}
  retry : RetryConfig := {}
  circuitBreaker : CircuitBreakerConfig := {}
  inFlightLimit : InFlightLimitConfig := {}
  stickySessions : StickySessionConfig := {}
  passiveHealth : PassiveHealthConfig := {}
  trafficMirroring : TrafficMirrorConfig := {}
  clientCertForwarding : ClientCertForwardingConfig := {}
  services : Map Text ServiceDefinition := ∅
  upstreamTransport : UpstreamTransport := {}
  tlsOptions : RouterTlsOptions := {}
  acme : AcmeConfig := {}
  tcp : TcpRoutingConfig := {}
  udp : UdpRoutingConfig := {}
  http3 : Http3Config := {}
  bandwidthLimit : Option BandwidthLimit := none
  proxyMode : ProxyMode := .direct
deriving BEq

/-! ### Routes -/

structure Route where
  id : Text
  domain : Text
  paths : List PathRoute := []
  tls : Bool := true
  algorithm : LoadBalancingAlgorithm := .roundRobin
  rules : DomainRules := {}
  source : RouteSource
  routeVersion : Nat := 0
  createdAt : Int := 0
  updatedAt : Int := 0

structure RouteMatch where
  route : Route
  path : PathRoute

end PxxlEdge
