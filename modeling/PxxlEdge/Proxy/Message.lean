import PxxlEdge.Common.UpstreamUrl
import PxxlEdge.Core.Registry
import PxxlEdge.LoadBalancer
import PxxlEdge.Lib.Handler
import PxxlEdge.Proxy.ClientIp
import PxxlEdge.Security.Engine

/-!
What the proxy receives, sends and keeps: requests and responses, the messages
to upstreams and to the authentication service, the state shared by all
requests, and the world a request is handled in.

The world holds everything that is not the proxy's own doing: the readings of
clocks, random identifiers, name resolution, the answers of other servers, and
functions of libraries (hashes, Base64, gzip).
-/

namespace PxxlEdge

open RustStd Http

inductive PxxlError where
  | invalidUpstream (url : Text)
  | upstreamDnsResolutionFailed (url : Text)
  | upstreamConnectionRefused (url : Text)
  | upstreamConnectionTimeout (url : Text)
  | upstreamConnectionFailed (url : Text)
  | invalidHost
  | invalidPath (path : Text)
deriving DecidableEq, Repr

inductive RequestScheme where
  | http | https
deriving DecidableEq, Repr

def RequestScheme.asStr : RequestScheme → Text
  | http => "http"
  | https => "https"

inductive Frame where
  | data (bytes : List UInt8)
  | trailers
  | failed (error : Text)
deriving DecidableEq, Repr

structure Request (G : Grammar) where
  method : Text
  uri : Uri G
  headers : HeaderMap
  body : List Frame := []

structure Connection where
  peer : Option IpAddr
  scheme : RequestScheme
  clientCertPem : Option Text := none
  clientCertPem_visible : ∀ pem, clientCertPem = some pem → isVisible pem = true := by simp

def withQuery (path : Text) (query : Option Text) : Text :=
  match query with
  | some query => if query = [] then path else path ++ '?' :: query
  | none => path

structure ErrorPage where
  status : ℕ
  message : Text
  reasonCode : Text
  domain : Text
  path : Text
  requestId : Text
  processingTimeMs : ℕ
deriving DecidableEq, Repr

structure BandwidthExceededPage where
  status : ℕ
  domain : Text
  path : Text
  requestId : Text
  processingTimeMs : ℕ
  bytesUsed : ℕ
  bytesLimit : ℕ
  resetDay : ℕ
deriving DecidableEq, Repr

inductive Body where
  | text (t : Text)
  | page (p : ErrorPage)
  | bandwidthPage (p : BandwidthExceededPage)
  | bytes (b : List UInt8)
  | stream (frames : List Frame) (limit : Option ℕ)
deriving DecidableEq, Repr

structure Response where
  status : ℕ
  headers : HeaderMap
  body : Body
deriving DecidableEq, Repr

/-! ### Events -/

inductive Destination where
  | upstream | mirror
deriving DecidableEq, Repr

structure Outgoing (G : Grammar) where
  destination : Destination
  upstream : Upstream
  method : Text
  requestUri : Uri G
  target : Uri G
  headers : HeaderMap
  body : Body

structure ProxyRequestContext where
  requestId : Text
  domain : Text
  method : Text
  path : Text
  remoteIp : Option IpAddr
  scheme : RequestScheme
  location : GeoLocation
  timestampUnixMs : ℕ
deriving DecidableEq, Repr

structure RequestObservation where
  context : ProxyRequestContext
  status : ℕ
  latencyMs : ℕ
  upstream : Option Text
  bytesSent : ℕ
  bytesReceived : ℕ
deriving DecidableEq, Repr

inductive Event (G : Grammar) where
  | forwarded (o : Outgoing G)
  | authRequest (url : Text) (headers : HeaderMap)
  | diagnosticsRequest (domain path : Text)
  | observed (o : RequestObservation)
  | recoveryTimer (update : RouteUpstreamHealth) (seconds : ℕ)

def sentMessages {G : Grammar} (log : List (Event G)) : List (Outgoing G) :=
  log.filterMap fun
    | .forwarded o => some o
    | _ => none

lemma mem_sentMessages {G : Grammar} {log : List (Event G)} {o : Outgoing G} :
    o ∈ sentMessages log ↔ .forwarded o ∈ log := by
  rw [sentMessages, List.mem_filterMap]
  constructor
  · rintro ⟨e, he, ho⟩
    split at ho
    · cases ho
      exact he
    · cases ho
  · exact fun h => ⟨_, h, rfl⟩

lemma exists_sent {G : Grammar} {l : List (Event G)} {d : Destination}
    (h : (sentMessages l).map (·.destination) = [d]) :
    ∃ o, .forwarded o ∈ l ∧ o.destination = d := by
  obtain ⟨o, ho, hd⟩ := List.mem_map.mp (h ▸ List.mem_singleton_self d)
  exact ⟨o, mem_sentMessages.mp ho, hd⟩

/-! ### State -/

structure PolicyRateKey where
  domain : Text
  scope : RateLimitScope
  ip : Option IpAddr
  path : Option Text
deriving DecidableEq, Repr

structure BotScoreKey where
  domain : Text
  ip : IpAddr
deriving DecidableEq, Repr

structure BotScoreBucket where
  windowStarted : ℕ
  requests : ℕ
deriving DecidableEq, Repr

structure CircuitBreakerState where
  failures : ℕ := 0
  openUntil : Option ℕ := none
deriving DecidableEq, Repr

structure PolicyEnforcer where
  rateBuckets : Map PolicyRateKey TokenBucket.Bucket := ∅
  circuitBreakers : Map Text CircuitBreakerState := ∅
  inFlightLimits : Map Text ℕ := ∅
  passiveHealth : Map Text ℕ := ∅
  botScoreBuckets : Map BotScoreKey BotScoreBucket := ∅
  digestReplays : Map Text ℕ := ∅

structure EdgeState where
  table : RouteTable
  security : SecurityEngine := {}
  loadBalancer : LoadBalancer := {}
  policy : PolicyEnforcer := {}

/-! ### The world of one request -/

inductive ClockSite where
  | request | security | botRate | rateLimit | digest | digestNonce | circuit | circuitResult
deriving DecidableEq, Repr

structure BandwidthTracker where
  monthlyUsage : Text → Option ℕ
  dailyUsage : Text → Option ℕ

def BandwidthTracker.checkLimit (tracker : BandwidthTracker) (domain : Text)
    (monthlyLimit dailyLimit : Option ℕ) : Option Bool :=
  let below (limit : Option ℕ) (usage : Option ℕ) : Option Bool :=
    match limit with
    | some limit => usage.map fun usage => decide (usage < limit)
    | none => some true
  match below monthlyLimit (tracker.monthlyUsage domain) with
  | some true => below dailyLimit (tracker.dailyUsage domain)
  | verdict => verdict

structure World (G : Grammar) where
  urls : UrlParser
  vars : EnvVars := fun _ => none
  lookup : Resolver := fun _ _ => none
  geoip : IpAddr → GeoLocation := fun _ => {}
  trusted : TrustedClientIpConfig := {}
  hashes : Hashes := {}
  sha256Hex : Text → Text
  base64Decode : Text → Option (List UInt8)
  /-- Is the Shannon entropy of the text at least the bound? -/
  entropyAtLeast : ℚ → Text → Bool := fun _ _ => false
  gzip : List UInt8 → Option (List UInt8) := some
  digestSecret : Text := []
  /-- The content of the challenge file of an ACME token. -/
  acmeFile : Text → Option Text := fun _ => none
  requestId : Text
  requestId_visible : isVisible requestId = true
  traceparent : Text
  traceparent_visible : isVisible traceparent = true
  unixMs : ClockSite → ℕ := fun _ => 0
  clock : ClockSite → ℕ → ℕ := fun _ _ => 0
  elapsedMicros : ℕ := 0
  bandwidth : Option BandwidthTracker := none
  diagnosticsEnabled : Bool := false
  /-- The diagnostic code the runtime gives for a domain and path. -/
  diagnosticCode : Text → Text → Option Text := fun _ _ => none
  errorPagesEnabled : Bool := false
  /-- The status of the authentication service's answer. -/
  authAnswer : Text → HeaderMap → Option ℕ := fun _ _ => none
  /-- The answer to a forwarded request, by the number of the attempt. -/
  answer : ℕ → Outgoing G → Except PxxlError (ℕ × HeaderMap × List Frame) :=
    fun _ o => .error (.upstreamConnectionFailed o.upstream.url)

abbrev ProxyM (G : Grammar) := Handlers.Handler EdgeState (Event G) Response

end PxxlEdge
