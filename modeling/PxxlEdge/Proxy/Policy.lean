import PxxlEdge.Proxy.Response

/-!
The rules of a domain, checked for a request before anything is forwarded.

Checks that read only the request are rows of a table, in the order of the
source: the condition under which a request is refused, and the refusal.  The
bot score and the rate limit also read and change the policy state.
-/

namespace PxxlEdge

open RustStd Http TokenBucket

/-! ### Tables of checks -/

structure PolicyRejection where
  status : ℕ
  message : Text
  metricReason : Text
  retryAfter : Option ℚ := none
  location : Option Text := none
deriving DecidableEq, Repr

def firstMet {α : Type} (rows : List (Bool × α)) : Option α :=
  (rows.find? fun row => row.1).map Prod.snd

lemma firstMet_eq_none {α : Type} {rows : List (Bool × α)} :
    firstMet rows = none ↔ ∀ row ∈ rows, row.1 = false := by
  simp [firstMet]

lemma firstMet_cons_eq_none {α : Type} {c : Bool} {a : α} {rows : List (Bool × α)} :
    firstMet ((c, a) :: rows) = none ↔ c = false ∧ firstMet rows = none := by
  simp [firstMet_eq_none]

lemma firstMet_nil_eq_none {α : Type} : firstMet ([] : List (Bool × α)) = none ↔ True := by
  simp [firstMet_eq_none]

def locationCodeMatches (actual : Option Text) (configured : List Text) : Bool :=
  actual.any fun actual => configured.any fun code => code == "*" || code.eqIgnoreAsciiCase actual

def containsAny (value : Text) (patterns : List String) : Bool :=
  patterns.any fun pattern => value.contains pattern.toList

def stringPatternsMatch (valueLower : Text) (patterns : List Text) : Bool :=
  patterns.any fun pattern => pattern ≠ [] && valueLower.contains pattern.toAsciiLowercase

/-! ### Access -/

section Access

variable {G : Grammar} (req : Request G) (rules : DomainRules) (ctx : ProxyRequestContext)

def requestCanHaveBody (method : Text) : Bool :=
  ["POST", "PUT", "PATCH", "DELETE"].any fun m => method == m.toList

def maintenanceStatus : ℕ :=
  ((rules.maintenanceStatusCode.bind statusFromU16).filter fun status =>
    isServerError status || isClientError status).getD 503

def methodListed (methods : List Text) : Bool :=
  methods.any fun method => method.eqIgnoreAsciiCase req.method

def accessChecks : List (Bool × PolicyRejection) :=
  [(rules.maintenanceMode,
      ⟨maintenanceStatus rules, "domain is in maintenance mode", "maintenance_mode", none, none⟩),
    (ctx.scheme == .http && rules.redirectHttpToHttps,
      ⟨308, "https required", "https_redirect", none,
        some ("https://" ++ ctx.domain ++ ctx.path)⟩),
    (ctx.scheme == .http && rules.requireHttps,
      ⟨426, "https is required for this domain", "https_required", none, none⟩),
    (ctx.remoteIp.any fun ip =>
        !rules.ipAllowlist.isEmpty && !rules.ipAllowlist.any fun network => network.contains ip,
      ⟨403, "ip is not allowed for this domain", "ip_not_allowlisted", none, none⟩),
    (ctx.remoteIp.any fun ip => rules.ipBlocklist.any fun network => network.contains ip,
      ⟨403, "ip is blocked for this domain", "ip_blocklisted", none, none⟩),
    (!rules.countryAllowlist.isEmpty &&
        !locationCodeMatches ctx.location.countryCode rules.countryAllowlist,
      ⟨403, "country is not allowed for this domain", "country_not_allowlisted", none, none⟩),
    (locationCodeMatches ctx.location.countryCode rules.countryBlocklist,
      ⟨403, "country is blocked for this domain", "country_blocklisted", none, none⟩),
    (!rules.continentAllowlist.isEmpty &&
        !locationCodeMatches ctx.location.continentCode rules.continentAllowlist,
      ⟨403, "continent is not allowed for this domain", "continent_not_allowlisted", none, none⟩),
    (locationCodeMatches ctx.location.continentCode rules.continentBlocklist,
      ⟨403, "continent is blocked for this domain", "continent_blocklisted", none, none⟩),
    (methodListed req rules.blockedMethods,
      ⟨405, "method is blocked for this domain", "method_blocked", none, none⟩),
    (!rules.allowedMethods.isEmpty && !methodListed req rules.allowedMethods,
      ⟨405, "method is not allowed for this domain", "method_not_allowed", none, none⟩),
    (!rules.allowWebsocket && isWebsocketUpgrade G req.headers,
      ⟨403, "websocket upgrades are disabled for this domain", "websocket_disabled", none, none⟩),
    (rules.maxUriLength.any fun limit => decide (limit < req.uri.display.len),
      ⟨414, "request uri is too long", "uri_too_long", none, none⟩),
    (rules.maxBodyBytes.any fun limit =>
        (contentLength G req.headers).any fun length => decide (limit < length),
      ⟨413, "request body is too large", "body_too_large", none, none⟩)]

def headerChecks : List (Bool × PolicyRejection) :=
  [(!rules.allowedContentTypes.isEmpty && requestCanHaveBody req.method &&
        !(headerText G req.headers Header.contentType).any fun contentType =>
          rules.allowedContentTypes.any fun allowed => contentTypeMatches contentType allowed,
      ⟨415, "content-type is not allowed for this domain", "content_type_not_allowed", none, none⟩),
    (rules.blockedHeaders.any fun blocked => headerPresent G req.headers blocked,
      ⟨403, "request contains a blocked header", "header_blocked", none, none⟩),
    (!rules.allowedHeaders.isEmpty && req.headers.keys.any fun name =>
        !rules.allowedHeaders.any fun allowed => allowed.eqIgnoreAsciiCase name,
      ⟨403, "request contains a header that is not allowed", "header_not_allowed", none, none⟩)] ++
  rules.requiredHeaders.flatMap fun required =>
    [((headerValue G req.headers required.name).isNone,
        ⟨400, "request is missing a required header", "header_required", none, none⟩),
      (required.value.any fun expected => headerValue G req.headers required.name != some expected,
        ⟨400, "request header has an invalid value", "header_required_value", none, none⟩)]

def isCorsPreflight : Bool :=
  rules.corsPreflightEnabled && !rules.corsAllowedOrigins.isEmpty && req.method == "OPTIONS" &&
    req.headers.containsKey Header.origin &&
    req.headers.containsKey "access-control-request-method"

end Access

/-! ### The firewall -/

section Waf

variable {G : Grammar} (W : World G) (req : Request G) (rules : DomainRules)
  (ctx : ProxyRequestContext)

def pathHadStructuralNormalization (rawPath canonicalPath : Text) : Bool :=
  rawPath != canonicalPath &&
    containsAny rawPath.toAsciiLowercase
      ["..", "%2e", "%252e", "%2f", "%252f", "%5c", "%255c", "\\", "//"]

def userAgent : Text := (headerText G req.headers Header.userAgent).getD []

def xssPatterns : List String := ["<script", "%3cscript", "javascript:"]

def staticWafChecks : List (Bool × Text) :=
  let waf := rules.waf
  let pathLower := req.uri.path.toAsciiLowercase
  let canonicalPathLower := ctx.path.toAsciiLowercase
  let queryLower := (req.uri.query.getD []).toAsciiLowercase
  let userAgentLower := (userAgent req).toAsciiLowercase
  [(waf.blockPathTraversal &&
        (containsAny pathLower ["../", "..\\", "%2e%2e", "%252e%252e"] ||
          pathHadStructuralNormalization req.uri.path ctx.path),
      "waf_path_traversal"),
    (waf.blockSqlInjection &&
        containsAny queryLower
          [" union select ", "union%20select", "' or 1=1", "%27%20or%201=1", "\" or 1=1",
            "%22%20or%201=1", "information_schema", "sleep(", "benchmark("],
      "waf_sql_injection"),
    (waf.blockXss &&
        (containsAny queryLower xssPatterns || containsAny pathLower xssPatterns ||
          containsAny canonicalPathLower xssPatterns),
      "waf_xss"),
    (waf.blockBadBots &&
        containsAny userAgentLower ["sqlmap", "nikto", "masscan", "zgrab", "nmap", "dirbuster"],
      "waf_bad_bot"),
    (stringPatternsMatch userAgentLower waf.blockedUserAgents, "waf_user_agent"),
    (stringPatternsMatch pathLower waf.blockedPathPatterns ||
        stringPatternsMatch canonicalPathLower waf.blockedPathPatterns,
      "waf_path_pattern"),
    (stringPatternsMatch queryLower waf.blockedQueryPatterns, "waf_query_pattern")]

def staticWafRejectionReason : Option Text :=
  if rules.waf.enabled then firstMet (staticWafChecks req rules ctx) else none

/-! ### The bot score -/

def botWindow : ℕ := 10 * 1000000000

def botBucketEvictAt : ℕ := 100000

def PolicyEnforcer.botRatePoints (policy : PolicyEnforcer) (clock : ℕ → ℕ) (domain : Text)
    (ip : IpAddr) : ℕ × PolicyEnforcer :=
  let buckets :=
    if botBucketEvictAt ≤ policy.botScoreBuckets.entries.length then
      policy.botScoreBuckets.retain fun _ bucket => clock 0 - bucket.windowStarted ≤ botWindow * 6
    else policy.botScoreBuckets
  let key : BotScoreKey := ⟨domain, ip⟩
  let bucket := (buckets.lookup key).getD ⟨clock 1, 0⟩
  let now := clock 2
  let bucket := if botWindow < now - bucket.windowStarted then ⟨now, 0⟩ else bucket
  let bucket := { bucket with requests := min (bucket.requests + 1) (2 ^ 32 - 1) }
  (if bucket.requests ≤ 40 then 0 else if bucket.requests ≤ 120 then 15
    else if bucket.requests ≤ 300 then 30 else 45,
    { policy with botScoreBuckets := buckets.insert key bucket })

def pathHasLongRandomSegment (path : Text) : Bool :=
  (path.splitOn '/').any fun segment =>
    let count (p : Char → Bool) := (List.filter p segment).length
    decide (20 ≤ Text.len segment) && decide (Text.len segment * 9 / 10 ≤ count Char.isAlphanum) &&
      decide (3 ≤ count Char.isDigit) && decide (8 ≤ count Char.isAlpha) &&
      W.entropyAtLeast 4 segment

def PolicyEnforcer.assessBotRequest (policy : PolicyEnforcer) :
    List (Text × ℕ) × PolicyEnforcer :=
  let agent := userAgent req
  let agentLower := agent.toAsciiLowercase
  let agentSignals : List (Text × ℕ) :=
    (if agent.trim = [] then [("missing_user_agent".toList, 20)]
      else if agent.len < 8 then [("short_user_agent".toList, 10)] else []) ++
    if containsAny agentLower
        ["sqlmap", "nikto", "masscan", "zgrab", "nmap", "dirbuster", "gobuster", "ffuf",
          "acunetix", "nessus", "wpscan"] then
      [("scanner_user_agent".toList, 70)]
    else if containsAny agentLower
        ["python-requests", "aiohttp", "httpx", "libwww-perl", "scrapy", "go-http-client",
          "java/", "okhttp", "curl", "wget"] then
      [("automation_user_agent".toList, 20)]
    else []
  let (ratePoints, policy) :=
    match ctx.remoteIp with
    | some ip => policy.botRatePoints (W.clock .botRate) ctx.domain ip
    | none => (0, policy)
  let rateSignals := if 0 < ratePoints then [("request_rate".toList, ratePoints)] else []
  let pathSignals :=
    (if 48 ≤ ctx.path.len ∧ W.entropyAtLeast (17 / 4) ctx.path then
      [("path_entropy".toList, 20)] else []) ++
    if pathHasLongRandomSegment W ctx.path then [("random_path_segment".toList, 20)] else []
  let sourceLower := ctx.location.source.toAsciiLowercase
  let geoSignals :=
    (if sourceLower = "unknown" then [("unknown_geo".toList, 5)] else []) ++
    if sourceLower.contains "asn" then
      ("asn_seen".toList, 5) ::
        if containsAny sourceLower
            ["hosting", "cloud", "digitalocean", "linode", "vultr", "hetzner", "ovh", "contabo",
              "amazon", "aws", "google", "microsoft", "azure", "leaseweb", "colo",
              "datacenter"] then
          [("hosting_asn".toList, 15)]
        else []
    else []
  (agentSignals ++ rateSignals ++ pathSignals ++ geoSignals, policy)

def botScore (signals : List (Text × ℕ)) : ℕ := (signals.map Prod.snd).sum

def PolicyEnforcer.wafRejectionReason (policy : PolicyEnforcer) : Option Text × PolicyEnforcer :=
  if ¬ rules.waf.enabled then (none, policy)
  else
    match staticWafRejectionReason req rules ctx with
    | some reason => (some reason, policy)
    | none =>
      if rules.waf.blockBadBots then
        let (signals, policy) := policy.assessBotRequest W req ctx
        if 60 ≤ botScore signals then (some "waf_bot_score", policy) else (none, policy)
      else (none, policy)

end Waf

/-! ### The rate limit of a domain -/

section RateLimit

def policyRateBucketTtl : ℕ := 600 * 1000000000

def policyRateBucketEvictAt : ℕ := 100000

def effectiveRatePerSecond (limit : DomainRateLimit) : ℚ :=
  match limit.requestsPerSecond.filter (0 < ·), limit.requestsPerMinute.filter (0 < ·) with
  | some rate, _ => rate
  | none, some rate => rate / 60
  | none, none => 120

def PolicyRateKey.new (domain path : Text) (remoteIp : Option IpAddr) :
    RateLimitScope → PolicyRateKey
  | .perIp => ⟨domain, .perIp, remoteIp, none⟩
  | .perDomain => ⟨domain, .perDomain, none, none⟩
  | .perIpPath => ⟨domain, .perIpPath, remoteIp, some (pathWithoutQuery path)⟩

def PolicyEnforcer.liveBuckets (policy : PolicyEnforcer) (clock : ℕ → ℕ) :
    Map PolicyRateKey Bucket :=
  if policy.rateBuckets.entries.length < policyRateBucketEvictAt then policy.rateBuckets
  else retainFresh policyRateBucketTtl (clock 0) policy.rateBuckets

def DomainRateLimit.burstTokens (limit : DomainRateLimit) : ℚ := (max limit.burst 1 : ℕ)

def PolicyEnforcer.rateBucket (policy : PolicyEnforcer) (limit : DomainRateLimit) (clock : ℕ → ℕ)
    (key : PolicyRateKey) : Bucket :=
  ((policy.liveBuckets clock).lookup key).getD ⟨limit.burstTokens, clock 1⟩

def PolicyEnforcer.retryAfter (policy : PolicyEnforcer) (limit : DomainRateLimit) (clock : ℕ → ℕ)
    (domain path : Text) (remoteIp : Option IpAddr) : Option ℚ × PolicyEnforcer :=
  if ¬ limit.enabled then (none, policy)
  else
    let rate := effectiveRatePerSecond limit
    let key := PolicyRateKey.new domain path remoteIp limit.scope
    let (taken, bucket) :=
      (policy.rateBucket limit clock key).take rate limit.burstTokens (clock 2)
    let policy := { policy with rateBuckets := (policy.liveBuckets clock).insert key bucket }
    if taken then (none, policy)
    else
      (some ((limit.retryAfterSeconds.map fun s => (s : ℚ)).getD (1 / max rate (1 / 1000))), policy)

end RateLimit

/-! ### All checks -/

def PolicyEnforcer.evaluate {G : Grammar} (policy : PolicyEnforcer) (W : World G)
    (req : Request G) (rules : DomainRules) (ctx : ProxyRequestContext) :
    Option PolicyRejection × PolicyEnforcer :=
  match firstMet (accessChecks req rules ctx) with
  | some rejection => (some rejection, policy)
  | none =>
    match policy.wafRejectionReason W req rules ctx with
    | (some reason, policy) =>
      (some ⟨403, "request blocked by waf rules", reason, none, none⟩, policy)
    | (none, policy) =>
      match firstMet (headerChecks req rules) with
      | some rejection => (some rejection, policy)
      | none =>
        match rules.rateLimit with
        | none => (preflight, policy)
        | some limit =>
          match policy.retryAfter limit (W.clock .rateLimit) ctx.domain ctx.path
              ctx.remoteIp with
          | (some retryAfter, policy) =>
            (some ⟨(statusFromU16 limit.statusCode).getD 429,
              "rate limited by domain rules", "domain_rate_limited", some retryAfter,
              none⟩, policy)
          | (none, policy) => (preflight, policy)
where
  preflight : Option PolicyRejection :=
    if isCorsPreflight req rules then
      some ⟨204, "cors preflight accepted", "cors_preflight", none, none⟩
    else none

/-! ### What a request that is let through satisfies -/

def OnList (actual : Option Text) (configured : List Text) : Prop :=
  ∃ code, actual = some code ∧
    ∃ entry ∈ configured, entry = "*" ∨ entry.eqIgnoreAsciiCase code = true

lemma locationCodeMatches_iff {actual : Option Text} {configured : List Text} :
    locationCodeMatches actual configured = true ↔ OnList actual configured := by
  cases actual with
  | none => simp [locationCodeMatches, OnList]
  | some code => simp [locationCodeMatches, OnList]

def PolicyEnforcer.HasToken (policy : PolicyEnforcer) (limit : DomainRateLimit) (clock : ℕ → ℕ)
    (key : PolicyRateKey) : Prop :=
  1 ≤ ((policy.rateBucket limit clock key).refill (effectiveRatePerSecond limit)
    limit.burstTokens (clock 2)).tokens

structure RulesHold {G : Grammar} (W : World G) (policy : PolicyEnforcer) (req : Request G)
    (rules : DomainRules) (ctx : ProxyRequestContext) : Prop where
  noMaintenance : rules.maintenanceMode = false
  https : rules.redirectHttpToHttps = true ∨ rules.requireHttps = true → ctx.scheme = .https
  ipAllowed : ∀ ip, ctx.remoteIp = some ip → rules.ipAllowlist ≠ [] →
    ∃ network ∈ rules.ipAllowlist, network.contains ip = true
  ipNotBlocked : ∀ ip, ctx.remoteIp = some ip →
    ∀ network ∈ rules.ipBlocklist, network.contains ip = false
  countryAllowed : rules.countryAllowlist ≠ [] →
    OnList ctx.location.countryCode rules.countryAllowlist
  countryNotBlocked : ¬ OnList ctx.location.countryCode rules.countryBlocklist
  continentAllowed : rules.continentAllowlist ≠ [] →
    OnList ctx.location.continentCode rules.continentAllowlist
  continentNotBlocked : ¬ OnList ctx.location.continentCode rules.continentBlocklist
  methodNotBlocked : ∀ method ∈ rules.blockedMethods, method.eqIgnoreAsciiCase req.method = false
  methodAllowed : rules.allowedMethods ≠ [] →
    ∃ method ∈ rules.allowedMethods, method.eqIgnoreAsciiCase req.method = true
  websocket : isWebsocketUpgrade G req.headers = true → rules.allowWebsocket = true
  uriLength : ∀ limit, rules.maxUriLength = some limit → req.uri.display.len ≤ limit
  bodyLength : ∀ limit length, rules.maxBodyBytes = some limit →
    contentLength G req.headers = some length → length ≤ limit
  waf : rules.waf.enabled = true → ∀ row ∈ staticWafChecks req rules ctx, row.1 = false
  notABot : rules.waf.enabled = true → rules.waf.blockBadBots = true →
    botScore (policy.assessBotRequest W req ctx).1 < 60
  contentType : rules.allowedContentTypes ≠ [] → requestCanHaveBody req.method = true →
    ∃ contentType, headerText G req.headers Header.contentType = some contentType ∧
      ∃ allowed ∈ rules.allowedContentTypes, contentTypeMatches contentType allowed = true
  headersNotBlocked : ∀ name ∈ rules.blockedHeaders, headerPresent G req.headers name = false
  headersAllowed : rules.allowedHeaders ≠ [] → ∀ name ∈ req.headers.keys,
    ∃ allowed ∈ rules.allowedHeaders, allowed.eqIgnoreAsciiCase name = true
  headersRequired : ∀ required ∈ rules.requiredHeaders,
    ∃ value, headerValue G req.headers required.name = some value ∧
      ∀ expected, required.value = some expected → value = expected
  rateLimit : ∀ limit, rules.rateLimit = some limit → limit.enabled = true →
    policy.HasToken limit (W.clock .rateLimit)
      (.new ctx.domain ctx.path ctx.remoteIp limit.scope)

section Evaluate

variable {G : Grammar} {W : World G} {policy : PolicyEnforcer} {req : Request G}
  {rules : DomainRules} {ctx : ProxyRequestContext}

variable (W policy req rules ctx) in
lemma wafRejectionReason_frame : ∃ buckets,
    (policy.wafRejectionReason W req rules ctx).2 =
      { policy with botScoreBuckets := buckets } := by
  have hbot : ∃ buckets, (policy.assessBotRequest W req ctx).2 =
      { policy with botScoreBuckets := buckets } := by
    rw [PolicyEnforcer.assessBotRequest]
    cases ctx.remoteIp with
    | some ip => exact ⟨_, rfl⟩
    | none => exact ⟨_, rfl⟩
  rw [PolicyEnforcer.wafRejectionReason]
  split
  · exact ⟨_, rfl⟩
  · split
    · exact ⟨_, rfl⟩
    · split
      · dsimp only
        split <;> exact hbot
      · exact ⟨_, rfl⟩

lemma waf_of_wafRejectionReason (h : (policy.wafRejectionReason W req rules ctx).1 = none) :
    (rules.waf.enabled = true → ∀ row ∈ staticWafChecks req rules ctx, row.1 = false) ∧
      (rules.waf.enabled = true → rules.waf.blockBadBots = true →
        botScore (policy.assessBotRequest W req ctx).1 < 60) := by
  by_cases henabled : rules.waf.enabled = true
  · rw [PolicyEnforcer.wafRejectionReason, if_neg (not_not.mpr henabled)] at h
    cases hstatic : staticWafRejectionReason req rules ctx with
    | some reason => simp [hstatic] at h
    | none =>
      refine ⟨fun _ => ?_, fun _ hbots => ?_⟩
      · rw [staticWafRejectionReason, if_pos henabled] at hstatic
        exact firstMet_eq_none.mp hstatic
      · simp only [hstatic, if_pos hbots] at h
        split at h
        · cases h
        · next hlow => exact not_le.mp hlow
  · exact ⟨fun h' => absurd h' henabled, fun h' => absurd h' henabled⟩

variable (policy) in
lemma retryAfter_frame (limit : DomainRateLimit) (clock : ℕ → ℕ) (domain path : Text)
    (remoteIp : Option IpAddr) : ∃ buckets,
    (policy.retryAfter limit clock domain path remoteIp).2 =
      { policy with rateBuckets := buckets } := by
  rw [PolicyEnforcer.retryAfter]
  split
  · exact ⟨_, rfl⟩
  · dsimp only
    split <;> exact ⟨_, rfl⟩

lemma hasToken_of_retryAfter {limit : DomainRateLimit} {clock : ℕ → ℕ} {domain path : Text}
    {remoteIp : Option IpAddr} (henabled : limit.enabled = true)
    (h : (policy.retryAfter limit clock domain path remoteIp).1 = none) :
    policy.HasToken limit clock (.new domain path remoteIp limit.scope) := by
  rw [PolicyEnforcer.HasToken]
  by_contra hno
  simp [PolicyEnforcer.retryAfter, henabled, Bucket.take, hno] at h

lemma stages_of_evaluate (h : (policy.evaluate W req rules ctx).1 = none) :
    firstMet (accessChecks req rules ctx) = none ∧
      (policy.wafRejectionReason W req rules ctx).1 = none ∧
      firstMet (headerChecks req rules) = none ∧
      ∀ limit, rules.rateLimit = some limit →
        ((policy.wafRejectionReason W req rules ctx).2.retryAfter limit (W.clock .rateLimit)
          ctx.domain ctx.path ctx.remoteIp).1 = none := by
  rw [PolicyEnforcer.evaluate] at h
  cases haccess : firstMet (accessChecks req rules ctx) with
  | some rejection => simp [haccess] at h
  | none =>
    rcases hwaf : policy.wafRejectionReason W req rules ctx with ⟨reason, policy'⟩
    cases reason with
    | some reason => simp [haccess, hwaf] at h
    | none =>
      cases hheader : firstMet (headerChecks req rules) with
      | some rejection => simp [haccess, hwaf, hheader] at h
      | none =>
        refine ⟨rfl, rfl, rfl, fun limit hlimit => ?_⟩
        rcases hrate : policy'.retryAfter limit (W.clock .rateLimit) ctx.domain ctx.path
          ctx.remoteIp with ⟨retry, policy''⟩
        cases retry with
        | some retry => simp [haccess, hwaf, hheader, hlimit, hrate] at h
        | none => rfl

variable (W policy req rules ctx) in
lemma evaluate_frame : ∃ rates bots,
    (policy.evaluate W req rules ctx).2 =
      { policy with rateBuckets := rates, botScoreBuckets := bots } := by
  obtain ⟨bots, hbots⟩ := wafRejectionReason_frame W policy req rules ctx
  rcases hwaf : policy.wafRejectionReason W req rules ctx with ⟨reason, policy'⟩
  obtain rfl : policy' = { policy with botScoreBuckets := bots } := by rw [← hbots, hwaf]
  rw [PolicyEnforcer.evaluate]
  split
  · exact ⟨_, _, rfl⟩
  · rw [hwaf]
    cases reason with
    | some reason => exact ⟨_, _, rfl⟩
    | none =>
      dsimp only
      split
      · exact ⟨_, _, rfl⟩
      · split
        · exact ⟨_, _, rfl⟩
        · next limit hlimit =>
          obtain ⟨rates, hrates⟩ := retryAfter_frame { policy with botScoreBuckets := bots }
            limit (W.clock .rateLimit) ctx.domain ctx.path ctx.remoteIp
          split
          · next heq =>
            rw [heq] at hrates
            exact ⟨rates, bots, hrates⟩
          · next heq =>
            rw [heq] at hrates
            exact ⟨rates, bots, hrates⟩

lemma evaluate_eq_none (h : (policy.evaluate W req rules ctx).1 = none) :
    RulesHold W policy req rules ctx := by
  obtain ⟨haccess, hwaf, hheader, hrate⟩ := stages_of_evaluate h
  obtain ⟨hrows, hscore⟩ := waf_of_wafRejectionReason hwaf
  simp only [accessChecks, firstMet_cons_eq_none, firstMet_nil_eq_none] at haccess
  obtain ⟨hmaint, hredirect, hhttps, hipAllow, hipBlock, hcountryAllow, hcountryBlock,
    hcontinentAllow, hcontinentBlock, hmethodBlock, hmethodAllow, hws, huri, hbody, -⟩ := haccess
  rw [headerChecks, firstMet_eq_none, List.forall_mem_append] at hheader
  obtain ⟨hfixed, hrequired⟩ := hheader
  simp only [List.forall_mem_cons] at hfixed
  obtain ⟨hcontent, hblocked, hallowed, -⟩ := hfixed
  exact
    { noMaintenance := hmaint
      https := by
        intro hrule
        cases hscheme : ctx.scheme with
        | https => rfl
        | http =>
          rw [hscheme] at hredirect hhttps
          rcases hrule with hrule | hrule
          · simp [hrule] at hredirect
          · simp [hrule] at hhttps
      ipAllowed := by
        intro ip hip hlist
        simpa [hip, hlist] using hipAllow
      ipNotBlocked := by
        intro ip hip
        simpa [hip] using hipBlock
      countryAllowed := fun hlist => by
        rw [← locationCodeMatches_iff]
        simpa [hlist] using hcountryAllow
      countryNotBlocked := by simpa [← locationCodeMatches_iff] using hcountryBlock
      continentAllowed := fun hlist => by
        rw [← locationCodeMatches_iff]
        simpa [hlist] using hcontinentAllow
      continentNotBlocked := by simpa [← locationCodeMatches_iff] using hcontinentBlock
      methodNotBlocked := by simpa [methodListed] using hmethodBlock
      methodAllowed := fun hlist => by simpa [methodListed, hlist] using hmethodAllow
      websocket := fun hup => by simpa [hup] using hws
      uriLength := fun limit hlimit => by simpa [hlimit] using huri
      bodyLength := fun limit length hlimit hlength => by simpa [hlimit, hlength] using hbody
      waf := hrows
      notABot := hscore
      contentType := by
        intro hlist hmethod
        cases htype : headerText G req.headers Header.contentType with
        | none => simp [hlist, hmethod, htype] at hcontent
        | some t => exact ⟨t, rfl, by simpa [hlist, hmethod, htype] using hcontent⟩
      headersNotBlocked := by simpa using hblocked
      headersAllowed := fun hlist name hname => by
        simp only [List.isEmpty_eq_false_iff.mpr hlist, Bool.not_false, Bool.true_and] at hallowed
        simpa using List.any_eq_false.mp hallowed name hname
      headersRequired := by
        intro required hmem
        have hrows := fun row hrow => hrequired row (List.mem_flatMap.mpr ⟨required, hmem, hrow⟩)
        simp only [List.forall_mem_cons] at hrows
        obtain ⟨hpresent, hvalue, -⟩ := hrows
        obtain ⟨value, hv⟩ : ∃ v, headerValue G req.headers required.name = some v := by
          simpa [Option.isSome_iff_exists] using hpresent
        refine ⟨value, hv, fun expected hexp => ?_⟩
        simpa [hexp, hv] using hvalue
      rateLimit := by
        intro limit hlimit henabled
        -- the firewall did not touch the buckets of the rate limit
        obtain ⟨bots, hbots⟩ := wafRejectionReason_frame W policy req rules ctx
        have hretry := hrate limit hlimit
        rw [hbots] at hretry
        have htoken := hasToken_of_retryAfter henabled hretry
        exact htoken }

end Evaluate

end PxxlEdge
