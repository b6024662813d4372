import PxxlEdge.Proxy.Policy

/-!
The three authentications of a middleware: Basic, Digest with SHA-256, and
forward authentication, which asks a service.

* `basicAccepts_of_evaluate`, `digestAccepts_of_evaluate`,
  `runForwardAuth_returns`: a request that an enabled authentication does not
  refuse was accepted.
-/

namespace PxxlEdge

open RustStd Http Handlers

/-! ### Basic authentication -/

section Basic

variable {G : Grammar} (W : World G) (req : Request G)

def basicCredentials : Option (Text × Text) := do
  let value ← headerText G req.headers Header.authorization
  let encoded ← value.stripPrefix "Basic "
  let decoded ← W.base64Decode encoded.trim
  let text ← Text.fromUtf8 decoded
  Text.splitOnce ':' text

def evaluateBasicAuth (config : BasicAuthConfig) (domain path : Text) : Option Response :=
  if ¬ config.enabled then none
  else if (basicCredentials W req).any fun (user, pass) => config.users.get user == some pass then
    none
  else
    some ((errorResponse W 401 "authentication required" domain path).insertText (G := G)
      "www-authenticate" ("Basic realm=\"" ++ config.realm ++ "\""))

def BasicAccepts (config : BasicAuthConfig) : Prop :=
  ∃ user pass, basicCredentials W req = some (user, pass) ∧ config.users.get user = some pass

variable {W req}

lemma basicAccepts_of_evaluate {config : BasicAuthConfig} {domain path : Text}
    (henabled : config.enabled = true) (h : evaluateBasicAuth W req config domain path = none) :
    BasicAccepts W req config := by
  rw [evaluateBasicAuth, if_neg (not_not.mpr henabled)] at h
  split at h
  · next hany =>
    cases hcred : basicCredentials W req with
    | none => simp [hcred] at hany
    | some credentials =>
      obtain ⟨user, pass⟩ := credentials
      exact ⟨user, pass, hcred, by simpa [hcred] using hany⟩
  · cases h

end Basic

/-! ### Digest authentication -/

section Digest

variable {G : Grammar} (W : World G)

def parseDigestAuthorization (value : Text) : Map Text Text :=
  Map.ofList ((value.splitOn ',').filterMap fun part => do
    let (key, value) ← Text.splitOnce '=' (Text.trim part)
    return (key.trim.toAsciiLowercase, value.trim.trimMatches '"'))

def digestNonceTtlMs : ℕ := 5 * 60 * 1000

def digestNonceClockSkewMs : ℕ := 30 * 1000

def digestReplayEvictAt : ℕ := 100000

def constantTimeStrEq (left right : Text) : Bool :=
  left.len == right.len &&
    (left.asBytes.zip right.asBytes).foldl (fun acc p => acc ||| (p.1 ^^^ p.2)) 0 == 0

lemma foldl_xor_eq_zero (l : List (UInt8 × UInt8)) (acc : UInt8) :
    l.foldl (fun acc p => acc ||| (p.1 ^^^ p.2)) acc = 0 ↔ acc = 0 ∧ ∀ p ∈ l, p.1 = p.2 := by
  induction l generalizing acc with
  | nil => simp
  | cons p l ih =>
    rw [List.foldl_cons, ih]
    simp [UInt8.or_eq_zero_iff, and_assoc]

lemma constantTimeStrEq_iff {left right : Text} :
    constantTimeStrEq left right = true ↔ left.asBytes = right.asBytes := by
  rw [constantTimeStrEq, Bool.and_eq_true, beq_iff_eq, beq_iff_eq, foldl_xor_eq_zero,
    ← Text.length_asBytes, ← Text.length_asBytes, ← List.forall₂_eq_eq_eq, List.forall₂_iff_zip]
  simp

def joinColon (parts : List Text) : Text := List.intercalate ":" parts

def digestNonceSignature (realm timestampHex : Text) : Text :=
  W.sha256Hex (joinColon [W.digestSecret, realm, timestampHex])

def digestNonce (realm : Text) (timestampUnixMs : ℕ) : Text :=
  let timestampHex := Nat.toDigits 16 timestampUnixMs
  timestampHex ++ "." ++ digestNonceSignature W realm timestampHex

def digestNonceIsValid (realm nonce : Text) (nowUnixMs : ℕ) : Bool :=
  match Text.splitOnce '.' nonce with
  | none => false
  | some (timestampHex, signature) =>
    timestampHex ≠ [] && signature ≠ [] &&
      (parseUnsigned 16 64 timestampHex).any fun timestamp =>
        timestamp ≤ nowUnixMs + digestNonceClockSkewMs &&
          nowUnixMs - timestamp ≤ digestNonceTtlMs &&
          constantTimeStrEq (digestNonceSignature W realm timestampHex) signature

def validDigestNc (value : Text) : Bool :=
  value.len == 8 && List.all value fun c => (toDigit 16 c).isSome

def digestExpected (method realm username password uri nonce nc cnonce qop : Text) : Text :=
  let ha1 := W.sha256Hex (joinColon [username, realm, password])
  let ha2 := W.sha256Hex (joinColon [method, uri])
  W.sha256Hex (joinColon [ha1, nonce, nc, cnonce, qop, ha2])

def digestReplayKey (config : DigestAuthConfig) (method actualUri : Text)
    (params : Map Text Text) : Option Text := do
  let username ← params.get "username"
  let password ← config.users.get username
  guard ((params.get "realm").all fun value => value = config.realm)
  let nonce ← params.get "nonce"
  guard (digestNonceIsValid W config.realm nonce (W.unixMs .digest))
  let uri ← params.get "uri"
  guard (uri = actualUri)
  guard ((params.get "algorithm").all fun algorithm => algorithm.eqIgnoreAsciiCase "SHA-256")
  let qop ← (params.get "qop").filter fun qop => qop.eqIgnoreAsciiCase "auth"
  let nc ← (params.get "nc").filter validDigestNc
  let cnonce ← (params.get "cnonce").filter fun value => value ≠ []
  let response ← params.get "response"
  guard (constantTimeStrEq
    (digestExpected W method config.realm username password uri nonce nc cnonce qop) response)
  return joinColon [username, nonce, nc, cnonce, uri]

def PolicyEnforcer.liveReplays (policy : PolicyEnforcer) (now : ℕ) : Map Text ℕ :=
  if policy.digestReplays.entries.length < digestReplayEvictAt then policy.digestReplays
  else policy.digestReplays.retain fun _ expiresAt => now < expiresAt

def PolicyEnforcer.digestAuthorized (policy : PolicyEnforcer) (config : DigestAuthConfig)
    (method actualUri : Text) (params : Map Text Text) : Bool × PolicyEnforcer :=
  match digestReplayKey W config method actualUri params with
  | none => (false, policy)
  | some key =>
    let replays := policy.liveReplays (W.clock .digest 0)
    ((replays.get key).isNone,
      { policy with
        digestReplays := replays.insert key (W.clock .digest 1 + digestNonceTtlMs * 1000000) })

variable (req : Request G)

def digestRequestUri (canonicalPath : Text) : Text := withQuery canonicalPath req.uri.query

def digestParams : Option (Map Text Text) := do
  let value ← headerText G req.headers Header.authorization
  let digest ← value.stripPrefix "Digest "
  return parseDigestAuthorization digest

def digestChallenge (realm nonce : Text) : Text :=
  "Digest realm=\"" ++ realm ++ "\", qop=\"auth\", algorithm=SHA-256, nonce=\"" ++
    nonce ++ "\""

def PolicyEnforcer.evaluateDigestAuth (policy : PolicyEnforcer) (config : DigestAuthConfig)
    (domain path : Text) : Option Response × PolicyEnforcer :=
  if ¬ config.enabled then (none, policy)
  else
    let (authorized, policy) :=
      match digestParams req with
      | none => (false, policy)
      | some params =>
        policy.digestAuthorized W config req.method (digestRequestUri req path) params
    if authorized then (none, policy)
    else
      (some ((errorResponse W 401 "digest authentication required" domain path).insertText (G := G)
        "www-authenticate"
        (digestChallenge config.realm (digestNonce W config.realm (W.unixMs .digestNonce)))),
        policy)

structure DigestChecked (config : DigestAuthConfig) (method actualUri : Text)
    (params : Map Text Text) (username password nonce nc cnonce qop response : Text) : Prop where
  hasUser : params.get "username" = some username
  hasPassword : config.users.get username = some password
  sameRealm : ∀ realm, params.get "realm" = some realm → realm = config.realm
  hasNonce : params.get "nonce" = some nonce
  nonceLive : digestNonceIsValid W config.realm nonce (W.unixMs .digest) = true
  sameUri : params.get "uri" = some actualUri
  sameAlgorithm : ∀ algorithm, params.get "algorithm" = some algorithm →
    algorithm.eqIgnoreAsciiCase "SHA-256" = true
  hasQop : params.get "qop" = some qop ∧ qop.eqIgnoreAsciiCase "auth" = true
  hasNc : params.get "nc" = some nc ∧ validDigestNc nc = true
  hasCnonce : params.get "cnonce" = some cnonce ∧ cnonce ≠ []
  hasResponse : params.get "response" = some response
  proof : response.asBytes =
    (digestExpected W method config.realm username password actualUri nonce nc cnonce qop).asBytes

structure DigestAccepted (policy : PolicyEnforcer) (config : DigestAuthConfig)
    (method actualUri : Text) (params : Map Text Text)
    (username password nonce nc cnonce qop response : Text) : Prop where
  hasUser : params.get "username" = some username
  hasPassword : config.users.get username = some password
  sameRealm : ∀ realm, params.get "realm" = some realm → realm = config.realm
  hasNonce : params.get "nonce" = some nonce
  nonceLive : digestNonceIsValid W config.realm nonce (W.unixMs .digest) = true
  sameUri : params.get "uri" = some actualUri
  hasQop : params.get "qop" = some qop ∧ qop.eqIgnoreAsciiCase "auth" = true
  hasNc : params.get "nc" = some nc ∧ validDigestNc nc = true
  hasCnonce : params.get "cnonce" = some cnonce ∧ cnonce ≠ []
  hasResponse : params.get "response" = some response
  proof : response.asBytes =
    (digestExpected W method config.realm username password actualUri nonce nc cnonce qop).asBytes
  notReplayed : (policy.liveReplays (W.clock .digest 0)).get
    (joinColon [username, nonce, nc, cnonce, actualUri]) = none

def DigestAccepts (policy : PolicyEnforcer) (config : DigestAuthConfig) (path : Text) : Prop :=
  ∃ params, digestParams req = some params ∧
    ∃ username password nonce nc cnonce qop response,
      DigestAccepted W policy config req.method (digestRequestUri req path) params
        username password nonce nc cnonce qop response

variable {W req}

variable {config : DigestAuthConfig}

lemma DigestAccepts.congr {policy policy' : PolicyEnforcer}
    {path : Text} (heq : policy'.digestReplays = policy.digestReplays)
    (h : DigestAccepts W req policy' config path) : DigestAccepts W req policy config path := by
  obtain ⟨params, hparams, username, password, nonce, nc, cnonce, qop, response, hacc⟩ := h
  refine ⟨params, hparams, username, password, nonce, nc, cnonce, qop, response, ?_⟩
  have hlive :
      policy.liveReplays (W.clock .digest 0) = policy'.liveReplays (W.clock .digest 0) := by
    rw [PolicyEnforcer.liveReplays, PolicyEnforcer.liveReplays, heq]
  exact { hacc with notReplayed := hlive ▸ hacc.notReplayed }

lemma digestReplayKey_eq_some_iff {method actualUri key : Text} {params : Map Text Text} :
    digestReplayKey W config method actualUri params = some key ↔
      ∃ username password nonce nc cnonce qop response,
        DigestChecked W config method actualUri params
          username password nonce nc cnonce qop response ∧
        key = joinColon [username, nonce, nc, cnonce, actualUri] := by
  have hall : ∀ {o : Option Text} {p : Text → Bool},
      o.all p = true ↔ ∀ value, o = some value → p value = true := by
    intro o p
    cases o <;> simp
  simp only [digestReplayKey, Option.bind_eq_bind, Option.bind_eq_some_iff,
    Option.guard_eq_some', Option.filter_eq_some_iff, hall, decide_eq_true_eq]
  constructor
  · rintro ⟨username, huser, password, hpassword, -, hrealm, nonce, hnonce, -, hlive, uri, huri,
      -, rfl, -, halgorithm, qop, hqop, nc, hnc, cnonce, hcnonce, response, hresponse, -, hproof,
      hkey⟩
    refine ⟨username, password, nonce, nc, cnonce, qop, response, ?_, (Option.some.inj hkey).symm⟩
    exact ⟨huser, hpassword, hrealm, hnonce, hlive, huri, halgorithm, hqop, hnc, hcnonce,
      hresponse, (constantTimeStrEq_iff.mp hproof).symm⟩
  · rintro ⟨username, password, nonce, nc, cnonce, qop, response, h, rfl⟩
    exact ⟨username, h.hasUser, password, h.hasPassword, (), h.sameRealm, nonce, h.hasNonce, (),
      h.nonceLive, actualUri, h.sameUri, (), rfl, (), h.sameAlgorithm, qop, h.hasQop, nc, h.hasNc,
      cnonce, h.hasCnonce, response, h.hasResponse, (), constantTimeStrEq_iff.mpr h.proof.symm,
      rfl⟩

lemma digestAccepted_of_authorized {policy : PolicyEnforcer}
    {method actualUri : Text} {params : Map Text Text}
    (h : (policy.digestAuthorized W config method actualUri params).1 = true) :
    ∃ username password nonce nc cnonce qop response,
      DigestAccepted W policy config method actualUri params
        username password nonce nc cnonce qop response := by
  rw [PolicyEnforcer.digestAuthorized] at h
  cases hkey : digestReplayKey W config method actualUri params with
  | none => simp [hkey] at h
  | some key =>
    rw [hkey] at h
    obtain ⟨username, password, nonce, nc, cnonce, qop, response, hchecked, rfl⟩ :=
      digestReplayKey_eq_some_iff.mp hkey
    exact ⟨username, password, nonce, nc, cnonce, qop, response,
      { hchecked with notReplayed := by simpa using h }⟩

lemma digestAccepts_of_evaluate {policy : PolicyEnforcer}
    {domain path : Text} (henabled : config.enabled = true)
    (h : (policy.evaluateDigestAuth W req config domain path).1 = none) :
    DigestAccepts W req policy config path := by
  rw [PolicyEnforcer.evaluateDigestAuth, if_neg (not_not.mpr henabled)] at h
  cases hparams : digestParams req with
  | none => simp [hparams] at h
  | some params =>
    simp only [hparams] at h
    split at h
    · next hauth => exact ⟨params, hparams, digestAccepted_of_authorized hauth⟩
    · cases h

variable (W req) in
lemma evaluateDigestAuth_frame (policy : PolicyEnforcer) (config : DigestAuthConfig)
    (domain path : Text) :
    (∀ r, (policy.evaluateDigestAuth W req config domain path).1 = some r → ¬ TooLarge r) ∧
      ∃ replays, (policy.evaluateDigestAuth W req config domain path).2 =
        { policy with digestReplays := replays } := by
  have hauthorized : ∀ method uri params, ∃ replays,
      (policy.digestAuthorized W config method uri params).2 =
        { policy with digestReplays := replays } := by
    intro method uri params
    rw [PolicyEnforcer.digestAuthorized]
    split <;> exact ⟨_, rfl⟩
  have hchallenge : ∀ {r : Response}, some ((errorResponse W 401 "digest authentication required"
      domain path).insertText (G := G) "www-authenticate" (digestChallenge config.realm
        (digestNonce W config.realm (W.unixMs .digestNonce)))) = some r → ¬ TooLarge r :=
    fun hr => Option.some.inj hr ▸ not_tooLarge_insertText (by decide)
  rw [PolicyEnforcer.evaluateDigestAuth]
  split
  · exact ⟨fun r hr => (nomatch hr), _, rfl⟩
  · cases digestParams req with
    | none => exact ⟨fun r => hchallenge, _, rfl⟩
    | some params =>
      dsimp only
      split
      · exact ⟨fun r hr => (nomatch hr), hauthorized _ _ _⟩
      · exact ⟨fun r => hchallenge, hauthorized _ _ _⟩

end Digest

/-! ### Forward authentication -/

section Forward

variable {G : Grammar} (W : World G) (req : Request G)

def ensureRuntimeUpstreamAllowed (source : RouteSource) (raw : Text) : Except PxxlError Unit :=
  if source ≠ .api then .ok ()
  else if runtimeUpstreamNetworkAllowed W.urls W.vars W.lookup raw then .ok ()
  else .error (.invalidUpstream raw)

def forwardAuthValue (name : Text) : Option HeaderValue :=
  (req.headers.get name).or
    (if name = Header.xForwardedHost then req.headers.get Header.host else none)

def forwardAuthHeaders (config : ForwardAuthConfig) : HeaderMap :=
  ⟨config.requestHeaders.filterMap fun header => do
    let name ← G.parseName header
    let value ← forwardAuthValue req name
    return (name, value)⟩

def runForwardAuth (config : ForwardAuthConfig) (source : RouteSource) :
    ProxyM G (Except PxxlError Bool) :=
  if ¬ config.enabled then return .ok true
  else
    match ensureRuntimeUpstreamAllowed W source config.url, Uri.parse G config.url with
    | .error e, _ => return .error e
    | .ok _, none => return .error (.invalidUpstream config.url)
    | .ok _, some _ => do
        Handler.emit (.authRequest config.url (forwardAuthHeaders req config))
        match W.authAnswer config.url (forwardAuthHeaders req config) with
        | none => return .error (.invalidUpstream config.url)
        | some status => return .ok (isSuccess status)

def ForwardAuthAccepts (config : ForwardAuthConfig) : Prop :=
  ∃ status, W.authAnswer config.url (forwardAuthHeaders req config) = some status ∧
    200 ≤ status ∧ status ≤ 299

variable {W req}

lemma mem_getAll_forwardAuthHeaders {config : ForwardAuthConfig} {n : Text} {v : HeaderValue} :
    v ∈ (forwardAuthHeaders req config).getAll n ↔
      (∃ header ∈ config.requestHeaders, G.parseName header = some n) ∧
        forwardAuthValue req n = some v := by
  simp only [forwardAuthHeaders, HeaderMap.getAll, List.mem_map, List.mem_filter,
    List.mem_filterMap, Option.bind_eq_bind, Option.bind_eq_some_iff, Option.pure_def,
    Option.some.injEq, beq_iff_eq]
  constructor
  · rintro ⟨e, ⟨⟨header, hheader, name, hname, value, hvalue, rfl⟩, rfl⟩, rfl⟩
    exact ⟨⟨header, hheader, hname⟩, hvalue⟩
  · rintro ⟨⟨header, hheader, hname⟩, hvalue⟩
    exact ⟨(n, v), ⟨⟨header, hheader, n, hname, v, hvalue, rfl⟩, rfl⟩, rfl⟩

lemma runForwardAuth_composes {allowed : EdgeState → EdgeState → Prop}
    {Φ : (α : Type) → ProxyM G α → EdgeState → Prop} (h : Composes allowed Φ)
    {config : ForwardAuthConfig} {source : RouteSource} {s : EdgeState}
    (hasks : config.enabled = true →
      Φ Unit (Handler.emit (.authRequest config.url (forwardAuthHeaders req config))) s) :
    Φ _ (runForwardAuth W req config source) s := by
  rw [runForwardAuth]
  split
  · exact h.pure _ _
  · next henabled =>
    split
    · exact h.pure _ _
    · exact h.pure _ _
    · refine h.bind (hasks (not_not.mp henabled)) fun _ _ => ?_
      split <;> exact h.pure _ _

lemma runForwardAuth_returns {config : ForwardAuthConfig} {source : RouteSource} {s : EdgeState} :
    Returns (fun r s' => s' = s ∧
        (r = .ok true → config.enabled = true → ForwardAuthAccepts W req config))
      (runForwardAuth W req config source) s := by
  rw [runForwardAuth]
  split
  · next hoff => exact .pure ⟨rfl, fun _ henabled => absurd henabled hoff⟩
  · split
    · exact .pure ⟨rfl, fun h => nomatch h⟩
    · exact .pure ⟨rfl, fun h => nomatch h⟩
    · refine .bind (P := fun _ s' => s' = s) (.emit rfl) fun _ s' hs' => ?_
      split
      · exact .pure ⟨hs', fun h => nomatch h⟩
      · next status hanswer =>
        refine .pure ⟨hs', fun h _ => ⟨status, hanswer, ?_⟩⟩
        simpa [isSuccess] using h

end Forward

end PxxlEdge
