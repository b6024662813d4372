import PxxlEdge.Control.AdminAuth

/-!
The requests of the admin API.
-/

namespace PxxlEdge

open RustStd

/-! ### The arms -/

inductive Endpoint where
  | healthz
  | readyz
  | routes
  | domains
  | createDomain
  | routeSnapshot
  | reconcile
  | upsertInternalRoute
  | internalRoute
  | deleteInternalRoute
  | login
  | createAuthToken
  | listAuthTokens
  | revokeAuthToken
  | statsDomains
  | analyticsRoutes
  | analyticsVisits
  | analyticsLogs
  | domainStats
  | domainVisits
  | domainLogs
  | domainCert
  | resyncDomainCert
  | domainPublicCert
  | domain
  | deleteDomain
  | upstreams
  | autoBlocks
  | watchlist
  | unblock
  | unwatch
  | databaseRoutes
  | upsertDatabaseRoute
  | bandwidthUsage
  | bandwidthHistory
  | bandwidthRealtime
  | deleteDatabaseRoute
  | certs
  | publicCert
  | addToBlacklist
  | removeFromBlacklist
deriving DecidableEq, Repr

inductive PathPattern where
  | exact (path : String)
  /-- `starts_with`. -/
  | under (start : String)
  /-- `starts_with` and `ends_with`. -/
  | between (start stop : String)
deriving DecidableEq, Repr

def PathPattern.holds (path : Text) : PathPattern → Bool
  | .exact expected => path == expected.toList
  | .under start => path.startsWith start.toList
  | .between start stop => path.startsWith start.toList && path.endsWith stop.toList

structure Arm where
  method : String
  pattern : PathPattern
  scope : Option Text
  endpoint : Endpoint
deriving DecidableEq, Repr

def Arm.holds (arm : Arm) (method path : Text) : Bool :=
  method == arm.method.toList && arm.pattern.holds path

def arms : List Arm :=
  [⟨"GET", .exact "/healthz", none, .healthz⟩,
    ⟨"GET", .exact "/readyz", none, .readyz⟩,
    ⟨"GET", .exact "/v1/routes", some scopeRoutesRead, .routes⟩,
    ⟨"GET", .exact "/v1/domains", some scopeRoutesRead, .domains⟩,
    ⟨"POST", .exact "/v1/domains", some scopeRoutesWrite, .createDomain⟩,
    ⟨"GET", .exact "/internal/routes/snapshot", some scopeRoutesRead, .routeSnapshot⟩,
    ⟨"GET", .exact "/internal/route-snapshot", some scopeRoutesRead, .routeSnapshot⟩,
    ⟨"POST", .exact "/internal/routes/reconcile", some scopeRoutesWrite, .reconcile⟩,
    ⟨"POST", .exact "/internal/route-reconcile", some scopeRoutesWrite, .reconcile⟩,
    ⟨"PUT", .under "/internal/routes/", some scopeRoutesWrite, .upsertInternalRoute⟩,
    ⟨"GET", .under "/internal/routes/", some scopeRoutesRead, .internalRoute⟩,
    ⟨"DELETE", .under "/internal/routes/", some scopeRoutesWrite, .deleteInternalRoute⟩,
    ⟨"POST", .exact "/v1/auth/login", none, .login⟩,
    ⟨"POST", .exact "/v1/auth/tokens", some scopeTokensWrite, .createAuthToken⟩,
    ⟨"GET", .exact "/v1/auth/tokens", some scopeTokensRead, .listAuthTokens⟩,
    ⟨"DELETE", .under "/v1/auth/tokens/", some scopeTokensWrite, .revokeAuthToken⟩,
    ⟨"GET", .exact "/v1/stats/domains", some scopeAnalyticsRead, .statsDomains⟩,
    ⟨"GET", .exact "/v1/analytics/routes", some scopeAnalyticsRead, .analyticsRoutes⟩,
    ⟨"GET", .exact "/v1/analytics/visits", some scopeAnalyticsRead, .analyticsVisits⟩,
    ⟨"GET", .exact "/v1/analytics/logs", some scopeAnalyticsRead, .analyticsLogs⟩,
    ⟨"GET", .between "/v1/domains/" "/stats", some scopeAnalyticsRead, .domainStats⟩,
    ⟨"GET", .between "/v1/domains/" "/visits", some scopeAnalyticsRead, .domainVisits⟩,
    ⟨"GET", .between "/v1/domains/" "/logs", some scopeAnalyticsRead, .domainLogs⟩,
    ⟨"GET", .between "/v1/domains/" "/cert", some scopeRoutesRead, .domainCert⟩,
    ⟨"POST", .between "/v1/domains/" "/cert/resync", some scopeRoutesWrite, .resyncDomainCert⟩,
    ⟨"GET", .between "/v1/domains/" "/cert/public", some scopeRoutesRead, .domainPublicCert⟩,
    ⟨"GET", .under "/v1/domains/", some scopeRoutesRead, .domain⟩,
    ⟨"DELETE", .under "/v1/domains/", some scopeRoutesWrite, .deleteDomain⟩,
    ⟨"GET", .exact "/v1/upstreams", some scopeRoutesRead, .upstreams⟩,
    ⟨"GET", .exact "/v1/security/auto-blocks", some scopeRoutesRead, .autoBlocks⟩,
    ⟨"GET", .exact "/v1/security/watchlist", some scopeRoutesRead, .watchlist⟩,
    ⟨"DELETE", .under "/v1/security/auto-blocks/", some scopeRoutesWrite, .unblock⟩,
    ⟨"DELETE", .under "/v1/security/watchlist/", some scopeRoutesWrite, .unwatch⟩,
    ⟨"GET", .exact "/v1/database-routes", some scopeRoutesRead, .databaseRoutes⟩,
    ⟨"POST", .exact "/v1/database-routes", some scopeRoutesWrite, .upsertDatabaseRoute⟩,
    ⟨"GET", .between "/v1/domains/" "/bandwidth", some scopeAnalyticsRead, .bandwidthUsage⟩,
    ⟨"GET", .between "/v1/domains/" "/bandwidth/history", some scopeAnalyticsRead,
      .bandwidthHistory⟩,
    ⟨"GET", .between "/v1/domains/" "/bandwidth/realtime", some scopeAnalyticsRead,
      .bandwidthRealtime⟩,
    ⟨"DELETE", .under "/v1/database-routes/", some scopeRoutesWrite, .deleteDatabaseRoute⟩,
    -- no scope is asked for here
    ⟨"GET", .exact "/v1/certs", none, .certs⟩,
    ⟨"GET", .exact "/v1/certs/public", some scopeRoutesRead, .publicCert⟩,
    ⟨"POST", .under "/v1/blacklist/", some scopeRoutesWrite, .addToBlacklist⟩,
    ⟨"DELETE", .under "/v1/blacklist/", some scopeRoutesWrite, .removeFromBlacklist⟩]

def dispatch (method path : Text) : Option Arm := arms.find? fun arm => arm.holds method path

/-! ### The handlers of the token store -/

def adminTokenNameMaxBytes : ℕ := 128

structure AdminEnv where
  authEvent : ℕ → CommandEvent
  rotateEvent : ℕ → CommandEvent
  event : ℕ → CommandEvent
  storeError : Text := []
  drawnId : Text
  drawnHash : Text
  now : ℕ
  tokenBody : ApiBodyRead TokenCreateBody
  /-- How the checks of a login end: those of the attempts, the body and the password. -/
  login : Except ApiResponse Unit
  answer : Endpoint → ApiResponse

structure Served where
  response : ApiResponse
  hashes : TokenHashes
  created : Option AdminTokenRecord := none

namespace ApiServer

section Handlers

variable (auth : AdminApiAuth) (env : AdminEnv) (hashes : TokenHashes)

def createToken (name : Text) (scopes : List Text) (failure : Text) : Served :=
  let created := hashes.perform env.event
    (.create ⟨env.drawnId, env.drawnHash, name, scopes, env.now⟩)
  match created.2 with
  | .done (.created record) => ⟨⟨201, none⟩, created.1, some record⟩
  | _ => ⟨⟨502, some (failure ++ env.storeError)⟩, created.1, none⟩

def createAuthToken : Served :=
  match env.tokenBody.toExcept with
  | .error response => ⟨response, hashes, none⟩
  | .ok body =>
    if adminTokenNameMaxBytes < body.name.len then
      ⟨⟨400, some "token name is too long"⟩, hashes, none⟩
    else if ¬ auth.tokenStore then
      ⟨⟨503, some "admin token store is not configured"⟩, hashes, none⟩
    else
      match validateTokenScopes body.scopes with
      | .error error => ⟨⟨400, some error⟩, hashes, none⟩
      | .ok scopes =>
        createToken env hashes body.name scopes "failed to create admin token: "

def listAuthTokens : Served :=
  if ¬ auth.tokenStore then
    ⟨⟨503, some "admin token store is not configured"⟩, hashes, none⟩
  else
    let listed := hashes.perform env.event .list
    match listed.2 with
    | .done (.listed _) => ⟨⟨200, none⟩, listed.1, none⟩
    | _ => ⟨⟨502, some ("failed to list admin tokens: " ++ env.storeError)⟩, listed.1, none⟩

def revokeAuthToken (path : Text) : Served :=
  let id := (Text.trimStartText "/v1/auth/tokens/" path).trimMatches '/'
  if id = [] then ⟨⟨400, some "missing token id"⟩, hashes, none⟩
  else if ¬ auth.tokenStore then
    ⟨⟨503, some "admin token store is not configured"⟩, hashes, none⟩
  else
    let revoked := hashes.perform env.event (.revoke id)
    match revoked.2 with
    | .done (.revoked _) => ⟨⟨200, none⟩, revoked.1, none⟩
    | _ =>
      ⟨⟨502, some ("failed to revoke admin token: " ++ env.storeError)⟩, revoked.1, none⟩

def login : Served :=
  match auth.loginAccount with
  | none => ⟨⟨404, some "initial admin account is not configured"⟩, hashes, none⟩
  | some account =>
    if ¬ auth.tokenStore then
      ⟨⟨503, some "admin token store is not configured"⟩, hashes, none⟩
    else
      match env.login with
      | .error response => ⟨response, hashes, none⟩
      | .ok () =>
        let name := "account:" ++ account.email
        let rotated := hashes.perform env.rotateEvent (.revokeByName name)
        match rotated.2 with
        | .done (.revokedByName _) =>
          createToken env rotated.1 name [scopeAdmin] "failed to create login token: "
        | _ =>
          ⟨⟨502, some ("failed to rotate previous login token: " ++ env.storeError)⟩,
            rotated.1, none⟩

def serve (path : Text) : Endpoint → Served
  | .createAuthToken => createAuthToken auth env hashes
  | .listAuthTokens => listAuthTokens auth env hashes
  | .revokeAuthToken => revokeAuthToken auth env hashes path
  | .login => login auth env hashes
  | endpoint => ⟨env.answer endpoint, hashes, none⟩

def respond (req : AdminRequest) (principal : AdminPrincipal) : Served :=
  match dispatch req.method req.path with
  | none => ⟨⟨404, some "not found"⟩, hashes, none⟩
  | some arm =>
    match arm.scope.bind (requireScope principal) with
    | some refusal => ⟨refusal, hashes, none⟩
    | none => serve auth env hashes req.path arm.endpoint

end Handlers

def adminBodyLimitBytes : ℕ := 1024 * 1024

def handle (auth : AdminApiAuth) (crypto : AdminCrypto) (env : AdminEnv) (req : AdminRequest)
    (hashes : TokenHashes) : Served :=
  if req.contentLength.any (adminBodyLimitBytes < ·) then
    ⟨⟨413, some "request body is too large"⟩, hashes, none⟩
  else
    let authorized := auth.authorize crypto env.authEvent req hashes
    match authorized.1 with
    | .error response => ⟨response, authorized.2, none⟩
    | .ok principal => respond auth env authorized.2 req principal

end ApiServer

/-! ### Scope checks -/

def requiredScope (method path : Text) : Option Text := (dispatch method path).bind Arm.scope

def ApiResponse.success (response : ApiResponse) : Bool :=
  200 ≤ response.status && response.status < 300

lemma mem_of_scope_eq_none : ∀ arm ∈ arms, arm.scope = none → (arm.method, arm.pattern) ∈
    [("GET", .exact "/healthz"), ("GET", .exact "/readyz"), ("POST", .exact "/v1/auth/login"),
      ("GET", PathPattern.exact "/v1/certs")] := by
  decide

lemma eq_of_scope_eq_tokensRead : ∀ arm ∈ arms, arm.scope = some scopeTokensRead →
    (arm.method, arm.pattern) = ("GET", .exact "/v1/auth/tokens") := by
  decide

section Mediation

variable {method path scope : Text} {arm : Arm} {principal : AdminPrincipal}

lemma dispatch_eq_some (h : dispatch method path = some arm) :
    arm ∈ arms ∧ method = arm.method.toList ∧ arm.pattern.holds path = true := by
  have hholds := List.find?_some h
  rw [Arm.holds, Bool.and_eq_true, beq_iff_eq] at hholds
  exact ⟨List.mem_of_find?_eq_some h, hholds⟩

lemma eq_of_exact {armMethod armPath : String} (h : dispatch method path = some arm)
    (harm : (arm.method, arm.pattern) = (armMethod, .exact armPath)) :
    method = armMethod.toList ∧ path = armPath.toList := by
  obtain ⟨-, hmethod, hpath⟩ := dispatch_eq_some h
  obtain ⟨hmethod', hpattern⟩ := Prod.mk.inj harm
  rw [hpattern, PathPattern.holds, beq_iff_eq] at hpath
  exact ⟨hmethod.trans (by rw [hmethod']), hpath⟩

lemma eq_certs_of_scope_eq_none (hpublic : isPublicAdminPath method path = false)
    (h : dispatch method path = some arm) (hscope : arm.scope = none) :
    method = "GET" ∧ path = "/v1/certs" := by
  have hmem := mem_of_scope_eq_none arm (dispatch_eq_some h).1 hscope
  simp only [List.mem_cons, List.not_mem_nil, or_false] at hmem
  rcases hmem with harm | harm | harm | harm
  · obtain ⟨rfl, rfl⟩ := eq_of_exact h harm
    cases hpublic
  · obtain ⟨rfl, rfl⟩ := eq_of_exact h harm
    cases hpublic
  · obtain ⟨rfl, rfl⟩ := eq_of_exact h harm
    cases hpublic
  · exact eq_of_exact h harm

lemma requireScope_eq_none_iff : requireScope principal scope = none ↔
    principal.hasScope scope = true := by
  rw [requireScope]
  split <;> simp_all

lemma not_success_of_requireScope {refusal : ApiResponse}
    (h : requireScope principal scope = some refusal) : refusal.success = false := by
  rw [requireScope] at h
  split_ifs at h
  cases h
  rfl

variable {response : ApiResponse}

lemma not_success_of_refuse {auth : AdminApiAuth} {crypto : AdminCrypto} {req : AdminRequest}
    (h : auth.plan crypto req = .refuse response) :
    response.success = false := by
  rw [AdminApiAuth.plan] at h
  split_ifs at h
  · cases h
    rfl
  · -- a token is only refused if there is no store
    cases htoken : bearerToken req with
    | none =>
      rw [htoken] at h
      cases h
      rfl
    | some token =>
      rw [htoken] at h
      simp only [AdminApiAuth.tokenPlan] at h
      split_ifs at h <;> cases h <;> rfl
  · cases h
    rfl

lemma not_success_of_afterList {call : TokenCall}
    (h : afterList call = .error response) : response.success = false := by
  unfold afterList at h
  split at h <;> cases h <;> rfl

lemma not_success_of_afterVerify {call : TokenCall}
    (h : afterVerify call = .error response) : response.success = false := by
  unfold afterVerify at h
  split at h <;> cases h <;> rfl

lemma not_success_of_authorize {auth : AdminApiAuth} {crypto : AdminCrypto}
    {event : ℕ → CommandEvent} {req : AdminRequest} {hashes : TokenHashes}
    (h : (auth.authorize crypto event req hashes).1 = .error response) :
    response.success = false := by
  rw [AdminApiAuth.authorize] at h
  split at h
  · next hplan =>
    cases h
    exact not_success_of_refuse hplan
  · cases h
  · exact not_success_of_afterList h
  · exact not_success_of_afterVerify h

lemma dispatch_of_success {auth : AdminApiAuth} {crypto : AdminCrypto} {env : AdminEnv}
    {req : AdminRequest} {hashes : TokenHashes}
    (h : (ApiServer.handle auth crypto env req hashes).response.success = true) :
    ∃ principal arm, (auth.authorize crypto env.authEvent req hashes).1 = .ok principal ∧
      dispatch req.method req.path = some arm ∧
      ∀ scope, arm.scope = some scope → principal.hasScope scope = true := by
  rw [ApiServer.handle] at h
  split at h
  · cases h
  · simp only at h
    cases hauthorized : (auth.authorize crypto env.authEvent req hashes).1 with
    | error response =>
      rw [hauthorized] at h
      exact absurd h (by simp [not_success_of_authorize hauthorized])
    | ok principal =>
      rw [hauthorized] at h
      simp only [ApiServer.respond] at h
      cases hdispatch : dispatch req.method req.path with
      | none =>
        rw [hdispatch] at h
        cases h
      | some arm =>
        refine ⟨principal, arm, rfl, rfl, fun scope hscope => ?_⟩
        rw [hdispatch] at h
        simp only [hscope, Option.bind_some] at h
        rw [← requireScope_eq_none_iff]
        cases hrequire : requireScope principal scope with
        | none => rfl
        | some refusal =>
          rw [hrequire] at h
          exact absurd h (by simp [not_success_of_requireScope hrequire])

def Mediated (method path : Text) : Prop :=
  ∀ (auth : AdminApiAuth) (crypto : AdminCrypto) (env : AdminEnv) (req : AdminRequest)
    (hashes : TokenHashes), req.method = method → req.path = path →
    (ApiServer.handle auth crypto env req hashes).response.success = true →
    ∃ principal scope, (auth.authorize crypto env.authEvent req hashes).1 = .ok principal ∧
      requiredScope method path = some scope ∧ principal.hasScope scope = true

def DeniedToTokensRead (method path : Text) : Prop :=
  ∀ (auth : AdminApiAuth) (crypto : AdminCrypto) (env : AdminEnv) (req : AdminRequest)
    (hashes : TokenHashes), req.method = method → req.path = path →
    (auth.authorize crypto env.authEvent req hashes).1 = .ok ⟨[scopeTokensRead]⟩ →
    (ApiServer.handle auth crypto env req hashes).response.success = false

lemma eq_of_hasScope_tokensRead (h : (⟨[scopeTokensRead]⟩ : AdminPrincipal).hasScope scope = true) :
    scope = scopeTokensRead := by
  have hne : scopeTokensRead ≠ scopeAdmin := by decide
  rw [AdminPrincipal.hasScope, List.any_cons, List.any_nil, Bool.or_false, Bool.or_eq_true,
    beq_iff_eq, beq_iff_eq] at h
  exact (h.resolve_left hne).symm

lemma deniedToTokensRead (hpublic : isPublicAdminPath method path = false)
    (hcerts : ¬ (method = "GET" ∧ path = "/v1/certs"))
    (hlist : ¬ (method = "GET" ∧ path = "/v1/auth/tokens")) :
    DeniedToTokensRead method path := by
  rintro auth crypto env req hashes rfl rfl hauthorized
  by_contra hsuccess
  obtain ⟨principal, arm, hprincipal, hdispatch, hpassed⟩ :=
    dispatch_of_success (Bool.eq_true_of_not_eq_false hsuccess)
  obtain rfl : ⟨[scopeTokensRead]⟩ = principal := by
    rw [hauthorized] at hprincipal
    exact Except.ok.inj hprincipal
  cases hscope : arm.scope with
  | none => exact hcerts (eq_certs_of_scope_eq_none hpublic hdispatch hscope)
  | some scope =>
    obtain rfl := eq_of_hasScope_tokensRead (hpassed scope hscope)
    exact hlist (eq_of_exact hdispatch
      (eq_of_scope_eq_tokensRead arm (dispatch_eq_some hdispatch).1 hscope))

lemma mediated (hpublic : isPublicAdminPath method path = false)
    (hcerts : ¬ (method = "GET" ∧ path = "/v1/certs")) : Mediated method path := by
  rintro auth crypto env req hashes rfl rfl hsuccess
  obtain ⟨principal, arm, hprincipal, hdispatch, hpassed⟩ := dispatch_of_success hsuccess
  cases hscope : arm.scope with
  | none => exact absurd (eq_certs_of_scope_eq_none hpublic hdispatch hscope) hcerts
  | some scope =>
    refine ⟨principal, scope, hprincipal, ?_, hpassed scope hscope⟩
    rw [requiredScope, hdispatch, Option.bind_some, hscope]

end Mediation

/-! ### The certificates -/

def sampleAdminEnv : AdminEnv where
  authEvent _ := .reply 1
  rotateEvent _ := .reply 1
  event _ := .reply 1
  drawnId := "t1"
  drawnHash := "pxxl_1"
  now := 1
  tokenBody := .parsed ⟨"ci", [scopeTokensRead]⟩
  login := .ok ()
  answer _ := ⟨200, none⟩

def sampleAdminAuth : AdminApiAuth where
  toLoginAuth := sampleAuth
  enabled := true
  bootstrapToken := some "boot"
  bootstrapTokenPermanent := false
  ipAllowlist := []

def sampleAdminRequest (method path token : String) : AdminRequest where
  method := method.toList
  path := path.toList
  authorization := some ("Bearer " ++ token.toList)
  remoteIp := .v4 ⟨203, 0, 113, 9⟩

lemma not_mediated_certs : ¬ Mediated "GET" "/v1/certs" := by
  intro h
  obtain ⟨principal, scope, -, hscope, -⟩ := h sampleAdminAuth sampleCrypto sampleAdminEnv
    (sampleAdminRequest "GET" "/v1/certs" "boot") {} rfl rfl (by decide +kernel)
  revert hscope
  rw [show requiredScope "GET" "/v1/certs" = none by decide]
  exact fun h => by cases h

/-- **Scope checks.**  Take a request that is not public.  It is answered with success only
after a scope check that its principal passes, and not at all for a principal that may only
read tokens, unless it lists them, exactly if it is not the one for the certificates. -/
theorem success_mediated_iff {method path : Text}
    (hpublic : isPublicAdminPath method path = false) :
    (Mediated method path ∧ (¬ (method = "GET".toList ∧ path = "/v1/auth/tokens".toList) →
        DeniedToTokensRead method path)) ↔
      ¬ (method = "GET".toList ∧ path = "/v1/certs".toList) := by
  constructor
  · rintro ⟨hmediated, -⟩ ⟨rfl, rfl⟩
    exact not_mediated_certs hmediated
  · exact fun hcerts => ⟨mediated hpublic hcerts, deniedToTokensRead hpublic hcerts⟩

theorem success_mediated_upstreams :
    isPublicAdminPath "GET".toList "/v1/upstreams".toList = false ∧
      Mediated "GET".toList "/v1/upstreams".toList ∧
      DeniedToTokensRead "GET".toList "/v1/upstreams".toList := by
  have hpublic : isPublicAdminPath "GET".toList "/v1/upstreams".toList = false := by decide
  have h := (success_mediated_iff hpublic).mpr (by decide)
  exact ⟨hpublic, h.1, h.2 (by decide)⟩

/-- A token that may only read tokens shows the certificates. -/
theorem certs_unchecked :
    let created := ApiServer.handle sampleAdminAuth sampleCrypto sampleAdminEnv
      (sampleAdminRequest "POST" "/v1/auth/tokens" "boot") {}
    let req := sampleAdminRequest "GET" "/v1/certs" "pxxl_1"
    created.response = ⟨201, none⟩ ∧
      (sampleAdminAuth.authorize sampleCrypto sampleAdminEnv.authEvent req created.hashes).1 =
        .ok ⟨[scopeTokensRead]⟩ ∧
      (ApiServer.handle sampleAdminAuth sampleCrypto sampleAdminEnv req created.hashes).response =
        ⟨200, none⟩ := by
  decide +kernel

end PxxlEdge
