import PxxlEdge.Common.Types

/-!
What the admin API shows of a route: the secrets are replaced.

Routes are equal as Rust compares them: hash maps by their bindings.
-/

namespace PxxlEdge

open RustStd

/-! ### Redaction -/

def redacted : Text := "[redacted]"

def sensitiveHeaderName (name : Text) : Bool :=
  ["authorization".toList, "proxy-authorization".toList, "cookie".toList, "set-cookie".toList,
    "x-api-key".toList].contains name.toAsciiLowercase

def redactValues (m : Map Text Text) : Map Text Text := m.mapEntries fun _ _ => redacted

def redactMiddleware (middleware : MiddlewareDefinition) : MiddlewareDefinition :=
  { middleware with
    basicAuth := middleware.basicAuth.map fun config =>
      { config with users := redactValues config.users }
    digestAuth := middleware.digestAuth.map fun config =>
      { config with users := redactValues config.users } }

def redactResponseHeaders (m : Map Text Text) : Map Text Text :=
  m.mapEntries fun name value => if sensitiveHeaderName name then redacted else value

def redactRules (rules : DomainRules) : DomainRules :=
  { rules with
    addRequestHeaders := redactValues rules.addRequestHeaders
    responseHeaders := redactResponseHeaders rules.responseHeaders
    middlewares := rules.middlewares.mapEntries fun _ middleware => redactMiddleware middleware }

def redactRoute (route : Route) : Route := { route with rules := redactRules route.rules }

/-! ### Routes that differ in their secrets only -/

def ProxyMode.authToken : ProxyMode → Option Text
  | .direct => none
  | .external _ _ authToken _ => authToken

def ProxyMode.withoutToken : ProxyMode → ProxyMode
  | .direct => .direct
  | .external proxyUrl maxConnections _ forwardClientIp =>
    .external proxyUrl maxConnections none forwardClientIp

def SameNames (s t : Map Text Text) : Prop := Map.Rel (fun _ _ _ => True) s t

def SameInsensitive (s t : Map Text Text) : Prop :=
  Map.Rel (fun name value value' => sensitiveHeaderName name = false → value = value') s t

/-- Basic or digest auth with other passwords. -/
structure BasicAuthConfig.SameExceptSecrets (a b : BasicAuthConfig) : Prop where
  enabled : a.enabled = b.enabled
  realm : a.realm = b.realm
  users : SameNames a.users b.users

structure DigestAuthConfig.SameExceptSecrets (a b : DigestAuthConfig) : Prop where
  enabled : a.enabled = b.enabled
  realm : a.realm = b.realm
  users : SameNames a.users b.users

def MiddlewareDefinition.withoutUsers (m : MiddlewareDefinition) : MiddlewareDefinition :=
  { m with basicAuth := none, digestAuth := none }

structure MiddlewareDefinition.SameExceptSecrets (a b : MiddlewareDefinition) : Prop where
  rest : (b.withoutUsers == a.withoutUsers) = true
  basicAuth : Option.Rel BasicAuthConfig.SameExceptSecrets a.basicAuth b.basicAuth
  digestAuth : Option.Rel DigestAuthConfig.SameExceptSecrets a.digestAuth b.digestAuth

def DomainRules.withoutSecrets (rules : DomainRules) : DomainRules :=
  { rules with
    addRequestHeaders := ∅
    responseHeaders := ∅
    middlewares := ∅
    proxyMode := .direct }

structure DomainRules.SameExceptSecrets (a b : DomainRules) : Prop where
  rest : (a.withoutSecrets == b.withoutSecrets) = true
  addRequestHeaders : SameNames a.addRequestHeaders b.addRequestHeaders
  responseHeaders : SameInsensitive a.responseHeaders b.responseHeaders
  middlewares :
    Map.Rel (fun _ => MiddlewareDefinition.SameExceptSecrets) a.middlewares b.middlewares
  proxyMode : a.proxyMode.withoutToken = b.proxyMode.withoutToken

def Route.header (route : Route) :
    Text × Text × List PathRoute × Bool × LoadBalancingAlgorithm × RouteSource × ℕ × ℤ × ℤ :=
  (route.id, route.domain, route.paths, route.tls, route.algorithm, route.source,
    route.routeVersion, route.createdAt, route.updatedAt)

def Route.eqv (a b : Route) : Bool := a.header == b.header && a.rules == b.rules

structure Route.SameExceptSecrets (a b : Route) : Prop where
  header : a.header = b.header
  rules : a.rules.SameExceptSecrets b.rules

/-! ### Equality, field by field -/

lemma MiddlewareDefinition.beq_iff (a b : MiddlewareDefinition) :
    (a == b) = true ↔ (a.withoutUsers == b.withoutUsers) = true ∧
      (a.basicAuth == b.basicAuth) = true ∧ (a.digestAuth == b.digestAuth) = true := by
  have hunfold : ∀ x y : MiddlewareDefinition, (x == y) = instBEqMiddlewareDefinition.beq x y :=
    fun _ _ => rfl
  simp only [hunfold, instBEqMiddlewareDefinition.beq, withoutUsers, Bool.and_eq_true]
  tauto

lemma DomainRules.beq_iff (a b : DomainRules) :
    (a == b) = true ↔ (a.withoutSecrets == b.withoutSecrets) = true ∧
      (a.addRequestHeaders == b.addRequestHeaders) = true ∧
      (a.responseHeaders == b.responseHeaders) = true ∧
      (a.middlewares == b.middlewares) = true ∧ a.proxyMode = b.proxyMode := by
  have hunfold : ∀ x y : DomainRules, (x == y) = instBEqDomainRules.beq x y := fun _ _ => rfl
  simp only [hunfold, instBEqDomainRules.beq, withoutSecrets, Bool.and_eq_true, beq_iff_eq]
  tauto

/-! ### Redacted parts are equal -/

lemma SameNames.redactValues {s t : Map Text Text} (h : SameNames s t) :
    (redactValues s == redactValues t) = true :=
  Map.eqv_iff_rel.mpr (Map.Rel.mapEntries h fun _ _ _ _ => beq_self_eq_true redacted)

lemma SameNames.symm {s t : Map Text Text} (h : SameNames s t) : SameNames t s := by
  intro k
  have hk := h k
  generalize s.lookup k = v at hk ⊢
  generalize t.lookup k = w at hk ⊢
  cases hk with
  | some => exact .some trivial
  | none => exact .none

lemma SameInsensitive.redactResponseHeaders {s t : Map Text Text} (h : SameInsensitive s t) :
    (redactResponseHeaders s == redactResponseHeaders t) = true := by
  refine Map.eqv_iff_rel.mpr (Map.Rel.mapEntries h fun name value value' hsame => ?_)
  rw [beq_iff_eq]
  split
  · rfl
  · next hname => exact (hsame (by simpa using hname)).symm

lemma BasicAuthConfig.SameExceptSecrets.redact {a b : BasicAuthConfig}
    (h : a.SameExceptSecrets b) :
    (({ b with users := redactValues b.users } : BasicAuthConfig) ==
      { a with users := redactValues a.users }) = true := by
  show (b.enabled == a.enabled && (b.realm == a.realm &&
    redactValues b.users == redactValues a.users)) = true
  rw [h.users.symm.redactValues, h.enabled, h.realm, beq_self_eq_true, beq_self_eq_true]
  rfl

lemma DigestAuthConfig.SameExceptSecrets.redact {a b : DigestAuthConfig}
    (h : a.SameExceptSecrets b) :
    (({ b with users := redactValues b.users } : DigestAuthConfig) ==
      { a with users := redactValues a.users }) = true := by
  show (b.enabled == a.enabled && (b.realm == a.realm &&
    redactValues b.users == redactValues a.users)) = true
  rw [h.users.symm.redactValues, h.enabled, h.realm, beq_self_eq_true, beq_self_eq_true]
  rfl

lemma MiddlewareDefinition.SameExceptSecrets.redact {a b : MiddlewareDefinition}
    (h : a.SameExceptSecrets b) : (redactMiddleware b == redactMiddleware a) = true := by
  obtain ⟨hrest, hbasic, hdigest⟩ := h
  refine (beq_iff _ _).mpr ⟨hrest, ?_, ?_⟩
  · simp only [redactMiddleware]
    generalize a.basicAuth = config at hbasic ⊢
    generalize b.basicAuth = config' at hbasic ⊢
    cases hbasic with
    | some hsame => exact hsame.redact
    | none => rfl
  · simp only [redactMiddleware]
    generalize a.digestAuth = config at hdigest ⊢
    generalize b.digestAuth = config' at hdigest ⊢
    cases hdigest with
    | some hsame => exact hsame.redact
    | none => rfl

lemma ProxyMode.eq_iff_authToken {a b : ProxyMode} (h : a.withoutToken = b.withoutToken) :
    a = b ↔ a.authToken = b.authToken := by
  refine ⟨congrArg authToken, fun htoken => ?_⟩
  cases a with
  | direct =>
    cases b with
    | direct => rfl
    | external => cases h
  | external proxyUrl maxConnections token forwardClientIp =>
    cases b with
    | direct => cases h
    | external proxyUrl' maxConnections' token' forwardClientIp' =>
      simp only [withoutToken, external.injEq, true_and] at h
      obtain ⟨rfl, rfl, rfl⟩ := h
      exact congrArg (external proxyUrl maxConnections · forwardClientIp) htoken

lemma DomainRules.SameExceptSecrets.redact_iff {a b : DomainRules} (h : a.SameExceptSecrets b) :
    (redactRules a == redactRules b) = true ↔ a.proxyMode = b.proxyMode := by
  rw [beq_iff]
  constructor
  · exact fun hall => hall.2.2.2.2
  · intro hmode
    refine ⟨h.rest, h.addRequestHeaders.redactValues, h.responseHeaders.redactResponseHeaders,
      ?_, hmode⟩
    exact Map.eqv_iff_rel.mpr (h.middlewares.mapEntries fun _ _ _ hsame => hsame.redact)

/-- **What redaction hides.**  Of two routes that differ in their secrets only, the redactions
are equal exactly if the tokens of their external proxies are. -/
theorem redactRoute_eqv_iff {a b : Route} (h : a.SameExceptSecrets b) :
    (redactRoute a).eqv (redactRoute b) = true ↔
      a.rules.proxyMode.authToken = b.rules.proxyMode.authToken := by
  rw [← ProxyMode.eq_iff_authToken h.rules.proxyMode, ← h.rules.redact_iff, Route.eqv,
    Bool.and_eq_true]
  have hheader : ((redactRoute a).header == (redactRoute b).header) = true :=
    beq_iff_eq.mpr h.header
  exact ⟨fun hall => hall.2, fun hrules => ⟨hheader, hrules⟩⟩

def proxiedRoute (apiKey authToken : Text) : Route where
  id := "api-example.com"
  domain := "example.com"
  source := .api
  rules :=
    { addRequestHeaders := Map.ofList [("x-key", apiKey)]
      proxyMode := .external "http://proxy:3128" none (some authToken) true }

lemma sameNames_singleton (name value value' : Text) :
    SameNames (Map.ofList [(name, value)]) (Map.ofList [(name, value')]) := by
  intro k
  rw [Map.lookup_ofList_singleton, Map.lookup_ofList_singleton]
  split
  · exact .some trivial
  · exact .none

lemma sameExceptSecrets_proxiedRoute (apiKey apiKey' token token' : Text) :
    (proxiedRoute apiKey token).SameExceptSecrets (proxiedRoute apiKey' token') where
  header := rfl
  rules :=
    { rest := by rfl
      addRequestHeaders := sameNames_singleton "x-key" apiKey apiKey'
      responseHeaders := Map.rel_empty
      middlewares := Map.rel_empty
      proxyMode := rfl }

/-- Other keys do not show. -/
theorem redactRoute_hides_key :
    (redactRoute (proxiedRoute "k".toList "t".toList)).eqv
      (redactRoute (proxiedRoute "l".toList "t".toList)) = true :=
  (redactRoute_eqv_iff (sameExceptSecrets_proxiedRoute _ _ _ _)).mpr rfl

/-- Another token of the external proxy does. -/
theorem redactRoute_shows_token :
    (proxiedRoute "k".toList "t".toList).SameExceptSecrets
        (proxiedRoute "k".toList "u".toList) ∧
      (redactRoute (proxiedRoute "k".toList "t".toList)).eqv
        (redactRoute (proxiedRoute "k".toList "u".toList)) = false := by
  refine ⟨sameExceptSecrets_proxiedRoute _ _ _ _, ?_⟩
  decide

end PxxlEdge
