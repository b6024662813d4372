import PxxlEdge.Common.Path
import PxxlEdge.Common.UpstreamUrl
import PxxlEdge.Lib.Iter

/-!
The constructors of routes, and the checks that a route passes before it enters
the registry.

* `validateForRuntime`: the checks of every route.
* `validateForDynamicControlPlane`: those of a route that comes in at run time,
  from the API, the containers, the events or the store.
-/

namespace PxxlEdge

open RustStd

def maxRoutesPerSource : ℕ := 100000

def maxPathsPerRoute : ℕ := 64

def maxUpstreamsPerRoute : ℕ := 128

def maxMirrorUpstreamsPerRoute : ℕ := 16

/-! ### Constructors -/

def Upstream.new (url : Text) : Upstream := { url }

def PathRoute.new (pathPrefix : Text) (upstreams : List Upstream) : PathRoute where
  pathPrefix := normalizePathPrefix pathPrefix
  upstreams

def Route.new (id : Text) (now : Int) (domain : Text) (paths : List PathRoute)
    (source : RouteSource) : Route where
  id
  domain := normalizeDomain domain
  paths := if paths = [] then [PathRoute.new "/" []] else paths
  source
  createdAt := now
  updatedAt := now

/-! ### Domains and paths -/

def isAsciiAlphanumeric (byte : UInt8) : Bool :=
  (48 ≤ byte && byte ≤ 57) || (65 ≤ byte && byte ≤ 90) || (97 ≤ byte && byte ≤ 122)

def validateDomainLabel (label : Text) : Except Text Unit :=
  if label = [] ∨ 63 < label.len then .error "domain label is invalid"
  else if label.startsWith "-" ∨ label.endsWith "-" then
    .error "domain label cannot start or end with '-'"
  else if ¬ label.asBytes.all fun byte => isAsciiAlphanumeric byte || byte == 45 || byte == 95 then
    .error "domain label contains invalid characters"
  else .ok ()

def validateDomainName (domain : Text) : Except Text Unit :=
  let normalized := normalizeDomain domain
  if normalized = [] then .error "domain is required"
  else if 253 < normalized.len then .error "domain is too long"
  else if normalized.asBytes.any fun byte =>
      byte ≤ 0x20 || byte == 0x7f || byte == 47 || byte == 92 || byte == 64 then
    .error "domain contains invalid characters"
  else if normalized.startsWith "." ∨ Text.contains normalized ".." then
    .error "domain has empty labels"
  else (normalized.splitOn '.').forM validateDomainLabel

def validatePathPrefix (pathPrefix : Text) : Except Text Unit :=
  if pathPrefix = [] ∨ ¬ pathPrefix.startsWith "/" then .error "path prefix must start with '/'"
  else do
    let canonical ← canonicalizePath pathPrefix
    if canonical ≠ normalizePathPrefix pathPrefix then
      .error "path prefix must already be canonical"
    else .ok ()

/-! ### Routes -/

section Routes

variable (U : UrlParser) (vars : EnvVars)

def validateUpstream (upstream : Upstream) : Except Text Unit := do
  validateUpstreamUrl U vars upstream.url
  if upstream.transport ≠ {} then .error "upstream transport options are not enforced yet"
  else .ok ()

def validateDynamicUpstream (upstream : Upstream) : Except Text Unit := do
  validateUpstream U vars upstream
  validateDynamicUpstreamUrl U vars upstream.url

def validateUpstreams (what : Text) (max : ℕ) (upstreams : List Upstream) : Except Text Unit := do
  if max < upstreams.length then
    .error (what ++ " has too many upstreams: max " ++ Nat.toDigits 10 max)
  else upstreams.forM (validateUpstream U vars)

def forForwardAuth (check : ForwardAuthConfig → Except Text Unit) (rules : DomainRules) :
    Except Text Unit :=
  rules.middlewares.entries.forM fun e =>
    match e.2.forwardAuth with
    | some forwardAuth => if forwardAuth.enabled then check forwardAuth else .ok ()
    | none => .ok ()

def validateRulesForRuntime (rules : DomainRules) : Except Text Unit := do
  if rules.services.entries ≠ [] then .error "weighted service composition is not enforced yet"
  if rules.upstreamTransport ≠ {} then
    .error "default upstream transport options are not enforced yet"
  if rules.tlsOptions ≠ {} then .error "per-router TLS options are not enforced yet"
  if rules.acme ≠ {} then .error "ACME options are not enforced yet"
  if rules.tcp ≠ {} then .error "TCP routing options are not enforced yet"
  if rules.udp ≠ {} then .error "UDP routing options are not enforced yet"
  if rules.http3 ≠ {} then .error "HTTP/3 options are not enforced yet"
  rules.locationRoutes.forM fun route =>
    validateUpstreams U vars "location route" maxUpstreamsPerRoute route.upstreams
  rules.trafficSplits.forM fun split =>
    validateUpstreams U vars "traffic split" maxUpstreamsPerRoute split.upstreams
  validateUpstreams U vars "traffic mirroring" maxMirrorUpstreamsPerRoute
    rules.trafficMirroring.upstreams
  forForwardAuth
    (fun forwardAuth => do
      if forwardAuth.responseHeaders ≠ [] then
        .error "forward_auth response_headers are not enforced yet"
      validateUpstreamUrl U vars forwardAuth.url)
    rules

def validatePath (path : PathRoute) : Except Text Unit := do
  validatePathPrefix path.pathPrefix
  if path.upstreams = [] then
    .error ("path " ++ path.pathPrefix ++ " needs at least one upstream")
  validateUpstreams U vars ("path " ++ path.pathPrefix) maxUpstreamsPerRoute path.upstreams

def Route.validateForRuntime (route : Route) : Except Text Unit := do
  validateDomainName route.domain
  if route.paths = [] then .error "route needs at least one path"
  if maxPathsPerRoute < route.paths.length then
    .error ("route has too many paths: max " ++ Nat.toDigits 10 maxPathsPerRoute)
  route.paths.forM (validatePath U vars)
  validateRulesForRuntime U vars route.rules

def Route.allUpstreams (route : Route) : List Upstream :=
  (route.paths.flatMap fun p => p.upstreams) ++
    (route.rules.locationRoutes.flatMap fun l => l.upstreams) ++
    (route.rules.trafficSplits.flatMap fun s => s.upstreams) ++
    route.rules.trafficMirroring.upstreams

def Route.validateForDynamicControlPlane (route : Route) : Except Text Unit := do
  route.validateForRuntime U vars
  route.allUpstreams.forM (validateDynamicUpstream U vars)
  forForwardAuth (fun forwardAuth => validateDynamicUpstreamUrl U vars forwardAuth.url) route.rules

end Routes

/-! ### Loops of checks -/

lemma forM_eq_ok {α : Type} {check : α → Except Text Unit} {l : List α}
    (h : l.forM check = .ok ()) : ∀ a ∈ l, check a = .ok () := by
  induction l with
  | nil => simp
  | cons a l ih =>
    change (check a >>= fun _ => l.forM check) = .ok () at h
    cases ha : check a with
    | error e => simp [ha, bind, Except.bind] at h
    | ok u =>
      rw [ha] at h
      intro b hb
      rcases List.mem_cons.mp hb with rfl | hb
      · exact ha
      · exact ih h b hb

lemma forM_map {α β : Type} (check : β → Except Text Unit) (g : α → β) (l : List α) :
    (l.map g).forM check = l.forM fun a => check (g a) := by
  induction l with
  | nil => rfl
  | cons a l ih =>
    change (check (g a) >>= fun _ => (l.map g).forM check) = _
    rw [ih]
    rfl

/-! ### What a valid route looks like -/

section ValidRoutes

variable {U : UrlParser} {vars : EnvVars}

lemma length_le_of_validateUpstreams {what : Text} {max : ℕ} {upstreams : List Upstream}
    (h : validateUpstreams U vars what max upstreams = .ok ()) : upstreams.length ≤ max := by
  rw [validateUpstreams] at h
  split at h
  · cases h
  · next hlength => exact Nat.le_of_not_lt hlength

lemma length_le_of_validatePath {path : PathRoute} (h : validatePath U vars path = .ok ()) :
    path.upstreams.length ≤ maxUpstreamsPerRoute := by
  simp only [validatePath, bind_eq_ok, check_eq_ok] at h
  obtain ⟨_, -, -, hupstreams⟩ := h
  exact length_le_of_validateUpstreams hupstreams

lemma length_le_of_validateRulesForRuntime {rules : DomainRules}
    (h : validateRulesForRuntime U vars rules = .ok ()) :
    (∀ rule ∈ rules.locationRoutes, rule.upstreams.length ≤ maxUpstreamsPerRoute) ∧
      ∀ split ∈ rules.trafficSplits, split.upstreams.length ≤ maxUpstreamsPerRoute := by
  simp only [validateRulesForRuntime, check_eq_ok, bind_eq_ok] at h
  obtain ⟨-, -, -, -, -, -, -, _, hlocations, _, hsplits, -⟩ := h
  exact ⟨fun rule hrule => length_le_of_validateUpstreams (forM_eq_ok hlocations rule hrule),
    fun split hsplit => length_le_of_validateUpstreams (forM_eq_ok hsplits split hsplit)⟩

lemma validateForDynamicControlPlane_ok {route : Route}
    (h : route.validateForDynamicControlPlane U vars = .ok ()) :
    validateDomainName route.domain = .ok () ∧
      (∀ path ∈ route.paths, validatePath U vars path = .ok ()) ∧
      validateRulesForRuntime U vars route.rules = .ok () ∧
      ∀ u ∈ route.allUpstreams, validateDynamicUpstream U vars u = .ok () := by
  simp only [Route.validateForDynamicControlPlane, Route.validateForRuntime, bind_eq_ok,
    check_eq_ok] at h
  obtain ⟨_, ⟨_, hdomain, -, -, _, hpaths, hrules⟩, _, hupstreams, -⟩ := h
  exact ⟨hdomain, forM_eq_ok hpaths, hrules, forM_eq_ok hupstreams⟩

end ValidRoutes

/-! ### What a valid domain looks like -/

def IsLabelChar (c : Char) : Prop :=
  48 ≤ c.toNat ∧ c.toNat ≤ 57 ∨ 65 ≤ c.toNat ∧ c.toNat ≤ 90 ∨ 97 ≤ c.toNat ∧ c.toNat ≤ 122 ∨
    c.toNat = 45 ∨ c.toNat = 95

instance (c : Char) : Decidable (IsLabelChar c) := inferInstanceAs (Decidable (_ ∨ _))

lemma isLabelChar_of_validateDomainLabel {label : Text} (h : validateDomainLabel label = .ok ())
    {c : Char} (hc : c ∈ label) : IsLabelChar c := by
  rw [validateDomainLabel] at h
  split_ifs at h with _ _ hall
  obtain ⟨b, bs, hbs⟩ : ∃ b bs, String.utf8EncodeChar c = b :: bs :=
    List.exists_cons_of_ne_nil String.utf8EncodeChar_ne_nil
  have hb : b ∈ String.utf8EncodeChar c := hbs ▸ List.mem_cons_self
  have hallowed := List.all_eq_true.mp hall b (List.mem_flatMap.mpr ⟨c, hc, hb⟩)
  simp only [isAsciiAlphanumeric, Bool.or_eq_true, Bool.and_eq_true, decide_eq_true_eq, beq_iff_eq,
    UInt8.le_iff_toNat_le, ← UInt8.toNat_inj] at hallowed
  -- the byte is below 128, so it is the character
  change (((48 ≤ b.toNat ∧ b.toNat ≤ 57 ∨ 65 ≤ b.toNat ∧ b.toNat ≤ 90) ∨
    97 ≤ b.toNat ∧ b.toNat ≤ 122) ∨ b.toNat = 45) ∨ b.toNat = 95 at hallowed
  rw [IsLabelChar, Text.toNat_eq_of_mem_utf8EncodeChar hb (by omega)]
  omega

lemma isLabelChar_of_validateDomainName {domain : Text} (h : validateDomainName domain = .ok ())
    {c : Char} (hc : c ∈ normalizeDomain domain) : c = '.' ∨ IsLabelChar c := by
  by_cases hdot : c = '.'
  · exact .inl hdot
  simp only [validateDomainName] at h
  split_ifs at h
  obtain ⟨label, hlabel, hmem⟩ := Text.exists_mem_splitOn hc hdot
  exact .inr (isLabelChar_of_validateDomainLabel (forM_eq_ok h label hlabel) hmem)

lemma ne_nil_of_validateDomainName {domain : Text} (h : validateDomainName domain = .ok ()) :
    normalizeDomain domain ≠ [] := by
  intro hnil
  simp [validateDomainName, hnil] at h

structure ValidDomain (domain : Text) : Prop where
  valid : validateDomainName domain = .ok ()
  normal : normalizeDomain domain = domain

namespace ValidDomain

variable {domain : Text}

lemma isLabelChar (h : ValidDomain domain) {c : Char} (hc : c ∈ domain) :
    c = '.' ∨ IsLabelChar c :=
  isLabelChar_of_validateDomainName h.valid (h.normal.symm ▸ hc)

lemma ne_nil (h : ValidDomain domain) : domain ≠ [] := fun hnil =>
  ne_nil_of_validateDomainName h.valid (h.normal.trans hnil)

lemma not_mem_colon (h : ValidDomain domain) : ':' ∉ domain := by
  intro hc
  rcases h.isLabelChar hc with heq | hlabel
  · cases heq
  · exact absurd hlabel (by decide)

end ValidDomain

end PxxlEdge
