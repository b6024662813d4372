import PxxlEdge.Control.LoginAttempts
import PxxlEdge.Control.TokenStore

/-!
Who may use the admin API.

* `AdminApiAuth.plan`, `AdminApiAuth.authorize`: what a request is let in for, and
  with which scopes.
-/

namespace PxxlEdge

open RustStd

/-! ### Scopes -/

def scopeAdmin : Text := "admin"
def scopeRoutesRead : Text := "routes:read"
def scopeRoutesWrite : Text := "routes:write"
def scopeTokensRead : Text := "tokens:read"
def scopeTokensWrite : Text := "tokens:write"
def scopeAnalyticsRead : Text := "analytics:read"

def normalizeScopes (scopes : List Text) : List Text :=
  sortDedup ((scopes.map fun scope => scope.trim.toAsciiLowercase).filter (· ≠ []))

structure AdminPrincipal where
  scopes : List Text
deriving DecidableEq, Repr

namespace AdminPrincipal

def admin : AdminPrincipal := ⟨[scopeAdmin]⟩

def new (scopes : List Text) : AdminPrincipal := ⟨normalizeScopes scopes⟩

def hasScope (principal : AdminPrincipal) (scope : Text) : Bool :=
  principal.scopes.any fun value => value == scopeAdmin || value == scope

end AdminPrincipal

def requireScope (principal : AdminPrincipal) (scope : Text) : Option ApiResponse :=
  if ¬ principal.hasScope scope then
    some ⟨403, some ("missing required scope: " ++ scope)⟩
  else none

def tokenScopes : List Text :=
  [scopeAdmin, scopeRoutesRead, scopeRoutesWrite, scopeTokensRead, scopeTokensWrite,
    scopeAnalyticsRead]

def validateTokenScopes (scopes : List Text) : Except Text (List Text) :=
  let scopes := normalizeScopes scopes
  if scopes = [] then .error "at least one token scope is required"
  else
    match scopes.find? fun scope => ! tokenScopes.contains scope with
    | some scope => .error ("unsupported token scope: " ++ scope)
    | none => .ok scopes

/-! ### Authorization -/

structure AdminApiAuth extends LoginAuth where
  enabled : Bool
  bootstrapToken : Option Text
  bootstrapTokenPermanent : Bool
  ipAllowlist : List IpNet

structure TokenCreateBody where
  name : Text
  scopes : List Text := []
deriving DecidableEq, Repr

structure AdminRequest where
  method : Text
  path : Text
  contentLength : Option ℕ := none
  authorization : Option Text := none
  remoteIp : IpAddr

def isPublicAdminPath (method path : Text) : Bool :=
  (method = "GET" ∧ (path = "/healthz" ∨ path = "/readyz")) ∨
    (method = "POST" ∧ path = "/v1/auth/login")

def bearerToken (req : AdminRequest) : Option Text :=
  ((req.authorization.bind fun value => value.stripPrefix "Bearer ").map Text.trim).filter
    (· ≠ [])

inductive AuthPlan where
  | refuse (response : ApiResponse)
  | letIn (principal : AdminPrincipal)
  /-- The bootstrap token: the stored tokens are listed. -/
  | list
  /-- Another token is verified. -/
  | verify (token : Text)
deriving DecidableEq, Repr

namespace AdminApiAuth

variable (auth : AdminApiAuth) (crypto : AdminCrypto)

def isBootstrap (token : Text) : Bool :=
  auth.bootstrapToken.any fun bootstrap =>
    crypto.constantTimeEq bootstrap.asBytes token.asBytes

def tokenPlan (token : Text) : AuthPlan :=
  if auth.isBootstrap crypto token then
    if auth.bootstrapTokenPermanent then .letIn .admin
    else if ¬ auth.tokenStore then
      .refuse ⟨503, some "admin token store is not configured"⟩
    else .list
  else if auth.tokenStore then .verify token
  else .refuse ⟨503, some "admin token store is not configured"⟩

def plan (req : AdminRequest) : AuthPlan :=
  if auth.ipAllowlist ≠ [] ∧ ¬ auth.ipAllowlist.any (·.contains req.remoteIp) then
    .refuse ⟨403, some "admin api ip is not allowed"⟩
  else if isPublicAdminPath req.method req.path then .letIn .admin
  else if ¬ auth.enabled then .refuse ⟨503, some "admin auth is disabled"⟩
  else
    match bearerToken req with
    | none => .refuse ⟨401, some "missing bearer token"⟩
    | some token => auth.tokenPlan crypto token

end AdminApiAuth

def afterList : TokenCall → Except ApiResponse AdminPrincipal
  | .done (.listed []) => .ok .admin
  | .done (.listed _) => .error ⟨401, some "bootstrap token expired after first admin token"⟩
  | _ => .error ⟨502, some "authentication backend unavailable"⟩

def afterVerify : TokenCall → Except ApiResponse AdminPrincipal
  | .done (.verified (some view)) => .ok (.new view.scopes)
  | .done (.verified none) => .error ⟨401, some "invalid bearer token"⟩
  | _ => .error ⟨502, some "authentication backend unavailable"⟩

def AdminApiAuth.authorize (auth : AdminApiAuth) (crypto : AdminCrypto)
    (event : ℕ → CommandEvent) (req : AdminRequest) (hashes : TokenHashes) :
    Except ApiResponse AdminPrincipal × TokenHashes :=
  match auth.plan crypto req with
  | .refuse response => (.error response, hashes)
  | .letIn principal => (.ok principal, hashes)
  | .list =>
    let listed := hashes.perform event .list
    (afterList listed.2, listed.1)
  | .verify token =>
    let verified := hashes.perform event (.verify (crypto.hashToken token))
    (afterVerify verified.2, verified.1)

/-! ### The bootstrap token -/

section Bootstrap

variable {auth : AdminApiAuth} {crypto : AdminCrypto} {req : AdminRequest}

structure AdminApiAuth.PresentsBootstrap (auth : AdminApiAuth) (crypto : AdminCrypto)
    (req : AdminRequest) : Prop where
  allowed : auth.ipAllowlist = [] ∨ auth.ipAllowlist.any (·.contains req.remoteIp) = true
  notPublic : isPublicAdminPath req.method req.path = false
  enabled : auth.enabled = true
  token : ∃ token, bearerToken req = some token ∧ auth.isBootstrap crypto token = true

lemma AdminApiAuth.PresentsBootstrap.plan_eq (h : auth.PresentsBootstrap crypto req)
    (hpermanent : auth.bootstrapTokenPermanent = false) (hstore : auth.tokenStore = true) :
    auth.plan crypto req = .list := by
  obtain ⟨token, htoken, hbootstrap⟩ := h.token
  have hallowed : ¬ (auth.ipAllowlist ≠ [] ∧
      ¬ auth.ipAllowlist.any (·.contains req.remoteIp) = true) := by
    rintro ⟨hne, hnot⟩
    exact h.allowed.elim hne hnot
  rw [plan, if_neg hallowed, if_neg (by simp [h.notPublic]), if_neg (by simp [h.enabled]), htoken]
  simp [tokenPlan, hbootstrap, hpermanent, hstore]

lemma authorize_of_list {event : ℕ → CommandEvent} {hashes : TokenHashes}
    (hplan : auth.plan crypto req = .list) :
    (∃ principal, (auth.authorize crypto event req hashes).1 = .ok principal) ↔
      (∃ now, event 0 = .reply now) ∧ hashes.listTokens = [] := by
  rw [AdminApiAuth.authorize, hplan]
  show (∃ principal, afterList (TokenCall.next (event 0) hashes .list).2 = .ok principal) ↔ _
  cases hevent : event 0 with
  | error made =>
    refine iff_of_false ?_ ?_
    · rintro ⟨principal, h⟩
      cases h
    · rintro ⟨⟨now, hnow⟩, -⟩
      cases hnow
  | reply now =>
    show (∃ principal, afterList (.done (.listed hashes.listTokens)) = .ok principal) ↔ _
    cases hlist : hashes.listTokens with
    | nil => exact iff_of_true ⟨.admin, rfl⟩ ⟨⟨now, rfl⟩, rfl⟩
    | cons view views =>
      refine iff_of_false ?_ ?_
      · rintro ⟨principal, h⟩
        cases h
      · rintro ⟨-, hnil⟩
        cases hnil

end Bootstrap

end PxxlEdge
