import PxxlEdge.Control.AdminApi
import PxxlEdge.Control.TokenRaces
import Mathlib.Data.List.ReduceOption

/-!
The scopes of the tokens that are created through the admin API.
-/

namespace PxxlEdge

open RustStd Run List

/-! ### Normal scopes -/

section Normal

variable {scopes : List Text} {scope : Text} {principal : AdminPrincipal}

def NormalScope (scope : Text) : Prop := scope.trim.toAsciiLowercase = scope ∧ scope ≠ []

lemma normalScope_normalize (h : scope.trim.toAsciiLowercase ≠ []) :
    NormalScope scope.trim.toAsciiLowercase := by
  refine ⟨?_, h⟩
  rw [Text.trim_toAsciiLowercase, Text.trim_trim, Text.toAsciiLowercase_toAsciiLowercase]

lemma mem_normalizeScopes : scope ∈ normalizeScopes scopes ↔
    ∃ s ∈ scopes, s.trim.toAsciiLowercase = scope ∧ scope ≠ [] := by
  rw [normalizeScopes, mem_sortDedup, mem_filter, mem_map]
  simp only [ne_eq, decide_not, Bool.not_eq_true', decide_eq_false_iff_not]
  constructor
  · rintro ⟨⟨s, hs, heq⟩, hne⟩
    exact ⟨s, hs, heq, hne⟩
  · rintro ⟨s, hs, heq, hne⟩
    exact ⟨⟨s, hs, heq⟩, hne⟩

lemma normalScope_of_mem (h : scope ∈ normalizeScopes scopes) : NormalScope scope := by
  obtain ⟨s, -, rfl, hne⟩ := mem_normalizeScopes.mp h
  exact normalScope_normalize hne

lemma mem_normalizeScopes_of_normal (h : ∀ s ∈ scopes, NormalScope s) :
    scope ∈ normalizeScopes scopes ↔ scope ∈ scopes := by
  rw [mem_normalizeScopes]
  constructor
  · rintro ⟨s, hs, heq, -⟩
    rwa [← heq, (h s hs).1]
  · exact fun hscope => ⟨scope, hscope, h scope hscope⟩

lemma normalizeTokenScopes_of_ne_nil (h : normalizeScopes scopes ≠ []) :
    normalizeTokenScopes scopes = normalizeScopes scopes := if_neg h

lemma mem_normalizeTokenScopes_of_normal (hne : scopes ≠ []) (h : ∀ s ∈ scopes, NormalScope s) :
    scope ∈ normalizeTokenScopes scopes ↔ scope ∈ scopes := by
  rw [normalizeTokenScopes_of_ne_nil, mem_normalizeScopes_of_normal h]
  obtain ⟨s, rest, rfl⟩ := exists_cons_of_ne_nil hne
  exact ne_nil_of_mem ((mem_normalizeScopes_of_normal h).mpr mem_cons_self)

lemma hasScope_iff : principal.hasScope scope = true ↔
    scopeAdmin ∈ principal.scopes ∨ scope ∈ principal.scopes := by
  rw [AdminPrincipal.hasScope, any_eq_true]
  constructor
  · rintro ⟨value, hvalue, h⟩
    rw [Bool.or_eq_true, beq_iff_eq, beq_iff_eq] at h
    rcases h with rfl | rfl
    · exact .inl hvalue
    · exact .inr hvalue
  · rintro (h | h)
    · exact ⟨scopeAdmin, h, by simp⟩
    · exact ⟨scope, h, by simp⟩

end Normal

/-! ### Tokens and the principals they are created for -/

def AdminTokenRecord.principal (record : AdminTokenRecord) : AdminPrincipal :=
  .new record.view.scopes

structure Grant where
  principal : AdminPrincipal
  record : AdminTokenRecord
deriving DecidableEq, Repr

section Grants

variable (auth : AdminApiAuth) (crypto : AdminCrypto)

def apiStep (hashes : TokenHashes) (request : AdminEnv × AdminRequest) : TokenHashes :=
  (ApiServer.handle auth crypto request.1 request.2 hashes).hashes

def grantOf (hashes : TokenHashes) (request : AdminEnv × AdminRequest) : Option Grant :=
  match (auth.authorize crypto request.1.authEvent request.2 hashes).1,
    (ApiServer.handle auth crypto request.1 request.2 hashes).created with
  | .ok principal, some record => some ⟨principal, record⟩
  | _, _ => none

def grants (hashes : TokenHashes) (requests : List (AdminEnv × AdminRequest)) : List Grant :=
  (trace (apiStep auth crypto) (grantOf auth crypto) hashes requests).reduceOption

def AsksHeld (hashes : TokenHashes) (request : AdminEnv × AdminRequest) : Prop :=
  ∀ grant body, grantOf auth crypto hashes request = some grant →
    request.2.method = "POST" → request.2.path = "/v1/auth/tokens" →
    request.1.tokenBody = .parsed body →
    ∀ scope ∈ normalizeScopes body.scopes, grant.principal.hasScope scope = true

end Grants

inductive Reaches (grants : List Grant) : AdminPrincipal → Text → Prop where
  | held {principal scope} (h : principal.hasScope scope = true) : Reaches grants principal scope
  | granted {grant scope} (hmem : grant ∈ grants)
      (h : Reaches grants grant.record.principal scope) : Reaches grants grant.principal scope

/-! ### What is created -/

lemma TokenCall.creates_finish (event : ℕ → CommandEvent) (n : ℕ) (hashes : TokenHashes)
    (call : TokenCall) : (call.finish event n hashes).2.creates = call.creates := by
  induction n generalizing hashes call with
  | zero => rfl
  | succ n ih =>
    rw [finish, ih]
    exact (moves_next (event n) hashes call).creates_eq

variable {record : AdminTokenRecord} {env : AdminEnv}

lemma created_createToken {hashes : TokenHashes} {name failure : Text} {scopes : List Text}
    (h : (ApiServer.createToken env hashes name scopes failure).created = some record) :
    record.scopes = normalizeTokenScopes scopes := by
  have hcreates : (hashes.perform env.event
      (.create ⟨env.drawnId, env.drawnHash, name, scopes, env.now⟩)).2.creates =
      some (NewToken.record ⟨env.drawnId, env.drawnHash, name, scopes, env.now⟩) :=
    TokenCall.creates_finish env.event _ hashes _
  simp only [ApiServer.createToken] at h
  split at h
  · next hcall =>
    cases h
    rw [hcall] at hcreates
    rw [Option.some_inj.mp hcreates]
    rfl
  · cases h

lemma created_createAuthToken {auth : AdminApiAuth} {hashes : TokenHashes}
    (h : (ApiServer.createAuthToken auth env hashes).created = some record) :
    ∃ body scopes, env.tokenBody = .parsed body ∧ validateTokenScopes body.scopes = .ok scopes ∧
      record.scopes = normalizeTokenScopes scopes := by
  rw [ApiServer.createAuthToken] at h
  cases hbody : env.tokenBody.toExcept with
  | error response =>
    rw [hbody] at h
    cases h
  | ok body =>
    rw [hbody] at h
    simp only at h
    split_ifs at h
    cases hscopes : validateTokenScopes body.scopes with
    | error error =>
      rw [hscopes] at h
      cases h
    | ok scopes =>
      rw [hscopes] at h
      exact ⟨body, scopes, ApiBodyRead.toExcept_eq_ok.mp hbody, hscopes,
        created_createToken h⟩

lemma created_login {auth : AdminApiAuth} {hashes : TokenHashes}
    (h : (ApiServer.login auth env hashes).created = some record) :
    record.scopes = normalizeTokenScopes [scopeAdmin] := by
  rw [ApiServer.login] at h
  split at h
  · cases h
  · split_ifs at h
    split at h
    · cases h
    · simp only at h
      split at h
      · exact created_createToken h
      · cases h

lemma eq_of_endpoint_creates : ∀ arm ∈ arms,
    (arm.endpoint = .createAuthToken →
      (arm.method, arm.pattern) = ("POST", .exact "/v1/auth/tokens")) ∧
    (arm.endpoint = .login → (arm.method, arm.pattern) = ("POST", .exact "/v1/auth/login")) := by
  decide

lemma created_serve {auth : AdminApiAuth} {hashes : TokenHashes} {path : Text} {endpoint : Endpoint}
    (h : (ApiServer.serve auth env hashes path endpoint).created = some record) :
    (endpoint = .createAuthToken ∧
        (ApiServer.createAuthToken auth env hashes).created = some record) ∨
      (endpoint = .login ∧ (ApiServer.login auth env hashes).created = some record) := by
  cases endpoint with
  | createAuthToken => exact .inl ⟨rfl, h⟩
  | login => exact .inr ⟨rfl, h⟩
  | listAuthTokens =>
    simp only [ApiServer.serve, ApiServer.listAuthTokens] at h
    split_ifs at h
    split at h <;> cases h
  | revokeAuthToken =>
    simp only [ApiServer.serve, ApiServer.revokeAuthToken] at h
    split_ifs at h
    split at h <;> cases h
  | _ => cases h

lemma authorize_login {auth : AdminApiAuth} {crypto : AdminCrypto} {event : ℕ → CommandEvent}
    {req : AdminRequest} {hashes : TokenHashes} {principal : AdminPrincipal}
    (hmethod : req.method = "POST") (hpath : req.path = "/v1/auth/login")
    (h : (auth.authorize crypto event req hashes).1 = .ok principal) : principal = .admin := by
  have hpublic : isPublicAdminPath req.method req.path = true := by
    rw [hmethod, hpath]
    rfl
  rw [AdminApiAuth.authorize, AdminApiAuth.plan, if_pos hpublic] at h
  split_ifs at h
  exact (Except.ok.inj h).symm

lemma grantOf_cases {auth : AdminApiAuth} {crypto : AdminCrypto} {hashes : TokenHashes}
    {request : AdminEnv × AdminRequest} {grant : Grant}
    (h : grantOf auth crypto hashes request = some grant) :
    (request.2.method = "POST" ∧ request.2.path = "/v1/auth/tokens" ∧
        ∃ body scopes, request.1.tokenBody = .parsed body ∧
          validateTokenScopes body.scopes = .ok scopes ∧
          grant.record.scopes = normalizeTokenScopes scopes) ∨
      (grant.principal = .admin ∧ grant.record.scopes = normalizeTokenScopes [scopeAdmin]) := by
  rw [grantOf] at h
  split at h
  · next principal record hauthorized hcreated =>
    cases h
    simp only [ApiServer.handle, hauthorized] at hcreated
    split_ifs at hcreated
    simp only [ApiServer.respond] at hcreated
    cases hdispatch : dispatch request.2.method request.2.path with
    | none =>
      rw [hdispatch] at hcreated
      cases hcreated
    | some arm =>
      rw [hdispatch] at hcreated
      simp only at hcreated
      split at hcreated
      · cases hcreated
      · have harm := eq_of_endpoint_creates arm (dispatch_eq_some hdispatch).1
        rcases created_serve hcreated with ⟨hendpoint, hcreated⟩ | ⟨hendpoint, hcreated⟩
        · obtain ⟨hmethod, hpath⟩ := eq_of_exact hdispatch (harm.1 hendpoint)
          exact .inl ⟨hmethod, hpath, created_createAuthToken hcreated⟩
        · obtain ⟨hmethod, hpath⟩ := eq_of_exact hdispatch (harm.2 hendpoint)
          exact .inr ⟨authorize_login hmethod hpath hauthorized, created_login hcreated⟩
  · cases h

/-! ### Scopes that are handed on -/

section Scopes

variable {auth : AdminApiAuth} {crypto : AdminCrypto} {hashes : TokenHashes}

lemma hasScope_admin (scope : Text) : AdminPrincipal.admin.hasScope scope = true :=
  hasScope_iff.mpr (.inl mem_cons_self)

lemma validateTokenScopes_eq_ok {scopes asked : List Text}
    (h : validateTokenScopes asked = .ok scopes) :
    scopes = normalizeScopes asked ∧ scopes ≠ [] := by
  rw [validateTokenScopes] at h
  split_ifs at h with hne
  split at h
  · cases h
  · cases h
    exact ⟨rfl, hne⟩

lemma mem_scopes_iff {scopes asked : List Text} {scope : Text}
    (hscopes : validateTokenScopes asked = .ok scopes)
    (hrecord : record.scopes = normalizeTokenScopes scopes) :
    scope ∈ record.scopes ↔ scope ∈ normalizeScopes asked := by
  obtain ⟨rfl, hne⟩ := validateTokenScopes_eq_ok hscopes
  rw [hrecord, mem_normalizeTokenScopes_of_normal hne fun s hs => normalScope_of_mem hs]

lemma asksHeld_iff {request : AdminEnv × AdminRequest} :
    AsksHeld auth crypto hashes request ↔
      ∀ grant, grantOf auth crypto hashes request = some grant →
        ∀ scope ∈ grant.record.scopes, grant.principal.hasScope scope = true := by
  constructor
  · intro h grant hgrant scope hscope
    rcases grantOf_cases hgrant with ⟨hmethod, hpath, body, scopes, hbody, hvalid, hrecord⟩ |
        ⟨hadmin, -⟩
    · exact h grant body hgrant hmethod hpath hbody scope
        ((mem_scopes_iff hvalid hrecord).mp hscope)
    · rw [hadmin]
      exact hasScope_admin scope
  · intro h grant body hgrant hmethod hpath hbody scope hscope
    rcases grantOf_cases hgrant with ⟨-, -, body', scopes, hbody', hvalid, hrecord⟩ | ⟨hadmin, -⟩
    · rw [hbody] at hbody'
      cases hbody'
      exact h grant hgrant scope ((mem_scopes_iff hvalid hrecord).mpr hscope)
    · rw [hadmin]
      exact hasScope_admin scope

lemma normal_scopes_of_grantOf {request : AdminEnv × AdminRequest} {grant : Grant}
    (h : grantOf auth crypto hashes request = some grant) :
    grant.record.scopes ≠ [] ∧ ∀ scope ∈ grant.record.scopes, NormalScope scope := by
  rcases grantOf_cases h with ⟨-, -, body, scopes, -, hvalid, hrecord⟩ | ⟨-, hrecord⟩
  · obtain ⟨rfl, hne⟩ := validateTokenScopes_eq_ok hvalid
    have hmem : ∀ scope, scope ∈ grant.record.scopes ↔ scope ∈ normalizeScopes body.scopes :=
      fun scope => mem_scopes_iff hvalid hrecord
    obtain ⟨scope, hscope⟩ := exists_mem_of_ne_nil _ hne
    exact ⟨ne_nil_of_mem ((hmem scope).mpr hscope),
      fun scope hscope => normalScope_of_mem ((hmem scope).mp hscope)⟩
  · have hadmin : normalizeTokenScopes [scopeAdmin] = [scopeAdmin] := by decide
    rw [hrecord, hadmin]
    exact ⟨cons_ne_nil _ _, by
      simp only [mem_singleton, forall_eq]
      exact ⟨by decide, by decide⟩⟩

lemma mem_principal_scopes {scope : Text} (hne : record.scopes ≠ [])
    (hnormal : ∀ scope ∈ record.scopes, NormalScope scope) :
    scope ∈ record.principal.scopes ↔ scope ∈ record.scopes := by
  have hview : ∀ scope, scope ∈ record.view.scopes ↔ scope ∈ record.scopes :=
    fun scope => mem_normalizeTokenScopes_of_normal hne hnormal
  show scope ∈ normalizeScopes record.view.scopes ↔ _
  rw [mem_normalizeScopes_of_normal fun s hs => hnormal s ((hview s).mp hs), hview]

lemma Reaches.hasScope {grants : List Grant} {principal : AdminPrincipal} {scope : Text}
    (h : Reaches grants principal scope)
    (hnormal : ∀ grant ∈ grants, grant.record.scopes ≠ [] ∧
      ∀ scope ∈ grant.record.scopes, NormalScope scope)
    (hheld : ∀ grant ∈ grants, ∀ scope ∈ grant.record.scopes,
      grant.principal.hasScope scope = true) : principal.hasScope scope = true := by
  induction h with
  | held h => exact h
  | @granted grant scope hmem hreaches ih =>
    obtain ⟨hne, hnormal⟩ := hnormal grant hmem
    rw [hasScope_iff, mem_principal_scopes hne hnormal, mem_principal_scopes hne hnormal] at ih
    rcases ih with hadmin | hscope
    · -- a token that may do everything was created by someone who may
      have hall := hasScope_iff.mp (hheld grant hmem scopeAdmin hadmin)
      exact hasScope_iff.mpr (.inl (hall.elim id id))
    · exact hheld grant hmem scope hscope

lemma mem_grants_iff {requests : List (AdminEnv × AdminRequest)} {grant : Grant} :
    grant ∈ grants auth crypto hashes requests ↔
      some grant ∈ trace (apiStep auth crypto) (grantOf auth crypto) hashes requests :=
  reduceOption_mem_iff

lemma forall_grants_iff (requests : List (AdminEnv × AdminRequest)) :
    (∀ grant ∈ grants auth crypto hashes requests, ∀ scope ∈ grant.record.scopes,
        grant.principal.hasScope scope = true) ↔
      Along (apiStep auth crypto) (AsksHeld auth crypto) hashes requests := by
  have hasks : AsksHeld auth crypto = fun hashes request =>
      ∀ grant, grantOf auth crypto hashes request = some grant →
        ∀ scope ∈ grant.record.scopes, grant.principal.hasScope scope = true :=
    funext fun _ => funext fun _ => propext asksHeld_iff
  rw [hasks, ← forall_mem_trace_iff (g := grantOf auth crypto) (P := fun granted =>
    ∀ grant, granted = some grant →
      ∀ scope ∈ grant.record.scopes, grant.principal.hasScope scope = true)]
  constructor
  · rintro h - hmem grant rfl
    exact h grant (mem_grants_iff.mpr hmem)
  · exact fun h grant hmem => h (some grant) (mem_grants_iff.mp hmem) grant rfl

/-- **Scopes of tokens.**  In every run of requests the tokens have only scopes of the principals
they are created for, and no principal comes to have a scope by the tokens created for it, by
those created with them, and so on, exactly if every request that creates a token asks only
for scopes of its principal. -/
theorem scopes_never_grow_iff (auth : AdminApiAuth) (crypto : AdminCrypto) (hashes : TokenHashes)
    (requests : List (AdminEnv × AdminRequest)) :
    ((∀ grant ∈ grants auth crypto hashes requests, ∀ scope ∈ grant.record.scopes,
          grant.principal.hasScope scope = true) ∧
        ∀ principal scope, Reaches (grants auth crypto hashes requests) principal scope →
          principal.hasScope scope = true) ↔
      Along (apiStep auth crypto) (AsksHeld auth crypto) hashes requests := by
  rw [← forall_grants_iff]
  refine ⟨And.left, fun hheld => ⟨hheld, fun principal scope hreaches =>
    hreaches.hasScope (fun grant hmem => ?_) hheld⟩⟩
  obtain ⟨hashes', request, hgrant⟩ := exists_of_mem_trace (mem_grants_iff.mp hmem)
  exact normal_scopes_of_grantOf hgrant

end Scopes

/-- A token that may create tokens is used to create one that may do everything. -/
theorem tokens_write_creates_admin :
    let asks (scope id token : Text) : AdminEnv :=
      { sampleAdminEnv with
        drawnId := id, drawnHash := token, tokenBody := .parsed ⟨"ci".toList, [scope]⟩ }
    let requests := [(asks scopeTokensWrite "t1".toList "pxxl_1".toList,
        sampleAdminRequest "POST" "/v1/auth/tokens" "boot"),
      (asks scopeAdmin "t2".toList "pxxl_2".toList,
        sampleAdminRequest "POST" "/v1/auth/tokens" "pxxl_1")]
    (grants sampleAdminAuth sampleCrypto {} requests).map
        (fun grant => (grant.principal, grant.record.scopes)) =
        [(.admin, [scopeTokensWrite]), (⟨[scopeTokensWrite]⟩, [scopeAdmin])] ∧
      (⟨[scopeTokensWrite]⟩ : AdminPrincipal).hasScope scopeAdmin = false := by
  decide +kernel

end PxxlEdge
