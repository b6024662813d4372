import PxxlEdge.Common.CanonicalPath
import PxxlEdge.Proxy.ClientResponse
import PxxlEdge.Proxy.ForwardedPath

/-!
Redirects: to HTTPS, and from the `www` alias of a route to its domain.  The `Location` is
made from the canonical path, which is decoded, and a client parses it as a URI.
-/

namespace PxxlEdge

open RustStd Http Handlers List

inductive RedirectRule where
  | apex | https
deriving DecidableEq, Repr

section Rules

variable {G : Grammar} (W : World G) (conn : Connection) (req : Request G) (s : EdgeState)
  (adm : Admission)

def redirectScheme : RedirectRule → Text
  | .apex =>
    if adm.matched.route.rules.redirectHttpToHttps || adm.matched.route.rules.requireHttps then
      "https"
    else conn.scheme.asStr
  | .https => "https"

def redirectHost : RedirectRule → Text
  | .apex => adm.matched.route.domain
  | .https => normalizeDomain adm.host

def redirectQuery : RedirectRule → Option Text
  | .apex => req.uri.query
  | .https => none

def redirectLocation (rule : RedirectRule) : Text :=
  redirectScheme conn adm rule ++ "://" ++ redirectHost adm rule ++
    (adm.path ++ Uri.queryText (redirectQuery req rule))

def RuleApplies : RedirectRule → Prop
  | .apex =>
    redirectsToApex adm.matched.route.rules (normalizeDomain adm.host)
      adm.matched.route.domain = true
  | .https =>
    redirectsToApex adm.matched.route.rules (normalizeDomain adm.host)
        adm.matched.route.domain = false ∧
      adm.matched.route.rules.maintenanceMode = false ∧ conn.scheme = .http ∧
      adm.matched.route.rules.redirectHttpToHttps = true

structure RedirectedBy (rule : RedirectRule) : Prop extends Routed s req adm where
  noChallenge : serveAcmeHttp01Challenge W adm.path = none
  allowed : ∀ ip, remoteIp W conn req = some ip →
    (s.security.check (W.unixMs .security) (W.clock .security) (normalizeDomain adm.host) ip).1 =
      .allowed
  applies : RuleApplies conn adm rule

def httpsRejection : PolicyRejection :=
  ⟨308, "https required", "https_redirect", none, some (redirectLocation conn req adm .https)⟩

def redirectAnswer : RedirectRule → Response
  | .apex =>
    (responseWithBody 308 "text/plain; charset=utf-8" (.text [])).insertText (G := G) "location"
      (redirectLocation conn req adm .apex)
  | .https =>
    rejectionResponse W req (targetContext W conn req adm.host adm.path) adm.matched.route.rules
      (httpsRejection conn req adm)

end Rules

/-! ### The answer of the handler -/

section Handle

variable {G : Grammar} {W : World G} {conn : Connection} {req : Request G} {s : EdgeState}
  {adm : Admission} {rule : RedirectRule}

lemma passes_readTarget (h : Routed s req adm) :
    Passes (readTarget W conn req) s (adm.host, adm.path) s := by
  rw [readTarget, h.path]
  dsimp only
  rw [h.host]
  exact .pure _ s

lemma passes_serveAcme {ctx : ProxyRequestContext}
    (h : serveAcmeHttp01Challenge W ctx.path = none) : Passes (serveAcme W ctx) s () s := by
  rw [serveAcme, h]
  exact .pure () s

lemma passes_checkSecurity (ctx : ProxyRequestContext)
    (h : ∀ ip, ctx.remoteIp = some ip →
      (s.security.check (W.unixMs .security) (W.clock .security) ctx.domain ip).1 = .allowed) :
    ∃ s', Passes (checkSecurity W ctx) s () s' ∧ s'.table = s.table := by
  rw [checkSecurity]
  cases hip : ctx.remoteIp with
  | none => exact ⟨s, .pure () s, rfl⟩
  | some ip =>
    set after : EdgeState :=
      { s with
        security :=
          (s.security.check (W.unixMs .security) (W.clock .security) ctx.domain ip).2 }
    refine ⟨after, .bind (.update _ s) ?_, rfl⟩
    dsimp only
    rw [h ip hip]
    exact .pure () after

lemma passes_findRoute {ctx : ProxyRequestContext} {host : Text} {matched : RouteMatch}
    (h : find s.table host ctx.path = some matched) :
    Passes (findRoute W host ctx) s matched s := by
  refine .bind (.get s) ?_
  rw [h]
  exact .pure matched s

lemma redirectWwwToApex_of_applies
    (h : redirectsToApex adm.matched.route.rules (normalizeDomain adm.host)
      adm.matched.route.domain = true) :
    redirectWwwToApex W req (targetContext W conn req adm.host adm.path) adm.matched =
      refuseWith W (targetContext W conn req adm.host adm.path)
        (redirectAnswer W conn req adm .apex) := by
  rw [redirectWwwToApex]
  refine (if_pos h).trans ?_
  rw [redirectAnswer, redirectLocation, ← append_assoc, redirectQuery, redirectHost]
  cases req.uri.query <;> rfl

lemma redirectWwwToApex_of_stays
    (h : redirectsToApex adm.matched.route.rules (normalizeDomain adm.host)
      adm.matched.route.domain = false) :
    redirectWwwToApex W req (targetContext W conn req adm.host adm.path) adm.matched =
      pure () := by
  rw [redirectWwwToApex]
  exact if_neg (by rw [Bool.not_eq_true]; exact h)

lemma checkRules_answers (hmaintenance : adm.matched.route.rules.maintenanceMode = false)
    (hscheme : conn.scheme = .http) (hhttps : adm.matched.route.rules.redirectHttpToHttps = true) :
    (checkRules W req (targetContext W conn req adm.host adm.path) adm.matched.route.rules
        s).result =
      .error (attachRequestIdHeader W (redirectAnswer W conn req adm .https)) := by
  have hlocation : redirectLocation conn req adm .https =
      "https://" ++ normalizeDomain adm.host ++ adm.path := by
    rw [redirectLocation, redirectQuery, Uri.queryText, append_nil]
    rfl
  have hmet : firstMet (accessChecks req adm.matched.route.rules
      (targetContext W conn req adm.host adm.path)) = some (httpsRejection conn req adm) := by
    rw [httpsRejection, hlocation, firstMet, accessChecks, hmaintenance, hhttps,
      find?_cons_of_neg (by simp),
      find?_cons_of_pos (by rw [Bool.and_true]; exact beq_iff_eq.mpr hscheme)]
    rfl
  have hevaluate : s.policy.evaluate W req adm.matched.route.rules
      (targetContext W conn req adm.host adm.path) =
        (some (httpsRejection conn req adm), s.policy) := by
    rw [PolicyEnforcer.evaluate, hmet]
  rw [checkRules, (Passes.update _ s).result_bind]
  dsimp only
  rw [hevaluate]
  rfl

lemma handle_redirected (h : RedirectedBy W conn req s adm rule) :
    (handle W conn req s).result =
      .error (attachRequestIdHeader W (redirectAnswer W conn req adm rule)) := by
  refine result_bind_of_error ?_ _
  obtain ⟨s', hsecurity, htable⟩ :=
    passes_checkSecurity (targetContext W conn req adm.host adm.path) h.allowed
  rw [admitRequest, (passes_readTarget h.toRouted).result_bind]
  dsimp only
  rw [(passes_serveAcme h.noChallenge).result_bind, hsecurity.result_bind,
    (passes_findRoute (htable ▸ h.matched)).result_bind]
  cases rule with
  | apex =>
    rw [redirectWwwToApex_of_applies h.applies]
    exact result_bind_of_error rfl _
  | https =>
    obtain ⟨hstays, hmaintenance, hscheme, hhttps⟩ := h.applies
    rw [redirectWwwToApex_of_stays hstays, (Passes.pure () s').result_bind]
    exact result_bind_of_error (checkRules_answers hmaintenance hscheme hhttps) _

lemma getAll_applyResponseRules {rules : DomainRules} {n : Text} (hn : n ∉ edgeWrittenNames)
    (hpolicy : n ≠ permissionsPolicy)
    (hown : n ∉ (legalHeaders G rules.responseHeaders).map Prod.fst) (h : HeaderMap)
    (requestOrigin : Option HeaderValue) :
    (applyResponseRules G h rules requestOrigin).getAll n = h.getAll n := by
  have hsecurity : HeaderMap.lastValue (securityWrites rules) n = none :=
    HeaderMap.lastValue_eq_none.mpr fun hmem =>
      hn (mem_append_left _ (mem_securityWrites hmem))
  have hcors : HeaderMap.lastValue (corsWrites G rules requestOrigin) n = none :=
    HeaderMap.lastValue_eq_none.mpr fun hmem =>
      hn (mem_append_right _ (mem_corsWrites hmem))
  rw [applyResponseRules, applyCors_eq_insertAll, HeaderMap.getAll_insertAll, hcors,
    Option.elim_none, HeaderMap.getAll_insertAll, HeaderMap.lastValue_eq_none.mpr hown,
    Option.elim_none]
  exact (getAll_secured rules h hpolicy).trans (by rw [hsecurity, Option.elim_none])

lemma get_location
    (hown : rule = .https →
      "location".toList ∉ (legalHeaders G adm.matched.route.rules.responseHeaders).map Prod.fst) :
    (attachRequestIdHeader W (redirectAnswer W conn req adm rule)).headers.get "location" =
      G.parseValue (redirectLocation conn req adm rule) := by
  have hinsert : ∀ h : HeaderMap, h.getAll "location" = [] →
      ((insertText G h "location" (redirectLocation conn req adm rule)).getAll "location").head? =
        G.parseValue (redirectLocation conn req adm rule) := by
    intro h hnone
    rw [getAll_insertText, if_pos rfl, hnone]
    cases G.parseValue (redirectLocation conn req adm rule) <;> rfl
  have hattach : ∀ r : Response, (attachRequestIdHeader W r).headers.getAll "location" =
      r.headers.getAll "location" := fun r =>
    (getAll_insertText r.headers Header.requestId W.requestId "location").trans
      (if_neg (by decide))
  rw [HeaderMap.get, hattach]
  cases rule with
  | apex => exact hinsert _ rfl
  | https =>
    have hpage : ∀ status message domain path,
        (errorResponse W status message domain path).headers.getAll "location" = [] := by
      intro status message domain path
      rw [errorResponse, errorBody]
      split <;> rfl
    have hrules := getAll_applyResponseRules (n := "location") (by decide)
      (by decide) (hown rfl)
    rw [redirectAnswer, rejectionResponse]
    exact (congrArg List.head? (hrules _ _)).trans (hinsert _ (hpage _ _ _ _))

end Handle

/-! ### Following -/

section Follow

variable {G : Grammar} {W : World G} {conn : Connection} {req : Request G} {s : EdgeState}
  {adm : Admission} {rule : RedirectRule}

def FollowsTo (r : Response) (req : Request G) : Prop :=
  ∃ uri : Uri G, ((r.headers.get "location").bind Text.fromUtf8).bind (Uri.parse G) = some uri ∧
    canonicalizePath uri.path = canonicalizePath req.uri.path ∧ uri.query = req.uri.query

def StandsInUri (G : Grammar) (scheme host : Text) : Prop :=
  ∀ path : Text, path.head? = some '/' →
    G.splitOrigin (scheme ++ "://" ++ host ++ path) = some (scheme, host, path)

lemma parse_redirectLocation (hslash : adm.path.head? = some '/')
    (hhost : StandsInUri G (redirectScheme conn adm rule) (redirectHost adm rule)) :
    Uri.parse G (redirectLocation conn req adm rule) =
      Uri.parsePathAndQuery G (some (redirectScheme conn adm rule)) (some (redirectHost adm rule))
        (adm.path ++ Uri.queryText (redirectQuery req rule)) := by
  have hscheme : (redirectScheme conn adm rule).head? = some 'h' := by
    rw [redirectScheme.eq_def]
    cases rule with
    | https => rfl
    | apex =>
      dsimp only
      split
      · rfl
      · cases conn.scheme <;> rfl
  have hslash' : (adm.path ++ Uri.queryText (redirectQuery req rule)).head? = some '/' := by
    rw [head?_append, hslash]
    rfl
  have hhead : (redirectLocation conn req adm rule).head? ≠ some '/' := by
    rw [redirectLocation, append_assoc, append_assoc, head?_append, hscheme,
      Option.some_or]
    decide
  rw [Uri.parse, if_neg hhead, redirectLocation, hhost _ hslash', Option.bind_eq_bind,
    Option.bind_some]
  dsimp only
  rw [if_pos hslash']

lemma pathPart_append_queryText (c : Text) (query : Option Text) :
    Uri.pathPart (c ++ Uri.queryText query) = Uri.pathPart c := by
  simp only [Uri.pathPart]
  induction c with
  | nil => cases query <;> rfl
  | cons x c ih => rw [cons_append, takeWhile_cons, takeWhile_cons, ih]

lemma plain_of_canonicalizePath_pathPart {c : Text}
    (h : canonicalizePath (Uri.pathPart c) = .ok c) :
    Uri.pathPart c = c ∧ '%' ∉ c := by
  have hwhole : Uri.pathPart c = c := by
    have happend : Uri.pathPart c ++ c.dropWhile Uri.inPath = c := takeWhile_append_dropWhile
    cases hdrop : c.dropWhile Uri.inPath with
    | nil => rw [hdrop, append_nil] at happend; exact happend
    | cons x rest =>
      -- the delimiter is lost, and no pass brings it back
      have hx : Uri.inPath x = false := by
        have hhead := head?_dropWhile_not Uri.inPath c
        rw [hdrop] at hhead
        simpa using hhead
      have hne : x ≠ '/' := by
        rintro rfl
        exact absurd hx (by decide)
      rw [hdrop] at happend
      have hlonger : canonicalizePath (Uri.pathPart c) = .ok (Uri.pathPart c ++ x :: rest) :=
        h.trans (congrArg Except.ok happend.symm)
      exact absurd hlonger (canonicalizePath_ne_append hne)
  refine ⟨hwhole, fun hmem => ?_⟩
  rw [hwhole] at h
  exact lt_irrefl _ (len_solid_lt h hmem)

end Follow

/-- **Following a redirect.**  A request that one of the two rules applies to is answered with a
redirect.  A client that follows it comes back with the same canonical path and the same query
exactly if the location is legal in a header, every character of the canonical path can stand in
the path of a URI and none is a percent sign, and, for the redirect to HTTPS, there is no query. -/
theorem redirect_followed_iff {G : Grammar} (W : World G) (conn : Connection) (req : Request G)
    (s : EdgeState) (adm : Admission) (rule : RedirectRule)
    (h : RedirectedBy W conn req s adm rule)
    (hhost : StandsInUri G (redirectScheme conn adm rule) (redirectHost adm rule))
    (hown : rule = .https →
      "location".toList ∉ (legalHeaders G adm.matched.route.rules.responseHeaders).map Prod.fst) :
    ∃ r, (handle W conn req s).result = .error r ∧
      (FollowsTo r req ↔
        (G.parseValue (redirectLocation conn req adm rule)).isSome = true ∧
          PathLegal G adm.path ∧ '%' ∉ adm.path ∧ (rule = .https → req.uri.query = none)) := by
  refine ⟨_, handle_redirected h, ?_⟩
  have hslash := canonicalizePath_slash h.path
  have hquery : ∀ q ∈ redirectQuery req rule, ∀ x ∈ q, x ≠ '#' ∧ G.queryChar x = true := by
    cases rule with
    | apex => exact req.uri.query_legal
    | https => rintro q ⟨⟩
  rw [FollowsTo, get_location hown, h.path]
  cases hvalue : G.parseValue (redirectLocation conn req adm rule) with
  | none => simp
  | some v =>
    have hbytes : Text.fromUtf8 v = some (redirectLocation conn req adm rule) := by
      rw [Grammar.parseValue] at hvalue
      split at hvalue
      · cases hvalue
        exact Text.fromUtf8_asBytes _
      · cases hvalue
    rw [Option.bind_some, hbytes, Option.bind_some, parse_redirectLocation hslash hhost]
    -- a plain path and its query survive the parse
    have hparse : PathLegal G adm.path → ∃ uri : Uri G,
        Uri.parsePathAndQuery G (some (redirectScheme conn adm rule))
            (some (redirectHost adm rule)) (adm.path ++ Uri.queryText (redirectQuery req rule)) =
          some uri ∧ uri.path = adm.path ∧ uri.query = redirectQuery req rule := by
      intro hlegal
      obtain ⟨uri, huri, -, -, hpath, hquery⟩ := Uri.parsePathAndQuery_append (G := G)
        (some (redirectScheme conn adm rule)) (some (redirectHost adm rule)) hlegal hquery
      exact ⟨uri, huri, hpath, hquery⟩
    constructor
    · rintro ⟨uri, huri, hpath, hsame⟩
      have hread := (Uri.parts_of_parsePathAndQuery huri).2.2.1
      rw [pathPart_append_queryText] at hread
      rw [hread] at hpath
      obtain ⟨hwhole, hpercent⟩ := plain_of_canonicalizePath_pathPart hpath
      have hlegal : PathLegal G adm.path := hread.trans hwhole ▸ uri.path_legal
      refine ⟨rfl, hlegal, hpercent, ?_⟩
      rintro rfl
      obtain ⟨uri', huri', -, hquery'⟩ := hparse hlegal
      obtain rfl : uri = uri' := Option.some.inj (huri.symm.trans huri')
      exact hsame.symm.trans hquery'
    · rintro ⟨-, hlegal, hpercent, hnone⟩
      obtain ⟨uri, huri, hpath, hquery'⟩ := hparse hlegal
      refine ⟨uri, huri, ?_, hquery'.trans ?_⟩
      · rw [hpath]
        exact canonicalizePath_of_isCanonical (isCanonical_of_canonicalizePath h.path) hpercent
      · cases rule with
        | apex => rfl
        | https => exact (hnone rfl).symm

/-! ### Redirects of the sample edge -/

section Sample

/-- A redirect to HTTPS of a request for the root is followed to the root. -/
theorem redirect_followed_iff_root :
    ∃ r, (handle sampleWorld sampleConnection (rootRequest [])
        (sampleState { redirectHttpToHttps := true } [])).result = .error r ∧
      FollowsTo r (rootRequest []) := by
  have hrouted := routed_sample { redirectHttpToHttps := true } [] []
  have hredirected : RedirectedBy sampleWorld sampleConnection (rootRequest [])
      (sampleState { redirectHttpToHttps := true } [])
      ⟨"a.io", "/", sampleMatch { redirectHttpToHttps := true } []⟩ .https :=
    { hrouted with
      noChallenge := by decide
      allowed := fun ip hip => by
        obtain rfl : IpAddr.v4 ⟨9, 9, 9, 9⟩ = ip := Option.some.inj hip
        decide +kernel
      applies := ⟨by decide +kernel, by decide +kernel, rfl, by decide +kernel⟩ }
  have hhost : StandsInUri .http1 "https" (normalizeDomain "a.io") := by
    intro path hpath
    obtain ⟨tail, rfl⟩ := head?_eq_some_iff.mp hpath
    rw [show normalizeDomain "a.io" = "a.io".toList by decide]
    rfl
  obtain ⟨r, hr, hiff⟩ := redirect_followed_iff sampleWorld sampleConnection (rootRequest []) _ _ _
    hredirected hhost (fun _ => by decide)
  refine ⟨r, hr, hiff.mpr ⟨by decide, ?_, by decide, fun _ => rfl⟩⟩
  exact (rootRequest []).uri.path_legal

def redirectedTo (rules : DomainRules) (host target : Text) : Option (Text × Option Text) := do
  let uri ← Uri.parse .http1 target
  let req : Request .http1 :=
    { method := "GET", uri, headers := ⟨[(Header.host, .fromStatic host)]⟩ }
  match (handle sampleWorld sampleConnection req (sampleState rules [])).result with
  | .ok _ => none
  | .error r => do
      let location ← (r.headers.get "location").bind Text.fromUtf8
      let uri ← Uri.parse .http1 location
      return (uri.path, uri.query)

/-- The redirect to HTTPS loses the query, and the redirect to the apex cuts a path at an encoded
question mark. -/
theorem redirect_changes_target :
    redirectedTo { redirectHttpToHttps := true } "a.io" "/a?b=1" = some ("/a".toList, none) ∧
      canonicalizePath "/a%3Fb" = .ok "/a?b".toList ∧
      redirectedTo { redirectWwwToApex := true, wwwAlias := true } "www.a.io" "/a%3Fb" =
        some ("/a".toList, some "b".toList) := by
  decide +kernel

end Sample

end PxxlEdge
