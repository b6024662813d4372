import PxxlEdge.Proxy.ClientResponse

/-!
What of an upstream's answer and of a route's headers reaches the client.
-/

namespace PxxlEdge

open RustStd Http Handlers List HeaderMap

variable {G : Grammar} {W : World G} {conn : Connection} {req : Request G} {s : EdgeState}
  {r : Response} {adm : Admission} {upstream : Upstream} {a : BufferedResponse}

/-! ### Cookies -/

def setCookie : Text := "set-cookie"

def stickyValue (G : Grammar) (adm : Admission) (upstream : Upstream) : Option HeaderValue :=
  HeaderMap.lastValue (stickyWrites G adm.matched.middleware.stickySessions upstream) setCookie

def responseWithoutSticky (W : World G) (req : Request G) (adm : Admission)
    (a : BufferedResponse) : HeaderMap :=
  finishedHeaders W req adm a (middlewareHeaders W req adm a)

def StrippedEarly (W : World G) (req : Request G) (adm : Admission) (a : BufferedResponse)
    (n : Text) : Prop :=
  buffers adm.matched = false ∧ upgrades W req adm a = false ∧
    (n ∈ strippedResponseHeaders ∨ n ∈ nominated G (a.headers.getAll Header.connection))

instance (n : Text) : Decidable (StrippedEarly W req adm a n) :=
  inferInstanceAs (Decidable (_ ∧ _ ∧ _))

lemma getAll_receivedHeaders (n : Text) :
    (receivedHeaders W req adm a).getAll n =
      if StrippedEarly W req adm a n then [] else a.headers.getAll n := by
  rw [receivedHeaders]
  cases hbuffers : buffers adm.matched with
  | true => rw [Bool.true_or, if_pos rfl, if_neg (by simp [StrippedEarly, hbuffers])]
  | false =>
    cases hup : upgrades W req adm a with
    | true => rw [Bool.false_or, if_pos rfl, if_neg (by simp [StrippedEarly, hup])]
    | false =>
      rw [Bool.false_or, if_neg (by decide), stripHopByHopResponseHeaders,
        getAll_stripHopByHop]
      exact if_congr (by simp [StrippedEarly, hbuffers, hup]) rfl rfl

variable {n : Text} {v : HeaderValue}

lemma getAll_unstripped_of_ne (hn : n ≠ setCookie) :
    (unstrippedHeaders W req adm upstream a).getAll n =
      (middlewareHeaders W req adm a).getAll n := by
  have hsticky : HeaderMap.lastValue (stickyWrites G adm.matched.middleware.stickySessions upstream)
      n = none :=
    lastValue_eq_none.mpr fun hmem => hn (mem_stickyWrites hmem)
  rw [getAll_unstrippedHeaders, hsticky, Option.elim_none]

lemma getAll_of_ne_setCookie (h : AnswerOf W req s r adm upstream a) (hn : n ≠ setCookie) :
    r.headers.getAll n = (responseWithoutSticky W req adm a).getAll n := by
  rw [h.headers, getAll_clientResponseHeaders, getAll_unstripped_of_ne hn, responseWithoutSticky,
    getAll_finishedHeaders getAll_connection_middleware]

section Unnamed

variable (hname : setCookie ∉ (legalHeaders G adm.matched.route.rules.responseHeaders).map Prod.fst)

include hname

lemma getAll_middleware_setCookie :
    (middlewareHeaders W req adm a).getAll setCookie =
      if StrippedEarly W req adm a setCookie then [] else a.headers.getAll setCookie := by
  rw [getAll_middleware_plain (by decide) (by decide),
    lastValue_eq_none.mpr hname, Option.elim_none, getAll_receivedHeaders]

lemma getAll_setCookie (h : AnswerOf W req s r adm upstream a) :
    r.headers.getAll setCookie =
      if Stripped W req adm a setCookie then []
      else (stickyValue G adm upstream).elim
        (if StrippedEarly W req adm a setCookie then [] else a.headers.getAll setCookie)
        fun c => [c] := by
  rw [h.headers, getAll_clientResponseHeaders, if_neg (by decide), getAll_unstrippedHeaders,
    getAll_middleware_setCookie hname]
  rfl

lemma getAll_responseWithoutSticky :
    (responseWithoutSticky W req adm a).getAll setCookie =
      if Stripped W req adm a setCookie then []
      else if StrippedEarly W req adm a setCookie then [] else a.headers.getAll setCookie := by
  rw [responseWithoutSticky, getAll_finishedHeaders getAll_connection_middleware,
    if_neg (by decide), getAll_middleware_setCookie hname]

lemma mem_or_sticky_of_mem (h : AnswerOf W req s r adm upstream a)
    (hv : v ∈ r.headers.getAll n) :
    v ∈ (responseWithoutSticky W req adm a).getAll n ∨
      n = setCookie ∧ stickyValue G adm upstream = some v := by
  have hsession : ∀ values : List HeaderValue,
      v ∈ (stickyValue G adm upstream).elim values (fun c => [c]) →
        v ∈ values ∨ stickyValue G adm upstream = some v := by
    intro values hv
    cases hsticky : stickyValue G adm upstream with
    | none =>
      rw [hsticky] at hv
      exact .inl hv
    | some c =>
      rw [hsticky] at hv
      exact .inr (congrArg some (mem_singleton.mp hv).symm)
  by_cases hn : n = setCookie
  · subst hn
    rw [getAll_setCookie hname h] at hv
    rw [getAll_responseWithoutSticky hname]
    by_cases hstripped : Stripped W req adm a setCookie
    · rw [if_pos hstripped] at hv
      cases hv
    · rw [if_neg hstripped] at hv ⊢
      exact (hsession _ hv).imp_right fun hv => ⟨rfl, hv⟩
  · rw [getAll_of_ne_setCookie h hn] at hv
    exact .inl hv

def CookiesKept (W : World G) (req : Request G) (adm : Admission) (upstream : Upstream)
    (a : BufferedResponse) : Prop :=
  ¬ Stripped W req adm a setCookie ∧
    match stickyValue G adm upstream with
    | some c => ∀ v ∈ a.headers.getAll setCookie, v = c
    | none => ¬ StrippedEarly W req adm a setCookie

def OnlyAddsSticky (W : World G) (req : Request G) (adm : Admission) (upstream : Upstream)
    (a : BufferedResponse) (r : Response) : Prop :=
  ∀ n v, (v ∈ (responseWithoutSticky W req adm a).getAll n → v ∈ r.headers.getAll n) ∧
    (v ∈ r.headers.getAll n → v ∈ (responseWithoutSticky W req adm a).getAll n ∨
      n = setCookie ∧ stickyValue G adm upstream = some v)

lemma onlyAddsSticky_of_kept (h : AnswerOf W req s r adm upstream a)
    (hkept : ∀ v ∈ a.headers.getAll setCookie, v ∈ r.headers.getAll setCookie) :
    OnlyAddsSticky W req adm upstream a r := by
  refine fun n v => ⟨fun hv => ?_, mem_or_sticky_of_mem hname h⟩
  by_cases hn : n = setCookie
  · subst hn
    rw [getAll_responseWithoutSticky hname] at hv
    split_ifs at hv
    · cases hv
    · cases hv
    · exact hkept v hv
  · rwa [getAll_of_ne_setCookie h hn]

end Unnamed

/-- **All cookies of an answer reach the client, and the sticky session only adds its own,
exactly if the answer sets none**, or the sticky session is not written and no `Connection`
header nominates them. -/
theorem set_cookies_kept_iff (h : AnswerOf W req s r adm upstream a)
    (hname : setCookie ∉ (legalHeaders G adm.matched.route.rules.responseHeaders).map Prod.fst) :
    ((∀ v ∈ a.headers.getAll setCookie, v ∈ r.headers.getAll setCookie) ∧
      OnlyAddsSticky W req adm upstream a r) ↔
      a.headers.getAll setCookie = [] ∨ CookiesKept W req adm upstream a := by
  rw [and_iff_left_of_imp (onlyAddsSticky_of_kept hname h), CookiesKept, getAll_setCookie hname h,
    eq_nil_iff_forall_not_mem]
  by_cases hstripped : Stripped W req adm a setCookie
  · simp [hstripped]
  · rw [if_neg hstripped]
    cases stickyValue G adm upstream with
    | some c =>
      simp only [Option.elim_some, mem_singleton, hstripped, not_false_eq_true, true_and]
      exact ⟨.inr, fun h v hv => h.elim (fun hnone => absurd hv (hnone v)) fun hall => hall v hv⟩
    | none =>
      by_cases hearly : StrippedEarly W req adm a setCookie
      · simp [hearly]
      · simp [hearly, hstripped]

lemma not_stripped_of_connection (hn : n ∉ strippedResponseHeaders)
    (hentry : HeaderMap.lastValue (legalHeaders G adm.matched.route.rules.responseHeaders)
      Header.connection = none)
    (hconnection : a.headers.getAll Header.connection = []) :
    ¬ Stripped W req adm a n ∧ ¬ StrippedEarly W req adm a n := by
  have hnone : nominated G [] = [] := rfl
  have hvalues : connectionValues W req adm a = [] := by
    rw [connectionValues, hentry, Option.elim_none, getAll_receivedHeaders, hconnection, ite_self]
  constructor
  · simp [Stripped, hn, hvalues, hnone]
  · simp [StrippedEarly, hn, hconnection, hnone]

lemma headers_of_gives {status : ℕ} {headers : HeaderMap} {frames : List Frame}
    (hanswer : ∀ attempt message, W.answer attempt message = .ok (status, headers, frames))
    (h : Gives W upstream a) : a.headers = headers := by
  obtain ⟨attempt, message, frames', -, hgiven⟩ := h
  rw [hanswer] at hgiven
  exact (congrArg (fun t : ℕ × HeaderMap × List Frame => t.2.1) (Except.ok.inj hgiven)).symm

lemma exists_answerOf (hr : Routed s req adm) {p : Response → Bool}
    (h : ((handle W conn req s).result.toOption.any p) = true) :
    ∃ r upstream a, (handle W conn req s).result = .ok r ∧ p r = true ∧
      AnswerOf W req s r adm upstream a := by
  obtain ⟨r, hok, hp⟩ := exists_ok_of_any h
  obtain ⟨adm', upstream, a, hanswer⟩ := handle_answerOf hok
  obtain rfl : adm = adm' := hr.unique hanswer.routed
  exact ⟨r, upstream, a, hok, hp, hanswer⟩

lemma exists_answerOf_sample {W : World .http1} {rules : DomainRules} {p : Response → Bool}
    (h : ((handle W sampleConnection (rootRequest [])
      (sampleState rules [])).result.toOption.any p) = true) :
    ∃ r upstream a, (handle W sampleConnection (rootRequest []) (sampleState rules [])).result =
        .ok r ∧ p r = true ∧
      AnswerOf W (rootRequest []) (sampleState rules []) r
        ⟨"a.io", "/", sampleMatch rules []⟩ upstream a :=
  exists_answerOf (routed_sample rules [] []) h

def cookieWorld : World .http1 :=
  { sampleWorld with answer := fun _ _ => .ok (200, ⟨[(setCookie, .fromStatic "sid=1")]⟩, []) }

/-- Without a sticky session the cookie is kept. -/
theorem set_cookies_kept_plain :
    ∃ r, (handle cookieWorld sampleConnection (rootRequest []) (sampleState {} [])).result =
        .ok r ∧ .fromStatic "sid=1" ∈ r.headers.getAll setCookie := by
  have hok : ((handle cookieWorld sampleConnection (rootRequest [])
      (sampleState {} [])).result.toOption.any fun _ => true) = true := by
    decide +kernel
  obtain ⟨r, upstream, a, hr, -, h⟩ := exists_answerOf_sample hok
  have hheaders := headers_of_gives (fun _ _ => rfl) h.given
  have hcookies : a.headers.getAll setCookie = [.fromStatic "sid=1"] := by
    rw [hheaders]
    rfl
  have hconnection : a.headers.getAll Header.connection = [] := by
    rw [hheaders]
    rfl
  have hkept := (set_cookies_kept_iff h not_mem_nil).mpr
    (.inr (not_stripped_of_connection (by decide) (by rfl) hconnection))
  exact ⟨r, hr, hkept.1 _ (by simp [hcookies])⟩

def stickyRules : DomainRules := { stickySessions := { enabled := true } }

/-- With a sticky session the cookie of the application does not reach the client. -/
theorem sticky_session_drops_cookie :
    ∃ r adm upstream a, AnswerOf cookieWorld (rootRequest []) (sampleState stickyRules []) r adm
        upstream a ∧
      setCookie ∉ (legalHeaders .http1 adm.matched.route.rules.responseHeaders).map Prod.fst ∧
      ∃ v ∈ a.headers.getAll setCookie, v ∉ r.headers.getAll setCookie := by
  have hdropped : ((handle cookieWorld sampleConnection (rootRequest [])
      (sampleState stickyRules [])).result.toOption.any fun r =>
        !(r.headers.getAll setCookie).contains (.fromStatic "sid=1")) = true := by
    decide +kernel
  obtain ⟨r, upstream, a, -, hmissing, h⟩ := exists_answerOf_sample hdropped
  refine ⟨r, _, upstream, a, h, not_mem_nil, .fromStatic "sid=1", ?_, ?_⟩
  · rw [headers_of_gives (fun _ _ => rfl) h.given]
    exact mem_singleton_self _
  · simpa using hmissing

/-! ### The headers of a route -/

def Required (G : Grammar) (rules : DomainRules) (n : Text) (v : HeaderValue) : Prop :=
  ((n, v) ∈ legalHeaders G rules.responseHeaders ∧ n ∉ strippedResponseHeaders) ∨
    ((n, v) ∈ securityWrites rules ∧ n ∉ (legalHeaders G rules.responseHeaders).map Prod.fst)

def Survives (W : World G) (req : Request G) (adm : Admission) (upstream : Upstream)
    (a : BufferedResponse) (n : Text) (v : HeaderValue) : Prop :=
  if n = Header.requestId then v = Text.asBytes W.requestId
  else ¬ Stripped W req adm a n ∧
    ¬ (compresses W req adm a = true ∧ n = Header.contentLength) ∧
    HeaderMap.lastValue (routeWrites req adm ++ lateWrites W req adm upstream a) n = some v

lemma getAll_unstripped_contentLength (hzip : compresses W req adm a = true) :
    (unstrippedHeaders W req adm upstream a).getAll Header.contentLength = [] := by
  obtain ⟨hbuffers, hbody⟩ := Bool.and_eq_true_iff.mp hzip
  rw [getAll_unstripped_of_ne (by decide), middlewareHeaders, if_pos hbuffers,
    headers_applyResponseMiddleware, if_pos hbody, compressedHeaders, insertStaticHeader,
    getAll_insert, if_neg (by decide), getAll_remove, if_pos rfl]

lemma getAll_eq_singleton_iff (h : AnswerOf W req s r adm upstream a)
    (hwritten : HeaderMap.lastValue (routeWrites req adm) n ≠ none) :
    r.headers.getAll n = [v] ↔ Survives W req adm upstream a n v := by
  rw [h.headers, getAll_clientResponseHeaders, Survives]
  by_cases hid : n = Header.requestId
  · rw [if_pos hid, if_pos hid, singleton_inj, eq_comm]
  · rw [if_neg hid, if_neg hid]
    by_cases hstripped : Stripped W req adm a n
    · simp [hstripped]
    · rw [if_neg hstripped]
      by_cases hlength : compresses W req adm a = true ∧ n = Header.contentLength
      · obtain ⟨hzip, rfl⟩ := hlength
        simp [getAll_unstripped_contentLength hzip, hzip]
      · have hall : HeaderMap.lastValue (routeWrites req adm ++ lateWrites W req adm upstream a) n ≠
            none := by
          rw [lastValue_append, ne_eq, Option.or_eq_none_iff, not_and]
          exact fun _ => hwritten
        obtain ⟨v', hv'⟩ := Option.ne_none_iff_exists'.mp hall
        rw [getAll_unstripped_of_some hv' hwritten hlength, hv', singleton_inj]
        simp [hstripped, hlength]

lemma Required.written (h : Required G adm.matched.route.rules n v) :
    HeaderMap.lastValue (routeWrites req adm) n ≠ none := by
  rw [ne_eq, lastValue_eq_none, not_not, routeWrites, ruleWrites]
  simp only [map_append, mem_append]
  rcases h with ⟨hentry, -⟩ | ⟨hsecurity, -⟩
  · exact .inr (.inl (.inl (mem_map_of_mem hentry)))
  · exact .inl (mem_map_of_mem hsecurity)

def lateNames : List Text := ["content-encoding", "vary", setCookie, Header.contentLength]

lemma lastValue_lateWrites (hn : n ∉ lateNames) :
    HeaderMap.lastValue (lateWrites W req adm upstream a) n = none := by
  rw [lastValue_eq_none, lateWrites, map_append, mem_append]
  rintro (hgzip | hsticky)
  · split at hgzip
    · exact hn (mem_append_left [setCookie, Header.contentLength] hgzip)
    · cases hgzip
  · exact hn (mem_stickyWrites hsticky ▸ by decide)

lemma survives_of_not_mem (hid : n ≠ Header.requestId)
    (hstripped : ¬ Stripped W req adm a n) (hedge : n ∉ edgeWrittenNames) (hlate : n ∉ lateNames)
    (hv : HeaderMap.lastValue (legalHeaders G adm.matched.route.rules.responseHeaders) n = some v) :
    Survives W req adm upstream a n v := by
  have hlength : n ≠ Header.contentLength := fun hn => hlate (hn ▸ by decide)
  rw [Survives, if_neg hid, lastValue_append, lastValue_lateWrites hlate, Option.none_or,
    lastValue_routeWrites _ _ hedge]
  exact ⟨hstripped, fun h => hlength h.2, hv⟩

lemma securityNames_apart : ∀ n ∈ securityNames, n ∉ originAndCacheNames ∧ n ∉ lateNames ∧
    n ≠ Header.requestId ∧ n ∉ strippedResponseHeaders := by
  decide

lemma lastValue_security (hmem : (n, v) ∈ securityWrites adm.matched.route.rules)
    (hentry : n ∉ (legalHeaders G adm.matched.route.rules.responseHeaders).map Prod.fst) :
    HeaderMap.lastValue (routeWrites req adm ++ lateWrites W req adm upstream a) n = some v := by
  have hname : n ∈ securityNames := mem_securityWrites (mem_map_of_mem hmem)
  obtain ⟨horigin, hlate, -⟩ := securityNames_apart n hname
  have hcors : HeaderMap.lastValue (corsWrites G adm.matched.route.rules
      (req.headers.get Header.origin)) n = none :=
    lastValue_eq_none.mpr fun hn => horigin (mem_corsWrites hn)
  have hcache : HeaderMap.lastValue (cacheWrites adm.path) n = none :=
    lastValue_eq_none.mpr fun hn => horigin (mem_cacheWrites hn)
  have hnodup : ((securityWrites adm.matched.route.rules).map Prod.fst).Nodup := by
    rw [securityWrites]
    split <;> decide
  rw [lastValue_append, lastValue_lateWrites hlate, routeWrites, ruleWrites]
  simp only [lastValue_append, hcors, hcache, lastValue_eq_none.mpr hentry,
    Option.none_or]
  exact lastValue_of_nodup hnodup hmem

lemma survives_security_iff (hmem : (n, v) ∈ securityWrites adm.matched.route.rules)
    (hentry : n ∉ (legalHeaders G adm.matched.route.rules.responseHeaders).map Prod.fst) :
    Survives W req adm upstream a n v ↔ ¬ Stripped W req adm a n := by
  have hname : n ∈ securityNames := mem_securityWrites (mem_map_of_mem hmem)
  obtain ⟨-, hlate, hid, -⟩ := securityNames_apart n hname
  have hlength : n ≠ Header.contentLength := fun hn => hlate (hn ▸ by simp [lateNames])
  rw [Survives, if_neg hid, lastValue_security hmem hentry]
  simp [hlength]

/-- **The headers of a route and of the edge are in the response with exactly their values,
exactly if each entry of the route survives the later stages** (the headers for other origins,
the defaults for caches, compression, the sticky session, the identifier of the request) **and
no `Connection` header that counts nominates a security header.** -/
theorem response_headers_exact_iff (h : AnswerOf W req s r adm upstream a) :
    (∀ n v, Required G adm.matched.route.rules n v → r.headers.getAll n = [v]) ↔
      (∀ n v, (n, v) ∈ legalHeaders G adm.matched.route.rules.responseHeaders →
        n ∉ strippedResponseHeaders → Survives W req adm upstream a n v) ∧
      ∀ n v, (n, v) ∈ securityWrites adm.matched.route.rules →
        n ∉ (legalHeaders G adm.matched.route.rules.responseHeaders).map Prod.fst →
          ¬ Stripped W req adm a n := by
  constructor
  · refine fun hexact => ⟨fun n v hmem hhop => ?_, fun n v hmem hentry => ?_⟩
    · have hreq : Required G adm.matched.route.rules n v := .inl ⟨hmem, hhop⟩
      exact (getAll_eq_singleton_iff h hreq.written).mp (hexact n v hreq)
    · have hreq : Required G adm.matched.route.rules n v := .inr ⟨hmem, hentry⟩
      rw [← survives_security_iff hmem hentry]
      exact (getAll_eq_singleton_iff h hreq.written).mp (hexact n v hreq)
  · rintro ⟨hentries, hsecurity⟩ n v hreq
    rw [getAll_eq_singleton_iff h hreq.written]
    rcases hreq with ⟨hmem, hhop⟩ | ⟨hmem, hentry⟩
    · exact hentries n v hmem hhop
    · exact (survives_security_iff hmem hentry).mpr (hsecurity n v hmem hentry)

def ownHeaderRules (name value : Text) : DomainRules :=
  { responseHeaders := Map.ofList [(name, value)], addSecurityHeaders := true }

/-- A header that nothing else writes is sent as configured. -/
theorem response_headers_exact_sample :
    ∃ r, (handle sampleWorld sampleConnection (rootRequest [])
        (sampleState (ownHeaderRules "x-app" "1") [])).result = .ok r ∧
      r.headers.getAll "x-app" = [.fromStatic "1"] ∧
      r.headers.getAll "x-frame-options" = [.fromStatic "DENY"] := by
  have hok : ((handle sampleWorld sampleConnection (rootRequest [])
      (sampleState (ownHeaderRules "x-app" "1") [])).result.toOption.any fun _ => true) = true := by
    decide +kernel
  obtain ⟨r, upstream, a, hr, -, h⟩ := exists_answerOf_sample hok
  have hlegal : legalHeaders .http1 (sampleMatch (ownHeaderRules "x-app" "1")
      []).route.rules.responseHeaders = [("x-app".toList, .fromStatic "1")] := by
    decide
  have hconnection : a.headers.getAll Header.connection = [] := by
    rw [headers_of_gives (fun _ _ => rfl) h.given]
    rfl
  have hkept : ∀ n ∉ strippedResponseHeaders, ¬ Stripped sampleWorld (rootRequest [])
      ⟨"a.io", "/", sampleMatch (ownHeaderRules "x-app" "1") []⟩ a n := by
    intro n hn
    have hentry : HeaderMap.lastValue (legalHeaders .http1 (sampleMatch
        (ownHeaderRules "x-app" "1") []).route.rules.responseHeaders) Header.connection = none := by
      rw [hlegal]
      decide
    exact (not_stripped_of_connection hn hentry hconnection).1
  have hexact := (response_headers_exact_iff h).mpr ⟨fun n v hmem hhop => ?_,
    fun n v hmem hentry => hkept n ?_⟩
  · refine ⟨r, hr, hexact _ _ (.inl ⟨?_, by decide⟩), hexact _ _ (.inr ⟨?_, ?_⟩)⟩
    · rw [hlegal]
      exact mem_singleton_self _
    · exact mem_of_getElem? (i := 2) rfl
    · rw [hlegal]
      decide
  · rw [hlegal, mem_singleton, Prod.mk.injEq] at hmem
    obtain ⟨rfl, rfl⟩ := hmem
    exact survives_of_not_mem (by decide) (hkept _ hhop) (by decide) (by decide)
      (by rw [hlegal]; decide)
  · exact (securityNames_apart n (mem_securityWrites (mem_map_of_mem hmem))).2.2.2

/-- The value that a route gives for caches does not reach the client: the default of the edge
takes its place. -/
theorem cache_default_overwrites_route :
    ∃ r adm upstream a, AnswerOf sampleWorld (rootRequest [])
        (sampleState (ownHeaderRules "cache-control" "private") []) r adm upstream a ∧
      Required .http1 adm.matched.route.rules "cache-control" (.fromStatic "private") ∧
      r.headers.getAll "cache-control" = [.fromStatic "no-cache"] := by
  have hok : ((handle sampleWorld sampleConnection (rootRequest [])
      (sampleState (ownHeaderRules "cache-control" "private") [])).result.toOption.any fun r =>
        r.headers.getAll "cache-control" == [.fromStatic "no-cache"]) = true := by
    decide +kernel
  obtain ⟨r, upstream, a, -, hcache, h⟩ := exists_answerOf_sample hok
  have hlegal : legalHeaders .http1 (sampleMatch (ownHeaderRules "cache-control" "private")
      []).route.rules.responseHeaders = [("cache-control".toList, .fromStatic "private")] := by
    decide
  refine ⟨r, _, upstream, a, h, .inl ⟨?_, by decide⟩, eq_of_beq hcache⟩
  rw [hlegal]
  exact mem_singleton_self _

end PxxlEdge
